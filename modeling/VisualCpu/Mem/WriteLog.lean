import VisualCpu.Mem.AddressSpace

/-!
# The log of memory writes

Beside each operation that may write memory, the list of the writes it makes, in
order. A write is recorded with the agent that makes it, the state of the data
cache at that moment and the bytes of RAM that it writes; a store to a device
writes the bytes of RAM that the device changes.
-/

namespace VisualCpu

/-- Who writes memory. -/
inductive WriteAgent where
  | walker | scalar | vector | conditional | readModifyWrite | dma
deriving DecidableEq

inductive MemoryEvent where
  /-- A load-reserved sets the reservation. -/
  | reserve (addr : BitVec 64) (size : ℕ)
  | write (agent : WriteAgent) (cache : L1Cache) (addr : BitVec 64) (size : ℕ)
      (written : Set (BitVec 64))
  | trap

namespace MemoryEvent

/-- The bytes of an access. -/
def span (addr : BitVec 64) (size : ℕ) : Set (BitVec 64) := {a | (a - addr).toNat < size}

variable {D : Type} [Devices D]

/-- The bytes of RAM that `try_store` writes. -/
def storedBytes (bus : Bus D) (addr value : BitVec 64) (size : ℕ) : Set (BitVec 64) :=
  match Bus.describeRegion D addr size with
  | .ram => span addr size
  | _ => {a | (bus.tryStore addr value size).2.ram a ≠ bus.ram a}

/-- The event of a store by `try_store` in the address space. -/
def ofStore (agent : WriteAgent) (as : AddressSpace D) (addr value : BitVec 64) (size : ℕ) :
    MemoryEvent :=
  .write agent as.l1 addr size (storedBytes as.bus addr value size)

end MemoryEvent

namespace AddressSpace

variable {D : Type} [Devices D] (as : AddressSpace D) (ctx : AccessContext)

/-- The write of `update_pte_access_bits`. -/
def accessBitsLog (pteAddr pte : BitVec 64) (type : AccessType) : List MemoryEvent :=
  let updated := Pte.withAccessBits pte type
  if updated = pte then [] else [.ofStore .walker as pteAddr updated 8]

def finishLeafLog (type : AccessType) (updateAccessBits : Bool) (level : ℕ)
    (pteAddr pte : BitVec 64) : List MemoryEvent :=
  if !checkLeafPermissions ctx type pte then []
  else if misalignedSuperpage level pte then []
  else if updateAccessBits then as.accessBitsLog pteAddr pte type
  else []

def walkFromLog (as : AddressSpace D) (vaddr : BitVec 64) (type : AccessType)
    (updateAccessBits : Bool) : ℕ → BitVec 64 → List MemoryEvent
  | 0, _ => []
  | level + 1, ppn =>
    let pteAddr := (ppn <<< 12) ||| (vpn vaddr level <<< 3)
    match as.bus.tryLoad pteAddr 8 with
    | (none, _) => []
    | (some pte, bus) =>
      let as : AddressSpace D := { as with bus }
      if !testMask pte Pte.v then []
      else if testMask pte Pte.reservedMask then []
      else if Pte.isLeaf pte then as.finishLeafLog ctx type updateAccessBits level pteAddr pte
      else if testMask pte (Pte.u ||| Pte.a ||| Pte.d) then []
      else walkFromLog as vaddr type updateAccessBits level (Pte.ppn pte)

def translateHitLog (i : Fin 32) (type : AccessType) (updateAccessBits : Bool) :
    List MemoryEvent :=
  let entry := as.tlb i
  if !checkLeafPermissions ctx type entry.pte then []
  else if !updateAccessBits then []
  else as.accessBitsLog entry.pteAddr entry.pte type

def translateLog (vaddr : BitVec 64) (type : AccessType) (updateAccessBits : Bool) :
    List MemoryEvent :=
  if ctx.satpMode = CsrFile.satpModeBare ∨ ctx.effectiveMode type = .machine then []
  else if ctx.satpMode ≠ CsrFile.satpModeSv39 then []
  else if !isSv39Canonical vaddr then []
  else
    match as.lookupTlb ctx.satp vaddr with
    | some i => as.translateHitLog ctx i type updateAccessBits
    | none =>
      walkFromLog ctx as vaddr type updateAccessBits 3 (ctx.satp &&& CsrFile.satpPpnMask)

/-- The writes of the loop of `access_result`: those of its translations. -/
def accessFromLog (type : AccessType) : ℕ → AddressSpace D → BitVec 64 → ℕ → List MemoryEvent
  | 0, _, _, _ => []
  | fuel + 1, as, addr, remaining =>
    if remaining = 0 then []
    else
      let chunk := pageChunkSize addr remaining
      as.translateLog ctx addr type true ++
        match as.translate ctx addr type true with
        | (.error _, _) => []
        | (.ok paddr, as) =>
          match as.loadChunk type paddr chunk with
          | (none, _) => []
          | (some _, as) =>
            accessFromLog type fuel as (addr + BitVec.ofNat 64 chunk) (remaining - chunk)

/-- The writes of the loop of `store_result`, for a store by the given agent. -/
def storeFromLog (agent : WriteAgent) :
    ℕ → AddressSpace D → BitVec 64 → BitVec 64 → ℕ → List MemoryEvent
  | 0, _, _, _, _ => []
  | fuel + 1, as, addr, value, remaining =>
    if remaining = 0 then []
    else
      let chunk := pageChunkSize addr remaining
      as.translateLog ctx addr .store true ++
        match as.translate ctx addr .store true with
        | (.error _, _) => []
        | (.ok paddr, as) =>
          .ofStore agent as paddr (value &&& sizeMask chunk) chunk ::
            match as.storeChunk paddr (value &&& sizeMask chunk) chunk with
            | (false, _) => []
            | (true, as) =>
              storeFromLog agent fuel as (addr + BitVec.ofNat 64 chunk) (value >>> (8 * chunk))
                (remaining - chunk)

theorem translateLog_false (vaddr : BitVec 64) (type : AccessType) :
    as.translateLog ctx vaddr type false = [] := by
  have hleaf : ∀ (as : AddressSpace D) level pteAddr pte,
      as.finishLeafLog ctx type false level pteAddr pte = [] := by
    intro as level pteAddr pte
    simp [finishLeafLog]
  have hwalk : ∀ (as : AddressSpace D) levels ppn,
      walkFromLog ctx as vaddr type false levels ppn = [] := by
    intro as levels
    induction levels generalizing as with
    | zero => exact fun _ => rfl
    | succ level ih =>
      intro ppn
      simp only [walkFromLog]
      cases as.bus.tryLoad ((ppn <<< 12) ||| (vpn vaddr level <<< 3)) 8 with
      | mk read bus =>
        cases read with
        | none => rfl
        | some pte =>
          dsimp only
          split_ifs
          · rfl
          · rfl
          · exact hleaf _ _ _ _
          · rfl
          · exact ih _ _
  unfold translateLog
  split_ifs
  · rfl
  · rfl
  · rfl
  · cases as.lookupTlb ctx.satp vaddr with
    | some i => simp [translateHitLog]
    | none => exact hwalk _ _ _

end AddressSpace

end VisualCpu
