import VisualCpu.Arch.CsrFile
import VisualCpu.Mem.L1Cache

/-!
# Virtual memory

Sv39 translation with a 32-entry translation buffer, and the fetch, load and
store operations built on it. An access that crosses a page is split at the
boundary and translated once for each part. The functions follow
`address_space.cpp`; the registers they consult are gathered in `AccessContext`.
-/

namespace VisualCpu

inductive AccessType where
  | instruction | load | store
deriving DecidableEq

namespace AccessType

def accessFaultCause : AccessType → BitVec 64
  | .instruction => 1
  | .load => 5
  | .store => 7

def pageFaultCause : AccessType → BitVec 64
  | .instruction => 12
  | .load => 13
  | .store => 15

def accessFault (type : AccessType) (addr : BitVec 64) : TrapRequest :=
  ⟨type.accessFaultCause, addr⟩

def pageFault (type : AccessType) (addr : BitVec 64) : TrapRequest := ⟨type.pageFaultCause, addr⟩

end AccessType

/-- The registers that decide an access: `satp`, `mstatus` and the current mode. -/
structure AccessContext where
  (satp mstatus : BitVec 64)
  privilege : PrivilegeMode

/-- `effective_privilege_mode`: MPRV redirects machine-mode data accesses. -/
def AccessContext.effectiveMode (ctx : AccessContext) (type : AccessType) : PrivilegeMode :=
  if type = .instruction then ctx.privilege
  else if ctx.privilege = .machine ∧ testMask ctx.mstatus Mstatus.mprv then
    PrivilegeMode.decode ((ctx.mstatus &&& Mstatus.mppMask) >>> 11)
  else ctx.privilege

def AccessContext.satpMode (ctx : AccessContext) : BitVec 64 := (ctx.satp &&& (0xF#64 <<< 60)) >>> 60

namespace Pte

def v : BitVec 64 := 1#64 <<< 0
def r : BitVec 64 := 1#64 <<< 1
def w : BitVec 64 := 1#64 <<< 2
def x : BitVec 64 := 1#64 <<< 3
def u : BitVec 64 := 1#64 <<< 4
def a : BitVec 64 := 1#64 <<< 6
def d : BitVec 64 := 1#64 <<< 7
def reservedMask : BitVec 64 := 0xFFC0000000000000
def ppnMask : BitVec 64 := (1#64 <<< 44) - 1

def ppn (pte : BitVec 64) : BitVec 64 := (pte >>> 10) &&& ppnMask

def isLeaf (pte : BitVec 64) : Bool := testMask pte (r ||| w ||| x)

def withAccessBits (pte : BitVec 64) (type : AccessType) : BitVec 64 :=
  if type = .store then pte ||| a ||| d else pte ||| a

end Pte

structure TlbEntry where
  valid : Bool
  (satp vpageBase ppageBase pte pteAddr : BitVec 64)
  pageShift : ℕ

def TlbEntry.empty : TlbEntry := ⟨false, 0, 0, 0, 0, 0, 0⟩

/-- The translation buffer, the data cache and the bus behind them. -/
structure AddressSpace (D : Type) where
  tlb : Fin 32 → TlbEntry
  nextTlbVictim : Fin 32
  l1 : L1Cache
  bus : Bus D

namespace AddressSpace

variable {D : Type}

def pageMask (shift : ℕ) : BitVec 64 := (1#64 <<< shift) - 1

def isSv39Canonical (vaddr : BitVec 64) : Bool :=
  vaddr >>> 39 == if (vaddr >>> 38) &&& 1 ≠ 0 then (1#64 <<< 25) - 1 else 0

def sizeMask (size : ℕ) : BitVec 64 :=
  if 8 ≤ size then BitVec.allOnes 64 else (1#64 <<< (8 * size)) - 1

/-- The part of an access that lies in the first page it touches. -/
def pageChunkSize (addr : BitVec 64) (remaining : ℕ) : ℕ :=
  min remaining (4096 - (addr &&& 0xFFF).toNat)

def vpn (vaddr : BitVec 64) (level : ℕ) : BitVec 64 := (vaddr >>> (12 + 9 * level)) &&& 0x1FF

def canAccessUserPage (type : AccessType) (mode : PrivilegeMode) (mstatus : BitVec 64) : Bool :=
  if mode = .user then true
  else if type = .instruction then false
  else testMask mstatus Mstatus.sum

/-- `check_leaf_permissions`: whether a leaf entry admits the access. -/
def checkLeafPermissions (ctx : AccessContext) (type : AccessType) (pte : BitVec 64) : Bool :=
  let readable := testMask pte Pte.r
  let writable := testMask pte Pte.w
  let executable := testMask pte Pte.x
  let userAccessible := testMask pte Pte.u
  let mode := ctx.effectiveMode type
  if writable && !readable then false
  else if mode = .user && !userAccessible then false
  else if mode ≠ .user && userAccessible && !canAccessUserPage type mode ctx.mstatus then false
  else
    match type with
    | .instruction => executable
    | .load => readable || (testMask ctx.mstatus Mstatus.mxr && executable)
    | .store => writable

/-- A superpage leaf whose low page-number bits are not zero. -/
def misalignedSuperpage (level : ℕ) (pte : BitVec 64) : Bool :=
  match level with
  | 1 => testMask (Pte.ppn pte) 0x1FF
  | 2 => testMask (Pte.ppn pte) ((1#64 <<< 18) - 1)
  | _ => false

variable (as : AddressSpace D)

def flushTlb : AddressSpace D :=
  { as with tlb := fun i => { as.tlb i with valid := false }, nextTlbVictim := 0 }

/-- The entry translates the address under the given `satp`. -/
def entryMatches (entry : TlbEntry) (satp vaddr : BitVec 64) : Bool :=
  entry.valid && entry.satp == satp && vaddr &&& ~~~pageMask entry.pageShift == entry.vpageBase

/-- Index of the first entry that translates the address. -/
def lookupTlb (satp vaddr : BitVec 64) : Option (Fin 32) :=
  (List.finRange 32).find? fun i => entryMatches (as.tlb i) satp vaddr

/-- `fill_tlb`: install an entry in round-robin order. -/
def fillTlb (satp vaddr paddr pte pteAddr : BitVec 64) (pageShift : ℕ) : AddressSpace D :=
  { as with
    tlb := Function.update as.tlb as.nextTlbVictim
      { valid := true, satp, vpageBase := vaddr &&& ~~~pageMask pageShift,
        ppageBase := paddr &&& ~~~pageMask pageShift, pte, pteAddr, pageShift }
    nextTlbVictim := as.nextTlbVictim + 1 }

variable [Devices D] (ctx : AccessContext)

/-- `update_pte_access_bits`: the entry with its access bits set in memory, or
nothing when the write of the entry is refused. -/
def updatePteAccessBits (bus : Bus D) (pteAddr pte : BitVec 64) (type : AccessType) :
    Option (BitVec 64) × Bus D :=
  let updated := Pte.withAccessBits pte type
  if updated = pte then (some pte, bus)
  else
    match bus.tryStore pteAddr updated 8 with
    | (true, bus) => (some updated, bus)
    | (false, bus) => (none, bus)

/-- The last steps of a walk, at a leaf entry. -/
def finishLeaf (vaddr : BitVec 64) (type : AccessType) (updateAccessBits : Bool) (level : ℕ)
    (pteAddr pte : BitVec 64) : Except TrapRequest (BitVec 64) × AddressSpace D :=
  if !checkLeafPermissions ctx type pte then (.error (type.pageFault vaddr), as)
  else if misalignedSuperpage level pte then (.error (type.pageFault vaddr), as)
  else
    let paddr := (Pte.ppn pte <<< 12) ||| (vaddr &&& pageMask (12 + 9 * level))
    if updateAccessBits then
      match updatePteAccessBits as.bus pteAddr pte type with
      | (none, bus) => (.error (type.accessFault vaddr), { as with bus })
      | (some updated, bus) =>
        (.ok paddr,
          ({ as with bus } : AddressSpace D).fillTlb ctx.satp vaddr paddr updated pteAddr
            (12 + 9 * level))
    else (.ok paddr, as.fillTlb ctx.satp vaddr paddr pte pteAddr (12 + 9 * level))

/-- The loop of `walk_page_table`, counting the levels that remain. -/
def walkFrom (as : AddressSpace D) (vaddr : BitVec 64) (type : AccessType)
    (updateAccessBits : Bool) : ℕ → BitVec 64 → Except TrapRequest (BitVec 64) × AddressSpace D
  | 0, _ => (.error (type.pageFault vaddr), as)
  | level + 1, ppn =>
    let pteAddr := (ppn <<< 12) ||| (vpn vaddr level <<< 3)
    match as.bus.tryLoad pteAddr 8 with
    | (none, bus) => (.error (type.accessFault vaddr), { as with bus })
    | (some pte, bus) =>
      let as : AddressSpace D := { as with bus }
      if !testMask pte Pte.v then (.error (type.pageFault vaddr), as)
      else if testMask pte Pte.reservedMask then (.error (type.pageFault vaddr), as)
      else if Pte.isLeaf pte then as.finishLeaf ctx vaddr type updateAccessBits level pteAddr pte
      else if testMask pte (Pte.u ||| Pte.a ||| Pte.d) then (.error (type.pageFault vaddr), as)
      else walkFrom as vaddr type updateAccessBits level (Pte.ppn pte)

/-- `walk_page_table`: three levels from the root in `satp`. -/
def walkPageTable (vaddr : BitVec 64) (type : AccessType) (updateAccessBits : Bool) :
    Except TrapRequest (BitVec 64) × AddressSpace D :=
  walkFrom ctx as vaddr type updateAccessBits 3 (ctx.satp &&& CsrFile.satpPpnMask)

/-- A translation that found an entry in the buffer. -/
def translateHit (i : Fin 32) (vaddr : BitVec 64) (type : AccessType) (updateAccessBits : Bool) :
    Except TrapRequest (BitVec 64) × AddressSpace D :=
  let entry := as.tlb i
  let paddr := entry.ppageBase ||| (vaddr &&& pageMask entry.pageShift)
  if !checkLeafPermissions ctx type entry.pte then (.error (type.pageFault vaddr), as)
  else if !updateAccessBits then (.ok paddr, as)
  else
    match updatePteAccessBits as.bus entry.pteAddr entry.pte type with
    | (none, bus) => (.error (type.accessFault vaddr), { as with bus })
    | (some pte, bus) =>
      (.ok paddr, { as with bus, tlb := Function.update as.tlb i { entry with pte } })

/-- `translate`: the physical address, or the fault to deliver. -/
def translate (vaddr : BitVec 64) (type : AccessType) (updateAccessBits : Bool) :
    Except TrapRequest (BitVec 64) × AddressSpace D :=
  if ctx.satpMode = CsrFile.satpModeBare ∨ ctx.effectiveMode type = .machine then (.ok vaddr, as)
  else if ctx.satpMode ≠ CsrFile.satpModeSv39 then (.error (type.pageFault vaddr), as)
  else if !isSv39Canonical vaddr then (.error (type.pageFault vaddr), as)
  else
    match as.lookupTlb ctx.satp vaddr with
    | some i => as.translateHit ctx i vaddr type updateAccessBits
    | none => as.walkPageTable ctx vaddr type updateAccessBits

/-- The physical read of one part of an access; only data loads use the cache. -/
def loadChunk (type : AccessType) (paddr : BitVec 64) (size : ℕ) :
    Option (BitVec 64) × AddressSpace D :=
  if type = .load ∧ as.l1.enabled then
    let (value, l1, bus) := as.l1.load as.bus paddr size
    (value, { as with l1, bus })
  else
    let (value, bus) := as.bus.tryLoad paddr size
    (value, { as with bus })

/-- `try_data_store`. -/
def storeChunk (paddr value : BitVec 64) (size : ℕ) : Bool × AddressSpace D :=
  if as.l1.enabled then
    let (stored, l1, bus) := as.l1.store as.bus paddr value size
    (stored, { as with l1, bus })
  else
    let (stored, bus) := as.bus.tryStore paddr value size
    (stored, { as with bus })

/-- The loop of `access_result`. Every round takes at least one byte, so the
size of the access bounds the rounds. -/
def accessFrom (type : AccessType) : ℕ → AddressSpace D → BitVec 64 → ℕ → ℕ → BitVec 64 →
    Except TrapRequest (BitVec 64) × AddressSpace D
  | 0, as, _, _, _, value => (.ok value, as)
  | fuel + 1, as, addr, remaining, shift, value =>
    if remaining = 0 then (.ok value, as)
    else
      let chunk := pageChunkSize addr remaining
      match as.translate ctx addr type true with
      | (.error fault, as) => (.error fault, as)
      | (.ok paddr, as) =>
        match as.loadChunk type paddr chunk with
        | (none, as) => (.error (type.accessFault addr), as)
        | (some chunkValue, as) =>
          accessFrom type fuel as (addr + BitVec.ofNat 64 chunk) (remaining - chunk)
            (shift + 8 * chunk) (value ||| (chunkValue &&& sizeMask chunk) <<< shift)

def accessResult (vaddr : BitVec 64) (size : ℕ) (type : AccessType) :
    Except TrapRequest (BitVec 64) × AddressSpace D :=
  accessFrom ctx type size as vaddr size 0 0

def fetch16Result (pc : BitVec 64) : Except TrapRequest (BitVec 64) × AddressSpace D :=
  as.accessResult ctx pc 2 .instruction

def fetch32Result (pc : BitVec 64) : Except TrapRequest (BitVec 64) × AddressSpace D :=
  as.accessResult ctx pc 4 .instruction

def loadResult (addr : BitVec 64) (size : ℕ) : Except TrapRequest (BitVec 64) × AddressSpace D :=
  as.accessResult ctx addr size .load

/-- The loop of `store_result`. -/
def storeFrom : ℕ → AddressSpace D → BitVec 64 → BitVec 64 → ℕ →
    Option TrapRequest × AddressSpace D
  | 0, as, _, _, _ => (none, as)
  | fuel + 1, as, addr, value, remaining =>
    if remaining = 0 then (none, as)
    else
      let chunk := pageChunkSize addr remaining
      match as.translate ctx addr .store true with
      | (.error fault, as) => (some fault, as)
      | (.ok paddr, as) =>
        match as.storeChunk paddr (value &&& sizeMask chunk) chunk with
        | (false, as) => (some (AccessType.store.accessFault addr), as)
        | (true, as) =>
          storeFrom fuel as (addr + BitVec.ofNat 64 chunk) (value >>> (8 * chunk))
            (remaining - chunk)

/-- `store_result`: the fault that stopped the store, if any. -/
def storeResult (addr value : BitVec 64) (size : ℕ) : Option TrapRequest × AddressSpace D :=
  storeFrom ctx size as addr value size

end AddressSpace

end VisualCpu
