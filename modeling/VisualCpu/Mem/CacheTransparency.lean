import VisualCpu.Mem.L1Coherence
import VisualCpu.Mem.WriteLog

/-!
# Transparency of the data cache

An address space with a coherent cache and the same address space with its cache
switched off translate, load and store alike. The cache stays coherent as long as
every write that bypasses it spares its valid lines.
-/

namespace VisualCpu

open AddressSpace

def MemoryEvent.SparesCache : MemoryEvent → Prop
  | .write agent cache addr size written =>
    ((agent = .scalar ∨ agent = .vector) ∧ Ram.contains addr size) ∨
      ∀ a ∈ written, ¬ cache.Holds a
  | _ => True

def SpareCache (log : List MemoryEvent) : Prop := ∀ e ∈ log, e.SparesCache

theorem spareCache_append {log log' : List MemoryEvent} :
    SpareCache (log ++ log') ↔ SpareCache log ∧ SpareCache log' := by
  simp only [SpareCache, List.mem_append, or_imp, forall_and]

theorem spareCache_cons {e : MemoryEvent} {log : List MemoryEvent} :
    SpareCache (e :: log) ↔ e.SparesCache ∧ SpareCache log := by
  simp [SpareCache]

namespace Bus

variable {D : Type} [Devices D]

theorem tryLoad_flag (bus : Bus D) (mmio : Bool) (addr : BitVec 64) (size : ℕ) :
    ({ bus with lastAccessMmio := mmio } : Bus D).tryLoad addr size = bus.tryLoad addr size := by
  cases describeRegion D addr size <;> rfl

theorem tryStore_flag (bus : Bus D) (mmio : Bool) (addr value : BitVec 64) (size : ℕ) :
    ({ bus with lastAccessMmio := mmio } : Bus D).tryStore addr value size =
      bus.tryStore addr value size := by
  cases describeRegion D addr size <;> rfl

theorem tryLoad_ram_eq (bus : Bus D) (addr : BitVec 64) (size : ℕ) :
    (bus.tryLoad addr size).2.ram = bus.ram := by
  unfold tryLoad
  cases describeRegion D addr size <;> rfl

theorem dmaWrite_cases (transaction : DmaTransaction) (data : Option (List (BitVec 8))) :
    (∃ bytes : List (BitVec 8), bytes.length ≤ transaction.size ∧ ∀ bus : Bus D,
      bus.dmaWrite transaction data =
        (.ok (), { bus with ram := bus.ram.storeBytes transaction.addr bytes })) ∨
      ∃ result, ∀ bus : Bus D, bus.dmaWrite transaction data = (result, bus) := by
  unfold dmaWrite
  by_cases hinitiator : transaction.initiator = ""
  · exact .inr ⟨_, fun bus => if_pos hinitiator⟩
  simp only [if_neg hinitiator]
  by_cases hsize : transaction.size = 0
  · exact .inr ⟨_, fun bus => if_pos hsize⟩
  simp only [if_neg hsize]
  cases data with
  | none => exact .inr ⟨_, fun bus => rfl⟩
  | some bytes =>
    cases describeSpan D transaction.addr transaction.size with
    | none => exact .inr ⟨_, fun bus => rfl⟩
    | some kind =>
      cases kind with
      | ram =>
        exact .inl ⟨bytes.take transaction.size, List.length_take_le _ _, fun bus => rfl⟩
      | mmio => exact .inr ⟨_, fun bus => rfl⟩
      | unmapped => exact .inr ⟨_, fun bus => rfl⟩

theorem storeBytes_of_not_mem (ram : Ram) {addr a : BitVec 64} {bytes : List (BitVec 8)} {size : ℕ}
    (hlen : bytes.length ≤ size) (ha : a ∉ MemoryEvent.span addr size) :
    ram.storeBytes addr bytes a = ram a := by
  simp only [MemoryEvent.span, Set.mem_setOf_eq, not_lt] at ha
  have hnone : bytes[(a - addr).toNat]? = none := List.getElem?_eq_none (by omega)
  simp only [Ram.storeBytes, hnone, Option.getD_none]

end Bus

namespace AddressSpace

open MemoryEvent

variable {D : Type} [Devices D]

/-- The first space uses its cache, which is coherent, and the second is the same space
with its cache switched off. The record of the last access may differ. -/
structure Uncached (as as' : AddressSpace D) : Prop where
  tlb : as'.tlb = as.tlb
  victim : as'.nextTlbVictim = as.nextTlbVictim
  bus : ∃ mmio, as'.bus = { as.bus with lastAccessMmio := mmio }
  on : as.l1.enabled
  off : as'.l1.enabled = false
  coherent : as.l1.Coherent as.bus.ram

/-- The same result, and address spaces that differ in the cache only. -/
def Alike {α : Type} (r r' : α × AddressSpace D) : Prop := r.1 = r'.1 ∧ Uncached r.2 r'.2

variable {as as' : AddressSpace D}

theorem Uncached.tryLoad_eq (h : Uncached as as') (addr : BitVec 64) (size : ℕ) :
    as'.bus.tryLoad addr size = as.bus.tryLoad addr size := by
  obtain ⟨mmio, hbus⟩ := h.bus
  rw [hbus, Bus.tryLoad_flag]

theorem Uncached.tryStore_eq (h : Uncached as as') (addr value : BitVec 64) (size : ℕ) :
    as'.bus.tryStore addr value size = as.bus.tryStore addr value size := by
  obtain ⟨mmio, hbus⟩ := h.bus
  rw [hbus, Bus.tryStore_flag]

omit [Devices D] in
theorem Uncached.setBus (h : Uncached as as') {bus : Bus D}
    (hspared : ∀ a, as.l1.Holds a → bus.ram a = as.bus.ram a) :
    Uncached { as with bus } { as' with bus } where
  tlb := h.tlb
  victim := h.victim
  bus := ⟨bus.lastAccessMmio, rfl⟩
  on := h.on
  off := h.off
  coherent := h.coherent.mono hspared

theorem Uncached.afterLoad (h : Uncached as as') (addr : BitVec 64) (size : ℕ) :
    Uncached { as with bus := (as.bus.tryLoad addr size).2 }
      { as' with bus := (as.bus.tryLoad addr size).2 } := by
  apply h.setBus
  intro a _
  rw [Bus.tryLoad_ram_eq]

variable {addr value : BitVec 64} {agent : WriteAgent} {type : AccessType} {pteAddr pte : BitVec 64}
  {size : ℕ}

theorem ofStore_spared (hspares : (ofStore agent as addr value size).SparesCache)
    (hbypass : agent = .scalar ∨ agent = .vector → ¬ Ram.contains addr size) (a : BitVec 64)
    (ha : as.l1.Holds a) : (as.bus.tryStore addr value size).2.ram a = as.bus.ram a := by
  have hfree : ∀ b ∈ storedBytes as.bus addr value size, ¬ as.l1.Holds b := by
    rcases hspares with ⟨hagent, hram⟩ | hfree
    · exact absurd hram (hbypass hagent)
    · exact hfree
  by_contra hne
  apply hfree a ?_ ha
  unfold storedBytes
  cases hregion : Bus.describeRegion D addr size with
  | ram =>
    rw [Bus.tryStore_ram _ _ (Bus.describeRegion_eq_ram hregion)] at hne
    by_contra hout
    apply hne
    exact if_neg hout
  | mmio => exact hne
  | unmapped => exact hne

theorem Uncached.afterStore (h : Uncached as as')
    (hspares : (ofStore agent as addr value size).SparesCache)
    (hbypass : agent = .scalar ∨ agent = .vector → ¬ Ram.contains addr size) :
    Uncached { as with bus := (as.bus.tryStore addr value size).2 }
      { as' with bus := (as.bus.tryStore addr value size).2 } :=
  h.setBus (ofStore_spared hspares hbypass)

theorem Uncached.updatePteAccessBits (h : Uncached as as')
    (hspares : SpareCache (as.accessBitsLog pteAddr pte type)) :
    (updatePteAccessBits as.bus pteAddr pte type).1 =
        (updatePteAccessBits as'.bus pteAddr pte type).1 ∧
      Uncached { as with bus := (updatePteAccessBits as.bus pteAddr pte type).2 }
        { as' with bus := (updatePteAccessBits as'.bus pteAddr pte type).2 } := by
  unfold AddressSpace.updatePteAccessBits accessBitsLog at *
  by_cases hsame : Pte.withAccessBits pte type = pte
  · simp only [if_pos hsame]
    exact ⟨trivial, h⟩
  simp only [if_neg hsame] at hspares ⊢
  have hspared := hspares _ List.mem_cons_self
  have hstored := h.afterStore hspared (by rintro (hagent | hagent) <;> cases hagent)
  rw [h.tryStore_eq]
  cases hstore : as.bus.tryStore pteAddr (Pte.withAccessBits pte type) 8 with
  | mk stored bus =>
    rw [hstore] at hstored
    cases stored with
    | true => exact ⟨rfl, hstored⟩
    | false => exact ⟨rfl, hstored⟩

omit [Devices D] in
theorem Uncached.fillTlb (h : Uncached as as') (satp vaddr paddr pte pteAddr : BitVec 64)
    (pageShift : ℕ) :
    Uncached (as.fillTlb satp vaddr paddr pte pteAddr pageShift)
      (as'.fillTlb satp vaddr paddr pte pteAddr pageShift) where
  tlb := by
    simp only [AddressSpace.fillTlb]
    rw [h.tlb, h.victim]
  victim := by
    simp only [AddressSpace.fillTlb]
    rw [h.victim]
  bus := h.bus
  on := h.on
  off := h.off
  coherent := h.coherent

variable (ctx : AccessContext)

variable {updateAccessBits : Bool}

theorem Uncached.finishLeaf (h : Uncached as as') (vaddr : BitVec 64)
    {level : ℕ}
    (hspares : SpareCache (as.finishLeafLog ctx type updateAccessBits level pteAddr pte)) :
    Alike (as.finishLeaf ctx vaddr type updateAccessBits level pteAddr pte)
      (as'.finishLeaf ctx vaddr type updateAccessBits level pteAddr pte) := by
  unfold AddressSpace.finishLeaf finishLeafLog at *
  split_ifs at hspares ⊢ with hperm hmis hupdate
  · exact ⟨rfl, h⟩
  · exact ⟨rfl, h⟩
  · obtain ⟨hresult, hspaces⟩ := h.updatePteAccessBits hspares
    cases hold : AddressSpace.updatePteAccessBits as.bus pteAddr pte type with
    | mk updated bus =>
      cases hnew : AddressSpace.updatePteAccessBits as'.bus pteAddr pte type with
      | mk updated' bus' =>
        rw [hold, hnew] at hresult hspaces
        subst hresult
        cases updated with
        | none => exact ⟨rfl, hspaces⟩
        | some value => exact ⟨rfl, hspaces.fillTlb _ _ _ _ _ _⟩
  · exact ⟨rfl, h.fillTlb _ _ _ _ _ _⟩

theorem Uncached.walkFrom (h : Uncached as as') (vaddr : BitVec 64) (type : AccessType)
    (updateAccessBits : Bool) {levels : ℕ} {ppn : BitVec 64}
    (hspares : SpareCache (walkFromLog ctx as vaddr type updateAccessBits levels ppn)) :
    Alike (walkFrom ctx as vaddr type updateAccessBits levels ppn)
      (walkFrom ctx as' vaddr type updateAccessBits levels ppn) := by
  induction levels generalizing as as' ppn with
  | zero => exact ⟨rfl, h⟩
  | succ level ih =>
    have hread := h.afterLoad ((ppn <<< 12) ||| (vpn vaddr level <<< 3)) 8
    simp only [walkFrom, walkFromLog, h.tryLoad_eq] at hspares ⊢
    cases hload : as.bus.tryLoad ((ppn <<< 12) ||| (vpn vaddr level <<< 3)) 8 with
    | mk read bus =>
      rw [hload] at hread hspares
      cases read with
      | none => exact ⟨rfl, hread⟩
      | some pte =>
        dsimp only at hspares ⊢
        split_ifs at hspares ⊢ with hvalid hreserved hleaf hbits
        · exact ⟨rfl, hread⟩
        · exact ⟨rfl, hread⟩
        · exact hread.finishLeaf ctx vaddr hspares
        · exact ⟨rfl, hread⟩
        · exact ih hread hspares

theorem Uncached.translateHit (h : Uncached as as') (i : Fin 32) (vaddr : BitVec 64)
    (hspares : SpareCache (as.translateHitLog ctx i type updateAccessBits)) :
    Alike (as.translateHit ctx i vaddr type updateAccessBits)
      (as'.translateHit ctx i vaddr type updateAccessBits) := by
  unfold AddressSpace.translateHit translateHitLog at *
  simp only [h.tlb] at hspares ⊢
  split_ifs at hspares ⊢ with hperm hupdate
  · exact ⟨rfl, h⟩
  · exact ⟨rfl, h⟩
  obtain ⟨hresult, hspaces⟩ := h.updatePteAccessBits hspares
  cases hold : AddressSpace.updatePteAccessBits as.bus (as.tlb i).pteAddr (as.tlb i).pte type with
  | mk updated bus =>
    cases hnew : AddressSpace.updatePteAccessBits as'.bus (as.tlb i).pteAddr (as.tlb i).pte
      type with
    | mk updated' bus' =>
      rw [hold, hnew] at hresult hspaces
      subst hresult
      cases updated with
      | none =>
        exact ⟨rfl, rfl, hspaces.victim, hspaces.bus, hspaces.on, hspaces.off, hspaces.coherent⟩
      | some value =>
        exact ⟨rfl, rfl, hspaces.victim, hspaces.bus, hspaces.on, hspaces.off, hspaces.coherent⟩

omit [Devices D] in
theorem Uncached.lookupTlb_eq (h : Uncached as as') (satp vaddr : BitVec 64) :
    as'.lookupTlb satp vaddr = as.lookupTlb satp vaddr := by
  unfold lookupTlb
  rw [h.tlb]

section

variable (h : Uncached as as') {remaining : ℕ}

include h

theorem Uncached.translate {vaddr : BitVec 64} {type : AccessType}
    (hspares : SpareCache (as.translateLog ctx vaddr type updateAccessBits)) :
    Alike (as.translate ctx vaddr type updateAccessBits)
      (as'.translate ctx vaddr type updateAccessBits) := by
  unfold AddressSpace.translate translateLog at *
  rw [h.lookupTlb_eq]
  split_ifs at hspares ⊢ with hbare hmode hcanonical
  · exact ⟨rfl, h⟩
  · exact ⟨rfl, h⟩
  · exact ⟨rfl, h⟩
  cases hlookup : as.lookupTlb ctx.satp vaddr with
  | some i =>
    rw [hlookup] at hspares
    exact h.translateHit ctx i vaddr hspares
  | none =>
    rw [hlookup] at hspares
    exact h.walkFrom ctx vaddr type updateAccessBits hspares

theorem Uncached.loadChunk (type : AccessType) (paddr : BitVec 64)
    (size : ℕ) : Alike (as.loadChunk type paddr size) (as'.loadChunk type paddr size) := by
  have hoff : ¬ (type = .load ∧ as'.l1.enabled) := by
    rintro ⟨-, hon⟩
    rw [h.off] at hon
    cases hon
  unfold AddressSpace.loadChunk
  rw [if_neg hoff, h.tryLoad_eq]
  by_cases hcached : type = .load ∧ as.l1.enabled
  · rw [if_pos hcached]
    obtain ⟨hvalue, ⟨mmio, hbus⟩, hcoherent, -, henabled⟩ := h.coherent.load paddr size
    have hbuses : ∃ mmio, (as.bus.tryLoad paddr size).2 =
        { (as.l1.load as.bus paddr size).2.2 with lastAccessMmio := mmio } := by
      rw [hbus]
      exact ⟨_, rfl⟩
    have hram : (as.l1.load as.bus paddr size).2.2.ram = as.bus.ram := by
      rw [hbus]
      exact Bus.tryLoad_ram_eq _ _ _
    refine ⟨hvalue, h.tlb, h.victim, hbuses, henabled.trans h.on, h.off, ?_⟩
    rw [hram]
    exact hcoherent
  · rw [if_neg hcached]
    exact ⟨rfl, h.afterLoad paddr size⟩

theorem Uncached.storeChunk {paddr value : BitVec 64}
    {size : ℕ} (hspares : (ofStore agent as paddr value size).SparesCache) :
    Alike (as.storeChunk paddr value size) (as'.storeChunk paddr value size) := by
  have hspared : ¬ Ram.contains paddr size → ∀ a, as.l1.Holds a →
      (as.bus.tryStore paddr value size).2.ram a = as.bus.ram a := fun hout =>
    ofStore_spared hspares fun _ => hout
  obtain ⟨hstored, hbus, hcoherent, -, henabled⟩ := h.coherent.store paddr value size hspared
  have hbuses : ∃ mmio, (as.bus.tryStore paddr value size).2 =
      { (as.l1.store as.bus paddr value size).2.2 with lastAccessMmio := mmio } := by
    rw [hbus]
    exact ⟨_, rfl⟩
  unfold AddressSpace.storeChunk
  rw [if_pos h.on]
  simp only [h.off, Bool.false_eq_true, if_false, h.tryStore_eq]
  exact ⟨hstored, h.tlb, h.victim, hbuses, henabled.trans h.on, h.off, hcoherent⟩

theorem Uncached.accessFrom (type : AccessType) (fuel : ℕ)
    {addr : BitVec 64} (shift : ℕ) (value : BitVec 64)
    (hspares : SpareCache (accessFromLog ctx type fuel as addr remaining)) :
    Alike (accessFrom ctx type fuel as addr remaining shift value)
      (accessFrom ctx type fuel as' addr remaining shift value) := by
  induction fuel generalizing as as' addr remaining shift value with
  | zero => exact ⟨rfl, h⟩
  | succ fuel ih =>
    simp only [accessFrom, accessFromLog] at hspares ⊢
    by_cases hdone : remaining = 0
    · rw [if_pos hdone, if_pos hdone]
      exact ⟨rfl, h⟩
    rw [if_neg hdone] at hspares
    rw [if_neg hdone, if_neg hdone]
    obtain ⟨htranslate, hrest⟩ := spareCache_append.1 hspares
    obtain ⟨hresult, hspaces⟩ := h.translate ctx htranslate
    cases hold : as.translate ctx addr type true with
    | mk result as₁ =>
      cases hnew : as'.translate ctx addr type true with
      | mk result' as₁' =>
        rw [hold, hnew] at hresult hspaces
        rw [hold] at hrest
        subst hresult
        cases result with
        | error fault => exact ⟨rfl, hspaces⟩
        | ok paddr =>
          obtain ⟨hvalue, hloaded⟩ := hspaces.loadChunk type paddr (pageChunkSize addr remaining)
          dsimp only at hrest hvalue hloaded ⊢
          cases hchunk : as₁.loadChunk type paddr (pageChunkSize addr remaining) with
          | mk read as₂ =>
            cases hchunk' : as₁'.loadChunk type paddr (pageChunkSize addr remaining) with
            | mk read' as₂' =>
              rw [hchunk, hchunk'] at hvalue hloaded
              rw [hchunk] at hrest
              subst hvalue
              cases read with
              | none => exact ⟨rfl, hloaded⟩
              | some chunkValue => exact ih hloaded _ _ hrest

theorem Uncached.storeFrom (agent : WriteAgent) (fuel : ℕ)
    (hspares : SpareCache (storeFromLog ctx agent fuel as addr value remaining)) :
    Alike (storeFrom ctx fuel as addr value remaining)
      (storeFrom ctx fuel as' addr value remaining) := by
  induction fuel generalizing as as' addr value remaining with
  | zero => exact ⟨rfl, h⟩
  | succ fuel ih =>
    simp only [storeFrom, storeFromLog] at hspares ⊢
    by_cases hdone : remaining = 0
    · rw [if_pos hdone, if_pos hdone]
      exact ⟨rfl, h⟩
    rw [if_neg hdone] at hspares
    rw [if_neg hdone, if_neg hdone]
    obtain ⟨htranslate, hrest⟩ := spareCache_append.1 hspares
    obtain ⟨hresult, hspaces⟩ := h.translate ctx htranslate
    cases hold : as.translate ctx addr .store true with
    | mk result as₁ =>
      cases hnew : as'.translate ctx addr .store true with
      | mk result' as₁' =>
        rw [hold, hnew] at hresult hspaces
        rw [hold] at hrest
        subst hresult
        cases result with
        | error fault => exact ⟨rfl, hspaces⟩
        | ok paddr =>
          dsimp only at hrest ⊢
          obtain ⟨hstore, htail⟩ := spareCache_cons.1 hrest
          obtain ⟨hvalue, hstored⟩ := hspaces.storeChunk hstore
          generalize pageChunkSize addr remaining = chunk at *
          cases hchunk : as₁.storeChunk paddr (value &&& sizeMask chunk) chunk with
          | mk done as₂ =>
            cases hchunk' : as₁'.storeChunk paddr (value &&& sizeMask chunk) chunk with
            | mk done' as₂' =>
              rw [hchunk, hchunk'] at hvalue hstored
              rw [hchunk] at htail
              subst hvalue
              cases done with
              | false => exact ⟨rfl, hstored⟩
              | true => exact ih hstored htail

end

end AddressSpace

end VisualCpu
