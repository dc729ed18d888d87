import VisualCpu.Exec.Semantics

/-!
# Outcomes of the commit boundary

The accesses of an instruction change the address space, the reservation and the vector
registers. After them the boundary either takes a trap or finishes with the effects of
the instruction, and only a trap return and a halt flush the pipeline when it finishes.
-/

namespace VisualCpu

namespace Cpu

variable {D : Type}

/-- The second processor is the first after some accesses. -/
def Accessed (cpu cpu' : Cpu D) : Prop :=
  ∃ vector reservation addressSpace, cpu' =
    { cpu with
      core := { cpu.core with vector }
      trap := { cpu.trap with reservation }
      addressSpace }

variable {a b c : Cpu D}

theorem Accessed.refl (cpu : Cpu D) : cpu.Accessed cpu :=
  ⟨cpu.core.vector, cpu.trap.reservation, cpu.addressSpace, rfl⟩

theorem Accessed.trans (hab : a.Accessed b) (hbc : b.Accessed c) : a.Accessed c := by
  obtain ⟨_, _, _, rfl⟩ := hab
  obtain ⟨vector, reservation, addressSpace, rfl⟩ := hbc
  exact ⟨vector, reservation, addressSpace, rfl⟩

theorem Accessed.memory (cpu : Cpu D) (addressSpace : AddressSpace D) :
    cpu.Accessed { cpu with addressSpace } :=
  ⟨cpu.core.vector, cpu.trap.reservation, addressSpace, rfl⟩

theorem Accessed.clearReservation (h : a.Accessed b) : a.Accessed b.clearReservation :=
  h.trans ⟨b.core.vector, none, b.addressSpace, rfl⟩

theorem Accessed.setReservation (h : a.Accessed b) (paddr : BitVec 64) (size : ℕ) :
    a.Accessed (b.setReservation paddr size) :=
  h.trans ⟨b.core.vector, _, b.addressSpace, rfl⟩

theorem Accessed.invalidateReservation (h : a.Accessed b) (paddr : BitVec 64) (size : ℕ) :
    a.Accessed (b.invalidateReservation paddr size) := by
  unfold Cpu.invalidateReservation
  split
  · exact h
  split_ifs
  · exact h.clearReservation
  · exact h

theorem Accessed.setVector (h : a.Accessed b) (vector : VectorState) :
    a.Accessed (b.setVector vector) :=
  h.trans ⟨vector, b.trap.reservation, b.addressSpace, rfl⟩

variable [Devices D]

section

variable (h : a.Accessed b)

include h

theorem Accessed.translateResult (vaddr : BitVec 64) (type : AccessType)
    (update : Bool) : a.Accessed (b.translateResult vaddr type update).2 := h.trans (.memory b _)

theorem Accessed.tryLoad (paddr : BitVec 64) (size : ℕ) :
    a.Accessed (b.tryLoad paddr size).2 := h.trans (.memory b _)

theorem Accessed.tryStore (paddr value : BitVec 64) (size : ℕ) :
    a.Accessed (b.tryStore paddr value size).2 := h.trans (.memory b _)

theorem Accessed.invalidateReservationForStore (addr : BitVec 64) (size : ℕ) :
    a.Accessed (b.invalidateReservationForStore addr size) := by
  unfold Cpu.invalidateReservationForStore
  split_ifs
  · exact h.clearReservation
  have htranslated := h.translateResult addr .store false
  rcases hresult : b.translateResult addr .store false with ⟨fault | paddr, cpu⟩
  · rw [hresult] at htranslated
    exact htranslated.clearReservation
  rw [hresult] at htranslated
  exact htranslated.invalidateReservation _ _

section

variable (request : AtomicRequest)

include request

theorem Accessed.applyLoadReserved (paddr : BitVec 64) :
    a.Accessed (b.applyLoadReserved request paddr).2 := by
  unfold Cpu.applyLoadReserved
  have hload := h.tryLoad paddr request.size
  rcases hresult : b.tryLoad paddr request.size with ⟨_ | loaded, cpu⟩
  · rw [hresult] at hload
    exact hload
  rw [hresult] at hload
  exact hload.setReservation _ _

theorem Accessed.applyStoreConditional
    (paddr : BitVec 64) : a.Accessed (b.applyStoreConditional request paddr).2 := by
  unfold Cpu.applyStoreConditional
  split_ifs
  · exact h.clearReservation
  have hstore := h.clearReservation.tryStore paddr
    (AtomicOps.storeMaskedValue request.storeValue request.size) request.size
  split
  · next heq =>
    rw [heq] at hstore
    exact hstore
  · next heq =>
    rw [heq] at hstore
    exact hstore

theorem Accessed.applyReadModifyWrite
    (paddr : BitVec 64) : a.Accessed (b.applyReadModifyWrite request paddr).2 := by
  unfold Cpu.applyReadModifyWrite
  have hload := h.tryLoad paddr request.size
  rcases hresult : b.tryLoad paddr request.size with ⟨_ | loaded, cpu⟩
  · rw [hresult] at hload
    exact hload
  rw [hresult] at hload
  have hstore := hload.tryStore paddr (AtomicOps.storeMaskedValue
    (AtomicOps.computeAmoResult request.kind loaded request.storeValue request.size)
    request.size) request.size
  simp only
  split
  · next heq =>
    rw [heq] at hstore
    exact hstore
  · next heq =>
    rw [heq] at hstore
    exact hstore.invalidateReservation _ _

theorem Accessed.applyAtomicRequest : a.Accessed (b.applyAtomicRequest request).2 := by
  unfold Cpu.applyAtomicRequest
  split_ifs
  · exact h
  · exact h
  have htranslated := h.translateResult request.addr (AtomicOps.accessType request.kind) true
  rcases hresult : b.translateResult request.addr (AtomicOps.accessType request.kind) true with
    ⟨fault | paddr, cpu⟩
  · rw [hresult] at htranslated
    exact htranslated
  rw [hresult] at htranslated
  simp only
  split
  · exact htranslated.applyLoadReserved _ _
  · exact htranslated.applyStoreConditional _ _
  · exact htranslated.applyReadModifyWrite _ _

end

end

namespace Accessed

theorem validateVectorMemorySpan (type : AccessType) (bytes : ℕ) :
    ∀ (b : Cpu D) (addr : BitVec 64) (span : Option RamSpan), a.Accessed b →
      a.Accessed (Cpu.validateVectorMemorySpan type bytes b addr span).2 := by
  induction bytes with
  | zero => exact fun b _ _ h => h
  | succ bytes ih =>
    intro b addr span h
    unfold Cpu.validateVectorMemorySpan
    have htranslated := h.translateResult addr type false
    rcases hresult : b.translateResult addr type false with ⟨fault | paddr, cpu⟩
    · rw [hresult] at htranslated
      exact htranslated
    rw [hresult] at htranslated
    simp only
    split
    · exact htranslated
    · exact ih cpu _ _ htranslated

theorem loadVectorBytes (addr : BitVec 64) (count : ℕ) :
    ∀ (i : ℕ) (b : Cpu D) (reg : VectorReg), a.Accessed b →
      a.Accessed (Cpu.loadVectorBytes addr count i b reg).2 := by
  induction count with
  | zero => exact fun _ b _ h => h
  | succ count ih =>
    intro i b reg h
    unfold Cpu.loadVectorBytes
    have hload : a.Accessed (b.loadResult (addr + BitVec.ofNat 64 i) 1).2 := h.trans (.memory b _)
    rcases hresult : b.loadResult (addr + BitVec.ofNat 64 i) 1 with ⟨fault | value, cpu⟩
    · rw [hresult] at hload
      exact hload
    rw [hresult] at hload
    exact ih _ cpu _ hload

theorem storeVectorBytes (addr : BitVec 64) (reg : VectorReg) (count : ℕ) :
    ∀ (i : ℕ) (b : Cpu D) (changed : Bool), a.Accessed b →
      a.Accessed (Cpu.storeVectorBytes addr reg count i b changed).2 := by
  induction count with
  | zero => exact fun _ b _ h => h
  | succ count ih =>
    intro i b changed h
    unfold Cpu.storeVectorBytes
    have hstore : a.Accessed (b.storeResult (addr + BitVec.ofNat 64 i)
      ((VectorOps.byteAt reg i).setWidth 64) 1).2 := h.trans (.memory b _)
    rcases hresult : b.storeResult (addr + BitVec.ofNat 64 i)
      ((VectorOps.byteAt reg i).setWidth 64) 1 with ⟨_ | fault, cpu⟩
    · rw [hresult] at hstore
      exact ih _ cpu _ hstore
    rw [hresult] at hstore
    exact hstore

theorem applyVectorRequest (h : a.Accessed b) (request : VectorRequest) :
    a.Accessed (b.applyVectorRequest request).2 := by
  have halu : a.Accessed (b.applyVectorAlu request).2 := by
    unfold applyVectorAlu
    split
    · exact h.setVector _
    split
    · exact h
    · exact h.setVector _
  unfold Cpu.applyVectorRequest
  split
  · exact h
  · split
    · exact h
    · exact h.setVector _
  · unfold applyVectorLoad
    split_ifs
    · exact h
    · exact h
    have hvalid := validateVectorMemorySpan .load b.vectorBytes b request.addr none h
    rcases hresult : Cpu.validateVectorMemorySpan .load b.vectorBytes b request.addr none with
      ⟨_ | fault, cpu⟩
    · rw [hresult] at hvalid
      have hload := loadVectorBytes request.addr b.vectorBytes 0 cpu
        (Vector.replicate 16 0) hvalid
      simp only
      split
      · next heq =>
        rw [heq] at hload
        exact hload
      · next heq =>
        rw [heq] at hload
        exact hload.setVector _
    · rw [hresult] at hvalid
      exact hvalid
  · unfold applyVectorStore
    split_ifs
    · exact h
    · exact h
    have hvalid := validateVectorMemorySpan .store b.vectorBytes b request.addr none h
    rcases hresult : Cpu.validateVectorMemorySpan .store b.vectorBytes b request.addr none with
      ⟨_ | fault, cpu⟩
    · rw [hresult] at hvalid
      exact storeVectorBytes _ _ _ _ cpu _ hvalid
    rw [hresult] at hvalid
    exact hvalid
  all_goals exact halu

end Accessed

end Cpu

def ControlEffect.flushes (control : ControlEffect) : Bool :=
  control.trapReturn != .none || control.halt

/-- The boundary ended in a trap. -/
structure CommitBoundaryResult.Trapped (result : CommitBoundaryResult) : Prop where
  trapTaken : result.trapTaken
  trapFlush : result.trapFlush
  retired : result.retired = false

/-- The boundary finished with the given effects. -/
structure CommitBoundaryResult.Finished (result : CommitBoundaryResult) (effects : InsnEffects) :
    Prop where
  trapTaken : result.trapTaken = false
  trapFlush : result.trapFlush = effects.control.flushes
  retired : result.retired = effects.retired

/-- The boundary fills in register results and keeps every other effect. -/
def InsnEffects.Filled (effects effects' : InsnEffects) : Prop :=
  ∃ rdWrite fpWrite, effects' =
    { effects with
      rdWrite
      fpWrite }

theorem InsnEffects.Filled.refl (effects : InsnEffects) : effects.Filled effects :=
  ⟨effects.rdWrite, effects.fpWrite, rfl⟩

namespace Cpu

variable {D : Type} [Devices D]

/-- How the boundary ends, after the accesses of the instruction. -/
inductive CommitOutcome (cpu : Cpu D) (input : CommitBoundaryInput) (effects : InsnEffects)
    (out : CommitBoundaryResult × Cpu D) : Prop
  | trapped (accessed : Cpu D) (haccessed : cpu.Accessed accessed) (trap : TrapRequest)
      (observed : Bool) (heq : out = accessed.trapResult input.pc trap observed)
  | finished (accessed : Cpu D) (haccessed : cpu.Accessed accessed) (filled : InsnEffects)
      (hfilled : effects.Filled filled) (changed observed : Bool)
      (heq : out = accessed.finishCommit input filled changed observed)

variable (cpu : Cpu D) (input : CommitBoundaryInput) (effects : InsnEffects)
  (changed observed : Bool)

theorem trapResult_trapped (pc : BitVec 64) (trap : TrapRequest) :
    (cpu.trapResult pc trap observed).1.Trapped := ⟨rfl, rfl, rfl⟩

theorem finishCommit_finished :
    (cpu.finishCommit input effects changed observed).1.Finished effects :=
  ⟨rfl, rfl, rfl⟩

variable {start : Cpu D} {original : InsnEffects}

theorem commitVector_outcome (h : start.Accessed cpu) (hfilled : original.Filled effects) :
    CommitOutcome start input original (cpu.commitVector input effects changed observed) := by
  unfold commitVector
  have hvector := h.applyVectorRequest effects.vector
  rcases hresult : cpu.applyVectorRequest effects.vector with ⟨trap | vectorChanged, cpu'⟩
  · rw [hresult] at hvector
    exact .trapped cpu' hvector _ _ rfl
  rw [hresult] at hvector
  exact .finished cpu' hvector effects hfilled _ _ rfl

theorem commitAtomic_outcome (h : start.Accessed cpu) (hfilled : original.Filled effects) :
    CommitOutcome start input original (cpu.commitAtomic input effects changed) := by
  unfold commitAtomic
  split_ifs
  · exact commitVector_outcome _ _ _ _ _ h hfilled
  have hatomic := h.applyAtomicRequest effects.atomic
  rcases hresult : cpu.applyAtomicRequest effects.atomic with ⟨result, cpu'⟩
  rw [hresult] at hatomic
  simp only
  cases result.trap with
  | some trap => exact .trapped cpu' hatomic _ _ rfl
  | none =>
    obtain ⟨_, fpWrite, rfl⟩ := hfilled
    exact commitVector_outcome _ _ _ _ _ hatomic ⟨result.rdWrite, fpWrite, rfl⟩

variable (value : BitVec 64)

theorem loadEffects_filled : effects.Filled (loadEffects effects value) := by
  unfold loadEffects
  cases effects.mem.target with
  | float => exact ⟨effects.rdWrite, _, rfl⟩
  | integer => exact ⟨_, effects.fpWrite, rfl⟩

theorem applyCommitBoundary_outcome :
    CommitOutcome cpu input input.effects (cpu.applyCommitBoundary input) := by
  unfold applyCommitBoundary
  cases input.effects.trap with
  | some trap => exact .trapped cpu (.refl cpu) _ _ rfl
  | none =>
    unfold commitMemory
    split_ifs
    · have hload : cpu.Accessed (cpu.loadResult input.effects.mem.addr input.effects.mem.size).2 :=
        .memory cpu _
      rcases hresult : cpu.loadResult input.effects.mem.addr input.effects.mem.size with
        ⟨fault | value, cpu'⟩
      · rw [hresult] at hload
        exact .trapped cpu' hload _ _ rfl
      rw [hresult] at hload
      exact commitAtomic_outcome _ _ _ _ hload (loadEffects_filled _ _)
    · have hstore : cpu.Accessed (cpu.storeResult input.effects.mem.addr
          input.effects.mem.storeValue input.effects.mem.size).2 := .memory cpu _
      rcases hresult : cpu.storeResult input.effects.mem.addr input.effects.mem.storeValue
        input.effects.mem.size with ⟨_ | fault, cpu'⟩
      · rw [hresult] at hstore
        exact commitAtomic_outcome _ _ _ _ (hstore.invalidateReservationForStore _ _) (.refl _)
      rw [hresult] at hstore
      exact .trapped cpu' hstore _ _ rfl
    · exact commitAtomic_outcome _ _ _ _ (.refl cpu) (.refl _)

theorem applyCommitBoundary_result : (cpu.applyCommitBoundary input).1.Trapped ∨
      (cpu.applyCommitBoundary input).1.Finished input.effects := by
  cases cpu.applyCommitBoundary_outcome input with
  | trapped accessed haccessed trap observed heq =>
    rw [heq]
    exact .inl (accessed.trapResult_trapped _ _ _)
  | finished accessed haccessed filled hfilled changed observed heq =>
    obtain ⟨rdWrite, fpWrite, rfl⟩ := hfilled
    rw [heq]
    exact .inr ⟨rfl, rfl, rfl⟩

theorem finishCommit_trap : (cpu.finishCommit input effects changed observed).2.trap =
    cpu.trap := by
  have hregisters : (cpu.commitRegisters effects).trap = cpu.trap := by
    unfold commitRegisters
    cases effects.csrWrite <;> cases effects.rdWrite <;> cases effects.fpWrite <;>
      dsimp only <;> split_ifs <;> rfl
  unfold finishCommit
  rw [← hregisters]
  generalize cpu.commitRegisters effects = cpu₁
  have hpc : (cpu₁.commitPc effects.control input.nextPc).trap = cpu₁.trap := by
    unfold commitPc
    cases effects.control.trapReturn <;> rfl
  rw [← hpc]
  split_ifs <;> rfl

omit [Devices D] in
theorem writeCsr_fpr (addr : BitVec 12) : (cpu.writeCsr addr value).core.fpr = cpu.core.fpr := by
  unfold writeCsr CsrFile.write
  split_ifs <;> rfl

theorem writeGpr_fpr (core : CoreState) (rd : ℕ) : (core.writeGpr rd value).fpr = core.fpr := by
  unfold CoreState.writeGpr
  split_ifs <;> rfl

def afterFpWrite (fpr : Fin 32 → BitVec 64) : Option FpRegWrite → Fin 32 → BitVec 64
  | some write => Function.update fpr (Fin.ofNat 32 write.rd) write.value
  | none => fpr

theorem commitRegisters_fpr :
    (cpu.commitRegisters effects).core.fpr = afterFpWrite cpu.core.fpr effects.fpWrite := by
  unfold commitRegisters
  cases effects.csrWrite <;> cases effects.rdWrite <;> cases effects.fpWrite <;> dsimp only <;>
    split_ifs <;>
    simp only [markFloatingStateDirty, mapCore, afterFpWrite, CoreState.writeFpr, writeCsr_fpr,
      writeGpr_fpr]

theorem finishCommit_fpr : (cpu.finishCommit input effects changed observed).2.core.fpr =
    afterFpWrite cpu.core.fpr effects.fpWrite := by
  unfold finishCommit
  rw [← commitRegisters_fpr]
  generalize cpu.commitRegisters effects = cpu₁
  have hpc : (cpu₁.commitPc effects.control input.nextPc).core.fpr = cpu₁.core.fpr := by
    unfold commitPc
    cases effects.control.trapReturn with
    | none => rfl
    | mret => exact cpu₁.writeCsr_fpr _ _
    | sret => exact cpu₁.writeCsr_fpr _ _
  rw [← hpc]
  split_ifs <;> rfl

theorem finishCommit_pc (h : effects.control.trapReturn = .none) :
    (cpu.finishCommit input effects changed observed).2.core.pc =
      effects.control.redirectPc.getD input.nextPc := by
  unfold finishCommit commitPc
  simp only [h]
  split_ifs <;> rfl

theorem applyCommitBoundary_plain (htrap : input.effects.trap = none)
    (hmem : input.effects.mem.kind = .none) (hatomic : input.effects.atomic.kind = .none)
    (hvector : input.effects.vector.kind = .none) :
    cpu.applyCommitBoundary input = cpu.finishCommit input input.effects false false := by
  have hmemory : cpu.commitMemory input.effects = (.ok (input.effects, false), cpu) := by
    simp [commitMemory, hmem]
  have hrequest : cpu.applyVectorRequest input.effects.vector = (.ok false, cpu) := by
    simp [applyVectorRequest, hvector]
  simp [applyCommitBoundary, htrap, hmemory, commitAtomic, hatomic, commitVector, hrequest]

end Cpu

end VisualCpu
