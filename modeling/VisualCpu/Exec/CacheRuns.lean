import VisualCpu.Exec.GuestOps
import VisualCpu.Pipeline.Backend
import VisualCpu.Mem.CacheTransparency

/-!
# Runs with the data cache

The operations of the machine, carried out with the data cache and without it. The
two processors stay the same in every register and every byte of memory, and every
operation returns the same, as long as the writes that bypass the cache spare its
valid lines.
-/

namespace VisualCpu

open Cpu Csr

namespace Cpu

open AddressSpace AtomicOps

variable {D : Type} [Devices D]

/-- The two processors differ in the data cache only, which the first one uses. -/
structure Uncached (cpu cpu' : Cpu D) : Prop where
  core : cpu'.core = cpu.core
  csr : cpu'.csr = cpu.csr
  trap : cpu'.trap = cpu.trap
  space : AddressSpace.Uncached cpu.addressSpace cpu'.addressSpace

/-- The same view of the results, and processors that differ in the cache only. -/
def AlikeBy {α β : Type} (view : α → β) (r r' : α × Cpu D) : Prop :=
  view r.1 = view r'.1 ∧ Uncached r.2 r'.2

/-- The same result, and processors that differ in the cache only. -/
def Alike {α : Type} (r r' : α × Cpu D) : Prop := AlikeBy id r r'

variable {cpu cpu' : Cpu D}

theorem Uncached.mtime_eq (h : Uncached cpu cpu') :
    cpu'.addressSpace.bus.mtime = cpu.addressSpace.bus.mtime := by
  obtain ⟨mmio, hbus⟩ := h.space.bus
  rw [hbus]
  rfl

theorem Uncached.readCsr_eq (h : Uncached cpu cpu') (addr : BitVec 12) :
    cpu'.readCsr addr = cpu.readCsr addr := by
  rw [readCsr, readCsr, h.csr, h.core, h.mtime_eq]

theorem Uncached.accessContext_eq (h : Uncached cpu cpu') :
    cpu'.accessContext = cpu.accessContext := by
  rw [accessContext, accessContext, h.readCsr_eq, h.readCsr_eq, h.core]

omit [Devices D] in
theorem Uncached.setSpace (h : Uncached cpu cpu') {as as' : AddressSpace D}
    (hspace : AddressSpace.Uncached as as') :
    Uncached { cpu with addressSpace := as } { cpu' with addressSpace := as' } :=
  ⟨h.core, h.csr, h.trap, hspace⟩

section

variable (h : Uncached cpu cpu') {agent : WriteAgent} {pc : BitVec 64} {size : ℕ}

include h

theorem Uncached.translateResult {vaddr : BitVec 64} {type : AccessType}
    {updateAccessBits : Bool}
    (hspares : SpareCache (cpu.translateLog vaddr type updateAccessBits)) :
    Alike (cpu.translateResult vaddr type updateAccessBits)
      (cpu'.translateResult vaddr type updateAccessBits) := by
  obtain ⟨hresult, hspace⟩ := h.space.translate cpu.accessContext hspares
  unfold Cpu.translateResult
  rw [h.accessContext_eq]
  exact ⟨hresult, h.setSpace hspace⟩

theorem Uncached.fetch16Result (hspares : SpareCache (cpu.fetchPartLog pc 2)) :
    Alike (cpu.fetch16Result pc) (cpu'.fetch16Result pc) := by
  obtain ⟨hresult, hspace⟩ := h.space.accessFrom cpu.accessContext .instruction 2 0 0 hspares
  unfold Cpu.fetch16Result
  rw [h.accessContext_eq]
  exact ⟨hresult, h.setSpace hspace⟩

theorem Uncached.fetch32Result (hspares : SpareCache (cpu.fetchPartLog pc 4)) :
    Alike (cpu.fetch32Result pc) (cpu'.fetch32Result pc) := by
  obtain ⟨hresult, hspace⟩ := h.space.accessFrom cpu.accessContext .instruction 4 0 0 hspares
  unfold Cpu.fetch32Result
  rw [h.accessContext_eq]
  exact ⟨hresult, h.setSpace hspace⟩

theorem Uncached.loadResult {addr : BitVec 64} (hspares : SpareCache (cpu.loadLog addr size)) :
    Alike (cpu.loadResult addr size) (cpu'.loadResult addr size) := by
  obtain ⟨hresult, hspace⟩ := h.space.accessFrom cpu.accessContext .load size 0 0 hspares
  unfold Cpu.loadResult
  rw [h.accessContext_eq]
  exact ⟨hresult, h.setSpace hspace⟩

theorem Uncached.storeResult
    {addr value : BitVec 64} (hspares : SpareCache (cpu.storeLog agent addr value size)) :
    Alike (cpu.storeResult addr value size) (cpu'.storeResult addr value size) := by
  obtain ⟨hresult, hspace⟩ := h.space.storeFrom cpu.accessContext agent size hspares
  unfold Cpu.storeResult
  rw [h.accessContext_eq]
  exact ⟨hresult, h.setSpace hspace⟩

theorem Uncached.tryLoad (paddr : BitVec 64) (size : ℕ) :
    Alike (cpu.tryLoad paddr size) (cpu'.tryLoad paddr size) := by
  unfold Cpu.tryLoad
  rw [h.space.tryLoad_eq]
  exact ⟨rfl, h.setSpace (h.space.afterLoad paddr size)⟩

theorem Uncached.tryStore {paddr value : BitVec 64}
    (hspares : (MemoryEvent.ofStore agent cpu.addressSpace paddr value size).SparesCache)
    (hbypass : agent = .scalar ∨ agent = .vector → ¬ Ram.contains paddr size) :
    Alike (cpu.tryStore paddr value size) (cpu'.tryStore paddr value size) := by
  unfold Cpu.tryStore
  rw [h.space.tryStore_eq]
  exact ⟨rfl, h.setSpace (h.space.afterStore hspares hbypass)⟩

end

omit [Devices D] in
theorem Alike.cases {α : Type} {r r' : α × Cpu D} (h : Alike r r') :
    ∃ a cpu cpu', r = (a, cpu) ∧ r' = (a, cpu') ∧ Uncached cpu cpu' := by
  obtain ⟨a, cpu⟩ := r
  obtain ⟨a', cpu'⟩ := r'
  obtain ⟨hresult, hcpu⟩ := h
  subst hresult
  exact ⟨a, cpu, cpu', rfl, rfl, hcpu⟩

theorem Uncached.fetchInstruction (h : Uncached cpu cpu') {pc : BitVec 64}
    (hspares : SpareCache (cpu.fetchLog pc)) :
    Alike (cpu.fetchInstruction pc) (cpu'.fetchInstruction pc) := by
  unfold Cpu.fetchInstruction fetchLog at *
  obtain ⟨hhalf, hrest⟩ := spareCache_append.1 hspares
  obtain ⟨half, c, c', hold, hnew, hcpu⟩ := (h.fetch16Result hhalf).cases
  rw [hold] at hrest
  rw [hold, hnew]
  cases half with
  | error fault => exact ⟨rfl, hcpu⟩
  | ok half =>
    dsimp only at hrest ⊢
    split_ifs at hrest ⊢ with hwide
    · obtain ⟨word, c₂, c₂', hold₂, hnew₂, hcpu₂⟩ := (hcpu.fetch32Result hrest).cases
      rw [hold₂, hnew₂]
      cases word with
      | error fault => exact ⟨rfl, hcpu₂⟩
      | ok word => exact ⟨rfl, hcpu₂⟩
    · exact ⟨rfl, hcpu⟩

omit [Devices D] in
theorem Uncached.mapCore (h : Uncached cpu cpu') (f : CoreState → CoreState) :
    Uncached (cpu.mapCore f) (cpu'.mapCore f) := by
  refine ⟨?_, h.csr, h.trap, h.space⟩
  simp only [Cpu.mapCore, h.core]

omit [Devices D] in
theorem Uncached.setTrap (h : Uncached cpu cpu') (trap : TrapState) :
    Uncached { cpu with trap } { cpu' with trap } :=
  ⟨h.core, h.csr, rfl, h.space⟩

omit [Devices D] in
theorem Uncached.flushTlb (h : Uncached cpu cpu') :
    Uncached { cpu with addressSpace := cpu.addressSpace.flushTlb }
      { cpu' with addressSpace := cpu'.addressSpace.flushTlb } := by
  refine h.setSpace ⟨?_, rfl, h.space.bus, h.space.on, h.space.off, h.space.coherent⟩
  simp only [AddressSpace.flushTlb, h.space.tlb]

omit [Devices D] in
theorem Uncached.writeCsr (h : Uncached cpu cpu') (addr : BitVec 12) (value : BitVec 64) :
    Uncached (cpu.writeCsr addr value) (cpu'.writeCsr addr value) := by
  unfold Cpu.writeCsr
  rw [h.csr, h.core]
  refine ⟨rfl, rfl, h.trap, ?_⟩
  split_ifs
  · exact h.flushTlb.space
  · exact h.space

omit [Devices D] in
theorem Uncached.clearReservation (h : Uncached cpu cpu') :
    Uncached cpu.clearReservation cpu'.clearReservation := by
  unfold Cpu.clearReservation
  rw [h.trap]
  exact h.setTrap _

omit [Devices D] in
theorem Uncached.invalidateReservation (h : Uncached cpu cpu') (paddr : BitVec 64) (size : ℕ) :
    Uncached (cpu.invalidateReservation paddr size) (cpu'.invalidateReservation paddr size) := by
  unfold Cpu.invalidateReservation
  rw [h.trap]
  cases cpu.trap.reservation with
  | none => exact h
  | some reservation =>
    dsimp only
    split_ifs
    · exact h.clearReservation
    · exact h

section

variable (h : Uncached cpu cpu')

include h

theorem Uncached.jump (f : CoreState → CoreState) (addr : BitVec 12)
    (target : BitVec 64 → BitVec 64) :
    Uncached ((cpu.mapCore f).setPc (target (cpu.readCsr addr)))
      ((cpu'.mapCore f).setPc (target (cpu'.readCsr addr))) := by
  rw [h.readCsr_eq]
  exact (h.mapCore f).mapCore _

theorem Uncached.jumpTo (addr : BitVec 12) :
    Uncached (cpu.setPc (cpu.readCsr addr)) (cpu'.setPc (cpu'.readCsr addr)) := by
  rw [h.readCsr_eq]
  exact h.mapCore _

theorem Uncached.enterTrap (cause tval : BitVec 64) :
    Uncached (cpu.enterTrap cause tval) (cpu'.enterTrap cause tval) := by
  have hdelegated : cpu'.delegatedToSupervisor cause = cpu.delegatedToSupervisor cause := by
    simp only [delegatedToSupervisor, h.readCsr_eq, h.core]
  have hclear := h.clearReservation
  unfold Cpu.enterTrap
  rw [hdelegated]
  split_ifs
  · unfold enterSupervisorTrap
    rw [hclear.readCsr_eq, hclear.core]
    exact ((((hclear.writeCsr mstatus _).writeCsr sepc _).writeCsr
      scause cause).writeCsr stval tval).jump _ _ (trapVectorBase · cause)
  · unfold enterMachineTrap
    rw [hclear.readCsr_eq, hclear.core]
    exact ((((hclear.writeCsr mstatus _).writeCsr mepc _).writeCsr
      mcause cause).writeCsr mtval tval).jump _ _ (trapVectorBase · cause)

theorem Uncached.returnFromMret : Uncached cpu.returnFromMret cpu'.returnFromMret := by
  dsimp only [Cpu.returnFromMret]
  rw [h.readCsr_eq]
  exact ((h.writeCsr mstatus _).mapCore _).jumpTo mepc

theorem Uncached.returnFromSret : Uncached cpu.returnFromSret cpu'.returnFromSret := by
  dsimp only [Cpu.returnFromSret]
  rw [h.readCsr_eq]
  exact ((h.writeCsr mstatus _).mapCore _).jumpTo sepc

theorem Uncached.markFloatingStateDirty :
    Uncached cpu.markFloatingStateDirty cpu'.markFloatingStateDirty := by
  unfold Cpu.markFloatingStateDirty
  rw [h.readCsr_eq]
  exact h.writeCsr _ _

end

omit [Devices D] in
theorem Uncached.commitCsr (h : Uncached cpu cpu') (write : Option CsrWrite) : Uncached
      (match write with | some write => cpu.writeCsr write.addr write.value | none => cpu)
      (match write with | some write => cpu'.writeCsr write.addr write.value | none => cpu') := by
  cases write with
  | none => exact h
  | some write => exact h.writeCsr _ _

omit [Devices D] in
theorem Uncached.commitRd (h : Uncached cpu cpu') (write : Option RegWrite) : Uncached
      (match write with
        | some write => cpu.mapCore (·.writeGpr write.rd write.value) | none => cpu)
      (match write with
        | some write => cpu'.mapCore (·.writeGpr write.rd write.value) | none => cpu') := by
  cases write with
  | none => exact h
  | some write => exact h.mapCore _

omit [Devices D] in
theorem Uncached.commitFp (h : Uncached cpu cpu') (write : Option FpRegWrite) : Uncached
      (match write with
        | some write => cpu.mapCore (·.writeFpr write.rd write.value) | none => cpu)
      (match write with
        | some write => cpu'.mapCore (·.writeFpr write.rd write.value) | none => cpu') := by
  cases write with
  | none => exact h
  | some write => exact h.mapCore _

omit [Devices D] in
theorem Uncached.conditional (h : Uncached cpu cpu') (b : Bool) {f : Cpu D → Cpu D}
    (hf : ∀ cpu cpu' : Cpu D, Uncached cpu cpu' → Uncached (f cpu) (f cpu')) :
    Uncached (if b then f cpu else cpu) (if b then f cpu' else cpu') := by
  cases b with
  | false => exact h
  | true => exact hf cpu cpu' h

theorem Uncached.commitRegisters (h : Uncached cpu cpu') (effects : InsnEffects) :
    Uncached (cpu.commitRegisters effects) (cpu'.commitRegisters effects) := by
  have hdirty := (((h.commitCsr effects.csrWrite).commitRd effects.rdWrite).commitFp
    effects.fpWrite).conditional effects.floatingStateTouched fun _ _ hcpu =>
      hcpu.markFloatingStateDirty
  have hflush := hdirty.conditional effects.control.flushTlb fun _ _ hcpu => hcpu.flushTlb
  exact hflush.conditional effects.control.halt
    (f := fun cpu => cpu.mapCore ({ · with halted := true })) fun _ _ hcpu => hcpu.mapCore _

theorem Uncached.commitPc (h : Uncached cpu cpu') (control : ControlEffect) (nextPc : BitVec 64) :
    Uncached (cpu.commitPc control nextPc) (cpu'.commitPc control nextPc) := by
  unfold Cpu.commitPc
  cases control.trapReturn with
  | mret => exact h.returnFromMret
  | sret => exact h.returnFromSret
  | none => exact h.mapCore _

/-- What a caller sees of a commit, apart from the record of device accesses. -/
def commitView (result : CommitBoundaryResult) : Bool × Bool × BitVec 64 :=
  (result.retired, result.trapTaken, result.nextPc)

section

variable (h : Uncached cpu cpu')

include h

theorem Uncached.finishCommit (input : CommitBoundaryInput)
    (effects : InsnEffects) (changed changed' observed : Bool) :
    AlikeBy commitView (cpu.finishCommit input effects changed observed)
      (cpu'.finishCommit input effects changed' observed) := by
  have hcpu := ((h.commitRegisters effects).commitPc effects.control input.nextPc).conditional
    effects.retired fun _ _ hcpu => hcpu.mapCore (·.advanceInstret)
  refine ⟨?_, hcpu⟩
  simp only [commitView, Cpu.finishCommit]
  rw [← hcpu.core]

theorem Uncached.trapResult (pc : BitVec 64) (trap : TrapRequest) (observed : Bool) :
    AlikeBy commitView (cpu.trapResult pc trap observed) (cpu'.trapResult pc trap observed) := by
  have hcpu := (h.mapCore (·.setPc pc)).enterTrap trap.cause trap.tval
  refine ⟨?_, hcpu⟩
  rw [Prod.mk.injEq, Prod.mk.injEq]
  exact ⟨rfl, rfl, congrArg CoreState.pc hcpu.core.symm⟩

theorem Uncached.probe (vaddr : BitVec 64) (type : AccessType) :
    Alike (cpu.translateResult vaddr type false) (cpu'.translateResult vaddr type false) := by
  apply h.translateResult
  unfold translateLog
  rw [AddressSpace.translateLog_false]
  intro e he
  cases he

theorem Uncached.validateVectorMemorySpan (type : AccessType)
    (bytes : ℕ) (addr : BitVec 64) (span : Option RamSpan) :
    Alike (validateVectorMemorySpan type bytes cpu addr span)
      (validateVectorMemorySpan type bytes cpu' addr span) := by
  induction bytes generalizing cpu cpu' addr span with
  | zero => exact ⟨rfl, h⟩
  | succ bytes ih =>
    obtain ⟨result, c, c', hold, hnew, hcpu⟩ := (h.probe addr type).cases
    simp only [validateVectorMemorySpan]
    rw [hold, hnew]
    cases result with
    | error fault => exact ⟨rfl, hcpu⟩
    | ok paddr =>
      dsimp only
      cases extendSpan D span paddr with
      | none => exact ⟨rfl, hcpu⟩
      | some span => exact ih hcpu _ _

theorem Uncached.loadVectorBytes (addr : BitVec 64) (count : ℕ) {i : ℕ}
    (reg : VectorReg) (hspares : SpareCache (loadVectorBytesLog addr count i cpu)) :
    Alike (loadVectorBytes addr count i cpu reg)
      (loadVectorBytes addr count i cpu' reg) := by
  induction count generalizing cpu cpu' i reg with
  | zero => exact ⟨rfl, h⟩
  | succ count ih =>
    simp only [loadVectorBytesLog, loadVectorBytes] at hspares ⊢
    obtain ⟨hload, hrest⟩ := spareCache_append.1 hspares
    obtain ⟨result, c, c', hold, hnew, hcpu⟩ := (h.loadResult hload).cases
    rw [hold] at hrest
    rw [hold, hnew]
    cases result with
    | error fault => exact ⟨rfl, hcpu⟩
    | ok value => exact ih hcpu _ hrest

end

/-- Whether an access was carried out, without its record of device accesses. -/
def outcome {ε : Type} : Except ε Bool → Except ε Unit := Except.map fun _ => ()

theorem Uncached.storeVectorBytes (h : Uncached cpu cpu') (addr : BitVec 64) (reg : VectorReg)
    (count : ℕ) {i : ℕ} (changed changed' : Bool)
    (hspares : SpareCache (storeVectorBytesLog addr reg count i cpu)) :
    AlikeBy outcome (storeVectorBytes addr reg count i cpu changed)
      (storeVectorBytes addr reg count i cpu' changed') := by
  induction count generalizing cpu cpu' i changed changed' with
  | zero => exact ⟨rfl, h⟩
  | succ count ih =>
    simp only [storeVectorBytesLog, storeVectorBytes] at hspares ⊢
    obtain ⟨hstore, hrest⟩ := spareCache_append.1 hspares
    obtain ⟨result, c, c', hold, hnew, hcpu⟩ := (h.storeResult hstore).cases
    rw [hold] at hrest
    rw [hold, hnew]
    cases result with
    | some fault => exact ⟨rfl, hcpu⟩
    | none => exact ih hcpu _ _ hrest

omit [Devices D] in
theorem Uncached.setVector (h : Uncached cpu cpu') (vector : VectorState) :
    Uncached (cpu.setVector vector) (cpu'.setVector vector) :=
  h.mapCore _

omit [Devices D] in
theorem Uncached.vectorBytes_eq (h : Uncached cpu cpu') : cpu'.vectorBytes = cpu.vectorBytes := by
  rw [vectorBytes, vectorBytes, h.core]

variable {request : VectorRequest}

theorem Uncached.applyVectorLoad (h : Uncached cpu cpu')
    (hkind : request.kind = .load) (hspares : SpareCache (cpu.vectorLog request)) :
    AlikeBy outcome (cpu.applyVectorLoad request) (cpu'.applyVectorLoad request) := by
  unfold Cpu.applyVectorLoad vectorLog at *
  rw [h.core, h.vectorBytes_eq]
  rw [hkind] at hspares
  split_ifs at hspares ⊢ with hconfig hempty
  · exact ⟨rfl, h⟩
  · exact ⟨rfl, h⟩
  obtain ⟨fault, c, c', hold, hnew, hcpu⟩ :=
    (h.validateVectorMemorySpan .load cpu.vectorBytes request.addr none).cases
  rw [hold] at hspares
  rw [hold, hnew]
  cases fault with
  | some fault => exact ⟨rfl, hcpu⟩
  | none =>
    obtain ⟨result, c₂, c₂', hold₂, hnew₂, hcpu₂⟩ :=
      (hcpu.loadVectorBytes request.addr cpu.vectorBytes (Vector.replicate 16 0) hspares).cases
    dsimp only
    rw [hold₂, hnew₂]
    cases result with
    | error fault => exact ⟨rfl, hcpu₂⟩
    | ok reg =>
      refine ⟨rfl, ?_⟩
      dsimp only
      rw [hcpu₂.core]
      exact hcpu₂.setVector _

theorem Uncached.applyVectorStore (h : Uncached cpu cpu')
    (hkind : request.kind = .store) (hspares : SpareCache (cpu.vectorLog request)) :
    AlikeBy outcome (cpu.applyVectorStore request) (cpu'.applyVectorStore request) := by
  unfold Cpu.applyVectorStore vectorLog at *
  rw [h.core, h.vectorBytes_eq]
  rw [hkind] at hspares
  split_ifs at hspares ⊢ with hconfig hempty
  · exact ⟨rfl, h⟩
  · exact ⟨rfl, h⟩
  obtain ⟨fault, c, c', hold, hnew, hcpu⟩ :=
    (h.validateVectorMemorySpan .store cpu.vectorBytes request.addr none).cases
  rw [hold] at hspares
  rw [hold, hnew]
  cases fault with
  | some fault => exact ⟨rfl, hcpu⟩
  | none => exact hcpu.storeVectorBytes _ _ _ _ _ hspares

omit [Devices D] in
theorem Uncached.applyVectorAlu (h : Uncached cpu cpu') (request : VectorRequest) :
    AlikeBy outcome (cpu.applyVectorAlu request) (cpu'.applyVectorAlu request) := by
  unfold Cpu.applyVectorAlu
  rw [h.core]
  cases request.result with
  | some reg => exact ⟨rfl, h.setVector _⟩
  | none =>
    cases VectorOps.computeVectorAluResult cpu.core.vector request with
    | none => exact ⟨rfl, h⟩
    | some reg => exact ⟨rfl, h.setVector _⟩

theorem Uncached.applyVectorRequest (h : Uncached cpu cpu')
    (hspares : SpareCache (cpu.vectorLog request)) :
    AlikeBy outcome (cpu.applyVectorRequest request) (cpu'.applyVectorRequest request) := by
  unfold Cpu.applyVectorRequest
  cases hkind : request.kind with
  | none => exact ⟨rfl, h⟩
  | setConfig =>
    rw [h.core]
    cases cpu.core.vector.setConfig request.sewBytes request.vl with
    | none => exact ⟨rfl, h⟩
    | some vector => exact ⟨rfl, h.setVector _⟩
  | load => exact h.applyVectorLoad hkind hspares
  | store => exact h.applyVectorStore hkind hspares
  | add => exact h.applyVectorAlu request
  | mul => exact h.applyVectorAlu request
  | max => exact h.applyVectorAlu request
  | dot => exact h.applyVectorAlu request

/-- What the boundary uses of an atomic result, apart from the record of device accesses. -/
def atomicView (result : AtomicApplyResult) : Option TrapRequest × Option RegWrite × Bool :=
  (result.trap, result.rdWrite, result.memoryObserved)

section

variable (h : Uncached cpu cpu')

include h

theorem Uncached.applyLoadReserved (request : AtomicRequest) (paddr : BitVec 64) :
    AlikeBy atomicView (cpu.applyLoadReserved request paddr)
      (cpu'.applyLoadReserved request paddr) := by
  obtain ⟨loaded, c, c', hold, hnew, hcpu⟩ := (h.tryLoad paddr request.size).cases
  unfold Cpu.applyLoadReserved
  rw [hold, hnew]
  cases loaded with
  | none => exact ⟨rfl, hcpu⟩
  | some value =>
    refine ⟨rfl, ?_⟩
    dsimp only [setReservation]
    rw [hcpu.trap]
    exact hcpu.setTrap _

theorem Uncached.applyStoreConditional (request : AtomicRequest)
    (paddr : BitVec 64) (hspares : SpareCache (cpu.storeConditionalLog request paddr)) :
    AlikeBy atomicView (cpu.applyStoreConditional request paddr)
      (cpu'.applyStoreConditional request paddr) := by
  have hmatches : cpu'.reservationMatches paddr request.size =
      cpu.reservationMatches paddr request.size := by
    rw [reservationMatches, reservationMatches, h.trap]
  unfold Cpu.applyStoreConditional storeConditionalLog at *
  rw [hmatches]
  split_ifs at hspares ⊢ with hmissed
  · exact ⟨rfl, h.clearReservation⟩
  have hstore := (spareCache_cons.1 hspares).1
  obtain ⟨stored, c, c', hold, hnew, hcpu⟩ := (h.clearReservation.tryStore hstore
    (by rintro (hagent | hagent) <;> cases hagent)).cases
  rw [hold, hnew]
  cases stored with
  | false => exact ⟨rfl, hcpu⟩
  | true => exact ⟨rfl, hcpu⟩

theorem Uncached.applyReadModifyWrite (request : AtomicRequest)
    (paddr : BitVec 64) (hspares : SpareCache (cpu.readModifyWriteLog request paddr)) :
    AlikeBy atomicView (cpu.applyReadModifyWrite request paddr)
      (cpu'.applyReadModifyWrite request paddr) := by
  unfold Cpu.applyReadModifyWrite readModifyWriteLog at *
  obtain ⟨loaded, c, c', hold, hnew, hcpu⟩ := (h.tryLoad paddr request.size).cases
  rw [hold] at hspares
  rw [hold, hnew]
  cases loaded with
  | none => exact ⟨rfl, hcpu⟩
  | some value =>
    have hstore := (spareCache_cons.1 hspares).1
    obtain ⟨stored, c₂, c₂', hold₂, hnew₂, hcpu₂⟩ := (hcpu.tryStore hstore
      (by rintro (hagent | hagent) <;> cases hagent)).cases
    dsimp only
    rw [hold₂, hnew₂]
    cases stored with
    | false => exact ⟨rfl, hcpu₂⟩
    | true => exact ⟨rfl, hcpu₂.invalidateReservation _ _⟩

theorem Uncached.applyAtomicRequest {request : AtomicRequest}
    (hspares : SpareCache (cpu.atomicLog request)) :
    AlikeBy atomicView (cpu.applyAtomicRequest request) (cpu'.applyAtomicRequest request) := by
  unfold Cpu.applyAtomicRequest atomicLog at *
  split_ifs at hspares ⊢ with hnone hmisaligned
  · exact ⟨rfl, h⟩
  · exact ⟨rfl, h⟩
  obtain ⟨htranslate, hrest⟩ := spareCache_append.1 hspares
  obtain ⟨result, c, c', hold, hnew, hcpu⟩ := (h.translateResult htranslate).cases
  rw [hold] at hrest
  rw [hold, hnew]
  cases result with
  | error fault => exact ⟨rfl, hcpu⟩
  | ok paddr =>
    cases hkind : request.kind with
    | loadReserved => exact hcpu.applyLoadReserved request paddr
    | storeConditional =>
      rw [hkind] at hrest
      exact hcpu.applyStoreConditional request paddr hrest
    | none => exact absurd hkind hnone
    | _ =>
      rw [hkind] at hrest
      exact hcpu.applyReadModifyWrite request paddr hrest

theorem Uncached.invalidateReservationForStore (addr : BitVec 64) (size : ℕ) :
    Uncached (cpu.invalidateReservationForStore addr size)
      (cpu'.invalidateReservationForStore addr size) := by
  unfold Cpu.invalidateReservationForStore
  split_ifs
  · exact h.clearReservation
  obtain ⟨result, c, c', hold, hnew, hcpu⟩ := (h.probe addr .store).cases
  rw [hold, hnew]
  cases result with
  | error fault => exact hcpu.clearReservation
  | ok paddr => exact hcpu.invalidateReservation paddr size

end

omit [Devices D] in
/-- Split the results of an access into its outcome and two processors. -/
theorem AlikeBy.cases_map {ε α β : Type} {f : α → β} {r r' : Except ε α × Cpu D}
    (h : AlikeBy (Except.map f) r r') :
    (∃ fault cpu cpu', r = (.error fault, cpu) ∧ r' = (.error fault, cpu') ∧ Uncached cpu cpu') ∨
      ∃ a a' cpu cpu', f a = f a' ∧ r = (.ok a, cpu) ∧ r' = (.ok a', cpu') ∧ Uncached cpu cpu' := by
  obtain ⟨a, cpu⟩ := r
  obtain ⟨a', cpu'⟩ := r'
  obtain ⟨hresult, hcpu⟩ := h
  cases a with
  | error fault =>
    cases a' with
    | error fault' =>
      cases hresult
      exact .inl ⟨fault, cpu, cpu', rfl, rfl, hcpu⟩
    | ok a' => cases hresult
  | ok a =>
    cases a' with
    | error fault' => cases hresult
    | ok a' => exact .inr ⟨a, a', cpu, cpu', Except.ok.inj hresult, rfl, rfl, hcpu⟩

variable {effects : InsnEffects}

section

variable (h : Uncached cpu cpu')

include h

theorem Uncached.commitMemory (hspares : SpareCache (cpu.commitMemoryLog effects)) :
    AlikeBy (Except.map Prod.fst) (cpu.commitMemory effects) (cpu'.commitMemory effects) := by
  unfold Cpu.commitMemory commitMemoryLog at *
  split_ifs at hspares ⊢ with hload hstore
  · obtain ⟨result, c, c', hold, hnew, hcpu⟩ := (h.loadResult hspares).cases
    rw [hold, hnew]
    cases result with
    | error fault => exact ⟨rfl, hcpu⟩
    | ok value => exact ⟨rfl, hcpu⟩
  · obtain ⟨result, c, c', hold, hnew, hcpu⟩ := (h.storeResult hspares).cases
    rw [hold, hnew]
    cases result with
    | some fault => exact ⟨rfl, hcpu⟩
    | none => exact ⟨rfl, hcpu.invalidateReservationForStore _ _⟩
  · exact ⟨rfl, h⟩

variable (input : CommitBoundaryInput)

include input

theorem Uncached.commitVector (changed changed' observed : Bool)
    (hspares : SpareCache (cpu.commitVectorLog effects)) :
    AlikeBy commitView (cpu.commitVector input effects changed observed)
      (cpu'.commitVector input effects changed' observed) := by
  have hvector := (spareCache_append.1 hspares).1
  unfold Cpu.commitVector
  rcases (h.applyVectorRequest hvector).cases_map with
    ⟨fault, c, c', hold, hnew, hcpu⟩ | ⟨flag, flag', c, c', -, hold, hnew, hcpu⟩
  · rw [hold, hnew]
    exact hcpu.trapResult _ _ _
  rw [hold, hnew]
  exact hcpu.finishCommit _ _ _ _ _

theorem Uncached.commitAtomic (changed changed' : Bool)
    (hspares : SpareCache (cpu.commitAtomicLog effects)) :
    AlikeBy commitView (cpu.commitAtomic input effects changed)
      (cpu'.commitAtomic input effects changed') := by
  unfold Cpu.commitAtomic commitAtomicLog at *
  split_ifs at hspares ⊢ with hnone
  · exact h.commitVector _ _ _ _ hspares
  obtain ⟨hatomic, hrest⟩ := spareCache_append.1 hspares
  obtain ⟨hresult, hcpu⟩ := h.applyAtomicRequest hatomic
  cases hold : cpu.applyAtomicRequest effects.atomic with
  | mk result c =>
    cases hnew : cpu'.applyAtomicRequest effects.atomic with
    | mk result' c' =>
      rw [hold] at hrest
      rw [hold, hnew] at hresult hcpu
      simp only [atomicView, Prod.mk.injEq] at hresult
      obtain ⟨htrap, hrd, hobserved⟩ := hresult
      dsimp only at hrest ⊢
      rw [← htrap, ← hrd, ← hobserved]
      cases hfault : result.trap with
      | some trap => exact hcpu.trapResult _ _ _
      | none =>
        rw [hfault] at hrest
        exact hcpu.commitVector _ _ _ _ hrest

theorem Uncached.applyCommitBoundary
    (hspares : SpareCache (cpu.commitLog input.effects)) :
    AlikeBy commitView (cpu.applyCommitBoundary input) (cpu'.applyCommitBoundary input) := by
  unfold Cpu.applyCommitBoundary commitLog at *
  cases htrap : input.effects.trap with
  | some trap => exact h.trapResult _ _ _
  | none =>
    rw [htrap] at hspares
    obtain ⟨hmemory, hrest⟩ := spareCache_append.1 hspares
    rcases (h.commitMemory hmemory).cases_map with
      ⟨fault, c, c', hold, hnew, hcpu⟩ | ⟨done, done', c, c', hsame, hold, hnew, hcpu⟩
    · rw [hold, hnew]
      exact hcpu.trapResult _ _ _
    rw [hold] at hrest
    rw [hold, hnew]
    obtain ⟨effects, changed⟩ := done
    obtain ⟨effects', changed'⟩ := done'
    subst hsame
    exact hcpu.commitAtomic _ _ _ hrest

end

/-- The processor with its data cache switched off. -/
def withoutCache (cpu : Cpu D) : Cpu D :=
  { cpu with addressSpace :=
    { cpu.addressSpace with l1 := { cpu.addressSpace.l1 with enabled := false } } }

end Cpu

namespace GuestOp

open Cpu

variable {D : Type} [Devices D] {cpu cpu' : Cpu D} {ops : List GuestOp}

omit [Devices D] in
theorem spared_of_dma {cache : L1Cache} {addr : BitVec 64} {size : ℕ}
    {written : Set (BitVec 64)} (h : (MemoryEvent.write .dma cache addr size written).SparesCache)
    {a : BitVec 64} (ha : cache.Holds a) : a ∉ written := by
  rcases h with ⟨hagent | hagent, -⟩ | hfree
  · cases hagent
  · cases hagent
  · exact fun hmem => hfree a hmem ha

theorem tick_alike (h : Uncached cpu cpu') (hspares : SpareCache (GuestOp.tick.log cpu)) :
    Alike cpu.tickBus cpu'.tickBus := by
  obtain ⟨mmio, hbus⟩ := h.space.bus
  have hevent := (spareCache_cons.1 hspares).1
  have hspared : ∀ a, cpu.addressSpace.l1.Holds a →
      cpu.tickBus.2.addressSpace.bus.ram a = cpu.addressSpace.bus.ram a := by
    intro a ha
    by_contra hne
    exact spared_of_dma hevent ha hne
  unfold tickBus Bus.tick at *
  rw [hbus]
  refine ⟨rfl, h.core, h.csr, h.trap, h.space.tlb, h.space.victim, ⟨mmio, rfl⟩, h.space.on,
    h.space.off, ?_⟩
  exact h.space.coherent.mono hspared

theorem dmaWrite_alike (h : Uncached cpu cpu') (transaction : DmaTransaction)
    (data : Option (List (BitVec 8)))
    (hspares : SpareCache ((GuestOp.dmaWrite transaction data).log cpu)) :
    Alike ((GuestOp.dmaWrite transaction data).run cpu)
      ((GuestOp.dmaWrite transaction data).run cpu') := by
  obtain ⟨mmio, hbus⟩ := h.space.bus
  simp only [log] at hspares
  simp only [run, hbus]
  rcases Bus.dmaWrite_cases (D := D) transaction data with ⟨bytes, hlen, hwrite⟩ | ⟨result, hrefuse⟩
  · rw [hwrite] at hspares
    have hevent := (spareCache_cons.1 hspares).1
    rw [hwrite, hwrite]
    refine ⟨rfl, h.core, h.csr, h.trap, h.space.tlb, h.space.victim, ⟨mmio, rfl⟩, h.space.on,
      h.space.off, h.space.coherent.mono fun a ha => ?_⟩
    exact Bus.storeBytes_of_not_mem _ hlen (spared_of_dma hevent ha)
  · rw [hrefuse, hrefuse]
    exact ⟨rfl, h.core, h.csr, h.trap, h.space.tlb, h.space.victim, ⟨mmio, rfl⟩, h.space.on,
      h.space.off, h.space.coherent⟩

theorem run_alike (h : Uncached cpu cpu') {op : GuestOp} (hspares : SpareCache (op.log cpu)) :
    Alike (op.run cpu) (op.run cpu') := by
  cases op with
  | translate vaddr type updateAccessBits =>
    obtain ⟨result, c, c', hold, hnew, hcpu⟩ := (h.translateResult hspares).cases
    simp only [run, hold, hnew]
    exact ⟨rfl, hcpu⟩
  | fetch pc =>
    obtain ⟨result, c, c', hold, hnew, hcpu⟩ := (h.fetchInstruction hspares).cases
    simp only [run, hold, hnew]
    exact ⟨rfl, hcpu⟩
  | load addr size =>
    obtain ⟨result, c, c', hold, hnew, hcpu⟩ := (h.loadResult hspares).cases
    simp only [run, hold, hnew]
    exact ⟨rfl, hcpu⟩
  | commit input =>
    obtain ⟨hview, hcpu⟩ := h.applyCommitBoundary input hspares
    simp only [commitView, Prod.mk.injEq] at hview
    refine ⟨?_, hcpu⟩
    simp only [run, id, hview.1, hview.2.1, hview.2.2]
  | trap cause tval => exact ⟨rfl, h.enterTrap cause tval⟩
  | registers core csr timerPendingMask flushTlb =>
    refine ⟨rfl, rfl, rfl, ?_, ?_⟩
    · simp only [run, setRegisters, h.trap]
    cases flushTlb with
    | false => exact h.space
    | true => exact h.flushTlb.space
  | tick =>
    obtain ⟨events, c, c', hold, hnew, hcpu⟩ := (tick_alike h hspares).cases
    simp only [run, hold, hnew]
    exact ⟨rfl, hcpu⟩
  | dmaWrite transaction data => exact dmaWrite_alike h transaction data hspares
  | invalidateRange addr size =>
    refine ⟨rfl, h.setSpace ⟨h.space.tlb, h.space.victim, h.space.bus, ?_, ?_, ?_⟩⟩
    · exact (cpu.addressSpace.l1.invalidateRange_params addr size).2.trans h.space.on
    · exact (cpu'.addressSpace.l1.invalidateRange_params addr size).2.trans h.space.off
    · exact h.space.coherent.invalidateRange addr size

theorem logAll_take (hspares : SpareCache (logAll cpu ops)) (n : ℕ) :
    SpareCache (logAll cpu (ops.take n)) := by
  induction ops generalizing cpu n with
  | nil =>
    rw [List.take_nil]
    exact hspares
  | cons op ops ih =>
    cases n with
    | zero =>
      intro e he
      cases he
    | succ n =>
      obtain ⟨hfirst, hrest⟩ := spareCache_append.1 hspares
      exact spareCache_append.2 ⟨hfirst, ih hrest n⟩

theorem runAll_alike (h : Uncached cpu cpu') (hspares : SpareCache (logAll cpu ops)) :
    results cpu ops = results cpu' ops ∧ Uncached (runAll cpu ops) (runAll cpu' ops) := by
  induction ops generalizing cpu cpu' with
  | nil => exact ⟨rfl, h⟩
  | cons op ops ih =>
    obtain ⟨hfirst, hrest⟩ := spareCache_append.1 hspares
    obtain ⟨hresult, hcpu⟩ := run_alike h hfirst
    obtain ⟨hresults, hlast⟩ := ih hcpu hrest
    refine ⟨?_, hlast⟩
    rw [results, results, hresults]
    exact congrArg (· :: _) hresult

/-- Starting with an empty cache of any line size and capacity, a run in which every
write that bypasses the cache spares its valid lines returns what it returns without
the cache, and after each operation the processors agree in every register and every
byte of memory, and every valid line holds exactly the bytes of RAM of its span. -/
theorem cache_transparent (cpu : Cpu D) (henabled : cpu.addressSpace.l1.enabled)
    (hempty : ∀ line ∈ cpu.addressSpace.l1.lines, line.valid = false) (ops : List GuestOp)
    (hspares : SpareCache (logAll cpu ops)) :
    results cpu ops = results cpu.withoutCache ops ∧
      ∀ n, Uncached (runAll cpu (ops.take n)) (runAll cpu.withoutCache (ops.take n)) ∧
        ∀ line ∈ (runAll cpu (ops.take n)).addressSpace.l1.lines, line.valid →
          ∀ o, o < (runAll cpu (ops.take n)).addressSpace.l1.lineSizeBytes →
            line.bytes o = (runAll cpu (ops.take n)).addressSpace.bus.ram (line.base + o) := by
  have hstart : Uncached cpu cpu.withoutCache := ⟨rfl, rfl, rfl, rfl, rfl,
    ⟨cpu.addressSpace.bus.lastAccessMmio, rfl⟩, henabled, rfl, L1Cache.coherent_of_empty hempty _⟩
  refine ⟨(runAll_alike hstart hspares).1, fun n => ?_⟩
  have halike := (runAll_alike hstart (logAll_take hspares n)).2
  exact ⟨halike, halike.space.coherent.bytes⟩

/-- A machine after reset whose data cache has one line of 64 bytes. -/
def cachedMachine : Cpu Unit :=
  let cpu := reset (fun _ => 0) ()
  { cpu with addressSpace :=
    { cpu.addressSpace with l1 := ⟨true, 64, [⟨false, 0, 0, fun _ => 0⟩], 0⟩ } }

/-- A load, a device write of the byte 1 to the address, and a second load. -/
def dmaRun (addr : BitVec 64) : List GuestOp :=
  [.load memBase 8, .dmaWrite ⟨"virtio-blk", addr, 1⟩ (some [1]), .load memBase 8]

/-- A device write to a cached line leaves the line stale. -/
theorem dmaRun_stale : (∀ line ∈ cachedMachine.addressSpace.l1.lines, line.valid = false) ∧
      (results cachedMachine (dmaRun memBase))[2]? = some (.access (.ok 0)) ∧
      (results cachedMachine.withoutCache (dmaRun memBase))[2]? = some (.access (.ok 1)) :=
  ⟨List.forall_mem_singleton.2 rfl, rfl, rfl⟩

theorem dmaRun_spares : SpareCache (logAll cachedMachine (dmaRun (memBase + 128))) := by
  have hlog : logAll cachedMachine (dmaRun (memBase + 128)) =
      [.write .dma (runAll cachedMachine [.load memBase 8]).addressSpace.l1 (memBase + 128) 1
        (MemoryEvent.span (memBase + 128) 1)] := rfl
  rw [hlog]
  intro e he
  rw [List.mem_singleton.1 he]
  right
  rintro a ha ⟨line, hline, -, hin⟩
  obtain rfl : a = memBase + 128 := by
    have hzero : (a - (memBase + 128)).toNat = 0 := Nat.lt_one_iff.1 ha
    exact sub_eq_zero.1 (BitVec.eq_of_toNat_eq hzero)
  have hbase : line.base = memBase := by
    have hlines : ∀ line ∈ (runAll cachedMachine [.load memBase 8]).addressSpace.l1.lines,
        line.base = memBase := List.forall_mem_singleton.2 rfl
    exact hlines line hline
  rw [L1Cache.inLine, hbase] at hin
  exact absurd hin (by decide)

/-- A device write beside the cached line changes nothing for the loads. -/
theorem dmaRun_transparent : results cachedMachine (dmaRun (memBase + 128)) =
      results cachedMachine.withoutCache (dmaRun (memBase + 128)) :=
  (cache_transparent cachedMachine rfl (List.forall_mem_singleton.2 rfl) _ dmaRun_spares).1

end GuestOp

end VisualCpu
