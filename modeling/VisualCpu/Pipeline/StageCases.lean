import VisualCpu.Exec.EffectFacts
import VisualCpu.Pipeline.Backend
import VisualCpu.Pipeline.QueueFacts
import VisualCpu.Exec.CommitFacts

/-!
# What each stage can do

One equation for each stage and each way through it. Invariants of the pipeline are
proved from these, without unfolding the stages again.
-/

namespace VisualCpu

open PipelineHazards LoadStoreQueue

variable {D : Type} [Devices D]

theorem translateMemoryAddress_probed (cpu : Cpu D) (addr : BitVec 64) (size : ℕ)
    (type : AccessType) : cpu.Probed (translateMemoryAddress cpu addr size type).2 := by
  unfold translateMemoryAddress
  split_ifs
  · exact .refl cpu
  cases h : cpu.translateResult addr type false with
  | mk result cpu' =>
    have hcpu : cpu.Probed cpu' := .inr ⟨addr, type, (congrArg Prod.snd h).symm⟩
    cases result <;> exact hcpu

def StageSlot.Fetched (slot : StageSlot) : Prop :=
  ∃ predictor sequenceId pc raw, slot = Pipeline.fetchedSlot predictor sequenceId pc raw

def StageSlot.pendingEntry (slot : StageSlot) : RobEntry :=
  Pipeline.robEntryOf { slot with lsqIndex := 0 } slot.robIndex

namespace StageSlot

variable (slot : StageSlot)

@[simp] theorem pendingEntry_index : slot.pendingEntry.index = slot.robIndex := rfl
@[simp] theorem pendingEntry_sequenceId : slot.pendingEntry.sequenceId = slot.sequenceId := rfl
@[simp] theorem pendingEntry_pc : slot.pendingEntry.pc = slot.pc := rfl
@[simp] theorem pendingEntry_raw : slot.pendingEntry.raw = slot.raw := rfl
@[simp] theorem pendingEntry_insnSize : slot.pendingEntry.insnSize = slot.insnSize := rfl
@[simp] theorem pendingEntry_physRd : slot.pendingEntry.physRd = slot.rdPhys := rfl
@[simp] theorem pendingEntry_archRd : slot.pendingEntry.archRd =
    if writesRd slot.insn then slot.insn.rd else 0 := rfl
@[simp] theorem pendingEntry_ready : slot.pendingEntry.ready = false := rfl

end StageSlot

namespace Pipeline

variable (p : Pipeline D) (slot : StageSlot)

/-- The effects, queue, registers and processor that an access leaves. -/
structure MemOutcome (D : Type) where
  cpu : Cpu D
  lsq : LoadStoreQueue
  physRegs : PhysicalRegisterFile
  effects : InsnEffects

def faultedLoad (effects : InsnEffects) (fault : TrapRequest) : InsnEffects :=
  { effects with
    trap := some fault
    rdWrite := none
    fpWrite := none }

def loadedOutcome (cpu : Cpu D) (value : BitVec 64) : MemOutcome D :=
  let mem := slot.effects.mem
  let extended := extendLoadedValue value mem.size mem.signExtend
  { cpu
    lsq := if slot.lsqIndex ≠ 0 then
      (p.state.lsq.markDataReady slot.lsqIndex
        (if mem.target = .float then value else extended)).markOrderReady slot.lsqIndex
      else p.state.lsq
    physRegs := if mem.target = .integer ∧ slot.rdPhys ≠ 0 then
      p.state.physRegs.write slot.rdPhys extended else p.state.physRegs
    effects := completeLoad slot.effects value extended }

/-- What the memory stage makes of an access whose delay is over. -/
def memOutcome : MemOutcome D :=
  match slot.effects.mem.kind with
  | .load =>
    match p.loadValue slot with
    | (.error fault, cpu) => ⟨cpu, p.state.lsq, p.state.physRegs, faultedLoad slot.effects fault⟩
    | (.ok value, cpu) => p.loadedOutcome slot cpu value
  | .store =>
    ⟨p.cpu, if slot.lsqIndex ≠ 0 then p.state.lsq.markOrderReady slot.lsqIndex else p.state.lsq,
      p.state.physRegs, slot.effects⟩
  | .none => ⟨p.cpu, p.state.lsq, p.state.physRegs, slot.effects⟩

/-- The state after an access: its entry is ready and its slot is in writeback. -/
def afterAccess (outcome : MemOutcome D) : Pipeline D :=
  { p with
    cpu := outcome.cpu
    state :=
      { p.state with
        lsq := outcome.lsq
        physRegs := outcome.physRegs
        nextMemWb := some { slot with effects := outcome.effects }
        rob := p.state.rob.markReady slot.robIndex outcome.effects slot.lsqIndex } }

theorem memAccess_eq (htrap : slot.effects.trap = none) :
    p.memAccess slot = p.afterAccess slot (p.memOutcome slot) := by
  have hsome : slot.effects.trap.isSome = false := by simp [htrap]
  unfold memAccess memOutcome
  simp only [hsome, Bool.false_eq_true, if_false]
  cases slot.effects.mem.kind with
  | none => rfl
  | store =>
    split_ifs <;> rfl
  | load =>
    rcases p.loadValue slot with ⟨fault | value, cpu⟩
    · rfl
    simp only [finishLoad, loadedOutcome, afterAccess, completeSlot]
    split_ifs <;> rfl

theorem stepMem_cases (hissued : ∀ slot ∈ p.state.exMem, slot.effects.trap = none) :
    (p.state.exMem = none ∧ p.stepMem = p) ∨
    (∃ slot, p.state.exMem = some slot ∧ p.state.exMemCyclesRemaining ≠ 0 ∧
      p.stepMem = p.mapState fun s =>
        { s with
          nextExMem := some slot
          nextExMemCyclesRemaining := s.exMemCyclesRemaining - 1 }) ∨
    (∃ slot, p.state.exMem = some slot ∧ p.state.exMemCyclesRemaining = 0 ∧
      p.stepMem = p.afterAccess slot (p.memOutcome slot)) := by
  unfold stepMem
  cases hmem : p.state.exMem with
  | none => exact .inl ⟨rfl, rfl⟩
  | some slot =>
    by_cases hzero : p.state.exMemCyclesRemaining = 0
    · refine .inr (.inr ⟨slot, rfl, hzero, ?_⟩)
      simp only [hzero, ne_eq, not_true_eq_false, if_false]
      exact p.memAccess_eq slot (hissued slot hmem)
    · exact .inr (.inl ⟨slot, rfl, hzero, if_pos hzero⟩)

theorem memOutcome_inherits : LoadStoreQueue.Inherits p.state.lsq (p.memOutcome slot).lsq := by
  unfold memOutcome
  cases slot.effects.mem.kind with
  | none => exact .refl _
  | store =>
    split_ifs
    · exact inherits_markOrderReady
    · exact .refl _
  | load =>
    rcases p.loadValue slot with ⟨fault | value, cpu⟩
    · exact .refl _
    simp only [loadedOutcome]
    split_ifs
    · exact (inherits_markDataReady _).trans inherits_markOrderReady
    · exact (inherits_markDataReady _).trans inherits_markOrderReady
    · exact .refl _

section Execute

variable [Fpu] (dependency : OlderVectorDependency) (effects : InsnEffects) {insn : Insn}

def slotEffects : InsnEffects :=
  p.computeVector dependency (execute slot.insn p.cpu (p.exInputs slot))

omit [Devices D] [Fpu] in
theorem computeVector_shape (h : EffectShape insn effects) :
    EffectShape insn (p.computeVector dependency effects) := by
  unfold computeVector
  split_ifs with hid
  · exact h
  rw [Bool.or_eq_true, not_or] at hid
  obtain ⟨htrap, halu⟩ := hid
  rw [Option.isSome_iff_ne_none, not_not] at htrap
  have hkind : effects.vector.kind ≠ .none := by
    intro hnone
    simp [VectorOps.isNonMemoryVectorAlu, hnone] at halu
  have hne : insn.opcode ≠ 0x2F := by
    intro hopcode
    rw [h.ofAtomic hopcode htrap] at hkind
    exact hkind rfl
  rw [h.vector hkind htrap]
  simp only
  split
  · constructor <;> simp [trapEffect, hne]
  · constructor <;> simp [hne]

theorem slotEffects_shape : EffectShape slot.insn (p.slotEffects slot dependency) :=
  p.computeVector_shape dependency _ (execute_shape _ _ _)

theorem slotEffects_describes (hvalid : (describeMemory slot.insn).valid)
    (htrap : (p.slotEffects slot dependency).trap = none) :
    (p.slotEffects slot dependency).mem.kind = (describeMemory slot.insn).kind := by
  have hsame : (p.slotEffects slot dependency).mem.kind =
        (execute slot.insn p.cpu (p.exInputs slot)).mem.kind ∧
      (execute slot.insn p.cpu (p.exInputs slot)).trap = none := by
    unfold slotEffects computeVector at htrap ⊢
    split_ifs at htrap ⊢ with hid
    · exact ⟨rfl, htrap⟩
    rw [Bool.or_eq_true, not_or] at hid
    have hnone : (execute slot.insn p.cpu (p.exInputs slot)).trap = none := by
      simpa using hid.1
    dsimp only at htrap ⊢
    split at htrap
    · cases htrap
    · exact ⟨rfl, hnone⟩
  rw [hsame.1]
  exact execute_describes _ _ _ hvalid hsame.2

/-- The state after an instruction without a memory access has executed. -/
def afterExecution : Pipeline D :=
  { p with
    state :=
      { p.state with
        physRegs :=
          match effects.rdWrite with
          | some write =>
            if slot.rdPhys ≠ 0 then p.state.physRegs.write slot.rdPhys write.value
            else p.state.physRegs
          | none => p.state.physRegs
        rob := p.state.rob.markReady slot.robIndex effects slot.lsqIndex
        nextMemWb := p.state.nextMemWb.or (some { slot with effects }) } }

omit [Devices D] [Fpu] in
theorem finishEx_eq (hkind : effects.mem.kind = .none) :
    p.finishEx { slot with effects } = p.afterExecution slot effects := by
  unfold finishEx afterExecution
  cases effects.rdWrite with
  | none => simp [hkind, mapRob, mapState]
  | some write =>
    split_ifs <;> rfl

/-- The target of an executed slot: its redirect, or the instruction after it. -/
def resolvedTarget : BitVec 64 :=
  effects.control.redirectPc.getD (fallthroughPc slot.pc slot.raw slot.insnSize)

/-- The prediction of the slot sent the front end the wrong way. -/
def mispredicted : Bool :=
  effects.trap.isNone && isControlFlowOpcode slot.insn.opcode &&
    !predictionMatches slot.prediction effects.control.redirectPc.isSome
      (resolvedTarget slot effects)

/-- Restart the front end at `target`. -/
def redirectFront (s : PipelineState) (target : BitVec 64) : PipelineState :=
  { s with
    redirectPending := true
    nextIfId := none
    nextIdEx := none
    pendingFetchFault := none
    fetchPc := target }

omit [Devices D] [Fpu] in
theorem resolveControlFlow_cases : ∃ predictor,
    (mispredicted slot effects = false ∧ p.resolveControlFlow slot effects = { p with predictor }) ∨
    (mispredicted slot effects ∧
      p.resolveControlFlow slot effects =
        { p with
          predictor
          state := redirectFront p.state (resolvedTarget slot effects) }) := by
  unfold resolveControlFlow mispredicted
  cases htrap : effects.trap with
  | some trap => exact ⟨p.predictor, .inl ⟨by simp, by simp⟩⟩
  | none =>
    cases hflow : isControlFlowOpcode slot.insn.opcode with
    | false => exact ⟨p.predictor, .inl ⟨by simp, by simp⟩⟩
    | true =>
      refine ⟨p.predictor.update ⟨slot.pc, slot.raw, slot.prediction,
        effects.control.redirectPc.isSome, resolvedTarget slot effects⟩, ?_⟩
      cases hmatch : predictionMatches slot.prediction effects.control.redirectPc.isSome
          (resolvedTarget slot effects) with
      | true =>
        refine .inl ⟨by simp, ?_⟩
        simp only [resolvedTarget] at hmatch
        simp [hmatch, resolvedTarget]
      | false =>
        refine .inr ⟨by simp, ?_⟩
        simp only [resolvedTarget] at hmatch
        simp [hmatch, resolvedTarget, redirectFront, mapState]

/-- The access information of a slot in the execute stage. -/
def accessInfo (type : AccessType) : LsqAddressInfo × Cpu D :=
  translateMemoryAddress p.cpu effects.mem.addr effects.mem.size type

def loadQueue : ℕ × LoadStoreQueue :=
  if slot.lsqIndex = 0 then
    p.state.lsq.enqueueLoad slot.sequenceId effects.mem.rd effects.mem.size effects.mem.signExtend
      effects.mem.nonSpeculative
  else (slot.lsqIndex, p.state.lsq)

/-- The state after an access has been handed to the memory stage. -/
def issued (info : LsqAddressInfo) (cpu : Cpu D) (lsqIndex : ℕ) (lsq : LoadStoreQueue) :
    Pipeline D :=
  { p with
    cpu
    state :=
      { p.state with
        lsq
        nextExMem := some
          { slot with
            effects
            lsqIndex
            lsqAddressInfo := info }
        nextExMemCyclesRemaining := if info.needsMemoryIssueDelay then 1 else 0 } }

def issuedLoad : Pipeline D :=
  let (info, cpu) := p.accessInfo effects .load
  let (lsqIndex, lsq) := p.loadQueue slot effects
  p.issued slot effects info cpu lsqIndex (lsq.markAddressReady lsqIndex effects.mem.addr info)

def issuedStore : Pipeline D :=
  let (info, cpu) := p.accessInfo effects .store
  p.issued slot effects info cpu slot.lsqIndex
    (if slot.lsqIndex ≠ 0 then
      (p.state.lsq.markAddressReady slot.lsqIndex effects.mem.addr info).markDataReady slot.lsqIndex
        effects.mem.storeValue
    else p.state.lsq)

omit [Fpu] in
theorem executeLoad_cases :
    (∃ cpu, p.cpu.Probed cpu ∧
      p.executeLoad slot { slot with effects } = (false, ({ p with cpu }).holdInEx slot)) ∨
    (p.memoryPathBusy = false ∧
      ((p.accessInfo effects .load).1.isKnownRam ∨ p.state.rob.isHead slot.robIndex) ∧
      p.executeLoad slot { slot with effects } = (true, p.issuedLoad slot effects)) := by
  have hregs := translateMemoryAddress_probed p.cpu effects.mem.addr effects.mem.size .load
  unfold executeLoad issuedLoad accessInfo
  dsimp only
  generalize translateMemoryAddress p.cpu effects.mem.addr effects.mem.size .load = info at hregs ⊢
  obtain ⟨info, cpu⟩ := info
  by_cases hwait : (!info.isKnownRam && !p.state.rob.isHead slot.robIndex) = true
  · exact .inl ⟨cpu, hregs, if_pos hwait⟩
  rw [if_neg hwait]
  cases hbusy : p.memoryPathBusy with
  | true => exact .inl ⟨cpu, hregs, if_pos hbusy⟩
  | false =>
    refine .inr ⟨rfl, ?_, ?_⟩
    · cases hram : info.isKnownRam <;> cases hhead : p.state.rob.isHead slot.robIndex <;>
        simp_all
    · exact if_neg (by simpa [memoryPathBusy] using hbusy)

omit [Fpu] in
theorem executeStore_cases :
    (∃ cpu, p.cpu.Probed cpu ∧
      p.executeStore slot { slot with effects } = (false, ({ p with cpu }).holdInEx slot)) ∨
    (p.memoryPathBusy = false ∧
      p.executeStore slot { slot with effects } = (true, p.issuedStore slot effects)) := by
  have hregs := translateMemoryAddress_probed p.cpu effects.mem.addr effects.mem.size .store
  unfold executeStore issuedStore accessInfo
  dsimp only
  generalize translateMemoryAddress p.cpu effects.mem.addr effects.mem.size .store = info at hregs ⊢
  obtain ⟨info, cpu⟩ := info
  cases hbusy : p.memoryPathBusy with
  | true => exact .inl ⟨cpu, hregs, if_pos hbusy⟩
  | false =>
    refine .inr ⟨rfl, ?_⟩
    rw [if_neg (by simpa [memoryPathBusy] using hbusy)]
    split_ifs <;> rfl

/-- The ways through the execute stage for a slot that is free to execute. -/
inductive ExecuteOutcome (slot : StageSlot) (effects : InsnEffects) (q : Pipeline D) : Prop
  /-- It has no memory access and is complete. -/
  | done (predictor : BranchPredictor) (hkind : effects.mem.kind = .none)
      (hpredicted : mispredicted slot effects = false)
      (heq : q = { p.afterExecution slot effects with predictor })
  /-- It is complete and restarts the front end. -/
  | redirect (predictor : BranchPredictor) (hkind : effects.mem.kind = .none)
      (hpredicted : mispredicted slot effects)
      (heq : q = { p.afterExecution slot effects with
        predictor
        state :=
          redirectFront (p.afterExecution slot effects).state (resolvedTarget slot effects) })
  /-- Its access has to wait. -/
  | held (cpu : Cpu D) (hregs : p.cpu.Probed cpu) (hkind : effects.mem.kind ≠ .none)
      (htrap : effects.trap = none) (heq : q = ({ p with cpu }).holdInEx slot)
  | load (hkind : effects.mem.kind = .load) (htrap : effects.trap = none)
      (hbusy : p.memoryPathBusy = false)
      (hhead : (p.accessInfo effects .load).1.isKnownRam ∨
        p.state.rob.isHead slot.robIndex)
      (heq : q = p.issuedLoad slot effects)
  | store (hkind : effects.mem.kind = .store) (htrap : effects.trap = none)
      (hbusy : p.memoryPathBusy = false) (heq : q = p.issuedStore slot effects)

omit [Devices D] [Fpu] in
theorem finish_access (hinsn : slot.insn = insn) {slot' : StageSlot}
    (heffects : slot'.effects = effects) (hshape : EffectShape insn effects)
    (hkind : effects.mem.kind ≠ .none) :
    (p.finishEx slot').resolveControlFlow slot effects = p := by
  obtain ⟨rs1v, rs2v, hvalid, hbuild⟩ := hshape.memory hkind
  have hrd : effects.rdWrite = none := by
    rw [hbuild]
    simp [buildMemoryEffects, hvalid]
  have hflow : isControlFlowOpcode insn.opcode = false := by
    unfold describeMemory at hvalid
    split at hvalid
    · simp [isControlFlowOpcode, *]
    · simp [isControlFlowOpcode, *]
    · simp [isControlFlowOpcode, *]
    · simp [isControlFlowOpcode, *]
    · simp at hvalid
  simp [finishEx, resolveControlFlow, heffects, hrd, hkind, hinsn, hflow]

theorem executeSlot_cases :
    p.ExecuteOutcome slot (p.slotEffects slot dependency) (p.executeSlot slot dependency) := by
  have hshape := p.slotEffects_shape slot dependency
  have hunfold : p.executeSlot slot dependency =
      if (p.issueSlot slot { slot with effects := p.slotEffects slot dependency }).1 then
        ((p.issueSlot slot { slot with effects := p.slotEffects slot dependency }).2.finishEx
          { slot with effects := p.slotEffects slot dependency }).resolveControlFlow slot
          (p.slotEffects slot dependency)
      else (p.issueSlot slot { slot with effects := p.slotEffects slot dependency }).2 := rfl
  rw [hunfold]
  generalize p.slotEffects slot dependency = effects at hshape ⊢
  by_cases hkind : effects.mem.kind = .none
  · have hissue : p.issueSlot slot { slot with effects } = (true, p) := by
      unfold issueSlot
      simp only [hkind]
      cases effects.trap <;> rfl
    simp only [hissue, if_true]
    rw [p.finishEx_eq slot effects hkind]
    obtain ⟨predictor, ⟨hpredicted, heq⟩ | ⟨hpredicted, heq⟩⟩ :=
      (p.afterExecution slot effects).resolveControlFlow_cases slot effects
    · exact .done predictor hkind hpredicted heq
    · exact .redirect predictor hkind hpredicted heq
  · have htrap : effects.trap = none := by
      by_contra hsome
      obtain ⟨trap, htrap⟩ := Option.ne_none_iff_exists'.1 hsome
      rw [hshape.trapped trap htrap] at hkind
      exact hkind rfl
    have hfinish : ∀ q : Pipeline D, (q.finishEx { slot with effects }).resolveControlFlow slot
        effects = q := fun q => q.finish_access slot effects rfl rfl hshape hkind
    cases hmem : effects.mem.kind with
    | none => exact absurd hmem hkind
    | load =>
      have hissue : p.issueSlot slot { slot with effects } =
          p.executeLoad slot { slot with effects } := by
        unfold issueSlot
        simp only [htrap, hmem]
      rw [hissue]
      rcases p.executeLoad_cases slot effects with ⟨cpu, hregs, hheld⟩ | ⟨hbusy, hhead, hissued⟩
      · rw [hheld]
        exact .held cpu hregs hkind htrap rfl
      rw [hissued]
      exact .load hmem htrap hbusy hhead (hfinish _)
    | store =>
      have hissue : p.issueSlot slot { slot with effects } =
          p.executeStore slot { slot with effects } := by
        unfold issueSlot
        simp only [htrap, hmem]
      rw [hissue]
      rcases p.executeStore_cases slot effects with ⟨cpu, hregs, hheld⟩ | ⟨hbusy, hissued⟩
      · rw [hheld]
        exact .held cpu hregs hkind htrap rfl
      rw [hissued]
      exact .store hmem htrap hbusy (hfinish _)

/-- The slot stays in the execute stage whatever its operands are. -/
def waitsInEx : Bool :=
  p.isSerializingSystemSlot slot || (p.olderVectorDependency slot).blocks

theorem stepEx_cases :
    (p.state.idEx = none ∧ p.stepEx = p) ∨
    (∃ slot, p.state.idEx = some slot ∧ p.waitsInEx slot ∧ p.stepEx = p.holdInEx slot) ∨
    (∃ slot, p.state.idEx = some slot ∧ p.waitsInEx slot = false ∧
      p.stepEx = p.executeSlot slot (p.olderVectorDependency slot)) := by
  unfold stepEx
  cases hex : p.state.idEx with
  | none => exact .inl ⟨rfl, rfl⟩
  | some slot =>
    right
    simp only [Option.some.injEq, waitsInEx]
    by_cases hsystem : p.isSerializingSystemSlot slot
    · exact .inl ⟨slot, rfl, by simp [hsystem], if_pos hsystem⟩
    by_cases hblocks : (p.olderVectorDependency slot).blocks
    · refine .inl ⟨slot, rfl, by simp [hblocks], ?_⟩
      rw [if_neg hsystem, if_pos hblocks]
    refine .inr ⟨slot, rfl, by simp [hsystem, hblocks], ?_⟩
    rw [if_neg hsystem, if_neg hblocks]

end Execute

section Front

variable (fetched : StageSlot)

/-- The slot that leaves the decode stage: decoded, with its operands, its destination
and its queue entries. -/
def dispatchedSlot : StageSlot :=
  let slot := decodeSlot p.state.renameMap fetched
  let memory := describeMemory slot.insn
  { slot with
    rs1v := p.state.physRegs.read slot.rs1Phys
    rs2v := p.state.physRegs.read slot.rs2Phys
    rdPhys := if writesRd slot.insn then
      (p.state.renameMap.renameDest (Fin.ofNat 32 slot.insn.rd)).1.phys else 0
    robIndex := p.state.rob.nextIndex
    lsqIndex := if memory.valid ∧ memory.kind = .store then p.state.lsq.nextIndex else 0 }

/-- The state after a fetched slot has been decoded and given its entries. -/
def dispatched : Pipeline D :=
  let slot := p.dispatchedSlot fetched
  let memory := describeMemory slot.insn
  { p with
    state :=
      { p.state with
        rob := ⟨p.state.rob.entries ++ [slot.pendingEntry], p.state.rob.nextIndex + 1⟩
        renameMap := if writesRd slot.insn then
          (p.state.renameMap.renameDest (Fin.ofNat 32 slot.insn.rd)).2 else p.state.renameMap
        physRegs := if writesRd slot.insn then
          p.state.physRegs.setPending slot.rdPhys else p.state.physRegs
        lsq := if memory.valid ∧ memory.kind = .store then
          (p.state.lsq.enqueueStore slot.sequenceId memory.size memory.nonSpeculative).2
          else p.state.lsq
        nextIdEx := some slot
        nextIfId := none } }

def operandSlot : StageSlot :=
  let slot := decodeSlot p.state.renameMap fetched
  { slot with
    rs1v := p.state.physRegs.read slot.rs1Phys
    rs2v := p.state.physRegs.read slot.rs2Phys }

omit [Devices D] in
theorem dispatchSlot_eq {fetched : StageSlot} (hfetched : fetched.Fetched) :
    (p.renameSlot (p.operandSlot fetched)).2.dispatchSlot
      (p.renameSlot (p.operandSlot fetched)).1 = p.dispatched fetched := by
  obtain ⟨predictor, sequenceId, pc, raw, rfl⟩ := hfetched
  have hinsn : (p.operandSlot (fetchedSlot predictor sequenceId pc raw)).insn = decode raw := rfl
  by_cases hrd : writesRd (decode raw)
  · rw [renameSlot, hinsn, if_pos hrd]
    unfold dispatchSlot dispatched dispatchedSlot
    dsimp only [operandSlot, decodeSlot, fetchedSlot]
    rw [if_pos hrd, if_pos hrd, if_pos hrd]
    split_ifs <;> rfl
  · rw [renameSlot, hinsn, if_neg hrd]
    unfold dispatchSlot dispatched dispatchedSlot
    dsimp only [operandSlot, decodeSlot, fetchedSlot]
    rw [if_neg hrd, if_neg hrd, if_neg hrd]
    split_ifs <;> rfl

theorem loadBlocked_probed : p.cpu.Probed (p.loadBlocked slot).2 := by
  unfold loadBlocked
  dsimp only
  split_ifs
  · exact translateMemoryAddress_probed _ _ _ _
  · exact .refl _

/-- The conditions on which a fetched slot leaves the decode stage. -/
structure DecodeReady (fetched : StageSlot) : Prop where
  fp : p.state.rob.hasOlderFpPending fetched.sequenceId (fpSources (decode fetched.raw)) = false
  sources : sourcesReady p.state.physRegs (decodeSlot p.state.renameMap fetched)
  unblocked : (p.loadBlocked (p.operandSlot fetched)).1 = false

theorem decodeFetchedSlot_cases {fetched : StageSlot} (hfetched : fetched.Fetched) :
    (∃ cpu, p.cpu.Probed cpu ∧ p.decodeFetchedSlot fetched = { p with cpu }) ∨
    (p.DecodeReady fetched ∧ p.decodeFetchedSlot fetched =
      ({ p with cpu := (p.loadBlocked (p.operandSlot fetched)).2 }).dispatched fetched) := by
  have hunfold : p.decodeFetchedSlot fetched =
      if p.state.rob.hasOlderFpPending fetched.sequenceId (fpSources (decode fetched.raw)) then p
      else if !sourcesReady p.state.physRegs (decodeSlot p.state.renameMap fetched) then p
      else if (p.loadBlocked (p.operandSlot fetched)).1 then
        { p with cpu := (p.loadBlocked (p.operandSlot fetched)).2 }
      else ({ p with cpu := (p.loadBlocked (p.operandSlot fetched)).2 }).dispatched fetched := by
    rw [← dispatchSlot_eq _ hfetched]
    rfl
  rw [hunfold]
  cases hfp : p.state.rob.hasOlderFpPending fetched.sequenceId (fpSources (decode fetched.raw)) with
  | true => exact .inl ⟨p.cpu, .refl _, rfl⟩
  | false =>
    cases hsources : sourcesReady p.state.physRegs (decodeSlot p.state.renameMap fetched) with
    | false => exact .inl ⟨p.cpu, .refl _, rfl⟩
    | true =>
      cases hblocked : (p.loadBlocked (p.operandSlot fetched)).1 with
      | true => exact .inl ⟨_, p.loadBlocked_probed _, rfl⟩
      | false => exact .inr ⟨⟨hfp, hsources, hblocked⟩, rfl⟩

/-- The ways through the decode stage. -/
inductive DecodeOutcome (q : Pipeline D) : Prop
  /-- The front end was restarted in this cycle. -/
  | dropped (hredirect : p.state.redirectPending)
      (heq : q = p.mapState fun s => { s with nextIfId := none })
  /-- There is nothing to decode, or it has to wait. -/
  | waits (cpu : Cpu D) (hregs : p.cpu.Probed cpu)
      (hredirect : p.state.redirectPending = false)
      (heq : q = ({ p with cpu }).mapState fun s => { s with nextIfId := s.ifId })
  | dispatch (fetched : StageSlot) (hfetched : p.state.ifId = some fetched)
      (hfree : p.state.nextIdEx = none) (hredirect : p.state.redirectPending = false)
      (hready : p.DecodeReady fetched)
      (heq : q = ({ p with cpu := (p.loadBlocked (p.operandSlot fetched)).2 }).dispatched fetched)

theorem stepId_cases (hfetched : p.state.redirectPending = false →
    ∀ slot ∈ p.state.ifId, slot.Fetched) : p.DecodeOutcome p.stepId := by
  unfold stepId
  cases hredirect : p.state.redirectPending with
  | true => exact .dropped hredirect rfl
  | false =>
    simp only [Bool.false_eq_true, if_false]
    split
    case h_1 fetched hex hslot =>
      rcases decodeFetchedSlot_cases (p.mapState fun s => { s with nextIfId := s.ifId })
        (hfetched hredirect fetched hslot) with ⟨cpu, hregs, heq⟩ | ⟨hready, heq⟩
      · exact .waits cpu hregs hredirect heq
      exact .dispatch fetched hslot hex hredirect
        ⟨hready.fp, hready.sources, hready.unblocked⟩ heq
    case h_2 => exact .waits p.cpu (.refl _) hredirect rfl

/-- The ways through the fetch stage. -/
inductive FetchOutcome (q : Pipeline D) : Prop
  | idle (hidle : p.cpu.core.halted ∨ p.state.nextIfId ≠ none ∨
        p.state.pendingFetchFault ≠ none) (heq : q = p)
  | fault (fault : TrapRequest) (cpu : Cpu D) (hempty : p.state.nextIfId = none)
      (hnofault : p.state.pendingFetchFault = none)
      (hfetch : p.cpu.fetchInstruction p.state.fetchPc = (.error fault, cpu))
      (heq : q =
        { p with
          cpu
          state := { p.state with pendingFetchFault := some ⟨fault, p.state.fetchPc⟩ } })
  | fetched (raw : BitVec 32) (cpu : Cpu D) (hempty : p.state.nextIfId = none)
      (hnofault : p.state.pendingFetchFault = none)
      (hfetch : p.cpu.fetchInstruction p.state.fetchPc = (.ok raw, cpu))
      (heq : q =
        let slot := fetchedSlot p.predictor (p.state.lastSequenceId + 1) p.state.fetchPc raw
        { p with
          cpu
          state :=
            { p.state with
              lastSequenceId := p.state.lastSequenceId + 1
              nextIfId := some slot
              fetchPc := predictedPc slot } })

theorem stepIf_cases : p.FetchOutcome p.stepIf := by
  unfold stepIf
  by_cases hidle : (p.cpu.core.halted || p.state.nextIfId.isSome ||
      p.state.pendingFetchFault.isSome)
  · refine .idle ?_ (if_pos hidle)
    simpa [or_assoc, Option.isSome_iff_ne_none] using hidle
  rw [if_neg hidle]
  simp only [Bool.or_eq_true, not_or, Option.isSome_iff_ne_none, not_not] at hidle
  obtain ⟨⟨-, hempty⟩, hnofault⟩ := hidle
  cases hfetch : p.cpu.fetchInstruction p.state.fetchPc with
  | mk result cpu =>
    cases result with
    | error fault => exact .fault fault cpu hempty hnofault hfetch rfl
    | ok raw => exact .fetched raw cpu hempty hnofault hfetch rfl

end Front

section Writeback

/-- The ways through the writeback stage. -/
inductive WritebackOutcome (result : Bool × Pipeline D) : Prop
  | idle (hidle : ∀ head ∈ p.state.rob.peekHead, head.ready = false) (heq : result = (false, p))
  | commit (head : RobEntry) (rest : List RobEntry) (hentries : p.state.rob.entries = head :: rest)
      (hready : head.ready) (heq : result = p.commitReadyHead head)

theorem stepWb_cases : p.WritebackOutcome p.stepWb := by
  unfold stepWb
  cases hentries : p.state.rob.entries with
  | nil =>
    have hpeek : p.state.rob.peekHead = none := by simp [ReorderBuffer.peekHead, hentries]
    rw [hpeek]
    exact .idle (by simp [hpeek]) rfl
  | cons head rest =>
    have hpeek : p.state.rob.peekHead = some head := by simp [ReorderBuffer.peekHead, hentries]
    rw [hpeek]
    cases hready : head.ready with
    | false => exact .idle (by simp [hpeek, hready]) (by simp [hready])
    | true => exact .commit head rest hentries hready (by simp [hready])

def deliveredFault (pending : PendingFetchFault) : Pipeline D :=
  let cpu := (p.cpu.setPc pending.pc).enterException pending.fault
  { p with
    cpu
    state := (p.state.recordTrap (cpu.makeTrapObservation pending.pc 0)).flush cpu.core.pc }

def takenInterrupt (cpu : Cpu D) : Pipeline D :=
  ({ p with
    cpu
    state := p.state.recordTrap (cpu.makeTrapObservation p.cpu.core.pc 0) } : Pipeline D).squash

/-- Nothing older than the fetch stage is in flight. -/
structure Drained (s : PipelineState) : Prop where
  ifId : s.ifId = none
  idEx : s.idEx = none
  exMem : s.exMem = none
  rob : s.rob.entries = []

/-- The ways through the delivery of pending events. -/
inductive DeliverOutcome (q : Pipeline D) : Prop
  | fault (pending : PendingFetchFault) (hpending : p.state.pendingFetchFault = some pending)
      (hcommitted : p.state.committed = false) (hdrained : Drained p.state)
      (heq : q = p.deliveredFault pending)
  | interrupt (cpu : Cpu D) (hmay : mayServiceInterrupt p.state)
      (hservice : p.cpu.servicePendingInterrupts = some cpu) (heq : q = p.takenInterrupt cpu)
  | nothing (heq : q = p)

theorem deliverPending_cases : p.DeliverOutcome p.deliverPending := by
  have hservice : p.DeliverOutcome (p.tryServiceInterrupt.getD p) := by
    unfold tryServiceInterrupt
    cases hmay : mayServiceInterrupt p.state with
    | false => exact .nothing rfl
    | true =>
      cases hcpu : p.cpu.servicePendingInterrupts with
      | none => exact .nothing rfl
      | some cpu => exact .interrupt cpu hmay hcpu rfl
  unfold deliverPending
  cases hcommitted : p.state.committed with
  | true => exact hservice
  | false =>
    unfold tryCommitFetchFault
    cases hpending : p.state.pendingFetchFault with
    | none => exact hservice
    | some pending =>
      simp only
      by_cases hbusy : (p.state.ifId.isSome || p.state.idEx.isSome || p.state.exMem.isSome ||
          !p.state.rob.entries.isEmpty) = true
      · rw [if_pos hbusy]
        exact hservice
      rw [if_neg hbusy]
      simp only [Bool.or_eq_true, not_or, Bool.not_eq_true, Bool.not_eq_false',
        Option.isSome_eq_false_iff, Option.isNone_iff_eq_none, List.isEmpty_iff] at hbusy
      obtain ⟨⟨⟨hif, hex⟩, hmem⟩, hrob⟩ := hbusy
      exact .fault pending hpending hcommitted ⟨hif, hex, hmem, hrob⟩ rfl

end Writeback

end Pipeline

end VisualCpu

/-!
## The commit of a ready entry

`commitReadyHead` as one record: the boundary, the bookkeeping of a retired entry and
the trace, followed by a squash when the boundary asks for one.
-/

namespace VisualCpu.Pipeline

variable {D : Type} [Devices D] (p : Pipeline D) (head : RobEntry)

def commitResult : CommitBoundaryResult := (commitCpu p.cpu p.state.lsq head).1

def boundaryCpu : Cpu D := (commitCpu p.cpu p.state.lsq head).2

/-- The processor after the boundary, with platform events that it raised. -/
def syncedCpu : Cpu D :=
  if (p.commitResult head).platformStateChanged then
    (p.boundaryCpu head).syncPlatformEvents (p.boundaryCpu head).addressSpace.bus.peekEvents
  else p.boundaryCpu head

def retiredLsq (lsq : LoadStoreQueue) : LoadStoreQueue :=
  if head.lsqIndex ≠ 0 then lsq.retireEntry head.lsqIndex else lsq

/-- The retired entry renames a register. -/
abbrev renames : Prop := head.archRd ≠ 0 ∧ head.physRd ≠ 0

def retiredMap (renameMap : RenameMap) : RenameMap :=
  if renames head then (renameMap.commitDest (Fin.ofNat 32 head.archRd) head.physRd).2 else
    renameMap

def retiredCpu (physRegs : PhysicalRegisterFile) (cpu : Cpu D) : Cpu D :=
  let cpu := if renames head then
    cpu.mapCore (·.writeGpr head.archRd (physRegs.read head.physRd)) else cpu
  match head.effects.fpWrite with
  | some write => cpu.mapCore (·.writeFpr write.rd write.value)
  | none => cpu

omit [Devices D] in
theorem retireHead_eq : p.retireHead head =
    { p with
      cpu := retiredCpu head p.state.physRegs p.cpu
      state :=
        { p.state with
          lsq := retiredLsq head p.state.lsq
          renameMap := retiredMap head p.state.renameMap
          rob := p.state.rob.commitHead } } := by
  unfold retireHead retiredCpu retiredLsq retiredMap renames
  cases head.effects.fpWrite <;> dsimp only <;> split_ifs <;> rfl

/-- The processor at the end of the commit. -/
def committedCpu : Cpu D :=
  if (p.commitResult head).retired then retiredCpu head p.state.physRegs (p.syncedCpu head)
  else p.syncedCpu head

def commitEntry : RetireTraceEntry :=
  retireEntry head (p.commitResult head) (p.committedCpu head).core.cycle

def commitObservations : List Observation :=
  (if (p.commitResult head).trapTaken then
    [(p.boundaryCpu head).makeTrapObservation head.pc head.raw] else []) ++
  (if head.sequenceId = 0 then [] else
    [.retire ⟨head.pc, head.raw, (p.commitResult head).trapTaken,
      FunctionalBackend.isRedirect head.effects, (p.committedCpu head).core.cycle,
      (p.commitResult head).nextPc⟩])

def afterCommit : Pipeline D :=
  { p with
    cpu := p.committedCpu head
    state :=
      { p.state with
        lsq := if (p.commitResult head).retired then retiredLsq head p.state.lsq else p.state.lsq
        renameMap := if (p.commitResult head).retired then retiredMap head p.state.renameMap
          else p.state.renameMap
        rob := if (p.commitResult head).retired then p.state.rob.commitHead else p.state.rob
        retireTrace := p.state.retireTrace ++
          if head.sequenceId = 0 then [] else [p.commitEntry head]
        profile := p.state.profile ++ p.commitObservations head
        committed := (p.commitResult head).retired } }

theorem recordCommit_eq (result : CommitBoundaryResult) (afterTrap afterRetire : Cpu D)
    (s : PipelineState) : recordCommit head result afterTrap afterRetire s =
      { s with
        retireTrace := s.retireTrace ++
          if head.sequenceId = 0 then [] else [retireEntry head result afterRetire.core.cycle]
        profile := s.profile ++
          ((if result.trapTaken then [afterTrap.makeTrapObservation head.pc head.raw] else []) ++
          (if head.sequenceId = 0 then [] else
            [.retire ⟨head.pc, head.raw, result.trapTaken,
              FunctionalBackend.isRedirect head.effects,
              afterRetire.core.cycle, result.nextPc⟩])) } := by
  unfold recordCommit PipelineState.recordRetire PipelineState.recordTrap retireEntry
  by_cases hzero : head.sequenceId = 0 <;> cases result.trapTaken <;> simp [hzero]

theorem commitReadyHead_eq : p.commitReadyHead head =
    if (p.commitResult head).trapFlush then (true, (p.afterCommit head).squash)
    else (false, p.afterCommit head) := by
  have hunfold : p.commitReadyHead head =
      let retired := if (p.commitResult head).retired then
        ({ p with cpu := p.syncedCpu head }).retireHead head else { p with cpu := p.syncedCpu head }
      let q := retired.mapState fun s =>
        { recordCommit head (p.commitResult head) (p.boundaryCpu head) retired.cpu s with
          committed := (p.commitResult head).retired }
      if (p.commitResult head).trapFlush then (true, q.squash) else (false, q) := rfl
  rw [hunfold, retireHead_eq]
  unfold afterCommit commitEntry commitObservations committedCpu
  cases (p.commitResult head).retired <;> simp [recordCommit_eq, mapState]

end VisualCpu.Pipeline
