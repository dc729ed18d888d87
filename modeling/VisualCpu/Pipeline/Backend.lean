import VisualCpu.Pipeline.State

/-!
# The pipeline backend

One cycle runs the stages from the back to the front, so that a stage sees what
the later stages have done in the same cycle. The reorder buffer commits at most
one instruction per cycle through the commit boundary; the other stages move
slots between the latches. Debug counters, stall reasons and prediction
statistics of the source are left out.
-/

namespace VisualCpu

open PipelineHazards

structure Pipeline (D : Type) where
  cpu : Cpu D
  predictor : BranchPredictor
  state : PipelineState

def translateMemoryAddress {D : Type} [Devices D] (cpu : Cpu D) (addr : BitVec 64) (size : ℕ)
    (type : AccessType) : LsqAddressInfo × Cpu D :=
  if 0x1000 < (addr &&& 0xFFF).toNat + size then ({ crossesPage := true }, cpu)
  else
    match cpu.translateResult addr type false with
    | (.error _, cpu) => ({ translationFault := true }, cpu)
    | (.ok paddr, cpu) => ({ paddr := some paddr, region := Bus.describeSpan D paddr size }, cpu)

inductive CounterCsrKind where
  | none | cycle | time | instret
deriving DecidableEq

def classifyCounterCsr (addr : BitVec 12) : CounterCsrKind :=
  if addr = Csr.cycle ∨ addr = Csr.mcycle then .cycle
  else if addr = Csr.time then .time
  else if addr = Csr.instret ∨ addr = Csr.minstret then .instret
  else .none

/-- `prediction_matches`. -/
def predictionMatches (prediction : PredictorQueryResult) (taken : Bool) (target : BitVec 64) :
    Bool :=
  if !prediction.valid then !taken
  else if prediction.predictedTaken != taken then false
  else !taken || prediction.predictedTarget == target

namespace Pipeline

variable {D : Type} [Devices D] [Fpu]

def mapState (p : Pipeline D) (f : PipelineState → PipelineState) : Pipeline D :=
  { p with state := f p.state }

def mapRob (p : Pipeline D) (f : ReorderBuffer → ReorderBuffer) : Pipeline D :=
  p.mapState fun s => { s with rob := f s.rob }

def mapLsq (p : Pipeline D) (f : LoadStoreQueue → LoadStoreQueue) : Pipeline D :=
  p.mapState fun s => { s with lsq := f s.lsq }

def mapPhysRegs (p : Pipeline D) (f : PhysicalRegisterFile → PhysicalRegisterFile) : Pipeline D :=
  p.mapState fun s => { s with physRegs := f s.physRegs }

/-- A pipeline attached to a processor, with nothing in flight. -/
def init (cpu : Cpu D) (predictor : BranchPredictor) : Pipeline D :=
  ⟨cpu, predictor, (PipelineState.init cpu.core.pc).resetOooState cpu.core⟩

variable (p : Pipeline D)

/-- Roll back to the committed state and restart fetching at the current pc. -/
def squash : Pipeline D := p.mapState (·.squash p.cpu.core)

/-- `try_replay_flush`. -/
def tryReplayFlush : Option (Pipeline D) :=
  if p.state.lsq.activeReplay.replayRequired then some p.squash else none

/-- What is left to do at the boundary for an executed entry: loads have been
carried out and integer results are in the physical registers. -/
def commitEffects (effects : InsnEffects) : InsnEffects :=
  { effects with
    rdWrite := none
    mem := if effects.mem.kind = .load then { effects.mem with kind := .none } else effects.mem }

def fallthroughPc (pc : BitVec 64) (raw : BitVec 32) (insnSize : BitVec 64) : BitVec 64 :=
  pc + if insnSize ≠ 0 then insnSize else instructionSize (decode raw)

/-- Recording the memory observation translates the address of the access again. -/
def observeCommit (cpu : Cpu D) (entry : Option LsqEntry) (effects : InsnEffects)
    (result : CommitBoundaryResult) : Cpu D :=
  if Cpu.atomicObserved effects.atomic result then cpu
  else
    match entry with
    | some entry =>
      let type := if entry.kind = .load then AccessType.load else .store
      (cpu.translateResult entry.address type false).2
    | none => cpu.observeVector effects.vector

def committedLsqEntry (lsq : LoadStoreQueue) (head : RobEntry) : Option LsqEntry :=
  if head.lsqIndex ≠ 0 then lsq.peek head.lsqIndex else none

/-- The boundary part of `step_wb`: the effects of the head reach the processor. -/
def commitCpu (cpu : Cpu D) (lsq : LoadStoreQueue) (head : RobEntry) :
    CommitBoundaryResult × Cpu D :=
  let (result, cpu) := cpu.applyCommitBoundary
    { pc := head.pc
      nextPc := fallthroughPc head.pc head.raw head.insnSize
      effects := commitEffects head.effects }
  (result, observeCommit cpu (committedLsqEntry lsq head) head.effects result)

def retireEntry (head : RobEntry) (result : CommitBoundaryResult) (cycle : BitVec 64) :
    RetireTraceEntry :=
  { sequenceId := head.sequenceId
    pc := head.pc
    raw := head.raw
    trap := result.trapTaken
    redirect := FunctionalBackend.isRedirect head.effects
    cycle
    targetPc := result.nextPc }

/-- The bookkeeping of a retired head: its queue entry, its destination register
and its floating-point result. -/
def retireHead (head : RobEntry) : Pipeline D :=
  let p := if head.lsqIndex ≠ 0 then p.mapLsq (·.retireEntry head.lsqIndex) else p
  let p :=
    if head.archRd ≠ 0 ∧ head.physRd ≠ 0 then
      let renameMap := (p.state.renameMap.commitDest (Fin.ofNat 32 head.archRd) head.physRd).2
      let value := p.state.physRegs.read head.physRd
      { p with
        cpu := p.cpu.mapCore (·.writeGpr head.archRd value)
        state := { p.state with renameMap } }
    else p
  let p := match head.effects.fpWrite with
    | some write => { p with cpu := p.cpu.mapCore (·.writeFpr write.rd write.value) }
    | none => p
  p.mapRob (·.commitHead)

def recordCommit (head : RobEntry) (result : CommitBoundaryResult) (afterTrap afterRetire : Cpu D)
    (s : PipelineState) : PipelineState :=
  let s := if result.trapTaken then
    s.recordTrap (afterTrap.makeTrapObservation head.pc head.raw) else s
  s.recordRetire (retireEntry head result afterRetire.core.cycle)

def commitReadyHead (head : RobEntry) : Bool × Pipeline D :=
  let (result, cpu) := commitCpu p.cpu p.state.lsq head
  let synced := if result.platformStateChanged then
    cpu.syncPlatformEvents cpu.addressSpace.bus.peekEvents else cpu
  let retired :=
    let q := { p with cpu := synced }
    if result.retired then q.retireHead head else q
  let q := retired.mapState fun s =>
    { recordCommit head result cpu retired.cpu s with committed := result.retired }
  if result.trapFlush then (true, q.squash) else (false, q)

/-- `step_wb`. -/
def stepWb : Bool × Pipeline D :=
  match p.state.rob.peekHead with
  | some head => if head.ready then p.commitReadyHead head else (false, p)
  | none => (false, p)

/-- `try_commit_fetch_fault`: deliver the fault once nothing older is in flight. -/
def tryCommitFetchFault : Option (Pipeline D) :=
  match p.state.pendingFetchFault with
  | none => none
  | some pending =>
    if p.state.ifId.isSome || p.state.idEx.isSome || p.state.exMem.isSome ||
        !p.state.rob.entries.isEmpty then none
    else
      let cpu := (p.cpu.setPc pending.pc).enterException pending.fault
      let observation := cpu.makeTrapObservation pending.pc 0
      some { p with cpu, state := (p.state.recordTrap observation).flush cpu.core.pc }

/-- The condition of `try_service_interrupt_at_commit_boundary` on what the
writeback stage did: nothing committed and the pipeline is empty, or the interrupt
was serviceable before the instruction that committed. -/
def mayServiceInterrupt (s : PipelineState) : Bool :=
  if s.committed then s.interruptServiceableAtCycleStart else s.pipelineEmpty

/-- `try_service_interrupt_at_commit_boundary`. -/
def tryServiceInterrupt : Option (Pipeline D) :=
  if !mayServiceInterrupt p.state then none
  else
    match p.cpu.servicePendingInterrupts with
    | none => none
    | some cpu =>
      let observation := cpu.makeTrapObservation p.cpu.core.pc 0
      some ({ p with cpu, state := p.state.recordTrap observation }).squash

def completeLoad (effects : InsnEffects) (fpValue intValue : BitVec 64) : InsnEffects :=
  let effects := match effects.mem.target with
    | .float => { effects with fpWrite := some ⟨effects.mem.rd, fpValue⟩ }
    | .integer => { effects with rdWrite := some ⟨effects.mem.rd, intValue⟩ }
  { effects with mem := { effects.mem with kind := .none } }

variable (slot : StageSlot)

/-- The value of a load in the memory stage: forwarded from an older store, or
read through the address space. -/
def loadValue : Except TrapRequest (BitVec 64) × Cpu D :=
  match p.state.lsq.forwardableLoad slot.sequenceId slot.effects.mem.size slot.lsqAddressInfo with
  | some forwarded => (.ok forwarded.value, p.cpu)
  | none => p.cpu.loadResult slot.effects.mem.addr slot.effects.mem.size

/-- Publish a slot to writeback and mark its reorder buffer entry ready. -/
def completeSlot : Pipeline D :=
  (p.mapState fun s => { s with nextMemWb := some slot }).mapRob
    (·.markReady slot.robIndex slot.effects slot.lsqIndex)

def finishLoad (value : BitVec 64) : Pipeline D :=
  let mem := slot.effects.mem
  let extended := extendLoadedValue value mem.size mem.signExtend
  let effects := completeLoad slot.effects value extended
  let data := if mem.target = .float then value else extended
  let p := if slot.lsqIndex ≠ 0 then
    p.mapLsq fun lsq => (lsq.markDataReady slot.lsqIndex data).markOrderReady slot.lsqIndex else p
  let p := if mem.target = .integer ∧ slot.rdPhys ≠ 0 then
    p.mapPhysRegs (·.write slot.rdPhys extended) else p
  p.completeSlot { slot with effects }

def memAccess : Pipeline D :=
  if slot.effects.trap.isSome then p.completeSlot slot
  else
    match slot.effects.mem.kind with
    | .load =>
      match p.loadValue slot with
      | (.error fault, cpu) =>
        let effects :=
          { slot.effects with
            trap := some fault
            rdWrite := none
            fpWrite := none }
        ({ p with cpu }).completeSlot { slot with effects }
      | (.ok value, cpu) => ({ p with cpu }).finishLoad slot value
    | .store =>
      let p := if slot.lsqIndex ≠ 0 then p.mapLsq (·.markOrderReady slot.lsqIndex) else p
      p.completeSlot slot
    | .none => p.completeSlot slot

/-- `step_mem`. -/
def stepMem : Pipeline D :=
  match p.state.exMem with
  | none => p
  | some slot =>
    if p.state.exMemCyclesRemaining ≠ 0 then
      p.mapState fun s =>
        { s with
          nextExMem := some slot
          nextExMemCyclesRemaining := s.exMemCyclesRemaining - 1 }
    else p.memAccess slot

def isSerializingSystemSlot : Bool :=
  isSerializingSystemInsn slot.insn && !p.state.rob.isHead slot.robIndex

def olderVectorDependency : OlderVectorDependency :=
  if !isNonMemoryVectorAluInsn slot.insn then {}
  else p.state.rob.inspectOlderVectorDependencies slot.sequenceId slot.insn.rs1 slot.insn.rs2

/-- `resolve_ex_counter_value`: a counter as the instruction would see it. -/
def resolveExCounterValue (addr : BitVec 12) (kind : CounterCsrKind) : BitVec 64 :=
  let read := p.cpu.readCsr addr
  let inMem : BitVec 64 := if p.state.exMem.isSome then 1 else 0
  let retiring : BitVec 64 :=
    match p.state.exMem with
    | some slot => if slot.effects.retired then 1 else 0
    | none => 0
  if kind = .time then read + inMem
  else
    match p.state.exMem.bind (·.effects.csrWrite) with
    | some write =>
      if classifyCounterCsr write.addr = kind then write.value + retiring
      else if kind = .cycle then read + (if p.state.memWb.isSome then 1 else 0) + inMem
      else read + retiring
    | none =>
      if kind = .cycle then read + (if p.state.memWb.isSome then 1 else 0) + inMem
      else read + retiring

/-- `resolve_ex_csr_value`: the register after the write in the memory stage. -/
def resolveExCsrValue (insn : Insn) : BitVec 64 :=
  let addr := (Decode.field64 insn.raw 20 12).setWidth 12
  match classifyCounterCsr addr with
  | .none =>
    match p.state.exMem.bind (·.effects.csrWrite) with
    | some write =>
      let (csr, core) := p.cpu.csr.write write.addr write.value p.cpu.core
      csr.read addr core p.cpu.addressSpace.bus.mtime
    | none => p.cpu.readCsr addr
  | kind => p.resolveExCounterValue addr kind

def exInputs : SemanticInputs :=
  let sources : PipelineForwardingSources := ⟨p.state.exMem, p.state.memWb⟩
  let resolve := resolveRegisterValue sources
  let insn := slot.insn
  { pc := slot.pc
    rs1v := if describeRs1 insn = .fpr then p.cpu.core.readFpr insn.rs1
      else resolve slot.rs1Phys slot.rs1v
    rs2v := if describeRs2 insn = .fpr then p.cpu.core.readFpr insn.rs2
      else resolve slot.rs2Phys slot.rs2v
    rs3v := if (describeRegisters insn).rs3 = .fpr then p.cpu.core.readFpr insn.rs3 else 0
    csrv := if insn.opcode = 0x73 ∧ insn.funct3 ≠ 0 then some (p.resolveExCsrValue insn) else none
    ecallA7 := if insn.raw = 0x73 then
      some (resolve slot.ecallA7Phys (p.state.physRegs.read slot.ecallA7Phys)) else none }

/-- Vector arithmetic computes its result in the execute stage, from the
registers and the results of older instructions that have not committed. -/
def computeVector (dependency : OlderVectorDependency) (effects : InsnEffects) : InsnEffects :=
  if effects.trap.isSome || !VectorOps.isNonMemoryVectorAlu effects.vector then effects
  else
    let vector := p.cpu.core.vector
    let vector := match dependency.vs1 with
      | some reg => vector.writeReg effects.vector.vs1 reg
      | none => vector
    let vector := match dependency.vs2 with
      | some reg => vector.writeReg effects.vector.vs2 reg
      | none => vector
    match VectorOps.computeVectorAluResult vector effects.vector with
    | none =>
      { effects with
        trap := some illegalVectorTrap
        retired := false }
    | some reg => { effects with vector := { effects.vector with result := some reg } }

def holdInEx : Pipeline D :=
  p.mapState fun s => { s with nextIdEx := some slot }

/-- Move a memory access to the memory stage; an access that is not known to be
a device access waits there for one cycle. -/
def issueMemory : Pipeline D :=
  p.mapState fun s =>
    { s with
      nextExMem := some slot
      nextExMemCyclesRemaining := if slot.lsqAddressInfo.needsMemoryIssueDelay then 1 else 0 }

def memoryPathBusy : Bool := p.state.exMem.isSome || p.state.nextExMem.isSome

def executeLoad (held slot : StageSlot) : Bool × Pipeline D :=
  let mem := slot.effects.mem
  let (info, cpu) := translateMemoryAddress p.cpu mem.addr mem.size .load
  let p := { p with cpu }
  if !info.isKnownRam && !p.state.rob.isHead slot.robIndex then (false, p.holdInEx held)
  else if p.memoryPathBusy then (false, p.holdInEx held)
  else
    let (lsqIndex, lsq) :=
      if slot.lsqIndex = 0 then
        p.state.lsq.enqueueLoad slot.sequenceId mem.rd mem.size mem.signExtend mem.nonSpeculative
      else (slot.lsqIndex, p.state.lsq)
    let p := p.mapState fun s => { s with lsq := lsq.markAddressReady lsqIndex mem.addr info }
    (true, p.issueMemory { slot with lsqIndex, lsqAddressInfo := info })

def executeStore (held slot : StageSlot) : Bool × Pipeline D :=
  let mem := slot.effects.mem
  let (info, cpu) := translateMemoryAddress p.cpu mem.addr mem.size .store
  let p := { p with cpu }
  if p.memoryPathBusy then (false, p.holdInEx held)
  else
    let p := if slot.lsqIndex ≠ 0 then
      p.mapLsq fun lsq =>
        (lsq.markAddressReady slot.lsqIndex mem.addr info).markDataReady slot.lsqIndex
          mem.storeValue
      else p
    (true, p.issueMemory { slot with lsqAddressInfo := info })

/-- The end of execution: an integer result goes to its physical register, and an
instruction without a memory access is complete. -/
def finishEx : Pipeline D :=
  let p := match slot.effects.rdWrite with
    | some write => if slot.rdPhys ≠ 0 then p.mapPhysRegs (·.write slot.rdPhys write.value) else p
    | none => p
  if slot.effects.mem.kind = .none then
    (p.mapRob (·.markReady slot.robIndex slot.effects slot.lsqIndex)).mapState fun s =>
      { s with nextMemWb := s.nextMemWb.or (some slot) }
  else p

/-- Train the predictor and squash the front end after a wrong prediction. -/
def resolveControlFlow (effects : InsnEffects) : Pipeline D :=
  if effects.trap.isSome || !isControlFlowOpcode slot.insn.opcode then p
  else
    let taken := effects.control.redirectPc.isSome
    let target := effects.control.redirectPc.getD (fallthroughPc slot.pc slot.raw slot.insnSize)
    let predictor := p.predictor.update
      { pc := slot.pc, raw := slot.raw, prediction := slot.prediction, taken, target }
    let p := { p with predictor }
    if predictionMatches slot.prediction taken target then p
    else
      p.mapState fun s =>
        { s with
          redirectPending := true
          nextIfId := none
          nextIdEx := none
          pendingFetchFault := none
          fetchPc := target }

/-- Hand an executed slot to the memory stage if it accesses memory; the flag is
false when the slot has to stay in the execute stage. -/
def issueSlot (held slot : StageSlot) : Bool × Pipeline D :=
  match slot.effects.trap, slot.effects.mem.kind with
  | none, .load => p.executeLoad held slot
  | none, .store => p.executeStore held slot
  | _, _ => (true, p)

def executeSlot (dependency : OlderVectorDependency) : Pipeline D :=
  let effects := p.computeVector dependency (execute slot.insn p.cpu (p.exInputs slot))
  let completed := { slot with effects }
  let (issued, p) := p.issueSlot slot completed
  if issued then (p.finishEx completed).resolveControlFlow slot effects else p

/-- `step_ex`. -/
def stepEx : Pipeline D :=
  match p.state.idEx with
  | none => p
  | some slot =>
    if p.isSerializingSystemSlot slot then p.holdInEx slot
    else
      let dependency := p.olderVectorDependency slot
      if dependency.blocks then p.holdInEx slot else p.executeSlot slot dependency

def sourcesReady (physRegs : PhysicalRegisterFile) (slot : StageSlot) : Bool :=
  let ready := fun phys => phys == 0 || physRegs.isReady phys
  ready slot.rs1Phys && ready slot.rs2Phys && ready slot.ecallA7Phys

/-- The fetched slot after decoding and renaming its sources. -/
def decodeSlot (renameMap : RenameMap) (slot : StageSlot) : StageSlot :=
  let insn := decode slot.raw
  { slot with
    insn
    insnSize := instructionSize insn
    rs1Phys := if readsRs1 insn then
      renameMap.mapSource (Fin.ofNat 32 insn.rs1) else 0
    rs2Phys := if readsRs2 insn then
      renameMap.mapSource (Fin.ofNat 32 insn.rs2) else 0
    ecallA7Phys := if insn.raw = 0x73 then renameMap.mapSource 17 else 0 }

/-- The floating-point registers an instruction reads. -/
def fpSources (insn : Insn) : List ℕ :=
  (if describeRs1 insn = .fpr then [insn.rs1] else []) ++
    (if describeRs2 insn = .fpr then [insn.rs2] else []) ++
    (if (describeRegisters insn).rs3 = .fpr then [insn.rs3] else [])

/-- A load at decode is held back by an older store it may depend on. -/
def loadBlocked : Bool × Cpu D :=
  let memory := describeMemory slot.insn
  if memory.valid ∧ memory.kind = .load then
    let addr := slot.rs1v + slot.insn.imm
    let (info, cpu) := translateMemoryAddress p.cpu addr memory.size .load
    ((p.state.lsq.classifyLoad slot.sequenceId addr memory.size info).blocksIssue, cpu)
  else (false, p.cpu)

def renameSlot : StageSlot × Pipeline D :=
  if writesRd slot.insn then
    let (renamed, renameMap) := p.state.renameMap.renameDest (Fin.ofNat 32 slot.insn.rd)
    ({ slot with rdPhys := renamed.phys },
      p.mapState fun s =>
        { s with
          renameMap
          physRegs := s.physRegs.setPending renamed.phys })
  else (slot, p)

def robEntryOf (index : ℕ) : RobEntry :=
  { index
    sequenceId := slot.sequenceId
    pc := slot.pc
    raw := slot.raw
    insnSize := slot.insnSize
    archRd := if writesRd slot.insn then slot.insn.rd else 0
    physRd := slot.rdPhys
    lsqIndex := slot.lsqIndex }

/-- Give a renamed slot its buffer entries and hand it to the execute stage. -/
def dispatchSlot : Pipeline D :=
  let (robIndex, rob) := p.state.rob.allocate (robEntryOf slot)
  let memory := describeMemory slot.insn
  let (lsqIndex, lsq) :=
    if memory.valid ∧ memory.kind = .store then
      p.state.lsq.enqueueStore slot.sequenceId memory.size memory.nonSpeculative
    else (slot.lsqIndex, p.state.lsq)
  p.mapState fun s =>
    { s with
      rob
      lsq
      nextIdEx := some { slot with robIndex, lsqIndex }
      nextIfId := none }

def decodeFetchedSlot (fetched : StageSlot) : Pipeline D :=
  let slot := decodeSlot p.state.renameMap fetched
  if p.state.rob.hasOlderFpPending slot.sequenceId (fpSources slot.insn) then p
  else if !sourcesReady p.state.physRegs slot then p
  else
    let slot :=
      { slot with
        rs1v := p.state.physRegs.read slot.rs1Phys
        rs2v := p.state.physRegs.read slot.rs2Phys }
    let (blocked, cpu) := p.loadBlocked slot
    let p := { p with cpu }
    if blocked then p
    else
      let (slot, p) := p.renameSlot slot
      p.dispatchSlot slot

/-- `step_id`. -/
def stepId : Pipeline D :=
  if p.state.redirectPending then p.mapState fun s => { s with nextIfId := none }
  else
    let p := p.mapState fun s => { s with nextIfId := s.ifId }
    match p.state.nextIdEx, p.state.ifId with
    | none, some fetched => p.decodeFetchedSlot fetched
    | _, _ => p

def fetchedSlot (predictor : BranchPredictor) (sequenceId : ℕ) (pc : BitVec 64) (raw : BitVec 32) :
    StageSlot :=
  { sequenceId
    pc
    raw
    insnSize := instructionSize (decode raw)
    prediction := predictor.query pc raw }

def predictedPc : BitVec 64 :=
  if slot.prediction.valid && slot.prediction.predictedTaken then slot.prediction.predictedTarget
  else slot.pc + slot.insnSize

/-- `step_if`. -/
def stepIf : Pipeline D :=
  if p.cpu.core.halted || p.state.nextIfId.isSome || p.state.pendingFetchFault.isSome then p
  else
    match p.cpu.fetchInstruction p.state.fetchPc with
    | (.error fault, cpu) =>
      { p with
        cpu
        state := { p.state with pendingFetchFault := some ⟨fault, p.state.fetchPc⟩ } }
    | (.ok raw, cpu) =>
      let sequenceId := p.state.lastSequenceId + 1
      let slot := fetchedSlot p.predictor sequenceId p.state.fetchPc raw
      { p with
        cpu
        state :=
          { p.state with
            lastSequenceId := sequenceId
            nextIfId := some slot
            fetchPc := predictedPc slot } }

/-- The platform tick and the start of a cycle. -/
def beginCycle : Pipeline D :=
  let (events, ticked) := p.cpu.tickBus
  let cpu := ticked.syncPlatformEvents events
  { p with
    cpu
    state := p.state.beginCycle cpu.hasServiceableInterrupt }

/-- An interrupt became serviceable through the instruction that committed, and
is left to the next cycle. -/
def deferredInterrupt : Bool :=
  p.state.committed && !p.state.interruptServiceableAtCycleStart && p.cpu.hasServiceableInterrupt

/-- A fetch fault or an interrupt is delivered, unless writeback has flushed. -/
def deliverPending : Pipeline D :=
  match (if p.state.committed then none else p.tryCommitFetchFault) with
  | some q => q
  | none => p.tryServiceInterrupt.getD p

def frontStages : Pipeline D := p.stepMem.stepEx.stepId.stepIf

/-- The part of a cycle after the replay check. -/
def runStages : Pipeline D :=
  let (flushed, p) := p.stepWb
  if p.deferredInterrupt then p.squash
  else (if flushed then p else p.deliverPending).frontStages

def endCycle : Pipeline D :=
  { p with
    cpu := p.cpu.mapCore (·.advanceCycle)
    state := p.state.commitNextState }

/-- `PipelineBackend::step`. -/
def step : Pipeline D :=
  let p := p.beginCycle
  (p.tryReplayFlush.getD p.runStages).endCycle

end Pipeline

/-!
## The machine after reset

The processor as the constructors leave it, with a program in RAM and the
translation buffer and the data cache empty.
-/

def Ram.ofWords (base : BitVec 64) (words : List (BitVec 32)) : Ram := fun addr =>
  let offset := (addr - base).toNat
  Ram.byteOf ((words.getD (offset / 4) 0).setWidth 64) (offset % 4)

def AddressSpace.reset {D : Type} (ram : Ram) (devices : D) : AddressSpace D where
  tlb := fun _ => TlbEntry.empty
  nextTlbVictim := 0
  l1 := L1Cache.disabled
  bus := ⟨ram, devices, false⟩

def Cpu.reset {D : Type} (ram : Ram) (devices : D) : Cpu D where
  core := CoreState.reset memBase
  csr := CsrFile.reset
  trap := ⟨0, none⟩
  addressSpace := AddressSpace.reset ram devices

def FunctionalBackend.reset {D : Type} (ram : Ram) (devices : D) : FunctionalBackend D :=
  ⟨Cpu.reset ram devices, []⟩

def Pipeline.reset {D : Type} (ram : Ram) (devices : D) : Pipeline D :=
  Pipeline.init (Cpu.reset ram devices) BranchPredictor.reset

/-- A floating-point unit for programs without floating-point instructions. -/
@[reducible] def Fpu.silent : Fpu where
  binaryS _ _ _ _ := (0, 0)
  binaryD _ _ _ _ := (0, 0)
  ternaryS _ _ _ _ _ := (0, 0)
  ternaryD _ _ _ _ _ := (0, 0)
  sqrtS _ _ := (0, 0)
  sqrtD _ _ := (0, 0)
  compareS _ _ _ := false
  compareD _ _ _ := false
  minmaxS _ _ _ := 0
  minmaxD _ _ _ := 0
  intToS _ _ _ := (0, 0)
  intToD _ _ _ := (0, 0)
  sToInt _ _ _ := (0, 0)
  dToInt _ _ _ := (0, 0)
  dToS _ _ := (0, 0)
  sToD _ := 0
  classifyS _ := 0
  classifyD _ := 0

end VisualCpu
