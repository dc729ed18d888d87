import VisualCpu.Exec.Functional
import VisualCpu.Pipeline.BranchPredictor
import VisualCpu.Pipeline.Queues
import VisualCpu.Pipeline.RenameMap

/-!
# The state of the pipeline

`PipelineState` is `PipelineCoreState` of the source: the latches between the
stages with the values they take at the end of the cycle, the fetch fault that
waits for delivery, and the out-of-order bookkeeping. An empty latch is `none`.
-/

namespace VisualCpu

/-- An instruction on its way through the stages. -/
structure StageSlot where
  sequenceId : ℕ
  pc : BitVec 64
  raw : BitVec 32
  insnSize : BitVec 64
  insn : Insn := Decode.clearInsn 0 0
  prediction : PredictorQueryResult
  rs1v : BitVec 64 := 0
  rs2v : BitVec 64 := 0
  rs1Phys : ℕ := 0
  rs2Phys : ℕ := 0
  ecallA7Phys : ℕ := 0
  rdPhys : ℕ := 0
  robIndex : ℕ := 0
  lsqIndex : ℕ := 0
  lsqAddressInfo : LsqAddressInfo := {}
  effects : InsnEffects := {}
deriving DecidableEq

/-- An entry of the retire trace. -/
structure RetireTraceEntry where
  sequenceId : ℕ
  pc : BitVec 64
  raw : BitVec 32
  (trap redirect : Bool)
  (cycle targetPc : BitVec 64)
deriving DecidableEq

/-- A fault of the fetch stage together with the pc it belongs to. -/
structure PendingFetchFault where
  fault : TrapRequest
  pc : BitVec 64
deriving DecidableEq

structure PipelineState where
  fetchPc : BitVec 64
  (ifId idEx exMem memWb : Option StageSlot)
  exMemCyclesRemaining : ℕ
  (nextIfId nextIdEx nextExMem nextMemWb : Option StageSlot)
  nextExMemCyclesRemaining : ℕ
  pendingFetchFault : Option PendingFetchFault
  (committed interruptServiceableAtCycleStart redirectPending : Bool)
  lastSequenceId : ℕ
  /-- The whole trace; the source shows its last sixteen entries. -/
  retireTrace : List RetireTraceEntry
  profile : List Observation
  renameMap : RenameMap
  rob : ReorderBuffer
  lsq : LoadStoreQueue
  physRegs : PhysicalRegisterFile

namespace PipelineState

/-- The state after construction, before the first flush. -/
def init (pc : BitVec 64) : PipelineState where
  fetchPc := pc
  ifId := none
  idEx := none
  exMem := none
  memWb := none
  exMemCyclesRemaining := 0
  nextIfId := none
  nextIdEx := none
  nextExMem := none
  nextMemWb := none
  nextExMemCyclesRemaining := 0
  pendingFetchFault := none
  committed := false
  interruptServiceableAtCycleStart := false
  redirectPending := false
  lastSequenceId := 0
  retireTrace := []
  profile := []
  renameMap := RenameMap.init
  rob := ReorderBuffer.empty
  lsq := LoadStoreQueue.empty
  physRegs := PhysicalRegisterFile.reset

variable (s : PipelineState)

/-- Empty every latch and restart fetching at `pc`. -/
def flush (pc : BitVec 64) : PipelineState :=
  { s with
    fetchPc := pc
    ifId := none
    idEx := none
    exMem := none
    memWb := none
    exMemCyclesRemaining := 0
    nextIfId := none
    nextIdEx := none
    nextExMem := none
    nextMemWb := none
    nextExMemCyclesRemaining := 0
    pendingFetchFault := none
    redirectPending := false }

def beginCycle (interruptServiceable : Bool) : PipelineState :=
  { s with
    nextIfId := none
    nextIdEx := none
    nextExMem := none
    nextMemWb := none
    nextExMemCyclesRemaining := 0
    committed := false
    interruptServiceableAtCycleStart := interruptServiceable
    redirectPending := false }

def commitNextState : PipelineState :=
  { s with
    ifId := s.nextIfId
    idEx := s.nextIdEx
    exMem := s.nextExMem
    memWb := s.nextMemWb
    exMemCyclesRemaining := s.nextExMemCyclesRemaining }

def pipelineEmpty : Bool :=
  s.ifId.isNone && s.idEx.isNone && s.exMem.isNone && s.memWb.isNone && s.rob.entries.isEmpty &&
    s.lsq.entries.isEmpty

def rebuildCommittedPhysState (renameMap : RenameMap) (core : CoreState) : PhysicalRegisterFile :=
  (List.finRange 32).foldl
    (fun file arch => file.write (renameMap.architecturalSource arch) (core.readGpr arch))
    PhysicalRegisterFile.reset

def resetOooState (core : CoreState) : PipelineState :=
  { s with
    renameMap := RenameMap.init
    rob := s.rob.clear
    lsq := s.lsq.clear
    physRegs := rebuildCommittedPhysState RenameMap.init core }

def rollbackToCommittedState (core : CoreState) : PipelineState :=
  let renameMap := s.renameMap.rollback s.renameMap.committedCheckpoint
  { s with
    renameMap
    rob := s.rob.clear
    lsq := s.lsq.clear
    physRegs := rebuildCommittedPhysState renameMap core }

/-- The rollback and the flush that every squash performs together. -/
def squash (core : CoreState) : PipelineState := (s.rollbackToCommittedState core).flush core.pc

def recordTrap (observation : Observation) : PipelineState :=
  { s with profile := s.profile ++ [observation] }

/-- Sequence numbers start at one; entries without one are not recorded. -/
def recordRetire (entry : RetireTraceEntry) : PipelineState :=
  if entry.sequenceId = 0 then s
  else
    let observation := .retire
      ⟨entry.pc, entry.raw, entry.trap, entry.redirect, entry.cycle, entry.targetPc⟩
    { s with
      retireTrace := s.retireTrace ++ [entry]
      profile := s.profile ++ [observation] }

end PipelineState

/-- The values that the execute stage may take from later stages. -/
structure PipelineForwardingSources where
  (exMem memWb : Option StageSlot)

namespace PipelineHazards

def readsRs1 (insn : Insn) : Bool := (describeRegisters insn).rs1 == .gpr

def readsRs2 (insn : Insn) : Bool := (describeRegisters insn).rs2 == .gpr

def writesRd (insn : Insn) : Bool := (describeRegisters insn).rd == .gpr

/-- The physical register a slot forwards to; without one the plain number stands in. -/
def forwardedPhys (slot : StageSlot) : ℕ :=
  if slot.rdPhys ≠ 0 then slot.rdPhys
  else
    match slot.effects.rdWrite with
    | some write => write.rd
    | none => slot.insn.rd

def forwardOperandFromSlot (slot : Option StageSlot) (phys : ℕ) : Option (BitVec 64) :=
  match slot with
  | none => none
  | some slot =>
    if phys = 0 ∨ forwardedPhys slot ≠ phys then none else slot.effects.rdWrite.map (·.value)

/-- `resolve_register_value`: the memory latch first, then the writeback latch. -/
def resolveRegisterValue (sources : PipelineForwardingSources) (phys : ℕ) (latched : BitVec 64) :
    BitVec 64 :=
  match forwardOperandFromSlot sources.exMem phys, forwardOperandFromSlot sources.memWb phys with
  | some value, _ => value
  | none, some value => value
  | none, none => latched

end PipelineHazards

end VisualCpu
