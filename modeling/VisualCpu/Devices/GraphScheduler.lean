import VisualCpu.Devices.ComputeOps
import VisualCpu.Library.Kahn

/-!
# The scheduler of the operations of a graph

`AiGraphScheduler::execute`: the operations are executed from a queue of those whose
dependencies are done, and their costs are summed up.
-/

namespace VisualCpu

open Checks

structure AiGraphSchedulerTiming where
  (opsPerCycle tileSetupCycles : BitVec 32)

/-- The constructor of the scheduler replaces a zero. -/
def AiGraphSchedulerTiming.normalized (timing : AiGraphSchedulerTiming) : AiGraphSchedulerTiming :=
  { timing with opsPerCycle := if timing.opsPerCycle = 0 then 1 else timing.opsPerCycle }

structure AiOpProfileSummary where
  opIndex : BitVec 16
  opcode : AiOpCode
  (retiredOps computeCycles stallCycles tileCount : BitVec 64)

structure AiGraphExecutionResult where
  (retiredOps computeCycles stallCycles tileCount : BitVec 64)
  scratchpadPeakBytes : BitVec 32
  opSummaries : List AiOpProfileSummary

/-- Why an execution stops early: a fault with its detail, or what no caller handles. -/
inductive SchedulerStop where
  | fault (code : AiAccelFault) (detail : BitVec 32) (error : String)
  | thrown (what : String)
  | outOfBounds
deriving DecidableEq

/-- The number of tiles of an axis; the file allows no zero tile, the scheduler does. -/
def AiTensorMetadata.axisTiles (tensor : AiTensorMetadata) (axis : Fin 4) : BitVec 64 :=
  let dim := (tensor.dims.get axis).setWidth 64
  let tile := if tensor.tileDims.get axis = 0 then dim else (tensor.tileDims.get axis).setWidth 64
  (dim + tile - 1) / tile

def AiTensorMetadata.tileCount (tensor : AiTensorMetadata) : BitVec 64 :=
  ((List.finRange 4).filter fun axis => axis.val < tensor.rank.toNat).foldl
    (fun count axis => count * tensor.axisTiles axis) 1

def opComputeCycles (retiredOps : BitVec 64) (timing : AiGraphSchedulerTiming) : BitVec 64 :=
  if retiredOps = 0 then 0
  else (retiredOps + timing.opsPerCycle.setWidth 64 - 1) / timing.opsPerCycle.setWidth 64

def opStallCycles (outputTiles : BitVec 64) (timing : AiGraphSchedulerTiming) : BitVec 64 :=
  outputTiles * timing.tileSetupCycles.setWidth 64

namespace AiGraphPackage

variable (package : AiGraphPackage)

def scratchpadPeakBytes : BitVec 32 :=
  BitVec.ofNat 32 (package.memoryPlan.foldl
    (fun peak entry => max peak (entry.scratchpadOffset.toNat + entry.scratchpadBytes.toNat)) 0)

def planTable (planned : List (BitVec 16)) : List AiMemoryPlanEntry → Except SchedulerStop Unit
  | [] => .ok ()
  | entry :: rest => do
    check (entry.tensorIndex.toNat < package.tensors.length)
      (.fault .invalidDescriptor (entry.tensorIndex.setWidth 32)
        "tensor memory plan index is out of range")
    check (entry.tensorIndex ∉ planned)
      (.fault .invalidDescriptor (entry.tensorIndex.setWidth 32) "duplicate tensor memory plan entry")
    planTable (entry.tensorIndex :: planned) rest

def opIndices : List (BitVec 16) := (List.range package.ops.length).map (BitVec.ofNat 16)

def edges : List (BitVec 16 × BitVec 16) :=
  package.dependencies.map fun edge => (edge.sourceOp, edge.targetOp)

def indegree (op : BitVec 16) : ℕ := package.edges.countP fun edge => edge.2 = op

/-- The state of the loop: the scratchpad, the sums and the number of executed operations. -/
structure Run where
  pad : AiScratchpad
  result : AiGraphExecutionResult
  executedOps : ℕ

def opStop (index : BitVec 16) : KernelStop → SchedulerStop
  | .fault code error => .fault code (index.setWidth 32) error
  | .thrown what => .thrown what
  | .outOfBounds => .outOfBounds

/-- The sums after an operation. -/
def record (timing : AiGraphSchedulerTiming) (index : BitVec 16) (op : AiOpDescriptor)
    (tiles retiredOps : BitVec 64) (result : AiGraphExecutionResult) : AiGraphExecutionResult :=
  let computeCycles := opComputeCycles retiredOps timing
  let stallCycles := opStallCycles tiles timing
  { result with
    retiredOps := result.retiredOps + retiredOps
    computeCycles := result.computeCycles + computeCycles
    stallCycles := result.stallCycles + stallCycles
    tileCount := result.tileCount + tiles
    opSummaries := result.opSummaries ++
      [{ opIndex := index, opcode := op.opcode, retiredOps, computeCycles, stallCycles,
         tileCount := tiles }] }

section Execution

variable [HostFloat]

/-- One round of the loop, apart from the queue. -/
def executeIndex (timing : AiGraphSchedulerTiming) (run : Run) (index : BitVec 16) :
    Except SchedulerStop Run :=
  match package.ops[index.toNat]? with
  | none => .error .outOfBounds
  | some op =>
    match package.executeOp op run.pad with
    | .error stop => .error (opStop index stop)
    | .ok (pad, retiredOps) =>
      match package.tensor? op.output with
      | none => .error .outOfBounds
      | some output =>
        .ok
          { pad
            result := record timing index op output.tileCount retiredOps run.result
            executedOps := run.executedOps + 1 }

def startRun (pad : AiScratchpad) : Run where
  pad
  result :=
    { retiredOps := 0, computeCycles := 0, stallCycles := 0, tileCount := 0
      scratchpadPeakBytes := package.scratchpadPeakBytes, opSummaries := [] }
  executedOps := 0

def cycleFault (executedOps : ℕ) : SchedulerStop :=
  .fault .execution (BitVec.ofNat 32 executedOps) "graph dependency cycle detected"

/-- The check after the loop. -/
def finishRun (run : Run) : Except SchedulerStop Run := do
  check (run.executedOps = package.ops.length) (cycleFault run.executedOps)
  .ok run

/-- `AiGraphScheduler::execute`. There is no result when the loop over the indices does not
end, which is so for 2^16 operations and more. -/
def execute (timing : AiGraphSchedulerTiming) (pad : AiScratchpad) :
    Option (Except SchedulerStop Run) :=
  match package.planTable [] package.memoryPlan with
  | .error stop => some (.error stop)
  | .ok () =>
    if ∀ edge ∈ package.dependencies, edge.sourceOp.toNat < package.ops.length ∧
        edge.targetOp.toNat < package.ops.length then
      if package.ops.length < 2 ^ 16 then
        match Kahn.loop package.edges (package.executeIndex timing) (package.ops.length + 1)
            (package.opIndices.filter fun op => package.indegree op = 0) package.indegree
            (package.startRun pad) with
        | none => none
        | some (.error stop) => some (.error stop)
        | some (.ok run) => some (package.finishRun run)
      else none
    else some (.error .outOfBounds)

end Execution

end AiGraphPackage

end VisualCpu
