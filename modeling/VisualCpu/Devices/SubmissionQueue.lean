import VisualCpu.Devices.Dma
import VisualCpu.Devices.Scratchpad

/-!
# The queues of the accelerator

`AiSubmissionQueue`: a ring of submission descriptors and a ring of completion entries, with
free-running heads and tails.
-/

namespace VisualCpu

def kAiSubmissionDescriptorBytes : ℕ := 48
def kAiCompletionEntryBytes : ℕ := 40
def kAiQueueMaxEntries : BitVec 32 := 1024

structure AiSubmissionDescriptor where
  token : BitVec 64 := 0
  graphPackageAddr : BitVec 64 := 0
  graphPackageBytes : BitVec 32 := 0
  flags : BitVec 32 := 0
  inputTableAddr : BitVec 64 := 0
  outputTableAddr : BitVec 64 := 0
  sourceTag : BitVec 32 := 0
  runtimeShapeTableOffset : BitVec 32 := 0
deriving DecidableEq

def AiAccelFault.toCode : AiAccelFault → BitVec 32
  | none => 0
  | invalidDescriptor => 1
  | unsupportedDtype => 2
  | illegalOp => 3
  | dma => 4
  | scratchpadOverflow => 5
  | execution => 6
  | timeout => 7
  | queueNotConfigured => 8
  | completionQueueFull => 9

structure AiCompletionEntry where
  token : BitVec 64
  faultCode : AiAccelFault
  (retiredOps bytesMoved : BitVec 64)
  sourceTag : BitVec 32
deriving DecidableEq

/-- `AI_ACCEL_COMPLETION_STATUS_SUCCESS` or `AI_ACCEL_COMPLETION_STATUS_FAULT`. -/
def AiCompletionEntry.status (entry : AiCompletionEntry) : BitVec 32 :=
  if entry.faultCode = .none then 0 else 1

def leBytes (size : ℕ) (value : BitVec 64) : List (BitVec 8) :=
  (List.range size).map (Ram.byteOf value)

/-- `encode_ai_completion_entry`. -/
def AiCompletionEntry.encode (entry : AiCompletionEntry) : List (BitVec 8) :=
  leBytes 8 entry.token ++ leBytes 4 (entry.status.setWidth 64) ++
    leBytes 4 (entry.faultCode.toCode.setWidth 64) ++ leBytes 8 entry.retiredOps ++
    leBytes 8 entry.bytesMoved ++ leBytes 4 (entry.sourceTag.setWidth 64) ++ List.replicate 4 0

/-- `decode_ai_submission_descriptor` of the bytes at an address. -/
def AiSubmissionDescriptor.load (ram : Ram) (addr : BitVec 64) : AiSubmissionDescriptor where
  token := ram.load addr 8
  graphPackageAddr := ram.load (addr + 8) 8
  graphPackageBytes := (ram.load (addr + 16) 4).setWidth 32
  flags := (ram.load (addr + 20) 4).setWidth 32
  inputTableAddr := ram.load (addr + 24) 8
  outputTableAddr := ram.load (addr + 32) 8
  sourceTag := (ram.load (addr + 40) 4).setWidth 32
  runtimeShapeTableOffset := (ram.load (addr + 44) 4).setWidth 32

structure AiSubmissionQueue where
  (submissionBase completionBase : BitVec 64)
  (submissionSize completionSize submissionHead submissionTail completionHead : BitVec 32)
  completionTail : BitVec 32
deriving DecidableEq

namespace AiSubmissionQueue

/-- The number of entries of a ring; the counters are compared as numbers. -/
def boundedDepth (head tail size : BitVec 32) : BitVec 32 :=
  if size = 0 ∨ tail < head then 0 else if tail - head ≤ size then tail - head else size

variable (queue : AiSubmissionQueue)

def submissionConfigured : Bool := queue.submissionBase != 0 && queue.submissionSize != 0
def completionConfigured : Bool := queue.completionBase != 0 && queue.completionSize != 0
def configured : Bool := queue.submissionConfigured && queue.completionConfigured

def pendingDepth : BitVec 32 :=
  boundedDepth queue.submissionHead queue.submissionTail queue.submissionSize

def completionDepth : BitVec 32 :=
  boundedDepth queue.completionHead queue.completionTail queue.completionSize

def completionHasSpace : Bool :=
  queue.completionConfigured && decide (queue.completionDepth < queue.completionSize)

def submissionRecordAddr : BitVec 64 :=
  queue.submissionBase +
    (queue.submissionHead % queue.submissionSize).setWidth 64 * BitVec.ofNat 64
      kAiSubmissionDescriptorBytes

def completionRecordAddr : BitVec 64 :=
  queue.completionBase +
    (queue.completionTail % queue.completionSize).setWidth 64 * BitVec.ofNat 64
      kAiCompletionEntryBytes

def readNextSubmission (ram : Ram) : Option AiSubmissionDescriptor :=
  if queue.submissionConfigured ∧ queue.pendingDepth ≠ 0 ∧
      Ram.dmaVisible queue.submissionRecordAddr kAiSubmissionDescriptorBytes then
    some (AiSubmissionDescriptor.load ram queue.submissionRecordAddr)
  else none

def writeNextCompletion (ram : Ram) (entry : AiCompletionEntry) : Option Ram :=
  if queue.completionHasSpace then ram.dmaStoreBytes queue.completionRecordAddr entry.encode
  else none

/-- `advance_submission` and `advance_completion`. -/
def advance : AiSubmissionQueue :=
  { queue with
    submissionHead := queue.submissionHead + 1
    completionTail := queue.completionTail + 1 }

end AiSubmissionQueue

/-!
## The transfer engine of the accelerator

`AiDmaEngine`: one transfer at a time between RAM and the scratchpad. A load is committed
and a store is written at the end of its cycles; a store takes its bytes at the start.
-/

inductive AiDmaTransferKind where
  | load | store
deriving DecidableEq

structure AiDmaTimingConfig where
  (setupCycles bytesPerCycle : BitVec 32)

/-- The constructor of the engine replaces a zero. -/
def AiDmaTimingConfig.normalized (timing : AiDmaTimingConfig) : AiDmaTimingConfig :=
  { timing with bytesPerCycle := if timing.bytesPerCycle = 0 then 1 else timing.bytesPerCycle }

structure AiDmaRequest where
  kind : AiDmaTransferKind
  systemAddr : BitVec 64
  (scratchpadOffset size : BitVec 32)
deriving DecidableEq

structure AiDmaTransfer where
  request : AiDmaRequest
  remainingCycles : BitVec 64
  buffer : List (BitVec 8)

namespace AiDmaEngine

def transferCycles (timing : AiDmaTimingConfig) (bytes : BitVec 32) : BitVec 64 :=
  timing.setupCycles.setWidth 64 +
    (bytes.setWidth 64 + timing.bytesPerCycle.setWidth 64 - 1) / timing.bytesPerCycle.setWidth 64

/-- `AiDmaEngine::start`. -/
def start (timing : AiDmaTimingConfig) (pad : AiScratchpad) (active : Option AiDmaTransfer)
    (request : AiDmaRequest) : KernelRun AiDmaTransfer :=
  if active.isSome then .error (.fault .execution "AI DMA engine is already busy")
  else if request.size = 0 then
    .error (.fault .invalidDescriptor "AI DMA request size must be non-zero")
  else if pad.contains request.scratchpadOffset request.size.toNat = false then
    .error (.fault .scratchpadOverflow "AI DMA request exceeds scratchpad space")
  else
    let remainingCycles := transferCycles timing request.size
    match request.kind with
    | .load => .ok { request, remainingCycles, buffer := List.replicate request.size.toNat 0 }
    | .store =>
      match pad.read request.scratchpadOffset request.size.toNat with
      | .error stop => .error stop
      | .ok none => .error (.fault .scratchpadOverflow "AI DMA store could not read scratchpad bytes")
      | .ok (some buffer) => .ok { request, remainingCycles, buffer }

/-- What a tick does: the transfer goes on, it is done, or it fails with a detail. -/
inductive Tick where
  | waiting (transfer : AiDmaTransfer)
  | done (pad : AiScratchpad) (ram : Ram)
  | faulted (detail : BitVec 32)

/-- The end of a transfer; RAM that a device can reach always accepts it. -/
def finish (pad : AiScratchpad) (ram : Ram) (transfer : AiDmaTransfer) : KernelRun Tick :=
  let request := transfer.request
  match request.kind with
  | .load =>
    match ram.dmaLoadBytes request.systemAddr request.size.toNat with
    | none => .ok (.faulted 0)
    | some bytes =>
      match pad.write request.scratchpadOffset bytes with
      | .error stop => .error stop
      | .ok none => .ok (.faulted request.size)
      | .ok (some pad) => .ok (.done pad ram)
  | .store =>
    match ram.dmaStoreBytes request.systemAddr transfer.buffer with
    | none => .ok (.faulted 0)
    | some ram => .ok (.done pad ram)

/-- `AiDmaEngine::tick` of a busy engine. -/
def tick (pad : AiScratchpad) (ram : Ram) (transfer : AiDmaTransfer) : KernelRun Tick :=
  let remainingCycles :=
    if transfer.remainingCycles = 0 then 0 else transfer.remainingCycles - 1
  if remainingCycles ≠ 0 then .ok (.waiting { transfer with remainingCycles })
  else finish pad ram transfer

end AiDmaEngine

end VisualCpu
