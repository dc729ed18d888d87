import VisualCpu.Devices.SubmissionQueue
import VisualCpu.Devices.GraphScheduler
import VisualCpu.Devices.RuntimeShapes

/-!
# The accelerator

`AiAccelerator`: a submission is read from its ring, its package is parsed and resolved, its
inputs are loaded, its operations executed, its outputs stored and its completion written.
`pump_queue` makes one step of this on every tick. A log keeps what was done.
-/

namespace VisualCpu

open Checks

structure AiActiveSubmissionState where
  descriptor : AiSubmissionDescriptor
  package : AiGraphPackage
  tensorSystemBases : BitVec 16 → BitVec 64
  (loadEntries storeEntries : List AiMemoryPlanEntry)
  nextLoadIndex : ℕ := 0
  nextStoreIndex : ℕ := 0
  computeStarted : Bool := false
  computeComplete : Bool := false
  computeCyclesRemaining : BitVec 64 := 0
  stallCyclesRemaining : BitVec 64 := 0
  retiredOps : BitVec 64 := 0
  bytesMoved : BitVec 64 := 0

/-- What the log keeps, the newest first: a descriptor with the memory it was read from, a
completion with the memory before and after its entry. -/
inductive AiEvent where
  | read (descriptor : AiSubmissionDescriptor) (ram : Ram)
  | accepted (active : AiActiveSubmissionState) (ram : Ram)
  | transferred (request : AiDmaRequest)
  | computed (before : AiScratchpad) (run : AiGraphPackage.Run)
  | completed (token : BitVec 64) (fault : AiAccelFault) (ram written : Ram)

structure AiAcceleratorTiming where
  dma : AiDmaTimingConfig
  scheduler : AiGraphSchedulerTiming

/-- The device with the memory it is wired to. -/
structure AiAccelerator where
  queue : AiSubmissionQueue
  pad : AiScratchpad
  dma : Option AiDmaTransfer := none
  active : Option AiActiveSubmissionState := none
  pendingSubmissionBudget : BitVec 32 := 0
  irqStatus : BitVec 32 := 0
  lastFault : AiAccelFault := .none
  faultDetail : BitVec 32 := 0
  ram : Ram
  log : List AiEvent := []

/-- How the device is lost: an exception, an access outside a vector or an endless loop. -/
inductive AiDeviceCrash where
  | thrown (what : String)
  | outOfBounds | endless

def AI_ACCEL_IRQ_COMPLETION : BitVec 32 := 0x1
def AI_ACCEL_IRQ_FAULT : BitVec 32 := 0x2
def AI_ACCEL_MAX_GRAPH_PACKAGE_BYTES : BitVec 32 := 1048576
def AI_ACCEL_SUBMISSION_FLAG_PROFILE : BitVec 32 := 0x1
def kRuntimeShapeTableAlignment : BitVec 32 := 4

/-- `add_u64_u32`. -/
def addU64U32 (base : BitVec 64) (offset : BitVec 32) : Option (BitVec 64) :=
  let result := base + offset.setWidth 64
  if base ≤ result then some result else none

/-- `graph_package_fault`. -/
def graphPackageFault (error : String) : AiAccelFault :=
  if error.contains "scratchpad" then .scratchpadOverflow else .invalidDescriptor

namespace AiAccelerator

variable (device : AiAccelerator)

/-- `set_fault` with the interrupt that every caller raises. -/
def raiseFault (fault : AiAccelFault) (detail : BitVec 32) : AiAccelerator :=
  { device with
    lastFault := fault
    faultDetail := detail
    irqStatus := device.irqStatus ||| AI_ACCEL_IRQ_FAULT }

variable (descriptor : AiSubmissionDescriptor)

/-- `complete_descriptor`. -/
def completeDescriptor (fault : AiAccelFault)
    (detail : BitVec 32) (bytesMoved retiredOps : BitVec 64) : Bool × AiAccelerator :=
  if device.queue.completionHasSpace = false then
    (false, { device.raiseFault .completionQueueFull 0 with pendingSubmissionBudget := 0 })
  else
    let entry : AiCompletionEntry :=
      { token := descriptor.token, faultCode := fault, retiredOps, bytesMoved,
        sourceTag := descriptor.sourceTag }
    match device.queue.writeNextCompletion device.ram entry with
    | none => (false, { device.raiseFault .dma 0 with pendingSubmissionBudget := 0 })
    | some ram =>
      let completed : AiAccelerator :=
        { device with
          ram
          queue := device.queue.advance
          irqStatus := device.irqStatus ||| AI_ACCEL_IRQ_COMPLETION
          log := .completed descriptor.token fault device.ram ram :: device.log }
      (true, if fault = .none then completed else completed.raiseFault fault detail)

/-- `validate_descriptor`. -/
def validateDescriptor : AiAccelFault :=
  if descriptor.graphPackageAddr = 0 ∨ descriptor.graphPackageBytes = 0 ∨
      descriptor.graphPackageBytes > AI_ACCEL_MAX_GRAPH_PACKAGE_BYTES then .invalidDescriptor
  else if descriptor.flags &&& ~~~AI_ACCEL_SUBMISSION_FLAG_PROFILE ≠ 0 then .invalidDescriptor
  else .none

abbrev Prepared := Except (AiAccelFault × BitVec 32)

def resolveShapes (package : AiGraphPackage) :
    Prepared AiGraphPackage := do
  let offset := descriptor.runtimeShapeTableOffset
  check (offset ≠ 0) (.invalidDescriptor, 0)
  check (offset % kRuntimeShapeTableAlignment = 0) (.invalidDescriptor, offset)
  let bytes := BitVec.ofNat 32 (package.dynamicTensors.length * kAiRuntimeShapeEntryBytes)
  check (descriptor.graphPackageBytes ≤ offset) (.invalidDescriptor, offset)
  check (bytes ≤ AI_ACCEL_MAX_GRAPH_PACKAGE_BYTES ∧
      offset ≤ AI_ACCEL_MAX_GRAPH_PACKAGE_BYTES - bytes) (.invalidDescriptor, offset)
  match addU64U32 descriptor.graphPackageAddr offset with
  | none => .error (.invalidDescriptor, offset)
  | some addr =>
    match device.ram.dmaLoadBytes addr bytes.toNat with
    | none => .error (.dma, offset)
    | some table =>
      match parseAiRuntimeShapeTable table package.dynamicTensors.length with
      | .error _ => .error (.invalidDescriptor, offset)
      | .ok shapes =>
        match package.resolveRuntimeShapes shapes with
        | .error error => .error (graphPackageFault error, offset)
        | .ok resolved => .ok resolved

/-- The first part of `prepare_active_submission`: the package that will be executed. -/
def preparePackage : Prepared AiGraphPackage :=
  match device.ram.dmaLoadBytes descriptor.graphPackageAddr descriptor.graphPackageBytes.toNat with
  | none => .error (.dma, 0)
  | some bytes =>
    match parseAiGraphPackage bytes with
    | .error (.refused error) => .error (graphPackageFault error, descriptor.graphPackageBytes)
    | .error .outside => .error (.invalidDescriptor, descriptor.graphPackageBytes)
    | .ok package =>
      match package.shapeMode with
      | .static =>
        if descriptor.runtimeShapeTableOffset = 0 then .ok package
        else .error (.invalidDescriptor, descriptor.runtimeShapeTableOffset)
      | .dynamicBounded => device.resolveShapes descriptor package
      | .other _ _ => .error (.invalidDescriptor, descriptor.runtimeShapeTableOffset)

/-- `resolve_tensor_base` of a tensor that is not an intermediate. -/
def resolveTensorBase (role : AiTensorRole)
    (index : BitVec 16) : Prepared (BitVec 64) := do
  let detail := index.setWidth 32
  let tableBase :=
    if role = .output then descriptor.outputTableAddr else descriptor.inputTableAddr
  check (tableBase ≠ 0) (.invalidDescriptor, detail)
  match addU64U32 tableBase (index.setWidth 32 * 8) with
  | none => .error (.invalidDescriptor, detail)
  | some addr =>
    match device.ram.dmaLoad addr 8 with
    | none => .error (.dma, detail)
    | some base => do
      check (base ≠ 0) (.invalidDescriptor, detail)
      .ok base

/-- The loop of `prepare_active_submission` over the memory plan. -/
def resolveEntries : List AiMemoryPlanEntry → AiActiveSubmissionState →
    Prepared AiActiveSubmissionState
  | [], next => .ok next
  | entry :: rest, next =>
    match next.package.tensor? entry.tensorIndex with
    | none => resolveEntries rest next
    | some tensor =>
      if tensor.role = .intermediate then resolveEntries rest next
      else
        match device.resolveTensorBase next.descriptor tensor.role entry.tensorIndex with
        | .error fault => .error fault
        | .ok base =>
          let next :=
            { next with
              tensorSystemBases := Function.update next.tensorSystemBases entry.tensorIndex base }
          resolveEntries rest
            (if tensor.role = .output then
              { next with storeEntries := next.storeEntries ++ [entry] }
             else { next with loadEntries := next.loadEntries ++ [entry] })

/-- The submission before its loop over the memory plan. -/
def freshSubmission (package : AiGraphPackage) :
    AiActiveSubmissionState where
  descriptor
  package
  tensorSystemBases _ := 0
  loadEntries := []
  storeEntries := []

/-- `prepare_active_submission`. -/
def prepareActiveSubmission :
    Option (AiAccelFault × BitVec 32) × AiAccelerator :=
  match device.preparePackage descriptor with
  | .error fault => (some fault, device)
  | .ok package =>
    let device := { device with pad := .configure package.scratchpadBudgetBytes }
    match device.resolveEntries package.memoryPlan (freshSubmission descriptor package) with
    | .error fault => (some fault, device)
    | .ok next =>
      (none, { device with active := some next, log := .accepted next device.ram :: device.log })

/-- `begin_submission`. -/
def beginSubmission : Bool × AiAccelerator :=
  if device.pendingSubmissionBudget = 0 then (false, device)
  else if device.queue.completionHasSpace = false then
    (false, { device.raiseFault .completionQueueFull 0 with pendingSubmissionBudget := 0 })
  else
    let device := { device with pendingSubmissionBudget := device.pendingSubmissionBudget - 1 }
    match device.queue.readNextSubmission device.ram with
    | none => (false, (device.completeDescriptor {} .dma 0 0 0).2)
    | some descriptor =>
      let device := { device with log := .read descriptor device.ram :: device.log }
      if validateDescriptor descriptor ≠ .none then
        (false, (device.completeDescriptor descriptor (validateDescriptor descriptor)
          descriptor.graphPackageBytes 0 0).2)
      else
        match device.prepareActiveSubmission descriptor with
        | (some (fault, detail), device) =>
          (false, (device.completeDescriptor descriptor fault detail 0 0).2)
        | (none, device) => (true, device)

def requestOf (active : AiActiveSubmissionState) (kind : AiDmaTransferKind)
    (entry : AiMemoryPlanEntry) : Option AiDmaRequest :=
  (addU64U32 (active.tensorSystemBases entry.tensorIndex) entry.systemOffset).map fun systemAddr =>
    { kind, systemAddr, scratchpadOffset := entry.scratchpadOffset, size := entry.scratchpadBytes }

/-- What `start_next_transfer` says: the submission goes on, or it is to be completed. -/
inductive Progress where
  | goesOn
  | ends (fault : AiAccelFault) (detail : BitVec 32)

abbrev DeviceRun := Except AiDeviceCrash

section Steps

variable [HostFloat] (timing : AiAcceleratorTiming)

omit [HostFloat] in
/-- The start of a transfer of `start_next_transfer`. -/
def startTransfer (active : AiActiveSubmissionState) (kind : AiDmaTransferKind)
    (entry : AiMemoryPlanEntry) : DeviceRun (Progress × AiAccelerator) :=
  let detail := entry.tensorIndex.setWidth 32
  match requestOf active kind entry with
  | none => .ok (.ends .invalidDescriptor detail, device)
  | some request =>
    match AiDmaEngine.start timing.dma.normalized device.pad device.dma request with
    | .error (.fault fault _) => .ok (.ends fault detail, device)
    | .error (.thrown what) => .error (.thrown what)
    | .error .outOfBounds => .error .outOfBounds
    | .ok transfer => .ok (.goesOn, { device with dma := some transfer })

/-- `start_compute`. A computation without any cycles is not waited for. -/
def startCompute (active : AiActiveSubmissionState) : DeviceRun (Progress × AiAccelerator) :=
  match active.package.execute timing.scheduler.normalized device.pad with
  | none => .error .endless
  | some (.error (.fault fault detail _)) =>
    .ok (.ends (if fault = .none then .execution else fault) detail, device)
  | some (.error (.thrown what)) => .error (.thrown what)
  | some (.error .outOfBounds) => .error .outOfBounds
  | some (.ok run) =>
    let idle := run.result.computeCycles = 0 ∧ run.result.stallCycles = 0
    let active :=
      { active with
        computeStarted := true
        computeComplete := decide idle
        retiredOps := run.result.retiredOps
        computeCyclesRemaining := run.result.computeCycles
        stallCyclesRemaining := run.result.stallCycles }
    .ok (if idle then .ends .none 0 else .goesOn,
      { device with
        pad := run.pad, active := some active, log := .computed device.pad run :: device.log })

/-- `start_next_transfer` of an active submission when the engine is not busy. -/
def startNextTransfer (active : AiActiveSubmissionState) : DeviceRun (Progress × AiAccelerator) :=
  match active.loadEntries[active.nextLoadIndex]? with
  | some entry => device.startTransfer timing active .load entry
  | none =>
    if active.computeStarted = false then device.startCompute timing active
    else if active.computeComplete = false then .ok (.goesOn, device)
    else
      match active.storeEntries[active.nextStoreIndex]? with
      | some entry => device.startTransfer timing active .store entry
      | none => .ok (.ends .none 0, device)

/-- The countdown of a computation. With `true` the rest of the tick is left out. -/
def countDown (active : AiActiveSubmissionState) : Bool × AiActiveSubmissionState :=
  if active.computeStarted ∧ active.computeComplete = false then
    let stall :=
      if active.stallCyclesRemaining = 0 then 0 else active.stallCyclesRemaining - 1
    if stall ≠ 0 then (true, { active with stallCyclesRemaining := stall })
    else
      let compute :=
        if active.computeCyclesRemaining = 0 then 0 else active.computeCyclesRemaining - 1
      if compute ≠ 0 then
        (true, { active with stallCyclesRemaining := 0, computeCyclesRemaining := compute })
      else
        (false, { active with
          stallCyclesRemaining := 0, computeCyclesRemaining := 0, computeComplete := true })
  else (false, active)

/-- The first part of a round of `pump_queue`: the tick of a busy engine. The device does not
change further in this call with `true`. -/
inductive Ticked where
  | waits | goesOn | again

omit [HostFloat] in
def tickDma : DeviceRun (Ticked × AiAccelerator) :=
  match device.dma, device.active with
  | none, _ => .ok (.goesOn, device)
  | some transfer, active? =>
    match AiDmaEngine.tick device.pad device.ram transfer with
    | .error (.thrown what) => .error (.thrown what)
    | .error _ => .error .outOfBounds
    | .ok (.waiting transfer) => .ok (.waits, { device with dma := some transfer })
    | .ok (.faulted detail) =>
      let device := { device with dma := none }
      let active := active?.getD (freshSubmission {} ⟨.static, .inference, 0, [], [], [], [], []⟩)
      let (ok, device) :=
        device.completeDescriptor active.descriptor .dma detail active.bytesMoved active.retiredOps
      .ok (if ok then .again else .waits, { device with active := none })
    | .ok (.done pad ram) =>
      let active? := active?.map fun active =>
        let active :=
          { active with bytesMoved := active.bytesMoved + transfer.request.size.setWidth 64 }
        match transfer.request.kind with
        | .load => { active with nextLoadIndex := active.nextLoadIndex + 1 }
        | .store => { active with nextStoreIndex := active.nextStoreIndex + 1 }
      .ok (.goesOn,
        { device with
          pad, ram, active := active?, dma := none
          log := .transferred transfer.request :: device.log })

def serveActive (active : AiActiveSubmissionState) : DeviceRun (Ticked × AiAccelerator) :=
  match countDown active with
  | (true, active) => .ok (.waits, { device with active := some active })
  | (false, active) =>
    match ({ device with active := some active } : AiAccelerator).startNextTransfer timing
      active with
    | .error crash => .error crash
    | .ok (.goesOn, device) => .ok (.waits, device)
    | .ok (.ends fault detail, device) =>
      let active := device.active.getD active
      let (ok, device) := device.completeDescriptor active.descriptor fault detail active.bytesMoved
        active.retiredOps
      .ok (if ok then .again else .waits, { device with active := none })

/-- One round of `pump_queue`. -/
def pumpRound : DeviceRun (Ticked × AiAccelerator) :=
  match device.tickDma with
  | .error crash => .error crash
  | .ok (.waits, device) => .ok (.waits, device)
  | .ok (.again, device) => .ok (.again, device)
  | .ok (.goesOn, device) =>
    match device.active with
    | some active => device.serveActive timing active
    | none =>
      if device.pendingSubmissionBudget = 0 then .ok (.waits, device)
      else if device.queue.pendingDepth = 0 then
        .ok (.waits, { device with pendingSubmissionBudget := 0 })
      else
        match device.beginSubmission with
        | (true, device) =>
          match device.active with
          | some active => device.serveActive timing active
          | none => .ok (.waits, device)
        | (false, device) =>
          .ok (if device.pendingSubmissionBudget = 0 then .waits else .again, device)

/-- The loop of `pump_queue` for a number of rounds. -/
def pumpRounds : ℕ → AiAccelerator → DeviceRun AiAccelerator
  | 0, _ => .error .endless
  | fuel + 1, device =>
    match device.pumpRound timing with
    | .error crash => .error crash
    | .ok (.waits, device) => .ok device
    | .ok (_, device) => pumpRounds fuel device

/-- `pump_queue`: every round but the last uses up some of the budget or the engine's transfer. -/
def pumpQueue : DeviceRun AiAccelerator :=
  pumpRounds timing (device.pendingSubmissionBudget.toNat + 3) device

/-- `ring_doorbell`. -/
def ringDoorbell (budget : BitVec 32) : DeviceRun AiAccelerator :=
  if device.queue.configured = false then .ok (device.raiseFault .queueNotConfigured 0)
  else
    let depth := device.queue.pendingDepth
    let requested := if budget = 0 then depth else budget
    let count := if requested ≤ depth then requested else depth
    if count = 0 then .ok device
    else
      let pending := device.pendingSubmissionBudget + count
      let pending := if pending ≤ kAiQueueMaxEntries then pending else kAiQueueMaxEntries
      pumpQueue { device with pendingSubmissionBudget := pending } timing

end Steps

end AiAccelerator

end VisualCpu
