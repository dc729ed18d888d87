import Mathlib.Data.List.Infix

/-!
# The debug session

A session holds one machine, the configuration it was loaded with, its breakpoints and the
last events. What the machine does is a parameter; the session is as it drives it. A call
that throws keeps what it changed before.
-/

namespace VisualCpu

open List

structure DebugBusAccess where
  (valid success write : Bool)
  (source kind : String)
  (addr value : BitVec 64)
  (device detail : String)
deriving DecidableEq

/-- The fields of a snapshot that the session reads. -/
structure DebugSnapshot where
  (cycle instret pc : BitVec 64)
  (halted stalled : Bool)
  stallReason : String
  redirected : Bool
  redirectTarget : BitVec 64
  (pendingFetchFault trapFlush : Bool)
  (bus guestBus : DebugBusAccess)
  (mcause scause : BitVec 64)
deriving DecidableEq

inductive EventKind
  | stall | redirect | fetchFault | flush | commit | store | load | halt
  | trap | breakpoint
deriving DecidableEq

structure DebugEvent where
  cycle : BitVec 64
  kind : EventKind
  detail : String
deriving DecidableEq

inductive ImageKind
  | none | elf | binary
deriving DecidableEq

inductive BackendKind
  | functional | pipeline
deriving DecidableEq

inductive BlockTransport
  | simpleStorage | virtioBlk
deriving DecidableEq

inductive PostLoadAction
  | payload (path : String) (addr : BitVec 64)
  | setGpr (reg : String) (value : BitVec 64)
deriving DecidableEq

/-- `diskImage` is `none` without a disk. -/
structure LoadConfig where
  imageKind : ImageKind
  imagePath : String
  binaryAddr : BitVec 64
  backendKind : BackendKind
  blockTransport : BlockTransport
  diskImage : Option String
  (diskReady diskMagicValid l1dEnabled : Bool)
  postLoadActions : List PostLoadAction
deriving DecidableEq

abbrev HostFiles : Type := String → Option (List UInt8)

/-- What a session asks of its machine. `create` gives a new machine with a backend, a block
transport and a cache, and the loads answer with the error they throw. -/
structure MachineOps (M : Type) where
  create : BackendKind → BlockTransport → Bool → M
  attachStorageImage : M → List UInt8 → Bool → Bool → Except String M
  loadElf : M → List UInt8 → Except String M
  loadBinary : M → List UInt8 → BitVec 64 → Except String M
  loadBinaryPayload : M → List UInt8 → BitVec 64 → Except String M
  setGpr : M → String → BitVec 64 → Except String M
  setMemory : M → BitVec 64 → BitVec 64 → ℕ → Bool → Except String M
  setCsr : M → String → BitVec 64 → Except String M
  step : M → M
  injectInput : M → List Char → M
  output : M → List Char
  jitDispatch : M → M
  collectSnapshot : M → DebugSnapshot

def LoadConfig.memBase : BitVec 64 := 0x80000000

def maxEvents : ℕ := 64

/-- `machine` is the machine once it is loaded; `events` is a window of the last ones. -/
structure DebugSession (M : Type) where
  machine : Option M
  config : LoadConfig
  events : List DebugEvent
  breakpoints : List (BitVec 64)
  bounded : events.length ≤ maxEvents

def stepCommitCycleBudget : ℕ := 4096

def hexU64 (value : BitVec 64) : String :=
  "0x" ++ String.ofList (Nat.toDigits 16 value.toNat)

def stallEventDetail (stallReason : String) : String :=
  if stallReason = "" ∨ stallReason = "none" then "pipeline stalled"
  else "pipeline stalled: " ++ stallReason

/-- The access that a step is shown with: that of the guest when there is one. -/
def DebugSnapshot.access (snapshot : DebugSnapshot) : DebugBusAccess :=
  if snapshot.guestBus.valid then snapshot.guestBus else snapshot.bus

def DebugBusAccess.eventDetail (access : DebugBusAccess) : String :=
  access.device ++ " " ++ (if access.write then "write " else "read ") ++ hexU64 access.addr ++
    (if !access.success && access.detail ≠ "" then " failed: " ++ access.detail else "")

/-- The access after a step is valid, and the one before was not or differs from it. -/
def DebugBusAccess.changed (before after : DebugBusAccess) : Bool :=
  after.valid &&
    (!before.valid || before.addr ≠ after.addr || before.value ≠ after.value ||
      before.write ≠ after.write || before.device ≠ after.device ||
      before.success ≠ after.success || before.detail ≠ after.detail ||
      before.source ≠ after.source || before.kind ≠ after.kind)

def stepEventTable (before after : DebugSnapshot) : List (Bool × EventKind × String) :=
  [(after.stalled, .stall, stallEventDetail after.stallReason),
    (after.redirected, .redirect, "redirect to " ++ hexU64 after.redirectTarget),
    (after.pendingFetchFault, .fetchFault, "pending fetch fault at " ++ hexU64 after.pc),
    (after.trapFlush, .flush, "pipeline flush after trap or trap-return commit"),
    (decide (after.instret ≠ before.instret), .commit,
      "instret advanced to " ++ toString after.instret.toNat),
    (before.access.changed after.access, if after.access.write then .store else .load,
      after.access.eventDetail),
    (after.halted && !before.halted, .halt, "program halted"),
    (decide (after.mcause ≠ before.mcause ∨ after.scause ≠ before.scause), .trap,
      "trap state changed")]

def stepEvents (before after : DebugSnapshot) : List (EventKind × String) :=
  ((stepEventTable before after).filter Prod.fst).map Prod.snd

namespace DebugSession

variable {M : Type} (ops : MachineOps M)

def init : DebugSession M where
  machine := none
  config :=
    { imageKind := .none, imagePath := "", binaryAddr := LoadConfig.memBase
      backendKind := .pipeline, blockTransport := .simpleStorage, diskImage := none
      diskReady := true, diskMagicValid := true, l1dEnabled := false, postLoadActions := [] }
  events := []
  breakpoints := []
  bounded := Nat.zero_le _

def appendEvent (s : DebugSession M) (cycle : BitVec 64) (kind : EventKind) (detail : String) :
    DebugSession M :=
  let events := s.events ++ [{ cycle := cycle, kind := kind, detail := detail }]
  if h : maxEvents < events.length then
    { s with
      events := events.drop (events.length - maxEvents)
      bounded := by rw [length_drop]; omega }
  else { s with events := events, bounded := Nat.le_of_not_lt h }

def recordStepEvents (s : DebugSession M) (before after : DebugSnapshot) : DebugSession M :=
  (stepEvents before after).foldl (fun s event => s.appendEvent after.cycle event.1 event.2) s

def isBreakpointPc (s : DebugSession M) (pc : BitVec 64) : Bool :=
  s.breakpoints.any fun breakpoint => breakpoint = pc

def recordBreakpointHit (s : DebugSession M) (cycle pc : BitVec 64) : Bool × DebugSession M :=
  if s.isBreakpointPc pc then
    (true, s.appendEvent cycle .breakpoint ("hit breakpoint at " ++ hexU64 pc))
  else (false, s)

def recordCurrentBreakpointHit (s : DebugSession M) (machine : M) : Bool × DebugSession M :=
  s.recordBreakpointHit (ops.collectSnapshot machine).cycle (ops.collectSnapshot machine).pc

def notLoaded : String := "debug session image not loaded"

variable (files : HostFiles)

def openFile (context path : String) : Except String (List UInt8) :=
  match files path with
  | none => .error (context ++ path)
  | some bytes => .ok bytes

def loadImage (config : LoadConfig) : Except String M := do
  let machine := ops.create config.backendKind config.blockTransport config.l1dEnabled
  let machine ← match config.diskImage with
    | none => pure machine
    | some path => do
      let bytes ← openFile files "failed to open storage image: " path
      ops.attachStorageImage machine bytes config.diskReady config.diskMagicValid
  match config.imageKind with
  | .elf => do
    let bytes ← openFile files "failed to open ELF: " config.imagePath
    ops.loadElf machine bytes
  | .binary => do
    let bytes ← openFile files "failed to open binary: " config.imagePath
    ops.loadBinary machine bytes config.binaryAddr
  | .none => .error "debug session image not configured"

def runPostLoadAction (machine : M) : PostLoadAction → Except String M
  | .payload path addr => do
    let bytes ← openFile files "failed to open binary: " path
    ops.loadBinaryPayload machine bytes addr
  | .setGpr reg value => ops.setGpr machine reg value

def replay (files : HostFiles) : M → List PostLoadAction → Except String Unit × M
  | machine, [] => (.ok (), machine)
  | machine, action :: actions =>
    match runPostLoadAction ops files machine action with
    | .error message => (.error message, machine)
    | .ok machine => replay files machine actions

/-- The machine is replaced before anything that can throw. -/
def recreateMachine (s : DebugSession M) :
    Except String Unit × DebugSession M :=
  match loadImage ops files s.config with
  | .error message => (.error message, { s with machine := none })
  | .ok machine =>
    let result := replay ops files machine s.config.postLoadActions
    (result.1, { s with machine := some result.2 })

/-- Replaces the configuration, then the machine; events and breakpoints go last. -/
def loadWith (s : DebugSession M) (config : LoadConfig) :
    Except String Unit × DebugSession M :=
  match recreateMachine ops files { s with config := config } with
  | (.error message, s) => (.error message, s)
  | (.ok (), s) => (.ok (), { s with events := [], breakpoints := [], bounded := Nat.zero_le _ })

def loadElf (s : DebugSession M) (path : String) (backendKind : BackendKind)
    (blockTransport : BlockTransport) (diskImage : String)
    (diskReady diskMagicValid l1dEnabled : Bool) : Except String Unit × DebugSession M :=
  s.loadWith ops files
    { imageKind := .elf, imagePath := path, binaryAddr := LoadConfig.memBase
      backendKind := backendKind, blockTransport := blockTransport
      diskImage := if diskImage = "" then none else some diskImage
      diskReady := diskReady, diskMagicValid := diskMagicValid, l1dEnabled := l1dEnabled
      postLoadActions := [] }

def loadBinary (s : DebugSession M) (path : String) (addr : BitVec 64)
    (backendKind : BackendKind) (blockTransport : BlockTransport) (diskImage : String)
    (diskReady diskMagicValid l1dEnabled : Bool) : Except String Unit × DebugSession M :=
  s.loadWith ops files
    { imageKind := .binary, imagePath := path, binaryAddr := addr, backendKind := backendKind
      blockTransport := blockTransport
      diskImage := if diskImage = "" then none else some diskImage
      diskReady := diskReady, diskMagicValid := diskMagicValid, l1dEnabled := l1dEnabled
      postLoadActions := [] }

def reset (s : DebugSession M) : Except String Unit × DebugSession M :=
  match s.machine with
  | none => (.error notLoaded, s)
  | some _ =>
    match recreateMachine ops files s with
    | (.error message, s) => (.error message, s)
    | (.ok (), s) => (.ok (), { s with events := [], bounded := Nat.zero_le _ })

def onMachine (s : DebugSession M) (call : M → Except String M) :
    Except String Unit × DebugSession M :=
  match s.machine with
  | none => (.error notLoaded, s)
  | some machine =>
    match call machine with
    | .error message => (.error message, s)
    | .ok machine => (.ok (), { s with machine := some machine })

/-- A call that is recorded for `reset` once it has succeeded. -/
def recorded (action : PostLoadAction) :
    Except String Unit × DebugSession M → Except String Unit × DebugSession M
  | (.error message, s) => (.error message, s)
  | (.ok (), s) =>
    (.ok (), { s with config :=
      { s.config with postLoadActions := s.config.postLoadActions ++ [action] } })

def loadBinaryPayload (s : DebugSession M) (path : String)
    (addr : BitVec 64) : Except String Unit × DebugSession M :=
  recorded (.payload path addr)
    (s.onMachine fun machine => runPostLoadAction ops files machine (.payload path addr))

def setGpr (s : DebugSession M) (reg : String) (value : BitVec 64) :
    Except String Unit × DebugSession M :=
  recorded (.setGpr reg value)
    (s.onMachine fun machine => runPostLoadAction ops files machine (.setGpr reg value))

def setMemory (s : DebugSession M) (addr value : BitVec 64) (size : ℕ) (virtualAddress : Bool) :
    Except String Unit × DebugSession M :=
  s.onMachine fun machine =>
    if size = 1 ∨ size = 2 ∨ size = 4 ∨ size = 8 then
      ops.setMemory machine addr value size virtualAddress
    else .error "set_memory size must be 1, 2, 4, or 8 bytes"

def setCsr (s : DebugSession M) (csr : String) (value : BitVec 64) :
    Except String Unit × DebugSession M :=
  s.onMachine fun machine => ops.setCsr machine csr value

def breakAt (s : DebugSession M) (addr : BitVec 64) : Except String Unit × DebugSession M :=
  match s.machine with
  | none => (.error notLoaded, s)
  | some _ =>
    (.ok (), if s.isBreakpointPc addr then s
      else { s with breakpoints := s.breakpoints ++ [addr] })

def uartInput (s : DebugSession M) (text : List Char) : Except String Unit × DebugSession M :=
  s.onMachine fun machine => .ok (ops.injectInput machine text)

def debugStepRaw (s : DebugSession M) : Except String Unit × DebugSession M :=
  s.onMachine fun machine => .ok (ops.step machine)

def jitDispatch (s : DebugSession M) : Except String Unit × DebugSession M :=
  s.onMachine fun machine => .ok (ops.jitDispatch machine)

def stepMachine (s : DebugSession M) (machine : M) : DebugSession M :=
  let before := ops.collectSnapshot machine
  let after := ops.collectSnapshot (ops.step machine)
  ((({ s with machine := some (ops.step machine) } : DebugSession M).recordStepEvents before
    after).recordBreakpointHit after.cycle after.pc).2

def stepCycle (s : DebugSession M) : Except String Unit × DebugSession M :=
  match s.machine with
  | none => (.error notLoaded, s)
  | some machine => (.ok (), s.stepMachine ops machine)

/-- Steps until the guest halts or an instruction retires, at most `budget` of them. -/
def stepToCommit (instretBefore : BitVec 64) :
    ℕ → DebugSession M → Except String Unit × DebugSession M
  | 0, s =>
    (.error "step_commit exceeded cycle budget without reaching a commit boundary", s)
  | budget + 1, s =>
    match s.stepCycle ops with
    | (.error message, s) => (.error message, s)
    | (.ok (), s) =>
      match s.machine with
      | none => (.error notLoaded, s)
      | some machine =>
        if (ops.collectSnapshot machine).halted ∨
            (ops.collectSnapshot machine).instret ≠ instretBefore then (.ok (), s)
        else stepToCommit instretBefore budget s

def stepCommit (s : DebugSession M) : Except String Unit × DebugSession M :=
  match s.machine with
  | none => (.error notLoaded, s)
  | some machine =>
    stepToCommit ops (ops.collectSnapshot machine).instret stepCommitCycleBudget s

/-- Steps that record breakpoint hits alone, up to the first after which `found` holds. The
result is the machine whose output is shown: the one before the step at a breakpoint. -/
def stepUntil (found : M → M → Bool) (exceeded : String) :
    ℕ → M → DebugSession M → Except String M × DebugSession M
  | 0, _, s => (.error exceeded, s)
  | steps + 1, machine, s =>
    let stepped := ops.step machine
    match ({ s with machine := some stepped } : DebugSession M).recordCurrentBreakpointHit ops
        stepped with
    | (true, s) => (.ok machine, s)
    | (false, s) =>
      if found machine stepped then (.ok stepped, s)
      else if (ops.collectSnapshot stepped).halted then
        (.error "guest halted before requested UART text appeared", s)
      else stepUntil found exceeded steps stepped s

def containsText (needle text : List Char) : Bool := decide (needle <:+: text)

def searchFrom (needle output : List Char) : ℕ := output.length - (needle.length - 1)

def runUntilUartContains (s : DebugSession M) (text : List Char) (maxSteps : ℕ) :
    Except String Unit × DebugSession M :=
  match s.machine with
  | none => (.error notLoaded, s)
  | some machine =>
    if containsText text (ops.output machine) then (.ok (), s)
    else
      match s.recordCurrentBreakpointHit ops machine with
      | (true, s) => (.ok (), s)
      | (false, s) =>
        let result := stepUntil ops
          (fun machine stepped => containsText text
            ((ops.output stepped).drop (searchFrom text (ops.output machine))))
          "run_until_uart_contains exceeded step budget" maxSteps machine s
        (result.1.map fun _ => (), result.2)

def uartChunk (machine : M) (offset : ℕ) : List Char × ℕ :=
  ((ops.output machine).drop offset, (ops.output machine).length)

def runUntilNewUartContains (s : DebugSession M) (offset : ℕ) (text : List Char)
    (maxSteps : ℕ) : Except String (List Char × ℕ) × DebugSession M :=
  match s.machine with
  | none => (.error notLoaded, s)
  | some machine =>
    if containsText text (uartChunk ops machine offset).1 then
      (.ok (uartChunk ops machine offset), s)
    else
      match s.recordCurrentBreakpointHit ops machine with
      | (true, s) => (.ok (uartChunk ops machine offset), s)
      | (false, s) =>
        let result := stepUntil ops
          (fun _ stepped => containsText text (uartChunk ops stepped offset).1)
          "run_until_new_uart_contains exceeded step budget" maxSteps machine s
        (result.1.map fun shown => uartChunk ops shown offset, result.2)

def stepToHalt : ℕ → M → DebugSession M → Except String Unit × DebugSession M
  | 0, _, s => (.error "run_until_halt exceeded step budget", s)
  | steps + 1, machine, s =>
    let stepped := ops.step machine
    let s : DebugSession M := { s with machine := some stepped }
    if (ops.collectSnapshot stepped).halted then (.ok (), s)
    else
      match s.recordCurrentBreakpointHit ops stepped with
      | (true, s) => (.ok (), s)
      | (false, s) => stepToHalt steps stepped s

def runUntilHalt (s : DebugSession M) (maxSteps : ℕ) : Except String Unit × DebugSession M :=
  match s.machine with
  | none => (.error notLoaded, s)
  | some machine =>
    if (ops.collectSnapshot machine).halted then (.ok (), s)
    else
      match s.recordCurrentBreakpointHit ops machine with
      | (true, s) => (.ok (), s)
      | (false, s) => stepToHalt ops maxSteps machine s

def uartOutput (s : DebugSession M) (offset : ℕ) : Except String (List Char × ℕ) :=
  match s.machine with
  | none => .error notLoaded
  | some machine => .ok (uartChunk ops machine offset)

def snapshot (s : DebugSession M) : Except String (DebugSnapshot × List DebugEvent) :=
  match s.machine with
  | none => .error notLoaded
  | some machine => .ok (ops.collectSnapshot machine, s.events)

def hasBreakpoint (events : List DebugEvent) : Bool :=
  events.any fun event => event.kind = .breakpoint

/-- The events that stay in the window when `own` more are appended. -/
def carried (s : DebugSession M) (own : ℕ) : List DebugEvent :=
  s.events.drop (s.events.length + own - maxEvents)

variable (s : DebugSession M) (cycle : BitVec 64) (kind : EventKind) (detail : String)

theorem appendEvent_events : (s.appendEvent cycle kind detail).events =
      s.carried 1 ++ [{ cycle := cycle, kind := kind, detail := detail }] := by
  unfold appendEvent carried
  dsimp only
  split
  · rename_i hfull
    rw [length_append, length_singleton] at hfull
    change drop ((s.events ++ _).length - maxEvents) (s.events ++ _) = _
    rw [length_append, length_singleton]
    apply drop_append_of_le_length
    have hmax : maxEvents = 64 := rfl
    omega
  · rename_i hroom
    rw [length_append, length_singleton] at hroom
    rw [Nat.sub_eq_zero_of_le (by omega), drop_zero]

@[simp] theorem appendEvent_breakpoints :
    (s.appendEvent cycle kind detail).breakpoints = s.breakpoints := by
  unfold appendEvent
  dsimp only
  split <;> rfl

@[simp] theorem appendEvent_machine : (s.appendEvent cycle kind detail).machine = s.machine := by
  unfold appendEvent
  dsimp only
  split <;> rfl

@[simp] theorem appendEvent_config : (s.appendEvent cycle kind detail).config = s.config := by
  unfold appendEvent
  dsimp only
  split <;> rfl

theorem foldl_appendEvent_events (own : List (EventKind × String)) (hown : own.length ≤ maxEvents) :
    (own.foldl (fun s event => s.appendEvent cycle event.1 event.2) s).events =
      s.carried own.length ++
        own.map fun event => { cycle := cycle, kind := event.1, detail := event.2 } := by
  induction own using reverseRecOn with
  | nil =>
    have hnone : s.events.length - maxEvents = 0 := Nat.sub_eq_zero_of_le s.bounded
    simp [carried, hnone]
  | append_singleton own event ih =>
    have hshort : own.length + 1 ≤ maxEvents := by simpa using hown
    have hbound := s.bounded
    rw [foldl_append, foldl_cons, foldl_nil, appendEvent_events, map_append, ← List.append_assoc]
    congr 1
    unfold carried
    rw [ih (by omega), length_append, length_map, length_append, length_singleton]
    unfold carried
    rw [drop_append_of_le_length (by rw [length_drop]; omega), drop_drop, length_drop]
    congr 2
    omega

variable (before after : DebugSnapshot)

@[simp] theorem recordStepEvents_breakpoints :
    (s.recordStepEvents before after).breakpoints = s.breakpoints := by
  unfold recordStepEvents
  generalize stepEvents before after = own
  induction own generalizing s with
  | nil => rfl
  | cons event own ih => rw [foldl_cons, ih, appendEvent_breakpoints]

@[simp] theorem recordStepEvents_machine :
    (s.recordStepEvents before after).machine = s.machine := by
  unfold recordStepEvents
  generalize stepEvents before after = own
  induction own generalizing s with
  | nil => rfl
  | cons event own ih => rw [foldl_cons, ih, appendEvent_machine]

@[simp] theorem recordStepEvents_config : (s.recordStepEvents before after).config = s.config := by
  unfold recordStepEvents
  generalize stepEvents before after = own
  induction own generalizing s with
  | nil => rfl
  | cons event own ih => rw [foldl_cons, ih, appendEvent_config]

theorem stepEvents_length : (stepEvents before after).length ≤ 8 := by
  unfold stepEvents
  rw [length_map]
  exact length_filter_le _ _

theorem stepEvents_kind {event : EventKind × String}
    (hevent : event ∈ stepEvents before after) : event.1 ≠ .breakpoint := by
  obtain ⟨row, hrow, rfl⟩ := mem_map.1 hevent
  have hkinds : ∀ row ∈ stepEventTable before after, row.2.1 ≠ .breakpoint := by
    unfold stepEventTable
    cases after.access.write <;> simp
  exact hkinds row (mem_filter.1 hrow).1

theorem recordStepEvents_hasBreakpoint : hasBreakpoint (s.recordStepEvents before after).events =
      hasBreakpoint (s.carried (stepEvents before after).length) := by
  have hlength := stepEvents_length before after
  unfold recordStepEvents
  rw [foldl_appendEvent_events _ _ _ (Nat.le_trans hlength (by decide))]
  unfold hasBreakpoint
  rw [any_append]
  have hown : ((stepEvents before after).map fun event =>
      ({ cycle := after.cycle, kind := event.1, detail := event.2 } : DebugEvent)).any
        (fun event => event.kind = .breakpoint) = false := by
    rw [any_eq_false]
    intro event hevent
    obtain ⟨row, hrow, rfl⟩ := mem_map.1 hevent
    simpa using stepEvents_kind before after hrow
  rw [hown, Bool.or_false]

variable (machine : M)

theorem hasBreakpoint_stepMachine : hasBreakpoint (s.stepMachine ops machine).events =
      (s.isBreakpointPc (ops.collectSnapshot (ops.step machine)).pc ||
        hasBreakpoint (s.carried (stepEvents (ops.collectSnapshot machine)
          (ops.collectSnapshot (ops.step machine))).length)) := by
  unfold stepMachine recordBreakpointHit
  dsimp only
  have hpc : ∀ pc, DebugSession.isBreakpointPc
      (recordStepEvents { s with machine := some (ops.step machine) }
        (ops.collectSnapshot machine) (ops.collectSnapshot (ops.step machine))) pc =
        s.isBreakpointPc pc := by
    intro pc
    unfold isBreakpointPc
    rw [recordStepEvents_breakpoints]
  rw [hpc]
  cases s.isBreakpointPc (ops.collectSnapshot (ops.step machine)).pc with
  | true =>
    rw [if_pos rfl, appendEvent_events]
    simp [hasBreakpoint]
  | false =>
    rw [if_neg Bool.false_ne_true, recordStepEvents_hasBreakpoint]
    rfl

@[simp] theorem stepMachine_breakpoints :
    (s.stepMachine ops machine).breakpoints = s.breakpoints := by
  unfold stepMachine recordBreakpointHit
  dsimp only
  split <;> simp

@[simp] theorem stepMachine_machine :
    (s.stepMachine ops machine).machine = some (ops.step machine) := by
  unfold stepMachine recordBreakpointHit
  dsimp only
  split <;> simp

@[simp] theorem stepMachine_config : (s.stepMachine ops machine).config = s.config := by
  unfold stepMachine recordBreakpointHit
  dsimp only
  split <;> simp

end DebugSession

def noAccess : DebugBusAccess where
  valid := false
  success := true
  write := false
  source := ""
  kind := ""
  addr := 0
  value := 0
  device := ""
  detail := ""

/-- A guest that retires one instruction in every cycle and never halts. -/
def counterSnapshot (n : ℕ) : DebugSnapshot where
  cycle := BitVec.ofNat 64 n
  instret := BitVec.ofNat 64 n
  pc := BitVec.ofNat 64 n
  halted := false
  stalled := false
  stallReason := "none"
  redirected := false
  redirectTarget := 0
  pendingFetchFault := false
  trapFlush := false
  bus := noAccess
  guestBus := noAccess
  mcause := 0
  scause := 0

def counterOps : MachineOps ℕ where
  create _ _ _ := 0
  attachStorageImage n _ _ _ := .ok n
  loadElf n _ := .ok n
  loadBinary n _ _ := .ok n
  loadBinaryPayload n _ _ := .ok n
  setGpr n _ _ := .ok n
  setMemory n _ _ _ _ := .ok n
  setCsr n _ _ := .ok n
  step n := n + 1
  injectInput n _ := n
  output _ := []
  jitDispatch n := n
  collectSnapshot := counterSnapshot

end VisualCpu
