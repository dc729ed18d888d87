import VisualCpu.Debug.DebugSession
import VisualCpu.Frontend.RunLoopRuns

/-!
# The run loop over a debug session

The runtime and the session that answers it, with the calls that run, pause, step and set
breakpoints. Beside them stands the loop that is due: the one started last, until a pause or
the first of its own steps after which the guest is halted or at a breakpoint.
-/

namespace VisualCpu

inductive LoopCall
  | run (rateHz : ℕ)
  | pause | stepCycle | stepCommit
  | breakAt (addr : BitVec 64)
deriving DecidableEq

def LoopCall.api : LoopCall → ApiCall
  | .run rateHz => .run rateHz
  | .pause => .pause
  | .stepCycle => .stepCycle
  | .stepCommit => .stepCommit
  | .breakAt addr => .debugCommand (.breakAt addr.toNat)

/-- The requests that these calls make. -/
inductive LoopRequest
  | stepCycle | stepCommit | snapshot
  | uartOutput (offset : ℕ)
  | breakAt (addr : BitVec 64)
deriving DecidableEq

def RuntimeRequest.loopRequest : RuntimeRequest → Option LoopRequest
  | .session _ .stepCycle => some .stepCycle
  | .session _ .stepCommit => some .stepCommit
  | .session _ .snapshot => some .snapshot
  | .session _ (.uartOutput offset) => some (.uartOutput offset)
  | .session _ (.breakAt addr) => some (.breakAt (BitVec.ofNat 64 addr))
  | _ => none

namespace DebugSession

variable {M : Type} (ops : MachineOps M)

/-- The answer to a call that shows nothing. -/
def okResponse : SessionResponse where
  isError := false
  message := none
  halted := false
  breakpoint := false
  text := []
  nextOffset := none

def snapshotResponse (shown : DebugSnapshot × List DebugEvent) : SessionResponse :=
  { okResponse with halted := shown.1.halted, breakpoint := hasBreakpoint shown.2 }

def chunkResponse (chunk : List Char × ℕ) : SessionResponse :=
  { okResponse with text := chunk.1, nextOffset := some chunk.2 }

/-- A call, and the snapshot after it unless it throws. -/
def thenSnapshot :
    Except String Unit × DebugSession M → Except String SessionResponse × DebugSession M
  | (.error message, s) => (.error message, s)
  | (.ok (), s) => ((s.snapshot ops).map snapshotResponse, s)

/-- The command line answers a request; an error is the one it prints before it ends. -/
def serve (s : DebugSession M) : LoopRequest → Except String SessionResponse × DebugSession M
  | .stepCycle => thenSnapshot ops (s.stepCycle ops)
  | .stepCommit => thenSnapshot ops (s.stepCommit ops)
  | .snapshot => ((s.snapshot ops).map snapshotResponse, s)
  | .uartOutput offset => ((s.uartOutput ops offset).map chunkResponse, s)
  | .breakAt addr => ((s.breakAt addr).1.map fun _ => okResponse, (s.breakAt addr).2)

/-- The guest is halted, or its pc is at a breakpoint. -/
def atStop (s : DebugSession M) (machine : M) : Bool :=
  (ops.collectSnapshot machine).halted || s.isBreakpointPc (ops.collectSnapshot machine).pc

/-- An event about an earlier breakpoint is still in the window after the next step. -/
def carriesBreakpoint (s : DebugSession M) (machine : M) : Bool :=
  hasBreakpoint (s.carried (stepEvents (ops.collectSnapshot machine)
    (ops.collectSnapshot (ops.step machine))).length)

end DebugSession

/-- `alive` says that the command line has not ended; `due` is the number of the `run` whose
loop is to go on. -/
structure LoopWorld (M : Type) where
  world : RuntimeWorld
  session : DebugSession M
  alive : Bool
  due : Option ℕ

inductive LoopEvent
  | call (call : LoopCall)
  | start | answer
  | timer (handle : ℕ)
  | continueTick
deriving DecidableEq

namespace LoopWorld

variable {M : Type} (ops : MachineOps M)

variable (w : LoopWorld M)

def dueAfterStart : Option ℕ :=
  match w.world.running, w.world.queue with
  | none, task :: _ => if task.isRun then some task.number else w.due
  | _, _ => w.due

def dueAfterAnswer (task : Task) (request : LoopRequest)
    (session : DebugSession M) : Option ℕ :=
  match task.loop?, session.machine with
  | some loop, some machine =>
    if w.due = some loop.run ∧ request = .stepCycle ∧ session.atStop ops machine then none
    else w.due
  | _, _ => w.due

/-- The session answers the action that runs. -/
def answer (waiting : Waiting) (request : LoopRequest) : LoopWorld M :=
  if w.alive then
    let served := w.session.serve ops request
    { world := w.world.step (.respond (served.1.mapError .other))
      session := served.2
      alive := served.1.isOk
      due := w.dueAfterAnswer ops waiting.task request served.2 }
  else
    { w with world := w.world.step (.respond (.error (.other "debug cli exited with code 1"))) }

/-- An answer arrives when no callback of a settled promise waits. -/
def step : LoopEvent → LoopWorld M
  | .call call =>
    { w with
      world := w.world.step (.call call.api)
      due := if call.api.stops then none else w.due }
  | .start => { w with world := w.world.step .start, due := w.dueAfterStart }
  | .answer =>
    match w.world.ticks, w.world.running with
    | [], some waiting =>
      match waiting.request.loopRequest with
      | some request => w.answer ops waiting request
      | none => w
    | _, _ => w
  | .timer handle => { w with world := w.world.step (.timer handle) }
  | .continueTick => { w with world := w.world.step .continueTick }

def run (events : List LoopEvent) : LoopWorld M := events.foldl (step ops) w

/-- The loops that have an armed timer or a tick on its way. -/
def scheduling : List RunLoop :=
  schedulingLoops w.world.runtime w.world.ticksInFlight

/-- A session is loaded, and nothing happens yet. -/
structure LoadedIdle (w : LoopWorld M) : Prop where
  session : w.world.runtime.currentSession ≠ none
  machine : w.session.machine ≠ none
  alive : w.alive
  due : w.due = none
  timers : w.world.runtime.timers = [] ∧ w.world.runtime.runTimer = none
  queue : w.world.queue = []
  running : w.world.running = none
  ticks : w.world.ticks = []

/-- The loop that is due goes on, its ticks step, and no other loop does. -/
structure FollowsDue (w : LoopWorld M) : Prop where
  goesOn : ∀ run, w.due = some run → ∃ loop ∈ w.scheduling, loop.run = run
  issues : ∀ task queue loop, w.world.running = none → w.world.queue = task :: queue →
    task.loop? = some loop → loop ∈ w.scheduling →
    ∃ id, (w.step ops .start).world.log = w.world.log ++ [.requested task (.session id .stepCycle)]
  onlyDue : ∀ event task id loop,
    (w.step ops event).world.log = w.world.log ++ [.requested task (.session id .stepCycle)] →
    task.loop? = some loop → w.due = some loop.run

/-- A loop does not step while an event about an earlier breakpoint stays in the window, unless
the guest stops there, and no `step_commit` runs past its budget. -/
def StepClear : LoopEvent → Prop
  | .answer =>
    match w.world.running, w.session.machine with
    | some waiting, some machine =>
      (waiting.request.loopRequest = some .stepCommit →
        (w.session.stepCommit ops).1.isOk) ∧
      (waiting.request.loopRequest = some .stepCycle → waiting.task.loop?.isSome →
        w.session.carriesBreakpoint ops machine →
        w.session.atStop ops (ops.step machine))
    | _, _ => True
  | _ => True

instance (w : LoopWorld M) (event : LoopEvent) : Decidable (StepClear ops w event) :=
  match event with
  | .answer =>
    match hrunning : w.world.running, hmachine : w.session.machine with
    | some waiting, some machine =>
      decidable_of_iff ((waiting.request.loopRequest = some .stepCommit →
        (w.session.stepCommit ops).1.isOk) ∧
      (waiting.request.loopRequest = some .stepCycle → waiting.task.loop?.isSome →
        w.session.carriesBreakpoint ops machine →
        w.session.atStop ops (ops.step machine)))
        (by simp only [StepClear, hrunning, hmachine])
    | none, _ => .isTrue (by simp only [StepClear, hrunning])
    | some _, none => .isTrue (by simp only [StepClear, hrunning, hmachine])
  | .call _ | .start | .timer _ | .continueTick => .isTrue trivial

/-- Every step of a run meets a condition on the state before it. -/
def Along (condition : LoopWorld M → LoopEvent → Prop) : LoopWorld M → List LoopEvent → Prop
  | _, [] => True
  | w, event :: events => condition w event ∧ Along condition (w.step ops event) events

instance Along.decidable (condition : LoopWorld M → LoopEvent → Prop)
    [∀ w event, Decidable (condition w event)] :
    ∀ w events, Decidable (Along ops condition w events)
  | _, [] => inferInstanceAs (Decidable True)
  | w, event :: events =>
    have := Along.decidable condition (w.step ops event) events
    inferInstanceAs (Decidable (condition w event ∧ Along ops condition (w.step ops event) events))

end LoopWorld

end VisualCpu
