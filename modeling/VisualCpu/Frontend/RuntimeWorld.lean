import VisualCpu.Frontend.DebugRuntime

/-!
# The event loop around the runtime

Calls, answers and timers in any order. The queue runs one action at a time, `close` runs
beside it, and the callback of a timer goes on after its tick has settled.
-/

namespace VisualCpu

/-- The calls that stop the run loop until the next `run`. -/
def ApiCall.stops : ApiCall → Bool
  | .pause | .debugCommand _ => true
  | _ => false

def ApiCall.isLoad : ApiCall → Bool
  | .load _ _ => true
  | _ => false

/-- What is seen from outside: requests to a session and settled promises. -/
inductive LogEntry
  | requested (task : Task) (request : RuntimeRequest)
  | settled (task : Task) (failed : Bool)
deriving DecidableEq

/-- The fields that make a session current and usable. -/
structure SessionView where
  session : Option ℕ
  entry : Option DebugEntry
  backend : String
  snapshot : Option SessionResponse
  prompt : List Char
  projection : TerminalProjection
  offset : ℕ
deriving DecidableEq

def DebugRuntime.view (s : DebugRuntime) : SessionView where
  session := s.currentSession
  entry := s.currentEntry
  backend := s.currentBackend
  snapshot := s.currentSnapshot
  prompt := s.currentTerminalPrompt
  projection := s.currentTerminalProjection
  offset := s.currentTerminalOffset

/-- A session is usable while nothing has closed it. -/
def DebugRuntime.usable (s : DebugRuntime) : Prop :=
  ∃ id, s.currentSession = some id ∧ id ∉ s.closed

/-- An action that waits for an answer, and the state in which it was started. -/
structure Waiting where
  task : Task
  start : DebugRuntime
  request : RuntimeRequest
  rest : Except RuntimeError SessionResponse → Action Unit

/-- A settled action with the states at its start and its end. -/
structure Outcome where
  task : Task
  start : DebugRuntime
  failed : Bool
  finish : DebugRuntime

/-- `ticks` are the callbacks of timers whose action has settled, `closing` the calls of
`close` that wait, `outcomes` the queued actions that have settled, `pauses` the numbers of the
calls of `pause` and `debugCommand` and `loads` those of the calls of `load`. -/
structure RuntimeWorld where
  runtime : DebugRuntime
  calls : ℕ
  queue : List Task
  running : Option Waiting
  ticks : List (Task × RunLoop × Option RuntimeError)
  closing : List Waiting
  log : List LogEntry
  outcomes : List Outcome
  (pauses loads : List ℕ)

inductive RuntimeEvent
  | call (call : ApiCall)
  | start
  | respond (response : Except RuntimeError SessionResponse)
  | timer (handle : ℕ)
  | continueTick
  | closeResponds (index : ℕ) (response : Except RuntimeError SessionResponse)

namespace RuntimeWorld

def init : RuntimeWorld where
  runtime := DebugRuntime.init
  calls := 0
  queue := []
  running := none
  ticks := []
  closing := []
  log := []
  outcomes := []
  pauses := []
  loads := []

def beginCall (s : DebugRuntime) : ApiCall → ℕ × DebugRuntime
  | .load _ _ | .reset | .terminate =>
    (s.currentGeneration + 1,
      ({ s with currentGeneration := s.currentGeneration + 1 } : DebugRuntime).stopRunLoop)
  | .debugCommand _ | .pause => (s.currentGeneration, s.stopRunLoop)
  | _ => (s.currentGeneration, s)

def isFailed {α : Type} : Except RuntimeError α → Bool
  | .ok _ => false
  | .error _ => true

/-- The callback of a timer takes over when the action of its tick has settled. -/
def afterAction (task : Task) (result : Except RuntimeError Unit) :
    List (Task × RunLoop × Option RuntimeError) :=
  match task.kind with
  | .call _ => []
  | .tick loop =>
    [(task, loop, match result with
      | .ok _ => none
      | .error error => some error)]

variable (world : RuntimeWorld)

/-- The action of the queue that runs goes on to its next stop. -/
def resume (task : Task) (start : DebugRuntime) (rest : Action Unit) :
    RuntimeWorld :=
  match rest.advance world.runtime with
  | (s, .done result) =>
    { world with
      runtime := s
      running := none
      ticks := world.ticks ++ afterAction task result
      log := world.log ++ [.settled task (isFailed result)]
      outcomes := world.outcomes ++
        [{ task := task, start := start, failed := isFailed result, finish := s }] }
  | (s, .waiting request rest) =>
    { world with
      runtime := s
      running := some { task := task, start := start, request := request, rest := rest }
      log := world.log ++ [.requested task request] }

/-- A call of `close` goes on. -/
def resumeClose (task : Task) (rest : Action Unit) : RuntimeWorld :=
  match rest.advance world.runtime with
  | (s, .done result) =>
    { world with
      runtime := s
      log := world.log ++ [.settled task (isFailed result)] }
  | (s, .waiting request rest) =>
    { world with
      runtime := s
      closing := world.closing ++
        [{ task := task, start := world.runtime, request := request, rest := rest }]
      log := world.log ++ [.requested task request] }

def afterTick (s : DebugRuntime) (task : Task) (loop : RunLoop) :
    Option RuntimeError → DebugRuntime
  | some .staleSession => s
  | some error => (s.broadcast task (.error error)).stopRunLoop
  | none =>
    if loop.token = s.runLoopToken ∧ loop.generation = s.currentGeneration ∧
        ¬ s.currentSnapshot.any (·.halted) ∧ ¬ s.currentSnapshot.any (·.breakpoint) then
      s.scheduleNextTick loop
    else s

def step : RuntimeEvent → RuntimeWorld
  | .call .close =>
    { world with calls := world.calls + 1 }.resumeClose
      { number := world.calls, generation := world.runtime.currentGeneration
        kind := .call .close } Action.close
  | .call call =>
    { world with
      calls := world.calls + 1
      pauses := if call.stops then world.pauses ++ [world.calls] else world.pauses
      loads := if call.isLoad then world.loads ++ [world.calls] else world.loads
      runtime := (beginCall world.runtime call).2
      queue := world.queue ++
        [{ number := world.calls, generation := (beginCall world.runtime call).1
           kind := .call call }] }
  | .start =>
    match world.running, world.queue with
    | none, task :: queue =>
      { world with queue := queue }.resume task world.runtime (Action.program task)
    | _, _ => world
  | .respond response =>
    match world.running with
    | none => world
    | some waiting => world.resume waiting.task waiting.start (waiting.rest response)
  | .timer handle =>
    match world.runtime.timers.find? fun timer => timer.1 = handle with
    | none => world
    | some timer =>
      { world with
        runtime :=
          { world.runtime with
            timers := world.runtime.timers.filter fun timer => timer.1 ≠ handle
            runTimer := none }
        queue := world.queue ++
          [{ number := timer.2.run, generation := timer.2.generation
             kind := .tick timer.2 }] }
  | .continueTick =>
    match world.ticks with
    | [] => world
    | (task, loop, error) :: ticks =>
      { world with ticks := ticks, runtime := afterTick world.runtime task loop error }
  | .closeResponds index response =>
    match world.closing[index]? with
    | none => world
    | some waiting =>
      { world with closing := world.closing.eraseIdx index }.resumeClose waiting.task
        (waiting.rest response)

def run (events : List RuntimeEvent) : RuntimeWorld :=
  events.foldl step world

variable {world}

theorem mem_tail {first : Task} {queue : List Task} (hqueue : world.queue = first :: queue) :
    ∀ task ∈ queue, task ∈ world.queue := by
  intro task htask
  rw [hqueue]
  exact List.mem_cons_of_mem _ htask

end RuntimeWorld

end VisualCpu
