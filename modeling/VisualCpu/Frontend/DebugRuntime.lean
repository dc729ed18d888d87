import VisualCpu.Frontend.TerminalProjection
import VisualCpu.Library.Coroutine

/-!
# Actions of the debug server runtime

Each queued action is a coroutine over the state of the runtime: it runs without
interruption up to the next answer it awaits from the session. Beside the fields of the
runtime the state holds the timers armed in the host, the sessions created and closed and
the messages broadcast.
-/

namespace VisualCpu

inductive RuntimeError
  | staleSession
  | runtime (message : String) (statusCode : ℕ)
  | other (message : String)
deriving DecidableEq

/-- A response of a session: the fields that the runtime reads. -/
structure SessionResponse where
  isError : Bool
  message : Option String
  (halted breakpoint : Bool)
  text : List Char
  nextOffset : Option ℕ
deriving DecidableEq

structure Payload where
  image : String
  addr : ℕ
deriving DecidableEq

structure GprSeed where
  (reg value : ℕ)
deriving DecidableEq

/-- An entry of the manifest; an empty text stands for an absent one. -/
structure DebugEntry where
  payloads : List Payload
  gprSeeds : List GprSeed
  bootUntilUartText : List Char
  bootMaxSteps : ℕ
  bootRequestTimeoutMs : Option ℕ
  (terminalPrompt commandUntilUartText : List Char)
  commandMaxSteps : ℕ
  commandRequestTimeoutMs : Option ℕ
deriving DecidableEq

inductive SessionCall
  | load (entry : DebugEntry) (backend : String)
  | loadPayload (payload : Payload)
  | setGpr (seed : GprSeed)
  | runUntilUartContains (text : List Char) (maxSteps : ℕ) (timeoutMs : Option ℕ)
  | runUntilNewUartContains (offset : ℕ) (text : List Char) (maxSteps : ℕ)
      (timeoutMs : Option ℕ)
  | snapshot
  | uartOutput (offset : ℕ)
  | uartInput (text : List Char)
  | stepCycle | stepCommit
  | setMemory (addr value size : ℕ) (isVirtual : Bool)
  | setCsr (csr value : ℕ)
  | breakAt (addr : ℕ)
  | reset | jitDispatch | close
deriving DecidableEq

def SessionCall.name : SessionCall → String
  | .load _ _ => "load"
  | .loadPayload _ => "loadPayload"
  | .setGpr _ => "setGpr"
  | .runUntilUartContains _ _ _ => "runUntilUartContains"
  | .runUntilNewUartContains _ _ _ _ => "runUntilNewUartContains"
  | .snapshot => "snapshot"
  | .uartOutput _ => "uartOutput"
  | .uartInput _ => "uartInput"
  | .stepCycle => "stepCycle"
  | .stepCommit => "stepCommit"
  | .setMemory _ _ _ _ => "setMemory"
  | .setCsr _ _ => "setCsr"
  | .breakAt _ => "breakAt"
  | .reset => "reset"
  | .jitDispatch => "jitDispatch"
  | .close => "close"

inductive RuntimeRequest
  | createSession
  | session (id : ℕ) (call : SessionCall)
deriving DecidableEq

inductive DebugCommand
  | setMemory (addr value size : ℕ) (isVirtual : Bool)
  | setCsr (csr value : ℕ)
  | breakAt (addr : ℕ)
  | unsupported (cmd : Option String)
deriving DecidableEq

inductive ApiCall
  | load (entry : DebugEntry) (backend : String)
  | snapshot | stepCycle | stepCommit
  | debugCommand (command : DebugCommand)
  | reset | terminate
  | run (rateHz : ℕ)
  | terminalInput (text : List Char)
  | terminalOutput (offset : ℕ)
  | jitDispatch | pause | close
deriving DecidableEq

/-- The locals that the ticks of one run loop share; `run` numbers the call that started it. -/
structure RunLoop where
  (token generation intervalMs run : ℕ)
deriving DecidableEq

inductive TaskKind
  | call (call : ApiCall)
  | tick (loop : RunLoop)
deriving DecidableEq

/-- A queued action with the number of its call and the generation it captured. -/
structure Task where
  (number generation : ℕ)
  kind : TaskKind
deriving DecidableEq

inductive Message
  | snapshot (snapshot : Option SessionResponse)
  | terminal (text : List Char) (nextOffset : ℕ) (reset : Bool)
  | error (error : RuntimeError)
deriving DecidableEq

structure Broadcast where
  task : Task
  message : Message
deriving DecidableEq

/-- `timers` are the timers armed in the host by their handles, `nextSession` the session that
a load has created and neither published nor closed. -/
structure DebugRuntime where
  currentSession : Option ℕ
  currentEntry : Option DebugEntry
  currentBackend : String
  currentSnapshot : Option SessionResponse
  currentTerminalPrompt : List Char
  runTimer : Option ℕ
  currentTerminalProjection : TerminalProjection
  (currentTerminalOffset currentGeneration runLoopToken : ℕ)
  timers : List (ℕ × RunLoop)
  armedTimers : ℕ
  nextSession : Option ℕ
  created : ℕ
  closed : List ℕ
  broadcasts : List Broadcast
deriving DecidableEq

def defaultTerminalMaxLength : ℕ := 32768

/-- The limits of `terminalLimits` that plans are made of. -/
def textCommitScale : ℕ := 1024

abbrev Action (α : Type) : Type :=
  Coroutine DebugRuntime RuntimeRequest SessionResponse RuntimeError α

namespace DebugRuntime

def init : DebugRuntime where
  currentSession := none
  currentEntry := none
  currentBackend := "pipeline"
  currentSnapshot := none
  currentTerminalPrompt := []
  runTimer := none
  currentTerminalProjection := createTerminalProjectionState (some defaultTerminalMaxLength)
  currentTerminalOffset := 0
  currentGeneration := 0
  runLoopToken := 0
  timers := []
  armedTimers := 0
  nextSession := none
  created := 0
  closed := []
  broadcasts := []

variable (s : DebugRuntime)

/-- Clears the timer and makes the token of its loop stale. -/
def stopRunLoop : DebugRuntime :=
  { s with
    timers := match s.runTimer with
      | none => s.timers
      | some handle => s.timers.filter fun timer => timer.1 ≠ handle
    runTimer := none
    runLoopToken := s.runLoopToken + 1 }

def scheduleNextTick (loop : RunLoop) : DebugRuntime :=
  if loop.token ≠ s.runLoopToken ∨ loop.generation ≠ s.currentGeneration ∨
      s.currentSession = none then s
  else
    { s with
      timers := s.timers ++ [(s.armedTimers, loop)]
      runTimer := some s.armedTimers
      armedTimers := s.armedTimers + 1 }

def startRunLoop (intervalMs generation run : ℕ) : DebugRuntime :=
  s.stopRunLoop.scheduleNextTick
    { token := s.stopRunLoop.runLoopToken, generation := generation, intervalMs := intervalMs
      run := run }

def broadcast (task : Task) (message : Message) : DebugRuntime :=
  { s with broadcasts := s.broadcasts ++ [{ task := task, message := message }] }

def resetTerminalTracking : DebugRuntime :=
  { s with
    currentTerminalProjection :=
      createTerminalProjectionState s.currentTerminalProjection.maxLength
    currentTerminalOffset := 0 }

def nextOffset (chunk : SessionResponse) : ℕ :=
  chunk.nextOffset.getD s.currentTerminalOffset

def trackTerminalChunk (chunk : SessionResponse) (reset : Bool) :
    DebugRuntime :=
  { s with
    currentTerminalProjection :=
      if reset then
        (createTerminalProjectionState s.currentTerminalProjection.maxLength).applyTerminalChunk
          chunk.text
      else if s.currentTerminalOffset < s.nextOffset chunk then
        s.currentTerminalProjection.applyTerminalChunk chunk.text
      else s.currentTerminalProjection
    currentTerminalOffset := s.nextOffset chunk }

/-- A session counts as closed from the call of its `close` on. -/
def markClosed (id : ℕ) : DebugRuntime :=
  { s with
    closed := s.closed ++ [id]
    nextSession := if s.nextSession = some id then none else s.nextSession }

end DebugRuntime

namespace Action

open Coroutine (get modify call)

variable {α : Type}

def fail (error : RuntimeError) : Action α := .raise error

def assertGeneration (generation : ℕ) : Action Unit := do
  let s ← get
  if generation ≠ s.currentGeneration then fail .staleSession

/-- The current session, or the error of a request without one. -/
def requireSessionLoaded : Action ℕ := do
  let s ← get
  match s.currentSession with
  | none => fail (.runtime "session not loaded" 400)
  | some id => pure id

def normalizeCliResponse (response : SessionResponse) (context : String) :
    Action SessionResponse :=
  if response.isError then
    match response.message with
    | none => fail (.other (context ++ " failed"))
    | some message =>
      fail (.other (if message = "" then context ++ " failed" else message))
  else pure response

def callOn (id : ℕ) (method : SessionCall) : Action SessionResponse := do
  let response ← call (.session id method)
  normalizeCliResponse response ("session " ++ method.name)

def callSession (method : SessionCall) : Action SessionResponse := do
  let id ← requireSessionLoaded
  callOn id method

def setSnapshot (snapshot : Option SessionResponse) : Action Unit :=
  modify fun s => { s with currentSnapshot := snapshot }

variable (task : Task)

def broadcastSnapshot : Action Unit :=
  modify fun s => s.broadcast task (.snapshot s.currentSnapshot)

def trackTerminalChunk (chunk : SessionResponse) (reset : Bool) :
    Action (List Char × ℕ) := do
  let s ← get
  modify fun s => s.trackTerminalChunk chunk reset
  pure (chunk.text, s.nextOffset chunk)

def readTerminalOutput (offset generation : ℕ) : Action SessionResponse := do
  let chunk ← callSession (.uartOutput offset)
  assertGeneration generation
  pure { chunk with nextOffset := some (chunk.nextOffset.getD offset) }

def syncTerminalDelta (offset : Option ℕ) (reset isBroadcast : Bool)
    (generation : ℕ) : Action (List Char × ℕ) := do
  let s ← get
  let chunk ← readTerminalOutput (offset.getD s.currentTerminalOffset) generation
  let message ← trackTerminalChunk chunk reset
  if isBroadcast && (reset || !message.1.isEmpty) then
    modify fun s => s.broadcast task (.terminal message.1 message.2 reset)
  pure message

/-- When the stepping for terminal output stops early. -/
inductive StopRule
  | never | prompt
  | visible (count : ℕ)

structure AdvancePlan where
  (maxCommits settleCommits idleCommitsWithoutOutput : ℕ)
  shouldStop : StopRule

/-- `length` of a string counts UTF-16 units. -/
def utf16Length (text : List Char) : ℕ :=
  (text.map fun c => if 0x10000 ≤ c.toNat then 2 else 1).sum

def StopRule.holds (rule : StopRule) (s : DebugRuntime) (output : List Char) : Bool :=
  match rule with
  | .never => false
  | .prompt => !output.isEmpty && ((s.currentSnapshot.any (·.halted)) ||
      (!s.currentTerminalPrompt.isEmpty &&
        s.currentTerminalPrompt.isSuffixOf s.currentTerminalProjection.text))
  | .visible count => decide (count ≤ utf16Length output)

/-- The rounds of `advanceUntilTerminalActivity` that remain: commits, output, next offset
and the commits without output so far. -/
def advanceRounds (task : Task) (plan : AdvancePlan) (generation : ℕ) :
    ℕ → ℕ → List Char → ℕ → Bool → ℕ → Action (ℕ × List Char × ℕ)
  | 0, commits, output, nextOffset, _, _ => pure (commits, output, nextOffset)
  | rounds + 1, commits, output, nextOffset, sawOutput, quietCommits => do
    assertGeneration generation
    let s ← get
    match s.currentSession with
    | none => fail (.other "Cannot read properties of null (reading 'stepCommit')")
    | some id =>
      let response ← call (.session id .stepCommit)
      setSnapshot (some response)
      assertGeneration generation
      let terminal ← syncTerminalDelta task none false false generation
      let s ← get
      let wrote := !terminal.1.isEmpty
      let output := output ++ terminal.1
      let nextOffset := if wrote then terminal.2 else nextOffset
      let quietCommits := if wrote then 0 else quietCommits + 1
      let enough :=
        if wrote then plan.shouldStop.holds s output
        else if sawOutput then decide (plan.settleCommits ≤ quietCommits)
        else decide (plan.idleCommitsWithoutOutput ≤ quietCommits)
      if enough || s.currentSnapshot.any (·.halted) || s.currentSnapshot.any (·.breakpoint) then
        pure (commits + 1, output, nextOffset)
      else
        advanceRounds task plan generation rounds (commits + 1) output nextOffset
          (sawOutput || wrote) quietCommits

def advanceUntilTerminalActivity (plan : AdvancePlan) (generation : ℕ) :
    Action (ℕ × List Char × ℕ) := do
  let s ← get
  advanceRounds task plan generation plan.maxCommits 0 [] s.currentTerminalOffset false 0

def isControl (c : Char) : Bool := c = '\r' || c = '\n' || c = '\x08' || c = '\x7f'

def isVisibleAscii (c : Char) : Bool := decide (0x20 ≤ c.toNat) && decide (c.toNat ≤ 0x7e)

def buildTerminalAdvancePlan (text : List Char) : Option AdvancePlan :=
  let visibleAsciiCount := (text.filter isVisibleAscii).length
  let controlCount := (text.filter isControl).length
  if visibleAsciiCount = 0 ∧ controlCount = 0 then none
  else if '\r' ∈ text ∨ '\n' ∈ text then
    some { maxCommits := 16384, settleCommits := 1024, idleCommitsWithoutOutput := 128
           shouldStop := .prompt }
  else if 0 < controlCount then
    some { maxCommits := max 1024 ((visibleAsciiCount + controlCount) * textCommitScale)
           settleCommits := 64, idleCommitsWithoutOutput := 64, shouldStop := .never }
  else
    some { maxCommits := max 2048 ((visibleAsciiCount + controlCount) * textCommitScale)
           settleCommits := 256, idleCommitsWithoutOutput := 64
           shouldStop := .visible visibleAsciiCount }

def buildTerminalCommandWaitPlan (s : DebugRuntime) (text : List Char) :
    Option (List Char × ℕ × Option ℕ) :=
  match s.currentEntry with
  | none => none
  | some entry =>
    if entry.commandUntilUartText = [] then none
    else if '\r' ∉ text ∧ '\n' ∉ text then none
    else some (entry.commandUntilUartText, entry.commandMaxSteps, entry.commandRequestTimeoutMs)

def callAll (id : ℕ) : List SessionCall → Action Unit
  | [] => pure ()
  | method :: methods => do
    let _ ← callOn id method
    callAll id methods

def bootSnapshot (id : ℕ) (entry : DebugEntry) : Action SessionResponse :=
  if entry.bootUntilUartText ≠ [] then
    callOn id (.runUntilUartContains entry.bootUntilUartText entry.bootMaxSteps
      entry.bootRequestTimeoutMs)
  else callOn id .snapshot

def initializeSessionState (id : ℕ) (entry : DebugEntry) (backend : String) :
    Action (SessionResponse × SessionResponse) := do
  let _ ← callOn id (.load entry backend)
  callAll id (entry.payloads.map .loadPayload)
  callAll id (entry.gprSeeds.map .setGpr)
  let snapshot ← bootSnapshot id entry
  let terminalChunk ← callOn id (.uartOutput 0)
  pure (snapshot, terminalChunk)

def rearmSessionStateAfterReset (id : ℕ) (entry : DebugEntry) :
    Action (SessionResponse × SessionResponse) := do
  let snapshot ← bootSnapshot id entry
  let terminalChunk ← callOn id (.uartOutput 0)
  pure (snapshot, terminalChunk)

def shouldRearmSessionOnReset (entry : Option DebugEntry) : Bool :=
  match entry with
  | none => false
  | some entry =>
    !entry.payloads.isEmpty || !entry.gprSeeds.isEmpty || !entry.bootUntilUartText.isEmpty

/-- `close` of a session whose failure is ignored. -/
def closeQuietly (id : ℕ) : Action Unit := do
  modify fun s => s.markClosed id
  Coroutine.tryCatch (do let _ ← call (.session id .close)) fun _ => pure ()

/-- The session that `createSession` resolves to has a number of its own. -/
def createSession : Action ℕ := do
  let _ ← call .createSession
  let s ← get
  modify fun s => { s with created := s.created + 1, nextSession := some s.created }
  pure s.created

/-- The part of `load` before its broadcast: a session that cannot be initialised is closed. -/
def prepareSession (generation : ℕ) (entry : DebugEntry) (backend : String) :
    Action (ℕ × SessionResponse × SessionResponse) := do
  let id ← createSession
  Coroutine.tryCatch
    (do
      let nextState ← initializeSessionState id entry backend
      assertGeneration generation
      pure (id, nextState))
    fun error => do
      closeQuietly id
      fail error

/-- The new session replaces the current one. -/
def publishSession (entry : DebugEntry) (backend : String)
    (nextState : ℕ × SessionResponse × SessionResponse) : Action Unit := do
  modify fun s =>
    { s with
      currentSession := some nextState.1
      currentEntry := some entry
      currentBackend := backend
      currentSnapshot := some nextState.2.1
      currentTerminalPrompt := entry.terminalPrompt
      currentTerminalProjection :=
        (createTerminalProjectionState (some defaultTerminalMaxLength)).applyTerminalChunk
          nextState.2.2.text
      currentTerminalOffset := nextState.2.2.nextOffset.getD 0
      nextSession := none }
  broadcastSnapshot task
  modify fun s =>
    s.broadcast task (.terminal nextState.2.2.text (nextState.2.2.nextOffset.getD 0) true)

def load (entry : DebugEntry) (backend : String) : Action Unit := do
  let s ← get
  assertGeneration task.generation
  let nextState ← prepareSession task.generation entry backend
  publishSession task entry backend nextState
  match s.currentSession with
  | none => pure ()
  | some previous =>
    closeQuietly previous
    assertGeneration task.generation

def snapshot : Action Unit := do
  assertGeneration task.generation
  let _ ← requireSessionLoaded
  let response ← callSession .snapshot
  setSnapshot (some response)
  assertGeneration task.generation

def stepSession (method : SessionCall) : Action Unit := do
  assertGeneration task.generation
  let _ ← requireSessionLoaded
  let response ← callSession method
  setSnapshot (some response)
  assertGeneration task.generation
  broadcastSnapshot task
  let _ ← syncTerminalDelta task none false true task.generation

def stepCycle : Action Unit := stepSession task .stepCycle

def stepCommit : Action Unit := stepSession task .stepCommit

def debugCommand (command : DebugCommand) : Action Unit := do
  assertGeneration task.generation
  let _ ← requireSessionLoaded
  match command with
  | .setMemory addr value size isVirtual =>
    let _ ← callSession (.setMemory addr value size isVirtual)
  | .setCsr csr value => let _ ← callSession (.setCsr csr value)
  | .breakAt addr => let _ ← callSession (.breakAt addr)
  | .unsupported cmd =>
    fail (.runtime ("unsupported debug command: " ++ cmd.getD "<missing>") 400)
  let response ← callSession .snapshot
  setSnapshot (some response)
  assertGeneration task.generation
  broadcastSnapshot task

/-- The end of a reset that waits for the boot text again. -/
def rearm : Action Unit := do
  let s ← get
  match s.currentSession, s.currentEntry with
  | some id, some entry =>
    let nextState ← rearmSessionStateAfterReset id entry
    assertGeneration task.generation
    modify fun s =>
      { s with
        currentSnapshot := some nextState.1
        currentTerminalOffset := nextState.2.nextOffset.getD 0
        currentTerminalProjection :=
          (createTerminalProjectionState s.currentTerminalProjection.maxLength).applyTerminalChunk
            nextState.2.text }
    broadcastSnapshot task
    modify fun s =>
      s.broadcast task (.terminal nextState.2.text (nextState.2.nextOffset.getD 0) true)
  | _, _ => fail (.other "Cannot read properties of null")

def reset : Action Unit := do
  assertGeneration task.generation
  let _ ← requireSessionLoaded
  let response ← callSession .reset
  setSnapshot (some response)
  assertGeneration task.generation
  modify fun s => s.resetTerminalTracking
  let s ← get
  if shouldRearmSessionOnReset s.currentEntry then rearm task
  else
    broadcastSnapshot task
    let _ ← syncTerminalDelta task (some 0) true true task.generation

def terminate : Action Unit := do
  assertGeneration task.generation
  let id ← requireSessionLoaded
  modify fun s =>
    { s.resetTerminalTracking with
      currentSession := none
      currentEntry := none
      currentBackend := "pipeline"
      currentSnapshot := none
      currentTerminalPrompt := [] }
  modify fun s => s.broadcast task (.terminal [] 0 true)
  closeQuietly id
  assertGeneration task.generation

def run (rateHz : ℕ) : Action Unit := do
  assertGeneration task.generation
  let _ ← requireSessionLoaded
  modify fun s => s.startRunLoop (max 20 (1000 / max 1 rateHz)) task.generation task.number

/-- Terminal input while no loop runs and the entry names a text to wait for. -/
def awaitCommandText (plan : List Char × ℕ × Option ℕ) : Action Unit := do
  let s ← get
  let waited ← callSession
    (.runUntilNewUartContains s.currentTerminalOffset plan.1 plan.2.1 plan.2.2)
  let terminal ← trackTerminalChunk waited false
  let response ← callSession .snapshot
  setSnapshot (some response)
  broadcastSnapshot task
  if !terminal.1.isEmpty then
    modify fun s => s.broadcast task (.terminal terminal.1 terminal.2 false)

def advanceInput (plan : AdvancePlan) : Action Unit := do
  let result ← advanceUntilTerminalActivity task plan task.generation
  if 0 < result.1 then broadcastSnapshot task
  if !result.2.1.isEmpty then
    modify fun s => s.broadcast task (.terminal result.2.1 result.2.2 false)

def terminalInput (text : List Char) : Action Unit := do
  assertGeneration task.generation
  let _ ← requireSessionLoaded
  let _ ← callSession (.uartInput text)
  assertGeneration task.generation
  let s ← get
  if s.runTimer ≠ none then
    let _ ← syncTerminalDelta task none false true task.generation
  else
    match buildTerminalCommandWaitPlan s text, buildTerminalAdvancePlan text with
    | some plan, _ => awaitCommandText task plan
    | none, some plan => advanceInput task plan
    | none, none => let _ ← syncTerminalDelta task none false true task.generation

def terminalOutput (offset : ℕ) : Action Unit := do
  assertGeneration task.generation
  let _ ← requireSessionLoaded
  let _ ← readTerminalOutput offset task.generation

def jitDispatch : Action Unit := do
  assertGeneration task.generation
  let _ ← requireSessionLoaded
  let _ ← callSession .jitDispatch
  assertGeneration task.generation

def tick (loop : RunLoop) : Action Unit := do
  assertGeneration loop.generation
  let s ← get
  if s.currentSession = none ∨ loop.token ≠ s.runLoopToken then pure ()
  else
    let response ← callSession .stepCycle
    setSnapshot (some response)
    assertGeneration loop.generation
    broadcastSnapshot task
    let _ ← syncTerminalDelta task none false true loop.generation
    let s ← get
    if s.currentSnapshot.any (·.halted) || s.currentSnapshot.any (·.breakpoint) then
      modify DebugRuntime.stopRunLoop

/-- `close` is not queued: its session closes at the call, and the fields are cleared after. -/
def close : Action Unit := do
  modify DebugRuntime.stopRunLoop
  let s ← get
  match s.currentSession with
  | none => pure ()
  | some id =>
    modify fun s => s.markClosed id
    let _ ← call (.session id .close)
    modify fun s => { s with currentSession := none }
  modify fun s => { s with currentEntry := none, currentBackend := "pipeline" }

/-- The queued part of an action; `pause` only stops the loop, at its call. -/
def program : Action Unit :=
  match task.kind with
  | .tick loop => tick task loop
  | .call (.load entry backend) => load task entry backend
  | .call .snapshot => snapshot task
  | .call .stepCycle => stepCycle task
  | .call .stepCommit => stepCommit task
  | .call (.debugCommand command) => debugCommand task command
  | .call .reset => reset task
  | .call .terminate => terminate task
  | .call (.run rateHz) => run task rateHz
  | .call (.terminalInput text) => terminalInput task text
  | .call (.terminalOutput offset) => terminalOutput task offset
  | .call .jitDispatch => jitDispatch task
  | .call .pause => pure ()
  | .call .close => close

end Action

end VisualCpu
