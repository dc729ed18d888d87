import Mathlib.Data.Int.Notation
import Mathlib.Data.List.Basic

/-!
# The debug CLI session

Requests are written to a child process one line each and its lines are matched with them
first in, first out. Beside the session stands the child: what it received, the lines it has
printed and how many of their characters have arrived, so every cut of its output into
chunks is a run.
-/

namespace VisualCpu

inductive Settlement (Json : Type)
  | resolved (response : Json)
  | rejected (message : String)
deriving DecidableEq

/-- `timers` holds the armed timeouts with the message each would give, `settled` the calls
of `resolve` and `reject` so far. -/
structure DebugCliSession (Json : Type) where
  pending : List ℕ
  timers : List (ℕ × String)
  unavailableError : Option String
  closePromise : Bool
  stdoutBuffer : List Char
  settled : List (ℕ × Settlement Json)

/-- White space and line ends that `trim` removes. -/
def isTrimmed (c : Char) : Bool :=
  c ∈ ['\t', '\n', '\x0b', '\x0c', '\r', ' ', '\u00a0', '\u1680', '\u2028', '\u2029', '\u202f',
    '\u205f', '\u3000', '\ufeff'] || ('\u2000' ≤ c && c ≤ '\u200a')

def trim (line : List Char) : List Char :=
  (((line.dropWhile isTrimmed).reverse).dropWhile isTrimmed).reverse

def Blank (line : List Char) : Prop := trim line = []

instance (line : List Char) : Decidable (Blank line) := inferInstanceAs (Decidable (_ = _))

/-- The lines that end in a buffer after the characters `front`, and what remains. -/
def scanLines (front : List Char) : List Char → List (List Char) × List Char
  | [] => ([], front)
  | c :: rest =>
    if c = '\n' then (front :: (scanLines [] rest).1, (scanLines [] rest).2)
    else scanLines (front ++ [c]) rest

namespace DebugCliSession

variable {Json : Type}

def init : DebugCliSession Json where
  pending := []
  timers := []
  unavailableError := none
  closePromise := false
  stdoutBuffer := []
  settled := []

def buildExitError (reason : String) (code : Option ℤ) (signal : Option String) : String :=
  match signal, code with
  | some signal, _ => "debug cli " ++ reason ++ " with signal " ++ signal
  | none, none => "debug cli " ++ reason
  | none, some code => "debug cli " ++ reason ++ " with code " ++ toString code

variable (session : DebugCliSession Json)

def clearTimeout (id : ℕ) : DebugCliSession Json :=
  { session with timers := session.timers.filter fun timer => timer.1 ≠ id }

def settle (id : ℕ) (outcome : Settlement Json) :
    DebugCliSession Json :=
  { session with settled := session.settled ++ [(id, outcome)] }

def teardown (error : String) : DebugCliSession Json :=
  match session.unavailableError with
  | some _ => session
  | none =>
    session.pending.foldl (fun session id => (session.clearTimeout id).settle id (.rejected error))
      { session with unavailableError := some error, pending := [] }

variable (parse : List Char → Except String Json)

/-- `JSON.parse` of the trimmed line, or its error. -/
def lineSettlement (line : List Char) : Settlement Json :=
  match parse (trim line) with
  | .ok response => .resolved response
  | .error message => .rejected ("debug cli returned invalid JSON: " ++ message)

def flushLine (session : DebugCliSession Json)
    (line : List Char) : DebugCliSession Json :=
  if Blank line then session
  else
    match session.pending with
    | [] => session
    | id :: rest =>
      (({ session with pending := rest } : DebugCliSession Json).clearTimeout id).settle id
        (lineSettlement parse line)

def flushLines (session : DebugCliSession Json) :
    DebugCliSession Json :=
  (scanLines [] session.stdoutBuffer).1.foldl (flushLine parse)
    { session with stdoutBuffer := (scanLines [] session.stdoutBuffer).2 }

/-- The `data` event of the child's standard output. -/
def onData (session : DebugCliSession Json)
    (chunk : List Char) : DebugCliSession Json :=
  ({ session with stdoutBuffer := session.stdoutBuffer ++ chunk } :
    DebugCliSession Json).flushLines parse

/-- `timeoutMs` is `none` when it is not finite or not positive; `thrown` is the error of a
write that throws. -/
def send (id : ℕ) (commandName : Option String)
    (timeoutMs : Option ℕ) (thrown : Option String) : DebugCliSession Json :=
  match session.unavailableError with
  | some error => session.settle id (.rejected error)
  | none =>
    let armed : DebugCliSession Json :=
      match timeoutMs with
      | none => session
      | some timeoutMs =>
        { session with
          timers := session.timers ++ [(id, "debug cli " ++ commandName.getD "request" ++
            " timed out after " ++ toString timeoutMs ++ "ms")] }
    let pushed : DebugCliSession Json := { armed with pending := armed.pending ++ [id] }
    match thrown with
    | none => pushed
    | some message =>
      ({ pushed.clearTimeout id with pending := pushed.pending.erase id } :
        DebugCliSession Json).settle id (.rejected ("debug cli write failed: " ++ message))

def onTimeout (id : ℕ) : DebugCliSession Json :=
  match session.timers.find? fun timer => timer.1 = id with
  | none => session
  | some timer =>
    if session.unavailableError.isSome then session.clearTimeout id
    else (session.clearTimeout id).teardown timer.2

/-- The part of `close` that touches the session; a second call only waits for the first. -/
def close : DebugCliSession Json :=
  if session.closePromise then session
  else ({ session with closePromise := true } : DebugCliSession Json).teardown
    "debug cli session closed"

end DebugCliSession

inductive ChildCommand
  | request (id : ℕ)
  | quit
deriving DecidableEq

/-- Requests are numbered by their `send` calls. `written` are those whose write did not
throw, `lines` the lines with text received before the teardown, `received` the commands of
the child, `output` the lines it printed and `delivered` how many characters of them arrived. -/
structure DebugCliWorld (Json : Type) where
  session : DebugCliSession Json
  sent : ℕ
  written : List ℕ
  lines : List (List Char)
  received : List ChildCommand
  output : List (List Char)
  delivered : ℕ
  stdinOpen : Bool

/-- What can happen next: a call, a line printed by the child, characters of its output
arriving, a timer, the end of the child, the loss of its standard input. -/
inductive DebugCliEvent
  | send (commandName : Option String) (timeoutMs : Option ℕ) (thrown : Option String)
  | answer (line : List Char)
  | blankLine (line : List Char)
  | data (length : ℕ)
  | timeout (id : ℕ)
  | exited (code : Option ℤ) (signal : Option String)
  | closed (code : Option ℤ) (signal : Option String)
  | stdinError | close

def outputText (output : List (List Char)) : List Char :=
  (output.map (· ++ ['\n'])).flatten

/-- The lines with text: the child's answers. -/
def answers (output : List (List Char)) : List (List Char) :=
  output.filter fun line => ¬ Blank line

namespace DebugCliWorld

variable {Json : Type} (parse : List Char → Except String Json)

def init : DebugCliWorld Json where
  session := DebugCliSession.init
  sent := 0
  written := []
  lines := []
  received := []
  output := []
  delivered := 0
  stdinOpen := true

variable (world : DebugCliWorld Json)

/-- The next characters of the output, at most `length` of them. -/
def chunk (length : ℕ) : List Char :=
  ((outputText world.output).drop world.delivered).take length

/-- The child answers a command it received with one line, and prints nothing else but blank
lines. -/
def step : DebugCliEvent → DebugCliWorld Json
  | .send commandName timeoutMs thrown =>
    let accepted := world.session.unavailableError.isNone && thrown.isNone
    { world with
      session := world.session.send world.sent commandName timeoutMs thrown
      sent := world.sent + 1
      written := if accepted then world.written ++ [world.sent] else world.written
      received := if accepted && world.stdinOpen then world.received ++ [.request world.sent]
        else world.received }
  | .answer line =>
    if (answers world.output).length < world.received.length ∧ ¬ Blank line ∧ '\n' ∉ line then
      { world with output := world.output ++ [line] }
    else world
  | .blankLine line =>
    if Blank line ∧ '\n' ∉ line then { world with output := world.output ++ [line] } else world
  | .data length =>
    { world with
      session := world.session.onData parse (world.chunk length)
      delivered := world.delivered + (world.chunk length).length
      lines :=
        if world.session.unavailableError.isNone then
          world.lines ++
            answers (scanLines [] (world.session.stdoutBuffer ++ world.chunk length)).1
        else world.lines }
  | .timeout id => { world with session := world.session.onTimeout id }
  | .exited code signal =>
    { world with
      session := world.session.teardown (DebugCliSession.buildExitError "exited" code signal) }
  | .closed code signal =>
    { world with
      session := world.session.teardown (DebugCliSession.buildExitError "closed" code signal) }
  | .stdinError => { world with stdinOpen := false }
  | .close =>
    { world with
      session := world.session.close
      received := if !world.session.closePromise && world.stdinOpen
        then world.received ++ [.quit] else world.received }

def run (events : List DebugCliEvent) : DebugCliWorld Json :=
  events.foldl (step parse) world

end DebugCliWorld

end VisualCpu
