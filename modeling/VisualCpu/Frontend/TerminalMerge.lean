import VisualCpu.Frontend.DebugRuntime

/-!
# Merging terminal output in a browser

The output of the guest reaches a browser as broadcast deltas, in the order in which they are
sent, and as answers to its own requests, at any time after. Both are chunks that carry their
end and whether they start the terminal over; the browser sees neither where a chunk begins
nor which session it was read from, which the model keeps beside it. Every load and every
reset starts a new stream of output.
-/

namespace VisualCpu

def maxTerminalBuffer : ℕ := 32768

/-- The fields of a browser's state that terminal output changes or is decided by. -/
structure BrowserTerminal where
  loadedSession : Bool
  projection : TerminalProjection
  buffer : List Char
  nextOffset : ℕ
  connected : Bool
deriving DecidableEq

namespace BrowserTerminal

/-- `createTerminalState`, for a browser with or without a session. -/
def createTerminalState (loadedSession : Bool) : BrowserTerminal where
  loadedSession := loadedSession
  projection := createTerminalProjectionState (some maxTerminalBuffer)
  buffer := []
  nextOffset := 0
  connected := false

def clearLoadedSession (_ : BrowserTerminal) : BrowserTerminal := createTerminalState false

def setLoadedSession (browser : BrowserTerminal) : BrowserTerminal :=
  { browser with loadedSession := true }

def appendTerminalOutput (browser : BrowserTerminal) (text : List Char) (nextOffset : ℕ)
    (reset : Bool) : BrowserTerminal :=
  if reset = false ∧ nextOffset ≤ browser.nextOffset then { browser with connected := true }
  else
    let start :=
      if reset then createTerminalProjectionState browser.projection.maxLength
      else browser.projection
    { browser with
      projection := start.applyTerminalChunk text
      buffer := (start.applyTerminalChunk text).text
      nextOffset := nextOffset
      connected := true }

end BrowserTerminal

/-- Terminal output on its way to a browser, which does not see `epoch` and `start`: the
stream it was read from and the place where it begins. -/
structure TerminalChunk where
  (epoch start : ℕ)
  text : List Char
  nextOffset : ℕ
  reset : Bool
deriving DecidableEq

/-- What a browser does with the answer to its request. -/
inductive ResponseKind
  | load | terminate | merge
deriving DecidableEq

/-- `output` gives the stream of every epoch, `messages` all broadcasts, of which the browser
has received the first `delivered`, and `responses` the answers that are still on their way.
`latest` is the last epoch that the browser was told of by a chunk that starts over. -/
structure TerminalWorld where
  epoch : ℕ
  output : ℕ → List Char
  runtime : DebugRuntime
  messages : List TerminalChunk
  delivered : ℕ
  responses : List (ResponseKind × TerminalChunk)
  browser : BrowserTerminal
  latest : ℕ

/-- `ours` marks the requests of the browser whose terminal is followed. A step stands for
`stepCycle`, `stepCommit` and the ticks of the run loop. An input gives the output of each
commit it waits for; if it fails, then after these. -/
inductive TerminalEvent
  | load (emitted : List Char) (ours : Bool)
  | reset (emitted : List Char) (fails ours : Bool)
  | step (emitted : List Char) (ours : Bool)
  | terminalInput (rounds : List (List Char)) (fails ours : Bool)
  | terminalOutput (offset : ℕ) (ours : Bool)
  | terminate (ours : Bool)
  | emit (emitted : List Char)
  | beginLoad | message
  | response (index : ℕ)

namespace TerminalWorld

def init : TerminalWorld where
  epoch := 0
  output := fun _ => []
  runtime := DebugRuntime.init
  messages := []
  delivered := 0
  responses := []
  browser := BrowserTerminal.createTerminalState false
  latest := 0

variable (world : TerminalWorld)

/-- The stream of the current session so far. -/
def stream : List Char := world.output world.epoch

variable (emitted : List Char)

/-- The guest writes to its UART. -/
def emit : TerminalWorld :=
  { world with
    output := fun epoch =>
      if epoch = world.epoch then world.output epoch ++ emitted else world.output epoch }

/-- A new machine, which has written the given output. -/
def startStream : TerminalWorld :=
  { world with
    epoch := world.epoch + 1
    output := fun epoch => if epoch = world.epoch + 1 then emitted else world.output epoch }

variable (offset : ℕ)

/-- The answer of the session to `uartOutput`. -/
def uartOutput : SessionResponse where
  isError := false
  message := none
  halted := false
  breakpoint := false
  text := world.stream.drop offset
  nextOffset := some world.stream.length

/-- What `uartOutput` reads, as a chunk. -/
def chunkFrom (reset : Bool) : TerminalChunk where
  epoch := world.epoch
  start := min offset world.stream.length
  text := (world.uartOutput offset).text
  nextOffset := world.runtime.nextOffset (world.uartOutput offset)
  reset := reset

variable (chunk : TerminalChunk)

def broadcast : TerminalWorld :=
  { world with messages := world.messages ++ [chunk] }

variable (ours : Bool)

/-- The answer to a request is sent when it was this browser's. -/
def respond (kind : ResponseKind) (chunk : TerminalChunk) : TerminalWorld :=
  if ours then { world with responses := world.responses ++ [(kind, chunk)] } else world

def trackTerminalChunk (reset : Bool) : TerminalWorld :=
  { world with runtime := world.runtime.trackTerminalChunk (world.uartOutput offset) reset }

def syncTerminalDelta (reset isBroadcast : Bool) : TerminalWorld × TerminalChunk :=
  let chunk := world.chunkFrom offset reset
  let tracked := world.trackTerminalChunk offset reset
  (if isBroadcast && (reset || !chunk.text.isEmpty) then tracked.broadcast chunk else tracked,
    chunk)

/-- The rounds of `advanceUntilTerminalActivity` with the text and the end so far. Waiting for
the text of a command is one such round. -/
def advanceRounds : TerminalWorld → List (List Char) → List Char → ℕ →
    TerminalWorld × List Char × ℕ
  | world, [], text, nextOffset => (world, text, nextOffset)
  | world, emitted :: rounds, text, nextOffset =>
    let grown := world.emit emitted
    let (synced, chunk) :=
      grown.syncTerminalDelta grown.runtime.currentTerminalOffset false false
    if chunk.text.isEmpty then advanceRounds synced rounds text nextOffset
    else advanceRounds synced rounds (text ++ chunk.text) chunk.nextOffset

def load : TerminalWorld :=
  let started := world.startStream emitted
  let response := started.uartOutput 0
  let published : TerminalWorld :=
    { started with
      runtime :=
        { started.runtime with
          currentSession := some started.epoch
          currentTerminalProjection :=
            (createTerminalProjectionState (some defaultTerminalMaxLength)).applyTerminalChunk
              response.text
          currentTerminalOffset := response.nextOffset.getD 0 } }
  let chunk := started.chunkFrom 0 true
  (published.broadcast chunk).respond ours .load chunk

/-- A reset that waits for the boot text again tracks and broadcasts the same chunk. -/
def reset (fails ours : Bool) : TerminalWorld :=
  let started := world.startStream emitted
  let tracked := { started with runtime := started.runtime.resetTerminalTracking }
  if fails then tracked
  else
    let (synced, chunk) := tracked.syncTerminalDelta 0 true true
    synced.respond ours .merge chunk

def step : TerminalWorld :=
  let grown := world.emit emitted
  let (synced, chunk) := grown.syncTerminalDelta grown.runtime.currentTerminalOffset false true
  synced.respond ours .merge chunk

def terminalInput (rounds : List (List Char)) (fails ours : Bool) : TerminalWorld :=
  let start := world.runtime.currentTerminalOffset
  let (advanced, text, nextOffset) := world.advanceRounds rounds [] start
  if fails then advanced
  else
    let chunk : TerminalChunk :=
      { epoch := world.epoch, start := start, text := text, nextOffset := nextOffset
        reset := false }
    (if text.isEmpty then advanced else advanced.broadcast chunk).respond ours .merge chunk

def terminalOutput : TerminalWorld :=
  world.respond ours .merge (world.chunkFrom offset false)

/-- `buildTerminalResetMessage` is the empty chunk at the start of the stream. -/
def terminate : TerminalWorld :=
  let chunk : TerminalChunk :=
    { epoch := world.epoch, start := 0, text := [], nextOffset := 0, reset := true }
  let ended :=
    { world with
      runtime := { world.runtime.resetTerminalTracking with currentSession := none } }
  (ended.broadcast chunk).respond ours .terminate chunk

/-- `mergeTerminal`. The chunks of a load carry `reset`, those of an input and of a read carry
none, and the default is what is modelled for them. -/
def mergeTerminal : TerminalWorld :=
  { world with
    browser := world.browser.appendTerminalOutput chunk.text chunk.nextOffset chunk.reset
    latest := if chunk.reset then max world.latest chunk.epoch else world.latest }

/-- The handler of terminal messages in `connectRealtime`. -/
def onTerminal : TerminalWorld :=
  if world.browser.loadedSession = false ∧ chunk.reset ∧ chunk.text = [] ∧
      chunk.nextOffset = 0 then
    { world with
      browser := world.browser.clearLoadedSession
      latest := max world.latest chunk.epoch }
  else world.mergeTerminal chunk

/-- What `handleLoad`, `handleTerminate`, `handleAction` and the input pump do with an answer. -/
def onResponse (kind : ResponseKind) (chunk : TerminalChunk) : TerminalWorld :=
  match kind with
  | .load => { world with browser := world.browser.setLoadedSession }.mergeTerminal chunk
  | .terminate => { world with browser := world.browser.clearLoadedSession }
  | .merge => world.mergeTerminal chunk

def withSession (action : TerminalWorld) : TerminalWorld :=
  match world.runtime.currentSession with
  | none => world
  | some _ => action

def next : TerminalEvent → TerminalWorld
  | .load emitted ours => world.load emitted ours
  | .reset emitted fails ours => world.withSession (world.reset emitted fails ours)
  | .step emitted ours => world.withSession (world.step emitted ours)
  | .terminalInput rounds fails ours =>
    world.withSession (world.terminalInput rounds fails ours)
  | .terminalOutput offset ours => world.withSession (world.terminalOutput offset ours)
  | .terminate ours => world.withSession (world.terminate ours)
  | .emit emitted => world.emit emitted
  | .beginLoad => { world with browser := world.browser.clearLoadedSession }
  | .message =>
    match world.messages[world.delivered]? with
    | none => world
    | some chunk => { world with delivered := world.delivered + 1 }.onTerminal chunk
  | .response index =>
    match world.responses[index]? with
    | none => world
    | some (kind, chunk) =>
      { world with responses := world.responses.eraseIdx index }.onResponse kind chunk

def run (events : List TerminalEvent) : TerminalWorld := events.foldl next world

end TerminalWorld

end VisualCpu
