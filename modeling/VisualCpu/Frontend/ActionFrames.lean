import VisualCpu.Frontend.DebugRuntime

/-!
# What actions leave alone

The actions other than `load`, `terminate` and `run` change the snapshot, the terminal and
the broadcasts, and a tick may stop its loop. That is shown once, for every relation that
allows these changes.
-/

namespace VisualCpu

open Coroutine (Every)

/-- A relation on states that allows an action to show what the session answered. -/
structure AllowsShow (R : DebugRuntime → DebugRuntime → Prop) (task : Task) : Prop where
  refl : ∀ s, R s s
  screen : ∀ s snapshot projection offset, R s
    { s with
      currentSnapshot := snapshot
      currentTerminalProjection := projection
      currentTerminalOffset := offset }
  broadcast : ∀ s message, R s (s.broadcast task message)

namespace Action

variable {R : DebugRuntime → DebugRuntime → Prop} {Q : RuntimeRequest → Prop} {task : Task}

theorem assertGeneration_every (h : AllowsShow R task) (generation : ℕ) :
    Every R Q (assertGeneration generation) := by
  refine (Every.get h.refl).bind fun s => ?_
  split
  · trivial
  · trivial

theorem requireSessionLoaded_every (h : AllowsShow R task) : Every R Q requireSessionLoaded := by
  refine (Every.get h.refl).bind fun s => ?_
  split
  · trivial
  · trivial

theorem normalizeCliResponse_every (response : SessionResponse) (context : String) :
    Every R Q (normalizeCliResponse response context) := by
  unfold normalizeCliResponse
  split
  · split <;> trivial
  · trivial

theorem callOn_every (id : ℕ) (method : SessionCall) (hQ : Q (.session id method)) :
    Every R Q (callOn id method) := by
  exact (Every.call hQ).bind fun response => normalizeCliResponse_every response _

section

variable (h : AllowsShow R task)

include h

theorem callSession_every (method : SessionCall)
    (hQ : ∀ id, Q (.session id method)) : Every R Q (callSession method) := by
  exact (requireSessionLoaded_every h).bind fun id => callOn_every id method (hQ id)

theorem setSnapshot_every (snapshot : Option SessionResponse) : Every R Q (setSnapshot snapshot) :=
  Every.modify fun s => h.screen s snapshot _ _

theorem broadcastSnapshot_every : Every R Q (broadcastSnapshot task) :=
  Every.modify fun s => h.broadcast s _

theorem trackTerminalChunk_every (chunk : SessionResponse)
    (reset : Bool) : Every R Q (trackTerminalChunk chunk reset) := by
  refine (Every.get h.refl).bind fun s => ?_
  exact (Every.modify fun s => h.screen s _ _ _).bind fun _ => trivial

theorem readTerminalOutput_every (offset generation : ℕ)
    (hQ : ∀ id offset, Q (.session id (.uartOutput offset))) :
    Every R Q (readTerminalOutput offset generation) := by
  refine (callSession_every h _ fun id => hQ id offset).bind fun chunk => ?_
  exact (assertGeneration_every h generation).bind fun _ => trivial

theorem syncTerminalDelta_every (offset : Option ℕ) (reset isBroadcast : Bool) (generation : ℕ)
    (hQ : ∀ id offset, Q (.session id (.uartOutput offset))) :
    Every R Q (syncTerminalDelta task offset reset isBroadcast generation) := by
  refine (Every.get h.refl).bind fun s => ?_
  refine (readTerminalOutput_every h _ _ hQ).bind fun chunk => ?_
  refine (trackTerminalChunk_every h chunk reset).bind fun message => ?_
  split
  · exact (Every.modify fun s => h.broadcast s _).bind fun _ => trivial
  · trivial

theorem advanceRounds_every (plan : AdvancePlan) (generation : ℕ)
    (hQ : ∀ id method, Q (.session id method)) (rounds commits : ℕ) (output : List Char)
    (nextOffset : ℕ) (sawOutput : Bool) (quietCommits : ℕ) :
    Every R Q (advanceRounds task plan generation rounds commits output nextOffset sawOutput
      quietCommits) := by
  induction rounds generalizing commits output nextOffset sawOutput quietCommits with
  | zero => trivial
  | succ rounds ih =>
    refine (assertGeneration_every h generation).bind fun _ => ?_
    refine (Every.get h.refl).bind fun s => ?_
    split
    · trivial
    refine (Every.call (hQ _ _)).bind fun response => ?_
    refine (setSnapshot_every h _).bind fun _ => ?_
    refine (assertGeneration_every h generation).bind fun _ => ?_
    refine Every.bind (syncTerminalDelta_every h none false false generation
      fun id offset => hQ id _) fun terminal => ?_
    refine (Every.get h.refl).bind fun s => ?_
    exact Every.ite trivial (ih _ _ _ _ _)

section

variable (hQ : ∀ id method, Q (.session id method))

include hQ

theorem snapshot_every : Every R Q (snapshot task) := by
  refine (assertGeneration_every h _).bind fun _ => ?_
  refine (requireSessionLoaded_every h).bind fun _ => ?_
  refine (callSession_every h _ fun id => hQ id _).bind fun response => ?_
  refine (setSnapshot_every h _).bind fun _ => ?_
  exact assertGeneration_every h _

theorem stepSession_every (method : SessionCall) : Every R Q (stepSession task method) := by
  refine (assertGeneration_every h _).bind fun _ => ?_
  refine (requireSessionLoaded_every h).bind fun _ => ?_
  refine (callSession_every h _ fun id => hQ id _).bind fun response => ?_
  refine (setSnapshot_every h _).bind fun _ => ?_
  refine (assertGeneration_every h _).bind fun _ => ?_
  refine (broadcastSnapshot_every h).bind fun _ => ?_
  exact (syncTerminalDelta_every h _ _ _ _ fun id _ => hQ id _).bind fun _ => trivial

theorem debugCommand_every (command : DebugCommand) : Every R Q (debugCommand task command) := by
  have hlast : Every R Q (do
      let response ← callSession .snapshot
      setSnapshot (some response)
      assertGeneration task.generation
      broadcastSnapshot task : Action Unit) := by
    refine (callSession_every h _ fun id => hQ id _).bind fun response => ?_
    refine (setSnapshot_every h _).bind fun _ => ?_
    refine (assertGeneration_every h _).bind fun _ => ?_
    exact broadcastSnapshot_every h
  refine (assertGeneration_every h _).bind fun _ => ?_
  refine (requireSessionLoaded_every h).bind fun _ => ?_
  cases command with
  | setMemory addr value size isVirtual =>
    exact (callSession_every h _ fun id => hQ id _).bind fun _ => hlast
  | setCsr csr value => exact (callSession_every h _ fun id => hQ id _).bind fun _ => hlast
  | breakAt addr => exact (callSession_every h _ fun id => hQ id _).bind fun _ => hlast
  | unsupported cmd => trivial

end

end

theorem bootSnapshot_every (id : ℕ) (entry : DebugEntry)
    (hQ : ∀ method, Q (.session id method)) : Every R Q (bootSnapshot id entry) := by
  exact Every.ite (callOn_every id _ (hQ _)) (callOn_every id _ (hQ _))

section

variable (h : AllowsShow R task)

include h

section

variable (hQ : ∀ id method, Q (.session id method))

include hQ

theorem rearm_every : Every R Q (rearm task) := by
  refine (Every.get h.refl).bind fun s => ?_
  split
  · refine Every.bind ?_ fun nextState => ?_
    · refine (bootSnapshot_every _ _ (hQ _)).bind fun snapshot => ?_
      exact (callOn_every _ _ (hQ _ _)).bind fun _ => trivial
    refine (assertGeneration_every h _).bind fun _ => ?_
    refine (Every.modify fun s => h.screen s _ _ _).bind fun _ => ?_
    refine (broadcastSnapshot_every h).bind fun _ => ?_
    exact Every.modify fun s => h.broadcast s _
  · trivial

theorem reset_every : Every R Q (reset task) := by
  refine (assertGeneration_every h _).bind fun _ => ?_
  refine (requireSessionLoaded_every h).bind fun _ => ?_
  refine (callSession_every h _ fun id => hQ id _).bind fun response => ?_
  refine (setSnapshot_every h _).bind fun _ => ?_
  refine (assertGeneration_every h _).bind fun _ => ?_
  refine (Every.modify fun s => h.screen s s.currentSnapshot _ _).bind fun _ => ?_
  refine (Every.get h.refl).bind fun s => ?_
  refine Every.ite (rearm_every h hQ) ?_
  refine (broadcastSnapshot_every h).bind fun _ => ?_
  exact (syncTerminalDelta_every h _ _ _ _ fun id _ => hQ id _).bind fun _ => trivial

theorem awaitCommandText_every
    (plan : List Char × ℕ × Option ℕ) : Every R Q (awaitCommandText task plan) := by
  refine (Every.get h.refl).bind fun s => ?_
  refine (callSession_every h _ fun id => hQ id _).bind fun waited => ?_
  refine (trackTerminalChunk_every h _ _).bind fun terminal => ?_
  refine (callSession_every h _ fun id => hQ id _).bind fun response => ?_
  refine (setSnapshot_every h _).bind fun _ => ?_
  refine (broadcastSnapshot_every h).bind fun _ => ?_
  exact Every.ite (Every.modify fun s => h.broadcast s _) trivial

theorem advanceInput_every (plan : AdvancePlan) : Every R Q (advanceInput task plan) := by
  refine Every.bind ?_ fun result => ?_
  · refine (Every.get h.refl).bind fun s => ?_
    exact advanceRounds_every h plan _ hQ _ _ _ _ _ _
  have hlast : Every R Q (if !result.2.1.isEmpty then
      Coroutine.modify fun s => s.broadcast task (.terminal result.2.1 result.2.2 false)
    else pure () : Action Unit) := Every.ite (Every.modify fun s => h.broadcast s _) trivial
  exact Every.ite ((broadcastSnapshot_every h).bind fun _ => hlast) hlast

theorem terminalInput_every (text : List Char) : Every R Q (terminalInput task text) := by
  have hsync : ∀ generation, Every R Q (do
      let _ ← syncTerminalDelta task none false true generation : Action Unit) := by
    intro generation
    exact (syncTerminalDelta_every h _ _ _ _ fun id _ => hQ id _).bind fun _ => trivial
  refine (assertGeneration_every h _).bind fun _ => ?_
  refine (requireSessionLoaded_every h).bind fun _ => ?_
  refine (callSession_every h _ fun id => hQ id _).bind fun _ => ?_
  refine (assertGeneration_every h _).bind fun _ => ?_
  refine (Every.get h.refl).bind fun s => ?_
  refine Every.ite (hsync _) ?_
  split
  · exact awaitCommandText_every h hQ _
  · exact advanceInput_every h hQ _
  · exact hsync _

theorem terminalOutput_every (offset : ℕ) : Every R Q (terminalOutput task offset) := by
  refine (assertGeneration_every h _).bind fun _ => ?_
  refine (requireSessionLoaded_every h).bind fun _ => ?_
  exact (readTerminalOutput_every h _ _ fun id _ => hQ id _).bind fun _ => trivial

theorem jitDispatch_every : Every R Q (jitDispatch task) := by
  refine (assertGeneration_every h _).bind fun _ => ?_
  refine (requireSessionLoaded_every h).bind fun _ => ?_
  exact (callSession_every h _ fun id => hQ id _).bind fun _ => assertGeneration_every h _

end

end

/-- What a tick does after its step was answered. -/
def afterStepCycle (task : Task) (loop : RunLoop) (response : SessionResponse) : Action Unit := do
  setSnapshot (some response)
  assertGeneration loop.generation
  broadcastSnapshot task
  let _ ← syncTerminalDelta task none false true loop.generation
  let s ← Coroutine.get
  if s.currentSnapshot.any (·.halted) || s.currentSnapshot.any (·.breakpoint) then
    Coroutine.modify DebugRuntime.stopRunLoop

theorem afterStepCycle_every (h : AllowsShow R task) (hstop : ∀ s, R s s.stopRunLoop)
    (hQ : ∀ id offset, Q (.session id (.uartOutput offset))) (loop : RunLoop)
    (response : SessionResponse) : Every R Q (afterStepCycle task loop response) := by
  refine (setSnapshot_every h _).bind fun _ => ?_
  refine (assertGeneration_every h _).bind fun _ => ?_
  refine (broadcastSnapshot_every h).bind fun _ => ?_
  refine (syncTerminalDelta_every h _ _ _ _ hQ).bind fun _ => ?_
  refine (Every.get h.refl).bind fun s => ?_
  exact Every.ite (Every.modify hstop) trivial

theorem tick_eq (task : Task) (loop : RunLoop) : tick task loop = (do
    assertGeneration loop.generation
    let s ← Coroutine.get
    if s.currentSession = none ∨ loop.token ≠ s.runLoopToken then pure ()
    else
      let response ← callSession .stepCycle
      afterStepCycle task loop response) := rfl

theorem tick_every (h : AllowsShow R task) (hstop : ∀ s, R s s.stopRunLoop)
    (hQ : ∀ id method, Q (.session id method)) (loop : RunLoop) :
    Every R Q (tick task loop) := by
  rw [tick_eq]
  refine (assertGeneration_every h _).bind fun _ => ?_
  refine (Every.get h.refl).bind fun s => ?_
  refine Every.ite trivial ?_
  refine (callSession_every h _ fun id => hQ id _).bind fun response => ?_
  exact afterStepCycle_every h hstop (fun id _ => hQ id _) loop response

def onlyShows : TaskKind → Bool
  | .call (.load _ _) | .call .terminate | .call (.run _) | .call .close => false
  | _ => true

theorem showProgram_every (h : AllowsShow R task) (hstop : ∀ s, R s s.stopRunLoop)
    (hQ : ∀ id method, Q (.session id method)) (hkind : onlyShows task.kind) :
    Every R Q (program task) := by
  unfold program
  cases htask : task.kind with
  | tick loop => exact tick_every h hstop hQ loop
  | call call =>
    rw [htask] at hkind
    cases call with
    | snapshot => exact snapshot_every h hQ
    | stepCycle => exact stepSession_every h hQ _
    | stepCommit => exact stepSession_every h hQ _
    | debugCommand command => exact debugCommand_every h hQ command
    | reset => exact reset_every h hQ
    | terminalInput text => exact terminalInput_every h hQ text
    | terminalOutput offset => exact terminalOutput_every h hQ offset
    | jitDispatch => exact jitDispatch_every h hQ
    | pause => trivial
    | load entry backend => cases hkind
    | terminate => cases hkind
    | run rateHz => cases hkind
    | close => cases hkind

/-- Generation, token and timers are the same. -/
structure SameLoop (s s' : DebugRuntime) : Prop where
  generation : s'.currentGeneration = s.currentGeneration
  token : s'.runLoopToken = s.runLoopToken
  timers : s'.timers = s.timers
  runTimer : s'.runTimer = s.runTimer

/-- A relation that looks neither at the sessions nor at the screen. -/
def IgnoresSessions (R : DebugRuntime → DebugRuntime → Prop) : Prop :=
  ∀ s s', s'.broadcasts = s.broadcasts → SameLoop s s' → R s s'

theorem closeQuietly_every (hR : IgnoresSessions R) (id : ℕ) (hQ : Q (.session id .close)) :
    Every R Q (closeQuietly id) := by
  refine Every.bind (Every.modify fun s => hR _ _ rfl ⟨rfl, rfl, rfl, rfl⟩) fun _ => ?_
  refine Every.tryCatch ?_ fun _ => trivial
  exact (Every.call hQ).bind fun _ => trivial

theorem callAll_every (id : ℕ) (methods : List SessionCall)
    (hQ : ∀ method, Q (.session id method)) : Every R Q (callAll id methods) := by
  induction methods with
  | nil => trivial
  | cons method methods ih => exact (callOn_every id method (hQ _)).bind fun _ => ih

theorem initializeSessionState_every (id : ℕ) (entry : DebugEntry) (backend : String)
    (hQ : ∀ method, Q (.session id method)) :
    Every R Q (initializeSessionState id entry backend) := by
  refine (callOn_every id _ (hQ _)).bind fun _ => ?_
  iterate 2 refine (callAll_every id _ hQ).bind fun _ => ?_
  refine (bootSnapshot_every id entry hQ).bind fun snapshot => ?_
  exact (callOn_every id _ (hQ _)).bind fun _ => trivial

section

variable (h : AllowsShow R task)

include h

section

variable (hR : IgnoresSessions R)

include hR

theorem prepareSession_every
    (hQ : ∀ request, Q request) (generation : ℕ) (entry : DebugEntry) (backend : String) :
    Every R Q (prepareSession generation entry backend) := by
  refine Every.bind ?_ fun id => ?_
  · refine (Every.call (hQ _)).bind fun _ => ?_
    refine (Every.get h.refl).bind fun s => ?_
    exact Every.bind (Every.modify fun s => hR _ _ rfl ⟨rfl, rfl, rfl, rfl⟩) fun _ => trivial
  refine Every.tryCatch ?_ fun error => ?_
  · refine (initializeSessionState_every id entry backend fun _ => hQ _).bind fun _ => ?_
    exact (assertGeneration_every h _).bind fun _ => trivial
  · exact (closeQuietly_every hR id (hQ _)).bind fun _ => trivial

theorem load_every (hQ : ∀ request, Q request)
    (entry : DebugEntry) (backend : String) : Every R Q (load task entry backend) := by
  refine (Every.get h.refl).bind fun s => ?_
  refine (assertGeneration_every h _).bind fun _ => ?_
  refine (prepareSession_every h hR hQ _ entry backend).bind fun nextState => ?_
  refine Every.bind ?_ fun _ => ?_
  · refine Every.bind (Every.modify fun s => hR _ _ rfl ⟨rfl, rfl, rfl, rfl⟩) fun _ => ?_
    refine (broadcastSnapshot_every h).bind fun _ => ?_
    exact Every.modify fun s => h.broadcast s _
  · split
    · trivial
    · exact (closeQuietly_every hR _ (hQ _)).bind fun _ => assertGeneration_every h _

theorem terminate_every (hQ : ∀ request, Q request) : Every R Q (terminate task) := by
  refine (assertGeneration_every h _).bind fun _ => ?_
  refine (requireSessionLoaded_every h).bind fun id => ?_
  refine Every.bind (Every.modify fun s => hR _ _ rfl ⟨rfl, rfl, rfl, rfl⟩) fun _ => ?_
  refine (Every.modify fun s => h.broadcast s _).bind fun _ => ?_
  exact (closeQuietly_every hR id (hQ _)).bind fun _ => assertGeneration_every h _

theorem program_every (hstop : ∀ s, R s s.stopRunLoop) (hQ : ∀ request, Q request)
    (hrun : ∀ rateHz, task.kind ≠ .call (.run rateHz)) (hclose : task.kind ≠ .call .close) :
    Every R Q (program task) := by
  by_cases hshows : onlyShows task.kind
  · exact showProgram_every h hstop (fun _ _ => hQ _) hshows
  unfold program
  cases hkind : task.kind with
  | tick loop => exact absurd (by rw [hkind]; rfl) hshows
  | call call =>
    cases call with
    | load entry backend => exact load_every h hR hQ entry backend
    | terminate => exact terminate_every h hR hQ
    | run rateHz => exact absurd hkind (hrun rateHz)
    | close => exact absurd hkind hclose
    | _ => exact absurd (by rw [hkind]; rfl) hshows

end

end

end Action

end VisualCpu
