import VisualCpu.Frontend.SessionOwnership

/-!
# Sessions over whole runs

Only a load creates a session, and only a load publishes one. A `close` looks at the current
session alone, so a load under way outlives it; in every run where the two do not overlap no
session is lost.
-/

namespace VisualCpu

open List RuntimeWorld Action Coroutine DebugRuntime Nat

open Coroutine (Every Holds)

/-- The sessions are the same. -/
structure SameSessions (s s' : DebugRuntime) : Prop where
  currentSession : s'.currentSession = s.currentSession
  created : s'.created = s.created
  closed : s'.closed = s.closed
  nextSession : s'.nextSession = s.nextSession

open SameSessions

/-- No session is lost: the current one stays, or it is closed. -/
structure SessionsKept (s s' : DebugRuntime) : Prop where
  created : s'.created = s.created
  nextSession : s.nextSession = none → s'.nextSession = none
  closed : ∀ id ∈ s.closed, id ∈ s'.closed
  current : s'.currentSession = s.currentSession ∨
    s'.currentSession = none ∧ ∀ id, s.currentSession = some id → id ∈ s'.closed

theorem SameSessions.refl (s : DebugRuntime) : SameSessions s s := ⟨rfl, rfl, rfl, rfl⟩

theorem SameSessions.trans (s s' s'' : DebugRuntime) (h : SameSessions s s')
    (h' : SameSessions s' s'') : SameSessions s s'' :=
  ⟨h'.currentSession.trans h.currentSession, h'.created.trans h.created,
    h'.closed.trans h.closed, h'.nextSession.trans h.nextSession⟩

theorem SameSessions.allowsShow (task : Task) : AllowsShow SameSessions task where
  refl := refl
  screen _ _ _ _ := ⟨rfl, rfl, rfl, rfl⟩
  broadcast _ _ := ⟨rfl, rfl, rfl, rfl⟩

variable {s s' : DebugRuntime}

theorem SameSessions.kept (h : SameSessions s s') : SessionsKept s s' :=
  ⟨h.created, fun hnone => h.nextSession.trans hnone, fun id hid => by rw [h.closed]; exact hid,
    Or.inl h.currentSession⟩

theorem Accounted.kept (h : Accounted s) (hnone : s.nextSession = none)
    (hkept : SessionsKept s s') : Accounted s' := by
  constructor
  · intro id hid
    rw [hkept.created] at hid
    rcases h.each id hid with hcurrent | hclosed | hnext
    · rcases hkept.current with hsame | ⟨_, hgone⟩
      · exact .inl (hsame.trans hcurrent)
      · exact .inr (.inl (hgone id hcurrent))
    · exact .inr (.inl (hkept.closed id hclosed))
    · rw [hnone] at hnext
      cases hnext
  · intro id hid
    rw [hkept.created]
    rcases hkept.current with hsame | ⟨hgone, _⟩
    · exact h.current id (hsame.symm.trans hid)
    rw [hgone] at hid
    cases hid

namespace RuntimeWorld

/-- No load waits in the queue or runs. -/
def NoLoads (world : RuntimeWorld) : Prop :=
  (∀ task ∈ world.queue, task.isLoad = false) ∧
    ∀ waiting ∈ world.running, waiting.task.isLoad = false

/-- A `close` is called while no load is under way, and a load while no `close` is. -/
def CloseClear (world : RuntimeWorld) : RuntimeEvent → Prop
  | .call .close => NoLoads world
  | .call call => call.isLoad = true → world.closing.isEmpty
  | _ => True

instance (world : RuntimeWorld) : Decidable (NoLoads world) :=
  have : Decidable (∀ waiting ∈ world.running, waiting.task.isLoad = false) :=
    match world.running with
    | none => .isTrue fun _ hnone => nomatch hnone
    | some waiting =>
      decidable_of_iff (waiting.task.isLoad = false)
        ⟨fun hload _ hsome => Option.some.inj hsome ▸ hload, fun hall => hall waiting rfl⟩
  instDecidableAnd

instance (world : RuntimeWorld) (event : RuntimeEvent) : Decidable (CloseClear world event) :=
  match event with
  | .call call =>
    match call with
    | .close => inferInstanceAs (Decidable (NoLoads world))
    | .load _ _ | .snapshot | .stepCycle | .stepCommit | .debugCommand _ | .reset | .terminate
    | .run _ | .terminalInput _ | .terminalOutput _ | .jitDispatch | .pause =>
      inferInstanceAs (Decidable (_ = true → world.closing.isEmpty))
  | .start | .respond _ | .timer _ | .continueTick | .closeResponds _ _ =>
    inferInstanceAs (Decidable True)

/-- A load that failed before it broadcast anything has left the session as it was. -/
def LoadKept (outcome : Outcome) : Prop :=
  outcome.task.isLoad → outcome.failed →
    LeftAlone outcome.task outcome.start outcome.finish

/-- What remains of a `close` when its session has answered. -/
def CloseRest (rest : Except RuntimeError SessionResponse → Action Unit) : Prop :=
  ∀ response s, ∃ result s', (rest response).advance s = (s', .done result) ∧
    s'.created = s.created ∧ s'.closed = s.closed ∧ s'.nextSession = s.nextSession ∧
    (s'.currentSession = s.currentSession ∨ s'.currentSession = none)

/-- The promises of the runtime about its sessions. -/
structure SessionsSound (world : RuntimeWorld) : Prop where
  settled : world.running = none → world.queue = [] → world.closing = [] →
    ∀ id, id < world.runtime.created →
      world.runtime.currentSession = some id ∨ id ∈ world.runtime.closed
  closedDown : ∀ task failed, .settled task failed ∈ world.log → task.kind = .call .close →
    (∀ n ∈ world.loads, n < task.number) → ∀ id, id < world.runtime.created →
      id ∈ world.runtime.closed
  failedLoads : ∀ outcome ∈ world.outcomes, LoadKept outcome
  generations : GenerationsOrdered world.runtime.broadcasts

/-- The invariant of the sessions, but for what the running action still does. -/
structure SessionCore (world : RuntimeWorld) : Prop where
  accounted : Accounted world.runtime
  idle : (∀ waiting ∈ world.running, waiting.task.isLoad = false) →
    world.runtime.nextSession = none
  loadsQueued : ∀ task ∈ world.queue, task.isLoad → task.number ∈ world.loads
  loadsCalled : ∀ n ∈ world.loads, n < world.calls
  notClose : ∀ task ∈ world.queue, task.kind ≠ .call .close
  closing : ∀ waiting ∈ world.closing, waiting.task.kind = .call .close ∧
    CloseRest waiting.rest ∧ waiting.task.number < world.calls
  closingQuiet : world.closing ≠ [] → NoLoads world ∧
    ∀ id, world.runtime.currentSession = some id → id ∈ world.runtime.closed
  closedDown : ∀ task failed, .settled task failed ∈ world.log → task.kind = .call .close →
    task.number < world.calls ∧ ((∀ n ∈ world.loads, n < task.number) → NoLoads world ∧
      ∀ id, id < world.runtime.created → id ∈ world.runtime.closed)
  outcomes : ∀ outcome ∈ world.outcomes, LoadKept outcome

/-- What the running action still does to the sessions. -/
structure RunningSound (s : DebugRuntime) (waiting : Waiting) : Prop where
  notClose : waiting.task.kind ≠ .call .close
  load : waiting.task.isLoad → ∀ response s', SameView s s' →
    Holds Accounted SameView (LoadPost waiting.task waiting.start) (waiting.rest response) s'
  other : waiting.task.isLoad = false → ∀ response,
    Every SameSessions (fun _ => True) (waiting.rest response)

structure SessionInvariant (world : RuntimeWorld) : Prop extends SessionCore world where
  running : ∀ waiting ∈ world.running, RunningSound world.runtime waiting

namespace SessionInvariant

variable {world : RuntimeWorld}

theorem init : SessionInvariant init := by
  refine ⟨⟨⟨?_, ?_⟩, ?_, ?_, ?_, ?_, ?_, ?_, ?_, ?_⟩, ?_⟩
  all_goals simp [RuntimeWorld.init, DebugRuntime.init]

theorem frame (h : SessionInvariant world) {world' : RuntimeWorld}
    (hsame : SameView world.runtime world'.runtime)
    (hqueue : ∀ task ∈ world'.queue,
      task ∈ world.queue ∨ task.isLoad = false ∧ task.kind ≠ .call .close)
    (hrunning : world'.running = world.running) (hcalls : world.calls ≤ world'.calls)
    (hloads : world'.loads = world.loads) (hclosing : ∀ w ∈ world'.closing, w ∈ world.closing)
    (hlog : world'.log = world.log) (houtcomes : world'.outcomes = world.outcomes) :
    SessionInvariant world' := by
  have hnoLoads : NoLoads world → NoLoads world' := by
    rintro ⟨hqueued, hrun⟩
    refine ⟨fun task htask => ?_, by rw [hrunning]; exact hrun⟩
    rcases hqueue task htask with hold | ⟨hnew, _⟩
    · exact hqueued task hold
    · exact hnew
  refine ⟨⟨h.accounted.sameView hsame, ?_, ?_, ?_, ?_, ?_, ?_, ?_,
    by rw [houtcomes]; exact h.outcomes⟩, ?_⟩
  · rw [hrunning, hsame.nextSession]
    exact h.idle
  · rw [hloads]
    intro task htask hload
    rcases hqueue task htask with hold | ⟨hnew, _⟩
    · exact h.loadsQueued task hold hload
    rw [hnew] at hload
    cases hload
  · rw [hloads]
    exact fun n hn => lt_of_lt_of_le (h.loadsCalled n hn) hcalls
  · intro task htask
    rcases hqueue task htask with hold | ⟨_, hnew⟩
    · exact h.notClose task hold
    · exact hnew
  · intro waiting hwaiting
    obtain ⟨hkind, hrest, hnumber⟩ := h.closing waiting (hclosing waiting hwaiting)
    exact ⟨hkind, hrest, lt_of_lt_of_le hnumber hcalls⟩
  · intro hne
    obtain ⟨waiting, hwaiting⟩ := exists_mem_of_ne_nil _ hne
    obtain ⟨hquiet, hclosed⟩ := h.closingQuiet (ne_nil_of_mem (hclosing waiting hwaiting))
    rw [hsame.currentSession, hsame.closed]
    exact ⟨hnoLoads hquiet, hclosed⟩
  · rw [hlog, hloads, hsame.created, hsame.closed]
    intro task failed hmem hkind
    obtain ⟨hnumber, hdown⟩ := h.closedDown task failed hmem hkind
    refine ⟨lt_of_lt_of_le hnumber hcalls, fun hall => ?_⟩
    obtain ⟨hquiet, hclosed⟩ := hdown hall
    exact ⟨hnoLoads hquiet, hclosed⟩
  · rw [hrunning]
    intro waiting hwaiting
    obtain ⟨hkind, hload, hother⟩ := h.running waiting hwaiting
    exact ⟨hkind, fun hisLoad response s' hs => hload hisLoad response s' (hsame.trans hs), hother⟩

section

variable (h : SessionCore world) {waiting : Waiting}

include h

theorem outcomes_append {outcome : Outcome} (hkept : LoadKept outcome) :
    ∀ other ∈ world.outcomes ++ [outcome], LoadKept other := by
  intro other hother
  rcases mem_append.1 hother with hold | hnew
  · exact h.outcomes other hold
  rw [mem_singleton.1 hnew]
  exact hkept

theorem closedDown_kept {s : DebugRuntime}
    (hkept : SessionsKept world.runtime s) {entry : LogEntry} {task : Task}
    (hentry : ∀ other failed, entry = .settled other failed → other = task)
    (htask : task.kind ≠ .call .close) :
    ∀ other failed, .settled other failed ∈ world.log ++ [entry] → other.kind = .call .close →
      other.number < world.calls ∧ ((∀ n ∈ world.loads, n < other.number) → NoLoads world ∧
        ∀ id, id < s.created → id ∈ s.closed) := by
  intro other failed hmem hkind
  rcases mem_append.1 hmem with hold | hnew
  · obtain ⟨hnumber, hdown⟩ := h.closedDown other failed hold hkind
    refine ⟨hnumber, fun hall => ?_⟩
    obtain ⟨hquiet, hclosed⟩ := hdown hall
    refine ⟨hquiet, fun id hid => hkept.closed id (hclosed id ?_)⟩
    rw [← hkept.created]
    exact hid
  · rw [hentry other failed (mem_singleton.1 hnew).symm] at hkind
    exact absurd hkind htask

theorem closingQuiet_kept {s : DebugRuntime}
    (hkept : SessionsKept world.runtime s) (hclosing : world.closing ≠ []) :
    NoLoads world ∧ ∀ id, s.currentSession = some id → id ∈ s.closed := by
  obtain ⟨hquiet, hclosed⟩ := h.closingQuiet hclosing
  refine ⟨hquiet, fun id hid => ?_⟩
  rcases hkept.current with hsame | ⟨hnone, _⟩
  · exact hkept.closed id (hclosed id (hsame.symm.trans hid))
  rw [hnone] at hid
  cases hid

theorem resume_other
    (hrunning : world.running = some waiting) (hload : waiting.task.isLoad = false)
    (hclose : waiting.task.kind ≠ .call .close) (start : DebugRuntime) (rest : Action Unit)
    (hkept : SessionsKept world.runtime (rest.advance world.runtime).1)
    (hwait : ∀ request next, (rest.advance world.runtime).2 = .waiting request next →
      ∀ response, Every SameSessions (fun _ => True) (next response)) :
    SessionInvariant (world.resume waiting.task start rest) := by
  have hnone : world.runtime.nextSession = none := by
    refine h.idle fun other hother => ?_
    rw [hrunning] at hother
    cases hother
    exact hload
  have hoff : ∀ s failed, LoadKept { task := waiting.task, start, failed, finish := s } := by
    intro s failed hisLoad
    rw [hload] at hisLoad
    cases hisLoad
  have haccounted := h.accounted.kept hnone hkept
  have hnext := hkept.nextSession hnone
  unfold RuntimeWorld.resume
  cases hadvance : rest.advance world.runtime with
  | mk s stopped =>
    rw [hadvance] at hkept hwait haccounted hnext
    cases stopped with
    | done result =>
      have hnoLoads : NoLoads world → ∀ world' : RuntimeWorld, world'.queue = world.queue →
          world'.running = none → NoLoads world' := by
        rintro ⟨hqueue, _⟩ world' hsame hnone
        refine ⟨by rw [hsame]; exact hqueue, fun other hother => ?_⟩
        rw [hnone] at hother
        cases hother
      refine ⟨⟨haccounted, fun _ => hnext, h.loadsQueued, h.loadsCalled, h.notClose, h.closing,
        fun hclosing => ?_, fun other failed hmem hkind => ?_, outcomes_append h (hoff _ _)⟩,
        fun other hother => (by cases hother)⟩
      · obtain ⟨hquiet, hclosed⟩ := closingQuiet_kept h hkept hclosing
        exact ⟨hnoLoads hquiet _ rfl rfl, hclosed⟩
      obtain ⟨hnumber, hdown⟩ := closedDown_kept h hkept
        (fun other failed heq => by cases heq; rfl) hclose other failed hmem hkind
      refine ⟨hnumber, fun hall => ?_⟩
      obtain ⟨hquiet, hclosed⟩ := hdown hall
      exact ⟨hnoLoads hquiet _ rfl rfl, hclosed⟩
    | waiting request next =>
      have hnoLoads : NoLoads world → ∀ world' : RuntimeWorld, world'.queue = world.queue →
          world'.running = some { task := waiting.task, start, request, rest := next } →
          NoLoads world' := by
        rintro ⟨hqueue, _⟩ world' hsame hsome
        refine ⟨by rw [hsame]; exact hqueue, fun other hother => ?_⟩
        rw [hsome] at hother
        cases hother
        exact hload
      refine ⟨⟨haccounted, fun _ => hnext, h.loadsQueued, h.loadsCalled, h.notClose, h.closing,
        fun hclosing => ?_, fun other failed hmem hkind => ?_, h.outcomes⟩,
        fun other hother => ?_⟩
      · obtain ⟨hquiet, hclosed⟩ := closingQuiet_kept h hkept hclosing
        exact ⟨hnoLoads hquiet _ rfl rfl, hclosed⟩
      · obtain ⟨hnumber, hdown⟩ := closedDown_kept h hkept
          (fun other failed heq => by cases heq) hclose other failed hmem hkind
        refine ⟨hnumber, fun hall => ?_⟩
        obtain ⟨hquiet, hclosed⟩ := hdown hall
        exact ⟨hnoLoads hquiet _ rfl rfl, hclosed⟩
      · cases hother
        exact ⟨hclose, fun hisLoad => (by rw [hload] at hisLoad; cases hisLoad),
          fun _ => hwait request next rfl⟩

theorem resume_load
    (hrunning : world.running = some waiting) (hload : waiting.task.isLoad)
    (hclose : waiting.task.kind ≠ .call .close) (start : DebugRuntime) (rest : Action Unit)
    (hrest : Holds Accounted SameView (LoadPost waiting.task start) rest world.runtime) :
    SessionInvariant (world.resume waiting.task start rest) := by
  -- no `close` is under way, and none that has settled is the last call
  have hbusy : ¬ NoLoads world := by
    rintro ⟨_, hquiet⟩
    have := hquiet waiting hrunning
    rw [hload] at this
    cases this
  have hclosing : world.closing = [] := by
    by_contra hne
    exact hbusy (h.closingQuiet hne).1
  have hdown : ∀ entry : LogEntry,
      (∀ other failed, entry = .settled other failed → other = waiting.task) →
      ∀ other failed, .settled other failed ∈ world.log ++ [entry] → other.kind = .call .close →
        other.number < world.calls ∧ ¬ ∀ n ∈ world.loads, n < other.number := by
    intro entry hentry other failed hmem hkind
    rcases mem_append.1 hmem with hold | hnew
    · obtain ⟨hnumber, hdown⟩ := h.closedDown other failed hold hkind
      exact ⟨hnumber, fun hall => hbusy (hdown hall).1⟩
    rw [hentry other failed (mem_singleton.1 hnew).symm] at hkind
    exact absurd hkind hclose
  obtain ⟨hdone, hwait⟩ := hrest.advance
  unfold RuntimeWorld.resume
  cases hadvance : rest.advance world.runtime with
  | mk s stopped =>
    rw [hadvance] at hdone hwait
    cases stopped with
    | done result =>
      have hpost := hdone result rfl
      refine ⟨⟨hpost.accounted, fun _ => hpost.nextSession, h.loadsQueued, h.loadsCalled,
        h.notClose, h.closing, fun hne => absurd hclosing hne, fun other failed hmem hkind => ?_,
        outcomes_append h fun _ hfailed => hpost.leftAlone hfailed⟩,
        fun other hother => (by cases hother)⟩
      obtain ⟨hnumber, hlater⟩ := hdown _ (fun other failed heq => by cases heq; rfl)
        other failed hmem hkind
      exact ⟨hnumber, fun hall => absurd hall hlater⟩
    | waiting request next =>
      obtain ⟨haccounted, hnext⟩ := hwait request next rfl
      refine ⟨⟨haccounted, fun hquiet => ?_, h.loadsQueued, h.loadsCalled, h.notClose, h.closing,
        fun hne => absurd hclosing hne, fun other failed hmem hkind => ?_, h.outcomes⟩,
        fun other hother => ?_⟩
      · have hthis := hquiet _ rfl
        rw [hload] at hthis
        cases hthis
      · obtain ⟨hnumber, hlater⟩ := hdown _ (fun other failed heq => by cases heq)
          other failed hmem hkind
        exact ⟨hnumber, fun hall => absurd hall hlater⟩
      · cases hother
        exact ⟨hclose, fun _ => hnext, fun hother => (by rw [hload] at hother; cases hother)⟩

end

theorem take (h : SessionInvariant world) {waiting : Waiting} {queue : List Task}
    (hidle : world.running = none) (hqueue : world.queue = waiting.task :: queue) :
    SessionCore { world with queue := queue, running := some waiting } := by
  have hmem := mem_tail hqueue
  have hnoLoads : NoLoads world →
      NoLoads { world with queue := queue, running := some waiting } := by
    rintro ⟨hqueued, _⟩
    refine ⟨fun task htask => hqueued task (hmem task htask), fun other hother => ?_⟩
    cases hother
    exact hqueued waiting.task (by rw [hqueue]; exact mem_cons_self)
  refine ⟨h.accounted, fun _ => h.idle fun other hother => ?_,
    fun task htask => h.loadsQueued task (hmem task htask), h.loadsCalled,
    fun task htask => h.notClose task (hmem task htask), h.closing, fun hclosing => ?_,
    fun task failed hsettled hkind => ?_, h.outcomes⟩
  · rw [hidle] at hother
    cases hother
  · obtain ⟨hquiet, hclosed⟩ := h.closingQuiet hclosing
    exact ⟨hnoLoads hquiet, hclosed⟩
  · obtain ⟨hnumber, hdown⟩ := h.closedDown task failed hsettled hkind
    refine ⟨hnumber, fun hall => ?_⟩
    obtain ⟨hquiet, hclosed⟩ := hdown hall
    exact ⟨hnoLoads hquiet, hclosed⟩

theorem terminate_advance (task : Task) (s : DebugRuntime) :
    SessionsKept s ((Action.terminate task).advance s).1 ∧
      ∀ request next, ((Action.terminate task).advance s).2 = .waiting request next →
        ∀ response, Every SameSessions (fun _ => True) (next response) := by
  unfold Action.terminate
  rw [advance_bind, LoopInvariant.assertGeneration_advance]
  by_cases hgeneration : task.generation = s.currentGeneration
  · simp only [hgeneration, ne_eq, not_true_eq_false, if_false]
    rw [advance_bind, LoopInvariant.requireSessionLoaded_advance]
    cases hsession : s.currentSession with
    | none => exact ⟨(refl s).kept, fun request next hwait => (by cases hwait)⟩
    | some id =>
      refine ⟨⟨rfl, fun hnone => ?_, fun other hother => mem_append_left _ hother,
        Or.inr ⟨rfl, fun other hother => ?_⟩⟩, fun request next hwait response => ?_⟩
      · change (if s.nextSession = some id then none else s.nextSession) = none
        rw [hnone]
        rfl
      · rw [hsession, Option.some.injEq] at hother
        rw [← hother]
        exact mem_append_right _ (mem_singleton_self _)
      · cases hwait
        refine Every.bind (Every.tryCatch ?_ fun _ => trivial) fun _ =>
          assertGeneration_every (allowsShow task) _
        refine Every.bind ?_ fun _ => trivial
        cases response <;> trivial
  · simp only [ne_eq, hgeneration, not_false_eq_true, if_true]
    exact ⟨(refl s).kept, fun request next hwait => (by cases hwait)⟩

variable (s : DebugRuntime) {task : Task}

theorem startRunLoop_same (intervalMs generation run : ℕ) :
    SameSessions s (s.startRunLoop intervalMs generation run) := by
  unfold startRunLoop scheduleNextTick
  split_ifs <;> exact ⟨rfl, rfl, rfl, rfl⟩

theorem program_kept (hload : task.isLoad = false)
    (hclose : task.kind ≠ .call .close) (s : DebugRuntime) :
    SessionsKept s ((program task).advance s).1 ∧
      ∀ request next, ((program task).advance s).2 = .waiting request next →
        ∀ response, Every SameSessions (fun _ => True) (next response) := by
  by_cases hshows : onlyShows task.kind
  · have hevery : Every SameSessions (fun _ => True) (program task) :=
      showProgram_every (allowsShow task) (fun s => ⟨rfl, rfl, rfl, rfl⟩)
        (fun _ _ => trivial) hshows
    obtain ⟨hsame, hwait⟩ := hevery.advance refl trans s
    exact ⟨hsame.kept, fun request next hnext => (hwait request next hnext).2⟩
  · unfold program
    cases hkind : task.kind with
    | tick loop => exact absurd (by rw [hkind]; rfl) hshows
    | call call =>
      cases call with
      | load entry backend => simp [Task.isLoad, hkind, ApiCall.isLoad] at hload
      | terminate => exact terminate_advance task s
      | close => exact absurd hkind hclose
      | run rateHz =>
        rcases LoopInvariant.run_advance task rateHz s with ⟨error, hdone⟩ | ⟨_, hdone⟩
        · simp only [hdone]
          exact ⟨(refl s).kept, fun request next hwait => (by cases hwait)⟩
        simp only [hdone]
        exact ⟨(startRunLoop_same s _ _ _).kept, fun request next hwait => (by cases hwait)⟩
      | _ => exact absurd (by rw [hkind]; rfl) hshows

theorem start (h : SessionInvariant world) {queue : List Task}
    (hidle : world.running = none) (hqueue : world.queue = task :: queue) :
    SessionInvariant ({ world with queue := queue }.resume task world.runtime
      (program task)) := by
  have hcore := @take world h ⟨task, world.runtime, .createSession, fun _ => program task⟩
    queue hidle hqueue
  have hclose : task.kind ≠ .call .close :=
    h.notClose task (by rw [hqueue]; exact mem_cons_self)
  have hnone : world.runtime.nextSession = none := by
    refine h.idle fun waiting hwaiting => ?_
    rw [hidle] at hwaiting
    cases hwaiting
  rw [LoopInvariant.resume_congr
    (some ⟨task, world.runtime, .createSession, fun _ => program task⟩)]
  cases hload : task.isLoad with
  | false =>
    obtain ⟨hkept, hwait⟩ := program_kept hload hclose world.runtime
    exact resume_other hcore rfl hload hclose _ _ hkept hwait
  | true =>
    refine resume_load hcore rfl hload hclose _ _ ?_
    unfold Task.isLoad at hload
    unfold program
    cases hkind : task.kind with
    | tick loop =>
      rw [hkind] at hload
      cases hload
    | call call =>
      rw [hkind] at hload
      cases call with
      | load entry backend => exact load_holds h.accounted hnone entry backend
      | _ => cases hload

theorem allClosed (h : SessionCore world) (hquiet : NoLoads world)
    (hcurrent : ∀ id, world.runtime.currentSession = some id → id ∈ world.runtime.closed) :
    ∀ id, id < world.runtime.created → id ∈ world.runtime.closed := by
  intro id hid
  rcases h.accounted.each id hid with hsession | hclosed | hnext
  · exact hcurrent id hsession
  · exact hclosed
  rw [h.idle hquiet.2] at hnext
  cases hnext

theorem closeResponds (h : SessionInvariant world) {index : ℕ} {waiting : Waiting}
    (hwaiting : world.closing[index]? = some waiting)
    (response : Except RuntimeError SessionResponse) :
    SessionInvariant ({ world with closing := world.closing.eraseIdx index }.resumeClose
      waiting.task (waiting.rest response)) := by
  have hmem := List.mem_of_getElem? hwaiting
  obtain ⟨hkind, hrest, hnumber⟩ := h.closing waiting hmem
  obtain ⟨hquiet, hcurrent⟩ := h.closingQuiet (ne_nil_of_mem hmem)
  have hclosed := allClosed h.toSessionCore hquiet hcurrent
  obtain ⟨result, s, hadvance, hcreated, hsame, hnext, hsession⟩ :=
    hrest response world.runtime
  have hcurrent' : ∀ id, s.currentSession = some id → id ∈ s.closed := by
    intro id hid
    rw [hsame]
    rcases hsession with hold | hnone
    · exact hcurrent id (hold.symm.trans hid)
    rw [hnone] at hid
    cases hid
  have hclosed' : ∀ id, id < s.created → id ∈ s.closed := by
    rw [hcreated, hsame]
    exact hclosed
  unfold resumeClose
  simp only [hadvance]
  refine ⟨⟨⟨fun id hid => .inr (.inl (hclosed' id hid)), fun id hid => ?_⟩,
    fun hrun => hnext.trans (h.idle hrun), h.loadsQueued, h.loadsCalled, h.notClose,
    fun other hother => h.closing other (mem_of_mem_eraseIdx hother),
    fun _ => ⟨hquiet, hcurrent'⟩, fun task failed hsettled htask => ?_, h.outcomes⟩, ?_⟩
  · rcases hsession with hold | hnone
    · rw [hcreated]
      exact h.accounted.current id (hold.symm.trans hid)
    rw [hnone] at hid
    cases hid
  · refine ⟨?_, fun _ => ⟨hquiet, hclosed'⟩⟩
    rcases mem_append.1 hsettled with hold | hnew
    · exact (h.closedDown task failed hold htask).1
    cases mem_singleton.1 hnew
    exact hnumber
  · intro running hrunning
    have hload := hquiet.2 running hrunning
    obtain ⟨hnotClose, _, hother⟩ := h.running running hrunning
    exact ⟨hnotClose, fun hisLoad => (by rw [hload] at hisLoad; cases hisLoad), hother⟩

theorem close_rest : CloseRest fun response => (do
    let _ ← (match response with
      | .ok response => .ret response
      | .error error => .raise error : Action SessionResponse)
    Coroutine.modify fun s => { s with currentSession := none }
    Coroutine.modify fun s => { s with currentEntry := none, currentBackend := "pipeline" }) := by
  intro response s
  cases response with
  | ok response => exact ⟨_, _, rfl, rfl, rfl, rfl, .inr rfl⟩
  | error error => exact ⟨_, _, rfl, rfl, rfl, rfl, .inl rfl⟩

theorem close_advance :
    (s.currentSession = none ∧ ∃ s', Action.close.advance s = (s', .done (.ok ())) ∧
      s'.currentSession = none ∧ s'.created = s.created ∧ s'.closed = s.closed ∧
      s'.nextSession = s.nextSession) ∨
    ∃ id s' request next, s.currentSession = some id ∧
      Action.close.advance s = (s', .waiting request next) ∧ s'.currentSession = some id ∧
      s'.created = s.created ∧ s'.closed = s.closed ++ [id] ∧
      (s.nextSession = none → s'.nextSession = none) ∧ CloseRest next := by
  unfold Action.close
  cases hsession : s.currentSession with
  | none =>
    refine .inl ⟨rfl, { s.stopRunLoop with currentEntry := none, currentBackend := "pipeline" },
      ?_, hsession, rfl, rfl, rfl⟩
    rw [advance_bind]
    simp only [advance_modify]
    rw [advance_bind]
    simp only [advance_get, stopRunLoop, hsession]
    rfl
  | some id =>
    refine .inr ⟨id, s.stopRunLoop.markClosed id, .session id .close, _, rfl, ?_, hsession, rfl,
      rfl, fun hnone => ?_, close_rest⟩
    · rw [advance_bind]
      simp only [advance_modify]
      rw [advance_bind]
      simp only [advance_get, stopRunLoop, hsession]
      refine Prod.ext rfl (congrArg (Stopped.waiting _) (funext fun response => ?_))
      cases response <;> rfl
    · simp [markClosed, stopRunLoop, hnone]

theorem closeCall (h : SessionInvariant world) (hquiet : NoLoads world) :
    SessionInvariant (world.step (.call .close)) := by
  have hnone := h.idle hquiet.2
  have hrunning : ∀ s : DebugRuntime, ∀ waiting ∈ world.running, RunningSound s waiting := by
    intro s waiting hwaiting
    have hload := hquiet.2 waiting hwaiting
    obtain ⟨hnotClose, _, hother⟩ := h.running waiting hwaiting
    exact ⟨hnotClose, fun hisLoad => (by rw [hload] at hisLoad; cases hisLoad), hother⟩
  have hloads : ∀ n ∈ world.loads, n < world.calls + 1 := fun n hn =>
    lt_succ_of_lt (h.loadsCalled n hn)
  have hclosing : ∀ waiting ∈ world.closing, waiting.task.kind = .call .close ∧
      CloseRest waiting.rest ∧ waiting.task.number < world.calls + 1 := by
    intro waiting hwaiting
    obtain ⟨hkind, hrest, hnumber⟩ := h.closing waiting hwaiting
    exact ⟨hkind, hrest, lt_succ_of_lt hnumber⟩
  simp only [RuntimeWorld.step, resumeClose]
  rcases close_advance world.runtime with
    ⟨hsession, s, hadvance, hgone, hcreated, hsame, hnext⟩ |
    ⟨id, s, request, next, hsession, hadvance, hkept, hcreated, hsame, hnext, hrest⟩
  · have hclosed : ∀ id, id < s.created → id ∈ s.closed := by
      rw [hcreated, hsame]
      refine allClosed h.toSessionCore hquiet fun id hid => ?_
      rw [hsession] at hid
      cases hid
    have hcurrent : ∀ id, s.currentSession = some id → id ∈ s.closed := by
      intro id hid
      rw [hgone] at hid
      cases hid
    simp only [hadvance]
    refine ⟨⟨⟨fun id hid => .inr (.inl (hclosed id hid)), fun id hid => ?_⟩,
      fun _ => hnext.trans hnone, h.loadsQueued, hloads, h.notClose, hclosing,
      fun _ => ⟨hquiet, hcurrent⟩, fun task failed hsettled htask => ⟨?_, fun _ =>
      ⟨hquiet, hclosed⟩⟩, h.outcomes⟩, hrunning s⟩
    · rw [hgone] at hid
      cases hid
    rcases mem_append.1 hsettled with hold | hnew
    · exact lt_succ_of_lt (h.closedDown task failed hold htask).1
    cases mem_singleton.1 hnew
    exact lt_succ_self _
  · have hcurrent : ∀ other, s.currentSession = some other → other ∈ s.closed := by
      intro other hother
      rw [hkept, Option.some.injEq] at hother
      rw [hsame, ← hother]
      exact mem_append_right _ (mem_singleton_self _)
    have hclosed : ∀ other, other < s.created → other ∈ s.closed := by
      intro other hother
      rw [hcreated] at hother
      rcases h.accounted.each other hother with hold | hold | hold
      · exact hcurrent other (hkept.trans (hsession.symm.trans hold))
      · rw [hsame]
        exact mem_append_left _ hold
      · rw [hnone] at hold
        cases hold
    simp only [hadvance]
    refine ⟨⟨⟨fun other hother => .inr (.inl (hclosed other hother)), fun other hother => ?_⟩,
      fun _ => hnext hnone, h.loadsQueued, hloads, h.notClose, fun waiting hwaiting => ?_,
      fun _ => ⟨hquiet, hcurrent⟩, fun task failed hsettled htask => ⟨?_, fun _ =>
      ⟨hquiet, hclosed⟩⟩, h.outcomes⟩, hrunning s⟩
    · rw [hcreated]
      exact h.accounted.current other (hsession.trans (hkept.symm.trans hother))
    · rcases mem_append.1 hwaiting with hold | hnew
      · exact hclosing waiting hold
      rw [mem_singleton.1 hnew]
      exact ⟨rfl, hrest, lt_succ_self _⟩
    · rcases mem_append.1 hsettled with hold | hnew
      · exact lt_succ_of_lt (h.closedDown task failed hold htask).1
      · cases mem_singleton.1 hnew

theorem beginCall_sameView (call : ApiCall) : SameView s (beginCall s call).2 := by
  cases call <;> exact ⟨rfl, rfl, rfl, rfl, fun _ hb => hb⟩

theorem loadCall (h : SessionInvariant world) {entry : DebugEntry} {backend : String}
    (hclosing : world.closing = []) :
    SessionInvariant (world.step (.call (.load entry backend))) := by
  have hsame := beginCall_sameView world.runtime (.load entry backend)
  simp only [RuntimeWorld.step, ApiCall.isLoad, if_true]
  refine ⟨⟨h.accounted.sameView hsame, fun hrun => hsame.nextSession.trans (h.idle hrun),
    fun task htask hload => ?_, fun n hn => ?_, fun task htask => ?_, fun waiting hwaiting => ?_,
    fun hne => absurd hclosing hne, fun task failed hsettled hkind => ?_, h.outcomes⟩,
    fun waiting hwaiting => ?_⟩
  · rcases mem_append.1 htask with hold | hnew
    · exact mem_append_left _ (h.loadsQueued task hold hload)
    rw [mem_singleton.1 hnew]
    exact mem_append_right _ (mem_singleton_self _)
  · rcases mem_append.1 hn with hold | hnew
    · exact lt_succ_of_lt (h.loadsCalled n hold)
    rw [mem_singleton.1 hnew]
    exact lt_succ_self _
  · rcases mem_append.1 htask with hold | hnew
    · exact h.notClose task hold
    rw [mem_singleton.1 hnew]
    simp
  · rw [hclosing] at hwaiting
    cases hwaiting
  · obtain ⟨hnumber, _⟩ := h.closedDown task failed hsettled hkind
    refine ⟨lt_succ_of_lt hnumber, fun hall => ?_⟩
    have := hall world.calls (mem_append_right _ (mem_singleton_self _))
    omega
  · obtain ⟨hnotClose, hload, hother⟩ := h.running waiting hwaiting
    exact ⟨hnotClose, fun hisLoad response s' hs =>
      hload hisLoad response s' (hsame.trans hs), hother⟩

theorem callStep (h : SessionInvariant world) (call : ApiCall) (hclose : call ≠ .close)
    (hload : call.isLoad = false) : SessionInvariant (world.step (.call call)) := by
  have hstep : world.step (.call call) =
      { world with
        calls := world.calls + 1
        pauses := if call.stops then world.pauses ++ [world.calls] else world.pauses
        runtime := (beginCall world.runtime call).2
        queue := world.queue ++
          [{ number := world.calls, generation := (beginCall world.runtime call).1
             kind := .call call }] } := by
    cases call <;> first
      | rfl
      | exact absurd rfl hclose
      | cases hload
  rw [hstep]
  refine h.frame (beginCall_sameView world.runtime call) (fun task htask => ?_) rfl
    (le_succ _) rfl (fun _ hw => hw) rfl rfl
  rcases mem_append.1 htask with hold | hnew
  · exact .inl hold
  rw [mem_singleton.1 hnew]
  exact .inr ⟨hload, by simpa using hclose⟩

theorem afterTick_sameView (task : Task) (loop : RunLoop)
    (error : Option RuntimeError) : SameView s (afterTick s task loop error) := by
  unfold afterTick scheduleNextTick
  split
  · exact SameView.refl s
  · exact ⟨rfl, rfl, rfl, rfl, fun b hb => mem_append_left _ hb⟩
  · split_ifs <;> exact ⟨rfl, rfl, rfl, rfl, fun _ hb => hb⟩

variable (h : SessionInvariant world)

include h

theorem step (event : RuntimeEvent) (hclear : CloseClear world event) :
    SessionInvariant (world.step event) := by
  cases event with
  | call call =>
    by_cases hclose : call = .close
    · rw [hclose] at hclear ⊢
      exact h.closeCall hclear
    cases hload : call.isLoad with
    | false => exact h.callStep call hclose hload
    | true =>
      cases call with
      | load entry backend => exact h.loadCall (List.isEmpty_iff.1 (hclear rfl))
      | _ => cases hload
  | start =>
    simp only [RuntimeWorld.step]
    cases hidle : world.running with
    | some waiting => exact h
    | none =>
      cases hqueue : world.queue with
      | nil => exact h
      | cons task queue => exact h.start hidle hqueue
  | respond response =>
    simp only [RuntimeWorld.step]
    cases hrunning : world.running with
    | none => exact h
    | some waiting =>
      obtain ⟨hclose, hload, hother⟩ := h.running waiting hrunning
      cases hisLoad : waiting.task.isLoad with
      | true =>
        exact resume_load h.toSessionCore hrunning hisLoad hclose _ _
          (hload hisLoad response world.runtime (SameView.refl _))
      | false =>
        obtain ⟨hsame, hwait⟩ := (hother hisLoad response).advance refl
          trans world.runtime
        exact resume_other h.toSessionCore hrunning hisLoad hclose _ _ hsame.kept
          fun request next hnext => (hwait request next hnext).2
  | timer handle =>
    simp only [RuntimeWorld.step]
    cases world.runtime.timers.find? fun timer => timer.1 = handle with
    | none => exact h
    | some timer =>
      refine h.frame ⟨rfl, rfl, rfl, rfl, fun _ hb => hb⟩ (fun task htask => ?_) rfl
        (le_refl _) rfl (fun _ hw => hw) rfl rfl
      rcases mem_append.1 htask with hold | hnew
      · exact .inl hold
      rw [mem_singleton.1 hnew]
      exact .inr ⟨rfl, by simp⟩
  | continueTick =>
    simp only [RuntimeWorld.step]
    cases world.ticks with
    | nil => exact h
    | cons tick ticks =>
      obtain ⟨task, loop, error⟩ := tick
      exact h.frame (afterTick_sameView _ task loop error) (fun task htask => .inl htask) rfl
        (le_refl _) rfl (fun _ hw => hw) rfl rfl
  | closeResponds index response =>
    simp only [RuntimeWorld.step]
    cases hwaiting : world.closing[index]? with
    | none => exact h
    | some waiting => exact h.closeResponds hwaiting response

theorem run {events : List RuntimeEvent}
    (hclear : Along CloseClear world events) : SessionInvariant (world.run events) := by
  induction events generalizing world with
  | nil => exact h
  | cons event events ih => exact ih (h.step event hclear.1) hclear.2

theorem settled (hrunning : world.running = none) :
    ∀ id, id < world.runtime.created →
      world.runtime.currentSession = some id ∨ id ∈ world.runtime.closed := by
  intro id hid
  rcases h.accounted.each id hid with hcurrent | hclosed | hnext
  · exact .inl hcurrent
  · exact .inr hclosed
  have hnone : world.runtime.nextSession = none := by
    refine h.idle fun waiting hwaiting => ?_
    rw [hrunning] at hwaiting
    cases hwaiting
  rw [hnone] at hnext
  cases hnext

end SessionInvariant

/-- In a run where no `close` overlaps a load the sessions are all accounted for. -/
theorem run_sessionsSound (events : List RuntimeEvent) (hclear : Along CloseClear init events) :
    SessionsSound (init.run events) := by
  have h := SessionInvariant.init.run hclear
  have hticks : BroadcastInvariant.TicksOnly init := fun tick htick => by cases htick
  have horder := @BroadcastInvariant.run init events BroadcastInvariant.init hticks
  refine ⟨fun hrunning _ _ => h.settled hrunning, ?_, h.outcomes, horder.ordered⟩
  intro task failed hmem hkind hall
  exact ((h.closedDown task failed hmem hkind).2 hall).2

theorem reloadThenClose_sound :
    SessionsSound (init.run (plainLoad ++ plainLoad ++ [.respond (.error (.other "gone")),
      .call .close, .closeResponds 0 (.error (.other "gone"))])) :=
  run_sessionsSound _ (by decide)

/-- The `close` comes while the load waits for its session. -/
def closeDuringLoad : List RuntimeEvent :=
  [.call (.load plainEntry "pipeline"), .start, .call .close, plainAnswer, plainAnswer,
    plainAnswer, plainAnswer]

theorem closeDuringLoad_leavesSession : ¬ ∀ events, SessionsSound (init.run events) := by
  intro hall
  have hsettled : LogEntry.settled { number := 1, generation := 1, kind := .call .close } false ∈
      (init.run closeDuringLoad).log := by decide
  have hloads : ∀ n ∈ (init.run closeDuringLoad).loads, n < 1 := by decide
  have hcreated : 0 < (init.run closeDuringLoad).runtime.created := by decide
  have hopen : 0 ∉ (init.run closeDuringLoad).runtime.closed := by decide
  exact hopen ((hall closeDuringLoad).closedDown _ _ hsettled rfl hloads 0 hcreated)

end RuntimeWorld

end VisualCpu
