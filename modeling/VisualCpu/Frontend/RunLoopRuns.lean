import VisualCpu.Frontend.RunLoop

/-!
# Pauses over whole runs
-/

namespace VisualCpu

open List RuntimeWorld Action Coroutine LoopFrame Task DebugRuntime Nat

open Coroutine (Every)

def Task.isRun (task : Task) : Bool :=
  match task.kind with
  | .call (.run _) => true
  | _ => false

/-- A call of `pause` or `debugCommand`. -/
def Task.isStop (task : Task) : Bool :=
  match task.kind with
  | .call call => call.stops
  | .tick _ => false

def Task.loop? (task : Task) : Option RunLoop :=
  match task.kind with
  | .call _ => none
  | .tick loop => some loop

def LogEntry.isLoopStep : LogEntry → Bool
  | .requested task (.session _ .stepCycle) => task.loop?.isSome
  | _ => false

open LogEntry

/-- After a pause has settled a loop steps only when a `run` called after that pause has taken
effect before. -/
def PauseStops (log : List LogEntry) : Prop :=
  ∀ (i j : ℕ) (pause : Task) (failed : Bool) (entry : LogEntry), i < j →
    log[i]? = some (.settled pause failed) → pause.isStop →
    log[j]? = some entry → entry.isLoopStep →
    ∃ (k : ℕ) (start : Task), k < j ∧ log[k]? = some (.settled start false) ∧
      start.isRun ∧ pause.number < start.number

namespace RuntimeWorld

variable (world : RuntimeWorld) {log : List LogEntry}

def ticksInFlight : List RunLoop :=
  world.ticks.map (fun tick => tick.2.1) ++
    (world.running.toList.filterMap (fun waiting => waiting.task.loop?) ++
      world.queue.filterMap loop?)

/-- At most one run loop schedules ticks: it has an armed timer or a tick in flight. -/
def OneLoop : Prop :=
  (schedulingLoops world.runtime world.ticksInFlight).length ≤ 1

/-- No `run` waits in the queue that would still start its loop when a pause is called. -/
def PauseClear : RuntimeEvent → Prop
  | .call call => call.stops = true → ∀ task ∈ world.queue, task.isRun →
      task.generation ≠ world.runtime.currentGeneration
  | _ => True

instance (world : RuntimeWorld) (event : RuntimeEvent) : Decidable (PauseClear world event) :=
  match event with
  | .call call => inferInstanceAs (Decidable (call.stops → ∀ task ∈ world.queue,
      task.isRun → task.generation ≠ world.runtime.currentGeneration))
  | .start | .respond _ | .timer _ | .continueTick | .closeResponds _ _ =>
    inferInstanceAs (Decidable True)

/-- Every step of a run meets a condition on the state before it. -/
def Along (condition : RuntimeWorld → RuntimeEvent → Prop) :
    RuntimeWorld → List RuntimeEvent → Prop
  | _, [] => True
  | world, event :: events => condition world event ∧ Along condition (world.step event) events

instance Along.decidable (condition : RuntimeWorld → RuntimeEvent → Prop)
    [∀ world event, Decidable (condition world event)] :
    ∀ world events, Decidable (Along condition world events)
  | _, [] => inferInstanceAs (Decidable True)
  | world, event :: events =>
    have := Along.decidable condition (world.step event) events
    inferInstanceAs (Decidable (condition world event ∧ Along condition (world.step event) events))

/-- A loop may step: it was started after every pause, and its `run` has settled. -/
def MayStep (pauses : List ℕ) (log : List LogEntry) (run : ℕ) : Prop :=
  (∀ n ∈ pauses, n < run) ∧
    ∃ start : Task, .settled start false ∈ log ∧ start.isRun ∧ start.number = run

/-- After its first request a tick does not step again. -/
def QuietRequest (task : Task) (request : RuntimeRequest) : Prop :=
  (requested task request).isLoopStep = false

/-- What an action that waits, or is about to go on, still does to the loop. -/
def QuietRest (task : Task) (rest : Except RuntimeError SessionResponse → Action Unit) : Prop :=
  ∀ response, Every LoopFrame (QuietRequest task) (rest response)

/-- The invariant of the run loop, but for what the running action still does. -/
structure LoopCore (world : RuntimeWorld) : Prop where
  loops : LoopsSound world.runtime world.ticksInFlight (MayStep world.pauses world.log)
  generations : ∀ task ∈ world.queue, task.isRun →
    task.generation ≤ world.runtime.currentGeneration
  runs : ∀ task ∈ world.queue, task.isRun →
    task.generation = world.runtime.currentGeneration → ∀ n ∈ world.pauses, n < task.number
  pausesCalled : ∀ n ∈ world.pauses, n < world.calls
  stopsQueued : ∀ task ∈ world.queue, task.isStop → task.number ∈ world.pauses
  stopsRunning : ∀ waiting, world.running = some waiting → waiting.task.isStop →
    waiting.task.number ∈ world.pauses
  stopsSettled : ∀ task failed, .settled task failed ∈ world.log → task.isStop →
    task.number ∈ world.pauses
  notClose : ∀ task ∈ world.queue, task.kind ≠ .call .close
  closingRest : ∀ waiting ∈ world.closing, waiting.task.kind = .call .close ∧
    QuietRest waiting.task waiting.rest
  pauses : PauseStops world.log

structure LoopInvariant (world : RuntimeWorld) : Prop extends LoopCore world where
  runningRest : ∀ waiting, world.running = some waiting →
    waiting.task.isRun = false ∧ QuietRest waiting.task waiting.rest

theorem pauseStops_append (h : PauseStops log) (entry : LogEntry)
    (hentry : entry.isLoopStep → ∀ pause failed, .settled pause failed ∈ log →
      pause.isStop → ∃ start : Task, .settled start false ∈ log ∧ start.isRun ∧
        pause.number < start.number) : PauseStops (log ++ [entry]) := by
  intro i j pause failed entry' hij hi hstop hj hstep
  have hjlt : j < log.length + 1 := by
    simpa using (List.getElem?_eq_some_iff.1 hj).1
  rw [List.getElem?_append_left (by omega)] at hi
  by_cases hlast : j = log.length
  · rw [hlast, List.getElem?_append_right (Nat.le_refl _), Nat.sub_self] at hj
    cases hj
    obtain ⟨start, hmem, hrun, hnumber⟩ :=
      hentry hstep pause failed (List.mem_of_getElem? hi) hstop
    obtain ⟨k, hk⟩ := List.mem_iff_getElem?.1 hmem
    have hklt := (List.getElem?_eq_some_iff.1 hk).1
    exact ⟨k, start, by omega, by rw [List.getElem?_append_left hklt, hk], hrun, hnumber⟩
  · rw [List.getElem?_append_left (by omega)] at hj
    obtain ⟨k, start, hk, hstart, hrun, hnumber⟩ :=
      h i j pause failed entry' hij hi hstop hj hstep
    exact ⟨k, start, hk, by rw [List.getElem?_append_left (by omega), hstart], hrun, hnumber⟩

theorem MayStep.append {pauses : List ℕ} {run : ℕ}
    (h : MayStep pauses log run) (entry : LogEntry) : MayStep pauses (log ++ [entry]) run := by
  obtain ⟨hpauses, start, hmem, hrun⟩ := h
  exact ⟨hpauses, start, mem_append_left _ hmem, hrun⟩

namespace LoopInvariant

variable {world : RuntimeWorld} {loop : RunLoop}

theorem init : LoopInvariant init := by
  refine ⟨⟨⟨.inl ⟨rfl, rfl⟩, zero_le _, ?_, ?_⟩, ?_, ?_, ?_, ?_, ?_, ?_, ?_, ?_, ?_⟩, ?_⟩
  all_goals simp [RuntimeWorld.init, ticksInFlight, schedulingLoops, DebugRuntime.init, PauseStops]

theorem mayStep_mono {entry : LogEntry} (n : ℕ) (h : MayStep world.pauses world.log n) :
    MayStep world.pauses (world.log ++ [entry]) n := h.append entry

theorem resume_ticksInFlight {waiting : Waiting} (hrunning : world.running = some waiting)
    (start : DebugRuntime) (rest : Action Unit) :
    (world.resume waiting.task start rest).ticksInFlight = world.ticksInFlight := by
  unfold resume
  cases hadvance : rest.advance world.runtime with
  | mk s stopped =>
    cases stopped with
    | waiting request rest => simp [ticksInFlight, hrunning, filterMap_cons]
    | done result =>
      cases hkind : waiting.task.kind with
      | call call => simp [ticksInFlight, hrunning, afterAction, loop?, hkind]
      | tick loop => simp [ticksInFlight, hrunning, afterAction, loop?, hkind]

theorem mem_schedulingLoops {waiting : Waiting} (hrunning : world.running = some waiting)
    (hloop : waiting.task.loop? = some loop) (htoken : loop.token = world.runtime.runLoopToken) :
    loop ∈ schedulingLoops world.runtime world.ticksInFlight := by
  simp only [schedulingLoops, mem_append, mem_filter, ticksInFlight]
  refine .inr ⟨.inr (.inl ?_), decide_eq_true htoken⟩
  rw [hrunning, Option.toList_some, mem_filterMap]
  exact ⟨waiting, mem_singleton_self _, hloop⟩

theorem resume {waiting : Waiting} (h : LoopCore world)
    (hrunning : world.running = some waiting) (hrun : waiting.task.isRun = false)
    (start : DebugRuntime) (rest : Action Unit)
    (hframe : LoopFrame world.runtime (rest.advance world.runtime).1)
    (hwait : ∀ request next, (rest.advance world.runtime).2 = .waiting request next →
      ((requested waiting.task request).isLoopStep →
        ∀ loop, waiting.task.loop? = some loop → loop.token = world.runtime.runLoopToken) ∧
      QuietRest waiting.task next) :
    LoopInvariant (world.resume waiting.task start rest) := by
  have hflight := resume_ticksInFlight hrunning start rest
  have hloops := h.loops.kept hframe.loop
  have hstop := h.stopsRunning waiting hrunning
  unfold RuntimeWorld.resume at hflight ⊢
  cases hadvance : rest.advance world.runtime with
  | mk s stopped =>
    rw [hadvance] at hframe hwait hflight hloops
    have hgenerations := fun task htask hrun => (h.generations task htask hrun).trans
      (le_of_eq hframe.generation.symm)
    have hruns := fun task htask hrun hgeneration =>
      h.runs task htask hrun (Eq.trans hgeneration hframe.generation)
    cases stopped with
    | done result =>
      refine ⟨⟨?_, hgenerations, hruns, h.pausesCalled, h.stopsQueued, ?_, ?_, h.notClose,
        h.closingRest, ?_⟩, ?_⟩
      · rw [hflight]
        exact hloops.mono fun n => mayStep_mono n
      · intro waiting' hwaiting'
        cases hwaiting'
      · intro task failed hmem htask
        rcases mem_append.1 hmem with hmem | hmem
        · exact h.stopsSettled task failed hmem htask
        cases mem_singleton.1 hmem
        exact hstop htask
      · exact pauseStops_append h.pauses _ fun hstep => by cases hstep
      · intro waiting' hwaiting'
        cases hwaiting'
    | waiting request next =>
      obtain ⟨hstep, hnext⟩ := hwait request next rfl
      refine ⟨⟨?_, hgenerations, hruns, h.pausesCalled, h.stopsQueued, ?_, ?_, h.notClose,
        h.closingRest, ?_⟩, ?_⟩
      · rw [hflight]
        exact hloops.mono fun n => mayStep_mono n
      · intro waiting' hwaiting'
        cases hwaiting'
        exact hstop
      · intro task failed hmem htask
        rcases mem_append.1 hmem with hmem | hmem
        · exact h.stopsSettled task failed hmem htask
        · cases mem_singleton.1 hmem
      · refine pauseStops_append h.pauses _ fun hloopStep pause failed hpause hpauseStop => ?_
        have htick := hloopStep
        simp only [isLoopStep] at htick
        split at htick
        · rename_i heq
          cases heq
          obtain ⟨loop, hloop⟩ := Option.isSome_iff_exists.1 htick
          have htoken := hstep hloopStep loop hloop
          obtain ⟨hpauses, run, hmem, hrunTask, hnumber⟩ :=
            h.loops.live loop (mem_schedulingLoops hrunning hloop htoken)
          have hknown := hpauses _ (h.stopsSettled pause failed hpause hpauseStop)
          exact ⟨run, hmem, hrunTask, by omega⟩
        · cases htick
      · intro waiting' hwaiting'
        cases hwaiting'
        exact ⟨hrun, hnext⟩

theorem assertGeneration_advance (generation : ℕ) (s : DebugRuntime) :
    (assertGeneration generation).advance s =
      (s, .done (if generation ≠ s.currentGeneration then .error .staleSession else .ok ())) := by
  unfold assertGeneration
  rw [advance_bind]
  simp only [advance_get]
  split <;> rfl

variable (s : DebugRuntime) {task : Task}

theorem requireSessionLoaded_advance :
    requireSessionLoaded.advance s =
      (s, .done (match s.currentSession with
        | none => .error (.runtime "session not loaded" 400)
        | some id => .ok id)) := by
  unfold requireSessionLoaded
  rw [advance_bind]
  simp only [advance_get]
  cases s.currentSession <;> rfl

theorem tick_advance (task : Task) (loop : RunLoop) (s : DebugRuntime) :
    (∃ result, (Action.tick task loop).advance s = (s, .done result)) ∨
      (loop.generation = s.currentGeneration ∧ loop.token = s.runLoopToken) ∧ ∃ request next,
        (Action.tick task loop).advance s = (s, .waiting request next) ∧ QuietRest task next := by
  rw [tick_eq, advance_bind, assertGeneration_advance]
  by_cases hgeneration : loop.generation = s.currentGeneration
  · simp only [hgeneration, ne_eq, not_true_eq_false, if_false]
    rw [advance_bind]
    simp only [advance_get]
    by_cases hskip : s.currentSession = none ∨ loop.token ≠ s.runLoopToken
    · rw [if_pos hskip]
      exact .inl ⟨_, rfl⟩
    rw [if_neg hskip]
    simp only [not_or, ne_eq, not_not] at hskip
    obtain ⟨id, hid⟩ := Option.ne_none_iff_exists'.1 hskip.1
    refine .inr ⟨⟨trivial, hskip.2⟩, ?_⟩
    rw [advance_bind]
    unfold callSession
    rw [advance_bind, requireSessionLoaded_advance, hid]
    refine ⟨_, _, rfl, fun response => ?_⟩
    refine (Every.bind ?_ fun answer => normalizeCliResponse_every answer _).bind
      fun answer => ?_
    · cases response <;> trivial
    exact afterStepCycle_every (allowsShow task) stop
      (fun id offset => rfl) loop answer
  · simp only [ne_eq, hgeneration, not_false_eq_true, if_true]
    exact .inl ⟨_, rfl⟩

theorem resume_congr (waiting : Option Waiting) (task : Task) (start : DebugRuntime)
    (rest : Action Unit) :
    world.resume task start rest = { world with running := waiting }.resume task start rest := by
  cases rest.advance world.runtime with
  | mk s stopped => cases stopped <;> rfl

theorem take (h : LoopInvariant world) {waiting : Waiting} {queue : List Task}
    (hidle : world.running = none) (hqueue : world.queue = waiting.task :: queue) :
    LoopCore { world with queue := queue, running := some waiting } := by
  have hmem := mem_tail hqueue
  have hflight : ticksInFlight { world with queue := queue, running := some waiting } =
      world.ticksInFlight := by
    cases hloop : waiting.task.loop? <;> simp [ticksInFlight, hidle, hqueue, hloop]
  refine ⟨by rw [hflight]; exact h.loops, fun task htask => h.generations task (hmem task htask),
    fun task htask => h.runs task (hmem task htask), h.pausesCalled,
    fun task htask => h.stopsQueued task (hmem task htask), ?_, h.stopsSettled,
    fun task htask => h.notClose task (hmem task htask), h.closingRest, h.pauses⟩
  intro waiting' hwaiting'
  cases hwaiting'
  exact h.stopsQueued waiting.task (by rw [hqueue]; exact mem_cons_self)

theorem start_call (h : LoopInvariant world) {queue : List Task} {call : ApiCall}
    (hidle : world.running = none) (hqueue : world.queue = task :: queue)
    (hkind : task.kind = .call call) (hrun : task.isRun = false) :
    LoopInvariant ({ world with queue := queue }.resume task world.runtime
      (program task)) := by
  have hcore := @take world h ⟨task, world.runtime, .createSession, fun _ => program task⟩
    queue hidle hqueue
  have hquiet : ∀ request, QuietRequest task request := by
    intro request
    unfold QuietRequest isLoopStep
    split
    · rename_i heq
      cases heq
      simp [loop?, hkind]
    · rfl
  have hprogram : Every LoopFrame (QuietRequest task) (program task) := by
    refine Action.program_every (allowsShow task) ignoresSessions
      stop hquiet (fun rateHz hrate => ?_) ?_
    · simp [isRun, hrate] at hrun
    · exact h.notClose task (by rw [hqueue]; exact mem_cons_self)
  obtain ⟨hframe, hwait⟩ := hprogram.advance refl trans world.runtime
  rw [resume_congr (some ⟨task, world.runtime, .createSession, fun _ => program task⟩)]
  refine resume hcore rfl hrun world.runtime _ hframe fun request next hnext => ?_
  obtain ⟨_, hrest⟩ := hwait request next hnext
  refine ⟨fun _ loop hloop => ?_, hrest⟩
  simp [loop?, hkind] at hloop

theorem start_tick (h : LoopInvariant world) {queue : List Task}
    (hidle : world.running = none) (hqueue : world.queue = task :: queue)
    (hkind : task.kind = .tick loop) :
    LoopInvariant ({ world with queue := queue }.resume task world.runtime
      (program task)) := by
  have hcore := @take world h ⟨task, world.runtime, .createSession, fun _ => program task⟩
    queue hidle hqueue
  have hprogram : program task = Action.tick task loop := by
    simp only [program, hkind]
  rw [resume_congr (some ⟨task, world.runtime, .createSession, fun _ => program task⟩), hprogram]
  refine resume hcore rfl (by simp [isRun, hkind]) world.runtime _ ?_ ?_
  · rcases tick_advance task loop world.runtime with ⟨result, hdone⟩ | ⟨_, request, next, hwait, _⟩
    · rw [hdone]
      exact refl _
    rw [hwait]
    exact refl _
  · intro request next hnext
    rcases tick_advance task loop world.runtime with
      ⟨result, hdone⟩ | ⟨⟨_, htoken⟩, request', next', hwait, hrest⟩
    · rw [hdone] at hnext
      cases hnext
    rw [hwait] at hnext
    cases hnext
    refine ⟨fun _ other hother => ?_, hrest⟩
    simp only [loop?, hkind, Option.some.injEq] at hother
    rw [← hother]
    exact htoken

theorem run_advance (task : Task) (rateHz : ℕ) (s : DebugRuntime) :
    (∃ error, (Action.run task rateHz).advance s = (s, .done (.error error))) ∨
      task.generation = s.currentGeneration ∧ (Action.run task rateHz).advance s =
        (s.startRunLoop (max 20 (1000 / max 1 rateHz)) task.generation task.number,
          .done (.ok ())) := by
  unfold Action.run
  rw [advance_bind, assertGeneration_advance]
  by_cases hgeneration : task.generation = s.currentGeneration
  · simp only [hgeneration, ne_eq, not_true_eq_false, if_false]
    rw [advance_bind, requireSessionLoaded_advance]
    cases s.currentSession with
    | none => exact .inl ⟨_, rfl⟩
    | some id => exact .inr ⟨trivial, rfl⟩
  · simp only [ne_eq, hgeneration, not_false_eq_true, if_true]
    exact .inl ⟨_, rfl⟩

theorem start_run (h : LoopInvariant world) {queue : List Task} {rateHz : ℕ}
    (hidle : world.running = none) (hqueue : world.queue = task :: queue)
    (hkind : task.kind = .call (.run rateHz)) :
    LoopInvariant ({ world with queue := queue }.resume task world.runtime
      (program task)) := by
  have hcore := @take world h ⟨task, world.runtime, .createSession, fun _ => program task⟩
    queue hidle hqueue
  have hprogram : program task = Action.run task rateHz := by
    simp only [program, hkind]
  have hrun : task.isRun := by simp [isRun, hkind]
  have hnoStop : task.isStop = false := by simp [isStop, hkind, ApiCall.stops]
  have hafter : ∀ result, afterAction task result = [] := by simp [afterAction, hkind]
  have hflight : world.ticksInFlight =
      world.ticks.map (fun tick => tick.2.1) ++ queue.filterMap loop? := by
    simp [ticksInFlight, hidle, hqueue, loop?, hkind]
  have hloops := h.loops
  rw [hflight] at hloops
  have hsettled : ∀ failed other otherFailed,
      .settled other otherFailed ∈ world.log ++ [.settled task failed] → other.isStop →
      other.number ∈ world.pauses := by
    intro failed other otherFailed hmem hstop
    rcases mem_append.1 hmem with hmem | hmem
    · exact h.stopsSettled other otherFailed hmem hstop
    cases mem_singleton.1 hmem
    rw [hnoStop] at hstop
    cases hstop
  have hpauses : ∀ failed, PauseStops (world.log ++ [.settled task failed]) := fun failed =>
    pauseStops_append h.pauses _ fun hstep => by cases hstep
  unfold RuntimeWorld.resume
  rw [hprogram]
  rcases run_advance task rateHz world.runtime with ⟨error, hdone⟩ | ⟨hgeneration, hdone⟩
  · simp only [hdone, hafter, append_nil]
    refine ⟨⟨?_, hcore.generations, hcore.runs, h.pausesCalled, hcore.stopsQueued,
      fun _ hnone => (by cases hnone), hsettled _, hcore.notClose, h.closingRest, hpauses _⟩,
      fun _ hnone => (by cases hnone)⟩
    simpa [ticksInFlight] using hloops.mono fun n => mayStep_mono n
  · simp only [hdone, hafter, append_nil]
    have hkept : (world.runtime.startRunLoop (max 20 (1000 / max 1 rateHz)) task.generation
        task.number).currentGeneration = world.runtime.currentGeneration := by
      unfold startRunLoop scheduleNextTick
      split_ifs <;> rfl
    have hstarted : MayStep world.pauses (world.log ++ [.settled task false]) task.number :=
      ⟨h.runs task (by rw [hqueue]; exact mem_cons_self) hrun hgeneration, task,
        mem_append_right _ (mem_singleton_self _), hrun, rfl⟩
    refine ⟨⟨?_, ?_, ?_, h.pausesCalled, hcore.stopsQueued,
      fun _ hnone => (by cases hnone), hsettled _, hcore.notClose, h.closingRest, hpauses _⟩,
      fun _ hnone => (by cases hnone)⟩
    · simpa [ticksInFlight, isFailed] using hloops.restart _ _ _ hstarted
    · intro other hother hotherRun
      exact le_trans (hcore.generations other hother hotherRun) (le_of_eq hkept.symm)
    · intro other hother hotherRun hotherGeneration
      exact hcore.runs other hother hotherRun (hotherGeneration.trans hkept)

theorem beginCall_kept (call : ApiCall) : LoopKept s (beginCall s call).2 := by
  have hbumped : LoopKept s
      ({ s with currentGeneration := s.currentGeneration + 1 } : DebugRuntime).stopRunLoop :=
    LoopKept.stop s
  cases call <;> first
    | exact hbumped
    | exact LoopKept.stop s
    | exact .inl ⟨rfl, rfl, rfl⟩

theorem beginCall_generation (call : ApiCall) :
    (beginCall s call).1 = (beginCall s call).2.currentGeneration ∧
      s.currentGeneration ≤ (beginCall s call).1 := by
  cases call <;> simp [beginCall, stopRunLoop]

theorem beginCall_stops (call : ApiCall) (hstops : call.stops) :
    beginCall s call = (s.currentGeneration, s.stopRunLoop) := by
  cases call <;> first
    | rfl
    | cases hstops

theorem callStep (h : LoopInvariant world) (call : ApiCall) (hclose : call ≠ .close)
    (hclear : PauseClear world (.call call)) : LoopInvariant (world.step (.call call)) := by
  obtain ⟨hcaptured, hgrows⟩ := beginCall_generation world.runtime call
  have hstep : world.step (.call call) =
      { world with
        calls := world.calls + 1
        pauses := if call.stops then world.pauses ++ [world.calls] else world.pauses
        loads := if call.isLoad then world.loads ++ [world.calls] else world.loads
        runtime := (beginCall world.runtime call).2
        queue := world.queue ++
          [{ number := world.calls, generation := (beginCall world.runtime call).1
             kind := .call call }] } := by
    cases call <;> first
      | rfl
      | exact absurd rfl hclose
  have hflight : (world.step (.call call)).ticksInFlight = world.ticksInFlight := by
    simp [hstep, ticksInFlight, loop?]
  have hpauses : ∀ n ∈ world.pauses,
      n ∈ (if call.stops then world.pauses ++ [world.calls] else world.pauses) := by
    intro n hn
    split
    · exact mem_append_left _ hn
    · exact hn
  have hpausesLt : ∀ n ∈ (if call.stops then world.pauses ++ [world.calls] else world.pauses),
      n < world.calls + 1 := by
    intro n hn
    split at hn
    · rcases mem_append.1 hn with hn | hn
      · exact lt_succ_of_lt (h.pausesCalled n hn)
      rw [mem_singleton.1 hn]
      exact lt_succ_self _
    · exact lt_succ_of_lt (h.pausesCalled n hn)
  refine ⟨⟨?_, ?_, ?_, ?_, ?_, ?_, ?_, ?_, ?_, ?_⟩, ?_⟩
  · rw [hflight, hstep]
    cases hstops : call.stops with
    | true =>
      rw [beginCall_stops _ _ hstops]
      exact h.loops.stopped
    | false =>
      exact h.loops.kept (beginCall_kept _ call)
  · rw [hstep]
    intro task htask hrun
    rcases mem_append.1 htask with htask | htask
    · have := h.generations task htask hrun
      simp only
      omega
    · rw [mem_singleton.1 htask]
      exact le_of_eq hcaptured
  · rw [hstep]
    intro task htask hrun hgeneration n hn
    simp only at hgeneration hn
    rcases mem_append.1 htask with htask | htask
    · have hold := h.generations task htask hrun
      have hcurrent : task.generation = world.runtime.currentGeneration := by omega
      cases hstops : call.stops with
      | true => exact absurd hcurrent (hclear hstops task htask hrun)
      | false =>
        rw [hstops] at hn
        exact h.runs task htask hrun hcurrent n hn
    · rw [mem_singleton.1 htask] at hrun ⊢
      have hnoStop : call.stops = false := by
        cases call <;> first
          | rfl
          | cases hrun
      rw [hnoStop] at hn
      exact h.pausesCalled n hn
  · rw [hstep]
    exact hpausesLt
  · rw [hstep]
    intro task htask hstop
    rcases mem_append.1 htask with htask | htask
    · exact hpauses _ (h.stopsQueued task htask hstop)
    rw [mem_singleton.1 htask] at hstop ⊢
    have hstops : call.stops := hstop
    simp [hstops]
  · rw [hstep]
    intro waiting hwaiting hstop
    exact hpauses _ (h.stopsRunning waiting hwaiting hstop)
  · rw [hstep]
    intro task failed hmem hstop
    exact hpauses _ (h.stopsSettled task failed hmem hstop)
  · rw [hstep]
    intro task htask
    rcases mem_append.1 htask with htask | htask
    · exact h.notClose task htask
    rw [mem_singleton.1 htask]
    simpa using hclose
  · rw [hstep]
    exact h.closingRest
  · rw [hstep]
    exact h.pauses
  · rw [hstep]
    exact h.runningRest

theorem quiet_of_close (hkind : task.kind = .call .close) (request : RuntimeRequest) :
    QuietRequest task request := by
  unfold QuietRequest isLoopStep
  split
  · rename_i heq
    cases heq
    simp [loop?, hkind]
  · rfl

theorem close_every (hkind : task.kind = .call .close) :
    Every LoopFrame (QuietRequest task) Action.close := by
  have hlast : Every LoopFrame (QuietRequest task)
      (Coroutine.modify fun s => { s with currentEntry := none, currentBackend := "pipeline" } :
        Action Unit) :=
    Every.modify fun s => ⟨rfl, .inl ⟨rfl, rfl, rfl⟩⟩
  refine (Every.modify stop).bind fun _ => ?_
  refine (Every.get refl).bind fun s => ?_
  cases s.currentSession with
  | none => exact hlast
  | some id =>
    refine (Every.modify fun s => ⟨rfl, .inl ⟨rfl, rfl, rfl⟩⟩).bind fun _ => ?_
    refine (Every.call (quiet_of_close hkind _)).bind fun _ => ?_
    exact (Every.modify fun s => ⟨rfl, .inl ⟨rfl, rfl, rfl⟩⟩).bind fun _ => hlast

variable (h : LoopInvariant world)

include h

theorem closeStep (hkind : task.kind = .call .close)
    {rest : Action Unit} (hrest : Every LoopFrame (QuietRequest task) rest) :
    LoopInvariant (world.resumeClose task rest) := by
  obtain ⟨hframe, hwait⟩ := hrest.advance refl trans world.runtime
  have hloops := h.loops.kept hframe.loop
  unfold resumeClose
  cases hadvance : rest.advance world.runtime with
  | mk s stopped =>
    rw [hadvance] at hframe hwait hloops
    have hgenerations := fun task htask hrun => (h.generations task htask hrun).trans
      (le_of_eq hframe.generation.symm)
    have hruns := fun task htask hrun hgeneration =>
      h.runs task htask hrun (Eq.trans hgeneration hframe.generation)
    cases stopped with
    | done result =>
      refine ⟨⟨hloops.mono fun n => mayStep_mono n, hgenerations, hruns, h.pausesCalled,
        h.stopsQueued, h.stopsRunning, ?_, h.notClose, h.closingRest, ?_⟩, h.runningRest⟩
      · intro task' failed hmem hstop
        rcases mem_append.1 hmem with hmem | hmem
        · exact h.stopsSettled task' failed hmem hstop
        cases mem_singleton.1 hmem
        simp [isStop, hkind, ApiCall.stops] at hstop
      · exact pauseStops_append h.pauses _ fun hstep => by cases hstep
    | waiting request next =>
      obtain ⟨hquiet, hnext⟩ := hwait request next rfl
      refine ⟨⟨hloops.mono fun n => mayStep_mono n, hgenerations, hruns, h.pausesCalled,
        h.stopsQueued, h.stopsRunning, ?_, h.notClose, ?_, ?_⟩, h.runningRest⟩
      · intro task' failed hmem hstop
        rcases mem_append.1 hmem with hmem | hmem
        · exact h.stopsSettled task' failed hmem hstop
        · cases mem_singleton.1 hmem
      · intro waiting hwaiting
        rcases mem_append.1 hwaiting with hwaiting | hwaiting
        · exact h.closingRest waiting hwaiting
        rw [mem_singleton.1 hwaiting]
        exact ⟨hkind, hnext⟩
      · refine pauseStops_append h.pauses _ fun hstep => ?_
        rw [hquiet] at hstep
        cases hstep

theorem step (event : RuntimeEvent) (hclear : PauseClear world event) :
    LoopInvariant (world.step event) := by
  cases event with
  | call call =>
    by_cases hclose : call = .close
    · rw [hclose]
      have hcalled : LoopInvariant { world with calls := world.calls + 1 } :=
        ⟨⟨h.loops, h.generations, h.runs, fun n hn => lt_succ_of_lt (h.pausesCalled n hn),
          h.stopsQueued, h.stopsRunning, h.stopsSettled, h.notClose, h.closingRest, h.pauses⟩,
          h.runningRest⟩
      exact hcalled.closeStep rfl (close_every rfl)
    · exact h.callStep call hclose hclear
  | start =>
    simp only [RuntimeWorld.step]
    cases hidle : world.running with
    | some waiting => exact h
    | none =>
      cases hqueue : world.queue with
      | nil => exact h
      | cons task queue =>
        cases hkind : task.kind with
        | tick loop => exact h.start_tick hidle hqueue hkind
        | call call =>
          by_cases hrun : task.isRun
          · unfold isRun at hrun
            split at hrun
            · rename_i rateHz hrate
              exact h.start_run hidle hqueue hrate
            · cases hrun
          · exact h.start_call hidle hqueue hkind (by simpa using hrun)
  | respond response =>
    simp only [RuntimeWorld.step]
    cases hrunning : world.running with
    | none => exact h
    | some waiting =>
      obtain ⟨hrun, hquiet⟩ := h.runningRest waiting hrunning
      obtain ⟨hframe, hwait⟩ :=
        (hquiet response).advance refl trans world.runtime
      refine resume h.toLoopCore hrunning hrun waiting.start _ hframe fun request next hnext => ?_
      obtain ⟨hrequest, hrest⟩ := hwait request next hnext
      refine ⟨fun hstep => ?_, hrest⟩
      rw [hrequest] at hstep
      cases hstep
  | timer handle =>
    simp only [RuntimeWorld.step]
    split
    · exact h
    rename_i timer hfind
    have hfired := h.loops.fire hfind
    have hqueued : ∀ task ∈ world.queue ++ [{ number := timer.2.run
                                              generation := timer.2.generation
                                              kind := .tick timer.2 }],
        task ∈ world.queue ∨ task.kind = .tick timer.2 := by
      intro task htask
      rcases mem_append.1 htask with htask | htask
      · exact .inl htask
      · exact .inr (by rw [mem_singleton.1 htask])
    refine ⟨⟨hfired.perm ?_, ?_, ?_, h.pausesCalled, ?_, h.stopsRunning, h.stopsSettled, ?_,
      h.closingRest, h.pauses⟩, h.runningRest⟩
    · simp only [ticksInFlight, filterMap_append, filterMap_cons, filterMap_nil,
        loop?, ← List.append_assoc]
      exact (perm_append_singleton timer.2 _).symm
    · intro task htask hrun
      rcases hqueued task htask with hold | hkind
      · exact h.generations task hold hrun
      · simp [isRun, hkind] at hrun
    · intro task htask hrun
      rcases hqueued task htask with hold | hkind
      · exact h.runs task hold hrun
      · simp [isRun, hkind] at hrun
    · intro task htask hstop
      rcases hqueued task htask with hold | hkind
      · exact h.stopsQueued task hold hstop
      · simp [isStop, hkind] at hstop
    · intro task htask
      rcases hqueued task htask with hold | hkind
      · exact h.notClose task hold
      · simp [hkind]
  | continueTick =>
    simp only [RuntimeWorld.step]
    cases hticks : world.ticks with
    | nil => exact h
    | cons tick ticks =>
      obtain ⟨task, loop, error⟩ := tick
      have hloops := h.loops
      simp only [ticksInFlight, hticks, map_cons, List.cons_append] at hloops
      have hgeneration : (afterTick world.runtime task loop error).currentGeneration =
          world.runtime.currentGeneration := by
        unfold afterTick scheduleNextTick
        split
        · rfl
        · rfl
        · split_ifs <;> rfl
      refine ⟨⟨hloops.afterTick task error, ?_, ?_, h.pausesCalled, h.stopsQueued, h.stopsRunning,
        h.stopsSettled, h.notClose, h.closingRest, h.pauses⟩, h.runningRest⟩
      · intro other hother hrun
        exact le_trans (h.generations other hother hrun) (le_of_eq hgeneration.symm)
      intro other hother hrun hcurrent
      exact h.runs other hother hrun (hcurrent.trans hgeneration)
  | closeResponds index response =>
    simp only [RuntimeWorld.step]
    cases hwaiting : world.closing[index]? with
    | none => exact h
    | some waiting =>
      obtain ⟨hkind, hquiet⟩ := h.closingRest waiting (List.mem_of_getElem? hwaiting)
      have hless : LoopInvariant { world with closing := world.closing.eraseIdx index } :=
        ⟨⟨h.loops, h.generations, h.runs, h.pausesCalled, h.stopsQueued, h.stopsRunning,
          h.stopsSettled, h.notClose, fun other hother => h.closingRest other
            (mem_of_mem_eraseIdx hother), h.pauses⟩, h.runningRest⟩
      exact hless.closeStep hkind (hquiet response)

theorem run {events : List RuntimeEvent}
    (hclear : Along PauseClear world events) : LoopInvariant (world.run events) := by
  induction events generalizing world with
  | nil => exact h
  | cons event events ih => exact ih (h.step event hclear.1) hclear.2

end LoopInvariant

/-- In a run where no pause is called while an earlier `run` waits in the queue, no loop steps
after a settled pause until a later `run` has taken effect, and never two loops schedule. -/
theorem run_pauseStops (events : List RuntimeEvent) (hclear : Along PauseClear init events) :
    PauseStops (init.run events).log ∧ OneLoop (init.run events) := by
  have h := LoopInvariant.init.run hclear
  exact ⟨h.pauses, h.loops.one⟩

/-- A session that answers every request without an error. -/
def plainAnswer : RuntimeEvent :=
  .respond (.ok { isError := false, message := none, halted := false, breakpoint := false
                  text := [], nextOffset := none })

def plainEntry : DebugEntry where
  payloads := []
  gprSeeds := []
  bootUntilUartText := []
  bootMaxSteps := 0
  bootRequestTimeoutMs := none
  terminalPrompt := []
  commandUntilUartText := []
  commandMaxSteps := 0
  commandRequestTimeoutMs := none

def plainLoad : List RuntimeEvent :=
  [.call (.load plainEntry "pipeline"), .start, plainAnswer, plainAnswer, plainAnswer, plainAnswer]

theorem runThenPause_stops :
    PauseStops (init.run (plainLoad ++ [.call (.run 8), .start, .timer 0, .call .pause, .start,
      .start])).log ∧
    OneLoop (init.run (plainLoad ++ [.call (.run 8), .start, .timer 0, .call .pause, .start,
      .start])) :=
  run_pauseStops _ (by decide)

def queuedRunThenPause : List RuntimeEvent :=
  plainLoad ++ [.call (.run 8), .call .pause, .start, .start, .timer 0, .start]

/-- The only run it settles as stopped is that of the first task. -/
def settlesFirst : LogEntry → Bool
  | .settled task false => !task.isRun || task.number = 1
  | _ => true

theorem queuedRun_survivesPause :
    ¬ ∀ events, PauseStops (init.run events).log ∧ OneLoop (init.run events) := by
  intro hall
  have hpause : (init.run queuedRunThenPause).log[6]? = some (.settled
      { number := 2, generation := 1, kind := .call .pause } false) := by decide
  have htick : (init.run queuedRunThenPause).log[7]? = some (.requested
      { number := 1, generation := 1,
        kind := .tick { token := 3, generation := 1, intervalMs := 125, run := 1 } }
      (.session 0 .stepCycle)) := by decide
  obtain ⟨k, start, hk, hstart, hrun, hnumber⟩ :=
    (hall queuedRunThenPause).1 6 7 _ _ _ (by decide) hpause rfl htick rfl
  have hruns : ((init.run queuedRunThenPause).log.take 7).all settlesFirst := by decide
  have hmem : settled start false ∈ (init.run queuedRunThenPause).log.take 7 := by
    apply List.mem_of_getElem? (i := k)
    rw [List.getElem?_take_of_lt hk, hstart]
  have hone := all_eq_true.1 hruns _ hmem
  simp only [settlesFirst, hrun, Bool.not_true, Bool.false_or, decide_eq_true_eq] at hone
  rw [hone] at hnumber
  exact absurd hnumber (by decide)

end RuntimeWorld

end VisualCpu
