import VisualCpu.Frontend.BreakpointLoop

/-!
# Runs up to a breakpoint

In every run where no event about an earlier breakpoint stays in the window over a step of a
loop, the loop started last goes on until a pause or the first of its own steps after which the
guest is halted or at a breakpoint, and no loop steps after that.
-/

namespace VisualCpu

open List Action Coroutine RuntimeWorld DebugSession DebugRuntime LoopWorld Option Task RuntimeWorld.LoopInvariant

open Coroutine (Every)

/-- Loop, generation and session are the same. -/
structure LoopFixed (s s' : DebugRuntime) : Prop extends Action.SameLoop s s' where
  session : s'.currentSession = s.currentSession

open LoopFixed

namespace LoopFixed

theorem refl (s : DebugRuntime) : LoopFixed s s := ⟨⟨rfl, rfl, rfl, rfl⟩, rfl⟩

theorem trans (s s' s'' : DebugRuntime) (h : LoopFixed s s') (h' : LoopFixed s' s'') :
    LoopFixed s s'' :=
  ⟨⟨h'.generation.trans h.generation, h'.token.trans h.token, h'.timers.trans h.timers,
    h'.runTimer.trans h.runTimer⟩, h'.session.trans h.session⟩

theorem allowsShow (task : Task) : AllowsShow LoopFixed task where
  refl := refl
  screen _ _ _ _ := ⟨⟨rfl, rfl, rfl, rfl⟩, rfl⟩
  broadcast _ _ := ⟨⟨rfl, rfl, rfl, rfl⟩, rfl⟩

variable {s s' : DebugRuntime}

theorem kept (h : LoopFixed s s') : LoopKept s s' :=
  Or.inl ⟨h.token, h.timers, h.runTimer⟩

theorem scheduling (h : LoopFixed s s') (loops : List RunLoop) :
    schedulingLoops s' loops = schedulingLoops s loops := by
  simp only [schedulingLoops, h.token, h.timers]

end LoopFixed

def showsStop (snapshot : Option SessionResponse) : Bool :=
  snapshot.any (·.halted) || snapshot.any (·.breakpoint)

/-- What a tick still does once its terminal output is answered. -/
def OutputRest (id : ℕ) (loop : RunLoop)
    (rest : Except RuntimeError SessionResponse → Action Unit) : Prop :=
  ∀ (response : SessionResponse) (s : DebugRuntime), response.isError = false →
    loop.generation = s.currentGeneration → s.currentSession = some id →
    ∃ s', (rest (.ok response)).advance s =
        (if showsStop s.currentSnapshot then s'.stopRunLoop else s', .done (.ok ())) ∧
      LoopFixed s s' ∧ s'.currentSnapshot = s.currentSnapshot

/-- What a tick still does once its step is answered. -/
def CycleRest (id : ℕ) (loop : RunLoop)
    (rest : Except RuntimeError SessionResponse → Action Unit) : Prop :=
  ∀ (response : SessionResponse) (s : DebugRuntime), response.isError = false →
    loop.generation = s.currentGeneration → s.currentSession = some id →
    ∃ s' offset next, (rest (.ok response)).advance s =
        (s', .waiting (.session id (.uartOutput offset)) next) ∧
      LoopFixed s s' ∧ s'.currentSnapshot = some response ∧ OutputRest id loop next

namespace RuntimeWorld

open VisualCpu.RuntimeWorld.LoopInvariant (requireSessionLoaded_advance assertGeneration_advance)
open Coroutine (advance_bind_done advance_bind_waiting)

variable {s : DebugRuntime} {id : ℕ} {loop : RunLoop}

theorem generation_advance {generation : ℕ} (hgeneration : generation = s.currentGeneration) :
    (assertGeneration generation).advance s = (s, .done (.ok ())) := by
  rw [assertGeneration_advance, if_neg (not_not_intro hgeneration)]

theorem loaded_advance (hid : s.currentSession = some id) :
    requireSessionLoaded.advance s = (s, .done (.ok id)) := by
  rw [requireSessionLoaded_advance, hid]

theorem callSession_advance (method : SessionCall) (hid : s.currentSession = some id) :
    ∃ next, (callSession method).advance s = (s, .waiting (.session id method) next) ∧
      ∀ (response : SessionResponse) (s' : DebugRuntime), response.isError = false →
        (next (.ok response)).advance s' = (s', .done (.ok response)) := by
  unfold callSession
  rw [advance_bind_done (loaded_advance hid)]
  refine ⟨_, rfl, fun response s' hok => ?_⟩
  change (normalizeCliResponse response _).advance s' = _
  unfold normalizeCliResponse
  rw [hok]
  rfl

theorem trackTerminalChunk_advance (chunk : SessionResponse) (reset : Bool) (s : DebugRuntime) :
    (Action.trackTerminalChunk chunk reset).advance s =
      (s.trackTerminalChunk chunk reset, .done (.ok (chunk.text, s.nextOffset chunk))) := rfl

theorem syncTerminalDelta_advance (task : Task) {generation id : ℕ}
    (hid : s.currentSession = some id) :
    ∃ offset next, (Action.syncTerminalDelta task none false true generation).advance s =
        (s, .waiting (.session id (.uartOutput offset)) next) ∧
      ∀ (response : SessionResponse) (s' : DebugRuntime), response.isError = false →
        generation = s'.currentGeneration →
        ∃ message s'', (next (.ok response)).advance s' = (s'', .done (.ok message)) ∧
          LoopFixed s' s'' ∧ s''.currentSnapshot = s'.currentSnapshot := by
  obtain ⟨next, hcall, hnext⟩ :=
    callSession_advance (.uartOutput ((none : Option ℕ).getD s.currentTerminalOffset)) hid
  unfold Action.syncTerminalDelta readTerminalOutput
  rw [advance_bind_done (advance_get s), advance_bind_waiting (advance_bind_waiting hcall _)]
  refine ⟨_, _, rfl, fun response s' hok hgeneration => ?_⟩
  have hread := advance_bind_done (hnext response s' hok) fun chunk => do
    assertGeneration generation
    pure { chunk with
      nextOffset := some (chunk.nextOffset.getD ((none : Option ℕ).getD s.currentTerminalOffset)) }
  rw [advance_bind_done (generation_advance hgeneration)] at hread
  rw [advance_bind_done hread, advance_bind_done (trackTerminalChunk_advance _ _ s')]
  cases hquiet : response.text.isEmpty with
  | true =>
    exact ⟨_, _, rfl, ⟨⟨rfl, rfl, rfl, rfl⟩, rfl⟩, rfl⟩
  | false =>
    exact ⟨_, _, rfl, ⟨⟨rfl, rfl, rfl, rfl⟩, rfl⟩, rfl⟩

theorem afterStepCycle_advance (task : Task)
    (response : SessionResponse) (hgeneration : loop.generation = s.currentGeneration)
    (hid : s.currentSession = some id) :
    ∃ s' offset next, (afterStepCycle task loop response).advance s =
        (s', .waiting (.session id (.uartOutput offset)) next) ∧
      LoopFixed s s' ∧ s'.currentSnapshot = some response ∧ OutputRest id loop next := by
  let shown : DebugRuntime := { s with currentSnapshot := some response }
  have hshown : (setSnapshot (some response)).advance s = (shown, .done (.ok ())) := rfl
  have hbroadcast : (broadcastSnapshot task).advance shown =
      (shown.broadcast task (.snapshot shown.currentSnapshot), .done (.ok ())) := rfl
  obtain ⟨offset, next, hsync, hnext⟩ := @syncTerminalDelta_advance
    (shown.broadcast task (.snapshot shown.currentSnapshot)) task loop.generation id hid
  have hchecked : (assertGeneration loop.generation).advance shown =
      (shown, .done (.ok ())) := generation_advance hgeneration
  unfold afterStepCycle
  rw [advance_bind_done hshown, advance_bind_done hchecked, advance_bind_done hbroadcast,
    advance_bind_waiting hsync]
  refine ⟨_, offset, _, rfl, ⟨⟨rfl, rfl, rfl, rfl⟩, rfl⟩, rfl, ?_⟩
  intro answer s' hok hgeneration' hid'
  obtain ⟨message, s'', hdone, hfixed, hsnapshot⟩ := hnext answer s' hok hgeneration'
  rw [advance_bind_done hdone, advance_bind_done (advance_get s'')]
  refine ⟨s'', ?_, hfixed, hsnapshot⟩
  change (if showsStop s''.currentSnapshot = true then _ else _ : Action Unit).advance s'' = _
  rw [hsnapshot]
  split <;> rfl

theorem tick_starts (task : Task)
    (hgeneration : loop.generation = s.currentGeneration) (hid : s.currentSession = some id) :
    (loop.token ≠ s.runLoopToken ∧ (Action.tick task loop).advance s = (s, .done (.ok ()))) ∨
      (loop.token = s.runLoopToken ∧ ∃ next, (Action.tick task loop).advance s =
        (s, .waiting (.session id .stepCycle) next) ∧ CycleRest id loop next) := by
  rw [tick_eq, advance_bind_done (generation_advance hgeneration),
    advance_bind_done (advance_get s)]
  by_cases htoken : loop.token = s.runLoopToken
  · refine .inr ⟨htoken, ?_⟩
    have hgo : ¬ (s.currentSession = none ∨ loop.token ≠ s.runLoopToken) := by
      rw [hid]
      simp [htoken]
    obtain ⟨next, hcall, hnext⟩ := callSession_advance .stepCycle hid
    rw [if_neg hgo, advance_bind_waiting hcall]
    refine ⟨_, rfl, fun response s' hok hgeneration' hid' => ?_⟩
    rw [advance_bind_done (hnext response s' hok)]
    exact afterStepCycle_advance task response hgeneration' hid'
  · refine .inl ⟨htoken, ?_⟩
    rw [if_pos (.inr htoken)]
    rfl

variable {rest : Action Unit} {task : Task}

theorem resume_waiting (world : RuntimeWorld) {start s : DebugRuntime}
    {request : RuntimeRequest}
    {next : Except RuntimeError SessionResponse → Action Unit}
    (hadvance : rest.advance world.runtime = (s, .waiting request next)) :
    world.resume task start rest =
      { world with
        runtime := s
        running := some { task := task, start := start, request := request, rest := next }
        log := world.log ++ [.requested task request] } := by
  unfold resume
  rw [hadvance]

theorem resume_done (world : RuntimeWorld) {start s : DebugRuntime}
    {result : Except RuntimeError Unit}
    (hadvance : rest.advance world.runtime = (s, .done result)) :
    world.resume task start rest =
      { world with
        runtime := s
        running := none
        ticks := world.ticks ++ afterAction task result
        log := world.log ++ [.settled task (isFailed result)]
        outcomes := world.outcomes ++
          [{ task := task, start := start, failed := isFailed result, finish := s }] } := by
  unfold resume
  rw [hadvance]

theorem resume_requested {world : RuntimeWorld} {task other : Task} {start : DebugRuntime}
    {request : RuntimeRequest}
    (hlog : (world.resume task start rest).log = world.log ++ [.requested other request]) :
    other = task ∧ ∃ next, (rest.advance world.runtime).2 = .waiting request next := by
  unfold resume at hlog
  cases hadvance : rest.advance world.runtime with
  | mk s stopped =>
    rw [hadvance] at hlog
    cases stopped with
    | done result =>
      have hentry := append_cancel_left hlog
      cases head_eq_of_cons_eq hentry
    | waiting request' next =>
      have hentry := append_cancel_left hlog
      cases head_eq_of_cons_eq hentry
      exact ⟨rfl, next, rfl⟩

end RuntimeWorld

namespace LoopWorld

variable {M : Type} {ops : MachineOps M} {w : LoopWorld M} {id generation : ℕ} {w' : LoopWorld M}

/-- A tick has read a snapshot at which it is about to stop its loop. -/
def Stopping (w : LoopWorld M) (id : ℕ) : Prop :=
  ∃ waiting loop offset, w.world.running = some waiting ∧ waiting.task.loop? = some loop ∧
    waiting.request = .session id (.uartOutput offset) ∧
    showsStop w.world.runtime.currentSnapshot

/-- What the running action still does. -/
inductive RunningRest (id : ℕ) (w : LoopWorld M) (waiting : Waiting) : Prop
  | call (hloop : waiting.task.loop? = none)
      (hrest : ∀ response, Every LoopFixed (fun _ => True) (waiting.rest response))
  | cycle (loop : RunLoop) (hloop : waiting.task.loop? = some loop)
      (htoken : loop.token = w.world.runtime.runLoopToken ∨ w.due = none)
      (hrequest : waiting.request = .session id .stepCycle)
      (hrest : CycleRest id loop waiting.rest)
  | output (loop : RunLoop) (offset : ℕ) (hloop : waiting.task.loop? = some loop)
      (htoken : loop.token = w.world.runtime.runLoopToken ∨ w.due = none)
      (hrequest : waiting.request = .session id (.uartOutput offset))
      (hrest : OutputRest id loop waiting.rest)

theorem Stopping.of_same (h : w'.Stopping id) (hrunning : w'.world.running = w.world.running)
    (hsnapshot : w'.world.runtime.currentSnapshot = w.world.runtime.currentSnapshot) :
    w.Stopping id := by
  obtain ⟨waiting, loop, offset, hwaiting, hloop, hrequest, hshows⟩ := h
  exact ⟨waiting, loop, offset, hrunning ▸ hwaiting, hloop, hrequest, hsnapshot ▸ hshows⟩

theorem RunningRest.of_token {waiting : Waiting} (h : RunningRest id w waiting)
    (htoken : ∀ loop : RunLoop, loop.token = w.world.runtime.runLoopToken ∨ w.due = none →
      loop.token = w'.world.runtime.runLoopToken ∨ w'.due = none) :
    RunningRest id w' waiting := by
  cases h with
  | call hloop hrest => exact .call hloop hrest
  | cycle loop hloop hlive hrequest hrest =>
    exact .cycle loop hloop (htoken loop hlive) hrequest hrest
  | output loop offset hloop hlive hrequest hrest =>
    exact .output loop offset hloop (htoken loop hlive) hrequest hrest

/-- A queued action is one of the calls or a tick. -/
def LoopTask (generation : ℕ) (task : Task) : Prop :=
  task.generation = generation ∧
    ((∃ call : LoopCall, task.kind = .call call.api) ∨ ∃ loop, task.kind = .tick loop)

structure DueInvariant (id generation : ℕ) (w : LoopWorld M) : Prop where
  session : w.world.runtime.currentSession = some id
  current : w.world.runtime.currentGeneration = generation
  machine : w.session.machine ≠ none
  alive : w.alive
  tasks : ∀ task ∈ w.world.queue, LoopTask generation task
  timers : ∀ timer ∈ w.world.runtime.timers, timer.2.generation = generation
  flights : ∀ loop ∈ w.world.ticksInFlight, loop.generation = generation
  settled : ∀ tick ∈ w.world.ticks, tick.2.2 = none
  sound : LoopsSound w.world.runtime w.world.ticksInFlight
    fun run => w.due = some run ∨ w.Stopping id
  kept : ∀ run, w.due = some run → ∃ loop ∈ w.scheduling, loop.run = run
  stopping : w.Stopping id → w.due = none
  going : ∀ tick ∈ w.world.ticks, tick.2.1.token = w.world.runtime.runLoopToken →
    showsStop w.world.runtime.currentSnapshot = false
  running : ∀ waiting, w.world.running = some waiting → RunningRest id w waiting

theorem LoadedIdle.dueInvariant (h : w.LoadedIdle)
    (hid : w.world.runtime.currentSession = some id) :
    DueInvariant id w.world.runtime.currentGeneration w := by
  have hflight : w.world.ticksInFlight = [] := by
    simp [ticksInFlight, h.queue, h.running, h.ticks]
  have hnone : schedulingLoops w.world.runtime w.world.ticksInFlight = [] := by
    simp [schedulingLoops, hflight, h.timers.1]
  refine ⟨hid, rfl, h.machine, h.alive, ?_, ?_, ?_, ?_,
    ⟨.inl ⟨h.timers.2, h.timers.1⟩, ?_, ?_, ?_⟩, ?_, ?_, ?_, ?_⟩
  · simp [h.queue]
  · simp [h.timers.1]
  · simp [hflight]
  · simp [h.ticks]
  · simp [hnone]
  · simp [hflight]
  · simp [hnone]
  · simp [h.due]
  · exact fun _ => h.due
  · simp [h.ticks]
  · simp [h.running]

namespace DueInvariant

theorem due_of_quiet (h : DueInvariant id generation w) (hquiet : ¬ w.Stopping id) :
    ∀ loop ∈ w.scheduling, w.due = some loop.run := by
  intro loop hmem
  rcases h.sound.live loop hmem with hdue | hstop
  · exact hdue
  · exact absurd hstop hquiet

theorem call_world (w : LoopWorld M) (call : LoopCall) : (w.step ops (.call call)).world =
      { w.world with
        calls := w.world.calls + 1
        pauses := if call.api.stops then w.world.pauses ++ [w.world.calls] else w.world.pauses
        runtime := if call.api.stops then w.world.runtime.stopRunLoop else w.world.runtime
        queue := w.world.queue ++
          [{ number := w.world.calls, generation := w.world.runtime.currentGeneration
             kind := .call call.api }] } := by
  cases call <;> rfl

theorem callStep (h : DueInvariant id generation w) (call : LoopCall) :
    DueInvariant id generation (w.step ops (.call call)) := by
  have hworld := @call_world M ops w call
  have hflight : (w.step ops (.call call)).world.ticksInFlight = w.world.ticksInFlight := by
    simp [hworld, ticksInFlight, loop?]
  have hdue : (w.step ops (.call call)).due = if call.api.stops then none else w.due := rfl
  have hqueue : ∀ task ∈ (w.step ops (.call call)).world.queue, LoopTask generation task := by
    intro task htask
    rw [hworld] at htask
    rcases mem_append.1 htask with htask | htask
    · exact h.tasks task htask
    rw [mem_singleton.1 htask]
    exact ⟨h.current, .inl ⟨call, rfl⟩⟩
  cases hstops : call.api.stops with
  | false =>
    rw [hstops] at hworld hdue
    simp only [Bool.false_eq_true, if_false] at hworld hdue
    have hruntime : (w.step ops (.call call)).world.runtime = w.world.runtime := by rw [hworld]
    have hrunning : (w.step ops (.call call)).world.running = w.world.running := by rw [hworld]
    have hticks : (w.step ops (.call call)).world.ticks = w.world.ticks := by rw [hworld]
    have hstopping : (w.step ops (.call call)).Stopping id → w.Stopping id := fun hstop =>
      hstop.of_same hrunning (by rw [hruntime])
    refine ⟨by rw [hruntime]; exact h.session, by rw [hruntime]; exact h.current, h.machine,
      h.alive, hqueue, by rw [hruntime]; exact h.timers, by rw [hflight]; exact h.flights,
      by rw [hticks]; exact h.settled, ?_, ?_, ?_, by rw [hticks, hruntime]; exact h.going, ?_⟩
    · rw [hruntime, hflight]
      refine h.sound.mono fun run hrun => ?_
      rcases hrun with hrun | hstop
      · exact .inl (hdue.trans hrun)
      obtain ⟨waiting, loop, offset, hwaiting, hrest⟩ := hstop
      exact .inr ⟨waiting, loop, offset, hrunning.trans hwaiting, hruntime ▸ hrest⟩
    · intro run hrun
      unfold scheduling
      rw [hruntime, hflight]
      exact h.kept run (hdue.symm.trans hrun)
    · exact fun hstop => hdue.trans (h.stopping (hstopping hstop))
    · intro waiting hwaiting
      apply (h.running waiting (hrunning.symm.trans hwaiting)).of_token
      intro loop hlive
      rw [hruntime, hdue]
      exact hlive
  | true =>
    rw [hstops] at hworld hdue
    simp only [if_true] at hworld hdue
    have hruntime : (w.step ops (.call call)).world.runtime = w.world.runtime.stopRunLoop := by
      rw [hworld]
    have hrunning : (w.step ops (.call call)).world.running = w.world.running := by rw [hworld]
    have hticks : (w.step ops (.call call)).world.ticks = w.world.ticks := by rw [hworld]
    refine ⟨by rw [hruntime]; exact h.session, by rw [hruntime]; exact h.current, h.machine,
      h.alive, hqueue, ?_, by rw [hflight]; exact h.flights, by rw [hticks]; exact h.settled, ?_,
      ?_, fun _ => hdue, ?_, ?_⟩
    · rw [hruntime, h.sound.timers_stop]
      exact fun timer htimer => absurd htimer not_mem_nil
    · rw [hruntime, hflight]
      exact h.sound.stopped
    · intro run hrun
      rw [hdue] at hrun
      cases hrun
    · intro tick htick htoken
      rw [hticks] at htick
      rw [hruntime] at htoken
      have hflown : tick.2.1 ∈ w.world.ticksInFlight :=
        mem_append_left _ (mem_map_of_mem htick)
      have hold := h.sound.tokens tick.2.1 hflown
      simp only [stopRunLoop] at htoken
      omega
    · intro waiting hwaiting
      apply (h.running waiting (hrunning.symm.trans hwaiting)).of_token
      exact fun _ _ => .inr hdue

theorem of_fixed (h : DueInvariant id generation w) {w' : LoopWorld M}
    (hfixed : LoopFixed w.world.runtime w'.world.runtime)
    (hflight : w'.world.ticksInFlight = w.world.ticksInFlight)
    (hmachine : w'.session.machine ≠ none) (halive : w'.alive)
    (htasks : ∀ task ∈ w'.world.queue, LoopTask generation task)
    (hsettled : ∀ tick ∈ w'.world.ticks, tick.2.2 = none)
    (hlive : ∀ loop ∈ w.scheduling, w'.due = some loop.run ∨ w'.Stopping id)
    (hdue : ∀ run, w'.due = some run → w.due = some run)
    (hstopping : w'.Stopping id → w'.due = none)
    (hgoing : ∀ tick ∈ w'.world.ticks, tick.2.1.token = w.world.runtime.runLoopToken →
      showsStop w'.world.runtime.currentSnapshot = false)
    (hrunning : ∀ waiting, w'.world.running = some waiting → RunningRest id w' waiting) :
    DueInvariant id generation w' := by
  have hscheduling : w'.scheduling = w.scheduling := by
    unfold scheduling
    rw [hflight]
    exact hfixed.scheduling _
  have hsound := h.sound.kept hfixed.kept
  refine ⟨hfixed.session.trans h.session, hfixed.generation.trans h.current, hmachine, halive,
    htasks, by rw [hfixed.timers]; exact h.timers, by rw [hflight]; exact h.flights, hsettled, ?_,
    ?_, hstopping, by rw [hfixed.token]; exact hgoing, hrunning⟩
  · rw [hflight]
    refine ⟨hsound.timer, hsound.one, hsound.tokens, fun loop hloop => ?_⟩
    rw [hfixed.scheduling] at hloop
    exact hlive loop hloop
  · intro run hrun
    rw [hscheduling]
    exact h.kept run (hdue run hrun)

variable {waiting : Waiting}

theorem not_stopping (hrunning : w.world.running = some waiting)
    (hrest : waiting.task.loop? = none ∨ waiting.request = .session id .stepCycle) :
    ¬ w.Stopping id := by
  rintro ⟨other, loop, offset, hother, hloop, hrequest, _⟩
  rw [hrunning] at hother
  cases hother
  rcases hrest with hnone | hcycle
  · rw [hnone] at hloop
    cases hloop
  rw [hcycle] at hrequest
  cases hrequest

theorem idle_not_stopping (hrunning : w.world.running = none) : ¬ w.Stopping id := by
  rintro ⟨other, loop, offset, hother, _⟩
  rw [hrunning] at hother
  cases hother

variable {task : Task}

theorem afterAction_call (hloop : task.loop? = none)
    (result : Except RuntimeError Unit) : RuntimeWorld.afterAction task result = [] := by
  unfold RuntimeWorld.afterAction
  cases hkind : task.kind with
  | call call => rfl
  | tick loop => simp [loop?, hkind] at hloop

theorem resume_call (h : DueInvariant id generation w)
    (hrunning : w.world.running = some waiting) (hloop : waiting.task.loop? = none)
    (start : DebugRuntime) (rest : Action Unit) (session : DebugSession M)
    (hmachine : session.machine ≠ none)
    (hfixed : LoopFixed w.world.runtime (rest.advance w.world.runtime).1)
    (hshown : w.world.ticks = [] ∨
      (rest.advance w.world.runtime).1.currentSnapshot = w.world.runtime.currentSnapshot)
    (hwait : ∀ request next, (rest.advance w.world.runtime).2 = .waiting request next →
      ∀ response, Every LoopFixed (fun _ => True) (next response)) :
    DueInvariant id generation
      { w with world := w.world.resume waiting.task start rest, session := session } := by
  have hflight := resume_ticksInFlight hrunning start rest
  have hquiet : ¬ w.Stopping id := not_stopping hrunning (.inl hloop)
  have hlive := h.due_of_quiet hquiet
  have hgoing : ∀ tick ∈ w.world.ticks, tick.2.1.token = w.world.runtime.runLoopToken →
      showsStop (rest.advance w.world.runtime).1.currentSnapshot = false := by
    intro tick htick htoken
    rcases hshown with hnone | hsame
    · rw [hnone] at htick
      cases htick
    rw [hsame]
    exact h.going tick htick htoken
  unfold RuntimeWorld.resume at hflight ⊢
  cases hadvance : rest.advance w.world.runtime with
  | mk s stopped =>
    rw [hadvance] at hflight hfixed hgoing hwait
    cases stopped with
    | done result =>
      simp only [afterAction_call hloop, append_nil] at hflight ⊢
      exact h.of_fixed hfixed hflight hmachine h.alive h.tasks h.settled
        (fun loop hmem => .inl (hlive loop hmem)) (fun _ hrun => hrun)
        (fun hstop => absurd hstop (idle_not_stopping rfl)) hgoing fun _ hnone => by cases hnone
    | waiting request next =>
      refine h.of_fixed hfixed hflight hmachine h.alive h.tasks h.settled
        (fun loop hmem => .inl (hlive loop hmem)) (fun _ hrun => hrun)
        (fun hstop => absurd hstop (not_stopping rfl (.inl hloop))) hgoing ?_
      intro other hother
      cases hother
      exact .call hloop (hwait request next rfl)

variable {queue : List Task}

theorem take (h : DueInvariant id generation w)
    (hidle : w.world.running = none) (hqueue : w.world.queue = waiting.task :: queue)
    (hrequest : waiting.request = .createSession) (hrest : RunningRest id w waiting) :
    DueInvariant id generation
      { w with world := { w.world with queue := queue, running := some waiting } } := by
  have hflight : ticksInFlight { w.world with
      queue := queue, running := some waiting } = w.world.ticksInFlight := by
    cases hloop : waiting.task.loop? <;>
      simp [ticksInFlight, hidle, hqueue, hloop]
  have hstopping : ¬ Stopping { w with world := { w.world with
      queue := queue, running := some waiting } } id := by
    rintro ⟨other, loop, offset, hother, _, hoffset, _⟩
    cases hother
    rw [hrequest] at hoffset
    cases hoffset
  refine h.of_fixed (refl _) hflight h.machine h.alive ?_ h.settled ?_
    (fun _ hrun => hrun) (fun hstop => absurd hstop hstopping) h.going ?_
  · intro task htask
    exact h.tasks task (by rw [hqueue]; exact mem_cons_of_mem _ htask)
  · intro loop hloop
    rcases h.sound.live loop hloop with hdue | hstop
    · exact .inl hdue
    · exact absurd hstop (idle_not_stopping hidle)
  · intro other hother
    cases hother
    exact hrest.of_token fun _ hlive => hlive

variable {call : LoopCall}

theorem program_every (hkind : task.kind = .call call.api)
    (hrun : task.isRun = false) : Every LoopFixed (fun _ => True) (program task) := by
  have hshow := allowsShow task
  unfold program
  rw [hkind]
  cases call with
  | run rateHz => simp [isRun, hkind, LoopCall.api] at hrun
  | pause => trivial
  | stepCycle => exact stepSession_every hshow (fun _ _ => trivial) _
  | stepCommit => exact stepSession_every hshow (fun _ _ => trivial) _
  | breakAt addr => exact debugCommand_every hshow (fun _ _ => trivial) _

theorem stepSession_starts (method : SessionCall) {s : DebugRuntime}
    (hgeneration : task.generation = s.currentGeneration) (hid : s.currentSession = some id) :
    ((stepSession task method).advance s).1 = s := by
  obtain ⟨next, hcall, _⟩ := RuntimeWorld.callSession_advance method hid
  unfold stepSession
  rw [Coroutine.advance_bind_done (RuntimeWorld.generation_advance hgeneration),
    Coroutine.advance_bind_done (RuntimeWorld.loaded_advance hid),
    Coroutine.advance_bind_waiting hcall]

theorem program_starts {s : DebugRuntime}
    (hkind : task.kind = .call call.api) (hrun : task.isRun = false)
    (hgeneration : task.generation = s.currentGeneration) (hid : s.currentSession = some id) :
    ((program task).advance s).1 = s := by
  unfold program
  rw [hkind]
  cases call with
  | run rateHz => simp [isRun, hkind, LoopCall.api] at hrun
  | pause => rfl
  | stepCycle => exact stepSession_starts _ hgeneration hid
  | stepCommit => exact stepSession_starts _ hgeneration hid
  | breakAt addr =>
    obtain ⟨next, hcall, _⟩ := RuntimeWorld.callSession_advance (.breakAt addr.toNat) hid
    change ((Action.debugCommand task (.breakAt addr.toNat)).advance s).1 = s
    unfold Action.debugCommand
    rw [Coroutine.advance_bind_done (RuntimeWorld.generation_advance hgeneration),
      Coroutine.advance_bind_done (RuntimeWorld.loaded_advance hid)]
    rw [Coroutine.advance_bind_waiting hcall]

theorem start_call (h : DueInvariant id generation w) (hidle : w.world.running = none)
    (hqueue : w.world.queue = task :: queue)
    (hkind : task.kind = .call call.api) (hrun : task.isRun = false) :
    DueInvariant id generation { w with
      world := RuntimeWorld.resume { w.world with queue := queue } task w.world.runtime
        (program task) } := by
  have hprogram := program_every hkind hrun
  have hloop : task.loop? = none := by simp [loop?, hkind]
  have htaken := @take M w id generation
    ⟨task, w.world.runtime, .createSession, fun _ => program task⟩ queue h hidle hqueue rfl
    (.call hloop fun _ => hprogram)
  obtain ⟨hgeneration, _⟩ := h.tasks task (by rw [hqueue]; exact mem_cons_self)
  have hstart := program_starts hkind hrun (hgeneration.trans h.current.symm) h.session
  obtain ⟨hfixed, hwait⟩ := hprogram.advance refl trans w.world.runtime
  rw [resume_congr
    (some ⟨task, w.world.runtime, .createSession, fun _ => program task⟩)]
  exact htaken.resume_call rfl hloop w.world.runtime _ w.session h.machine hfixed
    (.inr (by rw [hstart])) fun request next hnext => (hwait request next hnext).2

variable {loop : RunLoop}

theorem loop_of_kind (hkind : task.kind = .tick loop) : task.loop? = some loop := by
  simp [loop?, hkind]

theorem kind_of_loop (hloop : task.loop? = some loop) : task.kind = .tick loop := by
  unfold loop? at hloop
  split at hloop
  · cases hloop
  rename_i other hother
  rw [hother, some.inj hloop]

theorem start_tick (h : DueInvariant id generation w) (hidle : w.world.running = none)
    (hqueue : w.world.queue = task :: queue) (hkind : task.kind = .tick loop) :
    DueInvariant id generation { w with
      world := RuntimeWorld.resume { w.world with queue := queue } task w.world.runtime
        (program task) } := by
  have hloop := loop_of_kind hkind
  have hprogram : program task = Action.tick task loop := by
    simp only [program, hkind]
  have htasks : ∀ other ∈ queue, LoopTask generation other := by
    intro other hother
    exact h.tasks other (by rw [hqueue]; exact mem_cons_of_mem _ hother)
  have hflown : loop ∈ w.world.ticksInFlight := by
    simp [ticksInFlight, hqueue, hloop]
  have hlive := h.due_of_quiet (idle_not_stopping hidle)
  rw [hprogram]
  rcases RuntimeWorld.tick_starts task ((h.flights loop hflown).trans h.current.symm) h.session with
    ⟨hstale, hdone⟩ | ⟨htoken, next, hwait, hrest⟩
  · rw [RuntimeWorld.resume_done { w.world with queue := queue } hdone]
    have hafter : RuntimeWorld.afterAction task (.ok ()) = [(task, loop, none)] := by
      simp [RuntimeWorld.afterAction, hkind]
    rw [hafter]
    refine h.of_fixed (refl _) ?_ h.machine h.alive htasks ?_
      (fun other hother => .inl (hlive other hother)) (fun _ hrun => hrun)
      (fun hstop => absurd hstop (idle_not_stopping rfl)) ?_ fun _ hnone => by cases hnone
    · simp [ticksInFlight, hidle, hqueue, hloop]
    · intro tick htick
      rcases mem_append.1 htick with htick | htick
      · exact h.settled tick htick
      · rw [mem_singleton.1 htick]
    · intro tick htick hcurrent
      rcases mem_append.1 htick with htick | htick
      · exact h.going tick htick hcurrent
      rw [mem_singleton.1 htick] at hcurrent
      exact absurd hcurrent hstale
  · rw [RuntimeWorld.resume_waiting { w.world with queue := queue } hwait]
    refine h.of_fixed (refl _) ?_ h.machine h.alive htasks h.settled
      (fun other hother => .inl (hlive other hother)) (fun _ hrun => hrun)
      (fun hstop => absurd hstop (not_stopping rfl (.inr rfl))) h.going ?_
    · simp [ticksInFlight, hidle, hqueue, hloop]
    intro other hother
    cases hother
    exact .cycle loop hloop (.inl htoken) rfl hrest

theorem startRunLoop_eq {s : DebugRuntime} (hid : s.currentSession = some id) (intervalMs run : ℕ) :
    s.startRunLoop intervalMs s.currentGeneration run =
      { s.stopRunLoop with
        timers := s.stopRunLoop.timers ++
          [(s.armedTimers, { token := s.runLoopToken + 1, generation := s.currentGeneration
                             intervalMs := intervalMs, run := run })]
        runTimer := some s.armedTimers
        armedTimers := s.armedTimers + 1 } := by
  have hgo : ¬ (s.stopRunLoop.runLoopToken ≠ s.stopRunLoop.runLoopToken ∨
      s.currentGeneration ≠ s.stopRunLoop.currentGeneration ∨
      s.stopRunLoop.currentSession = none) := by
    simp [stopRunLoop, hid]
  unfold startRunLoop scheduleNextTick
  rw [if_neg hgo]
  rfl

theorem start_run (h : DueInvariant id generation w)
    {rateHz : ℕ} (hidle : w.world.running = none) (hqueue : w.world.queue = task :: queue)
    (hkind : task.kind = .call (.run rateHz)) :
    DueInvariant id generation { w with
      world := RuntimeWorld.resume { w.world with queue := queue } task w.world.runtime
        (program task)
      due := some task.number } := by
  have hprogram : program task = Action.run task rateHz := by
    simp only [program, hkind]
  have hgeneration : task.generation = w.world.runtime.currentGeneration := by
    rw [h.current]
    exact (h.tasks task (by rw [hqueue]; exact mem_cons_self)).1
  have hdone : (Action.run task rateHz).advance w.world.runtime =
      (w.world.runtime.startRunLoop (max 20 (1000 / max 1 rateHz)) task.generation task.number,
        .done (.ok ())) := by
    unfold Action.run
    rw [Coroutine.advance_bind_done (RuntimeWorld.generation_advance hgeneration),
      Coroutine.advance_bind_done (RuntimeWorld.loaded_advance h.session)]
    rfl
  have hafter : RuntimeWorld.afterAction task (.ok ()) = [] := by
    simp [RuntimeWorld.afterAction, hkind]
  rw [hprogram, RuntimeWorld.resume_done { w.world with queue := queue } hdone, hafter, append_nil]
  have hflight : w.world.ticksInFlight =
      w.world.ticks.map (fun tick => tick.2.1) ++ queue.filterMap loop? := by
    simp [ticksInFlight, hidle, hqueue, loop?, hkind]
  have hsound : LoopsSound (w.world.runtime.startRunLoop (max 20 (1000 / max 1 rateHz))
      task.generation task.number) w.world.ticksInFlight fun run => some task.number = some run :=
    h.sound.restart _ _ _ rfl
  rw [hgeneration, startRunLoop_eq h.session] at hsound ⊢
  rw [hflight] at hsound
  have hquiet : ∀ w' : LoopWorld M, w'.world.running = none → ¬ w'.Stopping id := fun _ =>
    idle_not_stopping
  refine ⟨h.session, h.current, h.machine, h.alive, ?_, ?_, ?_, h.settled, ?_, ?_,
    fun hstop => absurd hstop (hquiet _ rfl), ?_, fun _ hnone => by cases hnone⟩
  · intro other hother
    exact h.tasks other (by rw [hqueue]; exact mem_cons_of_mem _ hother)
  · intro timer htimer
    rw [h.sound.timers_stop, nil_append, mem_singleton] at htimer
    rw [htimer]
    exact h.current
  · intro loop hloop
    apply h.flights loop
    rw [hflight]
    simpa [ticksInFlight] using hloop
  · refine LoopsSound.mono ?_ fun _ hrun => .inl hrun
    simpa only [ticksInFlight, toList_none, filterMap_nil, nil_append] using hsound
  · intro run hrun
    cases hrun
    refine ⟨{ token := w.world.runtime.runLoopToken + 1
              generation := w.world.runtime.currentGeneration
              intervalMs := max 20 (1000 / max 1 rateHz), run := task.number }, ?_, rfl⟩
    simp [scheduling, schedulingLoops]
  · intro tick htick htoken
    have hold := h.sound.tokens tick.2.1 (mem_append_left _ (mem_map_of_mem htick))
    simp only [stopRunLoop] at htoken
    omega

theorem startStep (h : DueInvariant id generation w) :
    DueInvariant id generation (w.step ops .start) := by
  simp only [step, RuntimeWorld.step, dueAfterStart]
  cases hidle : w.world.running with
  | some waiting => exact h
  | none =>
    cases hqueue : w.world.queue with
    | nil => exact h
    | cons task queue =>
      obtain ⟨_, hkind⟩ := h.tasks task (by rw [hqueue]; exact mem_cons_self)
      dsimp only
      rcases hkind with ⟨call, hkind⟩ | ⟨loop, hkind⟩
      · by_cases hrun : task.isRun
        · rw [if_pos hrun]
          unfold isRun at hrun
          split at hrun
          · rename_i rateHz hrate
            exact h.start_run hidle hqueue hrate
          · cases hrun
        · rw [if_neg hrun]
          exact h.start_call hidle hqueue hkind (by simpa using hrun)
      · rw [if_neg (by simp [isRun, hkind])]
        exact h.start_tick hidle hqueue hkind

variable {s : DebugSession M} {machine : M}

theorem serve_stepCycle (hmachine : s.machine = some machine) :
    ∃ response, s.serve ops .stepCycle = (.ok response, s.stepMachine ops machine) ∧
      response.isError = false ∧ showsStop (some response) =
        (s.atStop ops (ops.step machine) || s.carriesBreakpoint ops machine) := by
  refine ⟨snapshotResponse
    (ops.collectSnapshot (ops.step machine), (s.stepMachine ops machine).events), ?_, rfl, ?_⟩
  · simp only [DebugSession.serve, DebugSession.stepCycle, hmachine, thenSnapshot,
      DebugSession.snapshot, stepMachine_machine]
    rfl
  · have hbreak := hasBreakpoint_stepMachine ops s machine
    simp only [showsStop, any_some, snapshotResponse, hbreak,
      atStop, carriesBreakpoint, Bool.or_assoc]

theorem serve_uartOutput (offset : ℕ) (hmachine : s.machine = some machine) :
    ∃ response, s.serve ops (.uartOutput offset) = (.ok response, s) ∧
      response.isError = false := by
  refine ⟨chunkResponse (uartChunk ops machine offset), ?_, rfl⟩
  simp only [DebugSession.serve, DebugSession.uartOutput, hmachine]
  rfl

theorem atStop_stepMachine (s : DebugSession M) (machine machine' : M) :
    (s.stepMachine ops machine).atStop ops machine' = s.atStop ops machine' := by
  simp only [atStop, isBreakpointPc, stepMachine_breakpoints]

theorem answer_cycle (h : DueInvariant id generation w) (hticks : w.world.ticks = [])
    (hrunning : w.world.running = some waiting)
    (hmachine : w.session.machine = some machine) (hloop : waiting.task.loop? = some loop)
    (htoken : loop.token = w.world.runtime.runLoopToken ∨ w.due = none)
    (hrequest : waiting.request = .session id .stepCycle) (hrest : CycleRest id loop waiting.rest)
    (hclear : w.session.carriesBreakpoint ops machine → w.session.atStop ops (ops.step machine)) :
    DueInvariant id generation (w.answer ops waiting .stepCycle) := by
  obtain ⟨response, hserve, hok, hstop⟩ := @serve_stepCycle M ops w.session machine hmachine
  have hshows : showsStop (some response) = w.session.atStop ops (ops.step machine) := by
    rw [hstop]
    cases hcarries : w.session.carriesBreakpoint ops machine with
    | false => rw [Bool.or_false]
    | true => rw [hclear hcarries, Bool.or_true]
  have hflown : loop ∈ w.world.ticksInFlight := by
    simp [ticksInFlight, hrunning, hloop]
  obtain ⟨s', offset, next, hadvance, hfixed, hsnapshot, hnext⟩ := hrest response w.world.runtime
    hok ((h.flights loop hflown).trans h.current.symm) h.session
  have hquiet : ¬ w.Stopping id := not_stopping hrunning (.inr hrequest)
  have hlive := h.due_of_quiet hquiet
  have hworld : w.world.step (.respond (.ok response)) =
      w.world.resume waiting.task waiting.start (waiting.rest (.ok response)) := by
    simp only [RuntimeWorld.step, hrunning]
  have hafter : w.answer ops waiting .stepCycle =
      { world :=
          { w.world with
            runtime := s'
            running := some { task := waiting.task, start := waiting.start
                              request := .session id (.uartOutput offset), rest := next }
            log := w.world.log ++ [.requested waiting.task (.session id (.uartOutput offset))] }
        session := w.session.stepMachine ops machine
        alive := true
        due := if w.due = some loop.run ∧ w.session.atStop ops (ops.step machine) then none
               else w.due } := by
    unfold answer
    rw [if_pos h.alive, hserve]
    change ({ world := w.world.step (.respond (.ok response)), session := _, alive := _
              due := _ } : LoopWorld M) = _
    rw [hworld, RuntimeWorld.resume_waiting w.world hadvance]
    simp only [dueAfterAnswer, hloop, stepMachine_machine, atStop_stepMachine,
      true_and, Except.isOk, Except.toBool]
  rw [hafter]
  have hshown : ∀ (w' : LoopWorld M), w'.world.runtime = s' →
      showsStop w'.world.runtime.currentSnapshot = w.session.atStop ops (ops.step machine) := by
    intro w' hruntime
    rw [hruntime, hsnapshot, hshows]
  refine h.of_fixed hfixed ?_ ?_ rfl h.tasks h.settled ?_ ?_ ?_ ?_ ?_
  · simp [ticksInFlight, hrunning, hloop]
  · simp
  · intro other hother
    by_cases hstops : w.session.atStop ops (ops.step machine)
    · exact .inr ⟨_, loop, offset, rfl, hloop, rfl, (hshown _ rfl).trans hstops⟩
    refine .inl ?_
    rw [if_neg (fun hboth => hstops hboth.2)]
    exact hlive other hother
  · intro run hrun
    split at hrun
    · cases hrun
    · exact hrun
  · intro hstopping
    obtain ⟨_, _, _, _, _, _, hshow⟩ := hstopping
    have hstops := (hshown _ rfl).symm.trans hshow
    dsimp only
    rcases htoken with htoken | hnone
    · have hmem : loop ∈ w.scheduling :=
        mem_schedulingLoops hrunning hloop htoken
      rw [if_pos ⟨hlive loop hmem, hstops⟩]
    · rw [hnone]
      exact ite_self none
  · rw [hticks]
    exact fun tick htick => absurd htick not_mem_nil
  · intro other hother
    cases hother
    refine .output loop offset hloop ?_ rfl hnext
    rcases htoken with htoken | hnone
    · exact .inl (htoken.trans hfixed.token.symm)
    refine .inr ?_
    dsimp only
    rw [hnone]
    exact ite_self none

theorem answer_output (h : DueInvariant id generation w) {offset : ℕ} (hticks : w.world.ticks = [])
    (hrunning : w.world.running = some waiting) (hmachine : w.session.machine = some machine)
    (hloop : waiting.task.loop? = some loop)
    (hrequest : waiting.request = .session id (.uartOutput offset))
    (hrest : OutputRest id loop waiting.rest) :
    DueInvariant id generation (w.answer ops waiting (.uartOutput offset)) := by
  obtain ⟨response, hserve, hok⟩ := @serve_uartOutput M ops w.session machine offset hmachine
  have hflown : loop ∈ w.world.ticksInFlight := by
    simp [ticksInFlight, hrunning, hloop]
  obtain ⟨s', hadvance, hfixed, hsnapshot⟩ := hrest response w.world.runtime hok
    ((h.flights loop hflown).trans h.current.symm) h.session
  have hworld : w.world.step (.respond (.ok response)) =
      w.world.resume waiting.task waiting.start (waiting.rest (.ok response)) := by
    simp only [RuntimeWorld.step, hrunning]
  have hsettled : RuntimeWorld.afterAction waiting.task (.ok ()) =
      [(waiting.task, loop, none)] := by
    unfold RuntimeWorld.afterAction
    cases hkind : waiting.task.kind with
    | call call => simp [loop?, hkind] at hloop
    | tick other =>
      simp only [loop?, hkind, some.injEq] at hloop
      rw [hloop]
  have hafter : ∃ log outcomes, w.answer ops waiting (.uartOutput offset) =
      { world :=
          { w.world with
            runtime := if showsStop w.world.runtime.currentSnapshot then s'.stopRunLoop else s'
            running := none
            ticks := [(waiting.task, loop, none)]
            log := log
            outcomes := outcomes }
        session := w.session
        alive := true
        due := w.due } := by
    refine ⟨w.world.log ++ [.settled waiting.task (RuntimeWorld.isFailed (.ok ()))],
      w.world.outcomes ++ [{ task := waiting.task, start := waiting.start
                             failed := RuntimeWorld.isFailed (.ok ())
                             finish := if showsStop w.world.runtime.currentSnapshot
                               then s'.stopRunLoop else s' }], ?_⟩
    unfold answer
    rw [if_pos h.alive, hserve]
    change ({ world := w.world.step (.respond (.ok response)), session := _, alive := _
              due := _ } : LoopWorld M) = _
    rw [hworld, RuntimeWorld.resume_done w.world hadvance, hsettled, hticks, nil_append]
    simp only [dueAfterAnswer, hloop, hmachine, reduceCtorEq, false_and, and_false, if_false,
      Except.isOk, Except.toBool]
  obtain ⟨log, outcomes, hafter⟩ := hafter
  rw [hafter]
  have hflight : ∀ runtime, ticksInFlight { w.world with
      runtime := runtime, running := none, ticks := [(waiting.task, loop, none)], log := log
      outcomes := outcomes } = w.world.ticksInFlight := by
    intro runtime
    simp [ticksInFlight, hticks, hrunning, hloop]
  have hmachine' : w.session.machine ≠ none := by rw [hmachine]; exact some_ne_none machine
  have hold := h.sound.tokens loop hflown
  cases hshow : showsStop w.world.runtime.currentSnapshot with
  | true =>
    have hdue : w.due = none := h.stopping ⟨waiting, loop, offset, hrunning, hloop, hrequest, hshow⟩
    have hkept := h.sound.kept hfixed.kept
    simp only [if_true]
    refine ⟨hfixed.session.trans h.session, hfixed.generation.trans h.current, hmachine', rfl,
      h.tasks, ?_, ?_, ?_, ?_, ?_, fun _ => hdue, ?_, fun _ hnone => by cases hnone⟩
    · intro timer htimer
      rw [hkept.timers_stop] at htimer
      cases htimer
    · exact fun other hother => h.flights other ((List.Perm.of_eq (hflight _)).mem_iff.1 hother)
    · intro tick htick
      rw [mem_singleton.1 htick]
    · exact hkept.stopped.perm (List.Perm.of_eq (hflight _).symm)
    · intro run hrun
      rw [hdue] at hrun
      cases hrun
    · intro tick htick htoken
      rw [mem_singleton.1 htick] at htoken
      simp only [stopRunLoop, hfixed.token] at htoken
      omega
  | false =>
    simp only [Bool.false_eq_true, if_false]
    refine h.of_fixed hfixed (hflight _) hmachine' rfl h.tasks ?_ ?_
      (fun _ hrun => hrun) (fun hstop => absurd hstop (idle_not_stopping rfl)) ?_
      fun _ hnone => by cases hnone
    · intro tick htick
      rw [mem_singleton.1 htick]
    · intro other hother
      rcases h.sound.live other hother with hdue | hstop
      · exact .inl hdue
      obtain ⟨_, _, _, _, _, _, hshows⟩ := hstop
      rw [hshow] at hshows
      cases hshows
    · intro tick htick htoken
      rw [hsnapshot]
      exact hshow

theorem stepToCommit_machine (instretBefore : BitVec 64) (budget : ℕ)
    (hmachine : s.machine ≠ none) : (s.stepToCommit ops instretBefore budget).2.machine ≠ none := by
  induction budget generalizing s with
  | zero => exact hmachine
  | succ budget ih =>
    obtain ⟨machine, hsome⟩ := ne_none_iff_exists'.1 hmachine
    have hstepped : (s.stepMachine ops machine).machine ≠ none := by simp
    simp only [DebugSession.stepToCommit, DebugSession.stepCycle, hsome, stepMachine_machine]
    split
    · exact hstepped
    · exact ih hstepped

theorem serve_machine (request : LoopRequest) (hmachine : s.machine ≠ none)
    (hcommit : request = .stepCommit → (s.stepCommit ops).1.isOk) :
    (s.serve ops request).1.isOk ∧ (s.serve ops request).2.machine ≠ none := by
  obtain ⟨machine, hsome⟩ := ne_none_iff_exists'.1 hmachine
  cases request with
  | stepCycle =>
    obtain ⟨response, hserve, _⟩ := @serve_stepCycle M ops s machine hsome
    rw [hserve]
    exact ⟨rfl, by simp⟩
  | stepCommit =>
    have hok := hcommit rfl
    have hafter : (s.stepCommit ops).2.machine ≠ none := by
      unfold DebugSession.stepCommit
      rw [hsome]
      exact stepToCommit_machine _ _ hmachine
    unfold DebugSession.serve
    cases hresult : s.stepCommit ops with
    | mk result s' =>
      rw [hresult] at hok hafter
      dsimp only at hafter
      obtain ⟨machine', hsome'⟩ := ne_none_iff_exists'.1 hafter
      cases result with
      | error message => cases hok
      | ok =>
        simp only [thenSnapshot, DebugSession.snapshot, hsome']
        exact ⟨rfl, some_ne_none machine'⟩
  | snapshot =>
    simp only [DebugSession.serve, DebugSession.snapshot, hsome]
    exact ⟨rfl, by simp⟩
  | uartOutput offset =>
    obtain ⟨response, hserve, _⟩ := @serve_uartOutput M ops s machine offset hsome
    rw [hserve]
    exact ⟨rfl, hmachine⟩
  | breakAt addr =>
    simp only [DebugSession.serve, DebugSession.breakAt, hsome]
    refine ⟨rfl, ?_⟩
    split <;> simp [hsome]

theorem answerStep (h : DueInvariant id generation w) (hclear : StepClear ops w .answer) :
    DueInvariant id generation (w.step ops .answer) := by
  simp only [step]
  cases hticks : w.world.ticks with
  | cons tick ticks => exact h
  | nil =>
    cases hrunning : w.world.running with
    | none => exact h
    | some waiting =>
      dsimp only
      obtain ⟨machine, hmachine⟩ := ne_none_iff_exists'.1 h.machine
      simp only [StepClear, hrunning, hmachine] at hclear
      cases h.running waiting hrunning with
      | call hloop hrest =>
        cases hrequest : waiting.request.loopRequest with
        | none => exact h
        | some request =>
          obtain ⟨hserved, hsession⟩ := serve_machine request h.machine fun hcommit =>
            hclear.1 (by rw [hrequest, hcommit])
          have hafter : w.answer ops waiting request =
              { w with
                world := w.world.resume waiting.task waiting.start
                  (waiting.rest ((w.session.serve ops request).1.mapError .other))
                session := (w.session.serve ops request).2 } := by
            unfold answer
            rw [if_pos h.alive]
            simp only [hserved, RuntimeWorld.step, hrunning, dueAfterAnswer, hloop, h.alive]
          obtain ⟨hfixed, hwait⟩ :=
            (hrest ((w.session.serve ops request).1.mapError .other)).advance refl
              trans w.world.runtime
          dsimp only
          rw [hafter]
          exact h.resume_call hrunning hloop waiting.start _ _ hsession hfixed (.inl hticks)
            fun next rest hnext => (hwait next rest hnext).2
      | cycle loop hloop htoken hrequest hrest =>
        have hcycle : waiting.request.loopRequest = some .stepCycle := by
          rw [hrequest]
          rfl
        rw [hcycle]
        exact h.answer_cycle hticks hrunning hmachine hloop htoken hrequest hrest
          (hclear.2 hcycle (by rw [hloop]; rfl))
      | output loop offset hloop htoken hrequest hrest =>
        have houtput : waiting.request.loopRequest = some (.uartOutput offset) := by
          rw [hrequest]
          rfl
        rw [houtput]
        exact h.answer_output hticks hrunning hmachine hloop hrequest hrest

theorem timerStep (h : DueInvariant id generation w) (handle : ℕ) :
    DueInvariant id generation (w.step ops (.timer handle)) := by
  simp only [step, RuntimeWorld.step]
  cases hfind : w.world.runtime.timers.find? fun timer => timer.1 = handle with
  | none => exact h
  | some timer =>
    have hmem : timer ∈ w.world.runtime.timers := List.mem_of_find?_eq_some hfind
    have hperm : (timer.2 :: w.world.ticksInFlight).Perm
        (ticksInFlight { w.world with
          runtime := { w.world.runtime with
            timers := w.world.runtime.timers.filter fun timer => timer.1 ≠ handle
            runTimer := none }
          queue := w.world.queue ++ [{ number := timer.2.run, generation := timer.2.generation
                                       kind := .tick timer.2 }] }) := by
      simp only [ticksInFlight, filterMap_append, filterMap_cons,
        filterMap_nil, loop?, ← List.append_assoc]
      exact (perm_append_singleton timer.2 _).symm
    refine ⟨h.session, h.current, h.machine, h.alive, ?_, ?_, ?_, h.settled, ?_, ?_, ?_, h.going,
      ?_⟩
    · intro task htask
      rcases mem_append.1 htask with htask | htask
      · exact h.tasks task htask
      rw [mem_singleton.1 htask]
      exact ⟨h.timers timer hmem, .inr ⟨timer.2, rfl⟩⟩
    · exact fun other hother => h.timers other (mem_of_mem_filter hother)
    · intro loop hloop
      rcases mem_cons.1 (hperm.mem_iff.2 hloop) with rfl | hold
      · exact h.timers timer hmem
      · exact h.flights loop hold
    · refine ((h.sound.fire hfind).perm hperm).mono fun run hrun => ?_
      rcases hrun with hdue | hstop
      · exact .inl hdue
      · exact .inr (hstop.of_same rfl rfl)
    · intro run hrun
      obtain ⟨loop, hloop, hnumber⟩ := h.kept run hrun
      refine ⟨loop, ?_, hnumber⟩
      have hfired : ∀ token, loop ∈ (timer.2 :: w.world.ticksInFlight).filter (fun loop =>
          loop.token = token) → loop ∈ (ticksInFlight _).filter (fun loop =>
          loop.token = token) := fun token => (hperm.filter _).mem_iff.1
      refine mem_append_right _ (hfired _ ?_)
      rcases mem_append.1 hloop with htimer | hflown
      · rcases h.sound.timer with ⟨_, hnone⟩ | ⟨only, armed, _, hone, htoken⟩
        · rw [hnone] at hmem
          cases hmem
        rw [hone] at htimer hmem
        rw [map_cons, map_nil, mem_singleton] at htimer
        rw [htimer, mem_singleton.1 hmem]
        exact mem_filter.2 ⟨mem_cons_self, decide_eq_true htoken⟩
      · obtain ⟨hflown, htoken⟩ := mem_filter.1 hflown
        exact mem_filter.2 ⟨mem_cons_of_mem _ hflown, htoken⟩
    · exact fun hstop => h.stopping (hstop.of_same rfl rfl)
    · exact fun waiting hwaiting => (h.running waiting hwaiting).of_token fun _ hlive => hlive

theorem afterTick_eq {s : DebugRuntime} (task : Task)
    (hid : s.currentSession = some id) (hgeneration : loop.generation = s.currentGeneration) :
    RuntimeWorld.afterTick s task loop none =
      if loop.token = s.runLoopToken ∧ showsStop s.currentSnapshot = false then
        { s with
          timers := s.timers ++ [(s.armedTimers, loop)]
          runTimer := some s.armedTimers
          armedTimers := s.armedTimers + 1 }
      else s := by
  unfold RuntimeWorld.afterTick showsStop scheduleNextTick
  by_cases hgo : loop.token = s.runLoopToken ∧
      (s.currentSnapshot.any (·.halted) || s.currentSnapshot.any (·.breakpoint)) = false
  · obtain ⟨htoken, hshow⟩ := hgo
    obtain ⟨hhalted, hbreak⟩ := Bool.or_eq_false_iff.1 hshow
    rw [if_pos ⟨htoken, hgeneration, by simp [hhalted], by simp [hbreak]⟩,
      if_neg (by simp [htoken, hgeneration, hid]), if_pos ⟨htoken, hshow⟩]
  · rw [if_neg, if_neg hgo]
    rintro ⟨htoken, _, hhalted, hbreak⟩
    exact hgo ⟨htoken, by simp [hhalted, hbreak]⟩

section

variable (h : DueInvariant id generation w)

include h

theorem continueStep : DueInvariant id generation (w.step ops .continueTick) := by
  simp only [step, RuntimeWorld.step]
  cases hticks : w.world.ticks with
  | nil => exact h
  | cons tick ticks =>
    obtain ⟨task, loop, error⟩ := tick
    have herror : error = none :=
      h.settled (task, loop, error) (by rw [hticks]; exact mem_cons_self)
    have hflight : w.world.ticksInFlight =
        loop :: ticksInFlight { w.world with ticks := ticks } := by
      simp [ticksInFlight, hticks]
    have hgeneration : loop.generation = w.world.runtime.currentGeneration := by
      rw [h.current]
      exact h.flights loop (by rw [hflight]; exact mem_cons_self)
    have hsound := h.sound
    rw [hflight] at hsound
    have hafter := hsound.afterTick task none
    have hticksMem : ∀ other ∈ ticks, other ∈ w.world.ticks := by
      intro other hother
      rw [hticks]
      exact mem_cons_of_mem _ hother
    rw [herror]
    have heq := afterTick_eq task h.session hgeneration
    have hsession : (RuntimeWorld.afterTick w.world.runtime task loop none).currentSession =
        some id := by
      rw [heq]
      split <;> exact h.session
    have hcurrent : (RuntimeWorld.afterTick w.world.runtime task loop none).currentGeneration =
        generation := by
      rw [heq]
      split <;> exact h.current
    have htoken : (RuntimeWorld.afterTick w.world.runtime task loop none).runLoopToken =
        w.world.runtime.runLoopToken := by
      rw [heq]
      split <;> rfl
    have hsnapshot : (RuntimeWorld.afterTick w.world.runtime task loop none).currentSnapshot =
        w.world.runtime.currentSnapshot := by
      rw [heq]
      split <;> rfl
    have htimers : ∀ timer ∈ (RuntimeWorld.afterTick w.world.runtime task loop none).timers,
        timer ∈ w.world.runtime.timers ∨ timer.2 = loop := by
      intro timer htimer
      rw [heq] at htimer
      split at htimer
      · rcases mem_append.1 htimer with hold | hnew
        · exact .inl hold
        · exact .inr (by rw [mem_singleton.1 hnew])
      · exact .inl htimer
    have hstays : ∀ timer ∈ w.world.runtime.timers,
        timer ∈ (RuntimeWorld.afterTick w.world.runtime task loop none).timers := by
      intro timer htimer
      rw [heq]
      split
      · exact mem_append_left _ htimer
      · exact htimer
    have harmed : loop.token = w.world.runtime.runLoopToken →
        loop ∈ (RuntimeWorld.afterTick w.world.runtime task loop none).timers.map Prod.snd := by
      intro hlive
      have hshow := h.going (task, loop, error) (by rw [hticks]; exact mem_cons_self) hlive
      rw [heq, if_pos ⟨hlive, hshow⟩]
      simp
    refine ⟨hsession, hcurrent, h.machine, h.alive, h.tasks, ?_, ?_,
      fun other hother => h.settled other (hticksMem other hother), ?_, ?_, ?_, ?_, ?_⟩
    · intro timer htimer
      rcases htimers timer htimer with hold | hnew
      · exact h.timers timer hold
      rw [hnew]
      exact hgeneration.trans h.current
    · intro other hother
      apply h.flights other
      rw [hflight]
      exact mem_cons_of_mem _ hother
    · refine hafter.mono fun run hrun => ?_
      rcases hrun with hdue | hstop
      · exact .inl hdue
      · exact .inr (hstop.of_same rfl hsnapshot.symm)
    · intro run hrun
      obtain ⟨other, hother, hnumber⟩ := h.kept run hrun
      refine ⟨other, ?_, hnumber⟩
      rcases mem_append.1 hother with htimer | hflown
      · obtain ⟨timer, hmem, rfl⟩ := mem_map.1 htimer
        exact mem_append_left _ (mem_map_of_mem (hstays timer hmem))
      obtain ⟨hflown, hlive⟩ := mem_filter.1 hflown
      have hlive' := of_decide_eq_true hlive
      rw [hflight] at hflown
      rcases mem_cons.1 hflown with rfl | hflown
      · exact mem_append_left _ (harmed hlive')
      exact mem_append_right _
        (mem_filter.2 ⟨hflown, decide_eq_true (hlive'.trans htoken.symm)⟩)
    · exact fun hstop => h.stopping (hstop.of_same rfl hsnapshot)
    · intro tick htick hlive
      rw [hsnapshot]
      exact h.going tick (hticksMem tick htick) (hlive.trans htoken)
    · intro waiting hwaiting
      refine (h.running waiting hwaiting).of_token fun other hlive => ?_
      rw [htoken]
      exact hlive

theorem step (event : LoopEvent)
    (hclear : StepClear ops w event) : DueInvariant id generation (w.step ops event) := by
  cases event with
  | call call => exact h.callStep call
  | start => exact h.startStep
  | answer => exact h.answerStep hclear
  | timer handle => exact h.timerStep handle
  | continueTick => exact h.continueStep

theorem run {events : List LoopEvent} (hclear : Along ops (StepClear ops) w events) :
    DueInvariant id generation (w.run ops events) := by
  induction events generalizing w with
  | nil => exact h
  | cons event events ih => exact ih (h.step event hclear.1) hclear.2

theorem token_of_scheduling {loop : RunLoop}
    (hloop : loop ∈ w.scheduling) : loop.token = w.world.runtime.runLoopToken := by
  rcases mem_append.1 hloop with htimer | hflown
  · rcases h.sound.timer with ⟨_, hnone⟩ | ⟨only, armed, _, hone, htoken⟩
    · rw [hnone] at htimer
      cases htimer
    rw [hone, map_cons, map_nil, mem_singleton] at htimer
    rw [htimer]
    exact htoken
  · exact of_decide_eq_true (mem_filter.1 hflown).2

theorem issues {task : Task} {queue : List Task}
    {loop : RunLoop} (hidle : w.world.running = none) (hqueue : w.world.queue = task :: queue)
    (hloop : task.loop? = some loop) (hmem : loop ∈ w.scheduling) :
    (w.step ops .start).world.log = w.world.log ++ [.requested task (.session id .stepCycle)] := by
  have hflown : loop ∈ w.world.ticksInFlight := by
    simp [ticksInFlight, hqueue, hloop]
  have hkind := kind_of_loop hloop
  have hprogram : program task = Action.tick task loop := by
    simp only [program, hkind]
  rcases RuntimeWorld.tick_starts task ((h.flights loop hflown).trans h.current.symm) h.session with
    ⟨hstale, _⟩ | ⟨_, next, hwait, _⟩
  · exact absurd (h.token_of_scheduling hmem) hstale
  simp only [LoopWorld.step, RuntimeWorld.step, hidle, hqueue, hprogram]
  rw [RuntimeWorld.resume_waiting { w.world with queue := queue, running := none } hwait]

end

theorem not_append_self {α : Type} {l : List α} {a : α} (h : l = l ++ [a]) : False := by
  have := congrArg List.length h
  simp at this

theorem onlyDue (h : DueInvariant id generation w) (event : LoopEvent) {session : ℕ}
    (hlog : (w.step ops event).world.log =
      w.world.log ++ [.requested task (.session session .stepCycle)])
    (hloop : task.loop? = some loop) : w.due = some loop.run := by
  cases event with
  | call call =>
    rw [call_world] at hlog
    exact (not_append_self hlog).elim
  | start =>
    simp only [LoopWorld.step, RuntimeWorld.step] at hlog
    cases hidle : w.world.running with
    | some waiting =>
      rw [hidle] at hlog
      exact (not_append_self hlog).elim
    | none =>
      cases hqueue : w.world.queue with
      | nil =>
        rw [hidle, hqueue] at hlog
        exact (not_append_self hlog).elim
      | cons head queue =>
        rw [hidle, hqueue] at hlog
        obtain ⟨rfl, next, hwait⟩ := @RuntimeWorld.resume_requested _
          { w.world with queue := queue } head task w.world.runtime _ hlog
        have hkind := kind_of_loop hloop
        have hprogram : program task = Action.tick task loop := by
          simp only [program, hkind]
        have hflown : loop ∈ w.world.ticksInFlight := by
          simp [ticksInFlight, hqueue, hloop]
        rw [hprogram] at hwait
        rcases RuntimeWorld.tick_starts task ((h.flights loop hflown).trans h.current.symm)
          h.session with ⟨_, hdone⟩ | ⟨htoken, _⟩
        · rw [hdone] at hwait
          cases hwait
        have hmem : loop ∈ w.scheduling :=
          mem_append_right _ (mem_filter.2 ⟨hflown, decide_eq_true htoken⟩)
        rcases h.sound.live loop hmem with hdue | hstop
        · exact hdue
        · exact absurd hstop (idle_not_stopping hidle)
  | answer =>
    simp only [LoopWorld.step] at hlog
    split at hlog
    · rename_i waiting hticks hrunning
      obtain ⟨machine, hmachine⟩ := ne_none_iff_exists'.1 h.machine
      cases hrequest : waiting.request.loopRequest with
      | none =>
        rw [hrequest] at hlog
        exact (not_append_self hlog).elim
      | some request =>
        rw [hrequest] at hlog
        have hworld : (w.answer ops waiting request).world = w.world.resume waiting.task
            waiting.start (waiting.rest ((w.session.serve ops request).1.mapError .other)) := by
          unfold answer
          rw [if_pos h.alive]
          simp only [RuntimeWorld.step, hrunning]
        rw [hworld] at hlog
        obtain ⟨rfl, next, hwait⟩ := RuntimeWorld.resume_requested hlog
        cases h.running waiting hrunning with
        | call hnone _ =>
          rw [hnone] at hloop
          cases hloop
        | cycle other hother _ hcycle hrest =>
          have hflown : other ∈ w.world.ticksInFlight := by
            simp [ticksInFlight, hrunning, hother]
          obtain ⟨response, hserve, hok, _⟩ := @serve_stepCycle M ops w.session machine hmachine
          obtain ⟨s', offset, _, hadvance, _⟩ := hrest response w.world.runtime hok
            ((h.flights other hflown).trans h.current.symm) h.session
          rw [hcycle] at hrequest
          cases some.inj hrequest
          rw [hserve] at hwait
          change (Coroutine.advance (waiting.rest (.ok response)) w.world.runtime).2 = _ at hwait
          rw [hadvance] at hwait
          cases hwait
        | output other offset hother _ houtput hrest =>
          have hflown : other ∈ w.world.ticksInFlight := by
            simp [ticksInFlight, hrunning, hother]
          obtain ⟨response, hserve, hok⟩ :=
            @serve_uartOutput M ops w.session machine offset hmachine
          obtain ⟨s', hadvance, _⟩ := hrest response w.world.runtime hok
            ((h.flights other hflown).trans h.current.symm) h.session
          rw [houtput] at hrequest
          cases some.inj hrequest
          rw [hserve] at hwait
          change (Coroutine.advance (waiting.rest (.ok response)) w.world.runtime).2 = _ at hwait
          rw [hadvance] at hwait
          cases hwait
    · exact (not_append_self hlog).elim
  | timer handle =>
    simp only [LoopWorld.step, RuntimeWorld.step] at hlog
    split at hlog <;> exact (not_append_self hlog).elim
  | continueTick =>
    simp only [LoopWorld.step, RuntimeWorld.step] at hlog
    split at hlog <;> exact (not_append_self hlog).elim

end DueInvariant

/-- In every run from a loaded session in which no event about an earlier breakpoint outlasts a
step of a loop, the loop that is due goes on and steps, and no other loop does. -/
theorem run_followsDue {w : LoopWorld M} (hloaded : w.LoadedIdle) (events : List LoopEvent)
    (hclear : Along ops (StepClear ops) w events) : FollowsDue ops (w.run ops events) := by
  obtain ⟨id, hid⟩ := ne_none_iff_exists'.1 hloaded.session
  have h := (hloaded.dueInvariant hid).run hclear
  refine ⟨h.kept, ?_, fun event task session loop hlog hloop => h.onlyDue event hlog hloop⟩
  intro task queue loop hidle hqueue hloop hmem
  exact ⟨id, h.issues hidle hqueue hloop hmem⟩

end LoopWorld

def counterLoaded : LoopWorld ℕ where
  world :=
    { RuntimeWorld.init with runtime := { DebugRuntime.init with currentSession := some 0 } }
  session := { (DebugSession.init : DebugSession ℕ) with machine := some 0 }
  alive := true
  due := none

theorem counterLoaded_idle : counterLoaded.LoadedIdle :=
  ⟨by decide, by decide, rfl, rfl, ⟨rfl, rfl⟩, rfl, rfl, rfl⟩

def runToBreakpoint : List LoopEvent :=
  [.call (.breakAt 1), .start, .answer, .answer, .call (.run 8), .start, .timer 0, .start,
    .answer, .answer, .continueTick]

theorem runToBreakpoint_followsDue :
    LoopWorld.FollowsDue counterOps (counterLoaded.run counterOps runToBreakpoint) :=
  run_followsDue counterLoaded_idle runToBreakpoint (by decide)

def runPastBreakpoint : List LoopEvent :=
  runToBreakpoint ++
    [.call (.run 8), .start, .timer 1, .start, .answer, .answer, .continueTick]

/-- The second run is still due, but the hit of the first has stopped it. -/
theorem runPastBreakpoint_stops :
    ¬ ∀ events, LoopWorld.FollowsDue counterOps (counterLoaded.run counterOps events) := by
  intro hall
  have hdue : (counterLoaded.run counterOps runPastBreakpoint).due = some 2 := by decide
  have hnone : (counterLoaded.run counterOps runPastBreakpoint).scheduling = [] := by
    decide
  obtain ⟨loop, hloop, _⟩ := (hall runPastBreakpoint).goesOn 2 hdue
  rw [hnone] at hloop
  cases hloop

end VisualCpu
