import Mathlib.Data.List.Pairwise
import VisualCpu.Frontend.RunLoopRuns

/-!
# Generations of broadcasts

The queue runs its actions in the order of their calls, so the generations of what is
broadcast grow; a tick that is queued late checks its generation before it does anything.
-/

namespace VisualCpu

open List RuntimeWorld Action Nat

open Coroutine (Every)

/-- The calls that begin a generation. -/
def Task.replaces (task : Task) : Bool :=
  match task.kind with
  | .call (.load _ _) | .call .reset | .call .terminate => true
  | _ => false

def Message.isError : Message → Bool
  | .error _ => true
  | _ => false

/-- After a broadcast of a load, reset or terminate no older snapshot or terminal message. -/
def GenerationsOrdered (broadcasts : List Broadcast) : Prop :=
  broadcasts.Pairwise fun earlier later => earlier.task.replaces = true →
    later.message.isError = false → earlier.task.generation ≤ later.task.generation

/-- The broadcasts of one action, after those before. -/
def BroadcastFrame (task : Task) (s s' : DebugRuntime) : Prop :=
  s'.currentGeneration = s.currentGeneration ∧
    ∃ new, s'.broadcasts = s.broadcasts ++ new ∧ ∀ b ∈ new, b.task = task

namespace BroadcastFrame

theorem same {task : Task} {s s' : DebugRuntime} (hbroadcasts : s'.broadcasts = s.broadcasts)
    (hgeneration : s'.currentGeneration = s.currentGeneration) : BroadcastFrame task s s' :=
  ⟨hgeneration, [], by rw [hbroadcasts, append_nil], by simp⟩

variable (task : Task)

theorem refl (s : DebugRuntime) : BroadcastFrame task s s := same rfl rfl

theorem trans (s s' s'' : DebugRuntime) (h : BroadcastFrame task s s')
    (h' : BroadcastFrame task s' s'') : BroadcastFrame task s s'' := by
  obtain ⟨hgeneration, new, hnew, htask⟩ := h
  obtain ⟨hgeneration', new', hnew', htask'⟩ := h'
  refine ⟨hgeneration'.trans hgeneration, new ++ new', ?_, ?_⟩
  · rw [hnew', hnew, List.append_assoc]
  intro b hb
  rcases mem_append.1 hb with hb | hb
  · exact htask b hb
  · exact htask' b hb

theorem allowsShow : AllowsShow (BroadcastFrame task) task where
  refl := refl task
  screen _ _ _ _ := same rfl rfl
  broadcast _ _ := ⟨rfl, _, rfl, by simp⟩

theorem ignoresSessions : Action.IgnoresSessions (BroadcastFrame task) :=
  fun _ _ hbroadcasts hloop => same hbroadcasts hloop.generation

theorem stop (s : DebugRuntime) : BroadcastFrame task s s.stopRunLoop :=
  same rfl rfl

end BroadcastFrame

open BroadcastFrame

namespace RuntimeWorld

def OwnBroadcasts (task : Task) (rest : Except RuntimeError SessionResponse → Action Unit) :
    Prop :=
  ∀ response, Every (BroadcastFrame task) (fun _ => True) (rest response)

/-- Every broadcast of a generation's beginning is at most of the generation `bound`. -/
def ReplacedBelow (world : RuntimeWorld) (bound : ℕ) : Prop :=
  ∀ b ∈ world.runtime.broadcasts, b.task.replaces → b.task.generation ≤ bound

structure BroadcastInvariant (world : RuntimeWorld) : Prop where
  ordered : GenerationsOrdered world.runtime.broadcasts
  current : ReplacedBelow world world.runtime.currentGeneration
  queued : ∀ task ∈ world.queue, task.loop? = none →
    ReplacedBelow world task.generation ∧ task.generation ≤ world.runtime.currentGeneration
  inOrder : world.queue.Pairwise fun earlier later => later.loop? = none →
    earlier.loop? = none → earlier.generation ≤ later.generation
  tickGeneration : ∀ task ∈ world.queue, ∀ loop, task.loop? = some loop →
    task.generation = loop.generation
  running : ∀ waiting, world.running = some waiting →
    ReplacedBelow world waiting.task.generation ∧
    waiting.task.generation ≤ world.runtime.currentGeneration ∧
    (waiting.task.loop? = none → ∀ task ∈ world.queue, task.loop? = none →
      waiting.task.generation ≤ task.generation) ∧
    OwnBroadcasts waiting.task waiting.rest
  closing : ∀ waiting ∈ world.closing, waiting.task.kind = .call .close ∧
    ∀ response, Every (fun s s' => s'.broadcasts = s.broadcasts ∧
      s'.currentGeneration = s.currentGeneration) (fun _ => True) (waiting.rest response)
  notClose : ∀ task ∈ world.queue, task.kind ≠ .call .close

namespace BroadcastInvariant

variable {world : RuntimeWorld}

theorem init : BroadcastInvariant init := by
  refine ⟨List.Pairwise.nil, ?_, ?_, List.Pairwise.nil, ?_, ?_, ?_, ?_⟩
  all_goals simp [RuntimeWorld.init, DebugRuntime.init, ReplacedBelow]

variable {task : Task} {loop : RunLoop}

theorem replaces_of_tick (h : task.loop? = some loop) : task.replaces = false := by
  unfold Task.loop? at h
  unfold Task.replaces
  split at h
  · cases h
  rename_i hkind
  simp [hkind]

theorem ordered_append {broadcasts new : List Broadcast} (hordered : GenerationsOrdered broadcasts)
    (hbelow : ∀ b ∈ broadcasts, b.task.replaces → b.task.generation ≤ task.generation)
    (hnew : ∀ b ∈ new, b.task = task) : GenerationsOrdered (broadcasts ++ new) := by
  unfold GenerationsOrdered
  rw [pairwise_append]
  refine ⟨hordered, pairwise_iff_getElem.2 ?_, ?_⟩
  · intro i j hi hj _ _ _
    rw [hnew _ (getElem_mem hi), hnew _ (getElem_mem hj)]
  intro earlier hearlier later hlater hreplaces _
  rw [hnew later hlater]
  exact hbelow earlier hearlier hreplaces

theorem ofSame (h : BroadcastInvariant world) {world' : RuntimeWorld}
    (hbroadcasts : world'.runtime.broadcasts = world.runtime.broadcasts)
    (hgeneration : world.runtime.currentGeneration ≤ world'.runtime.currentGeneration)
    (hqueue : world'.queue = world.queue) (hrunning : world'.running = world.running)
    (hclosing : world'.closing = world.closing) : BroadcastInvariant world' := by
  have hbelow : ∀ bound, ReplacedBelow world bound → ReplacedBelow world' bound := by
    intro bound hbound b hb
    rw [hbroadcasts] at hb
    exact hbound b hb
  refine ⟨by rw [hbroadcasts]; exact h.ordered, ?_, ?_, by rw [hqueue]; exact h.inOrder,
    by rw [hqueue]; exact h.tickGeneration, ?_, by rw [hclosing]; exact h.closing,
    by rw [hqueue]; exact h.notClose⟩
  · intro b hb hreplaces
    exact le_trans (hbelow _ h.current b hb hreplaces) hgeneration
  · rw [hqueue]
    intro task htask hcall
    obtain ⟨hold, hle⟩ := h.queued task htask hcall
    exact ⟨hbelow _ hold, le_trans hle hgeneration⟩
  · rw [hrunning, hqueue]
    intro waiting hwaiting
    obtain ⟨hold, hle, hlater, hrest⟩ := h.running waiting hwaiting
    exact ⟨hbelow _ hold, le_trans hle hgeneration, hlater, hrest⟩

theorem loop_none_of_replaces (h : task.replaces) : task.loop? = none := by
  cases hloop : task.loop? with
  | none => rfl
  | some loop =>
    rw [replaces_of_tick hloop] at h
    cases h

theorem resume {waiting : Waiting} (h : BroadcastInvariant world)
    (hrunning : world.running = some waiting) (start : DebugRuntime) (rest : Action Unit)
    (hown : Every (BroadcastFrame waiting.task) (fun _ => True) rest) :
    BroadcastInvariant (world.resume waiting.task start rest) := by
  obtain ⟨⟨hgeneration, new, hnew, htask⟩, hwait⟩ := hown.advance (refl _)
    (trans _) world.runtime
  obtain ⟨hbelow, hle, hlater, _⟩ := h.running waiting hrunning
  have hordered : GenerationsOrdered (rest.advance world.runtime).1.broadcasts := by
    rw [hnew]
    exact ordered_append h.ordered hbelow htask
  have hmem : ∀ b ∈ (rest.advance world.runtime).1.broadcasts, b.task.replaces →
      (b ∈ world.runtime.broadcasts ∨ b.task = waiting.task ∧ waiting.task.loop? = none) := by
    intro b hb hreplaces
    rw [hnew] at hb
    rcases mem_append.1 hb with hb | hb
    · exact .inl hb
    rw [htask b hb] at hreplaces
    exact .inr ⟨htask b hb, loop_none_of_replaces hreplaces⟩
  have hcurrent : ∀ b ∈ (rest.advance world.runtime).1.broadcasts, b.task.replaces →
      b.task.generation ≤ (rest.advance world.runtime).1.currentGeneration := by
    intro b hb hreplaces
    rw [hgeneration]
    rcases hmem b hb hreplaces with hold | ⟨hb', _⟩
    · exact h.current b hold hreplaces
    rw [hb']
    exact hle
  have hself : ∀ b ∈ (rest.advance world.runtime).1.broadcasts, b.task.replaces →
      b.task.generation ≤ waiting.task.generation := by
    intro b hb hreplaces
    rcases hmem b hb hreplaces with hold | ⟨hb', _⟩
    · exact hbelow b hold hreplaces
    · exact le_of_eq (by rw [hb'])
  have hqueued : ∀ task ∈ world.queue, task.loop? = none →
      (∀ b ∈ (rest.advance world.runtime).1.broadcasts, b.task.replaces →
        b.task.generation ≤ task.generation) ∧
      task.generation ≤ (rest.advance world.runtime).1.currentGeneration := by
    intro task htaskMem hcall
    obtain ⟨hold, htaskLe⟩ := h.queued task htaskMem hcall
    refine ⟨fun b hb hreplaces => ?_, by rw [hgeneration]; exact htaskLe⟩
    rcases hmem b hb hreplaces with hbold | ⟨hb', hnone⟩
    · exact hold b hbold hreplaces
    rw [hb']
    exact hlater hnone task htaskMem hcall
  unfold RuntimeWorld.resume
  cases hadvance : rest.advance world.runtime with
  | mk s stopped =>
    rw [hadvance] at hordered hcurrent hself hqueued hwait hgeneration
    cases stopped with
    | done result =>
      refine ⟨hordered, hcurrent, hqueued, h.inOrder, h.tickGeneration, ?_, h.closing, h.notClose⟩
      intro waiting' hwaiting'
      cases hwaiting'
    | waiting request next =>
      refine ⟨hordered, hcurrent, hqueued, h.inOrder, h.tickGeneration, ?_, h.closing, h.notClose⟩
      intro waiting' hwaiting'
      cases hwaiting'
      exact ⟨hself, le_trans hle (le_of_eq hgeneration.symm), hlater,
        (hwait request next rfl).2⟩

theorem take (h : BroadcastInvariant world) {waiting : Waiting} {queue : List Task}
    (hqueue : world.queue = waiting.task :: queue)
    (htick : ∀ loop, waiting.task.loop? = some loop →
      loop.generation = world.runtime.currentGeneration)
    (hown : OwnBroadcasts waiting.task waiting.rest) :
    BroadcastInvariant { world with queue := queue, running := some waiting } := by
  have hmem := mem_tail hqueue
  have hhead : waiting.task ∈ world.queue := by
    rw [hqueue]
    exact mem_cons_self
  have hpairs := h.inOrder
  rw [hqueue, pairwise_cons] at hpairs
  refine ⟨h.ordered, h.current, fun task htask => h.queued task (hmem task htask), hpairs.2,
    fun task htask => h.tickGeneration task (hmem task htask), ?_, h.closing,
    fun task htask => h.notClose task (hmem task htask)⟩
  intro waiting' hwaiting'
  cases hwaiting'
  cases hloop : waiting.task.loop? with
  | none =>
    obtain ⟨hbelow, hle⟩ := h.queued waiting.task hhead hloop
    exact ⟨hbelow, hle, fun _ task htask hcall => hpairs.1 task htask hcall hloop, hown⟩
  | some loop =>
    have hgeneration : waiting.task.generation = world.runtime.currentGeneration :=
      (h.tickGeneration waiting.task hhead loop hloop).trans (htick loop hloop)
    refine ⟨?_, le_of_eq hgeneration, fun hnone => (by cases hnone), hown⟩
    rw [hgeneration]
    exact h.current

theorem program_own (hclose : task.kind ≠ .call .close) :
    Every (BroadcastFrame task) (fun _ => True) (program task) := by
  by_cases hrun : ∃ rateHz, task.kind = .call (.run rateHz)
  · obtain ⟨rateHz, hrate⟩ := hrun
    have hstart : ∀ s : DebugRuntime, ∀ intervalMs generation run,
        BroadcastFrame task s (s.startRunLoop intervalMs generation run) := by
      intro s intervalMs generation run
      unfold DebugRuntime.startRunLoop DebugRuntime.scheduleNextTick
      split_ifs <;> exact same rfl rfl
    simp only [program, hrate]
    refine (assertGeneration_every (allowsShow task) _).bind fun _ => ?_
    refine (requireSessionLoaded_every (allowsShow task)).bind
      fun _ => ?_
    exact Every.modify fun s => hstart s _ _ _
  · exact program_every (allowsShow task)
      (ignoresSessions task) (stop task) (fun _ => trivial)
      (fun rateHz hrate => hrun ⟨rateHz, hrate⟩) hclose

theorem tick_stale {s : DebugRuntime} (h : loop.generation ≠ s.currentGeneration) :
    (tick task loop).advance s = (s, .done (.error .staleSession)) := by
  rw [tick_eq, Coroutine.advance_bind, LoopInvariant.assertGeneration_advance]
  simp only [ne_eq, h, not_false_eq_true, if_true]

theorem start (h : BroadcastInvariant world) {queue : List Task}
    (hidle : world.running = none) (hqueue : world.queue = task :: queue) :
    BroadcastInvariant ({ world with queue := queue }.resume task world.runtime
      (program task)) := by
  have hclose : task.kind ≠ .call .close :=
    h.notClose task (by rw [hqueue]; exact mem_cons_self)
  by_cases hstale : ∃ loop, task.loop? = some loop ∧
      loop.generation ≠ world.runtime.currentGeneration
  · obtain ⟨loop, hloop, hgeneration⟩ := hstale
    have hkind : task.kind = .tick loop := by
      unfold Task.loop? at hloop
      split at hloop
      · cases hloop
      rename_i htick
      cases hloop
      exact htick
    have hless : BroadcastInvariant { world with queue := queue } := by
      have hmem := mem_tail hqueue
      have hpairs := h.inOrder
      rw [hqueue, pairwise_cons] at hpairs
      refine ⟨h.ordered, h.current, fun task htask => h.queued task (hmem task htask), hpairs.2,
        fun task htask => h.tickGeneration task (hmem task htask), ?_, h.closing,
        fun task htask => h.notClose task (hmem task htask)⟩
      intro waiting hwaiting
      rw [hidle] at hwaiting
      cases hwaiting
    have hadvance : (program task).advance world.runtime =
        (world.runtime, .done (.error .staleSession)) := by
      simp only [program, hkind]
      exact tick_stale hgeneration
    unfold RuntimeWorld.resume
    simp only [hadvance]
    exact hless.ofSame rfl (le_refl _) rfl hidle.symm rfl
  · rw [LoopInvariant.resume_congr
      (some ⟨task, world.runtime, .createSession, fun _ => program task⟩)]
    refine resume (@take world h
      ⟨task, world.runtime, .createSession, fun _ => program task⟩ queue hqueue ?_ ?_) rfl
      world.runtime _ (program_own hclose)
    · intro loop hloop
      by_contra hne
      exact hstale ⟨loop, hloop, hne⟩
    · intro _
      exact program_own hclose

theorem closeStep (h : BroadcastInvariant world) (hkind : task.kind = .call .close)
    {rest : Action Unit}
    (hrest : Every (fun s s' : DebugRuntime => s'.broadcasts = s.broadcasts ∧
      s'.currentGeneration = s.currentGeneration) (fun _ => True) rest) :
    BroadcastInvariant (world.resumeClose task rest) := by
  obtain ⟨⟨hbroadcasts, hgeneration⟩, hwait⟩ := hrest.advance (fun _ => ⟨rfl, rfl⟩)
    (fun _ _ _ h h' => ⟨h'.1.trans h.1, h'.2.trans h.2⟩) world.runtime
  unfold resumeClose
  cases hadvance : rest.advance world.runtime with
  | mk s stopped =>
    rw [hadvance] at hbroadcasts hgeneration hwait
    cases stopped with
    | done result =>
      exact h.ofSame hbroadcasts (le_of_eq hgeneration.symm) rfl rfl rfl
    | waiting request next =>
      have hsame : BroadcastInvariant { world with
          runtime := s
          log := world.log ++ [.requested task request] } :=
        h.ofSame hbroadcasts (le_of_eq hgeneration.symm) rfl rfl rfl
      refine ⟨hsame.ordered, hsame.current, hsame.queued, hsame.inOrder, hsame.tickGeneration,
        hsame.running, ?_, hsame.notClose⟩
      intro waiting hwaiting
      rcases mem_append.1 hwaiting with hwaiting | hwaiting
      · exact h.closing waiting hwaiting
      rw [mem_singleton.1 hwaiting]
      exact ⟨hkind, (hwait request next rfl).2⟩

theorem close_same : Every (fun s s' : DebugRuntime => s'.broadcasts = s.broadcasts ∧
    s'.currentGeneration = s.currentGeneration) (fun _ => True) close := by
  have hlast : Every (fun s s' : DebugRuntime => s'.broadcasts = s.broadcasts ∧
      s'.currentGeneration = s.currentGeneration) (fun _ => True)
      (Coroutine.modify fun s => { s with currentEntry := none, currentBackend := "pipeline" } :
        Action Unit) :=
    Every.modify fun s => ⟨rfl, rfl⟩
  refine (Every.modify fun s => ⟨rfl, rfl⟩).bind fun _ => ?_
  refine (Every.get fun s => ⟨rfl, rfl⟩).bind fun s => ?_
  cases s.currentSession with
  | none => exact hlast
  | some id =>
    refine (Every.modify fun s => ⟨rfl, rfl⟩).bind fun _ => ?_
    refine (Every.call trivial).bind fun _ => ?_
    exact (Every.modify fun s => ⟨rfl, rfl⟩).bind fun _ => hlast

theorem callStep (h : BroadcastInvariant world) (call : ApiCall) (hclose : call ≠ .close) :
    BroadcastInvariant (world.step (.call call)) := by
  obtain ⟨hcaptured, hgrows⟩ := LoopInvariant.beginCall_generation world.runtime call
  have hbroadcasts : (beginCall world.runtime call).2.broadcasts = world.runtime.broadcasts := by
    cases call <;> rfl
  have hqueue : (world.step (.call call)).queue = world.queue ++
      [{ number := world.calls, generation := (beginCall world.runtime call).1
         kind := .call call }] := by
    cases call <;> first
      | rfl
      | exact absurd rfl hclose
  have hruntime : (world.step (.call call)).runtime = (beginCall world.runtime call).2 := by
    cases call <;> first
      | rfl
      | exact absurd rfl hclose
  have hrest : (world.step (.call call)).running = world.running ∧
      (world.step (.call call)).closing = world.closing := by
    cases call <;> first
      | exact ⟨rfl, rfl⟩
      | exact absurd rfl hclose
  have hgrown : ∀ bound, ReplacedBelow world bound →
      ReplacedBelow (world.step (.call call)) bound := by
    intro bound hbound b hb
    rw [hruntime, hbroadcasts] at hb
    exact hbound b hb
  have hnew : ∀ b ∈ world.runtime.broadcasts, b.task.replaces →
      b.task.generation ≤ (beginCall world.runtime call).1 := fun b hb hreplaces =>
    le_trans (h.current b hb hreplaces) hgrows
  refine ⟨by rw [hruntime, hbroadcasts]; exact h.ordered, ?_, ?_, ?_, ?_, ?_,
    by rw [hrest.2]; exact h.closing, ?_⟩
  · rw [hruntime, ← hcaptured]
    exact hgrown _ hnew
  · rw [hqueue, hruntime]
    intro task htask hcall
    rcases mem_append.1 htask with htask | htask
    · obtain ⟨hold, hle⟩ := h.queued task htask hcall
      exact ⟨hgrown _ hold, by omega⟩
    rw [mem_singleton.1 htask]
    exact ⟨hgrown _ hnew, le_of_eq hcaptured⟩
  · rw [hqueue, pairwise_append]
    refine ⟨h.inOrder, pairwise_singleton _ _, ?_⟩
    intro earlier hearlier later hlater _ hcall
    rw [mem_singleton.1 hlater]
    exact le_trans (h.queued earlier hearlier hcall).2 hgrows
  · rw [hqueue]
    intro task htask loop hloop
    rcases mem_append.1 htask with htask | htask
    · exact h.tickGeneration task htask loop hloop
    rw [mem_singleton.1 htask] at hloop
    cases hloop
  · rw [hrest.1, hqueue, hruntime]
    intro waiting hwaiting
    obtain ⟨hbelow, hle, hlater, hown⟩ := h.running waiting hwaiting
    refine ⟨hgrown _ hbelow, by omega, fun hcall task htask htaskCall => ?_, hown⟩
    rcases mem_append.1 htask with htask | htask
    · exact hlater hcall task htask htaskCall
    rw [mem_singleton.1 htask]
    simp only
    omega
  · rw [hqueue]
    intro task htask
    rcases mem_append.1 htask with htask | htask
    · exact h.notClose task htask
    rw [mem_singleton.1 htask]
    simpa using hclose

theorem afterTick_broadcasts (s : DebugRuntime) (task : Task) (loop : RunLoop)
    (error : Option RuntimeError) :
    (afterTick s task loop error).currentGeneration = s.currentGeneration ∧
      ((afterTick s task loop error).broadcasts = s.broadcasts ∨
        ∃ e, (afterTick s task loop error).broadcasts =
          s.broadcasts ++ [{ task := task, message := .error e }]) := by
  unfold afterTick DebugRuntime.scheduleNextTick
  split
  · exact ⟨rfl, .inl rfl⟩
  · exact ⟨rfl, .inr ⟨_, rfl⟩⟩
  · split_ifs <;> exact ⟨rfl, .inl rfl⟩

/-- The callbacks of timers that go on belong to ticks. -/
def TicksOnly (world : RuntimeWorld) : Prop := ∀ tick ∈ world.ticks, tick.1.replaces = false

theorem ticksOnly_resume (h : TicksOnly world) (task : Task) (start : DebugRuntime)
    (rest : Action Unit) : TicksOnly (world.resume task start rest) := by
  unfold RuntimeWorld.resume
  cases rest.advance world.runtime with
  | mk s stopped =>
    cases stopped with
    | waiting request next => exact h
    | done result =>
      intro tick htick
      rcases mem_append.1 htick with htick | htick
      · exact h tick htick
      unfold afterAction at htick
      split at htick
      · cases htick
      rename_i loop hkind
      rw [mem_singleton.1 htick]
      exact @replaces_of_tick task loop (by simp [Task.loop?, hkind])

theorem ticksOnly_resumeClose (h : TicksOnly world) (task : Task) (rest : Action Unit) :
    TicksOnly (world.resumeClose task rest) := by
  unfold resumeClose
  cases rest.advance world.runtime with
  | mk s stopped => cases stopped <;> exact h

theorem ticksOnly_step (h : TicksOnly world) (event : RuntimeEvent) :
    TicksOnly (world.step event) := by
  cases event with
  | call call => cases call <;> first
      | exact @ticksOnly_resumeClose { world with calls := world.calls + 1 } h _ _
      | exact h
  | start =>
    simp only [step]
    split
    · refine ticksOnly_resume ?_ _ _ _
      exact h
    · exact h
  | respond response =>
    simp only [step]
    split
    · exact h
    · exact ticksOnly_resume h _ _ _
  | timer handle =>
    simp only [step]
    split <;> exact h
  | continueTick =>
    simp only [step]
    cases hticks : world.ticks with
    | nil => exact h
    | cons tick ticks =>
      intro other hother
      exact h other (by rw [hticks]; exact mem_cons_of_mem _ hother)
  | closeResponds index response =>
    simp only [step]
    split
    · exact h
    refine ticksOnly_resumeClose ?_ _ _
    exact h

theorem step (h : BroadcastInvariant world) (honly : TicksOnly world) (event : RuntimeEvent) :
    BroadcastInvariant (world.step event) := by
  cases event with
  | call call =>
    by_cases hclose : call = .close
    · rw [hclose]
      have hcalled : BroadcastInvariant { world with calls := world.calls + 1 } :=
        h.ofSame rfl (le_refl _) rfl rfl rfl
      exact hcalled.closeStep rfl close_same
    · exact h.callStep call hclose
  | start =>
    simp only [RuntimeWorld.step]
    cases hidle : world.running with
    | some waiting => exact h
    | none =>
      cases hqueue : world.queue with
      | nil => exact h
      | cons task queue => exact h.start hidle hqueue
  | respond response =>
    simp only [RuntimeWorld.step]
    cases hrunning : world.running with
    | none => exact h
    | some waiting =>
      obtain ⟨_, _, _, hown⟩ := h.running waiting hrunning
      exact h.resume hrunning waiting.start _ (hown response)
  | timer handle =>
    simp only [RuntimeWorld.step]
    split
    · exact h
    rename_i timer hfind
    have hqueued : ∀ task ∈ world.queue ++ [{ number := timer.2.run
                                              generation := timer.2.generation
                                              kind := .tick timer.2 }],
        task ∈ world.queue ∨ task.loop? = some timer.2 ∧
          task.generation = timer.2.generation ∧ task.kind ≠ .call .close := by
      intro task htask
      rcases mem_append.1 htask with htask | htask
      · exact .inl htask
      rw [mem_singleton.1 htask]
      exact .inr ⟨rfl, rfl, by simp⟩
    refine ⟨h.ordered, h.current, ?_, ?_, ?_, ?_, h.closing, ?_⟩
    · intro task htask hcall
      rcases hqueued task htask with hold | ⟨hloop, _⟩
      · exact h.queued task hold hcall
      rw [hcall] at hloop
      cases hloop
    · rw [pairwise_append]
      refine ⟨h.inOrder, pairwise_singleton _ _, ?_⟩
      intro earlier hearlier later hlater hcall
      rw [mem_singleton.1 hlater] at hcall
      cases hcall
    · intro task htask loop hloop
      rcases hqueued task htask with hold | ⟨htick, hgeneration, _⟩
      · exact h.tickGeneration task hold loop hloop
      rw [htick, Option.some.injEq] at hloop
      rw [← hloop, hgeneration]
    · intro waiting hwaiting
      obtain ⟨hbelow, hle, hlater, hown⟩ := h.running waiting hwaiting
      refine ⟨hbelow, hle, fun hcall task htask htaskCall => ?_, hown⟩
      rcases hqueued task htask with hold | ⟨hloop, _⟩
      · exact hlater hcall task hold htaskCall
      rw [htaskCall] at hloop
      cases hloop
    · intro task htask
      rcases hqueued task htask with hold | ⟨_, _, hclose⟩
      · exact h.notClose task hold
      · exact hclose
  | continueTick =>
    simp only [RuntimeWorld.step]
    cases hticks : world.ticks with
    | nil => exact h
    | cons tick ticks =>
      obtain ⟨task, loop, error⟩ := tick
      obtain ⟨hgeneration, hbroadcasts⟩ := afterTick_broadcasts world.runtime task loop error
      have htask : task.replaces = false := honly (task, loop, error) (by rw [hticks]; simp)
      have hbelow : ∀ bound, ReplacedBelow world bound →
          ∀ b ∈ (afterTick world.runtime task loop error).broadcasts, b.task.replaces →
            b.task.generation ≤ bound := by
        intro bound hbound b hb hreplaces
        rcases hbroadcasts with hsame | ⟨e, hsame⟩
        · rw [hsame] at hb
          exact hbound b hb hreplaces
        rw [hsame] at hb
        rcases mem_append.1 hb with hb | hb
        · exact hbound b hb hreplaces
        rw [mem_singleton.1 hb, htask] at hreplaces
        cases hreplaces
      refine ⟨?_, by rw [ReplacedBelow, hgeneration]; exact hbelow _ h.current, ?_, h.inOrder,
        h.tickGeneration, ?_, h.closing, h.notClose⟩
      · rcases hbroadcasts with hsame | ⟨e, hsame⟩
        · rw [hsame]
          exact h.ordered
        rw [hsame]
        unfold GenerationsOrdered
        rw [pairwise_append]
        refine ⟨h.ordered, pairwise_singleton _ _, ?_⟩
        intro earlier hearlier later hlater _ hmessage
        rw [mem_singleton.1 hlater] at hmessage
        cases hmessage
      · intro other hother hcall
        obtain ⟨hold, hle⟩ := h.queued other hother hcall
        exact ⟨hbelow _ hold, by rw [hgeneration]; exact hle⟩
      · intro waiting hwaiting
        obtain ⟨hold, hle, hlater, hown⟩ := h.running waiting hwaiting
        exact ⟨hbelow _ hold, by rw [hgeneration]; exact hle, hlater, hown⟩
  | closeResponds index response =>
    simp only [RuntimeWorld.step]
    cases hwaiting : world.closing[index]? with
    | none => exact h
    | some waiting =>
      obtain ⟨hkind, hrest⟩ := h.closing waiting (List.mem_of_getElem? hwaiting)
      have hless : BroadcastInvariant { world with closing := world.closing.eraseIdx index } :=
        ⟨h.ordered, h.current, h.queued, h.inOrder, h.tickGeneration, h.running,
          fun other hother => h.closing other (mem_of_mem_eraseIdx hother), h.notClose⟩
      exact hless.closeStep hkind (hrest response)

theorem run {events : List RuntimeEvent} (h : BroadcastInvariant world)
    (honly : TicksOnly world) : BroadcastInvariant (world.run events) := by
  induction events generalizing world with
  | nil => exact h
  | cons event events ih => exact ih (h.step honly event) (ticksOnly_step honly event)

end BroadcastInvariant

end RuntimeWorld

end VisualCpu
