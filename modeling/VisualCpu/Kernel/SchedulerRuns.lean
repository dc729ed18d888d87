import VisualCpu.Kernel.ProcessLifecycle
import VisualCpu.Kernel.SchedulerTick

/-!
# Runs of the online scheduler

What holds after every tick of a run, and how long a ready process waits under round robin.
Two steps strand a process: a policy switch while a process runs, after which nobody is
current, and the end of the slice of the only process that can run.
-/

namespace VisualCpu

open List RoundRobin CourseOnlineScheduler CourseProcessTable Nat

namespace CourseOnlineScheduler

open CourseProcessTable

variable {scheduler : CourseOnlineScheduler} {table table' : CourseProcessTable} {index : ℕ}

theorem map_modify_of_eq {α β : Type} {f : α → α} {g : α → β} (hfg : ∀ a, g (f a) = g a)
    (xs : List α) (i : ℕ) : (xs.modify i f).map g = xs.map g := by
  induction xs generalizing i with
  | nil => cases i <;> rfl
  | cons x xs ih => cases i <;> simp [hfg, ih]

theorem chargeTick_pids : scheduler.chargeTick.tasks.map (·.pid) = scheduler.tasks.map (·.pid) := by
  apply map_modify_of_eq
  intro task
  rfl

theorem chargeTick_used : scheduler.chargeTick.tasks.map (·.used) =
    scheduler.tasks.map (·.used) := by
  apply map_modify_of_eq
  intro task
  rfl

theorem chargeTick_length : scheduler.chargeTick.tasks.length = scheduler.tasks.length :=
  length_modify ..

theorem chargeTick_getElem? (index : ℕ) :
    (scheduler.chargeTick.tasks[index]?).map (·.pid) = (scheduler.tasks[index]?).map (·.pid) := by
  rw [← List.getElem?_map, ← List.getElem?_map, chargeTick_pids]

theorem sum_modify_runTicks (tasks : List CourseOnlineSchedulerTask)
    (hindex : index < tasks.length) :
    ((tasks.modify index fun task => { task with
        runTicks := succ32 task.runTicks, vruntime := succ32 task.vruntime }).map
          (·.runTicks)).sum % 2 ^ 32 = ((tasks.map (·.runTicks)).sum + 1) % 2 ^ 32 := by
  induction tasks generalizing index with
  | nil => cases hindex
  | cons task tasks ih =>
    cases index with
    | zero =>
      simp only [modify_zero_cons, map_cons, sum_cons, succ32]
      omega
    | succ index =>
      have := ih (by simpa using hindex)
      simp only [modify_succ_cons, map_cons, sum_cons] at this ⊢
      omega

theorem Shape.countTick (h : scheduler.Shape table) : scheduler.countTick.Shape table :=
  ⟨h.fresh, h.bound, h.used, h.pids, h.positive, h.small, h.current, h.currentPid, h.policy,
    h.slice, h.sliceUsed, h.only⟩

theorem Shape.chargeTick (h : scheduler.Shape table) (hslice : scheduler.summary.policy = .rr →
      scheduler.sliceUsed < scheduler.summary.timeSlice.toNat) :
    scheduler.chargeTick.Shape table where
  fresh := h.fresh
  bound := h.bound
  used task htask := by
    have hmem : task.used ∈ scheduler.chargeTick.tasks.map (·.used) := mem_map_of_mem htask
    rw [chargeTick_used, mem_map] at hmem
    obtain ⟨task', htask', heq⟩ := hmem
    exact heq.symm.trans (h.used task' htask')
  pids := by
    rw [chargeTick_pids]
    exact h.pids
  positive task htask := by
    have hmem : task.pid ∈ scheduler.chargeTick.tasks.map (·.pid) := mem_map_of_mem htask
    rw [chargeTick_pids, mem_map] at hmem
    obtain ⟨task', htask', heq⟩ := hmem
    exact fun hzero => h.positive task' htask' (heq.trans hzero)
  small := by
    rw [chargeTick_length]
    exact h.small
  current := by
    rw [chargeTick_length]
    exact h.current
  currentPid := by
    show scheduler.summary.currentPid = _
    rw [h.currentPid]
    exact congrArg (Option.getD · 0) (chargeTick_getElem? _).symm
  policy := h.policy
  slice := h.slice
  sliceUsed hrr := by
    have hlt := hslice hrr
    have hsmall := scheduler.summary.timeSlice.toNat_lt
    show succ32 scheduler.sliceUsed ≤ scheduler.summary.timeSlice.toNat
    rw [succ32, mod_eq_of_lt (by omega)]
    omega
  only i hused hstate := by
    obtain ⟨task, htask, hpid⟩ := h.only i hused hstate
    have hmap : (scheduler.chargeTick.tasks[scheduler.currentIndex]?).map (·.pid) =
        some task.pid := by
      rw [chargeTick_getElem?, htask]
      rfl
    rw [Option.map_eq_some_iff] at hmap
    obtain ⟨task', htask', heq⟩ := hmap
    exact ⟨task', htask', heq.trans hpid⟩

theorem chargeTick_counted (hcurrent : scheduler.currentIndex < scheduler.tasks.length)
    (hcounted : scheduler.summary.ticks =
      (scheduler.summary.idleTicks + (scheduler.tasks.map (·.runTicks)).sum + 1) % 2 ^ 32) :
    scheduler.chargeTick.summary.ticks = (scheduler.chargeTick.summary.idleTicks +
      (scheduler.chargeTick.tasks.map (·.runTicks)).sum) % 2 ^ 32 := by
  have hsum := sum_modify_runTicks scheduler.tasks hcurrent
  show scheduler.summary.ticks = (scheduler.summary.idleTicks + _) % 2 ^ 32
  rw [hcounted]
  simp only [chargeTick]
  omega

theorem countTick_counted (h : scheduler.WellFormed table) :
    scheduler.countTick.summary.ticks = (scheduler.countTick.summary.idleTicks +
      (scheduler.countTick.tasks.map (·.runTicks)).sum + 1) % 2 ^ 32 := by
  have hcounted := h.counted
  show succ32 scheduler.summary.ticks = (scheduler.summary.idleTicks +
    (scheduler.tasks.map (·.runTicks)).sum + 1) % 2 ^ 32
  rw [succ32]
  omega

theorem Selected.shape {scheduler' : CourseOnlineScheduler}
    (h : scheduler.Shape table) (hselected : scheduler.Selected index scheduler' table') :
    scheduler'.Shape table' := by
  obtain ⟨task, i, htask, hused, hpid, hfind, hstate, honly⟩ := hselected.runs
  have htask' : scheduler'.tasks[scheduler'.currentIndex]? = some task := by
    rw [hselected.tasks, hselected.currentIndex]
    exact htask
  constructor
  · exact hselected.fresh
  · exact hselected.bound.trans h.bound
  · rw [hselected.tasks]
    exact h.used
  · rw [hselected.tasks]
    exact h.pids
  · rw [hselected.tasks]
    exact h.positive
  · rw [hselected.tasks]
    exact h.small
  · exact .inl (List.getElem?_eq_some_iff.1 htask').1
  · rw [htask', hpid]
    rfl
  · rw [hselected.counts.policy]
    exact h.policy
  · rw [hselected.counts.policy, hselected.counts.timeSlice]
    exact h.slice
  · intro _
    rw [hselected.sliceUsed]
    exact zero_le _
  · intro j hj hrunning
    have hji := honly j hj hrunning
    subst hji
    exact ⟨task, htask', (find_some hfind).2.2.symm⟩

theorem Shape.idleTick (h : scheduler.Shape table)
    (hcurrent : scheduler.currentRunning table = false) :
    scheduler.countTick.idleTick.Shape table where
  fresh := h.fresh
  bound := h.bound
  used := h.used
  pids := h.pids
  positive := h.positive
  small := h.small
  current := .inr rfl
  currentPid := by
    show 0 = _
    have hnone := getElem?_noIndex h.small
    show 0 = ((scheduler.tasks[courseOnlineSchedulerNoIndex]?).map (·.pid)).getD 0
    rw [hnone]
    rfl
  policy := h.policy
  slice := h.slice
  sliceUsed _ := zero_le _
  only i hused hstate := absurd hstate (h.none_running hcurrent i hused)

theorem idleTick_counted (h : scheduler.WellFormed table) :
    scheduler.countTick.idleTick.summary.ticks = (scheduler.countTick.idleTick.summary.idleTicks +
      (scheduler.countTick.idleTick.tasks.map (·.runTicks)).sum) % 2 ^ 32 := by
  have hcounted := h.counted
  show succ32 scheduler.summary.ticks = (succ32 scheduler.summary.idleTicks +
    (scheduler.tasks.map (·.runTicks)).sum) % 2 ^ 32
  simp only [succ32]
  omega

theorem slice_pos (h : scheduler.Shape table) (hrr : scheduler.summary.policy = .rr) :
    0 < scheduler.summary.timeSlice.toNat := by
  have hne := h.slice (by simp [hrr])
  rw [pos_iff_ne_zero]
  exact fun hzero => hne (UInt32.toNat.inj hzero)

section

variable (h : scheduler.WellFormed table)

include h

theorem TickCase.wellFormed {scheduler' : CourseOnlineScheduler}
    (hcase : scheduler.TickCase table scheduler' table') : scheduler'.WellFormed table' := by
  cases hcase with
  | kept hrunning hslice =>
    obtain ⟨task, i, htask, -⟩ := currentRunning_some hrunning
    have hcurrent : scheduler.currentIndex < scheduler.tasks.length :=
      (List.getElem?_eq_some_iff.1 htask).1
    exact ⟨h.toShape.countTick.chargeTick hslice, chargeTick_counted hcurrent (countTick_counted h)⟩
  | @switched index prepared _ hselected _ =>
    have hshape := hselected.shape h.toShape.countTick
    obtain ⟨task, i, htask, -⟩ := hselected.runs
    refine ⟨hshape.chargeTick fun hrr => ?_, chargeTick_counted ?_ ?_⟩
    · rw [hselected.sliceUsed]
      exact slice_pos hshape hrr
    · rw [hselected.tasks, hselected.currentIndex]
      exact (List.getElem?_eq_some_iff.1 htask).1
    · rw [hselected.tasks, hselected.counts.ticks, hselected.counts.idleTicks]
      exact countTick_counted h
  | idle hcurrent hnone => exact ⟨h.toShape.idleTick hcurrent, idleTick_counted h⟩

theorem WellFormed.cards (hfresh : table'.PidsFresh)
    (hrunning : ∀ i, (table'.cards i).used → (table'.cards i).state = .running →
      table'.cards i = table.cards i) : scheduler.WellFormed table' :=
  ⟨⟨hfresh, h.bound, h.used, h.pids, h.positive, h.small, h.current, h.currentPid, h.policy,
    h.slice, h.sliceUsed, fun i hused hstate => by
      have hcard := hrunning i hused hstate
      rw [hcard] at hused hstate ⊢
      exact h.only i hused hstate⟩, h.counted⟩

theorem WellFormed.configure
    (hcurrent : scheduler.currentRunning table = false) (policy : CourseSchedPolicy)
    (timeSlice : UInt32) : (scheduler.configure policy timeSlice).1.WellFormed table := by
  simp only [CourseOnlineScheduler.configure]
  split
  · exact h
  rename_i haccepted
  push Not at haccepted
  refine ⟨⟨h.fresh, h.bound, h.used, h.pids, h.positive, h.small, .inr rfl, ?_, haccepted.1, ?_,
    fun _ => zero_le _, fun i hused hstate =>
      absurd hstate (h.none_running hcurrent i hused)⟩, h.counted⟩
  · show 0 = ((scheduler.tasks[courseOnlineSchedulerNoIndex]?).map (·.pid)).getD 0
    rw [getElem?_noIndex h.small]
    rfl
  intro hfcfs
  have hne : policy ≠ .fcfs := hfcfs
  show (if policy = .fcfs then 0 else timeSlice) ≠ 0
  rw [if_neg hne]
  exact haccepted.2 hne

end

def withTask (scheduler : CourseOnlineScheduler) (task : CourseOnlineSchedulerTask) :
    CourseOnlineScheduler :=
  { scheduler with tasks := scheduler.tasks ++ [task] }

@[simp] theorem withTask_taskCount (task : CourseOnlineSchedulerTask) :
    (scheduler.withTask task).taskCount = scheduler.taskCount + 1 := by
  simp [taskCount, withTask]

theorem getElem?_append_of_current (h : scheduler.Shape table) (task : CourseOnlineSchedulerTask)
    (hroom : scheduler.tasks.length < courseSchedulerMaxTasks) :
    (scheduler.tasks ++ [task])[scheduler.currentIndex]? =
      scheduler.tasks[scheduler.currentIndex]? := by
  rcases h.current with hlt | hnone
  · exact List.getElem?_append_left hlt
  rw [hnone, getElem?_noIndex h.small]
  exact List.getElem?_eq_none (by simp; exact hroom)

theorem withTask_currentRunning (h : scheduler.Shape table) (task : CourseOnlineSchedulerTask)
    (hroom : scheduler.tasks.length < courseSchedulerMaxTasks) :
    (scheduler.withTask task).currentRunning table = scheduler.currentRunning table := by
  have hcurrent : (scheduler.withTask task).tasks[scheduler.currentIndex]? =
      scheduler.tasks[scheduler.currentIndex]? := getElem?_append_of_current h task hroom
  have hindex : (scheduler.withTask task).currentIndex = scheduler.currentIndex := rfl
  have hbound : (scheduler.withTask task).bound = scheduler.bound := rfl
  simp only [currentRunning, indexValid, processAt, hindex, hbound, hcurrent]

theorem addProcess_cases (pid : ℕ) : scheduler.addProcess table pid = (scheduler, false) ∨
    (pid ≠ 0 ∧ scheduler.tasks.length < courseSchedulerMaxTasks ∧
      (∀ task ∈ scheduler.tasks, task.used → task.pid ≠ pid) ∧
      scheduler.addProcess table pid =
        (scheduler.withTask { used := true, pid := pid }, true)) := by
  simp only [addProcess]
  split
  · exact .inl rfl
  rename_i hguard
  push Not at hguard
  split
  · exact .inl rfl
  split
  · exact .inl rfl
  split
  · exact .inl rfl
  rename_i hany
  refine .inr ⟨hguard.2.1, hguard.2.2, fun task htask hused hpid => hany ?_, rfl⟩
  rw [any_eq_true]
  exact ⟨task, htask, by simp [hused, hpid]⟩

theorem WellFormed.addProcess (h : scheduler.WellFormed table) (pid : ℕ) :
    (scheduler.addProcess table pid).1.WellFormed table := by
  rcases @addProcess_cases scheduler table pid with hadd | ⟨hpid, hroom, hnew, hadd⟩
  · rw [hadd]
    exact h
  rw [hadd]
  simp only [withTask]
  have hcurrent := getElem?_append_of_current h.toShape { used := true, pid := pid } hroom
  refine ⟨⟨h.fresh, h.bound, ?_, ?_, ?_, ?_, ?_, ?_, h.policy, h.slice, h.sliceUsed, ?_⟩, ?_⟩
  · intro task htask
    rcases mem_append.1 htask with htask | htask
    · exact h.used task htask
    · rw [mem_singleton.1 htask]
  · rw [map_append, map_singleton]
    refine h.pids.append (nodup_singleton _) ?_
    intro other hother hmem
    rw [mem_singleton.1 hmem, mem_map] at hother
    obtain ⟨task, htask, heq⟩ := hother
    exact hnew task htask (h.used task htask) heq
  · intro task htask
    rcases mem_append.1 htask with htask | htask
    · exact h.positive task htask
    rw [mem_singleton.1 htask]
    exact hpid
  · simp only [length_append, length_singleton]
    exact hroom
  · rcases h.current with hlt | hnone
    · exact .inl (by simp only [length_append, length_singleton]; omega)
    · exact .inr hnone
  · simp only [hcurrent]
    exact h.currentPid
  · intro i hused hstate
    simp only [hcurrent]
    exact h.only i hused hstate
  · have hcounted := h.counted
    simp only [map_append, sum_append, map_singleton, sum_singleton, add_zero]
    exact hcounted

end CourseOnlineScheduler

section

variable {table table' : CourseProcessTable} {rewritten : Option ProcessSlot}
  {events : List LifeEvent} (hstep : CardStep table table' rewritten events)

include hstep

theorem CardStep.fresh (h : table.PidsFresh) : table'.PidsFresh := by
  cases hstep with
  | same hsame => exact h.congr hsame
  | born hfree hne hcards hnext => exact h.take (fun _ => rfl) hne hcards hnext
  | lost hfree hne hcards hnext => exact h.take (fun hused => by cases hused) hne hcards hnext
  | exited hi hused hcards hnext => exact h.write hcards hnext
  | reaped hused hzombie hcards hnext => exact h.write hcards hnext
  | moved hi hused hstate hcards hnext => exact h.write hcards hnext

theorem CardStep.running (i : ProcessSlot)
    (hrunning : (table'.cards i).state = .running) : table'.cards i = table.cards i := by
  have hwrite : ∀ {j : ProcessSlot} {card : ProcessCard}, card.state ≠ .running →
      table'.cards = Function.update table.cards j card → table'.cards i = table.cards i := by
    intro j card hstate hcards
    rw [hcards] at hrunning ⊢
    by_cases hij : i = j
    · subst hij
      rw [Function.update_self] at hrunning
      exact absurd hrunning hstate
    · rw [Function.update_of_ne hij]
  cases hstep with
  | same hsame => rw [hsame.1]
  | born hfree hne hcards hnext => exact hwrite (by simp [ProcessCard.newborn]) hcards
  | lost hfree hne hcards hnext => exact hwrite (by simp [ProcessCard.cleared]) hcards
  | exited hi hused hcards hnext => exact hwrite (by simp) hcards
  | reaped hused hzombie hcards hnext => exact hwrite (by simp) hcards
  | moved hi hused hstate hcards hnext =>
    refine hwrite ?_ hcards
    rcases hstate with rfl | rfl <;> simp

end

namespace CourseSystem

def Strands (system : CourseSystem) : CourseAction → Prop
  | .configure policy timeSlice =>
    ¬(policy = .count ∨ policy ≠ .fcfs ∧ timeSlice = 0) ∧
      system.scheduler.currentRunning system.table
  | .tick => system.scheduler.LoneExpiry system.table
  | _ => False

def Served (system : CourseSystem) : List CourseAction → Prop
  | [] => True
  | action :: rest => ¬system.Strands action ∧ (system.perform action).Served rest

theorem start_wellFormed (values : ℕ → BitVec 32) :
    (start values).scheduler.WellFormed (start values).table where
  fresh := init_pidsFresh
  bound := rfl
  used _ htask := by cases htask
  pids := nodup_nil
  positive _ htask := by cases htask
  small := zero_le _
  current := .inr rfl
  currentPid := rfl
  policy := fun hcount => by cases hcount
  slice hfcfs := absurd rfl hfcfs
  sliceUsed _ := zero_le _
  only _ hused := by cases hused
  counted := rfl

variable {system : CourseSystem} {action : CourseAction}

section

variable (h : system.scheduler.WellFormed system.table)

include h

theorem perform_tick (hstrands : ¬system.Strands .tick) :
    system.scheduler.TickCase system.table (system.perform .tick).scheduler
      (system.perform .tick).table := by
  obtain ⟨scheduler', table', htick, hcase⟩ := tick_cases h hstrands
  simp only [perform, htick]
  exact hcase

theorem perform_wellFormed (hstrands : ¬system.Strands action) :
    (system.perform action).scheduler.WellFormed (system.perform action).table := by
  have hcards : action ≠ .tick → (system.perform action).scheduler = system.scheduler →
      (system.perform action).scheduler.WellFormed (system.perform action).table := by
    intro htick hscheduler
    have hstep := @perform_cardStep system action htick
    rw [hscheduler]
    exact h.cards (hstep.fresh h.fresh) fun i _ hrunning => hstep.running i hrunning
  cases action with
  | tick => exact (perform_tick h hstrands).wellFormed h
  | configure policy timeSlice =>
    by_cases hrejected : policy = .count ∨ policy ≠ .fcfs ∧ timeSlice = 0
    · have hsame : (system.scheduler.configure policy timeSlice).1 = system.scheduler := by
        rw [configure, if_pos hrejected]
      simp only [perform, hsame]
      exact h
    · refine h.configure ?_ policy timeSlice
      cases hrunning : system.scheduler.currentRunning system.table with
      | false => rfl
      | true => exact absurd ⟨hrejected, hrunning⟩ hstrands
  | addProcess pid => exact h.addProcess pid
  | process call => exact hcards (by simp) rfl
  | semaphoreWait k pid => exact hcards (by simp) rfl
  | semaphorePost k => exact hcards (by simp) rfl
  | mutexLock k pid => exact hcards (by simp) rfl
  | mutexUnlock k pid => exact hcards (by simp) rfl

theorem run_wellFormed {actions : List CourseAction} (hserved : system.Served actions) :
    (system.run actions).scheduler.WellFormed (system.run actions).table := by
  induction actions generalizing system with
  | nil => exact h
  | cons action rest ih => exact ih (perform_wellFormed h hserved.1) hserved.2

end

end CourseSystem

namespace CourseOnlineScheduler

variable {scheduler scheduler' : CourseOnlineScheduler} {table table' : CourseProcessTable}

/-- The ticks that may go by before round robin reaches the task at an index: what is left
of the running slice, and a slice for each task that it looks at before. -/
def debt (scheduler : CourseOnlineScheduler) (table : CourseProcessTable) (index : ℕ) : ℕ :=
  (if scheduler.currentRunning table then
    scheduler.summary.timeSlice.toNat - scheduler.sliceUsed else 0) +
  scheduler.summary.timeSlice.toNat * gap scheduler.taskCount
    (rrStart scheduler.taskCount scheduler.currentIndex) index

theorem rrStart_of_lt {previousIndex : ℕ}
    (hsmall : scheduler.tasks.length ≤ courseSchedulerMaxTasks)
    (h : previousIndex < scheduler.taskCount) :
    rrStart scheduler.taskCount previousIndex = (previousIndex + 1) % scheduler.taskCount := by
  have hne : previousIndex ≠ courseOnlineSchedulerNoIndex := by
    simp only [taskCount, courseOnlineSchedulerNoIndex] at *
    omega
  rw [rrStart, if_neg hne]

theorem chargeTick_currentRunning (h : scheduler.Shape table)
    (hrunning : scheduler.currentRunning table) (hslice : scheduler.summary.policy = .rr →
      scheduler.sliceUsed < scheduler.summary.timeSlice.toNat) :
    scheduler.chargeTick.currentRunning table := by
  obtain ⟨task, i, htask, -, hfind, hstate⟩ := currentRunning_some hrunning
  have hmap : (scheduler.chargeTick.tasks[scheduler.currentIndex]?).map (·.pid) =
      some task.pid := by
    rw [chargeTick_getElem?, htask]
    rfl
  rw [Option.map_eq_some_iff] at hmap
  obtain ⟨task', htask', hpid⟩ := hmap
  have hused := (h.chargeTick hslice).used task' (List.mem_of_getElem? htask')
  exact currentRunning_of htask' hused h.bound (by rw [hpid, hfind]) hstate

theorem Selected.debt_lt {index other : ℕ} (h : scheduler.Shape table)
    (hselected : scheduler.Selected other scheduler' table') (hother : other < scheduler.taskCount)
    (hrr : scheduler.summary.policy = .rr) :
    scheduler'.chargeTick.debt table' index + 1 =
      scheduler.summary.timeSlice.toNat * (gap scheduler.taskCount
        ((other + 1) % scheduler.taskCount) index + 1) := by
  have hshape := hselected.shape h
  have hpos := slice_pos h hrr
  have hslice : scheduler'.sliceUsed < scheduler'.summary.timeSlice.toNat := by
    rw [hselected.sliceUsed, hselected.counts.timeSlice]
    exact hpos
  have hrunning := chargeTick_currentRunning hshape (hselected.currentRunning h.bound)
    fun _ => hslice
  have hcount : scheduler'.chargeTick.taskCount = scheduler.taskCount := by
    rw [taskCount, chargeTick_length, hselected.tasks]
    rfl
  have hstart := rrStart_of_lt h.small hother
  rw [debt, if_pos hrunning, hcount]
  show scheduler'.summary.timeSlice.toNat - succ32 scheduler'.sliceUsed +
    scheduler'.summary.timeSlice.toNat * gap scheduler.taskCount
      (rrStart scheduler.taskCount scheduler'.currentIndex) index + 1 = _
  rw [hselected.sliceUsed, hselected.counts.timeSlice, hselected.currentIndex, hstart,
    show succ32 0 = 1 from rfl, mul_add, mul_one]
  omega

variable {index : ℕ}

theorem TickCase.debt (h : scheduler.WellFormed table)
    (hcase : scheduler.TickCase table scheduler' table') (hrr : scheduler.summary.policy = .rr)
    (hindex : index < scheduler.taskCount) (hready : scheduler.processRunnable table index) :
    scheduler'.currentIndex = index ∨
      scheduler'.debt table' index + 1 ≤ scheduler.debt table index := by
  cases hcase with
  | kept hrunning hslice =>
    right
    have hslice' := hslice hrr
    have hrunning' := @chargeTick_currentRunning scheduler.countTick table h.toShape.countTick
      hrunning hslice
    have hcount : scheduler.countTick.chargeTick.taskCount = scheduler.taskCount := by
      rw [taskCount, chargeTick_length]
      rfl
    have hsmall := scheduler.summary.timeSlice.toNat_lt
    rw [debt, debt, if_pos hrunning, if_pos hrunning', hcount]
    show scheduler.summary.timeSlice.toNat - succ32 scheduler.sliceUsed +
      scheduler.summary.timeSlice.toNat * gap scheduler.taskCount
        (rrStart scheduler.taskCount scheduler.currentIndex) index + 1 ≤ _
    rw [succ32, mod_eq_of_lt (by omega)]
    omega
  | @switched other prepared _ hselected hpick =>
    obtain ⟨hother, hlt, -⟩ := hpick hrr
    rcases @pickRr_nearer scheduler table scheduler.currentIndex index hindex hready with
      hequal | hnear
    · left
      show prepared.currentIndex = index
      rw [hselected.currentIndex, hother, hequal]
    right
    have hdebt := @Selected.debt_lt _ _ table _ index _ h.toShape.countTick hselected hlt hrr
    have hcount : scheduler.countTick.taskCount = scheduler.taskCount := rfl
    have htime : scheduler.countTick.summary.timeSlice = scheduler.summary.timeSlice := rfl
    rw [← hother] at hnear
    rw [hdebt, hcount, htime, debt]
    have hmul := mul_le_mul_left scheduler.summary.timeSlice.toNat hnear
    exact le_trans hmul (le_add_left _ _)
  | idle hcurrent hnone =>
    rw [hnone index hindex] at hready
    cases hready

theorem TickCase.debt_of_current (h : scheduler.WellFormed table)
    (hcase : scheduler.TickCase table scheduler' table') (hrr : scheduler.summary.policy = .rr)
    (hcurrent : scheduler.currentIndex = index) (hrunning : scheduler.currentRunning table) :
    scheduler'.currentIndex = index ∨
      scheduler'.debt table' index + 1 ≤
        scheduler.summary.timeSlice.toNat * (scheduler.taskCount - 1) := by
  cases hcase with
  | kept _ _ => exact .inl hcurrent
  | @switched other prepared _ hselected hpick =>
    obtain ⟨-, hlt, -⟩ := hpick hrr
    by_cases hother : other = index
    · left
      show prepared.currentIndex = index
      rw [hselected.currentIndex, hother]
    right
    obtain ⟨task, i, htask, -⟩ := currentRunning_some hrunning
    have hindex : index < scheduler.taskCount := by
      rw [← hcurrent]
      exact (List.getElem?_eq_some_iff.1 htask).1
    have hdebt := @Selected.debt_lt _ _ table _ index _ h.toShape.countTick hselected hlt hrr
    have hcount : scheduler.countTick.taskCount = scheduler.taskCount := rfl
    have htime : scheduler.countTick.summary.timeSlice = scheduler.summary.timeSlice := rfl
    rw [hdebt, hcount, htime]
    have hgap := gap_succ_of_ne hindex hlt hother
    exact mul_le_mul_left _ (by omega)
  | idle hnot _ =>
    rw [hrunning] at hnot
    cases hnot

theorem debt_le (h : scheduler.Shape table) (hindex : index < scheduler.taskCount)
    (hother : scheduler.currentIndex = index → scheduler.currentRunning table = false) :
    scheduler.debt table index ≤ scheduler.summary.timeSlice.toNat * (scheduler.taskCount - 1) := by
  rw [debt]
  cases hrunning : scheduler.currentRunning table with
  | true =>
    obtain ⟨task, i, htask, -⟩ := currentRunning_some hrunning
    have hlt : scheduler.currentIndex < scheduler.taskCount :=
      (List.getElem?_eq_some_iff.1 htask).1
    have hne : scheduler.currentIndex ≠ index := fun heq => by
      rw [hother heq] at hrunning
      cases hrunning
    rw [rrStart_of_lt h.small hlt, if_pos rfl]
    have hgap := gap_succ_of_ne hindex hlt hne
    calc scheduler.summary.timeSlice.toNat - scheduler.sliceUsed +
          scheduler.summary.timeSlice.toNat * gap scheduler.taskCount
            ((scheduler.currentIndex + 1) % scheduler.taskCount) index
        ≤ scheduler.summary.timeSlice.toNat * (gap scheduler.taskCount
            ((scheduler.currentIndex + 1) % scheduler.taskCount) index + 1) := by
          rw [mul_add, mul_one]
          omega
      _ ≤ scheduler.summary.timeSlice.toNat * (scheduler.taskCount - 1) :=
          mul_le_mul_left _ (by omega)
  | false =>
    have hgap := gap_lt
      (@rrStart_lt scheduler.taskCount scheduler.currentIndex (by omega)) hindex
    simp only [Bool.false_eq_true, ↓reduceIte, zero_add]
    exact mul_le_mul_left _ (by omega)

theorem debt_mono (h : scheduler.currentRunning table' → scheduler.currentRunning table) :
    scheduler.debt table' index ≤ scheduler.debt table index := by
  simp only [debt]
  split
  · rename_i hrunning
    rw [if_pos (h hrunning)]
  · exact Nat.add_le_add_right (Nat.zero_le _) _

theorem debt_append (h : scheduler.Shape table) (task : CourseOnlineSchedulerTask)
    (hroom : scheduler.tasks.length < courseSchedulerMaxTasks)
    (hindex : index < scheduler.taskCount) :
    (scheduler.withTask task).debt table index ≤
      scheduler.debt table index + scheduler.summary.timeSlice.toNat := by
  have hgap : gap (scheduler.taskCount + 1)
      (rrStart (scheduler.taskCount + 1) scheduler.currentIndex) index ≤
      gap scheduler.taskCount
        (rrStart scheduler.taskCount scheduler.currentIndex) index + 1 := by
    rcases h.current with hlt | hnone
    · have hne : scheduler.currentIndex ≠ courseOnlineSchedulerNoIndex := by
        simp only [courseOnlineSchedulerNoIndex]
        omega
      simp only [rrStart, if_neg hne]
      exact gap_succ_grow hindex hlt
    · simp only [rrStart, hnone, ↓reduceIte, gap, zero_le]
      omega
  have hmul := mul_le_mul_left scheduler.summary.timeSlice.toNat hgap
  rw [mul_add, mul_one] at hmul
  rw [debt, debt, withTask_currentRunning h task hroom, withTask_taskCount]
  show (if scheduler.currentRunning table then
      scheduler.summary.timeSlice.toNat - scheduler.sliceUsed else 0) +
    scheduler.summary.timeSlice.toNat * gap (scheduler.taskCount + 1)
      (rrStart (scheduler.taskCount + 1) scheduler.currentIndex) index ≤ _
  omega

end CourseOnlineScheduler

namespace CourseSystem

open CourseOnlineScheduler

/-- The process with a pid is ready or running. -/
def Runnable (system : CourseSystem) (pid : ℕ) : Prop :=
  ∃ i, system.table.find pid = some i ∧
    ((system.table.cards i).state = .ready ∨ (system.table.cards i).state = .running)

def KeepsRunnable (pid : ℕ) (system : CourseSystem) : List CourseAction → Prop
  | [] => system.Runnable pid
  | action :: rest => system.Runnable pid ∧
      (∀ policy timeSlice, action ≠ .configure policy timeSlice) ∧
      KeepsRunnable pid (system.perform action) rest

def GivenCpu (pid : ℕ) (system : CourseSystem) : List CourseAction → Prop
  | [] => False
  | action :: rest =>
    (action = .tick ∧ (system.perform action).scheduler.summary.currentPid = pid) ∨
      GivenCpu pid (system.perform action) rest

def ticks : List CourseAction → ℕ
  | [] => 0
  | .tick :: rest => ticks rest + 1
  | _ :: rest => ticks rest

theorem ticks_cons_of_ne {action : CourseAction} (h : action ≠ .tick) (rest : List CourseAction) :
    ticks (action :: rest) = ticks rest := by
  cases action <;> first | rfl | exact absurd rfl h

/-- The ticks that have gone by since the process at an index could run are paid for: it runs
at present and none has, or the debt to it leaves room for them. -/
def Owed (system : CourseSystem) (index passed : ℕ) : Prop :=
  (system.scheduler.currentIndex = index ∧
      system.scheduler.currentRunning system.table ∧ passed = 0) ∨
    (system.scheduler.currentIndex = index → system.scheduler.currentRunning system.table = false) ∧
      passed + system.scheduler.debt system.table index ≤
        system.scheduler.summary.timeSlice.toNat * (system.scheduler.taskCount - 1)

variable {system : CourseSystem} {action : CourseAction}

def TaskAt (system : CourseSystem) (index pid : ℕ) : Prop :=
  (system.scheduler.tasks[index]?).map (·.pid) = some pid

theorem TaskAt.lt {index pid : ℕ} (h : system.TaskAt index pid) :
    index < system.scheduler.taskCount := by
  rw [TaskAt, Option.map_eq_some_iff] at h
  obtain ⟨task, htask, -⟩ := h
  exact (List.getElem?_eq_some_iff.1 htask).1

theorem TaskAt.currentPid {index pid : ℕ} (h : system.TaskAt index pid)
    (hshape : system.scheduler.Shape system.table)
    (hcurrent : system.scheduler.currentIndex = index) :
    system.scheduler.summary.currentPid = pid := by
  rw [hshape.currentPid, hcurrent, h]
  rfl

theorem processRunnable_of_runnable {index pid : ℕ} (h : system.scheduler.Shape system.table)
    (htask : system.TaskAt index pid) (hrunnable : system.Runnable pid) :
    system.scheduler.processRunnable system.table index ∨
      system.scheduler.currentIndex = index ∧ system.scheduler.currentRunning system.table := by
  obtain ⟨i, hfind, hstate⟩ := hrunnable
  rw [TaskAt, Option.map_eq_some_iff] at htask
  obtain ⟨task, htask, rfl⟩ := htask
  have hused := h.used task (List.mem_of_getElem? htask)
  rcases hstate with hready | hrunning
  · exact .inl (processRunnable_of htask hused h.bound hfind hready)
  obtain ⟨hslot, hpid⟩ := (find_some hfind).2
  obtain ⟨current, hcurrent, hcurrentPid⟩ := h.only i hslot hrunning
  rw [hpid] at hcurrentPid
  have hlt := (List.getElem?_eq_some_iff.1 hcurrent).1
  have hsame : system.scheduler.currentIndex = index := by
    refine (List.getElem?_inj (by simpa using hlt) h.pids).1 ?_
    rw [List.getElem?_map, List.getElem?_map, hcurrent, htask, Option.map_some, Option.map_some,
      hcurrentPid]
  refine .inr ⟨hsame, ?_⟩
  exact currentRunning_of hcurrent (h.used current (List.mem_of_getElem? hcurrent)) h.bound
    (by rw [hcurrentPid, hfind]) hrunning

theorem perform_taskAt {index pid : ℕ} (h : system.scheduler.WellFormed system.table)
    (hstrands : ¬system.Strands action) (htask : system.TaskAt index pid) :
    (system.perform action).TaskAt index pid := by
  cases action with
  | tick =>
    have hcase := perform_tick h hstrands
    have hpids : ∀ {scheduler' : CourseOnlineScheduler} {table' : CourseProcessTable},
        system.scheduler.TickCase system.table scheduler' table' →
        scheduler'.tasks.map (·.pid) = system.scheduler.tasks.map (·.pid) := by
      intro scheduler' table' hcase
      cases hcase with
      | kept _ _ => exact chargeTick_pids
      | switched hselected _ =>
        rw [chargeTick_pids, hselected.tasks]
        rfl
      | idle _ _ => rfl
    rw [TaskAt, ← List.getElem?_map] at htask ⊢
    rw [hpids hcase]
    exact htask
  | configure policy timeSlice =>
    have htasks : (system.scheduler.configure policy timeSlice).1.tasks =
      system.scheduler.tasks := by
      simp only [configure]
      split <;> rfl
    rw [TaskAt]
    show ((system.scheduler.configure policy timeSlice).1.tasks[index]?).map _ = _
    rw [htasks]
    exact htask
  | addProcess newPid =>
    rw [TaskAt]
    show ((system.scheduler.addProcess system.table newPid).1.tasks[index]?).map _ = _
    rcases @addProcess_cases system.scheduler system.table newPid with hadd | ⟨-, -, -, hadd⟩
    · rw [hadd]
      exact htask
    rw [hadd]
    have hlt := htask.lt
    simp only [withTask]
    rw [List.getElem?_append_left hlt]
    exact htask
  | process call => exact htask
  | semaphoreWait k pid => exact htask
  | semaphorePost k => exact htask
  | mutexLock k pid => exact htask
  | mutexUnlock k pid => exact htask

theorem perform_policy (hrr : system.scheduler.summary.policy = .rr)
    (h : system.scheduler.WellFormed system.table) (hstrands : ¬system.Strands action)
    (hconfigure : ∀ policy timeSlice, action ≠ .configure policy timeSlice) :
    (system.perform action).scheduler.summary.policy = .rr ∧
      (system.perform action).scheduler.summary.timeSlice = system.scheduler.summary.timeSlice := by
  cases action with
  | tick =>
    have hcase := perform_tick h hstrands
    have hsummary : ∀ {scheduler' : CourseOnlineScheduler} {table' : CourseProcessTable},
        system.scheduler.TickCase system.table scheduler' table' →
        scheduler'.summary.policy = system.scheduler.summary.policy ∧
          scheduler'.summary.timeSlice = system.scheduler.summary.timeSlice := by
      intro scheduler' table' hcase
      cases hcase with
      | kept _ _ => exact ⟨rfl, rfl⟩
      | switched hselected _ => exact ⟨hselected.counts.policy, hselected.counts.timeSlice⟩
      | idle _ _ => exact ⟨rfl, rfl⟩
    obtain ⟨hpolicy, htime⟩ := hsummary hcase
    exact ⟨hpolicy.trans hrr, htime⟩
  | configure policy timeSlice => exact absurd rfl (hconfigure policy timeSlice)
  | addProcess newPid =>
    have hsummary : (system.scheduler.addProcess system.table newPid).1.summary =
        system.scheduler.summary := by
      rcases @addProcess_cases system.scheduler system.table newPid with hadd | ⟨-, -, -, hadd⟩
      · rw [hadd]
      rw [hadd]
      rfl
    simp only [perform, hsummary]
    exact ⟨hrr, trivial⟩
  | process call => exact ⟨hrr, rfl⟩
  | semaphoreWait k pid => exact ⟨hrr, rfl⟩
  | semaphorePost k => exact ⟨hrr, rfl⟩
  | mutexLock k pid => exact ⟨hrr, rfl⟩
  | mutexUnlock k pid => exact ⟨hrr, rfl⟩

variable {index pid passed : ℕ}

theorem owed_tick (h : system.scheduler.WellFormed system.table)
    (hstrands : ¬system.Strands .tick) (hrr : system.scheduler.summary.policy = .rr)
    (htask : system.TaskAt index pid) (hrunnable : system.Runnable pid)
    (hnot : (system.perform .tick).scheduler.summary.currentPid ≠ pid)
    (howed : system.Owed index passed) : (system.perform .tick).Owed index (passed + 1) := by
  have hcase := perform_tick h hstrands
  have htask' := perform_taskAt h hstrands htask
  have hshape' := (hcase.wellFormed h).toShape
  have hnotCurrent : (system.perform .tick).scheduler.currentIndex ≠ index :=
    fun hcurrent => hnot (htask'.currentPid hshape' hcurrent)
  have htime := (perform_policy hrr h hstrands (by intro _ _; simp)).2
  have hcount : (system.perform .tick).scheduler.taskCount = system.scheduler.taskCount := by
    have hlength : ∀ {scheduler' : CourseOnlineScheduler} {table' : CourseProcessTable},
        system.scheduler.TickCase system.table scheduler' table' →
        scheduler'.taskCount = system.scheduler.taskCount := by
      intro scheduler' table' hcase
      cases hcase with
      | kept _ _ => exact chargeTick_length
      | switched hselected _ =>
        rw [taskCount, chargeTick_length, hselected.tasks]
        rfl
      | idle _ _ => rfl
    exact hlength hcase
  refine .inr ⟨fun hcurrent => absurd hcurrent hnotCurrent, ?_⟩
  rw [htime, hcount]
  rcases howed with ⟨hcurrent, hrunning, hzero⟩ | ⟨hidle, hroom⟩
  · rcases hcase.debt_of_current h hrr hcurrent hrunning with hgiven | hbound
    · exact absurd hgiven hnotCurrent
    · omega
  rcases processRunnable_of_runnable h.toShape htask hrunnable with hready | ⟨hcurrent, hrunning⟩
  · rcases hcase.debt h hrr htask.lt hready with hgiven | hpaid
    · exact absurd hgiven hnotCurrent
    · omega
  · rw [hidle hcurrent] at hrunning
    cases hrunning

theorem currentRunning_of_step {scheduler : CourseOnlineScheduler}
    {table table' : CourseProcessTable}
    {rewritten : Option ProcessSlot} {events : List LifeEvent}
    (hstep : CardStep table table' rewritten events) (h : scheduler.Shape table)
    (hrunning : scheduler.currentRunning table') : scheduler.currentRunning table = true := by
  obtain ⟨task, i, htask, hused, hfind, hstate⟩ := currentRunning_some hrunning
  obtain ⟨-, hslot, hpid⟩ := find_some hfind
  rw [hstep.running i hstate] at hslot hpid hstate
  have hfind' : table.find task.pid = some i := by
    rw [← hpid]
    exact h.fresh.find_eq hslot
  exact currentRunning_of htask hused h.bound hfind' hstate

section

variable (h : system.scheduler.WellFormed system.table) {window : List CourseAction}

include h

theorem owed_other
    (htick : action ≠ .tick) (hconfigure : ∀ policy timeSlice, action ≠ .configure policy timeSlice)
    (htask : system.TaskAt index pid) (howed : system.Owed index passed) :
    (system.perform action).Owed index passed := by
  have hquiet : (system.perform action).scheduler = system.scheduler →
      (system.perform action).Owed index passed := by
    intro hsame
    have hstep := @perform_cardStep system action htick
    have hback := currentRunning_of_step hstep h.toShape
    have hshape : system.scheduler.Shape (system.perform action).table :=
      (h.cards (hstep.fresh h.fresh) fun i _ hrunning => hstep.running i hrunning).toShape
    rw [Owed, hsame]
    rcases howed with ⟨hcurrent, hrunning, hzero⟩ | ⟨hidle, hroom⟩
    · cases hafter : system.scheduler.currentRunning (system.perform action).table with
      | true => exact .inl ⟨hcurrent, rfl, hzero⟩
      | false =>
        have hle := debt_le hshape htask.lt fun _ => hafter
        exact .inr ⟨fun _ => rfl, by omega⟩
    · have hmono := @debt_mono system.scheduler system.table (system.perform action).table index
        hback
      refine .inr ⟨fun hcurrent => ?_, by omega⟩
      cases hafter : system.scheduler.currentRunning (system.perform action).table with
      | true =>
        rw [hidle hcurrent] at hback
        exact absurd (hback hafter) (by simp)
      | false => rfl
  cases action with
  | tick => exact absurd rfl htick
  | configure policy timeSlice => exact absurd rfl (hconfigure policy timeSlice)
  | addProcess newPid =>
    rcases @addProcess_cases system.scheduler system.table newPid with hadd | ⟨-, hroom, -, hadd⟩
    · have hsame : (system.perform (.addProcess newPid)).scheduler = system.scheduler := by
        simp only [perform, hadd]
      exact hquiet hsame
    have hscheduler : (system.perform (.addProcess newPid)).scheduler =
        system.scheduler.withTask { used := true, pid := newPid } := by
      simp only [perform, hadd]
    have htable : (system.perform (.addProcess newPid)).table = system.table := rfl
    have hrunning := withTask_currentRunning h.toShape { used := true, pid := newPid } hroom
    have hdebt := debt_append h.toShape { used := true, pid := newPid } hroom htask.lt
    have hpos := htask.lt
    have hmul : system.scheduler.summary.timeSlice.toNat * system.scheduler.taskCount =
        system.scheduler.summary.timeSlice.toNat * (system.scheduler.taskCount - 1) +
          system.scheduler.summary.timeSlice.toNat := by
      rw [← Nat.mul_succ]
      congr 1
      omega
    rw [Owed, hscheduler, htable, hrunning, withTask_taskCount, Nat.add_sub_cancel]
    rcases howed with hruns | ⟨hidle, hroom'⟩
    · exact .inl hruns
    refine .inr ⟨hidle, ?_⟩
    show passed + _ ≤ system.scheduler.summary.timeSlice.toNat * system.scheduler.taskCount
    omega
  | process call => exact hquiet rfl
  | semaphoreWait k pid => exact hquiet rfl
  | semaphorePost k => exact hquiet rfl
  | mutexLock k pid => exact hquiet rfl
  | mutexUnlock k pid => exact hquiet rfl

theorem owed_run (hserved : system.Served window)
    (hrr : system.scheduler.summary.policy = .rr) (htask : system.TaskAt index pid)
    (hrunnable : KeepsRunnable pid system window) (hnot : ¬GivenCpu pid system window)
    (howed : system.Owed index passed) :
    (system.run window).Owed index (passed + ticks window) ∧ (system.run window).TaskAt index pid ∧
      (system.run window).scheduler.summary.timeSlice = system.scheduler.summary.timeSlice := by
  induction window generalizing system passed with
  | nil => exact ⟨howed, htask, rfl⟩
  | cons action rest ih =>
    obtain ⟨hnow, hconfigure, hlater⟩ := hrunnable
    have hwell := perform_wellFormed h hserved.1
    have htask' := perform_taskAt h hserved.1 htask
    obtain ⟨hrr', htime⟩ := perform_policy hrr h hserved.1 hconfigure
    by_cases htick : action = .tick
    · subst htick
      have hnotNow : (system.perform .tick).scheduler.summary.currentPid ≠ pid :=
        fun hgiven => hnot (.inl ⟨rfl, hgiven⟩)
      have howed' := owed_tick h hserved.1 hrr htask hnow hnotNow howed
      obtain ⟨hend, htaskEnd, htimeEnd⟩ :=
        ih hwell hserved.2 hrr' htask' hlater (fun hgiven => hnot (.inr hgiven)) howed'
      refine ⟨?_, htaskEnd, htimeEnd.trans htime⟩
      rw [show ticks (.tick :: rest) = ticks rest + 1 from rfl, show
        passed + (ticks rest + 1) = passed + 1 + ticks rest by omega]
      exact hend
    · have howed' := owed_other h htick hconfigure htask howed
      obtain ⟨hend, htaskEnd, htimeEnd⟩ :=
        ih hwell hserved.2 hrr' htask' hlater (fun hgiven => hnot (.inr hgiven)) howed'
      refine ⟨?_, htaskEnd, htimeEnd.trans htime⟩
      rw [ticks_cons_of_ne htick]
      exact hend

theorem givenCpu_of_ticks {pid : ℕ} (hserved : system.Served window)
    (hrr : system.scheduler.summary.policy = .rr)
    (hscheduled : pid ∈ system.scheduler.tasks.map (·.pid))
    (hrunnable : KeepsRunnable pid system window)
    (hticks : system.scheduler.summary.timeSlice.toNat *
      (system.run window).scheduler.taskCount ≤ ticks window) :
    GivenCpu pid system window := by
  by_contra hnot
  obtain ⟨index, hindex⟩ := List.getElem?_of_mem hscheduled
  have htask : system.TaskAt index pid := by
    rw [TaskAt, ← List.getElem?_map]
    exact hindex
  have howed : system.Owed index 0 := by
    by_cases hruns : system.scheduler.currentIndex = index ∧
        system.scheduler.currentRunning system.table
    · exact .inl ⟨hruns.1, hruns.2, rfl⟩
    have hidle : system.scheduler.currentIndex = index →
        system.scheduler.currentRunning system.table = false :=
      fun hcurrent => Bool.eq_false_iff.2 fun hrunning => hruns ⟨hcurrent, hrunning⟩
    have hle := debt_le h.toShape htask.lt hidle
    exact .inr ⟨hidle, by omega⟩
  obtain ⟨hend, htaskEnd, htime⟩ := owed_run h hserved hrr htask hrunnable hnot howed
  have hpos := slice_pos h.toShape hrr
  have hcount := htaskEnd.lt
  have hmul : system.scheduler.summary.timeSlice.toNat * (system.run window).scheduler.taskCount =
      system.scheduler.summary.timeSlice.toNat * ((system.run window).scheduler.taskCount - 1) +
        system.scheduler.summary.timeSlice.toNat := by
    rw [← mul_succ]
    congr 1
    omega
  rcases hend with ⟨-, -, hzero⟩ | ⟨-, hroom⟩
  · omega
  rw [htime] at hroom
  omega

end

/-- After a tick at most one scheduled process runs and it is the current one, and a tick
that was counted idle leaves no scheduled process ready or running. -/
def TickSound (system : CourseSystem) : Prop :=
  (∀ task ∈ (system.perform .tick).scheduler.tasks, ∀ i,
    (system.perform .tick).table.find task.pid = some i →
    ((system.perform .tick).table.cards i).state = .running →
    (system.perform .tick).scheduler.summary.currentPid = task.pid ∧
      ((system.perform .tick).scheduler.tasks[(system.perform .tick).scheduler.currentIndex]?).map
        (·.pid) = some task.pid) ∧
  ((system.perform .tick).scheduler.summary.idleTicks ≠ system.scheduler.summary.idleTicks →
    ∀ task ∈ (system.perform .tick).scheduler.tasks, ∀ i,
      (system.perform .tick).table.find task.pid = some i →
      ((system.perform .tick).table.cards i).state ≠ .ready ∧
        ((system.perform .tick).table.cards i).state ≠ .running)

/-- No process is stranded in a run from the start: every tick is sound, every state counts
its ticks, and a window in which a scheduled process stays runnable under round robin, with
a slice for each task, gives it the CPU. -/
def NeverStrands (values : ℕ → BitVec 32) (actions : List CourseAction) : Prop :=
  (∀ before after, actions = before ++ .tick :: after → ((start values).run before).TickSound) ∧
  (∀ before after, actions = before ++ after →
    ((start values).run before).scheduler.summary.ticks =
      (((start values).run before).scheduler.summary.idleTicks +
        (((start values).run before).scheduler.tasks.map (·.runTicks)).sum) % 2 ^ 32) ∧
  ∀ before window after pid, actions = before ++ (window ++ after) →
    ((start values).run before).scheduler.summary.policy = .rr →
    pid ∈ ((start values).run before).scheduler.tasks.map (·.pid) →
    KeepsRunnable pid ((start values).run before) window →
    ((start values).run before).scheduler.summary.timeSlice.toNat *
      (((start values).run before).run window).scheduler.taskCount ≤ ticks window →
    GivenCpu pid ((start values).run before) window

theorem tickSound (h : system.scheduler.WellFormed system.table)
    (hstrands : ¬system.Strands .tick) : system.TickSound := by
  have hcase := perform_tick h hstrands
  have hwell := hcase.wellFormed h
  constructor
  · intro task htask i hfind hrunning
    obtain ⟨-, hslot, hpid⟩ := find_some hfind
    obtain ⟨current, hcurrent, hcurrentPid⟩ := hwell.only i hslot hrunning
    rw [hpid] at hcurrentPid
    refine ⟨?_, ?_⟩
    · rw [hwell.currentPid, hcurrent, ← hcurrentPid]
      rfl
    rw [hcurrent, ← hcurrentPid]
    rfl
  · have hidle : ∀ {scheduler' : CourseOnlineScheduler} {table' : CourseProcessTable},
        system.scheduler.TickCase system.table scheduler' table' →
        scheduler'.summary.idleTicks ≠ system.scheduler.summary.idleTicks →
        ∀ task ∈ scheduler'.tasks, ∀ i, table'.find task.pid = some i →
          (table'.cards i).state ≠ .ready ∧ (table'.cards i).state ≠ .running := by
      intro scheduler' table' hcase hcounted task htask i hfind
      cases hcase with
      | kept _ _ => exact absurd rfl hcounted
      | switched hselected _ => exact absurd hselected.counts.idleTicks hcounted
      | idle hcurrent hnone =>
        obtain ⟨index, hindex⟩ := List.getElem?_of_mem htask
        have hlt : index < system.scheduler.taskCount := (List.getElem?_eq_some_iff.1 hindex).1
        have hslot := (find_some hfind).2.1
        refine ⟨fun hready => ?_, h.none_running hcurrent i hslot⟩
        have hrunnable : system.scheduler.processRunnable system.table index :=
          processRunnable_of hindex (h.used task htask) h.bound hfind hready
        rw [hnone index hlt] at hrunnable
        cases hrunnable
    exact hidle hcase

theorem Served.split {before after : List CourseAction} (h : system.Served (before ++ after)) :
    system.Served before ∧ (system.run before).Served after := by
  induction before generalizing system with
  | nil => exact ⟨trivial, h⟩
  | cons action rest ih =>
    obtain ⟨hrest, hafter⟩ := ih h.2
    exact ⟨⟨h.1, hrest⟩, hafter⟩

/-- In every run without a policy switch under a running process and without a lone expiry
of a slice, no process is stranded. -/
theorem neverStrands_of_served (values : ℕ → BitVec 32) (actions : List CourseAction)
    (hserved : (start values).Served actions) : NeverStrands values actions := by
  refine ⟨?_, ?_, ?_⟩
  · intro before after hsplit
    rw [hsplit] at hserved
    obtain ⟨hbefore, hafter⟩ := hserved.split
    exact tickSound (run_wellFormed (start_wellFormed values) hbefore) hafter.1
  · intro before after hsplit
    rw [hsplit] at hserved
    exact (run_wellFormed (start_wellFormed values) hserved.split.1).counted
  · intro before window after pid hsplit hrr hscheduled hrunnable hticks
    rw [hsplit] at hserved
    obtain ⟨hbefore, hwindow⟩ := hserved.split
    exact givenCpu_of_ticks (run_wellFormed (start_wellFormed values) hbefore) hwindow.split.1 hrr
      hscheduled hrunnable hticks

/-- Two processes take turns under round robin with a slice of one tick. -/
def takeTurns : List CourseAction :=
  [.process (.spawn 0 []), .process (.spawn 0 []), .addProcess 1, .addProcess 2, .configure .rr 1,
    .tick, .tick, .tick]

instance (scheduler : CourseOnlineScheduler) (table : CourseProcessTable) :
    Decidable (scheduler.LoneExpiry table) :=
  inferInstanceAs (Decidable (_ ∧ _ ∧ _ ∧ _))

instance decidableStrands (system : CourseSystem) :
    (action : CourseAction) → Decidable (system.Strands action)
  | .configure _ _ => inferInstanceAs (Decidable (_ ∧ _))
  | .tick => inferInstanceAs (Decidable (system.scheduler.LoneExpiry system.table))
  | .addProcess _ => inferInstanceAs (Decidable False)
  | .process _ => inferInstanceAs (Decidable False)
  | .semaphoreWait _ _ => inferInstanceAs (Decidable False)
  | .semaphorePost _ => inferInstanceAs (Decidable False)
  | .mutexLock _ _ => inferInstanceAs (Decidable False)
  | .mutexUnlock _ _ => inferInstanceAs (Decidable False)

instance decidableServed (system : CourseSystem) :
    (actions : List CourseAction) → Decidable (system.Served actions)
  | [] => inferInstanceAs (Decidable True)
  | action :: rest =>
    have := decidableServed (system.perform action) rest
    inferInstanceAs (Decidable (_ ∧ _))

theorem takeTurns_neverStrands :
    (start fun _ => 0).Served takeTurns ∧ NeverStrands (fun _ => 0) takeTurns :=
  ⟨by decide +kernel, neverStrands_of_served (fun _ => 0) takeTurns (by decide +kernel)⟩

/-- A lone process whose slice is over: the second tick finds it running, picks no other and
counts itself idle, while the process stays in the running state. -/
theorem loneExpiry_strands :
    ¬∀ (values : ℕ → BitVec 32) (actions : List CourseAction), NeverStrands values actions := by
  intro h
  have hsound := (h (fun _ => 0)
    [.process (.spawn 0 []), .addProcess 1, .configure .rr 1, .tick, .tick]).1
    [.process (.spawn 0 []), .addProcess 1, .configure .rr 1, .tick] [] rfl
  have hscheduled : ∃ task ∈ (((start fun _ => 0).run [.process (.spawn 0 []), .addProcess 1,
      .configure .rr 1, .tick]).perform .tick).scheduler.tasks, task.pid = 1 := by decide +kernel
  obtain ⟨task, htask, hpid⟩ := hscheduled
  have hidle := hsound.2 (by decide +kernel) task htask 0 (by rw [hpid]; decide +kernel)
  exact absurd (by decide +kernel) hidle.2

end CourseSystem
end VisualCpu
