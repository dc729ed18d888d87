import VisualCpu.Kernel.SchedulerFacts
import VisualCpu.Library.RoundRobin

/-!
# One tick of the online scheduler

`WellFormed` is what the scheduler keeps of its tasks, its current index and its counters:
among others, that no process but the current one is running. `tick_cases` says all that a
tick can do in such a state: the current process goes on, another one is selected, or
nothing is runnable and the tick is idle.
-/

namespace VisualCpu

open RoundRobin List
namespace CourseOnlineScheduler

open CourseProcessTable

/-- What the scheduler keeps, together with the process table, but for the tick counts. -/
structure Shape (scheduler : CourseOnlineScheduler) (table : CourseProcessTable) : Prop where
  fresh : table.PidsFresh
  bound : scheduler.bound
  used : ∀ task ∈ scheduler.tasks, task.used
  pids : (scheduler.tasks.map (·.pid)).Nodup
  positive : ∀ task ∈ scheduler.tasks, task.pid ≠ 0
  small : scheduler.tasks.length ≤ courseSchedulerMaxTasks
  current : scheduler.currentIndex < scheduler.tasks.length ∨
    scheduler.currentIndex = courseOnlineSchedulerNoIndex
  currentPid : scheduler.summary.currentPid =
    ((scheduler.tasks[scheduler.currentIndex]?).map (·.pid)).getD 0
  policy : scheduler.summary.policy ≠ .count
  slice : scheduler.summary.policy ≠ .fcfs → scheduler.summary.timeSlice ≠ 0
  sliceUsed : scheduler.summary.policy = .rr →
    scheduler.sliceUsed ≤ scheduler.summary.timeSlice.toNat
  only : ∀ i, (table.cards i).used → (table.cards i).state = .running →
    ∃ task, scheduler.tasks[scheduler.currentIndex]? = some task ∧ task.pid = (table.cards i).pid

/-- Every tick is idle or has run one task. -/
structure WellFormed (scheduler : CourseOnlineScheduler) (table : CourseProcessTable) : Prop
    extends scheduler.Shape table where
  counted : scheduler.summary.ticks =
    (scheduler.summary.idleTicks + (scheduler.tasks.map (·.runTicks)).sum) % 2 ^ 32

/-- Round robin takes the CPU from the running process at the end of its slice although no
other process is ready. -/
def LoneExpiry (scheduler : CourseOnlineScheduler) (table : CourseProcessTable) : Prop :=
  scheduler.summary.policy = .rr ∧ scheduler.currentRunning table ∧
    scheduler.summary.timeSlice.toNat ≤ scheduler.sliceUsed ∧
    ∀ index < scheduler.taskCount, scheduler.processRunnable table index = false

variable {scheduler scheduler' : CourseOnlineScheduler} {table table' : CourseProcessTable}

variable {task : CourseOnlineSchedulerTask} {index : ℕ}

theorem indexValid_of_getElem?
    (h : scheduler.tasks[index]? = some task) (hused : task.used) :
    scheduler.indexValid index := by
  simp [indexValid, h, hused]

theorem processAt_eq (h : scheduler.tasks[index]? = some task) (hused : task.used)
    (hbound : scheduler.bound) :
    scheduler.processAt table index = table.find task.pid := by
  simp [processAt, h, hused, hbound]

theorem getElem?_noIndex (hsmall : scheduler.tasks.length ≤ courseSchedulerMaxTasks) :
    scheduler.tasks[courseOnlineSchedulerNoIndex]? = none :=
  getElem?_eq_none hsmall

theorem indexValid_noIndex (hsmall : scheduler.tasks.length ≤ courseSchedulerMaxTasks) :
    scheduler.indexValid courseOnlineSchedulerNoIndex = false := by
  simp [indexValid, getElem?_noIndex hsmall]

theorem currentRunning_some (h : scheduler.currentRunning table) :
    ∃ task i, scheduler.tasks[scheduler.currentIndex]? = some task ∧ task.used ∧
      table.find task.pid = some i ∧ (table.cards i).state = .running := by
  simp only [currentRunning, Bool.and_eq_true, Option.any_eq_true, beq_iff_eq] at h
  obtain ⟨-, i, hat, hstate⟩ := h
  obtain ⟨task, htask, hused, -, hfind⟩ := processAt_some hat
  exact ⟨task, i, htask, hused, hfind, hstate⟩

variable {i : ProcessSlot} {state : CourseProcessState}

theorem currentRunning_of
    (htask : scheduler.tasks[scheduler.currentIndex]? = some task) (hused : task.used)
    (hbound : scheduler.bound) (hfind : table.find task.pid = some i)
    (hstate : (table.cards i).state = .running) : scheduler.currentRunning table := by
  have hat : scheduler.processAt table scheduler.currentIndex = some i := by
    rw [processAt_eq htask hused hbound, hfind]
  have hstate' : (table.processes i).state = .running := hstate
  simp [currentRunning, indexValid_of_getElem? htask hused, hat, hstate']

theorem processRunnable_of (htask : scheduler.tasks[index]? = some task) (hused : task.used)
    (hbound : scheduler.bound) (hfind : table.find task.pid = some i)
    (hstate : (table.cards i).state = .ready) : scheduler.processRunnable table index := by
  have hat : scheduler.processAt table index = some i := by
    rw [processAt_eq htask hused hbound, hfind]
  have hstate' : (table.processes i).state = .ready := hstate
  have hused' : (table.processes i).used := (find_some hfind).2.1
  simp [processRunnable, hat, hstate', hused']

theorem processCfsCandidate_of_runnable (h : scheduler.processRunnable table index) :
    scheduler.processCfsCandidate table index := by
  simp only [processRunnable, processCfsCandidate, Option.any_eq_true, Bool.and_eq_true,
    Bool.or_eq_true, beq_iff_eq] at h ⊢
  obtain ⟨i, hat, hused, hstate⟩ := h
  exact ⟨i, hat, hused, .inl hstate⟩

theorem Shape.none_running (h : scheduler.Shape table)
    (hcurrent : scheduler.currentRunning table = false) (i : ProcessSlot)
    (hused : (table.cards i).used) : (table.cards i).state ≠ .running := by
  intro hstate
  obtain ⟨task, htask, hpid⟩ := h.only i hused hstate
  have hfind : table.find task.pid = some i := by
    rw [hpid]
    exact h.fresh.find_eq hused
  have hrunning := currentRunning_of htask (h.used task (mem_of_getElem? htask)) h.bound hfind
    hstate
  rw [hcurrent] at hrunning
  cases hrunning

/-- A pick is an index that passes the test, or none does. -/
def Picked (scheduler : CourseOnlineScheduler) (test : ℕ → Bool) (pick : ℕ) : Prop :=
  pick < scheduler.taskCount ∧ test pick ∨
    pick = courseOnlineSchedulerNoIndex ∧ ∀ index < scheduler.taskCount, test index = false

theorem pickFcfs_picked : scheduler.Picked (scheduler.processRunnable table)
    (scheduler.pickFcfs table) := by
  rw [pickFcfs]
  cases hfind : (range scheduler.taskCount).find? (scheduler.processRunnable table) with
  | none =>
    rw [find?_range_eq_none] at hfind
    exact .inr ⟨rfl, fun index hindex => by simpa using hfind index hindex⟩
  | some index =>
    rw [find?_range_eq_some] at hfind
    exact .inl ⟨mem_range.1 hfind.2.1, hfind.1⟩

/-- The start of the search of `online_pick_rr`. -/
def rrStart (taskCount previousIndex : ℕ) : ℕ :=
  if previousIndex = courseOnlineSchedulerNoIndex then 0 else (previousIndex + 1) % taskCount

theorem rrOrder_eq (taskCount previousIndex : ℕ) : rrOrder taskCount previousIndex =
      circle taskCount (rrStart taskCount previousIndex) := rfl

theorem rrStart_lt {taskCount previousIndex : ℕ} (h : 0 < taskCount) :
    rrStart taskCount previousIndex < taskCount := by
  rw [rrStart]
  split
  · exact h
  · exact Nat.mod_lt _ h

theorem pickRr_picked (previousIndex : ℕ) : scheduler.Picked (scheduler.processRunnable table)
    (scheduler.pickRr table previousIndex) := by
  rw [pickRr]
  split
  · rename_i hzero
    exact .inr ⟨rfl, fun index hindex => by omega⟩
  rename_i hne
  have hstart := @rrStart_lt scheduler.taskCount previousIndex (by omega)
  rw [rrOrder_eq]
  cases hfind : (circle scheduler.taskCount
      (rrStart scheduler.taskCount previousIndex)).find? (scheduler.processRunnable table) with
  | none => exact .inr ⟨rfl, (find_circle_none hstart).1 hfind⟩
  | some index =>
    exact .inl ⟨(mem_circle hstart).1 (mem_of_find?_eq_some hfind), find?_some hfind⟩

theorem pickRr_nearer {previousIndex index : ℕ} (hindex : index < scheduler.taskCount)
    (hready : scheduler.processRunnable table index) :
    scheduler.pickRr table previousIndex = index ∨
      gap scheduler.taskCount
          ((scheduler.pickRr table previousIndex + 1) % scheduler.taskCount) index <
        gap scheduler.taskCount (rrStart scheduler.taskCount previousIndex) index := by
  have hstart := @rrStart_lt scheduler.taskCount previousIndex (by omega)
  obtain ⟨found, hfind, -, -, hnear⟩ := find_circle hstart hindex hready
  have hpick : scheduler.pickRr table previousIndex = found := by
    rw [pickRr, if_neg (by omega), rrOrder_eq, hfind, Option.getD_some]
  rw [hpick]
  exact hnear

theorem considerCfs_picked (hsmall : scheduler.tasks.length ≤ courseSchedulerMaxTasks) (n : ℕ)
    (hn : n ≤ scheduler.taskCount) :
    let best := (range n).foldl (scheduler.considerCfs table) courseOnlineSchedulerNoIndex
    best < n ∧ scheduler.processCfsCandidate table best ∨
      best = courseOnlineSchedulerNoIndex ∧
        ∀ index < n, scheduler.processCfsCandidate table index = false := by
  induction n with
  | zero => exact .inr ⟨rfl, fun index hindex => absurd hindex (by omega)⟩
  | succ n ih =>
    rw [range_succ, foldl_append, foldl_cons, foldl_nil]
    have hprev := ih (by omega)
    set best := (range n).foldl (scheduler.considerCfs table) courseOnlineSchedulerNoIndex
    simp only [considerCfs]
    cases hcandidate : scheduler.processCfsCandidate table n with
    | false =>
      simp only [Bool.not_false, ↓reduceIte]
      rcases hprev with ⟨hlt, hbest⟩ | ⟨hbest, hnone⟩
      · exact .inl ⟨by omega, hbest⟩
      refine .inr ⟨hbest, fun index hindex => ?_⟩
      rcases Nat.lt_succ_iff_lt_or_eq.1 hindex with hlt | rfl
      · exact hnone index hlt
      · exact hcandidate
    | true =>
      simp only [Bool.not_true, Bool.false_eq_true, ↓reduceIte]
      rcases hprev with ⟨hlt, hbest⟩ | ⟨hbest, -⟩
      · split
        · split
          · exact .inl ⟨by omega, hcandidate⟩
          · exact .inl ⟨by omega, hbest⟩
        · exact .inl ⟨by omega, hcandidate⟩
      · rw [hbest, getElem?_noIndex hsmall]
        refine .inl ?_
        cases scheduler.tasks[n]? with
        | none => exact ⟨Nat.lt_succ_self n, hcandidate⟩
        | some task => exact ⟨Nat.lt_succ_self n, hcandidate⟩

theorem pickCfsLite_picked (hsmall : scheduler.tasks.length ≤ courseSchedulerMaxTasks) :
    scheduler.Picked (scheduler.processCfsCandidate table) (scheduler.pickCfsLite table) :=
  considerCfs_picked hsmall scheduler.taskCount (le_refl _)

@[simp] theorem recordContextSwitch_tasks (pid : ℕ) :
    (scheduler.recordContextSwitch pid).tasks = scheduler.tasks := by
  rw [recordContextSwitch]
  split <;> rfl

@[simp] theorem recordContextSwitch_bound (pid : ℕ) :
    (scheduler.recordContextSwitch pid).bound = scheduler.bound := by
  rw [recordContextSwitch]
  split <;> rfl

/-- What a switch of context leaves of the summary. -/
structure SameCounts (summary summary' : CourseOnlineSchedulerSummary) : Prop where
  policy : summary'.policy = summary.policy
  timeSlice : summary'.timeSlice = summary.timeSlice
  ticks : summary'.ticks = summary.ticks
  idleTicks : summary'.idleTicks = summary.idleTicks

theorem recordContextSwitch_sameCounts (pid : ℕ) :
    SameCounts scheduler.summary (scheduler.recordContextSwitch pid).summary := by
  rw [recordContextSwitch]
  split
  · exact ⟨rfl, rfl, rfl, rfl⟩
  · exact ⟨rfl, rfl, rfl, rfl⟩

/-- The process at an index has been given the CPU: it is the only one that runs. -/
structure Selected (scheduler : CourseOnlineScheduler) (index : ℕ)
    (scheduler' : CourseOnlineScheduler) (table' : CourseProcessTable) : Prop where
  tasks : scheduler'.tasks = scheduler.tasks
  bound : scheduler'.bound = scheduler.bound
  counts : SameCounts scheduler.summary scheduler'.summary
  currentIndex : scheduler'.currentIndex = index
  sliceUsed : scheduler'.sliceUsed = 0
  fresh : table'.PidsFresh
  runs : ∃ task i, scheduler.tasks[index]? = some task ∧ task.used ∧
    scheduler'.summary.currentPid = task.pid ∧ table'.find task.pid = some i ∧
    (table'.cards i).state = .running ∧
    ∀ j, (table'.cards j).used → (table'.cards j).state = .running → j = i

theorem Selected.congr {base : CourseOnlineScheduler}
    (h : base.Selected index scheduler' table') (htasks : base.tasks = scheduler.tasks)
    (hbound : base.bound = scheduler.bound) (hcounts : SameCounts scheduler.summary base.summary) :
    scheduler.Selected index scheduler' table' where
  tasks := h.tasks.trans htasks
  bound := h.bound.trans hbound
  counts := ⟨h.counts.policy.trans hcounts.policy, h.counts.timeSlice.trans hcounts.timeSlice,
    h.counts.ticks.trans hcounts.ticks, h.counts.idleTicks.trans hcounts.idleTicks⟩
  currentIndex := h.currentIndex
  sliceUsed := h.sliceUsed
  fresh := h.fresh
  runs := by
    rw [← htasks]
    exact h.runs

theorem setProcess_fresh (hfresh : table.PidsFresh) :
    (table.setProcess i { table.processes i with state := state }).PidsFresh :=
  hfresh.write (setProcess_cards table i { table.processes i with state := state }) rfl

theorem find_setProcess_state (pid : ℕ) :
    (table.setProcess i { table.processes i with state := state }).find pid = table.find pid := by
  have hsame : ∀ j, ((table.setProcess i { table.processes i with state := state }).processes
      j).used = (table.processes j).used ∧
      ((table.setProcess i { table.processes i with state := state }).processes j).pid =
        (table.processes j).pid := by
    intro j
    by_cases hj : j = i
    · subst hj
      simp [setProcess]
    · simp [setProcess, hj]
  simp only [CourseProcessTable.find, hsame]

theorem setProcess_state_cards (i j : ProcessSlot) (state : CourseProcessState) :
    (table.setProcess i { table.processes i with state := state }).cards j =
      if j = i then { table.cards i with state := state } else table.cards j := by
  rw [setProcess_cards, Function.update_apply]
  rfl

theorem select_selected (hfresh : table.PidsFresh)
    (hbound : scheduler.bound) (hused : ∀ task ∈ scheduler.tasks, task.used)
    (honly : ∀ i, (table.cards i).used → (table.cards i).state = .running →
      ∃ task, scheduler.tasks[scheduler.currentIndex]? = some task ∧ task.pid = (table.cards i).pid)
    (hcandidate : scheduler.processCfsCandidate table index) :
    ∃ scheduler' table', scheduler.select table index = (scheduler', table', true) ∧
      scheduler.Selected index scheduler' table' := by
  obtain ⟨i, hat, -⟩ := processCfsCandidate_some hcandidate
  obtain ⟨task, htask, htaskUsed, -, hfind⟩ := processAt_some hat
  rcases @select_cases scheduler table index with ⟨hvalid, -⟩ | ⟨hno, -⟩ |
    ⟨i', task', htask', hfind', -, hselect⟩
  · rw [indexValid_of_getElem? htask htaskUsed] at hvalid
    cases hvalid
  · rw [hcandidate] at hno
    cases hno
  rw [htask] at htask'
  cases htask'
  rw [hfind] at hfind'
  cases hfind'
  set started := table.setProcess i { table.processes i with state := .running } with hstarted
  have hstartedFresh : started.PidsFresh := setProcess_fresh hfresh
  have hstartedFind : ∀ pid, started.find pid = table.find pid := find_setProcess_state
  have hstartedCards := fun j => @setProcess_state_cards table i j .running
  have hcounts := @recordContextSwitch_sameCounts scheduler task.pid
  have hpid : (started.cards i).pid = task.pid := by
    rw [hstartedCards, if_pos rfl]
    exact (find_some hfind).2.2
  -- a process that ran before is the one at the current index
  have hrunner : ∀ j, (started.cards j).used → (started.cards j).state = .running →
      j ≠ i → scheduler.processAt started scheduler.currentIndex = some j := by
    intro j hj hrunning hne
    rw [hstartedCards, if_neg hne] at hj hrunning
    obtain ⟨previous, hprevious, hpreviousPid⟩ := honly j hj hrunning
    rw [processAt_eq hprevious (hused previous (mem_of_getElem? hprevious)) hbound,
      hstartedFind, hpreviousPid]
    exact hfresh.find_eq hj
  refine ⟨_, _, hselect, ?_⟩
  rcases @demotePrevious_cases scheduler started task.pid with ⟨hkeep, hother⟩ |
    ⟨c, hatc, hpidc, hrunningc, hdemote⟩
  · rw [hkeep]
    refine ⟨by simp, by simp, ⟨hcounts.policy, hcounts.timeSlice, hcounts.ticks,
      hcounts.idleTicks⟩, rfl, rfl, hstartedFresh, task, i, htask, htaskUsed, rfl, ?_, ?_, ?_⟩
    · rw [hstartedFind, hfind]
    · rw [hstartedCards, if_pos rfl]
    intro j hj hrunning
    by_contra hne
    have hpidj := hother j (hrunner j hj hrunning hne) hrunning
    have hi : (started.cards i).used := by
      rw [hstartedCards, if_pos rfl]
      exact (find_some hfind).2.1
    exact hne (hstartedFresh.unique j i hj hi (hpidj.trans hpid.symm))
  · rw [hdemote]
    have hdemotedCards := fun j => @setProcess_state_cards started c j .ready
    have hic : i ≠ c := by
      rintro rfl
      exact hpidc hpid
    refine ⟨by simp, by simp, ⟨hcounts.policy, hcounts.timeSlice, hcounts.ticks,
      hcounts.idleTicks⟩, rfl, rfl, setProcess_fresh hstartedFresh, task, i, htask, htaskUsed,
      rfl, ?_, ?_, ?_⟩
    · rw [find_setProcess_state, hstartedFind, hfind]
    · rw [hdemotedCards, if_neg hic, hstartedCards, if_pos rfl]
    intro j hj hrunning
    rw [hdemotedCards] at hj hrunning
    by_cases hjc : j = c
    · rw [if_pos hjc] at hrunning
      cases hrunning
    rw [if_neg hjc] at hj hrunning
    by_contra hne
    have hatj := hrunner j hj hrunning hne
    rw [hatc] at hatj
    exact hjc (Option.some.inj hatj).symm

/-- What a selection needs of the scheduler: as `WellFormed`, without the counters. -/
structure Selectable (scheduler : CourseOnlineScheduler) (table : CourseProcessTable) : Prop where
  fresh : table.PidsFresh
  bound : scheduler.bound
  used : ∀ task ∈ scheduler.tasks, task.used
  small : scheduler.tasks.length ≤ courseSchedulerMaxTasks
  only : ∀ i, (table.cards i).used → (table.cards i).state = .running →
    ∃ task, scheduler.tasks[scheduler.currentIndex]? = some task ∧ task.pid = (table.cards i).pid

theorem select_picked (h : scheduler.Selectable table) {test : ℕ → Bool} {pick : ℕ}
    (hpick : scheduler.Picked test pick)
    (htest : ∀ index, test index → scheduler.processCfsCandidate table index) :
    (∃ scheduler' table', scheduler.select table pick = (scheduler', table', true) ∧
      scheduler.Selected pick scheduler' table' ∧ pick < scheduler.taskCount) ∨
    (scheduler.select table pick = (scheduler.withoutCurrent, table, true) ∧
      ∀ index < scheduler.taskCount, test index = false) := by
  rcases hpick with ⟨hlt, hpass⟩ | ⟨rfl, hnone⟩
  · obtain ⟨scheduler', table', hselect, hselected⟩ :=
      select_selected h.fresh h.bound h.used h.only (htest pick hpass)
    exact .inl ⟨scheduler', table', hselect, hselected, hlt⟩
  · refine .inr ⟨?_, hnone⟩
    simp [select, indexValid_noIndex h.small]

theorem selectNext_cases (h : scheduler.Selectable table)
    (hpolicy : scheduler.summary.policy ≠ .count) (previousIndex : ℕ) :
    (∃ index scheduler' table',
      scheduler.selectNext table previousIndex = (scheduler', table', true) ∧
      scheduler.Selected index scheduler' table' ∧
      (scheduler.summary.policy = .rr → index = scheduler.pickRr table previousIndex ∧
        index < scheduler.taskCount)) ∨
    (scheduler.selectNext table previousIndex = (scheduler.withoutCurrent, table, true) ∧
      ∀ index < scheduler.taskCount, scheduler.processRunnable table index = false) := by
  simp only [selectNext]
  cases hp : scheduler.summary.policy with
  | fcfs =>
    rcases select_picked h pickFcfs_picked fun _ => processCfsCandidate_of_runnable with
      ⟨scheduler', table', hselect, hselected, -⟩ | hidle
    · exact .inl ⟨_, scheduler', table', hselect, hselected, fun hrr => by cases hrr⟩
    · exact .inr hidle
  | rr =>
    rcases select_picked h (pickRr_picked previousIndex)
        fun _ => processCfsCandidate_of_runnable with
      ⟨scheduler', table', hselect, hselected, hlt⟩ | hidle
    · exact .inl ⟨_, scheduler', table', hselect, hselected, fun _ => ⟨rfl, hlt⟩⟩
    · exact .inr hidle
  | cfsLite =>
    rcases select_picked h (pickCfsLite_picked h.small) fun _ => id with
      ⟨scheduler', table', hselect, hselected, -⟩ | ⟨hselect, hnone⟩
    · exact .inl ⟨_, scheduler', table', hselect, hselected, fun hrr => by cases hrr⟩
    refine .inr ⟨hselect, fun index hindex => ?_⟩
    cases hready : scheduler.processRunnable table index with
    | false => rfl
    | true =>
      have hcandidate := processCfsCandidate_of_runnable hready
      rw [hnone index hindex] at hcandidate
      cases hcandidate
  | count => exact absurd hp hpolicy

def countTick (scheduler : CourseOnlineScheduler) : CourseOnlineScheduler :=
  { scheduler with summary := { scheduler.summary with ticks := succ32 scheduler.summary.ticks } }

def idleTick (scheduler : CourseOnlineScheduler) : CourseOnlineScheduler :=
  { scheduler.withoutCurrent with summary := { scheduler.withoutCurrent.summary with
      idleTicks := succ32 scheduler.summary.idleTicks } }

/-- All that a tick can do. -/
inductive TickCase (scheduler : CourseOnlineScheduler) (table : CourseProcessTable) :
    CourseOnlineScheduler → CourseProcessTable → Prop
  | kept (hrunning : scheduler.currentRunning table)
      (hslice : scheduler.summary.policy = .rr →
        scheduler.sliceUsed < scheduler.summary.timeSlice.toNat) :
      TickCase scheduler table scheduler.countTick.chargeTick table
  | switched {index : ℕ} {prepared : CourseOnlineScheduler} {table' : CourseProcessTable}
      (hselected : scheduler.countTick.Selected index prepared table')
      (hrr : scheduler.summary.policy = .rr →
        index = scheduler.pickRr table scheduler.currentIndex ∧ index < scheduler.taskCount ∧
          (scheduler.currentRunning table →
            scheduler.summary.timeSlice.toNat ≤ scheduler.sliceUsed)) :
      TickCase scheduler table prepared.chargeTick table'
  | idle (hcurrent : scheduler.currentRunning table = false)
      (hnone : ∀ index < scheduler.taskCount, scheduler.processRunnable table index = false) :
      TickCase scheduler table scheduler.countTick.idleTick table

theorem Selected.currentRunning (h : scheduler.Selected index scheduler' table')
    (hbound : scheduler.bound) : scheduler'.currentRunning table' := by
  obtain ⟨task, i, htask, hused, -, hfind, hstate, -⟩ := h.runs
  have htask' : scheduler'.tasks[scheduler'.currentIndex]? = some task := by
    rw [h.tasks, h.currentIndex]
    exact htask
  exact currentRunning_of htask' hused (h.bound.trans hbound) hfind hstate

theorem releaseCurrent_of_not_running (h : scheduler.currentRunning table = false) :
    scheduler.releaseCurrent table = (scheduler.withoutCurrent, table) := by
  obtain ⟨hscheduler, htable⟩ := @releaseCurrent_cases scheduler table
  rcases htable with htable | ⟨-, -, -, -, hrunning, -⟩
  · exact Prod.ext hscheduler htable
  rw [h] at hrunning
  cases hrunning

/-- What `tick` makes of a prepared scheduler. -/
def finishTick : CourseOnlineScheduler × CourseProcessTable × Bool →
    CourseOnlineScheduler × CourseProcessTable × Bool
  | (prepared, table, false) => (prepared, table, false)
  | (prepared, table, true) =>
    if !prepared.currentRunning table then
      ({ prepared with summary := { prepared.summary with
          currentPid := 0
          idleTicks := succ32 prepared.summary.idleTicks } }, table, true)
    else (prepared.chargeTick, table, true)

theorem tick_cases (h : scheduler.WellFormed table) (hlone : ¬scheduler.LoneExpiry table) :
    ∃ scheduler' table', scheduler.tick table = (scheduler', table', true) ∧
      scheduler.TickCase table scheduler' table' := by
  have hguard : ¬(!scheduler.bound ∨ scheduler.summary.policy = .count ∨
      scheduler.summary.policy ≠ .fcfs ∧ scheduler.summary.timeSlice = 0) := by
    rintro (hbound | hcount | ⟨hfcfs, hzero⟩)
    · simp [h.bound] at hbound
    · exact h.policy hcount
    · exact h.slice hfcfs hzero
  have htick : scheduler.tick table = finishTick (scheduler.countTick.prepareCurrent table) := by
    rw [tick, if_neg hguard]
    rfl
  rw [htick]
  unfold finishTick
  have hsame : scheduler.countTick.currentRunning table = scheduler.currentRunning table := rfl
  simp only [prepareCurrent, hsame]
  cases hrunning : scheduler.currentRunning table with
  | false =>
    have hrelease := @releaseCurrent_of_not_running scheduler.countTick table hrunning
    rw [if_pos (by rfl), hrelease]
    have hselectable : scheduler.countTick.withoutCurrent.Selectable table :=
      ⟨h.fresh, h.bound, h.used, h.small, fun i hused hstate =>
        absurd hstate (h.none_running hrunning i hused)⟩
    rcases selectNext_cases hselectable h.policy scheduler.currentIndex with
      ⟨index, scheduler', table', hselect, hselected, hrr⟩ | ⟨hselect, hnone⟩
    · have hruns := hselected.currentRunning h.bound
      have hselected' : scheduler.countTick.Selected index scheduler' table' :=
        hselected.congr rfl rfl ⟨rfl, rfl, rfl, rfl⟩
      refine ⟨_, _, ?_, .switched hselected' fun hpolicy =>
        ⟨(hrr hpolicy).1, (hrr hpolicy).2, fun hcontra => ?_⟩⟩
      · show finishTick (scheduler.countTick.withoutCurrent.selectNext table
          scheduler.currentIndex) = _
        rw [hselect]
        simp only [finishTick, hruns, Bool.not_true, Bool.false_eq_true, ↓reduceIte]
      · rw [hrunning] at hcontra
        cases hcontra
    · refine ⟨_, _, ?_, .idle hrunning hnone⟩
      show finishTick (scheduler.countTick.withoutCurrent.selectNext table
        scheduler.currentIndex) = _
      rw [hselect]
      have hidle : scheduler.countTick.withoutCurrent.withoutCurrent.currentRunning table =
        false := by
        have hvalid := @indexValid_noIndex scheduler.countTick.withoutCurrent.withoutCurrent h.small
        rw [currentRunning]
        exact (Bool.and_eq_false_iff.2 (.inl hvalid))
      simp only [finishTick, hidle, Bool.not_false, ↓reduceIte]
      rfl
  | true =>
    rw [if_neg (by simp)]
    have hkept : scheduler.countTick.currentRunning table := hrunning
    cases hp : scheduler.summary.policy with
    | fcfs =>
      have hp' : scheduler.countTick.summary.policy = .fcfs := hp
      simp only [hp', hkept, Bool.not_true, Bool.false_eq_true, ↓reduceIte]
      exact ⟨_, _, rfl, .kept hrunning fun hrr => by
        rw [hp] at hrr
        cases hrr⟩
    | rr =>
      have hp' : scheduler.countTick.summary.policy = .rr := hp
      by_cases hslice : scheduler.summary.timeSlice.toNat ≤ scheduler.sliceUsed
      · have hexpired : scheduler.countTick.summary.timeSlice.toNat ≤
            scheduler.countTick.sliceUsed := hslice
        set preempted : CourseOnlineScheduler := { scheduler.countTick with
          summary := { scheduler.countTick.summary with
            preemptCount := succ32 scheduler.countTick.summary.preemptCount } }
        have hselectable : preempted.Selectable table :=
          ⟨h.fresh, h.bound, h.used, h.small, h.only⟩
        rcases selectNext_cases hselectable h.policy scheduler.currentIndex with
          ⟨index, scheduler', table', hselect, hselected, hrr⟩ | ⟨-, hnone⟩
        · have hruns := hselected.currentRunning h.bound
          have hselected' : scheduler.countTick.Selected index scheduler' table' :=
            hselected.congr rfl rfl ⟨rfl, rfl, rfl, rfl⟩
          refine ⟨_, _, ?_, .switched hselected' fun hpolicy =>
            ⟨(hrr hpolicy).1, (hrr hpolicy).2, fun _ => hslice⟩⟩
          have hselect' : preempted.selectNext table scheduler.countTick.currentIndex =
              (scheduler', table', true) := hselect
          simp only [hp', hexpired, ↓reduceIte, hselect', hruns, Bool.not_true, Bool.false_eq_true]
        · exact absurd ⟨hp, hrunning, hslice, hnone⟩ hlone
      · have hexpired : ¬scheduler.countTick.summary.timeSlice.toNat ≤
            scheduler.countTick.sliceUsed := hslice
        simp only [hp', hexpired, hkept, Bool.not_true, Bool.false_eq_true, ↓reduceIte]
        exact ⟨_, _, rfl, .kept hrunning fun _ => Nat.lt_of_not_le hslice⟩
    | cfsLite =>
      have hp' : scheduler.countTick.summary.policy = .cfsLite := hp
      simp only [hp']
      rcases @pickCfsLite_picked scheduler.countTick table h.small with
        ⟨hlt, hcandidate⟩ | ⟨hpick, -⟩
      · by_cases hother : scheduler.countTick.pickCfsLite table ≠ courseOnlineSchedulerNoIndex ∧
            scheduler.countTick.pickCfsLite table ≠ scheduler.countTick.currentIndex
        · obtain ⟨scheduler', table', hselect, hselected⟩ :=
            @select_selected scheduler.countTick table _ h.fresh h.bound h.used h.only hcandidate
          have hruns := hselected.currentRunning h.bound
          refine ⟨_, _, ?_, .switched hselected fun hrr => ?_⟩
          · rw [if_pos hother, hselect]
            simp only [hruns, Bool.not_true, Bool.false_eq_true, ↓reduceIte]
          rw [hp] at hrr
          cases hrr
        · rw [if_neg hother]
          simp only [hkept, Bool.not_true, Bool.false_eq_true, ↓reduceIte]
          exact ⟨_, _, rfl, .kept hrunning fun hrr => by
            rw [hp] at hrr
            cases hrr⟩
      · rw [if_neg (fun hother => hother.1 hpick)]
        simp only [hkept, Bool.not_true, Bool.false_eq_true, ↓reduceIte]
        exact ⟨_, _, rfl, .kept hrunning fun hrr => by
          rw [hp] at hrr
          cases hrr⟩
    | count => exact absurd hp h.policy

end CourseOnlineScheduler
end VisualCpu
