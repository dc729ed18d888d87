import Mathlib.Data.List.GetD
import Mathlib.Order.Lattice.Nat
import VisualCpu.Kernel.OfflineScheduler
import VisualCpu.Library.RoundRobin
import VisualCpu.Library.WorkConserving

/-!
# The offline schedules conserve work

Every round of a main loop jumps to the next arrival, when no task that arrived has work
left, or runs one task for a slice. The slices of a run are a work-conserving timeline, so
that the three policies end at the same time; the queue of round robin takes turns.
-/

namespace VisualCpu

open List WorkConserving OfflineState

def timeline (slices : List RunSlice) : List (Option ℕ) :=
  slices.foldl
    (fun line slice =>
      line ++ List.replicate (slice.start - line.length) none ++
        List.replicate slice.length (some slice.index))
    []

theorem timeline_concat (slices : List RunSlice) (slice : RunSlice) : timeline (slices ++ [slice]) =
      timeline slices ++ List.replicate (slice.start - (timeline slices).length) none ++
        List.replicate slice.length (some slice.index) := by
  simp [timeline]

namespace CourseScheduler

variable {scheduler : CourseScheduler} {task : CourseSchedulerTask} {index : ℕ}

@[simp] theorem length_setTask (index : ℕ) (change : CourseSchedulerTask → CourseSchedulerTask) :
    (scheduler.setTask index change).tasks.length = scheduler.tasks.length := by
  simp [setTask]

theorem task_setTask_self (h : index < scheduler.tasks.length)
    (change : CourseSchedulerTask → CourseSchedulerTask) :
    (scheduler.setTask index change).task index = change (scheduler.task index) := by
  simp [setTask, task, List.getD_eq_getElem?_getD, h]

theorem task_setTask_of_ne {index other : ℕ} (h : other ≠ index)
    (change : CourseSchedulerTask → CourseSchedulerTask) :
    (scheduler.setTask index change).task other = scheduler.task other := by
  simp [setTask, task, List.getD_eq_getElem?_getD, h.symm]

@[simp] theorem summary_setTask (index : ℕ) (change : CourseSchedulerTask → CourseSchedulerTask) :
    (scheduler.setTask index change).summary = scheduler.summary := rfl

@[simp] theorem task_recordContextSwitch (cycleCost index : ℕ) :
    (scheduler.recordContextSwitch cycleCost).task index = scheduler.task index := rfl

@[simp] theorem length_recordContextSwitch (cycleCost : ℕ) :
    (scheduler.recordContextSwitch cycleCost).tasks.length = scheduler.tasks.length := rfl

theorem taskReady_iff {now : ℕ} :
    taskReady task now ↔ task.remainingTime ≠ 0 ∧ task.arrivalTime ≤ now := by
  simp [taskReady]

theorem task_mem (h : index < scheduler.tasks.length) : scheduler.task index ∈ scheduler.tasks := by
  rw [task, getD_eq_getElem _ _ h]
  exact getElem_mem h

theorem exists_task (h : task ∈ scheduler.tasks) :
    ∃ index < scheduler.tasks.length, scheduler.task index = task := by
  obtain ⟨index, hindex, rfl⟩ := mem_iff_getElem.1 h
  exact ⟨index, hindex, getD_eq_getElem _ _ hindex⟩

theorem allTasksComplete_eq_true : scheduler.allTasksComplete ↔
      ∀ index < scheduler.tasks.length, (scheduler.task index).remainingTime = 0 := by
  simp only [allTasksComplete, all_eq_true, beq_iff_eq]
  constructor
  · intro h index hindex
    exact h _ (task_mem hindex)
  intro h task htask
  obtain ⟨index, hindex, rfl⟩ := exists_task htask
  exact h index hindex

def Picks (scheduler : CourseScheduler) (now : ℕ) : Option ℕ → Prop
  | none => ∀ index < scheduler.tasks.length, taskReady (scheduler.task index) now = false
  | some index => index < scheduler.tasks.length ∧ taskReady (scheduler.task index) now

theorem pick_spec (scheduler : CourseScheduler)
    (better : CourseSchedulerTask → CourseSchedulerTask → Bool) (now : ℕ) :
    scheduler.Picks now (scheduler.pick better now) := by
  unfold pick Picks
  generalize scheduler.tasks.length = n
  induction n with
  | zero => simp
  | succ n ih =>
    rw [range_succ, foldl_append, foldl_cons, foldl_nil]
    generalize (List.range n).foldl _ none = best at ih ⊢
    cases hready : taskReady (scheduler.task n) now with
    | false =>
      rw [if_pos (by simp)]
      cases best with
      | none =>
        intro index hindex
        rcases Nat.lt_succ_iff_lt_or_eq.1 hindex with hlt | rfl
        · exact ih index hlt
        · exact hready
      | some old => exact ⟨Nat.lt_succ_of_lt ih.1, ih.2⟩
    | true =>
      rw [if_neg (by simp)]
      cases best with
      | none => exact ⟨Nat.lt_succ_self n, hready⟩
      | some old =>
        dsimp only
        split_ifs
        · exact ⟨Nat.lt_succ_self n, hready⟩
        · exact ⟨Nat.lt_succ_of_lt ih.1, ih.2⟩

theorem nextArrivalTime_spec (scheduler : CourseScheduler) (now : ℕ) :
    (∀ task ∈ scheduler.tasks, task.remainingTime ≠ 0 → now < task.arrivalTime →
      scheduler.nextArrivalTime now ≤ task.arrivalTime) ∧
    (scheduler.nextArrivalTime now = uint32Max ∨ ∃ task ∈ scheduler.tasks, task.remainingTime ≠ 0 ∧
      now < task.arrivalTime ∧ scheduler.nextArrivalTime now = task.arrivalTime) := by
  have hfold : ∀ (tasks : List CourseSchedulerTask) (first : ℕ),
      let next := tasks.foldl
        (fun next task =>
          if task.remainingTime ≠ 0 ∧ now < task.arrivalTime ∧ task.arrivalTime < next then
            task.arrivalTime
          else next) first
      next ≤ first ∧
        (∀ task ∈ tasks, task.remainingTime ≠ 0 → now < task.arrivalTime → next ≤ task.arrivalTime)
          ∧
          (next = first ∨ ∃ task ∈ tasks, task.remainingTime ≠ 0 ∧ now < task.arrivalTime ∧
            next = task.arrivalTime) := by
    intro tasks
    induction tasks with
    | nil => simp
    | cons task tasks ih =>
      intro first
      rw [foldl_cons]
      split_ifs with hearlier
      · obtain ⟨hle, hleast, hfrom⟩ := ih task.arrivalTime
        refine ⟨by omega, ?_, ?_⟩
        · intro other hother hleft hlate
          rcases mem_cons.1 hother with rfl | hother
          · exact hle
          · exact hleast other hother hleft hlate
        · right
          rcases hfrom with heq | ⟨other, hother, hspec⟩
          · exact ⟨task, mem_cons_self, hearlier.1, hearlier.2.1, heq⟩
          · exact ⟨other, mem_cons_of_mem _ hother, hspec⟩
      · obtain ⟨hle, hleast, hfrom⟩ := ih first
        refine ⟨hle, ?_, ?_⟩
        · intro other hother hleft hlate
          rcases mem_cons.1 hother with rfl | hother
          · by_contra hlt
            exact hearlier ⟨hleft, hlate, by omega⟩
          · exact hleast other hother hleft hlate
        · rcases hfrom with heq | ⟨other, hother, hspec⟩
          · exact .inl heq
          · exact .inr ⟨other, mem_cons_of_mem _ hother, hspec⟩
  exact (hfold scheduler.tasks uint32Max).2

end CourseScheduler

open CourseScheduler

def CompletedAt (units : List (Option ℕ)) (index burst time : ℕ) : Prop :=
  0 < time ∧ time ≤ units.length ∧ units[time - 1]? = some (some index) ∧
    (units.take time).count (some index) = burst

namespace CourseScheduler

variable (start : CourseScheduler)

def arrivals (index : ℕ) : ℕ := (start.task index).arrivalTime

def bursts (index : ℕ) : ℕ := (start.task index).burstTime

def indices : Finset ℕ := Finset.range start.tasks.length

def totalBurst : ℕ := ∑ index ∈ start.indices, start.bursts index

/-- The task sets of a run: some tasks with positive bursts, and times that fit into words. -/
structure Schedulable : Prop where
  nonempty : start.tasks ≠ []
  fits : start.tasks.length ≤ courseSchedulerMaxTasks
  positive : ∀ index < start.tasks.length, 0 < start.bursts index
  bounded : ∀ index < start.tasks.length, start.arrivals index + start.totalBurst < uint32Max

/-- A timeline of the tasks that conserves work. -/
def Conserving (line : List (Option ℕ)) : Prop :=
  WorkConserving start.indices start.arrivals start.bursts line

end CourseScheduler

/-- The state of a main loop after some slices: what is left of each task, and the time
that the slices and the jumps have taken. -/
structure Progress (start : CourseScheduler) (state : OfflineState) (slices : List RunSlice) :
    Prop where
  length : state.scheduler.tasks.length = start.tasks.length
  arrival : ∀ index, (state.scheduler.task index).arrivalTime = start.arrivals index
  burst : ∀ index, (state.scheduler.task index).burstTime = start.bursts index
  remaining : ∀ index < start.tasks.length, (state.scheduler.task index).remainingTime +
    (timeline slices).count (some index) = start.bursts index
  sequential : slices.Pairwise fun slice later => slice.start + slice.length ≤ later.start
  within : ∀ slice ∈ slices, slice.start + slice.length ≤ (timeline slices).length
  clock : (timeline slices).length ≤ state.now
  conserving : start.Conserving
    (timeline slices ++ List.replicate (state.now - (timeline slices).length) none)
  bound : ∃ latest, latest + start.totalBurst < uint32Max ∧
    state.now ≤ latest + busy (timeline slices)
  cost : state.scheduler.summary.totalSwitchCycleCost = busy (timeline slices)
  completed : ∀ index < start.tasks.length, (state.scheduler.task index).remainingTime = 0 →
    CompletedAt (timeline slices) index (start.bursts index)
      (state.scheduler.task index).completionTime
  lastBusy : ∀ slot ∈ (timeline slices).getLast?, slot.isSome

open Progress

/-- A task ran for some time: the clock, its remaining time and the cost have moved, and it
is completed when nothing is left of it. -/
structure Ran (state : OfflineState) (index runFor : ℕ) (after : OfflineState) : Prop where
  now : after.now = uint32 (state.now + runFor)
  length : after.scheduler.tasks.length = state.scheduler.tasks.length
  cost : after.scheduler.summary.totalSwitchCycleCost =
    uint32 (state.scheduler.summary.totalSwitchCycleCost + runFor)
  others : ∀ other ≠ index, after.scheduler.task other = state.scheduler.task other
  arrival : (after.scheduler.task index).arrivalTime = (state.scheduler.task index).arrivalTime
  burst : (after.scheduler.task index).burstTime = (state.scheduler.task index).burstTime
  remaining : (after.scheduler.task index).remainingTime =
    (state.scheduler.task index).remainingTime - runFor
  completed : (after.scheduler.task index).remainingTime = 0 →
    (after.scheduler.task index).completionTime = after.now

theorem CompletedAt.append {line later : List (Option ℕ)} {index burst time : ℕ}
    (h : CompletedAt line index burst time) : CompletedAt (line ++ later) index burst time := by
  obtain ⟨hpos, hle, hlast, hcount⟩ := h
  refine ⟨hpos, ?_, ?_, ?_⟩
  · rw [length_append]
    omega
  · rw [List.getElem?_append_left (by omega)]
    exact hlast
  · rw [take_append_of_le_length hle]
    exact hcount

theorem completedAt_length {line : List (Option ℕ)} {index burst : ℕ}
    (hcount : (line ++ [some index]).count (some index) = burst) :
    CompletedAt (line ++ [some index]) index burst (line ++ [some index]).length := by
  refine ⟨by simp, le_rfl, by simp, ?_⟩
  rw [take_length]
  exact hcount

namespace Progress

variable {start : CourseScheduler} {state after : OfflineState} {slices : List RunSlice}

/-- The timeline up to now, with the idle time after the last slice. -/
def padded (state : OfflineState) (slices : List RunSlice) : List (Option ℕ) :=
  timeline slices ++ List.replicate (state.now - (timeline slices).length) none

theorem length_padded (h : Progress start state slices) : (padded state slices).length =
    state.now := by
  have hclock := h.clock
  rw [padded, length_append, length_replicate]
  omega

theorem count_padded (state : OfflineState) (slices : List RunSlice) (index : ℕ) :
    (padded state slices).count (some index) = (timeline slices).count (some index) := by
  rw [padded, count_append, count_replicate]
  simp

theorem mem_indices {index : ℕ} : index ∈ start.indices ↔ index < start.tasks.length :=
  Finset.mem_range

section

variable (h : Progress start state slices)

include h

theorem busy_le : busy (timeline slices) ≤ start.totalBurst := by
  have hline := of_append h.conserving
  rw [busy_eq_sum hline]
  exact Finset.sum_le_sum fun index hindex => count_le hline hindex

theorem jump (hstart : start.Schedulable)
    (hidle : ∀ index < start.tasks.length, taskReady (state.scheduler.task index) state.now = false)
    (hleft : state.scheduler.allTasksComplete = false) :
    ∃ next, state.jump = some { state with now := next } ∧ state.now < next ∧
      Progress start { state with now := next } slices ∧
        ∃ index < start.tasks.length, taskReady (state.scheduler.task index) next ∧
          (state.scheduler.task index).arrivalTime = next := by
  obtain ⟨hleast, hfrom⟩ := nextArrivalTime_spec state.scheduler state.now
  set next := state.scheduler.nextArrivalTime state.now with hnext
  have hlate : ∀ index < start.tasks.length, (state.scheduler.task index).remainingTime ≠ 0 →
      state.now < (state.scheduler.task index).arrivalTime := by
    intro index hindex hremaining
    have hnot := hidle index hindex
    rw [← Bool.not_eq_true, taskReady_iff] at hnot
    by_contra hle
    exact hnot ⟨hremaining, by omega⟩
  have hsmall : ∀ index < start.tasks.length,
      (state.scheduler.task index).arrivalTime < uint32Max := by
    intro index hindex
    have hbounded := hstart.bounded index hindex
    rw [h.arrival]
    omega
  have harrival : ∃ task ∈ state.scheduler.tasks, task.remainingTime ≠ 0 ∧
      state.now < task.arrivalTime ∧ next = task.arrivalTime := by
    rcases hfrom with hmax | hfound
    · rw [← Bool.not_eq_true, allTasksComplete_eq_true, not_forall] at hleft
      obtain ⟨index, hindex⟩ := hleft
      obtain ⟨hlt, hremaining⟩ := Classical.not_imp.1 hindex
      have hle := hleast _ (task_mem hlt) hremaining (hlate index (h.length ▸ hlt) hremaining)
      have hbound := hsmall index (h.length ▸ hlt)
      omega
    · exact hfound
  obtain ⟨task, htask, hremaining, hafter, heq⟩ := harrival
  obtain ⟨index, hindex, rfl⟩ := exists_task htask
  rw [h.length] at hindex
  have hne : next ≠ uint32Max := by
    have hbound := hsmall index hindex
    omega
  have hclock := h.clock
  refine ⟨next, ?_, by omega, ?_, index, hindex, ?_, heq.symm⟩
  · rw [OfflineState.jump, ← hnext]
    exact if_neg hne
  · have hpad : timeline slices ++ List.replicate (next - (timeline slices).length) none =
        padded state slices ++ List.replicate (next - state.now) none := by
      rw [padded, List.append_assoc, replicate_append_replicate]
      congr 2
      omega
    constructor
    · exact h.length
    · exact h.arrival
    · exact h.burst
    · exact h.remaining
    · exact h.sequential
    · exact h.within
    · dsimp only
      omega
    · rw [hpad]
      apply append_idle h.conserving
      intro other hother hbefore
      rw [mem_indices] at hother
      have hlength := h.length_padded
      unfold padded at hlength
      rw [hlength] at hbefore
      have hcount := h.remaining other hother
      rw [← h.arrival] at hbefore
      have hzero : (state.scheduler.task other).remainingTime = 0 := by
        by_contra hne
        have hle := hleast _ (task_mem (h.length ▸ hother)) hne (hlate other hother hne)
        omega
      rw [count_append, count_replicate]
      simp only [beq_iff_eq, reduceCtorEq, if_false, Nat.add_zero]
      omega
    · refine ⟨(state.scheduler.task index).arrivalTime, ?_, ?_⟩
      · rw [h.arrival]
        exact hstart.bounded index hindex
      dsimp only
      omega
    · exact h.cost
    · exact h.completed
    · exact h.lastBusy
  · rw [taskReady_iff]
    exact ⟨hremaining, heq.symm.le⟩

theorem run {index runFor : ℕ} (hindex : index < start.tasks.length)
    (hready : taskReady (state.scheduler.task index) state.now) (hpos : 0 < runFor)
    (hle : runFor ≤ (state.scheduler.task index).remainingTime)
    (hran : Ran state index runFor after) :
    Progress start after (slices ++ [{ index, start := state.now, length := runFor }]) := by
  have hclock := h.clock
  have hline : timeline (slices ++ [{ index, start := state.now, length := runFor }]) =
      padded state slices ++ List.replicate runFor (some index) :=
    timeline_concat _ _
  have hremaining := h.remaining index hindex
  have harrived := (taskReady_iff.1 hready).2
  have hconserving : start.Conserving
    (padded state slices ++ List.replicate runFor (some index)) := by
    apply append_run h.conserving (mem_indices.2 hindex)
    · have hlength := h.length_padded
      unfold padded at hlength
      rw [hlength, ← h.arrival]
      exact harrived
    · have hcount := count_padded state slices index
      unfold padded at hcount
      rw [hcount]
      omega
  have hbusy : busy (padded state slices ++ List.replicate runFor (some index)) =
      busy (timeline slices) + runFor := by
    simp [padded, busy, countP_replicate]
  have htotal : busy (timeline slices) + runFor ≤ start.totalBurst := by
    rw [← hbusy, busy_eq_sum hconserving]
    exact Finset.sum_le_sum fun other hother => count_le hconserving hother
  obtain ⟨latest, hlatest, hnow⟩ := h.bound
  unfold uint32Max at hlatest
  have hafter : after.now = state.now + runFor := by
    rw [hran.now, uint32, Nat.mod_eq_of_lt (by omega)]
  have hlength : (padded state slices ++ List.replicate runFor (some index)).length =
    after.now := by
    rw [length_append, h.length_padded, length_replicate, hafter]
  have hcount : ∀ other,
    (padded state slices ++ List.replicate runFor (some index)).count (some other) =
      (timeline slices).count (some other) + if other = index then runFor else 0 := by
    intro other
    rw [count_append, count_padded, count_replicate]
    by_cases heq : other = index
    · simp [heq]
    · simp [heq, Ne.symm heq]
  constructor
  · rw [hran.length, h.length]
  · intro other
    by_cases heq : other = index
    · rw [heq, hran.arrival, h.arrival]
    · rw [hran.others other heq, h.arrival]
  · intro other
    by_cases heq : other = index
    · rw [heq, hran.burst, h.burst]
    · rw [hran.others other heq, h.burst]
  · intro other hother
    have hleft := h.remaining other hother
    rw [hline, hcount]
    by_cases heq : other = index
    · subst heq
      rw [if_pos rfl, hran.remaining]
      omega
    · rw [if_neg heq, hran.others other heq]
      omega
  · rw [pairwise_append]
    refine ⟨h.sequential, pairwise_singleton _ _, ?_⟩
    intro slice hslice later hlater
    rw [mem_singleton.1 hlater]
    exact le_trans (h.within slice hslice) hclock
  · intro slice hslice
    rw [hline, hlength, hafter]
    rcases mem_append.1 hslice with hslice | hslice
    · have hwithin := h.within slice hslice
      omega
    · rw [mem_singleton.1 hslice]
  · rw [hline, hlength]
  · rw [hline, hlength, Nat.sub_self, List.replicate_zero, append_nil]
    exact hconserving
  · refine ⟨latest, hlatest, ?_⟩
    rw [hline, hbusy]
    omega
  · rw [hran.cost, h.cost, hline, hbusy, uint32, Nat.mod_eq_of_lt (by omega)]
  · intro other hother hdone
    rw [hline]
    by_cases heq : other = index
    · subst heq
      rw [hran.completed hdone, ← hlength]
      obtain ⟨runFor, rfl⟩ := Nat.exists_eq_succ_of_ne_zero hpos.ne'
      have hcounted := hcount other
      rw [if_pos rfl] at hcounted
      rw [hran.remaining] at hdone
      rw [List.replicate_succ', ← List.append_assoc] at hcounted ⊢
      apply completedAt_length
      rw [hcounted]
      omega
    · rw [hran.others other heq] at hdone ⊢
      rw [padded, List.append_assoc]
      exact (h.completed other hother hdone).append
  · intro slot hslot
    obtain ⟨runFor, rfl⟩ := Nat.exists_eq_succ_of_ne_zero hpos.ne'
    rw [hline, List.replicate_succ', ← List.append_assoc, List.getLast?_concat] at hslot
    obtain rfl : some index = slot := by simpa using hslot
    rfl

end

end Progress

namespace OfflineState

/-- What is left for a main loop: the work of the tasks and the arrivals to come. -/
def pending (state : OfflineState) : ℕ :=
  ∑ index ∈ Finset.range state.scheduler.tasks.length,
    ((state.scheduler.task index).remainingTime +
      if state.now < (state.scheduler.task index).arrivalTime then 1 else 0)

theorem pending_jump {state : OfflineState} {next index : ℕ} (hnext : state.now < next)
    (hindex : index < state.scheduler.tasks.length)
    (harrival : (state.scheduler.task index).arrivalTime = next) :
    ({ state with now := next } : OfflineState).pending < state.pending := by
  apply Finset.sum_lt_sum
  · intro other _
    dsimp only
    split_ifs <;> omega
  · refine ⟨index, Finset.mem_range.2 hindex, ?_⟩
    rw [harrival, if_neg (lt_irrefl _), if_pos hnext]
    exact Nat.lt_succ_self _

theorem pending_ran {state after : OfflineState} {index runFor : ℕ}
    (hindex : index < state.scheduler.tasks.length) (hpos : 0 < runFor)
    (hle : runFor ≤ (state.scheduler.task index).remainingTime)
    (hran : Ran state index runFor after)
    (hnow : state.now ≤ after.now) : after.pending < state.pending := by
  unfold pending
  rw [hran.length]
  apply Finset.sum_lt_sum
  · intro other _
    by_cases heq : other = index
    · subst heq
      rw [hran.remaining, hran.arrival]
      split_ifs <;> omega
    · rw [hran.others other heq]
      split_ifs <;> omega
  · refine ⟨index, Finset.mem_range.2 hindex, ?_⟩
    rw [hran.remaining, hran.arrival]
    split_ifs <;> omega

/-- A round that jumps when no task is ready and else runs one that is. -/
def RunsReady (turn : OfflineState → Option (OfflineState × List RunSlice)) : Prop :=
  ∀ state : OfflineState,
    ((∀ index < state.scheduler.tasks.length,
        taskReady (state.scheduler.task index) state.now = false) ∧
      turn state = state.jump.map fun state => (state, [])) ∨
    ∃ index runFor after, index < state.scheduler.tasks.length ∧
      taskReady (state.scheduler.task index) state.now ∧ 0 < runFor ∧
        runFor ≤ (state.scheduler.task index).remainingTime ∧ Ran state index runFor after ∧
          turn state = some (after, [{ index, start := state.now, length := runFor }])

theorem fcfsTurn_runsReady : RunsReady fcfsTurn := by
  intro state
  have hpick : state.scheduler.Picks state.now (state.scheduler.pickFcfs state.now) :=
    pick_spec _ _ _
  unfold fcfsTurn
  cases hpicked : state.scheduler.pickFcfs state.now with
  | none =>
    rw [hpicked] at hpick
    exact .inl ⟨hpick, rfl⟩
  | some index =>
    rw [hpicked] at hpick
    obtain ⟨hindex, hready⟩ := hpick
    have hremaining := (taskReady_iff.1 hready).1
    refine .inr ⟨index, _, _, hindex, hready, Nat.pos_of_ne_zero hremaining, le_rfl, ?_, rfl⟩
    have htask := @task_setTask_self
      (state.scheduler.recordContextSwitch (state.scheduler.task index).remainingTime) index hindex
    constructor
    · rfl
    · simp
    · rfl
    · intro other hne
      exact task_setTask_of_ne hne _
    · rw [htask]
      rfl
    · rw [htask]
      rfl
    · rw [htask, Nat.sub_self]
    · intro _
      rw [htask]

theorem slice_pos {remaining timeSlice : ℕ} (hslice : 0 < timeSlice) (hleft : remaining ≠ 0) :
    0 < (if remaining < timeSlice then remaining else timeSlice) ∧
      (if remaining < timeSlice then remaining else timeSlice) ≤ remaining := by
  split_ifs <;> omega

theorem cfsLiteTurn_runsReady {timeSlice : ℕ} (hslice : 0 < timeSlice) :
    RunsReady fun state => state.cfsLiteTurn timeSlice := by
  intro state
  have hpick : state.scheduler.Picks state.now (state.scheduler.pickCfsLite state.now) :=
    pick_spec _ _ _
  dsimp only
  unfold cfsLiteTurn
  cases hpicked : state.scheduler.pickCfsLite state.now with
  | none =>
    rw [hpicked] at hpick
    exact .inl ⟨hpick, rfl⟩
  | some index =>
    rw [hpicked] at hpick
    obtain ⟨hindex, hready⟩ := hpick
    have hremaining := (taskReady_iff.1 hready).1
    obtain ⟨hpos, hle⟩ := slice_pos hslice hremaining
    refine .inr ⟨index, _, _, hindex, hready, hpos, hle, ?_, rfl⟩
    generalize (if (state.scheduler.task index).remainingTime < timeSlice then
      (state.scheduler.task index).remainingTime else timeSlice) = runFor
    have htask := @task_setTask_self (state.scheduler.recordContextSwitch runFor) index hindex
    constructor
    · rfl
    · simp
    · rfl
    · intro other hne
      exact task_setTask_of_ne hne _
    · rw [htask]
      rfl
    · rw [htask]
      rfl
    · rw [htask]
      rfl
    · intro hdone
      rw [htask] at hdone ⊢
      exact if_pos hdone

end OfflineState

namespace Progress

variable {start : CourseScheduler} {state after : OfflineState} {slices : List RunSlice}

theorem initial (hstart : start.Schedulable) (policy : CourseSchedPolicy) (timeSlice : ℕ) :
    Progress start { scheduler := start.beforeRun policy timeSlice } [] := by
  have htask : ∀ index < start.tasks.length, (start.beforeRun policy timeSlice).task index =
      { start.task index with
        remainingTime := start.bursts index, completionTime := 0, vruntime := 0 } := by
    intro index hindex
    simp [beforeRun, resetRuntimeFields, task, bursts, hindex]
  have hdefault : ∀ index, ¬index < start.tasks.length →
      (start.beforeRun policy timeSlice).task index = start.task index := by
    intro index hindex
    have hlength : start.tasks.length ≤ index := not_lt.1 hindex
    simp [beforeRun, resetRuntimeFields, task, hlength]
  obtain ⟨first, hfirst⟩ := exists_mem_of_ne_nil _ hstart.nonempty
  obtain ⟨index, hindex, -⟩ := exists_task hfirst
  constructor
  · simp [beforeRun, resetRuntimeFields]
  · intro index
    by_cases hlt : index < start.tasks.length
    · rw [htask index hlt]
      rfl
    rw [hdefault index hlt]
    rfl
  · intro index
    by_cases hlt : index < start.tasks.length
    · rw [htask index hlt]
      rfl
    rw [hdefault index hlt]
    rfl
  · intro index hlt
    rw [htask index hlt]
    rfl
  · exact List.Pairwise.nil
  · intro slice hslice
    cases hslice
  · exact le_rfl
  · exact WorkConserving.nil
  · exact ⟨start.arrivals index, hstart.bounded index hindex, Nat.zero_le _⟩
  · rfl
  · intro index hlt hdone
    rw [htask index hlt] at hdone
    exact absurd hdone (hstart.positive index hlt).ne'
  · intro slot hslot
    cases hslot

theorem now_le {index runFor : ℕ}
    (hnext : Progress start after (slices ++ [{ index, start := state.now, length := runFor }])) :
    state.now ≤ after.now := by
  have hlength := hnext.clock
  have hwithin := hnext.within _ (mem_append_right _ mem_cons_self)
  dsimp only at hwithin
  omega

theorem loop (hstart : start.Schedulable)
    {turn : OfflineState → Option (OfflineState × List RunSlice)}
    (hturn : OfflineState.RunsReady turn) (h : Progress start state slices) :
    ∃ state' slices', Progress start state' slices' ∧
      state'.scheduler.allTasksComplete ∧ ∀ fuel > state.pending,
        Loops.turnLoop (fun state => state.scheduler.allTasksComplete) turn fuel state slices =
          some (true, state', slices') := by
  apply Loops.turnLoop_ends _ h
  intro state slices h hleft
  rcases hturn state with ⟨hidle, hjump⟩ |
    ⟨index, runFor, after, hindex, hready, hpos, hle, hran, hrun⟩
  · rw [h.length] at hidle
    obtain ⟨next, hto, hlater, hprogress, index, hindex, -, harrival⟩ :=
      h.jump hstart hidle hleft
    refine ⟨{ state with now := next }, [], ?_, ?_, ?_⟩
    · rw [hjump, hto]
      rfl
    · rw [append_nil]
      exact hprogress
    · exact pending_jump hlater (h.length ▸ hindex) harrival
  · have hprogress := h.run (h.length ▸ hindex) hready hpos hle hran
    refine ⟨after, _, hrun, hprogress, ?_⟩
    exact pending_ran hindex hpos hle hran (now_le hprogress)

end Progress

open RoundRobin (Rotating Fair since since_concat_self)

/-- The queue of round robin between two rounds, or in a round while one task runs: who ran is
known, and who is known waits, is done or runs. -/
structure Queued (running : Option ℕ) (state : OfflineState) (log : List ℕ) : Prop where
  rotating : Rotating state.queue log
  fair : Fair log
  waiting : ∀ index ∈ state.queue, index < state.scheduler.tasks.length ∧
    taskReady (state.scheduler.task index) state.now ∧ state.discovered index
  known : ∀ index, state.discovered index → index ∈ state.queue ∨
    (state.scheduler.task index).remainingTime = 0 ∨ running = some index
  served : ∀ index ∈ log, state.discovered index
  away : ∀ index, running = some index → index ∉ state.queue ∧ state.discovered index

theorem OfflineState.enqueueArrivals_spec (state : OfflineState) : ∃ fresh discovered,
      state.enqueueArrivals = { state with queue := state.queue ++ fresh, discovered } ∧
      fresh.Nodup ∧
      (∀ index ∈ fresh, index < state.scheduler.tasks.length ∧
        taskReady (state.scheduler.task index) state.now ∧
          state.discovered index = false ∧ index ∉ state.queue) ∧
      (∀ index, discovered index ↔ state.discovered index ∨ index ∈ fresh) ∧
      ∀ index < state.scheduler.tasks.length,
        taskReady (state.scheduler.task index) state.now →
          discovered index ∨ index ∈ state.queue := by
  unfold enqueueArrivals
  generalize state.scheduler.tasks.length = n
  induction n with
  | zero => exact ⟨[], state.discovered, by simp, nodup_nil, by simp, by simp, by simp⟩
  | succ n ih =>
    obtain ⟨fresh, discovered, hfold, hnodup, hfresh, hdiscovered, hready⟩ := ih
    rw [range_succ, foldl_append, foldl_cons, foldl_nil, hfold]
    have hearlier : ∀ index ∈ fresh, index < n + 1 ∧
        taskReady (state.scheduler.task index) state.now ∧
          state.discovered index = false ∧ index ∉ state.queue := by
      intro index hindex
      obtain ⟨hlt, hrest⟩ := hfresh index hindex
      exact ⟨Nat.lt_succ_of_lt hlt, hrest⟩
    split_ifs with hjoin
    · simp only [Bool.and_eq_true, Bool.not_eq_true', contains_eq_mem, decide_eq_false_iff_not]
        at hjoin
      obtain ⟨⟨hnew, hnow⟩, hqueue⟩ := hjoin
      rw [mem_append, not_or] at hqueue
      have hundiscovered : state.discovered n = false := by
        rw [← Bool.not_eq_true]
        intro hold
        rw [(hdiscovered n).2 (.inl hold)] at hnew
        cases hnew
      refine ⟨fresh ++ [n], Function.update discovered n true, ?_, ?_, ?_, ?_, ?_⟩
      · rw [List.append_assoc]
      · rw [nodup_append]
        refine ⟨hnodup, nodup_singleton n, ?_⟩
        intro index hindex last hlast
        rw [mem_singleton.1 hlast]
        exact (hfresh index hindex).1.ne
      · intro index hindex
        rw [mem_append, mem_singleton] at hindex
        rcases hindex with hindex | rfl
        · exact hearlier index hindex
        · exact ⟨Nat.lt_succ_self _, hnow, hundiscovered, hqueue.1⟩
      · intro index
        by_cases heq : index = n
        · simp [heq]
        rw [Function.update_of_ne heq, hdiscovered]
        simp [heq]
      · intro index hindex hnow
        by_cases heq : index = n
        · simp [heq]
        rw [Function.update_of_ne heq]
        exact hready index (by omega) hnow
    · refine ⟨fresh, discovered, rfl, hnodup, hearlier, hdiscovered, ?_⟩
      intro index hindex hnow
      rcases Nat.lt_succ_iff_lt_or_eq.1 hindex with hlt | rfl
      · exact hready index hlt hnow
      by_contra hnot
      obtain ⟨hnew, hqueue⟩ := not_or.1 hnot
      apply hjoin
      have hfresh' : index ∉ fresh := fun hmem => hnew ((hdiscovered index).2 (.inr hmem))
      simp [hnew, hnow, hqueue, hfresh']

namespace Queued

variable {state : OfflineState} {running : Option ℕ} {log : List ℕ} {after : OfflineState}
  {index : ℕ}

theorem enqueueArrivals (h : Queued running state log) : Queued running state.enqueueArrivals log ∧
      state.enqueueArrivals.scheduler = state.scheduler ∧ state.enqueueArrivals.now = state.now ∧
      ∀ index < state.scheduler.tasks.length,
        taskReady (state.scheduler.task index) state.now → running ≠ some index →
          index ∈ state.enqueueArrivals.queue := by
  obtain ⟨fresh, discovered, heq, hnodup, hfresh, hdiscovered, hready⟩ := state.enqueueArrivals_spec
  rw [heq]
  refine ⟨?_, rfl, rfl, ?_⟩
  · constructor
    · apply h.rotating.join_all hnodup
      intro index hindex
      obtain ⟨-, -, hnew, hqueue⟩ := hfresh index hindex
      refine ⟨hqueue, fun hlog => ?_⟩
      rw [h.served index hlog] at hnew
      cases hnew
    · exact h.fair
    · intro index hindex
      rcases mem_append.1 hindex with hindex | hindex
      · obtain ⟨hlt, hnow, hknown⟩ := h.waiting index hindex
        exact ⟨hlt, hnow, (hdiscovered index).2 (.inl hknown)⟩
      obtain ⟨hlt, hnow, -, -⟩ := hfresh index hindex
      exact ⟨hlt, hnow, (hdiscovered index).2 (.inr hindex)⟩
    · intro index hindex
      rcases (hdiscovered index).1 hindex with hold | hnew
      · rcases h.known index hold with hqueue | hrest
        · exact .inl (mem_append_left _ hqueue)
        · exact .inr hrest
      · exact .inl (mem_append_right _ hnew)
    · intro index hindex
      exact (hdiscovered index).2 (.inl (h.served index hindex))
    · intro index hrunning
      obtain ⟨hqueue, hknown⟩ := h.away index hrunning
      refine ⟨?_, (hdiscovered index).2 (.inl hknown)⟩
      rw [mem_append, not_or]
      refine ⟨hqueue, fun hmem => ?_⟩
      rw [(hfresh index hmem).2.2.1] at hknown
      cases hknown
  · intro index hindex hnow hnot
    rcases hready index hindex hnow with hknown | hqueue
    · rcases (hdiscovered index).1 hknown with hold | hnew
      · rcases h.known index hold with hqueue | hdone | hrunning
        · exact mem_append_left _ hqueue
        · exact absurd hdone (taskReady_iff.1 hnow).1
        · exact absurd hrunning hnot
      · exact mem_append_right _ hnew
    · exact mem_append_left _ hqueue

theorem congr (h : Queued running state log) (hqueue : after.queue = state.queue)
    (hnow : after.now = state.now) (hdiscovered : after.discovered = state.discovered)
    (hlength : after.scheduler.tasks.length = state.scheduler.tasks.length)
    (htasks : ∀ index,
      (after.scheduler.task index).arrivalTime = (state.scheduler.task index).arrivalTime ∧
        (after.scheduler.task index).remainingTime = (state.scheduler.task index).remainingTime) :
    Queued running after log := by
  have hready : ∀ index, taskReady (after.scheduler.task index) after.now =
      taskReady (state.scheduler.task index) state.now := by
    intro index
    rw [taskReady, taskReady, (htasks index).1, (htasks index).2, hnow]
  constructor
  · rw [hqueue]
    exact h.rotating
  · exact h.fair
  · intro index hindex
    rw [hqueue] at hindex
    rw [hlength, hready, hdiscovered]
    exact h.waiting index hindex
  · intro index hindex
    rw [hqueue, (htasks index).2]
    rw [hdiscovered] at hindex
    exact h.known index hindex
  · intro index hindex
    rw [hdiscovered]
    exact h.served index hindex
  · intro index hindex
    rw [hqueue, hdiscovered]
    exact h.away index hindex

theorem serve {queue : List ℕ} (h : Queued none state log)
    (hhead : state.queue = index :: queue) (hran : ∀ other ≠ index,
      after.scheduler.task other = state.scheduler.task other)
    (hqueue : after.queue = queue) (hdiscovered : after.discovered = state.discovered)
    (hlength : after.scheduler.tasks.length = state.scheduler.tasks.length)
    (hnow : state.now ≤ after.now) : Queued (some index) after (log ++ [index]) := by
  have hrotating := h.rotating
  rw [hhead] at hrotating
  have hnodup := nodup_cons.1 hrotating.nodup
  have hindex : index ∈ state.queue := by
    rw [hhead]
    exact mem_cons_self
  constructor
  · rw [hqueue]
    exact hrotating.serve
  · exact h.fair.serve hrotating
  · intro other hother
    rw [hqueue] at hother
    have hne : other ≠ index := by
      rintro rfl
      exact hnodup.1 hother
    obtain ⟨hlt, hready, hknown⟩ := h.waiting other (by rw [hhead]; exact mem_cons_of_mem _ hother)
    rw [taskReady_iff] at hready
    rw [hlength, hran other hne, hdiscovered, taskReady_iff]
    exact ⟨hlt, ⟨hready.1, le_trans hready.2 hnow⟩, hknown⟩
  · intro other hother
    rw [hdiscovered] at hother
    by_cases heq : other = index
    · exact .inr (.inr (by rw [heq]))
    rw [hqueue, hran other heq]
    rcases h.known other hother with hmem | hdone | hrunning
    · rw [hhead, mem_cons] at hmem
      exact .inl (hmem.resolve_left heq)
    · exact .inr (.inl hdone)
    · cases hrunning
  · intro other hother
    rw [hdiscovered]
    rcases mem_append.1 hother with hother | hother
    · exact h.served other hother
    rw [mem_singleton.1 hother]
    exact (h.waiting index hindex).2.2
  · intro other hother
    obtain rfl : index = other := Option.some.inj hother
    rw [hqueue, hdiscovered]
    exact ⟨hnodup.1, (h.waiting index hindex).2.2⟩

theorem complete (h : Queued (some index) state log)
    (hdone : (state.scheduler.task index).remainingTime = 0) : Queued none state log := by
  constructor
  · exact h.rotating
  · exact h.fair
  · exact h.waiting
  · intro other hother
    rcases h.known other hother with hqueue | hzero | hrunning
    · exact .inl hqueue
    · exact .inr (.inl hzero)
    obtain rfl : index = other := Option.some.inj hrunning
    exact .inr (.inl hdone)
  · exact h.served
  · intro other hother
    cases hother

theorem requeue (h : Queued (some index) state (log ++ [index]))
    (hindex : index < state.scheduler.tasks.length)
    (hready : taskReady (state.scheduler.task index) state.now) :
    Queued none { state with queue := state.queue ++ [index] } (log ++ [index]) := by
  obtain ⟨hnot, hknown⟩ := h.away index rfl
  constructor
  · exact h.rotating.join hnot fun _ => since_concat_self index log
  · exact h.fair
  · intro other hother
    rcases mem_append.1 hother with hother | hother
    · exact h.waiting other hother
    rw [mem_singleton.1 hother]
    exact ⟨hindex, hready, hknown⟩
  · intro other hother
    rcases h.known other hother with hqueue | hzero | hrunning
    · exact .inl (mem_append_left _ hqueue)
    · exact .inr (.inl hzero)
    obtain rfl : index = other := Option.some.inj hrunning
    exact .inl (mem_append_right _ mem_cons_self)
  · exact h.served
  · intro other hother
    cases hother

theorem later (h : Queued running state log) {now : ℕ} (hnow : state.now ≤ now) :
    Queued running { state with now } log := by
  constructor
  · exact h.rotating
  · exact h.fair
  · intro index hindex
    obtain ⟨hlt, hready, hknown⟩ := h.waiting index hindex
    rw [taskReady_iff] at hready
    exact ⟨hlt, taskReady_iff.2 ⟨hready.1, le_trans hready.2 hnow⟩, hknown⟩
  · exact h.known
  · exact h.served
  · exact h.away

end Queued

theorem Progress.of_eq {start : CourseScheduler} {state after : OfflineState}
    {slices : List RunSlice}
    (h : Progress start state slices) (hscheduler : after.scheduler = state.scheduler)
    (hnow : after.now = state.now) : Progress start after slices := by
  obtain ⟨scheduler, now, queue, discovered⟩ := after
  subst hscheduler hnow
  exact ⟨h.length, h.arrival, h.burst, h.remaining, h.sequential, h.within, h.clock, h.conserving,
    h.bound, h.cost, h.completed, h.lastBusy⟩

namespace OfflineState

variable {state : OfflineState} {index runFor : ℕ} {queue : List ℕ}

theorem task_runTask_self (hindex : index < state.scheduler.tasks.length) :
    (state.runTask runFor index queue).scheduler.task index =
      { state.scheduler.task index with
        remainingTime := (state.scheduler.task index).remainingTime - runFor } :=
  @task_setTask_self (state.scheduler.recordContextSwitch runFor) index hindex _

theorem task_runTask_of_ne {other : ℕ} (hne : other ≠ index) :
    (state.runTask runFor index queue).scheduler.task other = state.scheduler.task other :=
  task_setTask_of_ne hne _

theorem length_runTask :
    (state.runTask runFor index queue).scheduler.tasks.length = state.scheduler.tasks.length :=
  length_setTask _ _

@[simp] theorem now_settleTask (state : OfflineState) (index : ℕ) :
    (state.settleTask index).now = state.now := by
  unfold settleTask
  split_ifs <;> rfl

theorem length_settleTask :
    (state.settleTask index).scheduler.tasks.length = state.scheduler.tasks.length := by
  unfold settleTask
  split_ifs
  · exact length_setTask _ _
  · rfl

theorem cost_settleTask : (state.settleTask index).scheduler.summary.totalSwitchCycleCost =
    state.scheduler.summary.totalSwitchCycleCost := by
  unfold settleTask
  split_ifs <;> rfl

theorem task_settleTask (hindex : index < state.scheduler.tasks.length) (other : ℕ) :
    (state.settleTask index).scheduler.task other =
      if other = index ∧ (state.scheduler.task index).remainingTime = 0 then
        { state.scheduler.task other with completionTime := state.now }
      else state.scheduler.task other := by
  unfold settleTask
  by_cases hdone : (state.scheduler.task index).remainingTime = 0
  · rw [if_pos hdone]
    by_cases heq : other = index
    · subst heq
      rw [if_pos ⟨rfl, hdone⟩]
      exact task_setTask_self hindex _
    · rw [if_neg fun h => heq h.1]
      exact task_setTask_of_ne heq _
  · rw [if_neg hdone, if_neg fun h => hdone h.2]
    rfl

theorem serve_ran (hindex : index < state.scheduler.tasks.length) {settled : OfflineState}
    (hscheduler : settled.scheduler = (state.runTask runFor index queue).scheduler)
    (hnow : settled.now = (state.runTask runFor index queue).now) :
    Ran state index runFor (settled.settleTask index) := by
  have hlength : settled.scheduler.tasks.length = state.scheduler.tasks.length := by
    rw [hscheduler, length_runTask]
  have htask := @task_settleTask settled index (hlength ▸ hindex)
  have hself : settled.scheduler.task index = { state.scheduler.task index with
      remainingTime := (state.scheduler.task index).remainingTime - runFor } := by
    rw [hscheduler, task_runTask_self hindex]
  constructor
  · rw [now_settleTask, hnow]
    rfl
  · rw [length_settleTask, hlength]
  · rw [cost_settleTask, hscheduler]
    rfl
  · intro other hne
    rw [htask, if_neg fun h => hne h.1, hscheduler, task_runTask_of_ne hne]
  · rw [htask]
    split_ifs <;> rw [hself]
  · rw [htask]
    split_ifs <;> rw [hself]
  · rw [htask]
    split_ifs <;> rw [hself]
  · intro hdone
    rw [htask] at hdone ⊢
    rw [now_settleTask]
    split_ifs at hdone ⊢ with hzero
    · rfl
    · exact absurd ⟨rfl, hdone⟩ hzero

theorem serve_queued {log : List ℕ} (h : Queued none state log)
    (hhead : state.queue = index :: queue)
    (hnow : state.now ≤ (state.runTask runFor index queue).now) :
    Queued none ((state.runTask runFor index queue).enqueueArrivals.settleTask index)
      (log ++ [index]) := by
  have hindex : index < state.scheduler.tasks.length :=
    (h.waiting index (by rw [hhead]; exact mem_cons_self)).1
  have harrived : (state.scheduler.task index).arrivalTime ≤ state.now :=
    (taskReady_iff.1 (h.waiting index (by rw [hhead]; exact mem_cons_self)).2.1).2
  have hrun : Queued (some index) (state.runTask runFor index queue) (log ++ [index]) :=
    h.serve hhead (fun _ hne => task_runTask_of_ne hne) rfl rfl length_runTask hnow
  obtain ⟨hqueued, hscheduler, hclock, -⟩ := hrun.enqueueArrivals
  generalize (state.runTask runFor index queue).enqueueArrivals = settled at *
  have hlength : index < settled.scheduler.tasks.length := by
    rw [hscheduler, length_runTask]
    exact hindex
  have htask := @task_settleTask settled index hlength
  by_cases hdone : (settled.scheduler.task index).remainingTime = 0
  · have hstate : settled.settleTask index = { settled with
        scheduler := settled.scheduler.setTask index fun task =>
          { task with completionTime := settled.now } } :=
      if_pos hdone
    apply (hqueued.complete hdone).congr
    · rw [hstate]
    · rw [hstate]
    · rw [hstate]
    · exact length_settleTask
    · intro other
      rw [htask]
      split_ifs <;> exact ⟨rfl, rfl⟩
  · have hready : taskReady (settled.scheduler.task index) settled.now := by
      rw [taskReady_iff]
      refine ⟨hdone, ?_⟩
      rw [hscheduler, hclock, task_runTask_self hindex]
      exact le_trans harrived hnow
    have hstate : settled.settleTask index = { settled with
        scheduler := { settled.scheduler with
          summary := { settled.scheduler.summary with
            preemptCount := uint32 (settled.scheduler.summary.preemptCount + 1) } }
        queue := settled.queue ++ [index] } :=
      if_neg hdone
    apply (hqueued.requeue hlength hready).congr
    · rw [hstate]
    · rw [hstate]
    · rw [hstate]
    · exact length_settleTask
    · intro other
      rw [htask, if_neg fun hzero => hdone hzero.2]
      exact ⟨rfl, rfl⟩

end OfflineState

namespace Progress

variable {start : CourseScheduler} {state : OfflineState} {slices : List RunSlice} {timeSlice : ℕ}

theorem rr_filled (hstart : start.Schedulable) (h : Progress start state slices)
    (hqueued : Queued none state (slices.map (·.index)))
    (hleft : state.scheduler.allTasksComplete = false) :
    ∃ ready, (if state.enqueueArrivals.queue.isEmpty then
        state.enqueueArrivals.jump.map enqueueArrivals
      else some state.enqueueArrivals) = some ready ∧ ready.queue ≠ [] ∧
        Progress start ready slices ∧ Queued none ready (slices.map (·.index)) ∧
          ready.pending ≤ state.pending := by
  obtain ⟨hfilled, hscheduler, hnow, hready⟩ := hqueued.enqueueArrivals
  have hprogress := h.of_eq hscheduler hnow
  have hpending : state.enqueueArrivals.pending = state.pending := by
    rw [pending, pending, hscheduler, hnow]
  generalize state.enqueueArrivals = filled at *
  by_cases hempty : filled.queue = []
  · have hidle : ∀ index < start.tasks.length,
        taskReady (filled.scheduler.task index) filled.now = false := by
      intro index hindex
      rw [← Bool.not_eq_true]
      intro hnowReady
      rw [hscheduler, hnow] at hnowReady
      have hmem := hready index (h.length ▸ hindex) hnowReady (by simp)
      rw [hempty] at hmem
      cases hmem
    obtain ⟨next, hjump, hlater, hnext, index, hindex, hnextReady, harrival⟩ :=
      hprogress.jump hstart hidle (hscheduler ▸ hleft)
    obtain ⟨hrefilled, hscheduler', hnow', hready'⟩ := (hfilled.later hlater.le).enqueueArrivals
    refine ⟨_, ?_, ?_, hnext.of_eq hscheduler' hnow', hrefilled, ?_⟩
    · rw [if_pos (by rw [hempty]; rfl), hjump]
      rfl
    · have hmem := hready' index (hprogress.length ▸ hindex) hnextReady (by simp)
      exact ne_nil_of_mem hmem
    · rw [pending, hscheduler', hnow', ← hpending]
      exact (pending_jump hlater (hprogress.length ▸ hindex) harrival).le
  · refine ⟨filled, ?_, hempty, hprogress, hfilled, hpending.le⟩
    rw [if_neg (by simpa using hempty)]

theorem rrTurn (hstart : start.Schedulable) (hslice : 0 < timeSlice)
    (h : Progress start state slices) (hqueued : Queued none state (slices.map (·.index)))
    (hleft : state.scheduler.allTasksComplete = false) :
    ∃ after out, state.rrTurn timeSlice = some (after, out) ∧
      (Progress start after (slices ++ out) ∧ Queued none after ((slices ++ out).map (·.index))) ∧
        after.pending < state.pending := by
  obtain ⟨ready, hfill, hne, hprogress, hready, hpending⟩ := h.rr_filled hstart hqueued hleft
  obtain ⟨index, queue, hhead⟩ := exists_cons_of_ne_nil hne
  obtain ⟨hindex, hnow, -⟩ := hready.waiting index (by rw [hhead]; exact mem_cons_self)
  obtain ⟨runFor, hpos, hle, hserve⟩ : ∃ runFor, 0 < runFor ∧
      runFor ≤ (ready.scheduler.task index).remainingTime ∧
        ready.serve timeSlice index queue =
          ((ready.runTask runFor index queue).enqueueArrivals.settleTask index,
            [{ index, start := ready.now, length := runFor }]) := by
    obtain ⟨hpos, hle⟩ := slice_pos hslice (taskReady_iff.1 hnow).1
    exact ⟨_, hpos, hle, rfl⟩
  have hturn : state.rrTurn timeSlice = some (ready.serve timeSlice index queue) := by
    unfold OfflineState.rrTurn
    dsimp only
    rw [hfill]
    dsimp only
    rw [hhead]
  obtain ⟨fresh, discovered, heq, -⟩ := (ready.runTask runFor index queue).enqueueArrivals_spec
  have hran : Ran ready index runFor
      ((ready.runTask runFor index queue).enqueueArrivals.settleTask index) := by
    apply serve_ran hindex <;> rw [heq]
  have hrun := hprogress.run (hprogress.length ▸ hindex) hnow hpos hle hran
  have hclock := now_le hrun
  refine ⟨_, _, hturn.trans (congrArg some hserve), ⟨hrun, ?_⟩, ?_⟩
  · rw [map_append]
    apply serve_queued hready hhead
    rw [hran.now] at hclock
    exact hclock
  · exact lt_of_lt_of_le (pending_ran hindex hpos hle hran hclock) hpending

theorem rr_initial (scheduler : CourseScheduler) : Queued none { scheduler } [] where
  rotating := Rotating.nil
  fair := Fair.nil
  waiting := by
    intro index hindex
    cases hindex
  known := by
    intro index hindex
    cases hindex
  served := by
    intro index hindex
    cases hindex
  away := by
    intro index hindex
    cases hindex

theorem rrLoop (hstart : start.Schedulable) (hslice : 0 < timeSlice)
    (h : Progress start state slices) (hqueued : Queued none state (slices.map (·.index))) :
    ∃ state' slices', (Progress start state' slices' ∧ Queued none state' (slices'.map (·.index))) ∧
      state'.scheduler.allTasksComplete ∧ ∀ fuel > state.pending,
        Loops.turnLoop (fun state => state.scheduler.allTasksComplete)
            (fun state => state.rrTurn timeSlice) fuel state slices =
          some (true, state', slices') := by
  apply @Loops.turnLoop_ends _ _ _ _ (fun state slices => Progress start state slices ∧
    Queued none state (slices.map (·.index))) _ _ _ _ ⟨h, hqueued⟩
  intro state slices hinv hleft
  exact hinv.1.rrTurn hstart hslice hinv.2 hleft

end Progress

def CourseScheduler.lastCompletion (scheduler : CourseScheduler) : ℕ :=
  scheduler.indices.sup fun index => (scheduler.task index).completionTime

open CourseScheduler

/-- What a run does with a task set: its slices follow one another and are a timeline that
conserves work and gives each task its burst, and the results are those of the timeline. -/
structure Conserves (start final : CourseScheduler) (slices : List RunSlice) : Prop where
  sequential : slices.Pairwise fun slice later => slice.start + slice.length ≤ later.start
  conserving : start.Conserving (timeline slices)
  finished : ∀ index < start.tasks.length,
    (timeline slices).count (some index) = start.bursts index
  lastBusy : ∀ slot ∈ (timeline slices).getLast?, slot.isSome
  completed : ∀ index < start.tasks.length, CompletedAt (timeline slices) index (start.bursts index)
    (final.task index).completionTime
  wait : ∀ index < start.tasks.length, start.arrivals index + start.bursts index +
    (final.task index).wait = (final.task index).completionTime
  cost : final.summary.totalSwitchCycleCost = start.totalBurst
  lastCompletion : final.lastCompletion = (timeline slices).length

namespace Progress

variable {start : CourseScheduler} {state : OfflineState} {slices : List RunSlice}

section

variable (h : Progress start state slices) {index : ℕ}

include h

theorem finished (hcomplete : state.scheduler.allTasksComplete)
    (hindex : index < start.tasks.length) :
    (state.scheduler.task index).remainingTime = 0 ∧
      (timeline slices).count (some index) = start.bursts index := by
  have hdone := allTasksComplete_eq_true.1 hcomplete index (h.length ▸ hindex)
  have hremaining := h.remaining index hindex
  omega

theorem arrival_le_completion {index time : ℕ} (hpos : 0 < start.bursts index)
    (hcompleted : CompletedAt (timeline slices) index (start.bursts index) time) :
    start.arrivals index + start.bursts index ≤ time ∧ time < 2 ^ 32 := by
  obtain ⟨-, hle, -, hcount⟩ := hcompleted
  have hline := of_append h.conserving
  rw [← take_append_drop time (timeline slices)] at hline
  have hsub := count_le_sub (of_append hline) index
  rw [hcount, length_take, Nat.min_eq_left hle] at hsub
  obtain ⟨latest, hlatest, hnow⟩ := h.bound
  have hbusy := h.busy_le
  have hclock := h.clock
  unfold uint32Max at hlatest
  omega

theorem wait_eq (hpos : 0 < start.bursts index)
    (hcompleted : CompletedAt (timeline slices) index (start.bursts index)
      (state.scheduler.task index).completionTime) :
    start.arrivals index + start.bursts index + (state.scheduler.task index).wait =
      (state.scheduler.task index).completionTime := by
  obtain ⟨hle, hlt⟩ := h.arrival_le_completion hpos hcompleted
  rw [CourseSchedulerTask.wait, CourseSchedulerTask.turnaround, uint32Sub, uint32Sub, h.arrival,
    h.burst]
  omega

theorem lastCompletion_eq (hcomplete : state.scheduler.allTasksComplete) :
    state.scheduler.lastCompletion = (timeline slices).length := by
  have hline := of_append h.conserving
  have hcompleted : ∀ index < start.tasks.length, CompletedAt (timeline slices) index
      (start.bursts index) (state.scheduler.task index).completionTime :=
    fun index hindex => h.completed index hindex (h.finished hcomplete hindex).1
  apply le_antisymm
  · apply Finset.sup_le
    intro index hindex
    rw [mem_indices, h.length] at hindex
    exact (hcompleted index hindex).2.1
  rcases eq_nil_or_concat (timeline slices) with hnil | ⟨before, slot, hconcat⟩
  · rw [hnil]
    exact Nat.zero_le _
  rw [concat_eq_append] at hconcat
  have hbusy := h.lastBusy slot (by rw [hconcat, List.getLast?_concat]; rfl)
  obtain ⟨index, rfl⟩ := Option.isSome_iff_exists.1 hbusy
  have hindex : index < start.tasks.length := by
    rw [hconcat] at hline
    generalize hwhole : before ++ [some index] = whole at hline
    cases hline with
    | nil => simp at hwhole
    | run _ htask =>
      have hparts := append_inj' hwhole rfl
      obtain rfl := Option.some.inj (List.cons.inj hparts.2).1
      exact mem_indices.1 htask
    | idle => simp at hwhole
  have hlast : (timeline slices).length ≤ (state.scheduler.task index).completionTime := by
    by_contra hlt
    obtain ⟨-, -, -, hcount⟩ := hcompleted index hindex
    have hwhole := (h.finished hcomplete hindex).2
    rw [hconcat, length_append, length_singleton] at hlt
    rw [hconcat, take_append_of_le_length (by omega)] at hcount
    rw [hconcat, count_append, count_singleton_self] at hwhole
    have hle := (take_sublist (state.scheduler.task index).completionTime
      before).count_le (some index)
    omega
  apply le_trans hlast
  apply Finset.le_sup (f := fun index => (state.scheduler.task index).completionTime)
  rw [mem_indices, h.length]
  exact hindex

theorem conserves (hstart : start.Schedulable)
    (hcomplete : state.scheduler.allTasksComplete) {final : CourseScheduler}
    (htasks : final.tasks = state.scheduler.tasks)
    (hcost : final.summary.totalSwitchCycleCost = state.scheduler.summary.totalSwitchCycleCost) :
    Conserves start final slices := by
  have htask : ∀ index, final.task index = state.scheduler.task index := by
    intro index
    rw [task, task, htasks]
  have hline := of_append h.conserving
  have hcompleted : ∀ index < start.tasks.length, CompletedAt (timeline slices) index
      (start.bursts index) (state.scheduler.task index).completionTime :=
    fun index hindex => h.completed index hindex (h.finished hcomplete hindex).1
  constructor
  · exact h.sequential
  · exact hline
  · exact fun index hindex => (h.finished hcomplete hindex).2
  · exact h.lastBusy
  · intro index hindex
    rw [htask]
    exact hcompleted index hindex
  · intro index hindex
    rw [htask]
    exact h.wait_eq (hstart.positive index hindex) (hcompleted index hindex)
  · rw [hcost, h.cost]
    apply busy_finished hline
    intro index hindex
    exact (h.finished hcomplete (mem_indices.1 hindex)).2
  · rw [← h.lastCompletion_eq hcomplete, lastCompletion, lastCompletion, indices, indices, htasks]
    exact Finset.sup_congr rfl fun index _ => by rw [htask]

end

end Progress

/-- The time when all tasks of a set are complete does not depend on the policy. -/
theorem Conserves.lastCompletion_unique {start final final' : CourseScheduler}
    {slices slices' : List RunSlice} (h : Conserves start final slices)
    (h' : Conserves start final' slices') : final.lastCompletion = final'.lastCompletion := by
  rw [h.lastCompletion, h'.lastCompletion]
  apply h.conserving.length_unique h'.conserving _ _ h.lastBusy h'.lastBusy
  · intro index hindex
    exact h.finished index (mem_indices.1 hindex)
  intro index hindex
  exact h'.finished index (mem_indices.1 hindex)

namespace CourseScheduler

variable {start : CourseScheduler}

variable {timeSlice : ℕ} {policy : CourseSchedPolicy}

theorem runPolicy_ends (hstart : start.Schedulable) (hslice : 0 < timeSlice)
    (hpolicy : policy ≠ .count) :
    ∃ state slices, Progress start state slices ∧ state.scheduler.allTasksComplete ∧
      (policy = .rr → Fair (slices.map (·.index))) ∧
        ∃ enough, ∀ fuel > enough,
          (start.beforeRun policy timeSlice).runPolicy fuel policy timeSlice =
            some (true, state.scheduler, slices) := by
  have hinitial := initial hstart policy timeSlice
  cases policy with
  | fcfs =>
    obtain ⟨state, slices, hprogress, hcomplete, hloop⟩ :=
      loop hstart fcfsTurn_runsReady hinitial
    refine ⟨state, slices, hprogress, hcomplete, by simp,
      pending { scheduler := start.beforeRun .fcfs timeSlice }, ?_⟩
    intro fuel hfuel
    rw [runPolicy, runFcfs, runLoop, hloop fuel hfuel]
    rfl
  | rr =>
    obtain ⟨state, slices, ⟨hprogress, hqueued⟩, hcomplete, hloop⟩ :=
      rrLoop hstart hslice hinitial (rr_initial _)
    refine ⟨state, slices, hprogress, hcomplete, fun _ => hqueued.fair,
      pending { scheduler := start.beforeRun .rr timeSlice }, ?_⟩
    intro fuel hfuel
    rw [runPolicy, runRr, if_neg hslice.ne', runLoop, hloop fuel hfuel]
    rfl
  | cfsLite =>
    obtain ⟨state, slices, hprogress, hcomplete, hloop⟩ :=
      loop hstart (cfsLiteTurn_runsReady hslice) hinitial
    refine ⟨state, slices, hprogress, hcomplete, by simp,
      pending { scheduler := start.beforeRun .cfsLite timeSlice }, ?_⟩
    intro fuel hfuel
    rw [runPolicy, runCfsLite, if_neg hslice.ne', runLoop, hloop fuel hfuel]
    rfl
  | count => exact absurd rfl hpolicy

theorem tasks_updateWaitTurnaround (scheduler : CourseScheduler) :
    scheduler.updateWaitTurnaround.tasks = scheduler.tasks := by
  unfold updateWaitTurnaround
  split_ifs <;> rfl

theorem cost_updateWaitTurnaround (scheduler : CourseScheduler) :
    scheduler.updateWaitTurnaround.summary.totalSwitchCycleCost =
      scheduler.summary.totalSwitchCycleCost := by
  unfold updateWaitTurnaround
  split_ifs <;> rfl

theorem run_ends (hstart : start.Schedulable) (hslice : 0 < timeSlice) (hpolicy : policy ≠ .count) :
    ∃ final slices, Conserves start final slices ∧ (policy = .rr → Fair (slices.map (·.index))) ∧
      ∃ enough, ∀ fuel > enough, start.run fuel policy timeSlice = some (true, final, slices) := by
  obtain ⟨state, slices, hprogress, hcomplete, hfair, enough, hrun⟩ :=
    runPolicy_ends hstart hslice hpolicy
  refine ⟨(state.scheduler.countRun policy).updateWaitTurnaround, slices, ?_, hfair, enough, ?_⟩
  · apply hprogress.conserves hstart hcomplete
    · rw [tasks_updateWaitTurnaround]
      rfl
    rw [cost_updateWaitTurnaround]
    rfl
  · intro fuel hfuel
    have hlength : start.tasks.length ≠ 0 := by
      simpa using hstart.nonempty
    rw [run, if_neg (not_or.2 ⟨hlength, hpolicy⟩), hrun fuel hfuel]

/-- Every policy runs a set of tasks to its end without wasting time: it succeeds, its slices
conserve work, all policies end at the same time, and round robin takes turns. -/
theorem run_workConserving (hstart : start.Schedulable) (hslice : 0 < timeSlice) :
    ∃ outcome : CourseSchedPolicy → CourseScheduler × List RunSlice,
      (∀ policy ≠ .count, ∃ enough, ∀ fuel > enough,
        start.run fuel policy timeSlice = some (true, outcome policy)) ∧
      (∀ policy ≠ .count, Conserves start (outcome policy).1 (outcome policy).2) ∧
      (∀ policy ≠ .count, ∀ other ≠ .count,
        (outcome policy).1.lastCompletion = (outcome other).1.lastCompletion) ∧
      Fair ((outcome .rr).2.map (·.index)) := by
  have hruns : ∀ policy : CourseSchedPolicy, ∃ outcome : CourseScheduler × List RunSlice,
      policy ≠ .count → Conserves start outcome.1 outcome.2 ∧
        (policy = .rr → Fair (outcome.2.map (·.index))) ∧
          ∃ enough, ∀ fuel > enough, start.run fuel policy timeSlice = some (true, outcome) := by
    intro policy
    by_cases hpolicy : policy = .count
    · exact ⟨(start, []), fun hne => absurd hpolicy hne⟩
    obtain ⟨final, slices, hrun⟩ := run_ends hstart hslice hpolicy
    exact ⟨(final, slices), fun _ => hrun⟩
  choose outcome houtcome using hruns
  refine ⟨outcome, ?_, ?_, ?_, ?_⟩
  · exact fun policy hpolicy => (houtcome policy hpolicy).2.2
  · exact fun policy hpolicy => (houtcome policy hpolicy).1
  · intro policy hpolicy other hother
    exact (houtcome policy hpolicy).1.lastCompletion_unique (houtcome other hother).1
  · exact (houtcome .rr (by decide)).2.1 rfl

end CourseScheduler

def gapTasks : CourseScheduler where
  tasks := [{ used := true, pid := 1, arrivalTime := 1, burstTime := 2, remainingTime := 2 },
    { used := true, pid := 2, arrivalTime := 7, burstTime := 3, remainingTime := 3 }]

theorem gapTasks_schedulable : gapTasks.Schedulable where
  nonempty := by simp [gapTasks]
  fits := by decide
  positive := by decide
  bounded := by decide

theorem gapTasks_workConserving : ∃ outcome : CourseSchedPolicy → CourseScheduler × List RunSlice,
      (∀ policy ≠ .count, ∃ enough, ∀ fuel > enough,
        gapTasks.run fuel policy 2 = some (true, outcome policy)) ∧
      (∀ policy ≠ .count, Conserves gapTasks (outcome policy).1 (outcome policy).2) ∧
      (∀ policy ≠ .count, ∀ other ≠ .count,
        (outcome policy).1.lastCompletion = (outcome other).1.lastCompletion) ∧
      Fair ((outcome .rr).2.map (·.index)) :=
  run_workConserving gapTasks_schedulable (by decide)

end VisualCpu
