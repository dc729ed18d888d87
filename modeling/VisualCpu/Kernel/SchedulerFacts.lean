import VisualCpu.Kernel.CourseSystem

/-!
# What a scheduler tick does to the processes

A tick writes states only to hand the CPU over: from ready or running to ready or running.
-/

namespace VisualCpu

open Bool

/-- Writes of the states of processes that are ready or running, to ready or running. -/
inductive CpuTurns (table : CourseProcessTable) : CourseProcessTable → Prop
  | refl : CpuTurns table table
  | turn {table' table'' : CourseProcessTable} {i : ProcessSlot} {state : CourseProcessState}
      (h : CpuTurns table table') (hused : (table'.cards i).used)
      (hsource : (table'.cards i).state = .ready ∨ (table'.cards i).state = .running)
      (htarget : state = .ready ∨ state = .running)
      (hcards : table''.cards =
        Function.update table'.cards i { table'.cards i with state := state })
      (hnext : table''.nextPid = table'.nextPid) : CpuTurns table table''

theorem CpuTurns.trans {table table' table'' : CourseProcessTable} (h : CpuTurns table table')
    (h' : CpuTurns table' table'') : CpuTurns table table'' := by
  induction h' with
  | refl => exact h
  | turn _ hused hsource htarget hcards hnext ih =>
    exact .turn ih hused hsource htarget hcards hnext

namespace CourseProcessTable

section

variable {table : CourseProcessTable} {pid : ℕ} {i : ProcessSlot} (h : table.find pid = some i)
  {state : CourseProcessState}

include h

theorem setState_self (hstate : state ≠ .unused) :
    table.setState (table.processes i).pid state =
      (table.setProcess i { table.processes i with state := state }, true) := by
  have hpid : (table.processes i).pid = pid := (find_some h).2.2
  rw [hpid]
  exact setState_some hstate h

theorem setState_turns (hsource : (table.cards i).state = .ready ∨ (table.cards i).state = .running)
    (htarget : state = .ready ∨ state = .running) :
    CpuTurns table (table.setProcess i { table.processes i with state := state }) :=
  .turn .refl (find_some h).2.1 hsource htarget (setProcess_cards _ _ _) rfl

end

end CourseProcessTable

namespace CourseOnlineScheduler

open CourseProcessTable

variable {scheduler : CourseOnlineScheduler} {table : CourseProcessTable} {index : ℕ}

theorem processAt_some {i : ProcessSlot} (h : scheduler.processAt table index = some i) :
    ∃ task, scheduler.tasks[index]? = some task ∧ task.used ∧ scheduler.bound ∧
      table.find task.pid = some i := by
  simp only [processAt] at h
  split at h
  · cases h
  rename_i task htask
  split at h
  · rename_i hused
    rw [and_eq_true] at hused
    exact ⟨task, htask, hused.1, hused.2, h⟩
  · cases h

theorem releaseCurrent_cases : (scheduler.releaseCurrent table).1 = scheduler.withoutCurrent ∧
      ((scheduler.releaseCurrent table).2 = table ∨
        ∃ i pid, table.find pid = some i ∧ (table.cards i).state = .running ∧
          scheduler.currentRunning table ∧
          (scheduler.releaseCurrent table).2 =
            table.setProcess i { table.processes i with state := .ready }) := by
  simp only [releaseCurrent]
  split
  · exact ⟨rfl, .inl rfl⟩
  rename_i hvalid
  split
  · exact ⟨rfl, .inl rfl⟩
  rename_i i hat
  obtain ⟨task, -, -, -, hfind⟩ := processAt_some hat
  split
  · rename_i hrunning
    refine ⟨rfl, .inr ⟨i, task.pid, hfind, hrunning, ?_, ?_⟩⟩
    · simp only [not_eq_true, not_eq_false'] at hvalid
      simp [currentRunning, hvalid, hat, hrunning]
    · simp only [setState_self hfind (by simp : CourseProcessState.ready ≠ .unused)]
  · exact ⟨rfl, .inl rfl⟩

theorem releaseCurrent_turns : CpuTurns table (scheduler.releaseCurrent table).2 := by
  rcases releaseCurrent_cases.2 with h | ⟨i, pid, hfind, hrunning, -, h⟩
  · rw [h]
    exact .refl
  rw [h]
  exact setState_turns hfind (.inr hrunning) (.inl rfl)

theorem demotePrevious_cases (nextPid : ℕ) : (scheduler.demotePrevious table nextPid = table ∧
      ∀ i, scheduler.processAt table scheduler.currentIndex = some i →
        (table.cards i).state = .running → (table.cards i).pid = nextPid) ∨
    ∃ i, scheduler.processAt table scheduler.currentIndex = some i ∧
      (table.cards i).pid ≠ nextPid ∧ (table.cards i).state = .running ∧
      scheduler.demotePrevious table nextPid =
        table.setProcess i { table.processes i with state := .ready } := by
  simp only [demotePrevious]
  cases hat : scheduler.processAt table scheduler.currentIndex with
  | none => exact .inl ⟨rfl, fun i hi => by cases hi⟩
  | some i =>
    obtain ⟨task, -, -, -, hfind⟩ := processAt_some hat
    simp only
    split
    · rename_i hrunning
      refine .inr ⟨i, rfl, hrunning.1, hrunning.2, ?_⟩
      simp only [setState_self hfind (by simp : CourseProcessState.ready ≠ .unused)]
    rename_i hkeep
    refine .inl ⟨rfl, fun j hj hrunning => ?_⟩
    cases hj
    by_contra hpid
    exact hkeep ⟨hpid, hrunning⟩

theorem demotePrevious_turns (nextPid : ℕ) :
    CpuTurns table (scheduler.demotePrevious table nextPid) := by
  rcases demotePrevious_cases nextPid with ⟨h, -⟩ | ⟨i, hat, -, hrunning, h⟩
  · rw [h]
    exact .refl
  obtain ⟨task, -, -, -, hfind⟩ := processAt_some hat
  rw [h]
  exact setState_turns hfind (.inr hrunning) (.inl rfl)

theorem processCfsCandidate_some
    (h : scheduler.processCfsCandidate table index) :
    ∃ i, scheduler.processAt table index = some i ∧
      ((table.cards i).state = .ready ∨
        index = scheduler.currentIndex ∧ (table.cards i).state = .running) := by
  simp only [processCfsCandidate, Option.any_eq_true, and_eq_true, or_eq_true,
    beq_iff_eq] at h
  obtain ⟨i, hat, -, hstate⟩ := h
  exact ⟨i, hat, hstate⟩

theorem select_cases (nextIndex : ℕ) : (scheduler.indexValid nextIndex = false ∧
      scheduler.select table nextIndex = (scheduler.withoutCurrent, table, true)) ∨
    (scheduler.processCfsCandidate table nextIndex = false ∧
      scheduler.select table nextIndex = (scheduler, table, false)) ∨
    ∃ i task, scheduler.tasks[nextIndex]? = some task ∧ table.find task.pid = some i ∧
      ((table.cards i).state = .ready ∨
        nextIndex = scheduler.currentIndex ∧ (table.cards i).state = .running) ∧
      scheduler.select table nextIndex =
        ({ scheduler.recordContextSwitch task.pid with
            currentIndex := nextIndex
            sliceUsed := 0
            summary := { (scheduler.recordContextSwitch task.pid).summary with
              currentPid := task.pid } },
          scheduler.demotePrevious
            (table.setProcess i { table.processes i with state := .running }) task.pid, true) := by
  simp only [select]
  split
  · rename_i hvalid
    simp only [Bool.not_eq_eq_eq_not, Bool.not_true] at hvalid
    exact .inl ⟨hvalid, rfl⟩
  split
  · rename_i hcandidate
    simp only [Bool.not_eq_eq_eq_not, Bool.not_true] at hcandidate
    exact .inr (.inl ⟨hcandidate, rfl⟩)
  rename_i hcandidate
  simp only [Bool.not_eq_true, Bool.not_eq_false'] at hcandidate
  obtain ⟨i, hat, hstate⟩ := processCfsCandidate_some hcandidate
  obtain ⟨task, htask, -, -, hfind⟩ := processAt_some hat
  have hpid : (table.processes i).pid = task.pid := (find_some hfind).2.2
  have hset : table.setState task.pid .running =
      (table.setProcess i { table.processes i with state := .running }, true) :=
    setState_some (by simp) hfind
  refine .inr (.inr ⟨i, task, htask, hfind, hstate, ?_⟩)
  simp only [hat, hpid, hset]

theorem select_turns (nextIndex : ℕ) : CpuTurns table (scheduler.select table nextIndex).2.1 := by
  rcases @select_cases scheduler table nextIndex with
    ⟨-, h⟩ | ⟨-, h⟩ | ⟨i, task, -, hfind, hstate, h⟩
  · rw [h]
    exact .refl
  · rw [h]
    exact .refl
  rw [h]
  have hsource : (table.cards i).state = .ready ∨ (table.cards i).state = .running := by
    rcases hstate with hstate | hstate
    · exact .inl hstate
    · exact .inr hstate.2
  exact (setState_turns hfind hsource (.inr rfl)).trans (demotePrevious_turns _)

theorem selectNext_turns (previousIndex : ℕ) :
    CpuTurns table (scheduler.selectNext table previousIndex).2.1 := by
  simp only [selectNext]
  split
  · exact select_turns _
  · exact select_turns _
  · exact select_turns _
  · exact .refl

theorem prepareCurrent_turns : CpuTurns table (scheduler.prepareCurrent table).2.1 := by
  simp only [prepareCurrent]
  split
  · exact releaseCurrent_turns.trans (selectNext_turns _)
  split
  · exact .refl
  · split
    · exact selectNext_turns _
    · exact .refl
  · split
    · exact select_turns _
    · exact .refl
  · exact .refl

theorem tick_turns : CpuTurns table (scheduler.tick table).2.1 := by
  simp only [tick]
  split
  · exact .refl
  split
  · rename_i prepared table' hprepare
    have hturns := @prepareCurrent_turns { scheduler with summary := { scheduler.summary with
      ticks := succ32 scheduler.summary.ticks } } table
    rwa [hprepare] at hturns
  rename_i prepared table' hprepare
  have hturns := @prepareCurrent_turns { scheduler with summary := { scheduler.summary with
    ticks := succ32 scheduler.summary.ticks } } table
  rw [hprepare] at hturns
  split
  · exact hturns
  · exact hturns

end CourseOnlineScheduler
end VisualCpu
