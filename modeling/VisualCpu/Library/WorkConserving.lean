import Mathlib.Algebra.Order.BigOperators.Group.Finset

/-!
# Work-conserving schedules

A timeline tells for every unit of time which task one processor runs, if any. It is
work-conserving when a task runs only after it arrived and while it has work left, and the
processor is idle only when no task that arrived has work left. How long the processor was
busy up to a time then depends on the arrivals and the bursts alone, and with it the time
when all work is done.
-/

namespace VisualCpu

open List Finset

variable {ι : Type} [DecidableEq ι] {tasks : Finset ι} {arrival burst : ι → ℕ}

inductive WorkConserving (tasks : Finset ι) (arrival burst : ι → ℕ) : List (Option ι) → Prop
  | nil : WorkConserving tasks arrival burst []
  | run {line : List (Option ι)} {task : ι} (h : WorkConserving tasks arrival burst line)
      (htask : task ∈ tasks) (harrived : arrival task ≤ line.length)
      (hleft : line.count (some task) < burst task) :
      WorkConserving tasks arrival burst (line ++ [some task])
  | idle {line : List (Option ι)} (h : WorkConserving tasks arrival burst line)
      (hdone : ∀ task ∈ tasks, arrival task ≤ line.length → line.count (some task) = burst task) :
      WorkConserving tasks arrival burst (line ++ [none])

namespace WorkConserving

variable {line line' : List (Option ι)} {task : ι}

theorem append_run (h : WorkConserving tasks arrival burst line) (htask : task ∈ tasks)
    (harrived : arrival task ≤ line.length) {n : ℕ}
    (hleft : line.count (some task) + n ≤ burst task) :
    WorkConserving tasks arrival burst (line ++ List.replicate n (some task)) := by
  induction n with
  | zero => simpa using h
  | succ n ih =>
    rw [List.replicate_succ', ← List.append_assoc]
    apply (ih (by omega)).run htask
    · rw [length_append]
      omega
    rw [count_append, count_replicate_self]
    omega

theorem append_idle (h : WorkConserving tasks arrival burst line) {n : ℕ}
    (hdone : ∀ task ∈ tasks, arrival task < line.length + n → line.count (some task) = burst task) :
    WorkConserving tasks arrival burst (line ++ List.replicate n none) := by
  induction n with
  | zero => simpa using h
  | succ n ih =>
    rw [List.replicate_succ', ← List.append_assoc]
    apply (ih fun task htask harrived => hdone task htask (by omega)).idle
    intro task htask harrived
    rw [length_append, length_replicate] at harrived
    rw [count_append, count_replicate, hdone task htask (by omega)]
    simp

theorem of_append {line later : List (Option ι)}
    (h : WorkConserving tasks arrival burst (line ++ later)) :
    WorkConserving tasks arrival burst line := by
  induction later using reverseRecOn with
  | nil => simpa using h
  | append_singleton later slot ih =>
    apply ih
    rw [← List.append_assoc] at h
    generalize hline : line ++ later ++ [slot] = whole at h
    cases h with
    | nil => simp at hline
    | run h =>
      rw [(append_inj' hline rfl).1]
      exact h
    | idle h =>
      rw [(append_inj' hline rfl).1]
      exact h

theorem count_le (h : WorkConserving tasks arrival burst line) (htask : task ∈ tasks) :
    line.count (some task) ≤ burst task := by
  induction h with
  | nil => exact Nat.zero_le _
  | @run line other h _ _ hleft ih =>
    by_cases heq : other = task
    · subst heq
      rw [count_append, count_singleton_self]
      omega
    · simpa [count_append, count_singleton, heq] using ih
  | idle h _ ih => simpa [count_append, count_singleton] using ih

theorem count_le_sub (h : WorkConserving tasks arrival burst line) (task : ι) :
    line.count (some task) ≤ line.length - arrival task := by
  induction h with
  | nil => exact Nat.zero_le _
  | @run line other h _ harrived _ ih =>
    rw [length_append, length_singleton]
    by_cases heq : other = task
    · subst heq
      rw [count_append, count_singleton_self]
      omega
    · simp only [count_append, count_singleton, beq_iff_eq, Option.some.injEq, heq,
        if_false, Nat.add_zero]
      omega
  | idle h _ ih =>
    rw [length_append, length_singleton, count_append]
    simp only [count_singleton, beq_iff_eq, reduceCtorEq, if_false, Nat.add_zero]
    omega

/-- The units of time in which the processor runs a task. -/
def busy (line : List (Option ι)) : ℕ := line.countP Option.isSome

omit [DecidableEq ι] in
@[simp] theorem busy_append (line later : List (Option ι)) :
    busy (line ++ later) = busy line + busy later :=
  countP_append

theorem busy_eq_sum (h : WorkConserving tasks arrival burst line) :
    busy line = ∑ task ∈ tasks, line.count (some task) := by
  induction h with
  | nil => simp [busy]
  | @run line other h htask _ _ ih =>
    rw [busy_append, ih]
    simp only [count_append, sum_add_distrib, Nat.add_left_cancel_iff]
    rw [sum_eq_single_of_mem other htask]
    · simp [busy]
    intro task _ hne
    simp [hne.symm]
  | idle h _ ih =>
    rw [busy_append, ih]
    simp [busy, count_append]

def arrivedWork (tasks : Finset ι) (arrival burst : ι → ℕ) (time : ℕ) : ℕ :=
  ∑ task ∈ tasks with arrival task ≤ time, burst task

theorem busy_eq_arrived (h : WorkConserving tasks arrival burst line) :
    busy line = ∑ task ∈ tasks with arrival task ≤ line.length, line.count (some task) := by
  rw [h.busy_eq_sum]
  symm
  apply sum_subset (filter_subset _ _)
  intro task htask hnot
  rw [Finset.mem_filter, not_and] at hnot
  have hlate := hnot htask
  have hcount := h.count_le_sub task
  omega

theorem next_isSome_iff {slot : Option ι}
    (h : WorkConserving tasks arrival burst (line ++ [slot])) :
    slot.isSome ↔ busy line < arrivedWork tasks arrival burst line.length := by
  have hline := h.of_append
  rw [hline.busy_eq_arrived, arrivedWork]
  generalize hwhole : line ++ [slot] = whole at h
  cases h with
  | nil => simp at hwhole
  | @run before task h htask harrived hleft =>
    obtain ⟨rfl, hslot⟩ := append_inj' hwhole rfl
    obtain rfl : slot = some task := by simpa using hslot
    simp only [Option.isSome_some, true_iff]
    apply Finset.sum_lt_sum
    · intro other hother
      exact hline.count_le (mem_filter.1 hother).1
    · exact ⟨task, mem_filter.2 ⟨htask, harrived⟩, hleft⟩
  | @idle before h hdone =>
    obtain ⟨rfl, hslot⟩ := append_inj' hwhole rfl
    obtain rfl : slot = none := by simpa using hslot
    simp only [Option.isSome_none, Bool.false_eq_true, false_iff, not_lt]
    apply le_of_eq
    apply sum_congr rfl
    intro task htask
    obtain ⟨hmem, harrived⟩ := mem_filter.1 htask
    exact (hdone task hmem harrived).symm

theorem busy_unique (h : WorkConserving tasks arrival burst line)
    (h' : WorkConserving tasks arrival burst line') (hlength : line.length = line'.length) :
    busy line = busy line' := by
  induction line using reverseRecOn generalizing line' with
  | nil =>
    obtain rfl : line' = [] := length_eq_zero_iff.1 hlength.symm
    rfl
  | append_singleton line slot ih =>
    rcases eq_nil_or_concat line' with rfl | ⟨before, slot', rfl⟩
    · simp at hlength
    rw [concat_eq_append] at h' hlength ⊢
    have hbefore : line.length = before.length := by simpa using hlength
    have hbusy := ih h.of_append h'.of_append hbefore
    have hnext : slot.isSome = slot'.isSome := by
      rw [Bool.eq_iff_iff, h.next_isSome_iff, h'.next_isSome_iff, hbusy, hbefore]
    rw [busy_append, busy_append, hbusy]
    simp [busy, countP_cons, hnext]

/-- All work of the tasks is done. -/
def Finished (tasks : Finset ι) (burst : ι → ℕ) (line : List (Option ι)) : Prop :=
  ∀ task ∈ tasks, line.count (some task) = burst task

section

variable (h : WorkConserving tasks arrival burst line)

include h

theorem busy_finished
    (hfinished : Finished tasks burst line) : busy line = ∑ task ∈ tasks, burst task := by
  rw [h.busy_eq_sum]
  exact sum_congr rfl hfinished

theorem length_le_of_finished
    (h' : WorkConserving tasks arrival burst line') (hfinished : Finished tasks burst line)
    (hfinished' : Finished tasks burst line') (hlast : ∀ slot ∈ line'.getLast?, slot.isSome) :
    line'.length ≤ line.length := by
  by_contra hnot
  have hle : line.length ≤ line'.length := by omega
  have hsplit := take_append_drop line.length line'
  rw [← hsplit] at h'
  have hbusy := h.busy_unique h'.of_append (by simp [hle])
  rw [h.busy_finished hfinished] at hbusy
  rw [hsplit] at h'
  have htotal := h'.busy_finished hfinished'
  rw [← hsplit, busy_append, ← hbusy] at htotal
  -- the last unit of time is busy and lies behind the end of the other timeline
  have hrest : line'.drop line.length ≠ [] := by
    rw [Ne, drop_eq_nil_iff]
    omega
  have hslot : (line'.drop line.length).getLast hrest ∈ line'.getLast? := by
    rw [getLast_drop, List.getLast?_eq_getLast_of_ne_nil]
    rfl
  have hpos : 0 < busy (line'.drop line.length) :=
    countP_pos_iff.2 ⟨_, getLast_mem hrest, hlast _ hslot⟩
  omega

theorem length_unique
    (h' : WorkConserving tasks arrival burst line') (hfinished : Finished tasks burst line)
    (hfinished' : Finished tasks burst line') (hlast : ∀ slot ∈ line.getLast?, slot.isSome)
    (hlast' : ∀ slot ∈ line'.getLast?, slot.isSome) : line.length = line'.length :=
  le_antisymm (h'.length_le_of_finished h hfinished' hfinished hlast)
    (h.length_le_of_finished h' hfinished hfinished' hlast')

end

end WorkConserving

end VisualCpu
