import Mathlib.Data.List.Rotate
import Mathlib.Data.List.TakeWhile

/-!
# Second-chance queues

The queue holds pages, oldest first, with a reference bit each. The page to replace is the
first one without its bit; the pages before it have moved to the back and lost theirs. A
circular array is such a queue, read from its hand on.
-/

namespace VisualCpu.SecondChance

open List

variable {α : Type} {l : List α} {hand : ℕ}

def select : List (α × Bool) → Option (α × List (α × Bool))
  | [] => none
  | (page, false) :: rest => some (page, rest)
  | (page, true) :: rest => select (rest ++ [(page, false)])
termination_by queue => queue.countP (·.2)

def cleared (entry : α × Bool) : α × Bool := (entry.1, false)

theorem select_split {before after : List (α × Bool)} (page : α)
    (hbefore : ∀ entry ∈ before, entry.2) :
    select (before ++ (page, false) :: after) = some (page, after ++ before.map cleared) := by
  induction before generalizing after with
  | nil => simp [select]
  | cons entry before ih =>
    obtain ⟨first, bit⟩ := entry
    obtain rfl : bit := hbefore _ mem_cons_self
    rw [List.cons_append, select, List.append_assoc, List.cons_append,
      ih fun entry hentry => hbefore entry (mem_cons_of_mem _ hentry)]
    simp [cleared]

theorem select_all {page : α} {rest : List (α × Bool)} (hrest : ∀ entry ∈ rest, entry.2) :
    select ((page, true) :: rest) = some (page, rest.map cleared) := by
  rw [select]
  exact select_split page hrest

theorem select_spec {queue : List (α × Bool)} (hne : queue ≠ []) :
    ∃ page bit rest, select queue = some (page, rest) ∧ (page, bit) ∈ queue ∧
      List.Perm (queue.map Prod.fst) (page :: rest.map Prod.fst) ∧
        (bit → ∀ entry ∈ queue, entry.2) := by
  have hfst : ∀ entries : List (α × Bool), (entries.map cleared).map Prod.fst =
    entries.map Prod.fst := by
    intro entries
    rw [map_map]
    rfl
  have hsplit := takeWhile_append_dropWhile (p := fun entry : α × Bool => entry.2) (l := queue)
  have hbits : ∀ entry ∈ queue.takeWhile (·.2), entry.2 := fun _ => mem_takeWhile_imp
  cases hdrop : queue.dropWhile (·.2) with
  | nil =>
    rw [hdrop, append_nil] at hsplit
    rw [hsplit] at hbits
    obtain ⟨⟨page, bit⟩, rest, rfl⟩ := exists_cons_of_ne_nil hne
    obtain rfl : bit := hbits _ mem_cons_self
    refine ⟨page, true, rest.map cleared, ?_, mem_cons_self, ?_, fun _ => hbits⟩
    · exact select_all fun entry hentry => hbits entry (mem_cons_of_mem _ hentry)
    rw [hfst]
    exact List.Perm.refl _
  | cons entry after =>
    obtain ⟨page, bit⟩ := entry
    have hbit : bit = false := by
      have hhead := List.head?_dropWhile_not (fun entry : α × Bool => entry.2) queue
      rw [hdrop] at hhead
      simpa using hhead
    subst hbit
    rw [hdrop] at hsplit
    rw [← hsplit]
    refine ⟨page, false, _, select_split page hbits, by simp, ?_, fun h => by cases h⟩
    rw [map_append, map_cons, map_append, hfst]
    exact perm_middle.trans (perm_append_comm.cons _)

theorem rotate_eq_cons (h : hand < l.length) :
    l.rotate hand = l[hand] :: (l.drop (hand + 1) ++ l.take hand) := by
  rw [rotate_eq_drop_append_take h.le, drop_eq_getElem_cons h]
  rfl

theorem rotate_set_succ (h : hand < l.length) (x : α) :
    (l.set hand x).rotate ((hand + 1) % l.length) = l.drop (hand + 1) ++ l.take hand ++ [x] := by
  have hlength : (l.set hand x).length = l.length := length_set
  rw [← hlength, rotate_mod, rotate_eq_drop_append_take (by omega), drop_set_of_lt (by omega),
    take_set, take_succ_eq_append_getElem h, set_append_right _ _ (by rw [length_take]; omega)]
  simp [Nat.min_eq_left h.le]

variable [DecidableEq α]

/-- A page is touched with a number of frames: it gets its bit, or it joins at the back, in the
place of another one when there is no frame left. -/
def touch (frames : ℕ) (queue : List (α × Bool)) (page : α) : List (α × Bool) :=
  if page ∈ queue.map Prod.fst then
    queue.map fun entry => if entry.1 = page then (page, true) else entry
  else if queue.length < frames then queue ++ [(page, true)]
  else
    match select queue with
    | none => queue
    | some (_, rest) => rest ++ [(page, true)]

def victim (frames : ℕ) (queue : List (α × Bool)) (page : α) : Option α :=
  if page ∈ queue.map Prod.fst ∨ queue.length < frames then none else (select queue).map Prod.fst

theorem fst_marked (queue : List (α × Bool)) (page : α) :
    (queue.map fun entry => if entry.1 = page then (page, true) else entry).map Prod.fst =
      queue.map Prod.fst := by
  rw [map_map]
  apply map_congr_left
  intro entry _
  by_cases h : entry.1 = page <;> simp [h]

theorem touch_cases {frames : ℕ} (hframes : 0 < frames) (queue : List (α × Bool)) (page : α) :
    ((page ∈ queue.map Prod.fst ∨ queue.length < frames) ∧ victim frames queue page = none ∧
      ∀ other, other ∈ (touch frames queue page).map Prod.fst ↔
        other = page ∨ other ∈ queue.map Prod.fst) ∨
    (page ∉ queue.map Prod.fst ∧ ¬queue.length < frames ∧ ∃ other bit rest,
      victim frames queue page = some other ∧ touch frames queue page = rest ++ [(page, true)] ∧
        (other, bit) ∈ queue ∧ List.Perm (queue.map Prod.fst) (other :: rest.map Prod.fst) ∧
          (bit → ∀ entry ∈ queue, entry.2)) := by
  by_cases hpage : page ∈ queue.map Prod.fst
  · refine .inl ⟨.inl hpage, if_pos (.inl hpage), fun other => ?_⟩
    rw [touch, if_pos hpage, fst_marked, or_iff_right_of_imp]
    rintro rfl
    exact hpage
  by_cases hroom : queue.length < frames
  · refine .inl ⟨.inr hroom, if_pos (.inr hroom), fun other => ?_⟩
    rw [touch, if_neg hpage, if_pos hroom, map_append, mem_append, or_comm]
    simp
  have hne : queue ≠ [] := by
    rintro rfl
    exact hroom hframes
  obtain ⟨other, bit, rest, hselect, hmem, hperm, hbit⟩ := select_spec hne
  refine .inr ⟨hpage, hroom, other, bit, rest, ?_, ?_, hmem, hperm, hbit⟩
  · rw [victim, if_neg (not_or.2 ⟨hpage, hroom⟩), hselect]
    rfl
  · rw [touch, if_neg hpage, if_neg hroom, hselect]

/-- The queue after some touches. -/
def run (frames : ℕ) (pages : List α) : List (α × Bool) := pages.foldl (touch frames) []

end VisualCpu.SecondChance
