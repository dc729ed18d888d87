import Mathlib.Data.List.Nodup

/-!
# Least recently used

The touches are a list, newest first. A cache holds as many of the distinct ones as fit.
-/

namespace VisualCpu.Lru

open List

variable {α : Type} [DecidableEq α]

/-- The distinct values, by their newest touch. -/
def recent : List α → List α
  | [] => []
  | a :: touched => a :: (recent touched).filter (· ≠ a)

theorem recent_nodup (touched : List α) : (recent touched).Nodup := by
  induction touched with
  | nil => exact nodup_nil
  | cons a touched ih => exact nodup_cons.2 ⟨by simp, ih.filter _⟩

theorem take_filter_ne {l : List α} (hl : l.Nodup) (a : α) (k : ℕ) :
    (l.filter (· ≠ a)).take k =
      if a ∈ l.take (k + 1) then (l.take (k + 1)).erase a else l.take k := by
  induction l generalizing k with
  | nil => simp
  | cons b l ih =>
    obtain ⟨hb, hl⟩ := nodup_cons.1 hl
    by_cases hab : b = a
    · subst hab
      have hrest : l.filter (· ≠ b) = l := by
        rw [filter_eq_self]
        intro c hc
        simpa using ne_of_mem_of_not_mem hc hb
      rw [filter_cons_of_neg (by simp), hrest]
      simp
    · cases k with
      | zero => simp [Ne.symm hab]
      | succ k =>
        rw [filter_cons_of_pos (by simpa using hab), take_succ_cons, ih hl k, take_succ_cons,
          take_succ_cons, erase_cons_tail (by simpa using hab)]
        simp only [mem_cons, Ne.symm hab, false_or]
        split <;> rfl

/-- A touch brings its value to the front. One that is missing takes the place of the last one of a
full cache. -/
theorem take_recent_cons (k : ℕ) (a : α) (touched : List α) :
    (recent (a :: touched)).take (k + 1) =
      a :: if a ∈ (recent touched).take (k + 1) then ((recent touched).take (k + 1)).erase a
        else if k + 1 ≤ ((recent touched).take (k + 1)).length then
          ((recent touched).take (k + 1)).dropLast
        else (recent touched).take (k + 1) := by
  rw [recent, take_succ_cons, take_filter_ne (recent_nodup touched)]
  split_ifs with hmem hfull
  · rfl
  · rw [length_take] at hfull
    rw [take_succ_eq_append_getElem (by omega), dropLast_concat]
  · rw [length_take] at hfull
    rw [take_of_length_le (by omega), take_of_length_le (by omega)]

end VisualCpu.Lru
