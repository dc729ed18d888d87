import Mathlib.Data.Fintype.Basic
import VisualCpu.Library.IndexTypes

/-!
# Lists

General facts on lists of keys and lists of numbers.
-/

namespace VisualCpu.Lists

open List

theorem map_update_perm {ι : Type} [DecidableEq ι] {keys : List ι} (hkeys : keys.Nodup) {f : ι → ℕ}
    {i : ι} (hi : i ∈ keys) (v : ℕ) :
    (keys.map (Function.update f i v) ++ [f i]).Perm (keys.map f ++ [v]) := by
  induction keys with
  | nil => simp at hi
  | cons k keys ih =>
    rw [nodup_cons] at hkeys
    by_cases hk : k = i
    · subst hk
      have hrest : keys.map (Function.update f k v) = keys.map f :=
        map_congr_left fun j hj =>
          Function.update_of_ne (fun h => hkeys.1 (by simpa [h] using hj)) _ _
      rw [map_cons, Function.update_self, hrest, perm_iff_count]
      intro x
      simp only [map_cons, List.cons_append, count_cons, count_append, count_nil]
      omega
    · have hmem : i ∈ keys := by
        rcases mem_cons.1 hi with h | h
        · exact absurd h.symm hk
        · exact h
      simpa [Function.update_of_ne hk] using (ih hkeys.2 hmem).cons (f k)

theorem perm_cons_filter_ne {xs : List ℕ} (hnodup : xs.Nodup) {x : ℕ} (hx : x ∈ xs) :
    xs.Perm (x :: xs.filter (· ≠ x)) := by
  rw [perm_ext_iff_of_nodup hnodup]
  · intro y
    simp only [mem_cons, mem_filter, decide_eq_true_eq]
    constructor
    · intro hy
      by_cases h : y = x
      · exact .inl h
      · exact .inr ⟨hy, h⟩
    · rintro (rfl | ⟨hy, -⟩)
      · exact hx
      · exact hy
  · exact nodup_cons.2 ⟨by simp, hnodup.filter _⟩

theorem filter_ne_eq_self {xs : List ℕ} {x : ℕ} (hx : x ∉ xs) : xs.filter (· ≠ x) = xs := by
  rw [filter_eq_self]
  intro y hy
  simp only [ne_eq, decide_eq_true_eq]
  rintro rfl
  exact hx hy

end VisualCpu.Lists

/-!
## Searching an array of slots

The first index of a fixed array at which a test holds.
-/

namespace VisualCpu

@[irreducible] def firstSlot {n : ℕ} (test : Fin n → Bool) : Option (Fin n) := Fin.find? test

section

variable {n : ℕ} {test : Fin n → Bool} {i : Fin n} (h : firstSlot test = some i)

include h

theorem firstSlot_some : test i := by
  rw [firstSlot] at h
  exact Fin.eq_true_of_find?_eq_some h

theorem firstSlot_before {j : Fin n} (hj : j < i) : test j = false := by
  rw [firstSlot] at h
  exact Fin.eq_false_of_find?_eq_some_of_lt h j hj

end

theorem firstSlot_none {n : ℕ} {test : Fin n → Bool} (h : firstSlot test = none) (i : Fin n) :
    test i = false := by
  rw [firstSlot] at h
  exact Fin.eq_false_of_find?_eq_none h i

end VisualCpu
