import Mathlib.Data.List.Basic

/-!
# Bisection

The two halving loops of a sorted search over an interval of indices: the first index at
which a test fails, and an index that compares equal. Each is specified against the order
of the tests along the interval.
-/

namespace VisualCpu.Bisection

/-- The first index from `low` on, below `high`, at which the test fails. -/
def bisect (test : ℕ → Bool) (low high : ℕ) : ℕ :=
  if low < high then
    if test (low + (high - low) / 2) then bisect test (low + (high - low) / 2 + 1) high
    else bisect test low (low + (high - low) / 2)
  else low
termination_by high - low

/-- An index from `low` on, below `high`, that compares equal. -/
def bisectFind (compareAt : ℕ → Ordering) (low high : ℕ) : Option ℕ :=
  if low < high then
    match compareAt (low + (high - low) / 2) with
    | .eq => some (low + (high - low) / 2)
    | .lt => bisectFind compareAt (low + (high - low) / 2 + 1) high
    | .gt => bisectFind compareAt low (low + (high - low) / 2)
  else none
termination_by high - low

/-- Once the test fails it fails for the rest of the interval. -/
def Descending (test : ℕ → Bool) (high : ℕ) : Prop :=
  ∀ i j, i ≤ j → j < high → test j → test i

variable {test : ℕ → Bool}

theorem bisect_le {low high : ℕ} (hle : low ≤ high) :
    low ≤ bisect test low high ∧ bisect test low high ≤ high := by
  induction low, high using bisect.induct test with
  | case1 low high hlt htest ih =>
    rw [bisect, if_pos hlt, if_pos htest]
    obtain ⟨hlow, hhigh⟩ := ih (by omega)
    exact ⟨by omega, hhigh⟩
  | case2 low high hlt htest ih =>
    rw [bisect, if_pos hlt, if_neg htest]
    obtain ⟨hlow, hhigh⟩ := ih (by omega)
    exact ⟨hlow, by omega⟩
  | case3 low high hlt =>
    rw [bisect, if_neg hlt]
    exact ⟨Nat.le_refl _, hle⟩

theorem bisect_spec {low high : ℕ} (h : Descending test high) :
    ∀ i, low ≤ i → i < high → (test i ↔ i < bisect test low high) := by
  induction low, high using bisect.induct test with
  | case1 low high hlt htest ih =>
    intro i hlow hhigh
    rw [bisect, if_pos hlt, if_pos htest]
    by_cases hi : low + (high - low) / 2 + 1 ≤ i
    · exact ih h i hi hhigh
    have hafter := (@bisect_le test (low + (high - low) / 2 + 1) high (by omega)).1
    have hbefore := h i (low + (high - low) / 2) (by omega) (by omega) htest
    exact ⟨fun _ => by omega, fun _ => hbefore⟩
  | case2 low high hlt htest ih =>
    intro i hlow hhigh
    rw [bisect, if_pos hlt, if_neg htest]
    have hshort : Descending test (low + (high - low) / 2) :=
      fun i j hij hj => h i j hij (by omega)
    by_cases hi : i < low + (high - low) / 2
    · exact ih hshort i hlow hi
    have hafter := (@bisect_le test low (low + (high - low) / 2) (by omega)).2
    constructor
    · intro hholds
      exact absurd (h (low + (high - low) / 2) i (by omega) hhigh hholds) htest
    intro hbelow
    omega
  | case3 low high hlt =>
    intro i hlow hhigh
    omega

variable {compareAt : ℕ → Ordering}

theorem bisectFind_some {low high k : ℕ}
    (h : bisectFind compareAt low high = some k) : low ≤ k ∧ k < high ∧ compareAt k = .eq := by
  induction low, high using bisectFind.induct compareAt with
  | case1 low high hlt heq =>
    rw [bisectFind, if_pos hlt, heq] at h
    cases h
    exact ⟨by omega, by omega, heq⟩
  | case2 low high hlt hless ih =>
    rw [bisectFind, if_pos hlt, hless] at h
    obtain ⟨hlow, hhigh, heq⟩ := ih h
    exact ⟨by omega, hhigh, heq⟩
  | case3 low high hlt hgreater ih =>
    rw [bisectFind, if_pos hlt, hgreater] at h
    obtain ⟨hlow, hhigh, heq⟩ := ih h
    exact ⟨hlow, by omega, heq⟩
  | case4 low high hlt =>
    rw [bisectFind, if_neg hlt] at h
    cases h

/-- Comparisons go from less through equal to greater along the interval. -/
structure Ascending (compareAt : ℕ → Ordering) (high : ℕ) : Prop where
  less : ∀ i j, i ≤ j → j < high → compareAt j = .lt → compareAt i = .lt
  greater : ∀ i j, i ≤ j → j < high → compareAt i = .gt → compareAt j = .gt

theorem bisectFind_none {low high : ℕ} (h : Ascending compareAt high)
    (hnone : bisectFind compareAt low high = none) :
    ∀ i, low ≤ i → i < high → compareAt i ≠ .eq := by
  induction low, high using bisectFind.induct compareAt with
  | case1 low high hlt heq =>
    rw [bisectFind, if_pos hlt, heq] at hnone
    cases hnone
  | case2 low high hlt hless ih =>
    intro i hlow hhigh
    rw [bisectFind, if_pos hlt, hless] at hnone
    by_cases hi : low + (high - low) / 2 + 1 ≤ i
    · exact ih h hnone i hi hhigh
    rw [h.less i (low + (high - low) / 2) (by omega) (by omega) hless]
    decide
  | case3 low high hlt hgreater ih =>
    intro i hlow hhigh
    rw [bisectFind, if_pos hlt, hgreater] at hnone
    have hshort : Ascending compareAt (low + (high - low) / 2) :=
      ⟨fun i j hij hj => h.less i j hij (by omega), fun i j hij hj => h.greater i j hij (by omega)⟩
    by_cases hi : i < low + (high - low) / 2
    · exact ih hshort hnone i hlow hi
    rw [h.greater (low + (high - low) / 2) i (by omega) hhigh hgreater]
    decide
  | case4 low high hlt =>
    intro i hlow hhigh
    omega

end VisualCpu.Bisection
