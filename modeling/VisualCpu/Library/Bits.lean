import Mathlib.Data.BitVec

/-!
# Bit masks

Selecting, replacing and combining fields of a word that are given by masks.
-/

namespace VisualCpu.Bits

open BitVec

variable {w : ℕ}

theorem and_shift_ne_zero_iff (x : BitVec w) {k : ℕ} (hk : k < w) :
    x &&& 1#w <<< k ≠ 0 ↔ x.getLsbD k := by
  rw [← twoPow_eq, and_twoPow]
  cases x.getLsbD k with
  | false => simp
  | true =>
    simp only [if_true, iff_true]
    intro hzero
    have := congrArg (·.getLsbD k) hzero
    simp [hk] at this

/-- Replacing the field under `m` leaves only the new value there. -/
theorem replace_and_self (x y m : BitVec w) : (x &&& ~~~m ||| y) &&& m = y &&& m := by
  ext i hi
  simp only [getElem_and, getElem_or, getElem_not]
  cases m[i] <;> simp

theorem clear_and_of_disjoint {m n : BitVec w} (h : m &&& n = 0) (x : BitVec w) :
    x &&& ~~~m &&& n = x &&& n := by
  ext i hi
  have hi' := congrArg (·[i]) h
  simp only [getElem_and, BitVec.getElem_zero, ofNat_eq_ofNat] at hi'
  cases hm : m[i] <;> cases hn : n[i] <;> simp_all

theorem or_and_of_disjoint {y n : BitVec w} (h : y &&& n = 0) (x : BitVec w) :
    (x ||| y) &&& n = x &&& n := by
  ext i hi
  have hi' := congrArg (·[i]) h
  simp only [getElem_and, BitVec.getElem_zero, ofNat_eq_ofNat] at hi'
  cases hy : y[i] <;> cases hn : n[i] <;> simp_all

theorem clear_and_self (x m : BitVec w) : x &&& ~~~m &&& m = 0 := by
  ext i hi
  simp

/-- Every bit of the first word is set in the second. -/
def Subset (x y : BitVec w) : Prop := ∀ i, x.getLsbD i → y.getLsbD i

theorem Subset.refl (x : BitVec w) : Subset x x := fun _ h => h

theorem Subset.trans {x y z : BitVec w} (hxy : Subset x y) (hyz : Subset y z) : Subset x z :=
  fun i h => hyz i (hxy i h)

theorem subset_or_left (x y : BitVec w) : Subset x (x ||| y) := by
  intro i hi
  simp [hi]

theorem subset_of_masked {x y m : BitVec w} (hout : x &&& ~~~m = y &&& ~~~m)
    (hin : Subset (x &&& m) y) : Subset x y := by
  intro i hi
  have hlt : i < w := lt_of_getLsbD hi
  cases hm : m.getLsbD i with
  | false =>
    have hbit := congrArg (·.getLsbD i) hout
    simp only [getLsbD_and, getLsbD_not, hlt, hm, hi] at hbit
    simpa using hbit.symm
  | true => exact hin i (by simp [hi, hm])

end VisualCpu.Bits
