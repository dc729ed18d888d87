import Mathlib.Algebra.Order.Ring.Abs
import Mathlib.Data.BitVec
import Mathlib.Tactic.Ring
import Mathlib.Tactic.Linarith

/-!
# Two-operand arithmetic of a register machine

The instructions of the base integer set and of its multiply extension, given at any width by
their exact integer result. The lemmas say which bit-vector operation computes each of them.
-/

namespace VisualCpu

open BitVec Nat

/-- The two-operand instructions. -/
inductive ArithOp
  | add | sub | sll | slt | sltu | xor | srl | sra | or | and
  | mul | mulh | mulhsu | mulhu | div | divu | rem | remu
  deriving DecidableEq

namespace ArithOp

variable {w : ℕ}

def shiftAmount (b : BitVec w) : ℕ := b.toNat % w

/-- The exact result, before it is cut to the width. Division rounds towards zero; a quotient
by zero has all bits set and a remainder by zero is the dividend. -/
def exact (op : ArithOp) (a b : BitVec w) : ℤ :=
  match op with
  | .add => a.toInt + b.toInt
  | .sub => a.toInt - b.toInt
  | .sll => a.toInt * 2 ^ shiftAmount b
  | .slt => if a.toInt < b.toInt then 1 else 0
  | .sltu => if a.toNat < b.toNat then 1 else 0
  | .xor => (a ^^^ b).toInt
  | .srl => a.toNat / 2 ^ shiftAmount b
  | .sra => a.toInt / 2 ^ shiftAmount b
  | .or => (a ||| b).toInt
  | .and => (a &&& b).toInt
  | .mul => a.toInt * b.toInt
  | .mulh => a.toInt * b.toInt / 2 ^ w
  | .mulhsu => a.toInt * b.toNat / 2 ^ w
  | .mulhu => a.toNat * b.toNat / 2 ^ w
  | .div => if b.toInt = 0 then -1 else a.toInt.tdiv b.toInt
  | .divu => if b.toNat = 0 then -1 else a.toNat / b.toNat
  | .rem => if b.toInt = 0 then a.toInt else a.toInt.tmod b.toInt
  | .remu => if b.toNat = 0 then a.toNat else a.toNat % b.toNat

/-- The result in a register of the width of the operands. -/
def result (op : ArithOp) (a b : BitVec w) : BitVec w := BitVec.ofInt w (op.exact a b)

end ArithOp

theorem setWidth_eq_ofInt {v w : ℕ} (x : BitVec v) (h : w ≤ v) :
    x.setWidth w = BitVec.ofInt w x.toInt := by
  rw [← signExtend_eq_setWidth_of_le x h]
  rfl

theorem ofInt_toNat {w : ℕ} (x : BitVec w) : BitVec.ofInt w x.toNat = x := by
  rw [ofInt_natCast, ofNat_toNat, setWidth_eq]

theorem toInt_eq_zero_iff {w : ℕ} (x : BitVec w) : x.toInt = 0 ↔ x = 0 := by
  constructor
  · intro h
    apply eq_of_toInt_eq
    simpa using h
  · rintro rfl
    simp

theorem toNat_eq_zero_iff {w : ℕ} (x : BitVec w) : x.toNat = 0 ↔ x = 0 := by
  constructor
  · intro h
    apply eq_of_toNat_eq
    simpa using h
  · rintro rfl
    simp

namespace ArithOp

variable {w : ℕ} (a b : BitVec w)

theorem result_add : result .add a b = a + b := by
  simp [result, exact, ofInt_add]

theorem result_sub : result .sub a b = a - b := by
  apply eq_of_toInt_eq
  simp [result, exact]

theorem result_mul : result .mul a b = a * b := by
  simp [result, exact, ofInt_mul]

theorem result_xor : result .xor a b = a ^^^ b := ofInt_toInt

theorem result_or : result .or a b = a ||| b := ofInt_toInt

theorem result_and : result .and a b = a &&& b := ofInt_toInt

theorem result_slt : result .slt a b = if a.slt b then 1 else 0 := by
  simp only [result, exact, slt_iff_toInt_lt]
  split <;> simp

theorem result_sltu : result .sltu a b = if a.ult b then 1 else 0 := by
  simp only [result, exact, ult_iff_lt, lt_def]
  split <;> simp

theorem result_sll : result .sll a b = a <<< shiftAmount b := by
  apply eq_of_toInt_eq
  have hshift : (a <<< shiftAmount b).toInt = (a.toInt * 2 ^ shiftAmount b).bmod (2 ^ w) := by
    rw [toInt_shiftLeft, Nat.shiftLeft_eq]
    push_cast
    rw [← Int.bmod_mul_bmod, toInt_eq_toNat_bmod, Int.bmod_mul_bmod]
  simp [result, exact, hshift]

theorem result_srl : result .srl a b = a >>> shiftAmount b := by
  apply eq_of_toNat_eq
  have hcast : (a.toNat : ℤ) / 2 ^ shiftAmount b = ((a.toNat / 2 ^ shiftAmount b : ℕ) : ℤ) := by
    rfl
  have hlt : a.toNat / 2 ^ shiftAmount b < 2 ^ w := (div_le_self _ _).trans_lt a.isLt
  simp only [result, exact, hcast, ofInt_natCast, toNat_ofNat,
    toNat_ushiftRight, shiftRight_eq_div_pow]
  exact mod_eq_of_lt hlt

theorem result_sra : result .sra a b = a.sshiftRight (shiftAmount b) := by
  simp only [result, exact, sshiftRight, Int.shiftRight_eq_div_pow]
  norm_cast

theorem ofInt_div_eq_high {x : BitVec (w + w)} {n : ℤ} (h : x.toInt = n) :
    BitVec.ofInt w (n / 2 ^ w) = (x.sshiftRight w).setWidth w := by
  rw [setWidth_eq_ofInt _ (le_add_left w w), toInt_sshiftRight, h, Int.shiftRight_eq_div_pow]
  norm_cast

theorem toInt_mul_of_lt (hw : 0 < w) {x y : BitVec (w + w)} (hx : |x.toInt| ≤ 2 ^ (w - 1))
    (hy : |y.toInt| < 2 ^ w) : (x * y).toInt = x.toInt * y.toInt := by
  have hbound : |x.toInt * y.toInt| < 2 ^ (w - 1) * 2 ^ w := by
    rw [abs_mul]
    have hnonneg := abs_nonneg x.toInt
    have hpos : (0 : ℤ) < 2 ^ (w - 1) := by positivity
    calc |x.toInt| * |y.toInt| ≤ 2 ^ (w - 1) * |y.toInt| :=
          mul_le_mul_of_nonneg_right hx (abs_nonneg _)
      _ < 2 ^ (w - 1) * 2 ^ w := mul_lt_mul_of_pos_left hy hpos
  have hpow : ((2 ^ (w + w) : ℕ) : ℤ) = 2 * (2 ^ (w - 1) * 2 ^ w) := by
    obtain ⟨n, rfl⟩ := exists_eq_succ_of_ne_zero hw.ne'
    push_cast
    simp only [succ_eq_add_one]
    ring
  rw [abs_lt] at hbound
  rw [toInt_mul, Int.bmod_eq_of_le_mul_two] <;> rw [hpow] <;> linarith [hbound.1, hbound.2]

theorem abs_toInt_le : |a.toInt| ≤ 2 ^ (w - 1) := by
  have hlo := a.le_toInt
  have hhi := a.toInt_lt
  rw [abs_le]
  constructor <;> linarith

theorem result_mulh (hw : 0 < w) :
    result .mulh a b =
      ((a.signExtend (w + w) * b.signExtend (w + w)).sshiftRight w).setWidth w := by
  have hle : w ≤ w + w := le_add_left w w
  have ha := abs_toInt_le a
  have hb : |b.toInt| < 2 ^ w :=
    (abs_toInt_le b).trans_lt (pow_lt_pow_right₀ (by norm_num) (sub_one_lt hw.ne'))
  apply ofInt_div_eq_high
  rw [toInt_mul_of_lt hw, toInt_signExtend_of_le hle, toInt_signExtend_of_le hle]
  · rwa [toInt_signExtend_of_le hle]
  · rwa [toInt_signExtend_of_le hle]

theorem toInt_setWidth_double (hw : 0 < w) : (a.setWidth (w + w)).toInt = a.toNat := by
  have hlt : a.toNat < 2 ^ w := a.isLt
  have hpow : 2 * 2 ^ w ≤ 2 ^ (w + w) := by
    rw [← pow_succ']
    exact Nat.pow_le_pow_right (by norm_num) (by omega)
  have hnat : (a.setWidth (w + w)).toNat = a.toNat := by
    rw [toNat_setWidth]
    exact Nat.mod_eq_of_lt (by omega)
  rw [toInt_eq_toNat_of_lt (by omega), hnat]

theorem result_mulhsu (hw : 0 < w) :
    result .mulhsu a b =
      ((a.signExtend (w + w) * b.setWidth (w + w)).sshiftRight w).setWidth w := by
  have hle : w ≤ w + w := le_add_left w w
  have ha := abs_toInt_le a
  have hb : |(b.toNat : ℤ)| < 2 ^ w := by
    rw [abs_of_nonneg (by positivity)]
    exact_mod_cast b.isLt
  apply ofInt_div_eq_high
  rw [toInt_mul_of_lt hw, toInt_signExtend_of_le hle, toInt_setWidth_double b hw]
  · rwa [toInt_signExtend_of_le hle]
  · rwa [toInt_setWidth_double b hw]

theorem result_mulhu :
    result .mulhu a b = ((a.setWidth (w + w) * b.setWidth (w + w)) >>> w).setWidth w := by
  apply eq_of_toNat_eq
  have hpow : 2 ^ (w + w) = 2 ^ w * 2 ^ w := pow_add 2 w w
  have hle : 2 ^ w ≤ 2 ^ (w + w) := Nat.pow_le_pow_right (by norm_num) (by omega)
  have hmul : a.toNat * b.toNat < 2 ^ (w + w) := by
    rw [hpow]
    exact Nat.mul_lt_mul'' a.isLt b.isLt
  have hcast : (a.toNat * b.toNat : ℤ) / 2 ^ w = ((a.toNat * b.toNat / 2 ^ w : ℕ) : ℤ) := by
    rfl
  simp only [result, exact, hcast, ofInt_natCast, toNat_ofNat, toNat_setWidth,
    toNat_ushiftRight, toNat_mul, Nat.shiftRight_eq_div_pow]
  rw [Nat.mod_eq_of_lt (a.isLt.trans_le hle), Nat.mod_eq_of_lt (b.isLt.trans_le hle),
    Nat.mod_eq_of_lt hmul]

theorem ofInt_neg_one : BitVec.ofInt w (-1) = allOnes w := by
  rw [← neg_one_eq_allOnes]
  simp [ofInt_neg]

theorem result_div_zero : result .div a 0 = allOnes w := by
  simp [result, exact, ofInt_neg_one]

/-- Division truncates; the one quotient that does not fit wraps to the dividend. -/
theorem result_div {b : BitVec w} (h : b ≠ 0) : result .div a b = a.sdiv b := by
  have hb : b.toInt ≠ 0 := fun hzero => h ((toInt_eq_zero_iff b).1 hzero)
  apply eq_of_toInt_eq
  simp only [result, exact, if_neg hb, toInt_ofInt, toInt_sdiv]

theorem result_divu_zero : result .divu a 0 = allOnes w := by
  simp [result, exact, ofInt_neg_one]

theorem result_divu {b : BitVec w} (h : b ≠ 0) : result .divu a b = a / b := by
  have hb : b.toNat ≠ 0 := fun hzero => h ((toNat_eq_zero_iff b).1 hzero)
  have hcast : (a.toNat : ℤ) / b.toNat = ((a / b).toNat : ℤ) := by
    rw [toNat_udiv]
    rfl
  simp only [result, exact, if_neg hb, hcast, ofInt_toNat]

theorem result_rem_zero : result .rem a 0 = a := by simp [result, exact]

theorem result_rem {b : BitVec w} (h : b ≠ 0) : result .rem a b = a.srem b := by
  have hb : b.toInt ≠ 0 := fun hzero => h ((toInt_eq_zero_iff b).1 hzero)
  simp only [result, exact, if_neg hb, ← toInt_srem, ofInt_toInt]

theorem result_remu_zero : result .remu a 0 = a := by
  simp [result, exact]

theorem result_remu {b : BitVec w} (h : b ≠ 0) : result .remu a b = a % b := by
  have hb : b.toNat ≠ 0 := fun hzero => h ((toNat_eq_zero_iff b).1 hzero)
  have hcast : (a.toNat : ℤ) % b.toNat = ((a % b).toNat : ℤ) := by
    rw [toNat_umod]
    rfl
  simp only [result, exact, if_neg hb, hcast, ofInt_toNat]

end ArithOp

end VisualCpu
