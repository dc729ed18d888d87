import VisualCpu.Exec.ScalarOps
import VisualCpu.Library.WordArith

/-!
# Integer results

Evaluation of the register-register instructions with the division of the host, which faults
on a zero divisor and on the one quotient that does not fit, compared with the results the
instruction set gives.
-/

namespace VisualCpu

open BitVec ArithOp Option

/-- What the host does not define for its integer division. -/
inductive HostFault
  | divideByZero | overflow
  deriving DecidableEq

open HostFault

namespace HostFault

variable {w : ℕ}

variable (lhs rhs : BitVec w)

def signedOperands : Except HostFault Unit :=
  if rhs = 0 then .error .divideByZero
  else if lhs = intMin w ∧ rhs = allOnes w then .error .overflow
  else .ok ()

def divSigned : Except HostFault (BitVec w) :=
  (fun _ => lhs.sdiv rhs) <$> signedOperands lhs rhs

def remSigned : Except HostFault (BitVec w) :=
  (fun _ => lhs.srem rhs) <$> signedOperands lhs rhs

def divUnsigned : Except HostFault (BitVec w) :=
  if rhs = 0 then .error .divideByZero else .ok (lhs / rhs)

def remUnsigned : Except HostFault (BitVec w) :=
  if rhs = 0 then .error .divideByZero else .ok (lhs % rhs)

end HostFault

namespace IntegerOps

variable (lhs rhs : BitVec 64)

def hostDivSigned : Except HostFault (BitVec 64) :=
  if rhs = 0 then .ok (allOnes 64)
  else if lhs = intMin 64 ∧ rhs = allOnes 64 then .ok lhs
  else HostFault.divSigned lhs rhs

def hostRemSigned : Except HostFault (BitVec 64) :=
  if rhs = 0 then .ok lhs
  else if lhs = intMin 64 ∧ rhs = allOnes 64 then .ok 0
  else HostFault.remSigned lhs rhs

def hostDivSignedWord : Except HostFault (BitVec 64) :=
  let dividend := lhs.setWidth 32
  let divisor := rhs.setWidth 32
  if divisor = 0 then .ok (allOnes 64)
  else if dividend = intMin 32 ∧ divisor = allOnes 32 then
    .ok (dividend.signExtend 64)
  else (·.signExtend 64) <$> HostFault.divSigned dividend divisor

def hostRemSignedWord : Except HostFault (BitVec 64) :=
  let dividend := lhs.setWidth 32
  let divisor := rhs.setWidth 32
  if divisor = 0 then .ok (dividend.signExtend 64)
  else if dividend = intMin 32 ∧ divisor = allOnes 32 then .ok 0
  else (·.signExtend 64) <$> HostFault.remSigned dividend divisor

/-- The divisions of `opMulDiv`; the products do not divide. -/
def hostMulDiv (insn : Insn) (rs1v rs2v : BitVec 64) : Except HostFault (Option (BitVec 64)) :=
  match insn.funct3 with
  | 4 => some <$> hostDivSigned rs1v rs2v
  | 5 =>
    if rs2v ≠ 0 then some <$> divUnsigned rs1v rs2v
    else .ok (some (allOnes 64))
  | 6 => some <$> hostRemSigned rs1v rs2v
  | 7 => if rs2v ≠ 0 then some <$> remUnsigned rs1v rs2v else .ok (some rs1v)
  | _ => .ok (opMulDiv insn rs1v rs2v)

/-- The divisions of `opMulDivWord`. The unsigned ones test the whole divisor and divide by
its low half. -/
def hostMulDivWord (insn : Insn) (rs1v rs2v : BitVec 64) :
    Except HostFault (Option (BitVec 64)) :=
  let lhs := rs1v.setWidth 32
  let rhs := rs2v.setWidth 32
  match insn.funct3 with
  | 4 => some <$> hostDivSignedWord rs1v rs2v
  | 5 =>
    if rs2v ≠ 0 then (fun q => some (q.signExtend 64)) <$> divUnsigned lhs rhs
    else .ok (some (allOnes 64))
  | 6 => some <$> hostRemSignedWord rs1v rs2v
  | 7 =>
    if rs2v ≠ 0 then (fun r => some (r.signExtend 64)) <$> remUnsigned lhs rhs
    else .ok (some (lhs.signExtend 64))
  | _ => .ok (opMulDivWord insn rs1v rs2v)

end IntegerOps

open IntegerOps in
/-- `build_integer_effects` on a host whose division is partial. -/
def hostIntegerEffects (insn : Insn) (rs1v rs2v pc : BitVec 64) : Except HostFault InsnEffects :=
  match insn.opcode with
  | 0x33 =>
    if insn.funct7 = 1 then writeRdOrIllegal insn <$> hostMulDiv insn rs1v rs2v
    else .ok (buildIntegerEffects insn rs1v rs2v pc)
  | 0x3B =>
    if insn.funct7 = 1 then writeRdOrIllegal insn <$> hostMulDivWord insn rs1v rs2v
    else .ok (buildIntegerEffects insn rs1v rs2v pc)
  | _ => .ok (buildIntegerEffects insn rs1v rs2v pc)

namespace IntegerOps

variable {insn : Insn} {rs1v rs2v pc : BitVec 64}

variable (lhs rhs : BitVec 64)

theorem hostDivSigned_eq : hostDivSigned lhs rhs = .ok (divSigned lhs rhs) := by
  unfold hostDivSigned divSigned HostFault.divSigned HostFault.signedOperands
  split_ifs <;> rfl

theorem hostRemSigned_eq : hostRemSigned lhs rhs = .ok (remSigned lhs rhs) := by
  unfold hostRemSigned remSigned HostFault.remSigned HostFault.signedOperands
  split_ifs <;> rfl

theorem hostDivSignedWord_eq : hostDivSignedWord lhs rhs = .ok (divSignedWord lhs rhs) := by
  simp only [hostDivSignedWord, divSignedWord, HostFault.divSigned, HostFault.signedOperands]
  split_ifs <;> rfl

theorem hostRemSignedWord_eq : hostRemSignedWord lhs rhs = .ok (remSignedWord lhs rhs) := by
  simp only [hostRemSignedWord, remSignedWord, HostFault.remSigned, HostFault.signedOperands]
  split_ifs <;> rfl

/-- Division at full width tests the divisor it divides by. -/
theorem hostMulDiv_eq (insn : Insn) (rs1v rs2v : BitVec 64) :
    hostMulDiv insn rs1v rs2v = .ok (opMulDiv insn rs1v rs2v) := by
  unfold hostMulDiv
  split
  case h_1 h =>
    simp only [opMulDiv, h, hostDivSigned_eq]
    rfl
  case h_2 h =>
    simp only [opMulDiv, h, divUnsigned]
    by_cases hzero : rs2v = 0
    · simp only [hzero, ne_eq, not_true_eq_false, if_false]
    simp only [hzero, ne_eq, not_false_eq_true, if_true, if_false]
    rfl
  case h_3 h =>
    simp only [opMulDiv, h, hostRemSigned_eq]
    rfl
  case h_4 h =>
    simp only [opMulDiv, h, remUnsigned]
    by_cases hzero : rs2v = 0
    · simp only [hzero, ne_eq, not_true_eq_false, if_false]
    simp only [hzero, ne_eq, not_false_eq_true, if_true, if_false]
    rfl
  case h_5 => rfl

/-- An unsigned word division whose divisor is not zero but has a zero low half. -/
def DividesByZeroHalf (insn : Insn) (rs2v : BitVec 64) : Prop :=
  insn.opcode = 0x3B ∧ insn.funct7 = 1 ∧ (insn.funct3 = 5 ∨ insn.funct3 = 7) ∧
    rs2v ≠ 0 ∧ rs2v.setWidth 32 = 0

instance (insn : Insn) (rs2v : BitVec 64) : Decidable (DividesByZeroHalf insn rs2v) :=
  inferInstanceAs (Decidable (_ ∧ _))

theorem hostMulDivWord_eq (h : insn.opcode = 0x3B) (hfunct7 : insn.funct7 = 1)
    (hhalf : ¬ DividesByZeroHalf insn rs2v) :
    hostMulDivWord insn rs1v rs2v = .ok (opMulDivWord insn rs1v rs2v) := by
  have hrhs (hfunct3 : insn.funct3 = 5 ∨ insn.funct3 = 7) (hne : rs2v ≠ 0) :
      rs2v.setWidth 32 ≠ 0 := fun hzero => hhalf ⟨h, hfunct7, hfunct3, hne, hzero⟩
  unfold hostMulDivWord
  split
  case h_1 hfunct3 =>
    simp only [opMulDivWord, hfunct3, hostDivSignedWord_eq]
    rfl
  case h_2 hfunct3 =>
    simp only [opMulDivWord, hfunct3, divUnsigned]
    by_cases hzero : rs2v = 0
    · simp only [hzero, ne_eq, not_true_eq_false, if_false]
    have hlow := hrhs (.inl hfunct3) hzero
    simp only [hzero, hlow, ne_eq, not_false_eq_true, if_true, if_false]
    rfl
  case h_3 hfunct3 =>
    simp only [opMulDivWord, hfunct3, hostRemSignedWord_eq]
    rfl
  case h_4 hfunct3 =>
    simp only [opMulDivWord, hfunct3, remUnsigned]
    by_cases hzero : rs2v = 0
    · simp only [hzero, ne_eq, not_true_eq_false, if_false]
    have hlow := hrhs (.inr hfunct3) hzero
    simp only [hzero, hlow, ne_eq, not_false_eq_true, if_true, if_false]
    rfl
  case h_5 => rfl

theorem hostMulDivWord_fault (hhalf : DividesByZeroHalf insn rs2v) :
    hostMulDivWord insn rs1v rs2v = .error .divideByZero := by
  obtain ⟨-, -, hfunct3, hne, hzero⟩ := hhalf
  rcases hfunct3 with hfunct3 | hfunct3 <;>
    simp only [hostMulDivWord, hfunct3, divUnsigned, remUnsigned, hzero,
      if_pos hne, if_true] <;>
    rfl

/-- The instruction that `funct3` and `funct7` select at full width. -/
def arithOp (funct3 funct7 : ℕ) : Option ArithOp :=
  match funct7, funct3 with
  | 0x00, 0 => some .add
  | 0x20, 0 => some .sub
  | 0x00, 1 => some .sll
  | 0x00, 2 => some .slt
  | 0x00, 3 => some .sltu
  | 0x00, 4 => some .xor
  | 0x00, 5 => some .srl
  | 0x20, 5 => some .sra
  | 0x00, 6 => some .or
  | 0x00, 7 => some .and
  | 0x01, 0 => some .mul
  | 0x01, 1 => some .mulh
  | 0x01, 2 => some .mulhsu
  | 0x01, 3 => some .mulhu
  | 0x01, 4 => some .div
  | 0x01, 5 => some .divu
  | 0x01, 6 => some .rem
  | 0x01, 7 => some .remu
  | _, _ => none

/-- The instruction that `funct3` and `funct7` select on words. -/
def arithWordOp (funct3 funct7 : ℕ) : Option ArithOp :=
  match funct7, funct3 with
  | 0x00, 0 => some .add
  | 0x20, 0 => some .sub
  | 0x00, 1 => some .sll
  | 0x00, 5 => some .srl
  | 0x20, 5 => some .sra
  | 0x01, 0 => some .mul
  | 0x01, 4 => some .div
  | 0x01, 5 => some .divu
  | 0x01, 6 => some .rem
  | 0x01, 7 => some .remu
  | _, _ => none

theorem and_63 (x : BitVec 64) : (x &&& 63).toNat = shiftAmount x := by
  rw [toNat_and, shiftAmount]
  exact Nat.and_two_pow_sub_one_eq_mod x.toNat 6

theorem and_31 (x : BitVec 64) : (x &&& 31).toNat = shiftAmount (x.setWidth 32) := by
  rw [toNat_and, shiftAmount, toNat_setWidth]
  rw [Nat.mod_mod_of_dvd _ (by decide : 32 ∣ 2 ^ 32)]
  exact Nat.and_two_pow_sub_one_eq_mod x.toNat 5

/-- Division through the source's tests gives the architectural quotient. -/
theorem divSigned_eq : divSigned lhs rhs = ArithOp.result .div lhs rhs := by
  unfold divSigned
  by_cases hzero : rhs = 0
  · rw [if_pos hzero, hzero, result_div_zero]
  rw [if_neg hzero, result_div lhs hzero]
  split_ifs with hmin
  · rw [hmin.1, hmin.2]
    decide
  · rfl

theorem remSigned_eq : remSigned lhs rhs = ArithOp.result .rem lhs rhs := by
  unfold remSigned
  by_cases hzero : rhs = 0
  · rw [if_pos hzero, hzero, result_rem_zero]
  rw [if_neg hzero, result_rem lhs hzero]
  split_ifs with hmin
  · rw [hmin.1, hmin.2]
    decide
  · rfl

theorem divSignedWord_eq : divSignedWord lhs rhs =
      (ArithOp.result .div (lhs.setWidth 32) (rhs.setWidth 32)).signExtend 64 := by
  simp only [divSignedWord]
  by_cases hzero : rhs.setWidth 32 = 0
  · rw [if_pos hzero, hzero, result_div_zero]
    decide
  rw [if_neg hzero, result_div _ hzero]
  split_ifs with hmin
  · rw [hmin.1, hmin.2]
    decide
  · rfl

theorem remSignedWord_eq : remSignedWord lhs rhs =
      (ArithOp.result .rem (lhs.setWidth 32) (rhs.setWidth 32)).signExtend 64 := by
  simp only [remSignedWord]
  by_cases hzero : rhs.setWidth 32 = 0
  · rw [if_pos hzero, hzero, result_rem_zero]
  rw [if_neg hzero, result_rem _ hzero]
  split_ifs with hmin
  · rw [hmin.1, hmin.2]
    decide
  · rfl

theorem divUnsigned_eq :
    (if rhs ≠ 0 then lhs / rhs else allOnes 64) = ArithOp.result .divu lhs rhs := by
  by_cases hzero : rhs = 0
  · rw [if_neg (not_not.2 hzero), hzero, result_divu_zero]
  · rw [if_pos hzero, result_divu lhs hzero]

theorem remUnsigned_eq : (if rhs ≠ 0 then lhs % rhs else lhs) = ArithOp.result .remu lhs rhs := by
  by_cases hzero : rhs = 0
  · rw [if_neg (not_not.2 hzero), hzero, result_remu_zero]
  · rw [if_pos hzero, result_remu lhs hzero]

theorem opMulDiv_eq (h : insn.funct7 = 1) (rs1v rs2v : BitVec 64) :
    opMulDiv insn rs1v rs2v = (arithOp insn.funct3 insn.funct7).map (·.result rs1v rs2v) := by
  have hmulh := result_mulh rs1v rs2v (by decide)
  have hmulhsu := result_mulhsu rs1v rs2v (by decide)
  have hmulhu := result_mulhu rs1v rs2v
  rw [h]
  unfold opMulDiv
  split
  case h_1 hfunct3 => simp only [hfunct3, arithOp, map_some, result_mul]
  case h_2 hfunct3 => simp only [hfunct3, arithOp, map_some, hmulh]
  case h_3 hfunct3 => simp only [hfunct3, arithOp, map_some, hmulhsu]
  case h_4 hfunct3 => simp only [hfunct3, arithOp, map_some, hmulhu]
  case h_5 hfunct3 => simp only [hfunct3, arithOp, map_some, divSigned_eq]
  case h_6 hfunct3 => simp only [hfunct3, arithOp, map_some, divUnsigned_eq]
  case h_7 hfunct3 => simp only [hfunct3, arithOp, map_some, remSigned_eq]
  case h_8 hfunct3 => simp only [hfunct3, arithOp, map_some, remUnsigned_eq]
  case h_9 => unfold arithOp; split <;> simp_all

theorem opMulDivWord_eq (h : insn.opcode = 0x3B) (hfunct7 : insn.funct7 = 1)
    (hhalf : ¬ DividesByZeroHalf insn rs2v) :
    opMulDivWord insn rs1v rs2v = (arithWordOp insn.funct3 insn.funct7).map
      fun op => (op.result (rs1v.setWidth 32) (rs2v.setWidth 32)).signExtend 64 := by
  have hrhs (hfunct3 : insn.funct3 = 5 ∨ insn.funct3 = 7) (hne : rs2v ≠ 0) :
      rs2v.setWidth 32 ≠ 0 := fun hzero => hhalf ⟨h, hfunct7, hfunct3, hne, hzero⟩
  have hmul : (rs1v * rs2v).setWidth 32 = rs1v.setWidth 32 * rs2v.setWidth 32 :=
    setWidth_mul rs1v rs2v (by decide)
  rw [hfunct7]
  unfold opMulDivWord
  split
  case h_1 hfunct3 =>
    simp only [hfunct3, arithWordOp, map_some, result_mul, signExtendWord, hmul]
  case h_2 hfunct3 => simp only [hfunct3, arithWordOp, map_some, divSignedWord_eq]
  case h_3 hfunct3 =>
    simp only [hfunct3, arithWordOp, map_some]
    by_cases hzero : rs2v = 0
    · have hlow : (0 : BitVec 64).setWidth 32 = 0 := rfl
      rw [if_neg (not_not.2 hzero), hzero, hlow, result_divu_zero]
      decide
    · rw [if_pos hzero, result_divu _ (hrhs (.inl hfunct3) hzero)]
  case h_4 hfunct3 => simp only [hfunct3, arithWordOp, map_some, remSignedWord_eq]
  case h_5 hfunct3 =>
    simp only [hfunct3, arithWordOp, map_some]
    by_cases hzero : rs2v = 0
    · have hlow : (0 : BitVec 64).setWidth 32 = 0 := rfl
      rw [if_neg (not_not.2 hzero), hzero, hlow, result_remu_zero]
    · rw [if_pos hzero, result_remu _ (hrhs (.inr hfunct3) hzero)]
  case h_6 => unfold arithWordOp; split <;> simp_all

variable {funct3 funct7 : ℕ}

theorem arithOp_eq_none (hfunct7 : funct7 ≠ 1)
    (hvalid : isValidIntegerRegEncoding funct3 funct7 = false) : arithOp funct3 funct7 = none := by
  unfold arithOp
  split <;> simp_all [isValidIntegerRegEncoding]

theorem arithWordOp_eq_none (hfunct7 : funct7 ≠ 1)
    (hvalid : isValidIntegerWordRegEncoding funct3 funct7 = false) :
    arithWordOp funct3 funct7 = none := by
  unfold arithWordOp
  split <;> simp_all [isValidIntegerWordRegEncoding]

theorem isValidIntegerRegEncoding_cases (hvalid : isValidIntegerRegEncoding funct3 funct7) :
    (funct7 = 0x00 ∧ funct3 ∈ [0, 1, 2, 3, 4, 5, 6, 7]) ∨ (funct7 = 0x20 ∧ funct3 ∈ [0, 5]) := by
  unfold isValidIntegerRegEncoding at hvalid
  split at hvalid <;> simp_all

theorem isValidIntegerWordRegEncoding_cases
    (hvalid : isValidIntegerWordRegEncoding funct3 funct7) :
    (funct7 = 0x00 ∧ funct3 ∈ [0, 1, 5]) ∨ (funct7 = 0x20 ∧ funct3 ∈ [0, 5]) := by
  unfold isValidIntegerWordRegEncoding at hvalid
  split at hvalid <;> simp_all

theorem opReg_eq (insn : Insn) (rs1v rs2v : BitVec 64) :
    opReg insn rs1v rs2v = (arithOp insn.funct3 insn.funct7).map (·.result rs1v rs2v) := by
  unfold opReg
  by_cases hfunct7 : insn.funct7 = 1
  · simp only [if_pos hfunct7, opMulDiv_eq hfunct7]
  simp only [if_neg hfunct7, and_63]
  cases hvalid : isValidIntegerRegEncoding insn.funct3 insn.funct7 with
  | false => simp [arithOp_eq_none hfunct7 hvalid]
  | true =>
    have hcases := isValidIntegerRegEncoding_cases hvalid
    simp only [List.mem_cons, List.not_mem_nil, or_false] at hcases
    rcases hcases with ⟨hseven, h | h | h | h | h | h | h | h⟩ | ⟨hseven, h | h⟩ <;>
      simp [h, hseven, arithOp, boolValue, result_add, result_sub,
        result_sll, result_slt, result_sltu, result_xor,
        result_srl, result_sra, result_or, result_and]

theorem opRegWord_eq (h : insn.opcode = 0x3B) (hhalf : ¬ DividesByZeroHalf insn rs2v) :
    opRegWord insn rs1v rs2v = (arithWordOp insn.funct3 insn.funct7).map
      fun op => (op.result (rs1v.setWidth 32) (rs2v.setWidth 32)).signExtend 64 := by
  have hadd : (rs1v + rs2v).setWidth 32 = rs1v.setWidth 32 + rs2v.setWidth 32 :=
    setWidth_add rs1v rs2v (by decide)
  have hsub : (rs1v - rs2v).setWidth 32 = rs1v.setWidth 32 - rs2v.setWidth 32 := by
    rw [BitVec.sub_eq_add_neg, setWidth_add _ _ (by decide), setWidth_neg_of_le
      (by decide), BitVec.sub_eq_add_neg]
  unfold opRegWord
  by_cases hfunct7 : insn.funct7 = 1
  · simp only [if_pos hfunct7, opMulDivWord_eq h hfunct7 hhalf]
  simp only [if_neg hfunct7, and_31]
  cases hvalid : isValidIntegerWordRegEncoding insn.funct3 insn.funct7 with
  | false => simp [arithWordOp_eq_none hfunct7 hvalid]
  | true =>
    have hcases := isValidIntegerWordRegEncoding_cases hvalid
    simp only [List.mem_cons, List.not_mem_nil, or_false] at hcases
    rcases hcases with ⟨hseven, hthree | hthree | hthree⟩ | ⟨hseven, hthree | hthree⟩ <;>
      simp [hthree, hseven, arithWordOp, signExtendWord, hadd, hsub, result_add,
        result_sub, result_sll, result_srl, result_sra]

end IntegerOps

open IntegerOps

/-- The value that the instruction set gives to `rd`; words are cut from the operands and the
result is sign-extended. -/
def architecturalValue (insn : Insn) (rs1v rs2v : BitVec 64) : Option (BitVec 64) :=
  if insn.opcode = 0x33 then (arithOp insn.funct3 insn.funct7).map (·.result rs1v rs2v)
  else (arithWordOp insn.funct3 insn.funct7).map
    fun op => (op.result (rs1v.setWidth 32) (rs2v.setWidth 32)).signExtend 64

/-- The register-register instructions evaluate on the host to the result of the instruction
set unless an unsigned word division has a divisor whose low half alone is zero. -/
theorem hostIntegerEffects_exact_iff {insn : Insn}
    (h : insn.opcode = 0x33 ∨ insn.opcode = 0x3B) (rs1v rs2v pc : BitVec 64) :
    hostIntegerEffects insn rs1v rs2v pc =
        .ok (writeRdOrIllegal insn (architecturalValue insn rs1v rs2v)) ↔
      ¬ DividesByZeroHalf insn rs2v := by
  constructor
  · intro hok hhalf
    have hopcode := hhalf.1
    have hfunct7 := hhalf.2.1
    simp only [hostIntegerEffects, hopcode, hfunct7, if_true, hostMulDivWord_fault hhalf] at hok
    exact nomatch hok
  · intro hhalf
    unfold hostIntegerEffects architecturalValue
    rcases h with h | h
    · simp only [h, if_true, buildIntegerEffects, ← opReg_eq]
      by_cases hfunct7 : insn.funct7 = 1
      · simp only [opReg, hfunct7, if_true, hostMulDiv_eq]
        rfl
      · simp only [hfunct7, if_false]
    · have hne : (0x3B : ℕ) ≠ 0x33 := by decide
      simp only [h, buildIntegerEffects, if_neg hne, ← opRegWord_eq h hhalf]
      by_cases hfunct7 : insn.funct7 = 1
      · simp only [opRegWord, hfunct7, if_true, hostMulDivWord_eq h hfunct7 hhalf]
        rfl
      · simp only [hfunct7, if_false]

/-- `mulh x3, x1, x2` -/
def mulhInsn : Insn := decode 0x022091B3

/-- `divuw x3, x1, x2` -/
def divuwInsn : Insn := decode 0x0220D1BB

theorem mulh_minusOne_exact : hostIntegerEffects mulhInsn (-1) 2 0 =
      .ok (writeRdOrIllegal mulhInsn (architecturalValue mulhInsn (-1) 2)) := by
  have hopcode : mulhInsn.opcode = 0x33 ∨ mulhInsn.opcode = 0x3B := by decide
  exact (hostIntegerEffects_exact_iff hopcode (-1) 2 0).2 (by decide)

/-- A divisor of 2^32 passes the test for zero and is divided by as zero. -/
theorem divuw_faults : hostIntegerEffects divuwInsn 7 0x100000000 0 = .error .divideByZero ∧
      architecturalValue divuwInsn 7 0x100000000 = some (allOnes 64) := by
  constructor
  · decide
  · decide

end VisualCpu
