import VisualCpu.Isa.Decode
import Mathlib.Tactic.IntervalCases

/-!
# The compressed instruction set

The expansion of the 16-bit encodings as the instruction set defines it: each valid
encoding, the hints included, stands for one 32-bit word. The definition follows the
tables of the instruction set and not the decoder, which is compared with it.
-/

namespace VisualCpu.Rvc

open BitVec Decode

def word (funct7 : BitVec 7) (rs2 rs1 : BitVec 5) (funct3 : BitVec 3) (rd : BitVec 5)
    (opcode : BitVec 7) : BitVec 32 :=
  (funct7 ++ rs2 ++ rs1 ++ funct3 ++ rd ++ opcode).cast rfl

def iType (imm : BitVec 12) (rs1 : BitVec 5) (funct3 : BitVec 3) (rd : BitVec 5)
    (opcode : BitVec 7) : BitVec 32 :=
  word (imm.extractLsb' 5 7) (imm.extractLsb' 0 5) rs1 funct3 rd opcode

def sType (imm : BitVec 12) (rs2 rs1 : BitVec 5) (funct3 : BitVec 3) (opcode : BitVec 7) :
    BitVec 32 :=
  word (imm.extractLsb' 5 7) rs2 rs1 funct3 (imm.extractLsb' 0 5) opcode

/-- The lowest bit of a branch offset is not encoded. -/
def bType (imm : BitVec 13) (rs2 rs1 : BitVec 5) (funct3 : BitVec 3) : BitVec 32 :=
  word (imm.extractLsb' 12 1 ++ imm.extractLsb' 5 6) rs2 rs1 funct3
    (imm.extractLsb' 1 4 ++ imm.extractLsb' 11 1) 0x63

def uType (imm : BitVec 20) (rd : BitVec 5) (opcode : BitVec 7) : BitVec 32 :=
  word (imm.extractLsb' 13 7) (imm.extractLsb' 8 5) (imm.extractLsb' 3 5) (imm.extractLsb' 0 3) rd
    opcode

/-- The lowest bit of a jump offset is not encoded. -/
def jType (imm : BitVec 21) (rd : BitVec 5) : BitVec 32 :=
  word (imm.extractLsb' 20 1 ++ imm.extractLsb' 5 6)
    (imm.extractLsb' 1 4 ++ imm.extractLsb' 11 1) (imm.extractLsb' 15 5) (imm.extractLsb' 12 3) rd
    0x6F

section Fields

open Decode

variable (funct7 : BitVec 7) (rs2 rs1 : BitVec 5) (funct3 : BitVec 3) (rd : BitVec 5)
  (opcode : BitVec 7)

theorem field_eq {w n : ℕ} {raw : BitVec w} {shift : ℕ} {x : BitVec n}
    (h : ∀ i < n, raw.getLsbD (shift + i) = x.getLsbD i) : field raw shift n = x.toNat := by
  have hbits : raw.extractLsb' shift n = x := by
    apply eq_of_getLsbD_eq
    intro i hi
    rw [getLsbD_extractLsb', h i hi]
    simp [hi]
  rw [field, hbits]

theorem word_opcode : field (word funct7 rs2 rs1 funct3 rd opcode) 0 7 = opcode.toNat := by
  apply field_eq
  intro i hi
  simp only [word, getLsbD_append, getLsbD_cast]
  interval_cases i <;> simp

theorem word_rd : field (word funct7 rs2 rs1 funct3 rd opcode) 7 5 = rd.toNat := by
  apply field_eq
  intro i hi
  simp only [word, getLsbD_append, getLsbD_cast]
  interval_cases i <;> simp

theorem word_funct3 : field (word funct7 rs2 rs1 funct3 rd opcode) 12 3 = funct3.toNat := by
  apply field_eq
  intro i hi
  simp only [word, getLsbD_append, getLsbD_cast]
  interval_cases i <;> simp

theorem word_rs1 : field (word funct7 rs2 rs1 funct3 rd opcode) 15 5 = rs1.toNat := by
  apply field_eq
  intro i hi
  simp only [word, getLsbD_append, getLsbD_cast]
  interval_cases i <;> simp

theorem word_rs2 : field (word funct7 rs2 rs1 funct3 rd opcode) 20 5 = rs2.toNat := by
  apply field_eq
  intro i hi
  simp only [word, getLsbD_append, getLsbD_cast]
  interval_cases i <;> simp

theorem word_funct7 : field (word funct7 rs2 rs1 funct3 rd opcode) 25 7 = funct7.toNat := by
  apply field_eq
  intro i hi
  simp only [word, getLsbD_append, getLsbD_cast]
  interval_cases i <;> simp

theorem decode_word (hopcode : opcode.toNat % 4 = 3) :
    decode (word funct7 rs2 rs1 funct3 rd opcode) =
      decodeStandard (word funct7 rs2 rs1 funct3 rd opcode) := by
  have hlow : field (word funct7 rs2 rs1 funct3 rd opcode) 0 2 = opcode.toNat % 4 := by
    have hword := word_opcode funct7 rs2 rs1 funct3 rd opcode
    simp only [field, extractLsb'_toNat, Nat.shiftRight_zero] at hword ⊢
    omega
  unfold decode
  rw [hlow, hopcode]
  rfl

theorem sshiftRight_append {n k : ℕ} (m : ℕ) (x : BitVec n) (h : n + k ≤ m) (hn : n ≠ 0) :
    ((x ++ 0#k).signExtend m).sshiftRight k = x.signExtend m := by
  apply eq_of_toInt_eq
  rw [toInt_sshiftRight, toInt_signExtend_of_le h,
    toInt_signExtend_of_le (by omega), toInt_append, if_neg (by simpa using hn)]
  simp [Int.shiftRight_eq_div_pow]

theorem iType_imm (imm : BitVec 12)
    (h : opcode ∈ [0x03#7, 0x07#7, 0x13#7, 0x1B#7, 0x67#7, 0x73#7]) :
    standardImm (iType imm rs1 funct3 rd opcode) = imm.signExtend 64 := by
  have hmask : iType imm rs1 funct3 rd opcode &&& 0xFFF00000#32 = (imm ++ 0#20).cast rfl := by
    apply eq_of_getLsbD_eq
    intro i hi
    simp only [iType, word, getLsbD_and, getLsbD_append, getLsbD_cast, getLsbD_extractLsb']
    interval_cases i <;> simp
  have hopcode : field (iType imm rs1 funct3 rd opcode) 0 7 = opcode.toNat := word_opcode ..
  have himm : ((imm ++ 0#20).signExtend 64).sshiftRight 20 = imm.signExtend 64 :=
    sshiftRight_append 64 imm (by decide) (by decide)
  unfold standardImm
  rw [hopcode, hmask]
  simp only [List.mem_cons, List.not_mem_nil, or_false] at h
  rcases h with rfl | rfl | rfl | rfl | rfl | rfl <;> exact himm

theorem sType_imm (imm : BitVec 12) (h : opcode = 0x23 ∨ opcode = 0x27) :
    standardImm (sType imm rs2 rs1 funct3 opcode) = imm.signExtend 64 := by
  have hmask : (sType imm rs2 rs1 funct3 opcode &&& 0xFE000000#32) |||
      ((sType imm rs2 rs1 funct3 opcode &&& 0xF80#32) <<< 13) = (imm ++ 0#20).cast rfl := by
    apply eq_of_getLsbD_eq
    intro i hi
    simp only [sType, word, getLsbD_or, getLsbD_shiftLeft, getLsbD_and,
      getLsbD_append, getLsbD_cast, getLsbD_extractLsb']
    interval_cases i <;> simp
  have hopcode : field (sType imm rs2 rs1 funct3 opcode) 0 7 = opcode.toNat := word_opcode ..
  have himm : ((imm ++ 0#20).signExtend 64).sshiftRight 20 = imm.signExtend 64 :=
    sshiftRight_append 64 imm (by decide) (by decide)
  unfold standardImm
  rw [hopcode, hmask]
  rcases h with rfl | rfl <;> exact himm

theorem bType_imm (imm : BitVec 13) (hlow : imm[0] = false) :
    standardImm (bType imm rs2 rs1 funct3) = imm.signExtend 64 := by
  have hmask : (bType imm rs2 rs1 funct3 &&& 0x80000000#32) |||
      ((bType imm rs2 rs1 funct3 &&& 0x80#32) <<< 23) |||
      ((bType imm rs2 rs1 funct3 &&& 0x7E000000#32) >>> 1) |||
      ((bType imm rs2 rs1 funct3 &&& 0xF00#32) <<< 12) = (imm ++ 0#19).cast rfl := by
    apply eq_of_getLsbD_eq
    intro i hi
    simp only [bType, word, getLsbD_or, getLsbD_shiftLeft, getLsbD_ushiftRight,
      getLsbD_and, getLsbD_append, getLsbD_cast, getLsbD_extractLsb']
    interval_cases i <;> simp [hlow]
  have hopcode : field (bType imm rs2 rs1 funct3) 0 7 = 0x63 := word_opcode ..
  have himm : ((imm ++ 0#19).signExtend 64).sshiftRight 19 = imm.signExtend 64 :=
    sshiftRight_append 64 imm (by decide) (by decide)
  unfold standardImm
  rw [hopcode, hmask]
  exact himm

theorem uType_imm (imm : BitVec 20) :
    standardImm (uType imm rd 0x37) = (imm ++ 0#12 : BitVec 32).signExtend 64 := by
  have hmask : uType imm rd 0x37 &&& 0xFFFFF000#32 = (imm ++ 0#12).cast rfl := by
    apply eq_of_getLsbD_eq
    intro i hi
    simp only [uType, word, getLsbD_and, getLsbD_append, getLsbD_cast, getLsbD_extractLsb']
    interval_cases i <;> simp
  have hopcode : field (uType imm rd 0x37) 0 7 = 0x37 := word_opcode ..
  unfold standardImm
  rw [hopcode, hmask]
  rfl

theorem jType_imm (imm : BitVec 21) (hlow : imm[0] = false) :
    standardImm (jType imm rd) = imm.signExtend 64 := by
  have hopcode : field (jType imm rd) 0 7 = 0x6F := word_opcode ..
  have hmask : jType imm rd &&& 0x80000000#32 =
      ((imm.extractLsb' 20 1 ++ 0#20) ++ 0#11).cast rfl := by
    apply eq_of_getLsbD_eq
    intro i hi
    simp only [jType, word, getLsbD_and, getLsbD_append, getLsbD_cast, getLsbD_extractLsb']
    interval_cases i <;> simp
  have hsign : (((imm.extractLsb' 20 1 ++ 0#20) ++ 0#11).signExtend 64).sshiftRight 11 =
      (imm.extractLsb' 20 1 ++ 0#20).signExtend 64 :=
    sshiftRight_append 64 (imm.extractLsb' 20 1 ++ 0#20) (by decide) (by decide)
  have hmsb : (imm.extractLsb' 20 1 ++ 0#20).msb = imm.msb := by
    rw [msb_append]
    simp [msb_eq_getLsbD_last]
  unfold standardImm
  rw [hopcode, hmask]
  rw [show BitVec.cast rfl ((imm.extractLsb' 20 1 ++ 0#20) ++ 0#11) =
    (imm.extractLsb' 20 1 ++ 0#20) ++ 0#11 from rfl, hsign]
  apply eq_of_getLsbD_eq
  intro i hi
  simp only [jType, word, getLsbD_or, getLsbD_ushiftRight, getLsbD_signExtend,
    getLsbD_setWidth, getLsbD_and, getLsbD_append, getLsbD_cast,
    getLsbD_extractLsb', hmsb]
  interval_cases i <;> simp [hlow]

end Fields

variable (c : BitVec 16)

/-- A register field of three bits names one of `x8` to `x15`. -/
def shortReg (shift : ℕ) : BitVec 5 := 1#2 ++ c.extractLsb' shift 3

/-- The six-bit immediate of the CI format. -/
def imm6 : BitVec 6 := c.extractLsb' 12 1 ++ c.extractLsb' 2 5

/-- The offset of the doubleword loads and stores with three-bit register fields. -/
def offsetD : BitVec 8 := c.extractLsb' 5 2 ++ c.extractLsb' 10 3 ++ 0#3

def offsetW : BitVec 7 :=
  c.extractLsb' 5 1 ++ c.extractLsb' 10 3 ++ c.extractLsb' 6 1 ++ 0#2

/-- The unsigned immediate of `c.addi4spn`. -/
def addi4spnImm : BitVec 10 :=
  c.extractLsb' 7 4 ++ c.extractLsb' 11 2 ++ c.extractLsb' 5 1 ++ c.extractLsb' 6 1 ++ 0#2

/-- The signed immediate of `c.addi16sp`. -/
def addi16spImm : BitVec 10 :=
  c.extractLsb' 12 1 ++ c.extractLsb' 3 2 ++ c.extractLsb' 5 1 ++ c.extractLsb' 2 1 ++
    c.extractLsb' 6 1 ++ 0#4

def jumpOffset : BitVec 12 :=
  c.extractLsb' 12 1 ++ c.extractLsb' 8 1 ++ c.extractLsb' 9 2 ++ c.extractLsb' 6 1 ++
    c.extractLsb' 7 1 ++ c.extractLsb' 2 1 ++ c.extractLsb' 11 1 ++ c.extractLsb' 3 3 ++ 0#1

def branchOffset : BitVec 9 :=
  c.extractLsb' 12 1 ++ c.extractLsb' 5 2 ++ c.extractLsb' 2 1 ++ c.extractLsb' 10 2 ++
    c.extractLsb' 3 2 ++ 0#1

/-- The offsets from the stack pointer. -/
def loadSpD : BitVec 9 :=
  c.extractLsb' 2 3 ++ c.extractLsb' 12 1 ++ c.extractLsb' 5 2 ++ 0#3

def loadSpW : BitVec 8 :=
  c.extractLsb' 2 2 ++ c.extractLsb' 12 1 ++ c.extractLsb' 4 3 ++ 0#2

def storeSpD : BitVec 9 := c.extractLsb' 7 3 ++ c.extractLsb' 10 3 ++ 0#3

def storeSpW : BitVec 8 := c.extractLsb' 7 2 ++ c.extractLsb' 9 4 ++ 0#2

def expandQuadrant0 : Option (BitVec 32) :=
  match field c 13 3 with
  | 0 => -- c.addi4spn, reserved without an immediate
    if addi4spnImm c = 0 then none
    else some (iType ((addi4spnImm c).setWidth 12) 2 0 (shortReg c 2) 0x13)
  | 1 => some (iType ((offsetD c).setWidth 12) (shortReg c 7) 3 (shortReg c 2) 0x07) -- c.fld
  | 2 => some (iType ((offsetW c).setWidth 12) (shortReg c 7) 2 (shortReg c 2) 0x03) -- c.lw
  | 3 => some (iType ((offsetD c).setWidth 12) (shortReg c 7) 3 (shortReg c 2) 0x03) -- c.ld
  | 5 => some (sType ((offsetD c).setWidth 12) (shortReg c 2) (shortReg c 7) 3 0x27) -- c.fsd
  | 6 => some (sType ((offsetW c).setWidth 12) (shortReg c 2) (shortReg c 7) 2 0x23) -- c.sw
  | 7 => some (sType ((offsetD c).setWidth 12) (shortReg c 2) (shortReg c 7) 3 0x23) -- c.sd
  | _ => none

/-- `c.sub`, `c.xor`, `c.or`, `c.and`, `c.subw` and `c.addw`. -/
def expandArith : Option (BitVec 32) :=
  let rd := shortReg c 7
  let rs2 := shortReg c 2
  match field c 12 1, field c 5 2 with
  | 0, 0 => some (word 0x20 rs2 rd 0 rd 0x33)
  | 0, 1 => some (word 0 rs2 rd 4 rd 0x33)
  | 0, 2 => some (word 0 rs2 rd 6 rd 0x33)
  | 0, 3 => some (word 0 rs2 rd 7 rd 0x33)
  | 1, 0 => some (word 0x20 rs2 rd 0 rd 0x3B)
  | 1, 1 => some (word 0 rs2 rd 0 rd 0x3B)
  | _, _ => none

def expandQuadrant1 : Option (BitVec 32) :=
  let rd := c.extractLsb' 7 5
  match field c 13 3 with
  | 0 => some (iType ((imm6 c).signExtend 12) rd 0 rd 0x13) -- c.nop and c.addi
  | 1 => if rd = 0 then none else some (iType ((imm6 c).signExtend 12) rd 0 rd 0x1B) -- c.addiw
  | 2 => some (iType ((imm6 c).signExtend 12) 0 0 rd 0x13) -- c.li
  | 3 =>
    if rd = 2 then -- c.addi16sp
      if addi16spImm c = 0 then none else some (iType ((addi16spImm c).signExtend 12) 2 0 2 0x13)
    else -- c.lui, a hint for the register zero
      if imm6 c = 0 then none else some (uType ((imm6 c).signExtend 20) rd 0x37)
  | 4 =>
    let rd := shortReg c 7
    match field c 10 2 with
    | 0 => some (iType (0#6 ++ imm6 c) rd 5 rd 0x13) -- c.srli
    | 1 => some (iType (0x10#6 ++ imm6 c) rd 5 rd 0x13) -- c.srai
    | 2 => some (iType ((imm6 c).signExtend 12) rd 7 rd 0x13) -- c.andi
    | _ => expandArith c
  | 5 => some (jType ((jumpOffset c).signExtend 21) 0) -- c.j
  | 6 => some (bType ((branchOffset c).signExtend 13) 0 (shortReg c 7) 0) -- c.beqz
  | _ => some (bType ((branchOffset c).signExtend 13) 0 (shortReg c 7) 1) -- c.bnez

def expandQuadrant2 : Option (BitVec 32) :=
  let rd := c.extractLsb' 7 5
  let rs2 := c.extractLsb' 2 5
  match field c 13 3 with
  | 0 => some (iType (0#6 ++ imm6 c) rd 1 rd 0x13) -- c.slli
  | 1 => some (iType ((loadSpD c).setWidth 12) 2 3 rd 0x07) -- c.fldsp, for every register
  | 2 => if rd = 0 then none else some (iType ((loadSpW c).setWidth 12) 2 2 rd 0x03) -- c.lwsp
  | 3 => if rd = 0 then none else some (iType ((loadSpD c).setWidth 12) 2 3 rd 0x03) -- c.ldsp
  | 4 =>
    if field c 12 1 = 0 then
      if rs2 = 0 then if rd = 0 then none else some (iType 0 rd 0 0 0x67) -- c.jr
      else some (word 0 rs2 0 0 rd 0x33) -- c.mv
    else if rs2 = 0 then
      if rd = 0 then some (iType 1 0 0 0 0x73) -- c.ebreak
      else some (iType 0 rd 0 1 0x67) -- c.jalr
    else some (word 0 rs2 rd 0 rd 0x33) -- c.add
  | 5 => some (sType ((storeSpD c).setWidth 12) rs2 2 3 0x27) -- c.fsdsp
  | 6 => some (sType ((storeSpW c).setWidth 12) rs2 2 2 0x23) -- c.swsp
  | _ => some (sType ((storeSpD c).setWidth 12) rs2 2 3 0x23) -- c.sdsp

/-- The 32-bit word that a valid 16-bit encoding stands for; nothing for the reserved
encodings and for the quadrant of the 32-bit words. -/
def expand : Option (BitVec 32) :=
  match field c 0 2 with
  | 0 => expandQuadrant0 c
  | 1 => expandQuadrant1 c
  | 2 => expandQuadrant2 c
  | _ => none

section Immediates

open Decode

variable (c : BitVec 16)

variable {n : ℕ}

variable (x : BitVec n)

theorem signExtend_setWidth (h : n ≤ 64) (hn : n ≠ 0) :
    Decode.signExtend (x.setWidth 64) n = x.signExtend 64 := by
  have hshift : x.setWidth 64 <<< (64 - n) = (x ++ 0#(64 - n)).signExtend 64 := by
    apply eq_of_getLsbD_eq
    intro i hi
    have hlt : i < n + (64 - n) := by omega
    have hle : i - (64 - n) < 64 := by omega
    rw [getLsbD_signExtend, getLsbD_append, getLsbD_shiftLeft, getLsbD_setWidth]
    by_cases hlow : i < 64 - n <;> simp [hi, hlt, hle, hlow]
  rw [Decode.signExtend, hshift, sshiftRight_append 64 x (by omega) hn]

theorem signExtend_of_lt (h : n < 12) : (x.setWidth 12).signExtend 64 = x.setWidth 64 := by
  have hmsb : (x.setWidth 12).msb = false := by
    rw [msb_setWidth]
    simp [getLsbD_of_ge x 11 (by omega)]
  rw [signExtend_eq_setWidth_of_msb_false hmsb]
  apply eq_of_toNat_eq
  have := x.isLt
  have hpow : 2 ^ n ≤ 2 ^ 11 := Nat.pow_le_pow_right (by decide) (by omega)
  simp only [toNat_setWidth]
  omega

theorem setWidth_ne_zero_iff (h : n ≤ 64) : x.setWidth 64 ≠ 0 ↔ x ≠ 0 := by
  have hlt : x.toNat < 2 ^ 64 := lt_of_lt_of_le x.isLt (Nat.pow_le_pow_right (by decide) h)
  rw [not_iff_not, ← toNat_inj, ← toNat_inj, toNat_setWidth, Nat.mod_eq_of_lt hlt]
  rfl

theorem compressedReg_eq (shift : ℕ) : compressedReg c shift = (shortReg c shift).toNat := by
  unfold compressedReg shortReg field
  generalize c.extractLsb' shift 3 = x
  revert x
  decide

theorem imm6_eq : field64 c 2 5 ||| field64 c 12 1 <<< 5 = (imm6 c).setWidth 64 := by
  change _ = (c.extractLsb' 12 1 ++ c.extractLsb' 2 5).setWidth 64
  simp only [field64, setWidth_append_eq_shiftLeft_setWidth_or]
  ac_rfl

theorem ciImmediate_eq : ciImmediate c = (imm6 c).signExtend 64 := by
  unfold ciImmediate
  rw [imm6_eq, signExtend_setWidth _ (by decide) (by decide)]

theorem ciShamt_eq : ciShamt c = (imm6 c).toNat := by
  unfold ciShamt field imm6
  generalize c.extractLsb' 2 5 = x, c.extractLsb' 12 1 = y
  revert x y
  decide

theorem offsetD_eq : field64 c 10 3 <<< 3 ||| field64 c 5 2 <<< 6 = (offsetD c).setWidth 64 := by
  change _ = (c.extractLsb' 5 2 ++ c.extractLsb' 10 3 ++ 0#3).setWidth 64
  simp only [field64, setWidth_append_eq_shiftLeft_setWidth_or, shiftLeft_or_distrib,
    ← shiftLeft_add]
  ac_rfl

theorem offsetW_eq : field64 c 10 3 <<< 3 ||| field64 c 6 1 <<< 2 ||| field64 c 5 1 <<< 6 =
    (offsetW c).setWidth 64 := by
  change _ = (c.extractLsb' 5 1 ++ c.extractLsb' 10 3 ++ c.extractLsb' 6 1 ++ 0#2).setWidth 64
  simp only [field64, setWidth_append_eq_shiftLeft_setWidth_or, shiftLeft_or_distrib,
    ← shiftLeft_add]
  ac_rfl

theorem addi4spnImm_eq : field64 c 7 4 <<< 6 ||| field64 c 11 2 <<< 4 ||| field64 c 5 1 <<< 3 |||
    field64 c 6 1 <<< 2 = (addi4spnImm c).setWidth 64 := by
  change _ = (c.extractLsb' 7 4 ++ c.extractLsb' 11 2 ++ c.extractLsb' 5 1 ++ c.extractLsb' 6 1 ++
    0#2).setWidth 64
  simp only [field64, setWidth_append_eq_shiftLeft_setWidth_or, shiftLeft_or_distrib,
    ← shiftLeft_add]
  simp only [setWidth_zero, or_zero, Nat.reduceAdd]

theorem addi16spImm_eq : field64 c 6 1 <<< 4 ||| field64 c 2 1 <<< 5 ||| field64 c 5 1 <<< 6 |||
    field64 c 3 2 <<< 7 ||| field64 c 12 1 <<< 9 = (addi16spImm c).setWidth 64 := by
  change _ = (c.extractLsb' 12 1 ++ c.extractLsb' 3 2 ++ c.extractLsb' 5 1 ++ c.extractLsb' 2 1 ++
    c.extractLsb' 6 1 ++ 0#4).setWidth 64
  simp only [field64, setWidth_append_eq_shiftLeft_setWidth_or, shiftLeft_or_distrib,
    ← shiftLeft_add]
  ac_rfl

theorem jumpOffset_eq : field64 c 3 3 <<< 1 ||| field64 c 11 1 <<< 4 ||| field64 c 2 1 <<< 5 |||
    field64 c 7 1 <<< 6 ||| field64 c 6 1 <<< 7 ||| field64 c 9 2 <<< 8 |||
    field64 c 8 1 <<< 10 ||| field64 c 12 1 <<< 11 = (jumpOffset c).setWidth 64 := by
  change _ = (c.extractLsb' 12 1 ++ c.extractLsb' 8 1 ++ c.extractLsb' 9 2 ++ c.extractLsb' 6 1 ++
    c.extractLsb' 7 1 ++ c.extractLsb' 2 1 ++ c.extractLsb' 11 1 ++ c.extractLsb' 3 3 ++
    0#1).setWidth 64
  simp only [field64, setWidth_append_eq_shiftLeft_setWidth_or, shiftLeft_or_distrib,
    ← shiftLeft_add]
  ac_rfl

theorem branchOffset_eq : field64 c 3 2 <<< 1 ||| field64 c 10 2 <<< 3 ||| field64 c 2 1 <<< 5 |||
    field64 c 5 2 <<< 6 ||| field64 c 12 1 <<< 8 = (branchOffset c).setWidth 64 := by
  change _ = (c.extractLsb' 12 1 ++ c.extractLsb' 5 2 ++ c.extractLsb' 2 1 ++ c.extractLsb' 10 2 ++
    c.extractLsb' 3 2 ++ 0#1).setWidth 64
  simp only [field64, setWidth_append_eq_shiftLeft_setWidth_or, shiftLeft_or_distrib,
    ← shiftLeft_add]
  ac_rfl

theorem loadSpD_eq : field64 c 5 2 <<< 3 ||| field64 c 12 1 <<< 5 ||| field64 c 2 3 <<< 6 =
    (loadSpD c).setWidth 64 := by
  change _ = (c.extractLsb' 2 3 ++ c.extractLsb' 12 1 ++ c.extractLsb' 5 2 ++ 0#3).setWidth 64
  simp only [field64, setWidth_append_eq_shiftLeft_setWidth_or, shiftLeft_or_distrib,
    ← shiftLeft_add]
  ac_rfl

theorem loadSpW_eq : field64 c 4 3 <<< 2 ||| field64 c 12 1 <<< 5 ||| field64 c 2 2 <<< 6 =
    (loadSpW c).setWidth 64 := by
  change _ = (c.extractLsb' 2 2 ++ c.extractLsb' 12 1 ++ c.extractLsb' 4 3 ++ 0#2).setWidth 64
  simp only [field64, setWidth_append_eq_shiftLeft_setWidth_or, shiftLeft_or_distrib,
    ← shiftLeft_add]
  ac_rfl

theorem storeSpD_eq : field64 c 10 3 <<< 3 ||| field64 c 7 3 <<< 6 = (storeSpD c).setWidth 64 := by
  change _ = (c.extractLsb' 7 3 ++ c.extractLsb' 10 3 ++ 0#3).setWidth 64
  simp only [field64, setWidth_append_eq_shiftLeft_setWidth_or, shiftLeft_or_distrib,
    ← shiftLeft_add]
  ac_rfl

theorem storeSpW_eq : field64 c 9 4 <<< 2 ||| field64 c 7 2 <<< 6 = (storeSpW c).setWidth 64 := by
  change _ = (c.extractLsb' 7 2 ++ c.extractLsb' 9 4 ++ 0#2).setWidth 64
  simp only [field64, setWidth_append_eq_shiftLeft_setWidth_or, shiftLeft_or_distrib,
    ← shiftLeft_add]
  ac_rfl

theorem append_low : (x ++ 0#1).getLsbD 0 = false := by
  rw [getLsbD_append]
  rfl

theorem jumpOffset_low : ((jumpOffset c).signExtend 21)[0] = false := by
  have hlow : (jumpOffset c).getLsbD 0 = false := append_low _
  rw [← getLsbD_eq_getElem, getLsbD_signExtend, hlow]
  rfl

theorem branchOffset_low : ((branchOffset c).signExtend 13)[0] = false := by
  have hlow : (branchOffset c).getLsbD 0 = false := append_low _
  rw [← getLsbD_eq_getElem, getLsbD_signExtend, hlow]
  rfl

end Immediates

end VisualCpu.Rvc
