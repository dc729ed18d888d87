import Mathlib.Data.BitVec
import VisualCpu.Library.IndexTypes

/-!
# Instruction words and their decoder

`Insn` is the decoded instruction handed to the semantics. `decode` follows
`decode.c`: a 16-bit encoding is expanded directly into the fields of its
32-bit counterpart, so every later stage sees a single instruction format.
An encoding that no branch recognizes keeps opcode zero and is rejected later.
-/

namespace VisualCpu

/-- A decoded instruction; register and function fields are small naturals. -/
structure Insn where
  raw : BitVec 32
  (size opcode rd funct3 rs1 rs2 : ℕ)
  (rs3 funct7 funct5 aq rl : ℕ)
  imm : BitVec 64
deriving DecidableEq

namespace Decode

/-- Unsigned field of `width` bits starting at `shift`. -/
def field {w : ℕ} (raw : BitVec w) (shift width : ℕ) : ℕ := (raw.extractLsb' shift width).toNat

/-- The same field as a 64-bit word, ready to be placed inside an immediate. -/
def field64 {w : ℕ} (raw : BitVec w) (shift width : ℕ) : BitVec 64 :=
  (raw.extractLsb' shift width).setWidth 64

theorem field_lt {w : ℕ} (raw : BitVec w) (shift width : ℕ) : field raw shift width < 2 ^ width :=
  BitVec.isLt _

def signExtend (value : BitVec 64) (bits : ℕ) : BitVec 64 :=
  (value <<< (64 - bits)).sshiftRight (64 - bits)

variable (raw : BitVec 16)

def compressedReg (shift : ℕ) : ℕ := 8 + field raw shift 3

def clearInsn (raw : BitVec 32) (size : ℕ) : Insn :=
  { raw, size, opcode := 0, rd := 0, funct3 := 0, rs1 := 0, rs2 := 0, rs3 := 0, funct7 := 0,
    funct5 := 0, aq := 0, rl := 0, imm := 0 }

def setIInsn (rd funct3 rs1 : ℕ) (imm : BitVec 64) (opcode : ℕ) : Insn :=
  { clearInsn (raw.setWidth 32) 2 with opcode, rd, funct3, rs1, imm }

def setShiftIInsn (rd funct3 rs1 shamt funct7 : ℕ) : Insn :=
  { setIInsn raw rd funct3 rs1 0 0x13 with rs2 := shamt % 32, funct7 }

def setRInsn (rd funct3 rs1 rs2 funct7 opcode : ℕ) : Insn :=
  { clearInsn (raw.setWidth 32) 2 with opcode, rd, funct3, rs1, rs2, funct7 }

def setSInsn (funct3 rs1 rs2 : ℕ) (imm : BitVec 64) (opcode : ℕ) : Insn :=
  { clearInsn (raw.setWidth 32) 2 with opcode, funct3, rs1, rs2, imm }

def setBInsn (funct3 rs1 rs2 : ℕ) (imm : BitVec 64) : Insn :=
  { clearInsn (raw.setWidth 32) 2 with opcode := 0x63, funct3, rs1, rs2, imm }

def setUInsn (rd : ℕ) (imm : BitVec 64) (opcode : ℕ) : Insn :=
  { clearInsn (raw.setWidth 32) 2 with opcode, rd, imm }

def setJInsn (rd : ℕ) (imm : BitVec 64) : Insn :=
  { clearInsn (raw.setWidth 32) 2 with opcode := 0x6F, rd, imm }

def setSystemInsn (imm : BitVec 64) : Insn :=
  { clearInsn (raw.setWidth 32) 2 with opcode := 0x73, imm }

def ciImmediate : BitVec 64 :=
  signExtend (field64 raw 2 5 ||| field64 raw 12 1 <<< 5) 6

def ciShamt : ℕ := field raw 2 5 + 32 * field raw 12 1

/-- Immediate of a 32-bit encoding; opcodes without one keep zero. -/
def standardImm (raw : BitVec 32) : BitVec 64 :=
  match field raw 0 7 with
  | 0x03 | 0x07 | 0x13 | 0x1B | 0x67 | 0x73 =>
    ((raw &&& 0xFFF00000#32).signExtend 64).sshiftRight 20
  | 0x23 | 0x27 =>
    (((raw &&& 0xFE000000#32) ||| ((raw &&& 0xF80#32) <<< 13)).signExtend 64).sshiftRight 20
  | 0x63 =>
    (((raw &&& 0x80000000#32) ||| ((raw &&& 0x80#32) <<< 23) ||| ((raw &&& 0x7E000000#32) >>> 1) |||
      ((raw &&& 0xF00#32) <<< 12)).signExtend 64).sshiftRight 19
  | 0x37 | 0x17 => (raw &&& 0xFFFFF000#32).signExtend 64
  | 0x6F =>
    ((raw &&& 0x80000000#32).signExtend 64).sshiftRight 11 |||
      (raw &&& 0x000FF000#32).setWidth 64 |||
      (raw &&& 0x00100000#32).setWidth 64 >>> 9 |||
      (raw &&& 0x7FE00000#32).setWidth 64 >>> 20
  | _ => 0

def decodeStandard (raw : BitVec 32) : Insn :=
  { raw
    size := 4
    opcode := field raw 0 7
    rd := field raw 7 5
    funct3 := field raw 12 3
    rs1 := field raw 15 5
    rs2 := field raw 20 5
    rs3 := field raw 27 5
    funct7 := field raw 25 7
    funct5 := field raw 27 5
    aq := field raw 26 1
    rl := field raw 25 1
    imm := standardImm raw }

def decodeQuadrant0 : Insn :=
  let unknown := clearInsn (raw.setWidth 32) 2
  let immD := field64 raw 10 3 <<< 3 ||| field64 raw 5 2 <<< 6
  let immW := field64 raw 10 3 <<< 3 ||| field64 raw 6 1 <<< 2 ||| field64 raw 5 1 <<< 6
  match field raw 13 3 with
  | 0 =>
    let imm := field64 raw 7 4 <<< 6 ||| field64 raw 11 2 <<< 4 ||| field64 raw 5 1 <<< 3 |||
      field64 raw 6 1 <<< 2
    if imm ≠ 0 then setIInsn raw (compressedReg raw 2) 0 2 imm 0x13 else unknown
  | 1 => setIInsn raw (compressedReg raw 2) 3 (compressedReg raw 7) immD 0x07
  | 2 => setIInsn raw (compressedReg raw 2) 2 (compressedReg raw 7) immW 0x03
  | 3 => setIInsn raw (compressedReg raw 2) 3 (compressedReg raw 7) immD 0x03
  | 5 => setSInsn raw 3 (compressedReg raw 7) (compressedReg raw 2) immD 0x27
  | 6 => setSInsn raw 2 (compressedReg raw 7) (compressedReg raw 2) immW 0x23
  | 7 => setSInsn raw 3 (compressedReg raw 7) (compressedReg raw 2) immD 0x23
  | _ => unknown

def decodeQuadrant1Arith : Insn :=
  let unknown := clearInsn (raw.setWidth 32) 2
  let rd := compressedReg raw 7
  let rs2 := compressedReg raw 2
  match field raw 5 2 with
  | 0 => if field raw 12 1 = 0 then setRInsn raw rd 0 rd rs2 0x20 0x33
      else setRInsn raw rd 0 rd rs2 0x20 0x3B
  | 1 => if field raw 12 1 = 0 then setRInsn raw rd 4 rd rs2 0x00 0x33
      else setRInsn raw rd 0 rd rs2 0x00 0x3B
  | 2 => if field raw 12 1 = 0 then setRInsn raw rd 6 rd rs2 0x00 0x33 else unknown
  | 3 => if field raw 12 1 = 0 then setRInsn raw rd 7 rd rs2 0x00 0x33 else unknown
  | _ => unknown

def decodeQuadrant1 : Insn :=
  let unknown := clearInsn (raw.setWidth 32) 2
  let rdRs1 := field raw 7 5
  let branchImm := signExtend (field64 raw 3 2 <<< 1 ||| field64 raw 10 2 <<< 3 |||
    field64 raw 2 1 <<< 5 ||| field64 raw 5 2 <<< 6 ||| field64 raw 12 1 <<< 8) 9
  match field raw 13 3 with
  | 0 => setIInsn raw rdRs1 0 rdRs1 (ciImmediate raw) 0x13
  | 1 => if rdRs1 ≠ 0 then setIInsn raw rdRs1 0 rdRs1 (ciImmediate raw) 0x1B else unknown
  | 2 => setIInsn raw rdRs1 0 0 (ciImmediate raw) 0x13
  | 3 =>
    if rdRs1 = 2 then
      let imm := field64 raw 6 1 <<< 4 ||| field64 raw 2 1 <<< 5 ||| field64 raw 5 1 <<< 6 |||
        field64 raw 3 2 <<< 7 ||| field64 raw 12 1 <<< 9
      if imm ≠ 0 then setIInsn raw 2 0 2 (signExtend imm 10) 0x13 else unknown
    else if rdRs1 ≠ 0 then
      let imm := ciImmediate raw <<< 12
      if imm ≠ 0 then setUInsn raw rdRs1 imm 0x37 else unknown
    else unknown
  | 4 =>
    let rd := compressedReg raw 7
    match field raw 10 2 with
    | 0 => setShiftIInsn raw rd 5 rd (ciShamt raw) (ciShamt raw / 32)
    | 1 => setShiftIInsn raw rd 5 rd (ciShamt raw) (0x20 + ciShamt raw / 32)
    | 2 => setIInsn raw rd 7 rd (ciImmediate raw) 0x13
    | _ => decodeQuadrant1Arith raw
  | 5 =>
    let imm := field64 raw 3 3 <<< 1 ||| field64 raw 11 1 <<< 4 ||| field64 raw 2 1 <<< 5 |||
      field64 raw 7 1 <<< 6 ||| field64 raw 6 1 <<< 7 ||| field64 raw 9 2 <<< 8 |||
      field64 raw 8 1 <<< 10 ||| field64 raw 12 1 <<< 11
    setJInsn raw 0 (signExtend imm 12)
  | 6 => setBInsn raw 0 (compressedReg raw 7) 0 branchImm
  | 7 => setBInsn raw 1 (compressedReg raw 7) 0 branchImm
  | _ => unknown

def decodeQuadrant2 : Insn :=
  let unknown := clearInsn (raw.setWidth 32) 2
  let rdRs1 := field raw 7 5
  let rs2 := field raw 2 5
  let loadImm := field64 raw 5 2 <<< 3 ||| field64 raw 12 1 <<< 5 ||| field64 raw 2 3 <<< 6
  let storeImm := field64 raw 10 3 <<< 3 ||| field64 raw 7 3 <<< 6
  match field raw 13 3 with
  | 0 => setShiftIInsn raw rdRs1 1 rdRs1 (ciShamt raw) (ciShamt raw / 32)
  | 1 => if rdRs1 = 0 then unknown else setIInsn raw rdRs1 3 2 loadImm 0x07
  | 2 =>
    if rdRs1 = 0 then unknown
    else
      let imm := field64 raw 4 3 <<< 2 ||| field64 raw 12 1 <<< 5 ||| field64 raw 2 2 <<< 6
      setIInsn raw rdRs1 2 2 imm 0x03
  | 3 => if rdRs1 = 0 then unknown else setIInsn raw rdRs1 3 2 loadImm 0x03
  | 4 =>
    if field raw 12 1 = 0 then
      if rs2 = 0 then
        if rdRs1 ≠ 0 then setIInsn raw 0 0 rdRs1 0 0x67 else unknown
      else setRInsn raw rdRs1 0 0 rs2 0x00 0x33
    else if rs2 = 0 then
      if rdRs1 = 0 then setSystemInsn raw 1 else setIInsn raw 1 0 rdRs1 0 0x67
    else setRInsn raw rdRs1 0 rdRs1 rs2 0x00 0x33
  | 5 => setSInsn raw 3 2 rs2 storeImm 0x27
  | 6 =>
    let imm := field64 raw 9 4 <<< 2 ||| field64 raw 7 2 <<< 6
    setSInsn raw 2 2 rs2 imm 0x23
  | 7 => setSInsn raw 3 2 rs2 storeImm 0x23
  | _ => unknown

def decodeCompressed : Insn :=
  match field raw 0 2 with
  | 0 => decodeQuadrant0 raw
  | 1 => decodeQuadrant1 raw
  | 2 => decodeQuadrant2 raw
  | _ => clearInsn (raw.setWidth 32) 2

end Decode

open Decode in
/-- The decoder entry point: the two low bits separate the two encoding widths. -/
def decode (raw : BitVec 32) : Insn :=
  if field raw 0 2 ≠ 3 then decodeCompressed (raw.setWidth 16) else decodeStandard raw

def instructionSize (insn : Insn) : BitVec 64 :=
  if insn.size ≠ 0 then BitVec.ofNat 64 insn.size else 4

/-- The register fields name registers. -/
structure Insn.Bounded (insn : Insn) : Prop where
  rd : insn.rd < 32
  rs1 : insn.rs1 < 32
  rs2 : insn.rs2 < 32
  rs3 : insn.rs3 < 32

namespace Decode

theorem compressedReg_lt (raw : BitVec 16) (shift : ℕ) : compressedReg raw shift < 32 := by
  have := field_lt raw shift 3
  unfold compressedReg
  omega

theorem clearInsn_bounded (raw : BitVec 32) (size : ℕ) : (clearInsn raw size).Bounded := by
  constructor <;> simp [clearInsn]

section Bounded

variable {raw : BitVec 16} {rd rs1 rs2 : ℕ}

variable (imm : BitVec 64)

theorem setIInsn_bounded (funct3 : ℕ) (opcode : ℕ) (hrd : rd < 32)
    (hrs1 : rs1 < 32) : (setIInsn raw rd funct3 rs1 imm opcode).Bounded := by
  constructor <;> simp [setIInsn, clearInsn, hrd, hrs1]

theorem setShiftIInsn_bounded (funct3 shamt funct7 : ℕ) (hrd : rd < 32) (hrs1 : rs1 < 32) :
    (setShiftIInsn raw rd funct3 rs1 shamt funct7).Bounded := by
  constructor <;> simp [setShiftIInsn, setIInsn, clearInsn, hrd, hrs1, Nat.mod_lt]

theorem setRInsn_bounded (funct3 funct7 opcode : ℕ) (hrd : rd < 32) (hrs1 : rs1 < 32)
    (hrs2 : rs2 < 32) : (setRInsn raw rd funct3 rs1 rs2 funct7 opcode).Bounded := by
  constructor <;> simp [setRInsn, clearInsn, hrd, hrs1, hrs2]

theorem setSInsn_bounded (funct3 : ℕ) (opcode : ℕ) (hrs1 : rs1 < 32)
    (hrs2 : rs2 < 32) : (setSInsn raw funct3 rs1 rs2 imm opcode).Bounded := by
  constructor <;> simp [setSInsn, clearInsn, hrs1, hrs2]

theorem setBInsn_bounded (funct3 : ℕ) (hrs1 : rs1 < 32) (hrs2 : rs2 < 32) :
    (setBInsn raw funct3 rs1 rs2 imm).Bounded := by
  constructor <;> simp [setBInsn, clearInsn, hrs1, hrs2]

theorem setUInsn_bounded (opcode : ℕ) (hrd : rd < 32) : (setUInsn raw rd imm opcode).Bounded := by
  constructor <;> simp [setUInsn, clearInsn, hrd]

theorem setJInsn_bounded (hrd : rd < 32) : (setJInsn raw rd imm).Bounded := by
  constructor <;> simp [setJInsn, clearInsn, hrd]

theorem setSystemInsn_bounded : (setSystemInsn raw imm).Bounded := by
  constructor <;> simp [setSystemInsn, clearInsn]

end Bounded

variable (raw : BitVec 16)

theorem decodeQuadrant0_bounded : (decodeQuadrant0 raw).Bounded := by
  have hreg := compressedReg_lt raw
  unfold decodeQuadrant0
  dsimp only
  split
  · split_ifs
    · exact setIInsn_bounded _ _ _ (hreg _) (by omega)
    · exact clearInsn_bounded _ _
  · exact setIInsn_bounded _ _ _ (hreg _) (hreg _)
  · exact setIInsn_bounded _ _ _ (hreg _) (hreg _)
  · exact setIInsn_bounded _ _ _ (hreg _) (hreg _)
  · exact setSInsn_bounded _ _ _ (hreg _) (hreg _)
  · exact setSInsn_bounded _ _ _ (hreg _) (hreg _)
  · exact setSInsn_bounded _ _ _ (hreg _) (hreg _)
  · exact clearInsn_bounded _ _

theorem decodeQuadrant1Arith_bounded : (decodeQuadrant1Arith raw).Bounded := by
  have hreg := compressedReg_lt raw
  unfold decodeQuadrant1Arith
  split <;> (try split_ifs) <;>
    first
      | exact setRInsn_bounded _ _ _ (hreg _) (hreg _) (hreg _)
      | exact clearInsn_bounded _ _

theorem decodeQuadrant1_bounded : (decodeQuadrant1 raw).Bounded := by
  have hreg := compressedReg_lt raw
  have hfull := field_lt raw 7 5
  unfold decodeQuadrant1
  dsimp only
  split
  · exact setIInsn_bounded _ _ _ hfull hfull
  · split_ifs
    · exact setIInsn_bounded _ _ _ hfull hfull
    · exact clearInsn_bounded _ _
  · exact setIInsn_bounded _ _ _ hfull (by omega)
  · split_ifs
    · exact setIInsn_bounded _ _ _ (by omega) (by omega)
    · exact clearInsn_bounded _ _
    · exact setUInsn_bounded _ _ hfull
    · exact clearInsn_bounded _ _
    · exact clearInsn_bounded _ _
  · split
    · exact setShiftIInsn_bounded _ _ _ (hreg _) (hreg _)
    · exact setShiftIInsn_bounded _ _ _ (hreg _) (hreg _)
    · exact setIInsn_bounded _ _ _ (hreg _) (hreg _)
    · exact decodeQuadrant1Arith_bounded raw
  · exact setJInsn_bounded _ (by omega)
  · exact setBInsn_bounded _ _ (hreg _) (by omega)
  · exact setBInsn_bounded _ _ (hreg _) (by omega)
  · exact clearInsn_bounded _ _

theorem decodeQuadrant2_bounded : (decodeQuadrant2 raw).Bounded := by
  have hrd := field_lt raw 7 5
  have hrs2 := field_lt raw 2 5
  unfold decodeQuadrant2
  dsimp only
  split
  · exact setShiftIInsn_bounded _ _ _ hrd hrd
  · split_ifs
    · exact clearInsn_bounded _ _
    · exact setIInsn_bounded _ _ _ hrd (by omega)
  · split_ifs
    · exact clearInsn_bounded _ _
    · exact setIInsn_bounded _ _ _ hrd (by omega)
  · split_ifs
    · exact clearInsn_bounded _ _
    · exact setIInsn_bounded _ _ _ hrd (by omega)
  · split_ifs
    · exact setIInsn_bounded _ _ _ (by omega) hrd
    · exact clearInsn_bounded _ _
    · exact setRInsn_bounded _ _ _ hrd (by omega) hrs2
    · exact setSystemInsn_bounded _
    · exact setIInsn_bounded _ _ _ (by omega) hrd
    · exact setRInsn_bounded _ _ _ hrd hrd hrs2
  · exact setSInsn_bounded _ _ _ (by omega) hrs2
  · exact setSInsn_bounded _ _ _ (by omega) hrs2
  · exact setSInsn_bounded _ _ _ (by omega) hrs2
  · exact clearInsn_bounded _ _

theorem decodeCompressed_bounded : (decodeCompressed raw).Bounded := by
  unfold decodeCompressed
  split
  · exact decodeQuadrant0_bounded raw
  · exact decodeQuadrant1_bounded raw
  · exact decodeQuadrant2_bounded raw
  · exact clearInsn_bounded _ _

section Size

variable (raw : BitVec 16)

theorem decodeQuadrant0_size : (decodeQuadrant0 raw).size = 2 := by
  unfold decodeQuadrant0
  dsimp only
  split <;> (try split_ifs) <;> rfl

theorem decodeQuadrant1Arith_size : (decodeQuadrant1Arith raw).size = 2 := by
  unfold decodeQuadrant1Arith
  split <;> (try split_ifs) <;> rfl

theorem decodeQuadrant1_size : (decodeQuadrant1 raw).size = 2 := by
  unfold decodeQuadrant1
  dsimp only
  split <;> (try split_ifs) <;> try rfl
  split
  · rfl
  · rfl
  · rfl
  · exact decodeQuadrant1Arith_size raw

theorem decodeQuadrant2_size : (decodeQuadrant2 raw).size = 2 := by
  unfold decodeQuadrant2
  dsimp only
  split <;> (try split_ifs) <;> rfl

theorem decodeCompressed_size : (decodeCompressed raw).size = 2 := by
  unfold decodeCompressed
  split
  · exact decodeQuadrant0_size raw
  · exact decodeQuadrant1_size raw
  · exact decodeQuadrant2_size raw
  · rfl

end Size

end Decode

theorem decode_size (raw : BitVec 32) :
    (decode raw).size = if Decode.field raw 0 2 ≠ 3 then 2 else 4 := by
  unfold decode
  split_ifs
  · exact Decode.decodeCompressed_size _
  · rfl

theorem decode_bounded (raw : BitVec 32) : (decode raw).Bounded := by
  unfold decode
  split_ifs
  · exact Decode.decodeCompressed_bounded _
  exact ⟨Decode.field_lt _ _ _, Decode.field_lt _ _ _, Decode.field_lt _ _ _, Decode.field_lt _ _ _⟩

/-!
## Effects of an instruction

The semantics turns an instruction into a record of effects, and the commit
boundary applies the record. A write with an `enable` flag in `effects.h` is an
`Option` here, so a disabled write carries no data.
-/

structure TrapRequest where
  (cause tval : BitVec 64)
deriving DecidableEq

structure RegWrite where
  rd : ℕ
  value : BitVec 64
deriving DecidableEq

structure FpRegWrite where
  rd : ℕ
  value : BitVec 64
deriving DecidableEq

structure CsrWrite where
  addr : BitVec 12
  value : BitVec 64
deriving DecidableEq

inductive MemoryKind where
  | none | load | store
deriving DecidableEq

inductive MemoryTarget where
  | integer | float
deriving DecidableEq

structure MemoryRequest where
  kind : MemoryKind := .none
  target : MemoryTarget := .integer
  addr : BitVec 64 := 0
  storeValue : BitVec 64 := 0
  rd : ℕ := 0
  size : ℕ := 0
  signExtend : Bool := false
  commitAtBoundary : Bool := false
  nonSpeculative : Bool := false
deriving DecidableEq

inductive AtomicKind where
  | none | loadReserved | storeConditional | swap | add | xor | and | or
  | min | max | minUnsigned | maxUnsigned
deriving DecidableEq

structure AtomicRequest where
  kind : AtomicKind := .none
  addr : BitVec 64 := 0
  storeValue : BitVec 64 := 0
  rd : ℕ := 0
  size : ℕ := 0
  aq : Bool := false
  rl : Bool := false
  commitAtBoundary : Bool := true
  nonSpeculative : Bool := true
deriving DecidableEq

/-- A 128-bit vector register as its sixteen bytes. -/
abbrev VectorReg := Vector (BitVec 8) 16

inductive VectorKind where
  | none | setConfig | load | store | add | mul | max | dot
deriving DecidableEq

structure VectorRequest where
  kind : VectorKind := .none
  vd : ℕ := 0
  vs1 : ℕ := 0
  vs2 : ℕ := 0
  addr : BitVec 64 := 0
  sewBytes : ℕ := 0
  vl : ℕ := 0
  /-- The bytes computed in the execute stage, once they are valid. -/
  result : Option VectorReg := Option.none
deriving DecidableEq

inductive TrapReturnKind where
  | none | mret | sret
deriving DecidableEq

structure ControlEffect where
  /-- The target of a taken redirect. -/
  redirectPc : Option (BitVec 64) := Option.none
  halt : Bool := false
  flushTlb : Bool := false
  trapReturn : TrapReturnKind := .none
deriving DecidableEq

structure InsnEffects where
  rdWrite : Option RegWrite := Option.none
  fpWrite : Option FpRegWrite := Option.none
  csrWrite : Option CsrWrite := Option.none
  mem : MemoryRequest := {}
  atomic : AtomicRequest := {}
  vector : VectorRequest := {}
  trap : Option TrapRequest := Option.none
  control : ControlEffect := {}
  floatingStateTouched : Bool := false
  retired : Bool := true
deriving DecidableEq

def causeIllegalInsn : BitVec 64 := 2

/-- The effects of an encoding that the hardware does not accept. -/
def illegalInstructionEffect (raw : BitVec 32) : InsnEffects :=
  { trap := some ⟨causeIllegalInsn, raw.setWidth 64⟩, retired := false }

/-- The effects that only write an integer register. -/
def setRd (rd : ℕ) (value : BitVec 64) : InsnEffects :=
  { rdWrite := some ⟨rd, value⟩ }

inductive RegisterOperandKind where
  | none | gpr | fpr
deriving DecidableEq

structure InstructionRegisterDescriptor where
  (rs1 rs2 rs3 rd : RegisterOperandKind)
deriving DecidableEq

/-- The memory access an encoding performs, without its address. -/
structure InstructionMemoryDescriptor where
  valid : Bool := false
  kind : MemoryKind := .none
  target : MemoryTarget := .integer
  size : ℕ := 0
  signExtend : Bool := false
  commitAtBoundary : Bool := false
  nonSpeculative : Bool := false
deriving DecidableEq

end VisualCpu
