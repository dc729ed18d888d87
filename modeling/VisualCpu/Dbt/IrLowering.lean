import VisualCpu.Dbt.Translator

/-!
# Lowering

`lower_dbt_ir_unit` writes every intermediate instruction as one operation on two
operands, with the width of the operation and the kinds of the operands.
-/

namespace VisualCpu

inductive DbtLoweredOpcode where
  | compute | fallthrough
deriving DecidableEq

inductive DbtLoweredOperandKind where
  | none | gpr | immediate | pc
deriving DecidableEq

inductive DbtLoweredAluOp where
  | none | move | add | sub | xor | or | and | shiftLeft
  | shiftRightLogical | shiftRightArithmetic | setLessThan | setLessThanUnsigned
deriving DecidableEq

inductive DbtLoweredWidth where
  | xlen | word
deriving DecidableEq

structure DbtLoweredInstruction where
  opcode : DbtLoweredOpcode := .compute
  pc : BitVec 64 := 0
  raw : BitVec 32 := 0
  alu : DbtLoweredAluOp := .none
  width : DbtLoweredWidth := .xlen
  lhsKind : DbtLoweredOperandKind := .none
  rhsKind : DbtLoweredOperandKind := .none
  rd : ℕ := 0
  rs1 : ℕ := 0
  rs2 : ℕ := 0
  imm : BitVec 64 := 0
  nextPc : BitVec 64 := 0
  writesGpr : Bool := false
  signExtendWord : Bool := false
deriving DecidableEq

structure DbtIrLoweringResult where
  ok : Bool
  (startPc endPc : BitVec 64)
  rejectKind : DbtRejectKind := .none
  rejectPc : BitVec 64 := 0
  rejectRaw : BitVec 32 := 0
  rejectReason : String := ""
  instructions : List DbtLoweredInstruction := []

namespace DbtIrLowering

variable (instruction : DbtIrInstruction)

def baseCompute : DbtLoweredInstruction :=
  { opcode := .compute, pc := instruction.pc, raw := instruction.raw, rd := instruction.rd,
    rs1 := instruction.rs1, rs2 := instruction.rs2, imm := instruction.imm,
    nextPc := instruction.nextPc, writesGpr := instruction.rd != 0 }

def lowerMove (sourceKind : DbtLoweredOperandKind) :
    DbtLoweredInstruction :=
  { baseCompute instruction with alu := .move, lhsKind := sourceKind }

def lowerBinary (op : DbtLoweredAluOp)
    (lhsKind rhsKind : DbtLoweredOperandKind) (width : DbtLoweredWidth) : DbtLoweredInstruction :=
  { baseCompute instruction with
    alu := op
    width
    lhsKind
    rhsKind
    signExtendWord := width == .word }

/-- `lower_ir_instruction`, which accepts every opcode. -/
def lowerIrInstruction : DbtLoweredInstruction :=
  let binary := lowerBinary instruction
  match instruction.opcode with
  | .writeRegImm => lowerMove instruction .immediate
  | .addPcImm => binary .add .pc .immediate .xlen
  | .addRegImm => binary .add .gpr .immediate .xlen
  | .addRegImmWord => binary .add .gpr .immediate .word
  | .xorRegImm => binary .xor .gpr .immediate .xlen
  | .orRegImm => binary .or .gpr .immediate .xlen
  | .andRegImm => binary .and .gpr .immediate .xlen
  | .shiftLeftRegImm => binary .shiftLeft .gpr .immediate .xlen
  | .shiftRightLogicalRegImm => binary .shiftRightLogical .gpr .immediate .xlen
  | .shiftRightArithmeticRegImm => binary .shiftRightArithmetic .gpr .immediate .xlen
  | .shiftLeftRegImmWord => binary .shiftLeft .gpr .immediate .word
  | .shiftRightLogicalRegImmWord => binary .shiftRightLogical .gpr .immediate .word
  | .shiftRightArithmeticRegImmWord => binary .shiftRightArithmetic .gpr .immediate .word
  | .setLessThanRegImm => binary .setLessThan .gpr .immediate .xlen
  | .setLessThanUnsignedRegImm => binary .setLessThanUnsigned .gpr .immediate .xlen
  | .addRegReg => binary .add .gpr .gpr .xlen
  | .subRegReg => binary .sub .gpr .gpr .xlen
  | .addRegRegWord => binary .add .gpr .gpr .word
  | .subRegRegWord => binary .sub .gpr .gpr .word
  | .xorRegReg => binary .xor .gpr .gpr .xlen
  | .orRegReg => binary .or .gpr .gpr .xlen
  | .andRegReg => binary .and .gpr .gpr .xlen
  | .shiftLeftRegReg => binary .shiftLeft .gpr .gpr .xlen
  | .shiftRightLogicalRegReg => binary .shiftRightLogical .gpr .gpr .xlen
  | .shiftRightArithmeticRegReg => binary .shiftRightArithmetic .gpr .gpr .xlen
  | .shiftLeftRegRegWord => binary .shiftLeft .gpr .gpr .word
  | .shiftRightLogicalRegRegWord => binary .shiftRightLogical .gpr .gpr .word
  | .shiftRightArithmeticRegRegWord => binary .shiftRightArithmetic .gpr .gpr .word
  | .setLessThanRegReg => binary .setLessThan .gpr .gpr .xlen
  | .setLessThanUnsignedRegReg => binary .setLessThanUnsigned .gpr .gpr .xlen
  | .fallthrough =>
    { opcode := .fallthrough, pc := instruction.pc, raw := instruction.raw,
      nextPc := instruction.nextPc }

end DbtIrLowering

open DbtIrLowering in
def lowerDbtIrUnit (unit : DbtTranslationUnit) : DbtIrLoweringResult :=
  if !unit.ok then
    { ok := false, startPc := unit.startPc, endPc := unit.endPc, rejectKind := unit.rejectKind,
      rejectPc := unit.rejectPc, rejectRaw := unit.rejectRaw, rejectReason := unit.rejectReason }
  else
    { ok := true, startPc := unit.startPc, endPc := unit.endPc,
      instructions := unit.instructions.map lowerIrInstruction }

/-!
## Evaluating a translation unit

`evaluate_dbt_ir_unit`, the reference meaning of the intermediate instructions: each
one writes a register of a copied register file, and the last one gives the pc.
-/

structure DbtIrEvaluationInput where
  gpr : Fin 32 → BitVec 64
  pc : BitVec 64

structure DbtIrEvaluationResult where
  ok : Bool
  rejectKind : DbtRejectKind := .none
  rejectReason : String := ""
  gpr : Fin 32 → BitVec 64
  nextPc : BitVec 64
  retiredInstructions : BitVec 64 := 0

namespace DbtIr

/-- `write_gpr`: numbers outside the register file are dropped. -/
def writeGpr (gpr : Fin 32 → BitVec 64) (rd : ℕ) (value : BitVec 64) : Fin 32 → BitVec 64 :=
  let written := if rd ≠ 0 ∧ rd < 32 then Function.update gpr (Fin.ofNat 32 rd) value else gpr
  Function.update written 0 0

theorem writeGpr_zero (gpr : Fin 32 → BitVec 64) (rd : ℕ) (value : BitVec 64) :
    writeGpr gpr rd value 0 = 0 := by
  simp [writeGpr]

def value (instruction : DbtIrInstruction) (gpr : Fin 32 → BitVec 64) : BitVec 64 :=
  let lhs := gpr (Fin.ofNat 32 instruction.rs1)
  let rhs := gpr (Fin.ofNat 32 instruction.rs2)
  let imm := instruction.imm
  let amount := (imm.setWidth 8 &&& 63).toNat
  let amountWord := (imm.setWidth 8 &&& 31).toNat
  match instruction.opcode with
  | .writeRegImm => imm
  | .addPcImm => instruction.pc + imm
  | .addRegImm => lhs + imm
  | .addRegImmWord => signExtendWord (lhs + imm)
  | .xorRegImm => lhs ^^^ imm
  | .orRegImm => lhs ||| imm
  | .andRegImm => lhs &&& imm
  | .shiftLeftRegImm => lhs <<< amount
  | .shiftRightLogicalRegImm => lhs >>> amount
  | .shiftRightArithmeticRegImm => lhs.sshiftRight amount
  | .shiftLeftRegImmWord => (lhs.setWidth 32 <<< amountWord).signExtend 64
  | .shiftRightLogicalRegImmWord => (lhs.setWidth 32 >>> amountWord).signExtend 64
  | .shiftRightArithmeticRegImmWord => ((lhs.setWidth 32).sshiftRight amountWord).signExtend 64
  | .setLessThanRegImm => boolValue (lhs.slt imm)
  | .setLessThanUnsignedRegImm => boolValue (lhs.ult imm)
  | .addRegReg => lhs + rhs
  | .subRegReg => lhs - rhs
  | .addRegRegWord => signExtendWord (lhs + rhs)
  | .subRegRegWord => signExtendWord (lhs - rhs)
  | .xorRegReg => lhs ^^^ rhs
  | .orRegReg => lhs ||| rhs
  | .andRegReg => lhs &&& rhs
  | .shiftLeftRegReg => lhs <<< (rhs &&& 63).toNat
  | .shiftRightLogicalRegReg => lhs >>> (rhs &&& 63).toNat
  | .shiftRightArithmeticRegReg => lhs.sshiftRight (rhs &&& 63).toNat
  | .shiftLeftRegRegWord => (lhs.setWidth 32 <<< (rhs &&& 31).toNat).signExtend 64
  | .shiftRightLogicalRegRegWord => (lhs.setWidth 32 >>> (rhs &&& 31).toNat).signExtend 64
  | .shiftRightArithmeticRegRegWord =>
    ((lhs.setWidth 32).sshiftRight (rhs &&& 31).toNat).signExtend 64
  | .setLessThanRegReg => boolValue (lhs.slt rhs)
  | .setLessThanUnsignedRegReg => boolValue (lhs.ult rhs)
  | .fallthrough => 0

/-- One round of the loop of `evaluate_dbt_ir_unit`. -/
def evaluateInstruction (result : DbtIrEvaluationResult) (instruction : DbtIrInstruction) :
    DbtIrEvaluationResult :=
  if instruction.opcode = .fallthrough then { result with nextPc := instruction.nextPc }
  else
    { result with
      gpr := writeGpr result.gpr instruction.rd (value instruction result.gpr)
      nextPc := instruction.nextPc
      retiredInstructions := result.retiredInstructions + 1 }

end DbtIr

open DbtIr in
def evaluateDbtIrUnit (unit : DbtTranslationUnit) (input : DbtIrEvaluationInput) :
    DbtIrEvaluationResult :=
  if !unit.ok then
    { ok := false, rejectKind := unit.rejectKind, rejectReason := unit.rejectReason,
      gpr := input.gpr, nextPc := input.pc }
  else
    let start : DbtIrEvaluationResult :=
      { ok := true, gpr := Function.update input.gpr 0 0, nextPc := input.pc }
    let result := unit.instructions.foldl evaluateInstruction start
    { result with gpr := Function.update result.gpr 0 0 }

end VisualCpu
