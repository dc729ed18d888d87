import VisualCpu.Isa.Decode

/-!
# Static description of an encoding

The pipeline asks which registers an instruction reads and writes, and which
memory access it makes, before it has any operand value. These predicates read
the decoded fields only.
-/

namespace VisualCpu

variable (insn : Insn)

/-- An `OP-FP` encoding with the given `funct7`. -/
def isOpFp (funct7 : ℕ) : Bool := insn.opcode == 0x53 && insn.funct7 == funct7

def isStandardFpLoad : Bool :=
  insn.opcode == 0x07 && (insn.funct3 == 2 || insn.funct3 == 3)

def isStandardFpStore : Bool :=
  insn.opcode == 0x27 && (insn.funct3 == 2 || insn.funct3 == 3)

section FloatingPredicates

variable (insn : Insn)

def isFmvDX : Bool := isOpFp insn 0x79 && insn.funct3 == 0 && insn.rs2 == 0
def isFmvXD : Bool := isOpFp insn 0x71 && insn.funct3 == 0 && insn.rs2 == 0
def isFmvWX : Bool := isOpFp insn 0x78 && insn.funct3 == 0 && insn.rs2 == 0
def isFmvXW : Bool := isOpFp insn 0x70 && insn.funct3 == 0 && insn.rs2 == 0
def isFmvD : Bool := isOpFp insn 0x11 && insn.funct3 == 0 && insn.rs1 == insn.rs2
def isFnegD : Bool := isOpFp insn 0x11 && insn.funct3 == 1 && insn.rs1 == insn.rs2
def isFsgnjD : Bool := isOpFp insn 0x11 && insn.funct3 == 0
def isFsgnjnD : Bool := isOpFp insn 0x11 && insn.funct3 == 1
def isFsgnjxD : Bool := isOpFp insn 0x11 && insn.funct3 == 2
def isFsgnjS : Bool := isOpFp insn 0x10 && insn.funct3 == 0
def isFsgnjnS : Bool := isOpFp insn 0x10 && insn.funct3 == 1
def isFsgnjxS : Bool := isOpFp insn 0x10 && insn.funct3 == 2
def isFaddS : Bool := isOpFp insn 0x00
def isFsubS : Bool := isOpFp insn 0x04
def isFmulS : Bool := isOpFp insn 0x08
def isFdivS : Bool := isOpFp insn 0x0C
def isFaddD : Bool := isOpFp insn 0x01
def isFsubD : Bool := isOpFp insn 0x05
def isFmulD : Bool := isOpFp insn 0x09
def isFdivD : Bool := isOpFp insn 0x0D
def isFmaxD : Bool := isOpFp insn 0x15 && insn.funct3 == 1
def isFminD : Bool := isOpFp insn 0x15 && insn.funct3 == 0
def isFmaxS : Bool := isOpFp insn 0x14 && insn.funct3 == 1
def isFminS : Bool := isOpFp insn 0x14 && insn.funct3 == 0
def isFmaddS : Bool := insn.opcode == 0x43 && insn.funct7 % 4 == 0
def isFmsubS : Bool := insn.opcode == 0x47 && insn.funct7 % 4 == 0
def isFnmsubS : Bool := insn.opcode == 0x4B && insn.funct7 % 4 == 0
def isFnmaddS : Bool := insn.opcode == 0x4F && insn.funct7 % 4 == 0
def isFmaddD : Bool := insn.opcode == 0x43 && insn.funct7 % 4 == 1
def isFmsubD : Bool := insn.opcode == 0x47 && insn.funct7 % 4 == 1
def isFnmsubD : Bool := insn.opcode == 0x4B && insn.funct7 % 4 == 1
def isFnmaddD : Bool := insn.opcode == 0x4F && insn.funct7 % 4 == 1
def isFsqrtS : Bool := isOpFp insn 0x2C && insn.rs2 == 0
def isFsqrtD : Bool := isOpFp insn 0x2D && insn.rs2 == 0
def isFcvtWD : Bool := isOpFp insn 0x61 && insn.rs2 == 0
def isFcvtWuD : Bool := isOpFp insn 0x61 && insn.rs2 == 1
def isFcvtLD : Bool := isOpFp insn 0x61 && insn.rs2 == 2
def isFcvtLuD : Bool := isOpFp insn 0x61 && insn.rs2 == 3
def isFcvtDW : Bool := isOpFp insn 0x69 && insn.rs2 == 0
def isFcvtDWu : Bool := isOpFp insn 0x69 && insn.rs2 == 1
def isFcvtDL : Bool := isOpFp insn 0x69 && insn.rs2 == 2
def isFcvtDLu : Bool := isOpFp insn 0x69 && insn.rs2 == 3
def isFcvtWS : Bool := isOpFp insn 0x60 && insn.rs2 == 0
def isFcvtWuS : Bool := isOpFp insn 0x60 && insn.rs2 == 1
def isFcvtLS : Bool := isOpFp insn 0x60 && insn.rs2 == 2
def isFcvtLuS : Bool := isOpFp insn 0x60 && insn.rs2 == 3
def isFcvtSW : Bool := isOpFp insn 0x68 && insn.rs2 == 0
def isFcvtSWu : Bool := isOpFp insn 0x68 && insn.rs2 == 1
def isFcvtSL : Bool := isOpFp insn 0x68 && insn.rs2 == 2
def isFcvtSLu : Bool := isOpFp insn 0x68 && insn.rs2 == 3
def isFcvtDS : Bool := isOpFp insn 0x21 && insn.rs2 == 1
def isFcvtSD : Bool := isOpFp insn 0x20 && insn.rs2 == 1
def isFclassS : Bool := isOpFp insn 0x70 && insn.funct3 == 1 && insn.rs2 == 0
def isFclassD : Bool := isOpFp insn 0x71 && insn.funct3 == 1 && insn.rs2 == 0
def isFeqS : Bool := isOpFp insn 0x50 && insn.funct3 == 2
def isFltS : Bool := isOpFp insn 0x50 && insn.funct3 == 1
def isFleS : Bool := isOpFp insn 0x50 && insn.funct3 == 0
def isFeqD : Bool := isOpFp insn 0x51 && insn.funct3 == 2
def isFltD : Bool := isOpFp insn 0x51 && insn.funct3 == 1
def isFleD : Bool := isOpFp insn 0x51 && insn.funct3 == 0

def isFusedS : Bool := isFmaddS insn || isFmsubS insn || isFnmsubS insn || isFnmaddS insn
def isFusedD : Bool := isFmaddD insn || isFmsubD insn || isFnmsubD insn || isFnmaddD insn
def isFsgnjAnyS : Bool := isFsgnjS insn || isFsgnjnS insn || isFsgnjxS insn
def isFsgnjAnyD : Bool := isFsgnjD insn || isFsgnjnD insn || isFsgnjxD insn
def isFarithS : Bool := isFaddS insn || isFsubS insn || isFmulS insn || isFdivS insn
def isFarithD : Bool := isFaddD insn || isFsubD insn || isFmulD insn || isFdivD insn
def isFminmax : Bool := isFmaxD insn || isFminD insn || isFmaxS insn || isFminS insn
def isFcompareS : Bool := isFeqS insn || isFltS insn || isFleS insn
def isFcompareD : Bool := isFeqD insn || isFltD insn || isFleD insn
def isFcvtIntFromS : Bool := isFcvtWS insn || isFcvtWuS insn || isFcvtLS insn || isFcvtLuS insn
def isFcvtIntFromD : Bool := isFcvtWD insn || isFcvtWuD insn || isFcvtLD insn || isFcvtLuD insn
def isFcvtSFromInt : Bool := isFcvtSW insn || isFcvtSWu insn || isFcvtSL insn || isFcvtSLu insn
def isFcvtDFromInt : Bool := isFcvtDW insn || isFcvtDWu insn || isFcvtDL insn || isFcvtDLu insn

def floatingRs1FromFpr : Bool :=
  isFmvXD insn || isFmvXW insn || isFmvD insn || isFnegD insn || isFsgnjAnyD insn ||
    isFsgnjAnyS insn || isFarithS insn || isFarithD insn || isFminmax insn || isFsqrtS insn ||
    isFusedS insn || isFusedD insn || isFsqrtD insn || isFcvtIntFromD insn || isFcvtIntFromS insn ||
    isFcvtDS insn || isFcvtSD insn || isFclassS insn || isFclassD insn || isFcompareS insn ||
    isFcompareD insn

def floatingRs2FromFpr : Bool :=
  isStandardFpStore insn || isFmvD insn || isFnegD insn || isFsgnjAnyD insn || isFsgnjAnyS insn ||
    isFarithS insn || isFarithD insn || isFminmax insn || isFusedS insn || isFusedD insn ||
    isFcompareS insn || isFcompareD insn

def floatingRs3FromFpr : Bool := isFusedS insn || isFusedD insn

end FloatingPredicates

/-- The opcodes handled by `InstructionSemantics::execute`. -/
def supports : Bool :=
  match insn.opcode with
  | 0x37 | 0x17 | 0x13 | 0x1B | 0x33 | 0x3B | 0x0F | 0x6F | 0x67 | 0x63 | 0x03 | 0x23 | 0x2F | 0x73
  | 0x07 | 0x27 | 0x53 | 0x43 | 0x47 | 0x4B | 0x4F | 0x57 => true
  | _ => false

def describeRs1 : RegisterOperandKind :=
  if floatingRs1FromFpr insn then .fpr
  else if isFmvDX insn || isFmvWX insn || isFcvtDFromInt insn || isFcvtSFromInt insn then .gpr
  else
    match insn.opcode with
    | 0x13 | 0x1B | 0x33 | 0x3B | 0x67 | 0x63 | 0x03 | 0x07 | 0x23 | 0x27 | 0x2F => .gpr
    | 0x73 => if insn.funct3 = 1 ∨ insn.funct3 = 2 ∨ insn.funct3 = 3 then .gpr else .none
    | _ => .none

def describeRs2 : RegisterOperandKind :=
  if floatingRs2FromFpr insn then .fpr
  else if isStandardFpStore insn then .fpr
  else
    match insn.opcode with
    | 0x33 | 0x3B | 0x63 | 0x23 => .gpr
    | 0x2F => if insn.funct5 ≠ 0x02 then .gpr else .none
    | _ => .none

def describeRd : RegisterOperandKind :=
  if isStandardFpLoad insn then .fpr
  else if isFmvDX insn || isFmvWX insn || isFmvD insn || isFnegD insn || isFsgnjAnyD insn ||
      isFsgnjAnyS insn || isFarithS insn || isFarithD insn || isFminmax insn || isFsqrtS insn ||
      isFsqrtD insn || isFusedS insn || isFusedD insn || isFcvtDFromInt insn ||
      isFcvtSFromInt insn || isFcvtDS insn || isFcvtSD insn then .fpr
  else if insn.rd != 0 && (isFmvXD insn || isFmvXW insn || isFcvtIntFromD insn ||
      isFcvtIntFromS insn || isFcompareS insn || isFcompareD insn || isFclassS insn ||
      isFclassD insn) then .gpr
  else
    match insn.opcode with
    | 0x03 | 0x13 | 0x17 | 0x1B | 0x33 | 0x37 | 0x3B | 0x67 | 0x6F | 0x2F =>
      if insn.rd ≠ 0 then .gpr else .none
    | 0x73 => if insn.funct3 ≠ 0 ∧ insn.rd ≠ 0 then .gpr else .none
    | _ => .none

def describeRegisters : InstructionRegisterDescriptor where
  rs1 := describeRs1 insn
  rs2 := describeRs2 insn
  rs3 := if floatingRs3FromFpr insn then .fpr else .none
  rd := describeRd insn

def loadDescriptor (target : MemoryTarget) (size : ℕ) (signExtend : Bool) :
    InstructionMemoryDescriptor :=
  { valid := true, kind := .load, target, size, signExtend }

def storeDescriptor (target : MemoryTarget) (size : ℕ) : InstructionMemoryDescriptor :=
  { valid := true, kind := .store, target, size, commitAtBoundary := true, nonSpeculative := true }

def describeMemory : InstructionMemoryDescriptor :=
  match insn.opcode with
  | 0x03 =>
    match insn.funct3 with
    | 0 => loadDescriptor .integer 1 true
    | 1 => loadDescriptor .integer 2 true
    | 2 => loadDescriptor .integer 4 true
    | 3 => loadDescriptor .integer 8 false
    | 4 => loadDescriptor .integer 1 false
    | 5 => loadDescriptor .integer 2 false
    | 6 => loadDescriptor .integer 4 false
    | _ => {}
  | 0x07 =>
    if isStandardFpLoad insn then loadDescriptor .float (if insn.funct3 = 3 then 8 else 4) false
    else {}
  | 0x23 =>
    match insn.funct3 with
    | 0 => storeDescriptor .integer 1
    | 1 => storeDescriptor .integer 2
    | 2 => storeDescriptor .integer 4
    | 3 => storeDescriptor .integer 8
    | _ => {}
  | 0x27 =>
    if isStandardFpStore insn then storeDescriptor .float (if insn.funct3 = 3 then 8 else 4) else {}
  | _ => {}

def isVectorOpcode (opcode : ℕ) : Bool := opcode == 0x57 || opcode == 0x07 || opcode == 0x27

/-- Vector instructions that execute only at the head of the reorder buffer. -/
def isSerializingVectorInsn : Bool :=
  if !isVectorOpcode insn.opcode then false
  else if isStandardFpLoad insn || isStandardFpStore insn then false
  else if insn.opcode = 0x07 ∨ insn.opcode = 0x27 then true
  else if insn.opcode ≠ 0x57 then false
  else if insn.funct3 = 7 then true
  else insn.funct3 != 0

def isNonMemoryVectorAluInsn : Bool :=
  if insn.opcode ≠ 0x57 ∨ insn.funct3 ≠ 0 then false
  else
    match insn.funct7 with
    | 0x00 | 0x20 | 0x21 | 0x22 => true
    | _ => false

/-- Instructions that wait in the execute stage until they head the reorder buffer. -/
def isSerializingSystemInsn : Bool :=
  insn.opcode == 0x73 || isSerializingVectorInsn insn

def isControlFlowOpcode (opcode : ℕ) : Bool := opcode == 0x63 || opcode == 0x67 || opcode == 0x6F

end VisualCpu
