import VisualCpu.Dbt.BlockPlan

/-!
# The translator

`translate_dbt_block` decodes the operations of a plan again and gives each one an
intermediate instruction. Only the integer arithmetic without the M extension has
one; any other operation rejects the whole unit. The last instruction of a unit
carries the pc after the block.
-/

namespace VisualCpu

inductive DbtIrOpcode where
  | writeRegImm | addPcImm | addRegImm | addRegImmWord | xorRegImm | orRegImm | andRegImm
  | shiftLeftRegImm | shiftRightLogicalRegImm | shiftRightArithmeticRegImm | shiftLeftRegImmWord
  | shiftRightLogicalRegImmWord | shiftRightArithmeticRegImmWord | setLessThanRegImm
  | setLessThanUnsignedRegImm | addRegReg | subRegReg | addRegRegWord | subRegRegWord | xorRegReg
  | orRegReg | andRegReg | shiftLeftRegReg | shiftRightLogicalRegReg | shiftRightArithmeticRegReg
  | shiftLeftRegRegWord | shiftRightLogicalRegRegWord | shiftRightArithmeticRegRegWord
  | setLessThanRegReg | setLessThanUnsignedRegReg | fallthrough
deriving DecidableEq

inductive DbtRejectKind where
  | none | planRejected | helperRequired | fallbackRequired | fetchFault | unsupportedInstruction
  | unsupportedIr | controlFlow | memoryLoad | memoryStore | csrWrite | trap | atomic | vector
  | tlbFlush | trapReturn | halt | notRetired
deriving DecidableEq

structure DbtIrInstruction where
  opcode : DbtIrOpcode := .fallthrough
  pc : BitVec 64 := 0
  raw : BitVec 32 := 0
  size : BitVec 64 := 0
  rd : ℕ := 0
  rs1 : ℕ := 0
  rs2 : ℕ := 0
  imm : BitVec 64 := 0
  nextPc : BitVec 64 := 0
deriving DecidableEq

structure DbtTranslationUnit where
  ok : Bool
  (startPc endPc : BitVec 64)
  rejectKind : DbtRejectKind := .none
  rejectPc : BitVec 64 := 0
  rejectRaw : BitVec 32 := 0
  rejectReason : String := ""
  boundaryKind : String := ""
  boundary : DbtBoundaryKind := .none
  helperPlan : DbtHelperPlan := {}
  codeSpans : List DbtCodePhysicalSpan
  instructions : List DbtIrInstruction := []

namespace DbtTranslator

variable (plan : DbtBlockPlan)

def rejectKindFromPlan : DbtRejectKind :=
  match plan.boundary with
  | .none => .planRejected
  | .fetchFault => .fetchFault
  | .unsupported => .unsupportedInstruction
  | .memoryLoad => .memoryLoad
  | .memoryStore => .memoryStore
  | .atomic => .atomic
  | .vector => .vector
  | .csrWrite => .csrWrite
  | .trap => .trap
  | .halt => .halt
  | .tlbFlush => .tlbFlush
  | .trapReturn => .trapReturn
  | .controlFlow => .controlFlow
  | .notRetired => .notRetired
  | .fallback =>
    if plan.fallbackReason = "helper-required" then .helperRequired else .fallbackRequired

def rejectFromPlan : DbtTranslationUnit where
  ok := false
  startPc := plan.startPc
  endPc := plan.endPc
  rejectKind := rejectKindFromPlan plan
  rejectPc := plan.fallbackPc
  rejectRaw := plan.fallbackRaw
  rejectReason := plan.fallbackReason
  boundaryKind := plan.boundaryKind
  boundary := plan.boundary
  helperPlan := plan.helperPlan
  codeSpans := plan.codeSpans

def rejectUnsupportedIr (op : DbtDryRunIrOp) : DbtTranslationUnit where
  ok := false
  startPc := plan.startPc
  endPc := plan.endPc
  rejectKind := .unsupportedIr
  rejectPc := op.pc
  rejectRaw := op.raw
  rejectReason := "unsupported-ir"
  boundaryKind := "unsupported-ir"
  boundary := .unsupported
  codeSpans := plan.codeSpans

variable (insn : Insn)

/-- Opcode `0x13`; the shifts take their amount from the register fields. -/
def translateOpImm : Option (DbtIrOpcode × BitVec 64) :=
  let shamt := BitVec.ofNat 64 (insn.rs2 ||| ((insn.funct7 &&& 1) <<< 5))
  match insn.funct3 with
  | 0 => some (if insn.rs1 = 0 then .writeRegImm else .addRegImm, insn.imm)
  | 1 => if insn.funct7 &&& 0x7E = 0x00 then some (.shiftLeftRegImm, shamt) else none
  | 2 => some (.setLessThanRegImm, insn.imm)
  | 3 => some (.setLessThanUnsignedRegImm, insn.imm)
  | 4 => some (.xorRegImm, insn.imm)
  | 5 =>
    if insn.funct7 &&& 0x7E = 0x00 then some (.shiftRightLogicalRegImm, shamt)
    else if insn.funct7 &&& 0x7E = 0x20 then some (.shiftRightArithmeticRegImm, shamt)
    else none
  | 6 => some (.orRegImm, insn.imm)
  | 7 => some (.andRegImm, insn.imm)
  | _ => none

/-- Opcode `0x1B`. -/
def translateOpImmWord : Option (DbtIrOpcode × BitVec 64) :=
  let shamt := BitVec.ofNat 64 insn.rs2
  match insn.funct3 with
  | 0 => some (.addRegImmWord, insn.imm)
  | 1 => if insn.funct7 = 0x00 then some (.shiftLeftRegImmWord, shamt) else none
  | 5 =>
    if insn.funct7 = 0x00 then some (.shiftRightLogicalRegImmWord, shamt)
    else if insn.funct7 = 0x20 then some (.shiftRightArithmeticRegImmWord, shamt)
    else none
  | _ => none

/-- The opcode of a register operation: `funct7` is zero, or 32 for the variant. -/
def translateFunct7 (plain : DbtIrOpcode) (variant : Option DbtIrOpcode) :
    Option DbtIrOpcode :=
  if insn.funct7 = 0x00 then some plain else if insn.funct7 = 0x20 then variant else none

/-- Opcode `0x33`. -/
def translateOpReg : Option DbtIrOpcode :=
  match insn.funct3 with
  | 0 => translateFunct7 insn .addRegReg (some .subRegReg)
  | 1 => translateFunct7 insn .shiftLeftRegReg none
  | 2 => translateFunct7 insn .setLessThanRegReg none
  | 3 => translateFunct7 insn .setLessThanUnsignedRegReg none
  | 4 => translateFunct7 insn .xorRegReg none
  | 5 => translateFunct7 insn .shiftRightLogicalRegReg (some .shiftRightArithmeticRegReg)
  | 6 => translateFunct7 insn .orRegReg none
  | 7 => translateFunct7 insn .andRegReg none
  | _ => none

/-- Opcode `0x3B`. -/
def translateOpRegWord : Option DbtIrOpcode :=
  match insn.funct3 with
  | 0 => translateFunct7 insn .addRegRegWord (some .subRegRegWord)
  | 1 => translateFunct7 insn .shiftLeftRegRegWord none
  | 5 => translateFunct7 insn .shiftRightLogicalRegRegWord (some .shiftRightArithmeticRegRegWord)
  | _ => none

def translateOpcode : Option (DbtIrOpcode × BitVec 64) :=
  match insn.opcode with
  | 0x37 => some (.writeRegImm, insn.imm)
  | 0x17 => some (.addPcImm, insn.imm)
  | 0x13 => translateOpImm insn
  | 0x1B => translateOpImmWord insn
  | 0x33 => (translateOpReg insn).map (·, insn.imm)
  | 0x3B => (translateOpRegWord insn).map (·, insn.imm)
  | _ => none

def translateIntegerOp (op : DbtDryRunIrOp) : Option DbtIrInstruction :=
  let insn := FunctionalBackend.decodeFetched op.raw
  (translateOpcode insn).map fun (opcode, imm) =>
    { opcode, pc := op.pc, raw := op.raw, size := op.size, rd := insn.rd, rs1 := insn.rs1,
      rs2 := insn.rs2, imm, nextPc := op.nextPc }

def makeFallthrough (instructions : List DbtIrInstruction) :
    DbtIrInstruction :=
  match instructions.getLast? with
  | some last => { opcode := .fallthrough, pc := last.pc, nextPc := last.nextPc }
  | none => { opcode := .fallthrough, pc := plan.startPc, nextPc := plan.startPc }

/-- The loop over the operations: their instructions, or the first one without any. -/
def translateOps : List DbtDryRunIrOp → Except DbtDryRunIrOp (List DbtIrInstruction)
  | [] => .ok []
  | op :: ops =>
    match translateIntegerOp op with
    | none => .error op
    | some instruction => (translateOps ops).map (instruction :: ·)

end DbtTranslator

open DbtTranslator in
def translateDbtBlock (plan : DbtBlockPlan) : DbtTranslationUnit :=
  if !plan.ok then rejectFromPlan plan
  else
    match translateOps plan.dryRunIr with
    | .error op => rejectUnsupportedIr plan op
    | .ok instructions =>
      { ok := true, startPc := plan.startPc, endPc := plan.endPc, codeSpans := plan.codeSpans,
        instructions := instructions ++ [makeFallthrough plan instructions] }

end VisualCpu
