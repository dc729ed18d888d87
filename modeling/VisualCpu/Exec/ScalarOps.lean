import VisualCpu.Isa.Describe

/-!
# Integer, control-flow and memory instructions

The effect builders of `integer_ops.cpp`, `control_flow_ops.cpp` and
`memory_ops.cpp`. Each arithmetic group returns the value for `rd`, or nothing
for an encoding that is not valid; invalid encodings trap.
-/

namespace VisualCpu

open BitVec

def signExtendWord (value : BitVec 64) : BitVec 64 := (value.setWidth 32).signExtend 64

def boolValue (b : Bool) : BitVec 64 := if b then 1 else 0

namespace IntegerOps

variable (insn : Insn)

def isValidShiftImmediateEncoding : Bool :=
  match insn.funct3 with
  | 1 => insn.funct7 &&& 0x7E == 0x00
  | 5 => insn.funct7 &&& 0x7E == 0x00 || insn.funct7 &&& 0x7E == 0x20
  | _ => true

def isValidShiftWordImmediateEncoding : Bool :=
  match insn.funct3 with
  | 1 => insn.funct7 == 0x00
  | 5 => insn.funct7 == 0x00 || insn.funct7 == 0x20
  | _ => true

def isValidIntegerRegEncoding (funct3 funct7 : ℕ) : Bool :=
  match funct3 with
  | 0 => funct7 == 0x00 || funct7 == 0x20
  | 1 | 2 | 3 | 4 | 6 | 7 => funct7 == 0x00
  | 5 => funct7 == 0x00 || funct7 == 0x20
  | _ => false

def isValidIntegerWordRegEncoding (funct3 funct7 : ℕ) : Bool :=
  match funct3 with
  | 0 => funct7 == 0x00 || funct7 == 0x20
  | 1 => funct7 == 0x00
  | 5 => funct7 == 0x00 || funct7 == 0x20
  | _ => false

variable (lhs rhs : BitVec 64)

def divSigned : BitVec 64 :=
  if rhs = 0 then allOnes 64
  else if lhs = intMin 64 ∧ rhs = allOnes 64 then lhs
  else lhs.sdiv rhs

def remSigned : BitVec 64 :=
  if rhs = 0 then lhs
  else if lhs = intMin 64 ∧ rhs = allOnes 64 then 0
  else lhs.srem rhs

def divSignedWord : BitVec 64 :=
  let dividend := lhs.setWidth 32
  let divisor := rhs.setWidth 32
  if divisor = 0 then allOnes 64
  else if dividend = intMin 32 ∧ divisor = allOnes 32 then dividend.signExtend 64
  else (dividend.sdiv divisor).signExtend 64

def remSignedWord : BitVec 64 :=
  let dividend := lhs.setWidth 32
  let divisor := rhs.setWidth 32
  if divisor = 0 then dividend.signExtend 64
  else if dividend = intMin 32 ∧ divisor = allOnes 32 then 0
  else (dividend.srem divisor).signExtend 64

/-- Register-immediate arithmetic, opcode `0x13`. -/
def opImm (rs1v : BitVec 64) : Option (BitVec 64) :=
  let shamt := insn.rs2 ||| ((insn.funct7 &&& 1) <<< 5)
  match insn.funct3 with
  | 0 => some (rs1v + insn.imm)
  | 1 => if isValidShiftImmediateEncoding insn then some (rs1v <<< shamt) else none
  | 2 => some (boolValue (rs1v.slt insn.imm))
  | 3 => some (boolValue (rs1v.ult insn.imm))
  | 4 => some (rs1v ^^^ insn.imm)
  | 5 =>
    if isValidShiftImmediateEncoding insn then
      some (if insn.funct7 &&& 0x20 ≠ 0 then rs1v.sshiftRight shamt else rs1v >>> shamt)
    else none
  | 6 => some (rs1v ||| insn.imm)
  | 7 => some (rs1v &&& insn.imm)
  | _ => none

/-- Word register-immediate arithmetic, opcode `0x1B`. -/
def opImmWord (rs1v : BitVec 64) : Option (BitVec 64) :=
  let word := rs1v.setWidth 32
  match insn.funct3 with
  | 0 => some (signExtendWord (rs1v + insn.imm))
  | 1 =>
    if isValidShiftWordImmediateEncoding insn then some ((word <<< insn.rs2).signExtend 64)
      else none
  | 5 =>
    if isValidShiftWordImmediateEncoding insn then
      some (if insn.funct7 &&& 0x20 ≠ 0 then (word.sshiftRight insn.rs2).signExtend 64
        else (word >>> insn.rs2).signExtend 64)
    else none
  | _ => none

variable (rs1v rs2v : BitVec 64)

/-- The M extension, opcode `0x33` with `funct7` one. -/
def opMulDiv : Option (BitVec 64) :=
  match insn.funct3 with
  | 0 => some (rs1v * rs2v)
  | 1 => some (((rs1v.signExtend 128 * rs2v.signExtend 128).sshiftRight 64).setWidth 64)
  | 2 => some (((rs1v.signExtend 128 * rs2v.setWidth 128).sshiftRight 64).setWidth 64)
  | 3 => some (((rs1v.setWidth 128 * rs2v.setWidth 128) >>> 64).setWidth 64)
  | 4 => some (divSigned rs1v rs2v)
  | 5 => some (if rs2v ≠ 0 then rs1v / rs2v else allOnes 64)
  | 6 => some (remSigned rs1v rs2v)
  | 7 => some (if rs2v ≠ 0 then rs1v % rs2v else rs1v)
  | _ => none

/-- Register-register arithmetic, opcode `0x33`. -/
def opReg : Option (BitVec 64) :=
  let shamt := (rs2v &&& 63).toNat
  if insn.funct7 = 1 then opMulDiv insn rs1v rs2v
  else if !isValidIntegerRegEncoding insn.funct3 insn.funct7 then none
  else
    match insn.funct3 with
    | 0 => some (if insn.funct7 = 0x20 then rs1v - rs2v else rs1v + rs2v)
    | 1 => some (rs1v <<< shamt)
    | 2 => some (boolValue (rs1v.slt rs2v))
    | 3 => some (boolValue (rs1v.ult rs2v))
    | 4 => some (rs1v ^^^ rs2v)
    | 5 => some (if insn.funct7 = 0x20 then rs1v.sshiftRight shamt else rs1v >>> shamt)
    | 6 => some (rs1v ||| rs2v)
    | 7 => some (rs1v &&& rs2v)
    | _ => none

/-- Word division tests the whole divisor and divides by its low half; a zero
low half is undefined in the source and takes the value of `BitVec` division. -/
def opMulDivWord : Option (BitVec 64) :=
  let lhs := rs1v.setWidth 32
  let rhs := rs2v.setWidth 32
  match insn.funct3 with
  | 0 => some (signExtendWord (rs1v * rs2v))
  | 4 => some (divSignedWord rs1v rs2v)
  | 5 => some (if rs2v ≠ 0 then (lhs / rhs).signExtend 64 else allOnes 64)
  | 6 => some (remSignedWord rs1v rs2v)
  | 7 => some (if rs2v ≠ 0 then (lhs % rhs).signExtend 64 else lhs.signExtend 64)
  | _ => none

/-- Word register-register arithmetic, opcode `0x3B`. -/
def opRegWord : Option (BitVec 64) :=
  let shamt := (rs2v &&& 31).toNat
  let word := rs1v.setWidth 32
  if insn.funct7 = 1 then opMulDivWord insn rs1v rs2v
  else if !isValidIntegerWordRegEncoding insn.funct3 insn.funct7 then none
  else
    match insn.funct3 with
    | 0 => some (signExtendWord (if insn.funct7 = 0x20 then rs1v - rs2v else rs1v + rs2v))
    | 1 => some ((word <<< shamt).signExtend 64)
    | 5 =>
      some (if insn.funct7 = 0x20 then (word.sshiftRight shamt).signExtend 64
        else (word >>> shamt).signExtend 64)
    | _ => none

end IntegerOps

variable (insn : Insn)

/-- Write the value to `rd`, or trap when there is none. -/
def writeRdOrIllegal (value : Option (BitVec 64)) : InsnEffects :=
  match value with
  | some value => setRd insn.rd value
  | none => illegalInstructionEffect insn.raw

open IntegerOps in
def buildIntegerEffects (rs1v rs2v pc : BitVec 64) : InsnEffects :=
  match insn.opcode with
  | 0x37 => setRd insn.rd insn.imm
  | 0x17 => setRd insn.rd (pc + insn.imm)
  | 0x13 => writeRdOrIllegal insn (opImm insn rs1v)
  | 0x1B => writeRdOrIllegal insn (opImmWord insn rs1v)
  | 0x33 => writeRdOrIllegal insn (opReg insn rs1v rs2v)
  | 0x3B => writeRdOrIllegal insn (opRegWord insn rs1v rs2v)
  | 0x0F => {}
  | _ => illegalInstructionEffect insn.raw

def causeInsnAddrMisaligned : BitVec 64 := 0

/-- A trap for a jump to an odd address. -/
def misalignedTargetEffect (target : BitVec 64) : InsnEffects :=
  { trap := some ⟨causeInsnAddrMisaligned, target⟩, retired := false }

def isInstructionAligned (pc : BitVec 64) : Bool := pc &&& 1 == 0

/-- The condition of a branch; nothing for an unused `funct3`. -/
def branchTaken (funct3 : ℕ) (rs1v rs2v : BitVec 64) : Option Bool :=
  match funct3 with
  | 0 => some (rs1v == rs2v)
  | 1 => some (rs1v != rs2v)
  | 4 => some (rs1v.slt rs2v)
  | 5 => some !(rs1v.slt rs2v)
  | 6 => some (rs1v.ult rs2v)
  | 7 => some !(rs1v.ult rs2v)
  | _ => none

/-- Jump to `target`, linking the following instruction. -/
def jumpEffect (pc target : BitVec 64) : InsnEffects :=
  if !isInstructionAligned target then misalignedTargetEffect target
  else { setRd insn.rd (pc + instructionSize insn) with control := { redirectPc := some target } }

def buildControlFlowEffects (rs1v rs2v pc : BitVec 64) : InsnEffects :=
  match insn.opcode with
  | 0x6F => jumpEffect insn pc (pc + insn.imm)
  | 0x67 => jumpEffect insn pc ((rs1v + insn.imm) &&& ~~~1)
  | 0x63 =>
    match branchTaken insn.funct3 rs1v rs2v with
    | none => illegalInstructionEffect insn.raw
    | some false => {}
    | some true =>
      if !isInstructionAligned (pc + insn.imm) then misalignedTargetEffect (pc + insn.imm)
      else { control := { redirectPc := some (pc + insn.imm) } }
  | _ => illegalInstructionEffect insn.raw

def extendLoadedValue (value : BitVec 64) (size : ℕ) (signExtend : Bool) : BitVec 64 :=
  match signExtend, size with
  | false, 1 => (value.setWidth 8).setWidth 64
  | false, 2 => (value.setWidth 16).setWidth 64
  | false, 4 => (value.setWidth 32).setWidth 64
  | true, 1 => (value.setWidth 8).signExtend 64
  | true, 2 => (value.setWidth 16).signExtend 64
  | true, 4 => (value.setWidth 32).signExtend 64
  | _, _ => value

def buildMemoryEffects (rs1v rs2v : BitVec 64) : InsnEffects :=
  let descriptor := describeMemory insn
  if !descriptor.valid then illegalInstructionEffect insn.raw
  else
    { mem :=
        { kind := descriptor.kind
          target := descriptor.target
          addr := rs1v + insn.imm
          storeValue := if descriptor.kind = .store then rs2v else 0
          rd := if descriptor.kind = .load then insn.rd else 0
          size := descriptor.size
          signExtend := descriptor.signExtend
          commitAtBoundary := descriptor.commitAtBoundary
          nonSpeculative := descriptor.nonSpeculative }
      floatingStateTouched := descriptor.target == .float }

end VisualCpu
