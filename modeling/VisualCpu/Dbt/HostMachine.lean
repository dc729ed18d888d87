import VisualCpu.Mem.RamFacts

/-!
# The host processor

The part of x86-64 that the emitter uses: moves, loads and stores through a base
register, integer arithmetic, shifts, comparisons and the return. Instructions are
decoded from their bytes with the REX prefix and the ModRM byte. There are no jumps
among them, so a piece of code runs from its first byte to its return.
-/

namespace VisualCpu.X86

/-- The number of a general register. -/
abbrev Reg := Fin 16

def rax : Reg := 0
def rcx : Reg := 1
def rbx : Reg := 3
def rsp : Reg := 4
def rbp : Reg := 5
def rsi : Reg := 6
def rdi : Reg := 7

/-- The registers that a function leaves as it found them, besides the stack pointer. -/
def calleeSaved : List Reg := [rbx, rbp, 12, 13, 14, 15]

inductive Width where
  | dword | qword
deriving DecidableEq

inductive AluOp where
  | add | or | and | sub | xor | cmp
deriving DecidableEq

inductive ShiftOp where
  | shl | shr | sar
deriving DecidableEq

/-- The operand that the ModRM byte describes. -/
inductive Operand where
  | reg (r : Reg)
  | mem (base : Reg) (disp : BitVec 32)
deriving DecidableEq

inductive ShiftCount where
  | imm (count : BitVec 8)
  | cl
deriving DecidableEq

inductive Instr where
  | alu (op : AluOp) (width : Width) (dst : Operand) (src : Reg)
  | load (width : Width) (dst : Reg) (src : Operand)
  | store (width : Width) (dst : Operand) (src : Reg)
  | storeImm (width : Width) (dst : Operand) (imm : BitVec 32)
  | moveImm (dst : Reg) (imm : BitVec 64)
  | shift (op : ShiftOp) (width : Width) (dst : Operand) (count : ShiftCount)
  /-- `movsxd`: the sign-extended low half. -/
  | signExtend (dst : Reg) (src : Operand)
  /-- `setcc` on the low byte of a register. -/
  | setCondition (condition : ℕ) (dst : Reg)
  /-- `movzx` of the low byte of a register into a double word. -/
  | zeroExtendByte (dst src : Reg)
  | ret
deriving DecidableEq

structure Rex where
  (w r b : Bool)

/-- No prefix. -/
def Rex.none : Rex := ⟨false, false, false⟩

def Rex.width (rex : Rex) : Width := if rex.w then .qword else .dword

/-- Split off a REX prefix; the index bit is for operands that are not supported. -/
def decodeRex : List (BitVec 8) → Rex × List (BitVec 8)
  | byte :: rest =>
    if byte &&& 0xF2 = 0x40 then
      (⟨byte.getLsbD 3, byte.getLsbD 2, byte.getLsbD 0⟩, rest)
    else (Rex.none, byte :: rest)
  | [] => (Rex.none, [])

/-- A register field of three bits with its extension bit. -/
def regOf (extension : Bool) (field : BitVec 8) : Reg :=
  Fin.ofNat 16 ((field &&& 7).toNat + if extension then 8 else 0)

/-- Little-endian immediate of the given number of bytes. -/
def takeImm : ℕ → List (BitVec 8) → Option (BitVec 64 × List (BitVec 8))
  | 0, bytes => some (0, bytes)
  | size + 1, byte :: bytes =>
    (takeImm size bytes).map fun (high, rest) => (byte.setWidth 64 ||| high <<< 8, rest)
  | _ + 1, [] => none

/-- The ModRM byte: the register field, the operand, and the bytes after it. -/
def decodeModRm (rex : Rex) : List (BitVec 8) → Option (BitVec 8 × Operand × List (BitVec 8))
  | byte :: rest =>
    let field := (byte >>> 3) &&& 7
    let rm := byte &&& 7
    if byte >>> 6 = 3 then some (field, .reg (regOf rex.b rm), rest)
    else if byte >>> 6 = 2 ∧ rm ≠ 4 then
      (takeImm 4 rest).map fun (disp, rest) =>
        (field, .mem (regOf rex.b rm) (disp.setWidth 32), rest)
    else none
  | [] => none

def aluOpOf (opcode : BitVec 8) : Option AluOp :=
  match opcode with
  | 0x01 => some .add
  | 0x09 => some .or
  | 0x21 => some .and
  | 0x29 => some .sub
  | 0x31 => some .xor
  | 0x39 => some .cmp
  | _ => none

def shiftOpOf (field : BitVec 8) : Option ShiftOp :=
  match field with
  | 4 => some .shl
  | 5 => some .shr
  | 7 => some .sar
  | _ => none

/-- The instructions of the two-byte map; byte registers above `bl` are left out. -/
def decodeTwoByte (rex : Rex) (opcode : BitVec 8) (rest : List (BitVec 8)) :
    Option (Instr × List (BitVec 8)) :=
  match decodeModRm rex rest with
  | some (field, .reg rm, rest) =>
    if 4 ≤ rm.val then none
    else if opcode >>> 4 = 9 then some (.setCondition (opcode &&& 0xF).toNat rm, rest)
    else if opcode = 0xB6 then some (.zeroExtendByte (regOf rex.r field) rm, rest)
    else none
  | _ => none

def decodeOneByte (rex : Rex) (opcode field : BitVec 8) (operand : Operand)
    (rest : List (BitVec 8)) : Option (Instr × List (BitVec 8)) :=
  let reg := regOf rex.r field
  match aluOpOf opcode with
  | some op => some (.alu op rex.width operand reg, rest)
  | none =>
    match opcode with
    | 0x8B => some (.load rex.width reg operand, rest)
    | 0x89 => some (.store rex.width operand reg, rest)
    | 0x63 => if rex.w then some (.signExtend reg operand, rest) else none
    | 0xC7 =>
      if field = 0 then
        (takeImm 4 rest).map fun (imm, rest) =>
          (.storeImm rex.width operand (imm.setWidth 32), rest)
      else none
    | 0xC1 =>
      (shiftOpOf field).bind fun op => (takeImm 1 rest).map fun (count, rest) =>
        (.shift op rex.width operand (.imm (count.setWidth 8)), rest)
    | 0xD3 => (shiftOpOf field).map fun op => (.shift op rex.width operand .cl, rest)
    | _ => none

def decode (bytes : List (BitVec 8)) : Option (Instr × List (BitVec 8)) :=
  let (rex, bytes) := decodeRex bytes
  match bytes with
  | [] => none
  | opcode :: rest =>
    if opcode = 0xC3 then some (.ret, rest)
    else if opcode >>> 3 = 0x17 ∧ rex.w then
      (takeImm 8 rest).map fun (imm, rest) => (.moveImm (regOf rex.b opcode) imm, rest)
    else if opcode = 0x0F then
      match rest with
      | [] => none
      | second :: rest => decodeTwoByte rex second rest
    else
      (decodeModRm rex rest).bind fun (field, operand, rest) =>
        decodeOneByte rex opcode field operand rest

structure Flags where
  (cf zf sf of : Bool)
deriving DecidableEq

/-- Registers, memory and flags. The flags are unknown after an instruction that
leaves some of them undefined. -/
structure Machine where
  reg : Reg → BitVec 64
  ram : Ram
  flags : Option Flags

namespace AluOp

variable {n : ℕ}

def subFlags (a b : BitVec n) : Flags where
  cf := a.ult b
  zf := a - b == 0
  sf := (a - b).msb
  of := a.msb != b.msb && a.msb != (a - b).msb

def addFlags (a b : BitVec n) : Flags where
  cf := (a + b).ult a
  zf := a + b == 0
  sf := (a + b).msb
  of := a.msb == b.msb && a.msb != (a + b).msb

def logicFlags (value : BitVec n) : Flags := ⟨false, value == 0, value.msb, false⟩

def apply (op : AluOp) (a b : BitVec n) : Option (BitVec n) × Flags :=
  match op with
  | .add => (some (a + b), addFlags a b)
  | .or => (some (a ||| b), logicFlags (a ||| b))
  | .and => (some (a &&& b), logicFlags (a &&& b))
  | .sub => (some (a - b), subFlags a b)
  | .xor => (some (a ^^^ b), logicFlags (a ^^^ b))
  | .cmp => (none, subFlags a b)

end AluOp

def ShiftOp.apply {n : ℕ} (op : ShiftOp) (a : BitVec n) (count : ℕ) : BitVec n :=
  match op with
  | .shl => a <<< count
  | .shr => a >>> count
  | .sar => a.sshiftRight count

def conditionHolds (condition : ℕ) (flags : Flags) : Option Bool :=
  let plain :=
    match condition / 2 with
    | 0 => some flags.of
    | 1 => some flags.cf
    | 2 => some flags.zf
    | 3 => some (flags.cf || flags.zf)
    | 4 => some flags.sf
    | 6 => some (flags.sf != flags.of)
    | 7 => some (flags.zf || flags.sf != flags.of)
    | _ => none
  plain.map fun holds => holds != (condition % 2 == 1)

namespace Width

def bytes : Width → ℕ
  | .dword => 4
  | .qword => 8

/-- Use the low part of a register; a double word clears the high half. -/
def truncate (width : Width) (value : BitVec 64) : BitVec 64 :=
  match width with
  | .dword => (value.setWidth 32).setWidth 64
  | .qword => value

/-- Apply an operation on words of the given width. -/
def alu (width : Width) (op : AluOp) (a b : BitVec 64) : Option (BitVec 64) × Flags :=
  match width with
  | .dword =>
    let (value, flags) := op.apply (a.setWidth 32) (b.setWidth 32)
    (value.map (BitVec.setWidth 64), flags)
  | .qword => op.apply a b

def countMask : Width → BitVec 8
  | .dword => 31
  | .qword => 63

def shift (width : Width) (op : ShiftOp) (a : BitVec 64) (count : ℕ) : BitVec 64 :=
  match width with
  | .dword => (op.apply (a.setWidth 32) count).setWidth 64
  | .qword => op.apply a count

end Width

namespace Machine

variable (m : Machine)

def setReg (r : Reg) (value : BitVec 64) : Machine :=
  { m with reg := Function.update m.reg r value }

def address (base : Reg) (disp : BitVec 32) : BitVec 64 := m.reg base + disp.signExtend 64

def read (width : Width) : Operand → BitVec 64
  | .reg r => width.truncate (m.reg r)
  | .mem base disp => m.ram.load (m.address base disp) width.bytes

def write (width : Width) (dst : Operand) (value : BitVec 64) : Machine :=
  match dst with
  | .reg r => m.setReg r (width.truncate value)
  | .mem base disp => { m with ram := m.ram.store (m.address base disp) value width.bytes }

/-- Execute one instruction other than the return. -/
def exec : Instr → Option Machine
  | .alu op width dst src =>
    let (value, flags) := width.alu op (m.read width dst) (m.reg src)
    let m := match value with
      | some value => m.write width dst value
      | none => m
    some { m with flags := some flags }
  | .load width dst src => some (m.setReg dst (m.read width src))
  | .store width dst src => some (m.write width dst (m.reg src))
  | .storeImm width dst imm => some (m.write width dst (imm.signExtend 64))
  | .moveImm dst imm => some (m.setReg dst imm)
  | .shift op width dst count =>
    let count := match count with
      | .imm count => count
      | .cl => (m.reg rcx).setWidth 8
    let amount := (count &&& width.countMask).toNat
    if amount = 0 then some (m.write width dst (m.read width dst))
    else some { m.write width dst (width.shift op (m.read width dst) amount) with flags := none }
  | .signExtend dst src => some (m.setReg dst (((m.read .dword src).setWidth 32).signExtend 64))
  | .setCondition condition dst =>
    (m.flags.bind (conditionHolds condition)).map fun holds =>
      m.setReg dst ((m.reg dst &&& ~~~0xFF) ||| if holds then 1 else 0)
  | .zeroExtendByte dst src => some (m.setReg dst (m.reg src &&& 0xFF))
  | .ret => none

end Machine

/-- Run code up to its return, which takes the return address from the stack. -/
def run : ℕ → List (BitVec 8) → Machine → Option (BitVec 64 × Machine)
  | 0, _, _ => none
  | fuel + 1, bytes, m =>
    match decode bytes with
    | none => none
    | some (.ret, _) => some (m.ram.load (m.reg rsp) 8, m.setReg rsp (m.reg rsp + 8))
    | some (instr, rest) => (m.exec instr).bind (run fuel rest)

end VisualCpu.X86
