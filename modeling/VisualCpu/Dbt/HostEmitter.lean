import VisualCpu.Dbt.HostMachine
import VisualCpu.Dbt.IrLowering

/-!
# Emitting host code

`emit_dbt_host_block` checks a lowered unit and writes it as x86-64 machine code. The
code is called with the address of the register array in `rdi`; every operation loads
its operands into `rax` and `rcx` and stores `rax` into the array, and the fallthrough
returns the next pc.
-/

namespace VisualCpu

/-- The code of a unit, or why there is none. Obtaining executable memory is a
service of the host: the code is kept when the host grants and seals it. -/
structure DbtHostExecutable where
  ok : Bool
  (startPc endPc : BitVec 64)
  rejectKind : DbtRejectKind := .none
  rejectPc : BitVec 64 := 0
  rejectRaw : BitVec 32 := 0
  rejectReason : String := ""
  requestedExecutableMemory : Bool := false
  code : List (BitVec 8) := []

namespace DbtHostEmitter

def emitU32 (value : BitVec 32) : List (BitVec 8) :=
  [value.setWidth 8, (value >>> 8).setWidth 8, (value >>> 16).setWidth 8,
    (value >>> 24).setWidth 8]

def emitU64 (value : BitVec 64) : List (BitVec 8) :=
  [value.setWidth 8, (value >>> 8).setWidth 8, (value >>> 16).setWidth 8,
    (value >>> 24).setWidth 8, (value >>> 32).setWidth 8, (value >>> 40).setWidth 8,
    (value >>> 48).setWidth 8, (value >>> 56).setWidth 8]

def gprOffset (reg : ℕ) : BitVec 32 := BitVec.ofNat 32 (reg % 32 * 8)

def emitLoadGprToRax (reg : ℕ) : List (BitVec 8) := [0x48, 0x8B, 0x87] ++ emitU32 (gprOffset reg)

def emitLoadGprToRcx (reg : ℕ) : List (BitVec 8) := [0x48, 0x8B, 0x8F] ++ emitU32 (gprOffset reg)

def emitStoreRaxToGpr (reg : ℕ) : List (BitVec 8) := [0x48, 0x89, 0x87] ++ emitU32 (gprOffset reg)

def emitZeroX0 : List (BitVec 8) := [0x48, 0xC7, 0x87] ++ emitU32 0 ++ emitU32 0

def emitMovRaxImm (value : BitVec 64) : List (BitVec 8) := [0x48, 0xB8] ++ emitU64 value

def emitMovRcxImm (value : BitVec 64) : List (BitVec 8) := [0x48, 0xB9] ++ emitU64 value

variable (instruction : DbtLoweredInstruction)

def emitOperandToRax :
    DbtLoweredOperandKind → Option (List (BitVec 8))
  | .gpr => some (emitLoadGprToRax instruction.rs1)
  | .immediate => some (emitMovRaxImm instruction.imm)
  | .pc => some (emitMovRaxImm instruction.pc)
  | .none => none

def emitRhsToRcx : Option (List (BitVec 8)) :=
  match instruction.rhsKind with
  | .gpr => some (emitLoadGprToRcx instruction.rs2)
  | .immediate => some (emitMovRcxImm instruction.imm)
  | .pc => some (emitMovRcxImm instruction.pc)
  | .none => none

variable (op : DbtLoweredAluOp)

def emitAlu32EaxEcx : List (BitVec 8) :=
  match op with
  | .add => [0x01, 0xC8]
  | .sub => [0x29, 0xC8]
  | .xor => [0x31, 0xC8]
  | .or => [0x09, 0xC8]
  | .and => [0x21, 0xC8]
  | _ => []

def emitAlu64RaxRcx : List (BitVec 8) := 0x48 :: emitAlu32EaxEcx op

/-- The ModRM byte of a shift of `rax`. -/
def shiftModRm : BitVec 8 :=
  match op with
  | .shiftRightLogical => 0xE8
  | .shiftRightArithmetic => 0xF8
  | _ => 0xE0

def emitShiftEaxImm (amount : BitVec 8) : List (BitVec 8) :=
  [0xC1, shiftModRm op, amount]

def emitShiftRaxImm (amount : BitVec 8) : List (BitVec 8) :=
  0x48 :: emitShiftEaxImm op amount

def emitShiftEaxCl : List (BitVec 8) := [0xD3, shiftModRm op]

def emitShiftRaxCl : List (BitVec 8) := 0x48 :: emitShiftEaxCl op

def emitMovsxdRaxEax : List (BitVec 8) := [0x48, 0x63, 0xC0]

def emitCmpRaxRcx : List (BitVec 8) := [0x48, 0x39, 0xC8]

def emitSetccToRax (unsignedCompare : Bool) : List (BitVec 8) :=
  [0x0F, if unsignedCompare then 0x92 else 0x9C, 0xC0, 0x0F, 0xB6, 0xC0]

def isBinaryAlu : DbtLoweredAluOp → Bool
  | .add | .sub | .xor | .or | .and => true
  | _ => false

def isShift : DbtLoweredAluOp → Bool
  | .shiftLeft | .shiftRightLogical | .shiftRightArithmetic => true
  | _ => false

def isSetLessThan : Bool := op == .setLessThan || op == .setLessThanUnsigned

/-- The computation of an instruction, which leaves its value in `rax`. -/
def emitValue : Option (List (BitVec 8)) :=
  let operand := emitOperandToRax instruction instruction.lhsKind
  if instruction.alu = .move then operand
  else if isBinaryAlu instruction.alu then do
    let lhs ← operand
    let rhs ← emitRhsToRcx instruction
    match instruction.width with
    | .word => some (lhs ++ rhs ++ emitAlu32EaxEcx instruction.alu ++ emitMovsxdRaxEax)
    | .xlen => some (lhs ++ rhs ++ emitAlu64RaxRcx instruction.alu)
  else if isShift instruction.alu then do
    let lhs ← operand
    if instruction.rhsKind = .immediate then
      match instruction.width with
      | .word =>
        some (lhs ++ emitShiftEaxImm instruction.alu ((instruction.imm &&& 31).setWidth 8) ++
          emitMovsxdRaxEax)
      | .xlen =>
        some (lhs ++ emitShiftRaxImm instruction.alu ((instruction.imm &&& 63).setWidth 8))
    else
      -- the result of `emit_rhs_to_rcx` is not looked at here
      let rhs := (emitRhsToRcx instruction).getD []
      match instruction.width with
      | .word => some (lhs ++ rhs ++ emitShiftEaxCl instruction.alu ++ emitMovsxdRaxEax)
      | .xlen => some (lhs ++ rhs ++ emitShiftRaxCl instruction.alu)
  else if isSetLessThan instruction.alu then do
    let lhs ← operand
    let rhs ← emitRhsToRcx instruction
    some (lhs ++ rhs ++ emitCmpRaxRcx ++
      emitSetccToRax (instruction.alu == .setLessThanUnsigned))
  else none

def emitCompute : Option (List (BitVec 8)) :=
  (emitValue instruction).map fun code =>
    code ++ if instruction.writesGpr then emitStoreRaxToGpr instruction.rd else []

def emitInstruction : Option (List (BitVec 8)) :=
  match instruction.opcode with
  | .fallthrough => some (emitMovRaxImm instruction.nextPc ++ [0xC3])
  | .compute => emitCompute instruction

/-- The loop of `emit_code`. -/
def emitInstructions : List DbtLoweredInstruction → Option (List (BitVec 8))
  | [] => some []
  | instruction :: instructions => do
    let code ← emitInstruction instruction
    let rest ← emitInstructions instructions
    some (code ++ rest)

def emitCode (lowered : DbtIrLoweringResult) : Option (List (BitVec 8)) :=
  (emitInstructions lowered.instructions).map (emitZeroX0 ++ ·)

/-- `validate_instruction`, without the order of the instructions. -/
def validOperation : Bool :=
  if instruction.alu = .move then instruction.lhsKind != .none
  else if isBinaryAlu instruction.alu || isSetLessThan instruction.alu then
    instruction.lhsKind != .none && instruction.rhsKind != .none
  else if isShift instruction.alu then
    instruction.lhsKind != .none &&
      (instruction.rhsKind == .immediate || instruction.rhsKind == .gpr)
  else false

/-- The loop of `validate_lowered`: the instruction and reason of a rejection. -/
def validateFrom : Bool → List DbtLoweredInstruction →
    Option (Option DbtLoweredInstruction × String)
  | seenFallthrough, [] => if seenFallthrough then none else some (none, "missing-fallthrough")
  | true, instruction :: _ => some (some instruction, "lowered-op-after-fallthrough")
  | false, instruction :: instructions =>
    match instruction.opcode with
    | .fallthrough => validateFrom true instructions
    | .compute =>
      if validOperation instruction then validateFrom false instructions
      else some (some instruction, "unsupported-lowered-op")

/-- `reject_emission`. -/
def rejectEmission (lowered : DbtIrLoweringResult) (instruction : Option DbtLoweredInstruction)
    (reason : String) : DbtHostExecutable where
  ok := false
  startPc := lowered.startPc
  endPc := lowered.endPc
  rejectKind := .unsupportedIr
  rejectPc := (instruction.map DbtLoweredInstruction.pc).getD lowered.startPc
  rejectRaw := (instruction.map DbtLoweredInstruction.raw).getD 0
  rejectReason := reason

end DbtHostEmitter

open DbtHostEmitter in
/-- `emit_dbt_host_block` on an x86-64 host. `hostError` is the host's answer to the request
for executable memory: nothing, or the error of the step that failed. -/
def emitDbtHostBlock (hostError : List (BitVec 8) → Option String) (lowered : DbtIrLoweringResult) :
    DbtHostExecutable :=
  if !lowered.ok then
    { ok := false, startPc := lowered.startPc, endPc := lowered.endPc,
      rejectKind := lowered.rejectKind, rejectPc := lowered.rejectPc,
      rejectRaw := lowered.rejectRaw,
      rejectReason := if lowered.rejectReason = "" then "lowering-rejected"
        else lowered.rejectReason }
  else
    match validateFrom false lowered.instructions with
    | some (instruction, reason) => rejectEmission lowered instruction reason
    | none =>
      match emitCode lowered with
      | none => rejectEmission lowered none "host-emission-failed"
      | some code =>
        match hostError code with
        | some error =>
          { ok := false, startPc := lowered.startPc, endPc := lowered.endPc,
            rejectKind := .unsupportedIr, rejectPc := lowered.startPc, rejectReason := error,
            requestedExecutableMemory := true }
        | none =>
          { ok := true, startPc := lowered.startPc, endPc := lowered.endPc,
            requestedExecutableMemory := true, code }

/-!
## Running a host block

`execute_with_guardrail` calls the code of a block on a copy of the integer registers
and compares what comes back with the evaluator. Only a result that agrees is written
to the processor.
-/

open X86

def Ram.storeGprs (ram : Ram) (array : BitVec 64) (gpr : Fin 32 → BitVec 64) : Ram := fun a =>
  let offset := (a - array).toNat
  if offset < 256 then Ram.byteOf (gpr (Fin.ofNat 32 (offset / 8))) (offset % 8) else ram a

/-- Read the register array back. -/
def Ram.loadGprs (ram : Ram) (array : BitVec 64) : Fin 32 → BitVec 64 := fun i =>
  ram.load (array + BitVec.ofNat 64 (8 * i.val)) 8

/-- The host program where it calls a block: its registers and memory, the address of
the register array and the address to return to. The array lies apart from the stack
slot that the call takes. -/
structure HostFrame where
  machine : Machine
  (array returnAddress : BitVec 64)
  apart : Ram.Disjoint (machine.reg rsp - 8) 8 array 256

namespace HostFrame

variable (frame : HostFrame)

/-- The call: the arguments in `rdi` and `rsi`, the return address on the stack. -/
def enter (gpr : Fin 32 → BitVec 64) (pc : BitVec 64) : Machine where
  reg := Function.update (Function.update (Function.update frame.machine.reg
    rsp (frame.machine.reg rsp - 8)) rsi pc) rdi frame.array
  ram := (frame.machine.ram.storeGprs frame.array gpr).store (frame.machine.reg rsp - 8)
    frame.returnAddress 8
  flags := frame.machine.flags

def call (code : List (BitVec 8)) (gpr : Fin 32 → BitVec 64) (pc : BitVec 64) : Option Machine :=
  (run code.length code (frame.enter gpr pc)).bind fun (address, m) =>
    if address = frame.returnAddress then some m else none

end HostFrame

/-- `execute_dbt_host_block`: the returned pc and the array after the call. -/
def executeDbtHostBlock (frame : HostFrame) (executable : DbtHostExecutable)
    (gpr : Fin 32 → BitVec 64) (pc : BitVec 64) : Option (BitVec 64 × (Fin 32 → BitVec 64)) :=
  if !executable.ok then some (pc, gpr)
  else (frame.call executable.code gpr pc).map fun m => (m.reg rax, m.ram.loadGprs frame.array)

structure DbtRuntimeHarnessResult where
  ok : Bool
  rejectKind : DbtRejectKind := .none
  rejectReason : String := ""
  differentialChecked : Bool := false
  differentialMatched : Bool := false
  nextPc : BitVec 64 := 0
  irExpectedRetiredCount : BitVec 64 := 0

/-- `reject_reason_or_default`. -/
def rejectReasonOrDefault (reason fallback : String) : String :=
  if reason = "" then fallback else reason

/-- `commit_gprs`. -/
def CoreState.commitGprs (core : CoreState) (gpr : Fin 32 → BitVec 64) : CoreState :=
  { core with gpr := Function.update gpr 0 (core.gpr 0) }

/-- `advance_instret` by more than one instruction. -/
def CoreState.advanceInstretBy (core : CoreState) (count : BitVec 64) : CoreState :=
  { core with instret := core.instret + count }

/-- `execute_with_guardrail`; nothing when the host code does not return. -/
def executeWithGuardrail {D : Type} (frame : HostFrame) (cpu : Cpu D) (unit : DbtTranslationUnit)
    (executable : DbtHostExecutable) (inputGpr : Fin 32 → BitVec 64) (inputPc : BitVec 64) :
    Option (DbtRuntimeHarnessResult × Cpu D) :=
  let expected := evaluateDbtIrUnit unit ⟨inputGpr, inputPc⟩
  if !expected.ok then
    some ({ ok := false, rejectKind := expected.rejectKind,
            rejectReason := rejectReasonOrDefault expected.rejectReason "ir-eval-rejected" }, cpu)
  else
    (executeDbtHostBlock frame executable inputGpr inputPc).map fun (nextPc, gpr) =>
      let outputGpr := Function.update gpr 0 0
      let matched := decide (expected.nextPc = nextPc ∧
        expected.retiredInstructions + 1 = BitVec.ofNat 64 unit.instructions.length ∧
        expected.gpr = outputGpr)
      let result : DbtRuntimeHarnessResult :=
        { ok := matched, differentialChecked := true, differentialMatched := matched, nextPc,
          irExpectedRetiredCount := expected.retiredInstructions }
      if matched then
        (result, cpu.mapCore fun core =>
          ((core.commitGprs outputGpr).setPc nextPc).advanceInstretBy expected.retiredInstructions)
      else
        ({ result with rejectKind := .unsupportedIr, rejectReason := "differential-mismatch" }, cpu)

end VisualCpu
