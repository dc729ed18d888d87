import VisualCpu.Cpu

/-!
# System instructions

Environment calls, trap returns, fences on the translation buffer and the CSR
instructions, with the privilege rules of `system_ops.cpp`.
-/

namespace VisualCpu

/-- Operand values handed to the semantics; the optional ones override a read
of the current state. -/
structure SemanticInputs where
  (pc rs1v rs2v : BitVec 64)
  rs3v : BitVec 64 := 0
  csrv : Option (BitVec 64) := none
  ecallA7 : Option (BitVec 64) := none

namespace SystemOps

def causeBreakpoint : BitVec 64 := 3

def ecallCause : PrivilegeMode → BitVec 64
  | .user => 8
  | .supervisor => 9
  | .machine => 11

def isSfenceVma (insn : Insn) : Bool := insn.raw &&& 0xFE007FFF == 0x12000073

def isEcall (insn : Insn) : Bool :=
  insn.opcode == 0x73 && insn.funct3 == 0 && insn.rd == 0 && insn.rs1 == 0 && insn.imm == 0

def isEbreak (insn : Insn) : Bool :=
  insn.opcode == 0x73 && insn.funct3 == 0 && insn.rd == 0 && insn.rs1 == 0 && insn.imm == 1

def isWfi (insn : Insn) : Bool := insn.raw == 0x10500073

def csrInstructionWrites (insn : Insn) : Bool :=
  match insn.funct3 with
  | 1 | 5 => true
  | 2 | 3 | 6 | 7 => insn.rs1 != 0
  | _ => false

def isFloatingCsr (addr : BitVec 12) : Bool :=
  addr == Csr.fflags || addr == Csr.frm || addr == Csr.fcsr

/-- The enable bit that guards reads of a counter; zero for other registers. -/
def counterAccessMask (addr : BitVec 12) : BitVec 64 :=
  if CsrFile.isMhpmcounter addr then 1#64 <<< (addr.toNat - Csr.mhpmcounter3.toNat + 3)
  else if CsrFile.isHpmcounterShadow addr then 1#64 <<< (addr.toNat - Csr.hpmcounter3.toNat + 3)
  else if addr = Csr.cycle then 1#64 <<< 0
  else if addr = Csr.time then 1#64 <<< 1
  else if addr = Csr.instret then 1#64 <<< 2
  else 0

variable {D : Type} [Devices D] (cpu : Cpu D)

def counterReadAllowed (addr : BitVec 12) : Bool :=
  let mask := counterAccessMask addr
  if mask = 0 then true
  else
    match cpu.core.privilegeMode with
    | .machine => true
    | .supervisor => testMask (cpu.readCsr Csr.mcounteren) mask
    | .user =>
      testMask (cpu.readCsr Csr.mcounteren) mask && testMask (cpu.readCsr Csr.scounteren) mask

/-- The lowest privilege that may access a CSR, from its address. -/
def requiredPrivilege (addr : BitVec 12) : ℕ := ((addr >>> 8) &&& 3).toNat

def isReadOnlyCsr (addr : BitVec 12) : Bool := (addr >>> 10) &&& 3 == 3

def csrAccessAllowed (addr : BitVec 12) (write : Bool) : Bool :=
  if !CsrFile.isImplemented addr then false
  else if requiredPrivilege addr = 2 ∨
      cpu.core.privilegeMode.encode.toNat < requiredPrivilege addr then false
  else if !write && !counterReadAllowed cpu addr then false
  else if write && addr == Csr.misa then false
  else !write || !isReadOnlyCsr addr

def csrResult (funct3 : ℕ) (old source : BitVec 64) : BitVec 64 :=
  match funct3 with
  | 2 | 6 => old ||| source
  | 3 | 7 => old &&& ~~~source
  | _ => source

/-- The six CSR instructions: read the old value into `rd`, then write. -/
def csrEffects (insn : Insn) (inputs : SemanticInputs) (source : BitVec 64) : InsnEffects :=
  let addr := Decode.field64 insn.raw 20 12 |>.setWidth 12
  if !csrAccessAllowed cpu addr (csrInstructionWrites insn) then illegalInstructionEffect insn.raw
  else
    let old := inputs.csrv.getD (cpu.readCsr addr)
    if csrInstructionWrites insn then
      { setRd insn.rd old with
        csrWrite := some ⟨addr, csrResult insn.funct3 old source⟩
        floatingStateTouched := isFloatingCsr addr }
    else setRd insn.rd old

/-- An instruction that user mode may not execute. -/
def unlessUser (insn : Insn) (effects : InsnEffects) : InsnEffects :=
  if cpu.core.privilegeMode = .user then illegalInstructionEffect insn.raw else effects

def ecallEffects (inputs : SemanticInputs) : InsnEffects :=
  let a7 := inputs.ecallA7.getD (cpu.core.readGpr 17)
  if cpu.core.privilegeMode = .machine ∧ a7 = 93 then { control := { halt := true } }
  else { trap := some ⟨ecallCause cpu.core.privilegeMode, 0⟩, retired := false }

/-- System instructions with `funct3` zero. -/
def privilegedEffects (insn : Insn) (inputs : SemanticInputs) : InsnEffects :=
  if isEcall insn then ecallEffects cpu inputs
  else if isEbreak insn then { trap := some ⟨causeBreakpoint, inputs.pc⟩, retired := false }
  else if insn.raw = 0x30200073 then
    if cpu.core.privilegeMode ≠ .machine then illegalInstructionEffect insn.raw
    else { control := { trapReturn := .mret } }
  else if insn.raw = 0x10200073 then unlessUser cpu insn { control := { trapReturn := .sret } }
  else if isSfenceVma insn then unlessUser cpu insn { control := { flushTlb := true } }
  else if isWfi insn then unlessUser cpu insn {}
  else illegalInstructionEffect insn.raw

def buildSystemEffects (insn : Insn) (inputs : SemanticInputs) : InsnEffects :=
  match insn.funct3 with
  | 0 => privilegedEffects cpu insn inputs
  | 1 | 2 | 3 => csrEffects cpu insn inputs inputs.rs1v
  | 5 | 6 | 7 => csrEffects cpu insn inputs (BitVec.ofNat 64 insn.rs1)
  | _ => illegalInstructionEffect insn.raw

end SystemOps

end VisualCpu
