import VisualCpu.Exec.FloatingOps
import VisualCpu.Exec.SystemOps
import VisualCpu.Exec.AtomicContract

/-!
# Instruction semantics

`execute` maps a decoded instruction, the current state and operand values to
its effects, without changing the state.
-/

namespace VisualCpu

def isFloatingCsrAccess (insn : Insn) : Bool :=
  insn.opcode == 0x73 && insn.funct3 != 0 &&
    SystemOps.isFloatingCsr ((Decode.field64 insn.raw 20 12).setWidth 12)

def requiresEnabledFloatingState (insn : Insn) : Bool :=
  insn.opcode == 0x53 || insn.opcode == 0x43 || insn.opcode == 0x47 || insn.opcode == 0x4B ||
    insn.opcode == 0x4F || isStandardFpLoad insn || isStandardFpStore insn ||
    isFloatingCsrAccess insn

variable {D : Type} [Devices D] [Fpu]

/-- `InstructionSemantics::execute(insn, ctx, inputs)`. -/
def execute (insn : Insn) (cpu : Cpu D) (inputs : SemanticInputs) : InsnEffects :=
  if requiresEnabledFloatingState insn ∧
      cpu.readCsr Csr.mstatus &&& Mstatus.fsMask = Mstatus.fsOff then
    illegalInstructionEffect insn.raw
  else
    match insn.opcode with
    | 0x37 | 0x17 | 0x13 | 0x1B | 0x33 | 0x3B | 0x0F =>
      buildIntegerEffects insn inputs.rs1v inputs.rs2v inputs.pc
    | 0x6F | 0x67 | 0x63 => buildControlFlowEffects insn inputs.rs1v inputs.rs2v inputs.pc
    | 0x03 | 0x23 => buildMemoryEffects insn inputs.rs1v inputs.rs2v
    | 0x2F => buildAtomicEffects insn inputs.rs1v inputs.rs2v
    | 0x07 | 0x27 =>
      if isStandardFpLoad insn || isStandardFpStore insn then
        buildMemoryEffects insn inputs.rs1v inputs.rs2v
      else buildVectorEffects insn inputs.rs1v
    | 0x53 | 0x43 | 0x47 | 0x4B | 0x4F =>
      FloatingOps.buildFloatingEffects insn inputs.rs1v inputs.rs2v inputs.rs3v
        (cpu.readCsr Csr.fcsr)
    | 0x57 => buildVectorEffects insn inputs.rs1v
    | 0x73 => SystemOps.buildSystemEffects cpu insn inputs
    | _ => illegalInstructionEffect insn.raw

/-- The register operands that `execute(insn, ctx)` reads from the core. -/
def coreInputs (insn : Insn) (core : CoreState) : SemanticInputs where
  pc := core.pc
  rs1v := if describeRs1 insn = .fpr then core.readFpr insn.rs1 else core.readGpr insn.rs1
  rs2v := if describeRs2 insn = .fpr then core.readFpr insn.rs2 else core.readGpr insn.rs2
  rs3v := if floatingRs3FromFpr insn then core.readFpr insn.rs3 else 0

/-- `build_effects`: the effects of an instruction in the current state. -/
def buildEffects (cpu : Cpu D) (insn : Insn) : InsnEffects :=
  if !supports insn then illegalInstructionEffect insn.raw
  else execute insn cpu (coreInputs insn cpu.core)

end VisualCpu

/-!
## The commit boundary

`applyCommitBoundary` is the one place where the effects of an instruction
reach the architectural state. Both backends use it: the interpreter with the
effects as built, the pipeline with the parts it has already carried out removed.
-/

namespace VisualCpu

structure CommitBoundaryInput where
  (pc nextPc : BitVec 64)
  effects : InsnEffects

structure CommitBoundaryResult where
  retired : Bool := false
  trapTaken : Bool := false
  trapFlush : Bool := false
  platformStateChanged : Bool := false
  /-- An atomic access reached memory. -/
  atomicMemoryObserved : Bool := false
  nextPc : BitVec 64
deriving DecidableEq

namespace Cpu

variable {D : Type} [Devices D] (cpu : Cpu D)

/-- `mark_floating_state_dirty`. -/
def markFloatingStateDirty : Cpu D :=
  cpu.writeCsr Csr.mstatus ((cpu.readCsr Csr.mstatus &&& ~~~Mstatus.fsMask) ||| Mstatus.fsDirty)

/-- `enter_precise_trap`: the trap is taken at the pc of the instruction. -/
def enterPreciseTrap (pc : BitVec 64) (trap : TrapRequest) : Cpu D :=
  (cpu.setPc pc).enterException trap

variable (effects : InsnEffects)

/-- A load that has not been carried out yet becomes a register write. -/
def loadEffects (value : BitVec 64) : InsnEffects :=
  match effects.mem.target with
  | .float => { effects with fpWrite := some ⟨effects.mem.rd, value⟩ }
  | .integer =>
    let extended := extendLoadedValue value effects.mem.size effects.mem.signExtend
    { effects with rdWrite := some ⟨effects.mem.rd, extended⟩ }

/-- The scalar memory access of the boundary: the completed effects and whether
a memory-mapped device was written, or the trap. -/
def commitMemory : Except TrapRequest (InsnEffects × Bool) × Cpu D :=
  if effects.mem.kind = .load ∧ effects.rdWrite = none ∧ effects.fpWrite = none then
    match cpu.loadResult effects.mem.addr effects.mem.size with
    | (.error fault, cpu) => (.error fault, cpu)
    | (.ok value, cpu) => (.ok (loadEffects effects value, false), cpu)
  else if effects.mem.kind = .store then
    match cpu.storeResult effects.mem.addr effects.mem.storeValue effects.mem.size with
    | (some fault, cpu) => (.error fault, cpu)
    | (none, cpu) =>
      let cpu := cpu.invalidateReservationForStore effects.mem.addr effects.mem.size
      (.ok (effects, cpu.addressSpace.bus.lastAccessMmio), cpu)
  else (.ok (effects, false), cpu)

/-- The register, CSR and fence effects, once nothing can trap any more. -/
def commitRegisters : Cpu D :=
  let cpu := match effects.csrWrite with
    | some write => cpu.writeCsr write.addr write.value
    | none => cpu
  let cpu := match effects.rdWrite with
    | some write => cpu.mapCore (·.writeGpr write.rd write.value)
    | none => cpu
  let cpu := match effects.fpWrite with
    | some write => cpu.mapCore (·.writeFpr write.rd write.value)
    | none => cpu
  let cpu := if effects.floatingStateTouched then cpu.markFloatingStateDirty else cpu
  let cpu := if effects.control.flushTlb then
    { cpu with addressSpace := cpu.addressSpace.flushTlb } else cpu
  if effects.control.halt then cpu.mapCore ({ · with halted := true }) else cpu

/-- The pc after the instruction: a trap return, a redirect or the next pc. -/
def commitPc (control : ControlEffect) (nextPc : BitVec 64) : Cpu D :=
  match control.trapReturn with
  | .mret => cpu.returnFromMret
  | .sret => cpu.returnFromSret
  | .none => cpu.setPc (control.redirectPc.getD nextPc)

variable (input : CommitBoundaryInput)

/-- The part of the boundary after every access has succeeded. -/
def finishCommit (effects : InsnEffects) (changed observed : Bool) :
    CommitBoundaryResult × Cpu D :=
  let cpu := (cpu.commitRegisters effects).commitPc effects.control input.nextPc
  let cpu := if effects.retired then cpu.mapCore (·.advanceInstret) else cpu
  ({ retired := effects.retired
     trapFlush := effects.control.trapReturn != .none || effects.control.halt
     platformStateChanged := changed
     atomicMemoryObserved := observed
     nextPc := cpu.core.pc }, cpu)

def trapResult (pc : BitVec 64) (trap : TrapRequest) (observed : Bool) :
    CommitBoundaryResult × Cpu D :=
  let cpu := cpu.enterPreciseTrap pc trap
  ({ trapTaken := true, trapFlush := true, atomicMemoryObserved := observed
     nextPc := cpu.core.pc }, cpu)

def commitVector (effects : InsnEffects) (changed observed : Bool) :
    CommitBoundaryResult × Cpu D :=
  match cpu.applyVectorRequest effects.vector with
  | (.error trap, cpu) => cpu.trapResult input.pc trap false
  | (.ok vectorChanged, cpu) => cpu.finishCommit input effects (changed || vectorChanged) observed

/-- The atomic part of the boundary; its result replaces the write of `rd`. -/
def commitAtomic (effects : InsnEffects) (changed : Bool) :
    CommitBoundaryResult × Cpu D :=
  if effects.atomic.kind = .none then cpu.commitVector input effects changed false
  else
    let (result, cpu) := cpu.applyAtomicRequest effects.atomic
    match result.trap with
    | some trap => cpu.trapResult input.pc trap result.memoryObserved
    | none =>
      cpu.commitVector input { effects with rdWrite := result.rdWrite }
        (changed || result.platformStateChanged) result.memoryObserved

/-- `apply_commit_boundary`. -/
def applyCommitBoundary : CommitBoundaryResult × Cpu D :=
  match input.effects.trap with
  | some trap => cpu.trapResult input.pc trap false
  | none =>
    match cpu.commitMemory input.effects with
    | (.error trap, cpu) => cpu.trapResult input.pc trap false
    | (.ok (effects, changed), cpu) => cpu.commitAtomic input effects changed

end Cpu

end VisualCpu
