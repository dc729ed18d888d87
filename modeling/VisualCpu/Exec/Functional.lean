import VisualCpu.Exec.Semantics

/-!
# The functional backend

`FunctionalBackend::step`: one platform tick, at most one interrupt, then one
instruction through fetch, execution and the commit boundary.
-/

namespace VisualCpu

/-- The end of an instruction, as recorded in the execution profile. -/
structure RetireObservation where
  pc : BitVec 64
  raw : BitVec 32
  (trap redirect : Bool)
  (cycle targetPc : BitVec 64)
deriving DecidableEq

/-- A trap or interrupt, as recorded in the execution profile. -/
structure TrapObservation where
  pc : BitVec 64
  raw : BitVec 32
  cause : BitVec 64
  privilege : PrivilegeMode
deriving DecidableEq

/-- The entries of the execution profile, in the order they are recorded. -/
inductive Observation where
  | retire (observation : RetireObservation)
  | trap (observation : TrapObservation)
deriving DecidableEq

namespace Cpu

variable {D : Type} [Devices D] (cpu : Cpu D)

def activeTrapCause : BitVec 64 :=
  match cpu.core.privilegeMode with
  | .supervisor => cpu.readCsr Csr.scause
  | .machine => cpu.readCsr Csr.mcause
  | .user => 0

def makeTrapObservation (pc : BitVec 64) (raw : BitVec 32) : Observation :=
  .trap ⟨pc, raw, cpu.activeTrapCause, cpu.core.privilegeMode⟩

/-- Observing a scalar access translates its address again. -/
def observeScalar (request : MemoryRequest) : Cpu D :=
  match request.kind with
  | .load => (cpu.translateResult request.addr .load false).2
  | .store => (cpu.translateResult request.addr .store false).2
  | .none => cpu

/-- Observing a vector access of at least one byte translates its address again. -/
def observeVector (request : VectorRequest) : Cpu D :=
  let sewBytes := if request.sewBytes ≠ 0 then request.sewBytes else cpu.core.vector.sewBytes
  let vl := if request.vl ≠ 0 then request.vl else cpu.core.vector.vl
  if sewBytes * vl = 0 then cpu
  else
    match request.kind with
    | .load => (cpu.translateResult request.addr .load false).2
    | .store => (cpu.translateResult request.addr .store false).2
    | _ => cpu

/-- `make_atomic_memory_observation` returns an observation. -/
def atomicObserved (request : AtomicRequest) (result : CommitBoundaryResult) : Bool :=
  request.kind != .none && request.size != 0 && (result.atomicMemoryObserved || result.trapTaken)

/-- The state after recording the memory observation of a step. -/
def observeMemory (effects : InsnEffects) (result : CommitBoundaryResult) : Cpu D :=
  if atomicObserved effects.atomic result then cpu
  else if effects.mem.kind ≠ .none then cpu.observeScalar effects.mem
  else cpu.observeVector effects.vector

theorem observeVector_probed (request : VectorRequest) :
    cpu.Probed (cpu.observeVector request) := by
  unfold observeVector
  dsimp only
  generalize (if request.sewBytes ≠ 0 then request.sewBytes else _) = sewBytes
  generalize (if request.vl ≠ 0 then request.vl else _) = vl
  split_ifs
  · exact .refl cpu
  cases request.kind with
  | load => exact .inr ⟨_, _, rfl⟩
  | store => exact .inr ⟨_, _, rfl⟩
  | _ => exact .refl cpu

theorem observeMemory_probed (effects : InsnEffects) (result : CommitBoundaryResult) :
    cpu.Probed (cpu.observeMemory effects result) := by
  unfold observeMemory
  split_ifs
  · exact .refl cpu
  · unfold observeScalar
    cases effects.mem.kind with
    | load => exact .inr ⟨_, _, rfl⟩
    | store => exact .inr ⟨_, _, rfl⟩
    | none => exact .refl cpu
  · exact cpu.observeVector_probed _

end Cpu

/-- The functional backend: the processor and its execution profile. -/
structure FunctionalBackend (D : Type) where
  cpu : Cpu D
  profile : List Observation

namespace FunctionalBackend

variable {D : Type} [Devices D] [Fpu] (backend : FunctionalBackend D)

/-- `handle_interrupt_and_record_profile`: the platform tick and its interrupt. -/
def handleInterruptAndRecordProfile : FunctionalBackend D :=
  let (events, ticked) := backend.cpu.tickBus
  let synced := ticked.syncPlatformEvents events
  match synced.servicePendingInterrupts with
  | none => { backend with cpu := synced }
  | some cpu =>
    let trapTaken := cpu.core.pc ≠ backend.cpu.core.pc ∨
      cpu.core.privilegeMode ≠ backend.cpu.core.privilegeMode ∨
      cpu.readCsr Csr.mcause ≠ backend.cpu.readCsr Csr.mcause ∨
      cpu.readCsr Csr.scause ≠ backend.cpu.readCsr Csr.scause
    { cpu
      profile := backend.profile ++
        if trapTaken then [cpu.makeTrapObservation backend.cpu.core.pc 0] else [] }

def recordTrap (cpu : Cpu D) (pc : BitVec 64) (raw : BitVec 32) : FunctionalBackend D :=
  { cpu := cpu.mapCore (·.advanceCycle)
    profile := backend.profile ++ [cpu.makeTrapObservation pc raw] }

/-- `build_effects` on a fetched word. -/
def decodeFetched (raw : BitVec 32) : Insn := { decode raw with raw }

def isRedirect (effects : InsnEffects) : Bool :=
  effects.control.redirectPc.isSome || effects.control.trapReturn != .none

/-- The instruction part of a step, once the word has been fetched. -/
def executeFetched (cpu : Cpu D) (raw : BitVec 32) : FunctionalBackend D :=
  let insn := decodeFetched raw
  let pc := cpu.core.pc
  let effects := buildEffects cpu insn
  let (result, cpu) :=
    cpu.applyCommitBoundary { pc, nextPc := pc + instructionSize insn, effects }
  let cpu := cpu.observeMemory effects result
  if result.trapTaken then backend.recordTrap cpu pc raw
  else
    { cpu := cpu.mapCore (·.advanceCycle)
      profile := backend.profile ++
        if result.retired then
          [.retire ⟨pc, raw, false, isRedirect effects, cpu.core.cycle, result.nextPc⟩] else [] }

def fetchedInput (cpu : Cpu D) (raw : BitVec 32) : CommitBoundaryInput :=
  ⟨cpu.core.pc, cpu.core.pc + instructionSize (decodeFetched raw),
    buildEffects cpu (decodeFetched raw)⟩

theorem executeFetched_core (cpu : Cpu D) (raw : BitVec 32) :
    (backend.executeFetched cpu raw).cpu.core =
      (cpu.applyCommitBoundary (fetchedInput cpu raw)).2.core.advanceCycle := by
  have hobserve := ((cpu.applyCommitBoundary (fetchedInput cpu raw)).2.observeMemory_probed
    (fetchedInput cpu raw).effects
    (cpu.applyCommitBoundary (fetchedInput cpu raw)).1).sameRegisters.core
  rw [← hobserve]
  unfold executeFetched
  dsimp only
  split_ifs <;> rfl

/-- The part of a step after the interrupt check. -/
def stepInstruction : FunctionalBackend D :=
  let pc := backend.cpu.core.pc
  match backend.cpu.fetchInstruction pc with
  | (.error fault, cpu) => backend.recordTrap (cpu.enterException fault) pc 0
  | (.ok raw, cpu) => backend.executeFetched cpu raw

/-- `FunctionalBackend::step`. -/
def step : FunctionalBackend D := backend.handleInterruptAndRecordProfile.stepInstruction

end FunctionalBackend

end VisualCpu
