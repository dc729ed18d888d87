import VisualCpu.Kernel.TrapContext

/-!
# Dispatching a supervisor trap

An exception is offered to the handlers in a fixed order until one takes it. What the
dispatcher calls outside this file changes memory but neither `sepc` nor `sstatus`; only
`vm_handle_page_fault` may ask for another `sepc`.
-/

namespace VisualCpu

/-- The registers of the frame that system calls read and write. -/
structure TrapFrame where
  (a0 a1 a2 a3 a4 a5 : KernelWord)
  a7 : KernelWord
deriving DecidableEq

structure TrapCsrs where
  (scause sepc stval sstatus : KernelWord)
deriving DecidableEq

/-- `exited` is the flag of the Linux runtimes, `words` the pages that user signals write. -/
structure KernelMemory (κ : Type) where
  traps : TrapMemory
  exited : ℕ → Bool
  words : ℕ → ℕ → BitVec 32
  rest : κ

structure TrapMachine (κ : Type) where
  csrs : TrapCsrs
  frame : Option TrapFrame
  memory : KernelMemory κ

/-- The answer of `vm_handle_page_fault`: an action may skip the instruction or move on. -/
inductive PageFaultAnswer
  | unhandled | mapped
  | movedTo (sepc : KernelWord)
deriving DecidableEq

/-- The functions that the dispatcher calls; `none` is a panic. The request of a Linux system
call is built from the frame and `epc` alone. -/
structure TrapCallees (κ : Type) where
  vmHandlePageFault (process space : Option ℕ) (cause epc tval : KernelWord) :
    KernelMemory κ → PageFaultAnswer × KernelMemory κ
  courseSyscallDispatch (syscalls : ℕ) (number a0 a1 a2 a3 : KernelWord) :
    KernelMemory κ → KernelWord × KernelMemory κ
  linuxCompatSyscallDispatch (runtime : ℕ) (frame : TrapFrame) (epc : KernelWord) :
    KernelMemory κ → KernelWord × KernelMemory κ
  recordUserFault (runtime : ℕ) (cause epc tval : KernelWord) : KernelMemory κ → KernelMemory κ
  crashHandler (f : ℕ) (cause epc tval : KernelWord) (context : Option ℕ) :
    KernelMemory κ → Option (Bool × KernelMemory κ)
  ecallValidate (f : ℕ) (epc tval : KernelWord) (context : Option ℕ) :
    KernelMemory κ → Option (Bool × KernelMemory κ)
  runtimeValidate (f runtime : ℕ) (epc tval : KernelWord) (context : Option ℕ) :
    KernelMemory κ → Option (Bool × KernelMemory κ)
  exceptionHandler (f : ℕ) (cause epc tval : KernelWord) (context : Option ℕ) :
    KernelMemory κ → Option (KernelMemory κ)
  interruptHandler (f : ℕ) (cause : KernelWord) (context : Option ℕ) :
    KernelMemory κ → Option (KernelMemory κ)
  externalPostHandler (f : ℕ) (cause : KernelWord) (source : BitVec 32) (context : Option ℕ) :
    KernelMemory κ → Option (KernelMemory κ)
  timerHandleInterrupt : KernelMemory κ → KernelMemory κ
  plicSupervisorClaim : KernelMemory κ → BitVec 32 × KernelMemory κ
  plicSupervisorComplete (source : BitVec 32) : KernelMemory κ → KernelMemory κ

def RISCV_INTERRUPT_BIT : KernelWord := 1 <<< 63
def RISCV_SSTATUS_SPIE : KernelWord := 1 <<< 5
def RISCV_SSTATUS_SPP : KernelWord := 1 <<< 8

def signalWordCount : ℕ := 1024

namespace TrapCsrs

def spp (csrs : TrapCsrs) : Bool := csrs.sstatus &&& RISCV_SSTATUS_SPP != 0

def spie (csrs : TrapCsrs) : Bool := csrs.sstatus &&& RISCV_SSTATUS_SPIE != 0

def fromUMode (csrs : TrapCsrs) : Bool := !csrs.spp && csrs.spie

/-- The next return goes to `pc` in supervisor mode. -/
def resumeSupervisor (csrs : TrapCsrs) (pc : KernelWord) : TrapCsrs :=
  { csrs with sstatus := csrs.sstatus ||| RISCV_SSTATUS_SPP, sepc := pc }

/-- The next return goes to `pc` in user mode. -/
def resumeUser (csrs : TrapCsrs) (pc : KernelWord) : TrapCsrs :=
  { csrs with sstatus := csrs.sstatus &&& ~~~RISCV_SSTATUS_SPP, sepc := pc }

variable (csrs : TrapCsrs) (pc : KernelWord)

@[simp] theorem spp_resumeSupervisor : (csrs.resumeSupervisor pc).spp := by
  have hbit : ∀ status : KernelWord,
      (status ||| RISCV_SSTATUS_SPP) &&& RISCV_SSTATUS_SPP = RISCV_SSTATUS_SPP := by
    intro status
    ext i
    simp only [BitVec.getElem_and, BitVec.getElem_or]
    cases RISCV_SSTATUS_SPP[i] <;> simp
  simp only [spp, resumeSupervisor, hbit]
  decide

@[simp] theorem spp_resumeUser : (csrs.resumeUser pc).spp = false := by
  have hbit : ∀ status : KernelWord,
      (status &&& ~~~RISCV_SSTATUS_SPP) &&& RISCV_SSTATUS_SPP = 0 := by
    intro status
    ext i
    cases RISCV_SSTATUS_SPP[i] <;> simp
  simp [spp, resumeUser, hbit]

@[simp] theorem sepc_resumeSupervisor : (csrs.resumeSupervisor pc).sepc = pc := rfl

end TrapCsrs

namespace KernelMemory

variable {κ : Type}

variable (memory : KernelMemory κ)

def context (c : ℕ) : TrapContext := memory.traps.contexts c

def runtime (r : ℕ) : TrapUserRuntime := memory.traps.runtimes r

def linuxExitPc (c runtime : ℕ) : Option KernelWord :=
  if memory.exited runtime then
    match (memory.context c).userEcallPolicy.userRuntime with
    | none => none
    | some user =>
      if (memory.runtime user).resumePc = 0 then none else some (memory.runtime user).resumePc
  else none

/-- `user_runtime_signal_delivery_ready` -/
def signalDeliveryReady (c user : ℕ) : Bool :=
  let traps := memory.traps
  (memory.runtime user).isValid && traps.activeUserRuntime == some user &&
    (memory.runtime user).trapContext == some c && traps.activeTrapContext == some c &&
    traps.activeProcess == (memory.runtime user).process &&
    match (memory.runtime user).process with
    | none => false
    | some process =>
      match (traps.processes process).addressSpace with
      | none => false
      | some space => traps.activeAddressSpace == some space && (traps.spaces space).enabled

/-- A signal writes its word once; `none` when it is armed and cannot be delivered. -/
def deliver (ready : Bool) (signal : TrapUserSignal) :
    Option (KernelMemory κ × TrapUserSignal) :=
  if signal.armed then
    match signal.page with
    | none => none
    | some page =>
      if ready && decide (signal.wordIndex < signalWordCount) then
        some ({ memory with
          words := Function.update memory.words page
            (Function.update (memory.words page) signal.wordIndex signal.value) },
          { signal with armed := false, delivered := true })
      else none
  else some (memory, signal)

def handleUserTimerSignal (c : ℕ) : Option (KernelMemory κ) :=
  match (memory.context c).supervisorTimerPolicy.userRuntime with
  | none => some memory
  | some user =>
    (memory.deliver (memory.signalDeliveryReady c user) (memory.runtime user).timerSignal).map
      fun (memory, signal) =>
        { memory with
          traps := memory.traps.updateRuntime user fun r => { r with timerSignal := signal } }

def handleUserExternalSignal (c : ℕ) : Option (KernelMemory κ) :=
  match (memory.context c).supervisorExternalPolicy.userRuntime with
  | none => some memory
  | some user =>
    (memory.deliver (memory.signalDeliveryReady c user) (memory.runtime user).externalSignal).map
      fun (memory, signal) =>
        { memory with
          traps := memory.traps.updateRuntime user fun r => { r with externalSignal := signal } }

end KernelMemory

section Handlers

variable {κ : Type} (k : TrapCallees κ)

def defaultSupervisorTimerHandler (cause : KernelWord) (context : Option ℕ)
    (memory : KernelMemory κ) : Option (KernelMemory κ) := do
  let c ← context
  if cause ≠ 5 then none
  else
    let memory ← (k.timerHandleInterrupt memory).handleUserTimerSignal c
    match (memory.context c).supervisorTimerPolicy.postHandler with
    | none => some memory
    | some f =>
      k.interruptHandler f cause (memory.context c).supervisorTimerPolicy.postContext memory

def defaultSupervisorExternalHandler (cause : KernelWord) (context : Option ℕ)
    (memory : KernelMemory κ) : Option (KernelMemory κ) := do
  let claimed := k.plicSupervisorClaim memory
  let c ← context
  if cause ≠ 9 ∨ claimed.1 = 0 then none
  else
    let memory ← claimed.2.handleUserExternalSignal c
    let memory ←
      match (memory.context c).supervisorExternalPolicy.postHandler with
      | none => some memory
      | some f =>
        k.externalPostHandler f cause claimed.1
          (memory.context c).supervisorExternalPolicy.postContext memory
    some (k.plicSupervisorComplete claimed.1 memory)

def dispatchInstalledInterrupt (c : ℕ) (cause : KernelWord) (m : TrapMachine κ) :
    Option (TrapMachine κ) :=
  if h : cause.toNat < 16 then
    let entry := (m.memory.context c).interruptHandlers ⟨cause.toNat, h⟩
    match entry.handler with
    | none => none
    | some .defaultSupervisorTimer =>
      (defaultSupervisorTimerHandler k cause entry.context m.memory).map fun memory =>
        { m with memory := memory }
    | some .defaultSupervisorExternal =>
      (defaultSupervisorExternalHandler k cause entry.context m.memory).map fun memory =>
        { m with memory := memory }
    | some (.installed f) =>
      (k.interruptHandler f cause entry.context m.memory).map fun memory =>
        { m with memory := memory }
  else none

variable (c : ℕ) (cause epc tval : KernelWord)

variable (m : TrapMachine κ)

/-- A user `ecall` that a system call policy may serve. -/
def userSyscallPolicyValid : Bool :=
  m.frame.isSome && cause == 8 && tval == 0 && m.csrs.fromUMode

def isPageFaultCause : Bool := cause == 12 || cause == 13 || cause == 15

def handlePageFault : Option (Bool × TrapMachine κ) :=
  if isPageFaultCause cause then
    match k.vmHandlePageFault m.memory.traps.activeProcess m.memory.traps.activeAddressSpace cause
        epc tval m.memory with
    | (.unhandled, memory) => some (false, { m with memory := memory })
    | (.mapped, memory) => some (true, { m with memory := memory })
    | (.movedTo pc, memory) =>
      some (true, { m with memory := memory, csrs := { m.csrs with sepc := pc } })
  else some (false, m)

def handleUserSyscallPolicy : Option (Bool × TrapMachine κ) :=
  match (m.memory.context c).userEcallPolicy.syscalls with
  | none => some (false, m)
  | some syscalls =>
    match m.frame with
    | none => none
    | some frame =>
      if userSyscallPolicyValid cause tval m then
        let answer := k.courseSyscallDispatch syscalls (frame.a7 &&& 0xffffffff) frame.a0 frame.a1
          frame.a2 frame.a3 m.memory
        some (true,
          { csrs := m.csrs.resumeSupervisor (epc + 4)
            frame := some { frame with a0 := answer.1 }
            memory := answer.2 })
      else none

def handleLinuxCompatSyscallPolicy : Option (Bool × TrapMachine κ) :=
  match (m.memory.context c).userEcallPolicy.linuxRuntime with
  | none => some (false, m)
  | some runtime =>
    match m.frame with
    | none => none
    | some frame =>
      if userSyscallPolicyValid cause tval m then
        let answer := k.linuxCompatSyscallDispatch runtime frame epc m.memory
        some (true,
          { csrs :=
              match answer.2.linuxExitPc c runtime with
              | some pc => m.csrs.resumeSupervisor pc
              | none => m.csrs.resumeUser (epc + 4)
            frame := some { frame with a0 := answer.1 }
            memory := answer.2 })
      else none

def handleLinuxCompatUserFaultPolicy : Option (Bool × TrapMachine κ) :=
  match (m.memory.context c).userEcallPolicy.linuxRuntime,
      (m.memory.context c).userEcallPolicy.userRuntime with
  | some runtime, some user =>
    if m.csrs.fromUMode = false ∨ (m.memory.runtime user).resumePc = 0 then some (false, m)
    else
      let memory := k.recordUserFault runtime cause epc tval m.memory
      some (true,
        { m with
          csrs := m.csrs.resumeSupervisor (memory.runtime user).resumePc
          memory := memory })
  | _, _ => some (false, m)

def handleUserCrashPolicy : Option (Bool × TrapMachine κ) :=
  match (m.memory.context c).userCrashPolicy.handler with
  | none => some (false, m)
  | some f =>
    if m.csrs.fromUMode then
      match k.crashHandler f cause epc tval (m.memory.context c).userCrashPolicy.context
          m.memory with
      | none => none
      | some (false, memory) => some (false, { m with memory := memory })
      | some (true, memory) =>
        some (true, { m with csrs := m.csrs.resumeSupervisor (epc + 4), memory := memory })
    else some (false, m)

/-- The resume pc of `default_user_ecall_resume_handler`, or a panic. -/
def ecallResume (csrs : TrapCsrs) (context : Option ℕ) (memory : KernelMemory κ) :
    Option (KernelWord × KernelMemory κ) :=
  match context with
  | none => none
  | some c =>
    if cause = 8 ∧ tval = 0 ∧ csrs.fromUMode then
      match (memory.context c).userEcallPolicy.userRuntime with
      | some user =>
        let r := memory.runtime user
        if r.isValid = true ∧ memory.traps.activeUserRuntime = some user ∧
            r.trapContext = some c ∧ r.expectedEcallPc ≠ 0 ∧ epc = r.expectedEcallPc ∧
            r.resumePc ≠ 0 then
          match r.validate with
          | none => some (r.resumePc, memory)
          | some f =>
            match k.runtimeValidate f user epc tval r.validateContext memory with
            | some (true, memory) => some ((memory.runtime user).resumePc, memory)
            | _ => none
        else none
      | none =>
        let policy := (memory.context c).userEcallPolicy
        if policy.resumePc = 0 then none
        else
          match policy.validate with
          | none => some (policy.resumePc, memory)
          | some f =>
            match k.ecallValidate f epc tval policy.validateContext memory with
            | some (true, memory) => some ((memory.context c).userEcallPolicy.resumePc, memory)
            | _ => none
    else none

def dispatchInstalledException : Option (Bool × TrapMachine κ) :=
  if h : cause.toNat < 16 then
    let entry := (m.memory.context c).exceptionHandlers ⟨cause.toNat, h⟩
    match entry.handler with
    | none => none
    | some (.installed f) =>
      (k.exceptionHandler f cause epc tval entry.context m.memory).map fun memory =>
        (true, { m with memory := memory })
    | some .defaultUserEcallResume =>
      (ecallResume k cause epc tval m.csrs entry.context m.memory).map fun (pc, memory) =>
        (true, { m with csrs := m.csrs.resumeSupervisor pc, memory := memory })
  else none

/-- The handlers in the order in which an exception is offered to them. -/
inductive ExceptionStage
  | pageFault | courseSyscall | linuxSyscall | linuxFault | userCrash | installed
deriving DecidableEq

def ExceptionStage.order : List ExceptionStage :=
  [.pageFault, .courseSyscall, .linuxSyscall, .linuxFault, .userCrash, .installed]

def ExceptionStage.attempt :
    ExceptionStage → Option (Bool × TrapMachine κ)
  | .pageFault => handlePageFault k cause epc tval m
  | .courseSyscall =>
    if cause = 8 ∧ (m.memory.context c).userEcallPolicy.syscalls ≠ none then
      handleUserSyscallPolicy k c cause epc tval m
    else some (false, m)
  | .linuxSyscall =>
    if cause = 8 ∧ (m.memory.context c).userEcallPolicy.syscalls = none ∧
        (m.memory.context c).userEcallPolicy.linuxRuntime ≠ none then
      handleLinuxCompatSyscallPolicy k c cause epc tval m
    else some (false, m)
  | .linuxFault => handleLinuxCompatUserFaultPolicy k c cause epc tval m
  | .userCrash => handleUserCrashPolicy k c cause epc tval m
  | .installed => dispatchInstalledException k c cause epc tval m

/-- The stage that takes the exception, the machine then, and the machine after it. -/
def takenBy (m : TrapMachine κ) :
    List ExceptionStage → Option (ExceptionStage × TrapMachine κ × TrapMachine κ)
  | [] => none
  | stage :: stages =>
    match stage.attempt k c cause epc tval m with
    | none => none
    | some (true, m') => some (stage, m, m')
    | some (false, m') => takenBy m' stages

/-- `supervisor_trap_dispatch_with_frame`; `none` is a panic. -/
def supervisorTrapDispatchWithFrame : Option (TrapMachine κ) :=
  match m.memory.traps.activeTrapContext with
  | none => none
  | some c =>
    let cause := m.csrs.scause &&& ~~~RISCV_INTERRUPT_BIT
    if m.csrs.scause &&& RISCV_INTERRUPT_BIT = 0 then
      (takenBy k c cause m.csrs.sepc m.csrs.stval m ExceptionStage.order).map fun taken =>
        taken.2.2
    else dispatchInstalledInterrupt k c cause m

end Handlers

end VisualCpu
