import Mathlib.Tactic.Common
import VisualCpu.Library.IndexTypes

/-!
# Trap contexts and user runtimes

Contexts, runtimes and processes are static objects, so a pointer to one is its number and
`none` is `NULL`. Functions of the kernel that are installed as callbacks are numbered too.
-/

namespace VisualCpu

/-- A register or an address of the guest. -/
abbrev KernelWord := BitVec 64

inductive InterruptHandler
  | defaultSupervisorTimer | defaultSupervisorExternal
  | installed (f : ℕ)
deriving DecidableEq

inductive ExceptionHandler
  | defaultUserEcallResume
  | installed (f : ℕ)
deriving DecidableEq

/-- The context of a default handler is a trap context. -/
structure HandlerEntry (α : Type) where
  handler : Option α
  context : Option ℕ
deriving DecidableEq

/-- The policy of the timer and of external interrupts. -/
structure SupervisorPolicy where
  (userRuntime postHandler postContext : Option ℕ)
deriving DecidableEq

structure UserEcallPolicy where
  (userRuntime syscalls linuxRuntime validate validateContext : Option ℕ)
  resumePc : KernelWord
deriving DecidableEq

structure UserCrashPolicy where
  (handler context : Option ℕ)
deriving DecidableEq

structure TrapContext where
  interruptHandlers : Fin 16 → HandlerEntry InterruptHandler
  exceptionHandlers : Fin 16 → HandlerEntry ExceptionHandler
  (supervisorTimerPolicy supervisorExternalPolicy : SupervisorPolicy)
  userEcallPolicy : UserEcallPolicy
  userCrashPolicy : UserCrashPolicy

structure TrapUserSignal where
  page : Option ℕ
  wordIndex : ℕ
  value : BitVec 32
  (armed delivered : Bool)
deriving DecidableEq

structure TrapUserArchState where
  (savedSupervisorSp savedSupervisorRa supervisorTrapStackTop supervisorTrapStackSize : KernelWord)
deriving DecidableEq

structure TrapUserRuntime where
  archState : TrapUserArchState
  (trapContext process : Option ℕ)
  (arg0 expectedEcallPc resumePc : KernelWord)
  (validate validateContext : Option ℕ)
  (timerSignal externalSignal : TrapUserSignal)
deriving DecidableEq

/-- `userRegions` says whether a region of the process contains a byte with the flags. -/
structure VmProcess where
  addressSpace : Option ℕ
  (entryPc userSp : KernelWord)
  userRegions : KernelWord → KernelWord → Bool

structure VmAddressSpace where
  allocated : Bool
  (rootTable satpValue : KernelWord)
  enabled : Bool
deriving DecidableEq

/-- The objects of the trap subsystem and the active ones. -/
structure TrapMemory where
  contexts : ℕ → TrapContext
  runtimes : ℕ → TrapUserRuntime
  processes : ℕ → VmProcess
  spaces : ℕ → VmAddressSpace
  (activeUserRuntime activeTrapContext activeProcess activeAddressSpace : Option ℕ)

def emptySupervisorPolicy : SupervisorPolicy :=
  { userRuntime := none, postHandler := none, postContext := none }

def emptyUserEcallPolicy : UserEcallPolicy :=
  { userRuntime := none, syscalls := none, linuxRuntime := none, validate := none
    validateContext := none, resumePc := 0 }

def clearedUserSignal : TrapUserSignal :=
  { page := none, wordIndex := 0, value := 0, armed := false, delivered := false }

def clearedArchState : TrapUserArchState :=
  { savedSupervisorSp := 0, savedSupervisorRa := 0, supervisorTrapStackTop := 0
    supervisorTrapStackSize := 0 }

def RISCV_SUPERVISOR_TIMER_INTERRUPT : Fin 16 := 5
def RISCV_SUPERVISOR_EXTERNAL_INTERRUPT : Fin 16 := 9
def RISCV_EXC_ECALL_FROM_U : Fin 16 := 8
def TRAP_USER_RUNTIME_MIN_STACK_SIZE : KernelWord := 256
def TRAP_USER_RUNTIME_STACK_ALIGNMENT : KernelWord := 16
def VM_PAGE_WRITE : KernelWord := 4
def VM_PAGE_EXEC : KernelWord := 8
def VM_PAGE_USER : KernelWord := 16

/-- The end of the user window. -/
def MEM_BASE : KernelWord := 0x80000000

namespace TrapUserRuntime

variable (runtime : TrapUserRuntime)

/-- A runtime bound to a context and a process. -/
def isValid : Bool :=
  runtime.trapContext.isSome && runtime.process.isSome

def stackValid : Bool :=
  let top := runtime.archState.supervisorTrapStackTop
  let size := runtime.archState.supervisorTrapStackSize
  let base := if size ≤ top then top - size else 0
  top != 0 && decide (TRAP_USER_RUNTIME_MIN_STACK_SIZE ≤ size) &&
    (base &&& (TRAP_USER_RUNTIME_STACK_ALIGNMENT - 1)) == 0 &&
    (size &&& (TRAP_USER_RUNTIME_STACK_ALIGNMENT - 1)) == 0 &&
    (top &&& (TRAP_USER_RUNTIME_STACK_ALIGNMENT - 1)) == 0

/-- What `prepare` has written is cleared. -/
def reset : TrapUserRuntime :=
  { runtime with
    archState := clearedArchState
    expectedEcallPc := 0
    resumePc := 0
    validate := none
    validateContext := none
    timerSignal := clearedUserSignal
    externalSignal := clearedUserSignal }

end TrapUserRuntime

/-- The policies no longer refer to a runtime. -/
def TrapContext.clearRuntimePolicyRefs (context : TrapContext) (runtime : ℕ) : TrapContext :=
  { context with
    supervisorTimerPolicy :=
      if context.supervisorTimerPolicy.userRuntime = some runtime then
        { context.supervisorTimerPolicy with userRuntime := none }
      else context.supervisorTimerPolicy
    supervisorExternalPolicy :=
      if context.supervisorExternalPolicy.userRuntime = some runtime then
        { context.supervisorExternalPolicy with userRuntime := none }
      else context.supervisorExternalPolicy
    userEcallPolicy :=
      if context.userEcallPolicy.userRuntime = some runtime then
        { context.userEcallPolicy with
          userRuntime := none
          linuxRuntime := none
          validate := none
          validateContext := none
          resumePc := 0 }
      else context.userEcallPolicy }

/-- `trap_context_init` of one context. -/
def TrapContext.cleared : TrapContext where
  interruptHandlers := fun _ => { handler := none, context := none }
  exceptionHandlers := fun _ => { handler := none, context := none }
  supervisorTimerPolicy := emptySupervisorPolicy
  supervisorExternalPolicy := emptySupervisorPolicy
  userEcallPolicy := emptyUserEcallPolicy
  userCrashPolicy := { handler := none, context := none }

/-- `process_context_valid`: the entry is executable and the stack writable user memory. -/
def processContextValid (process : VmProcess) (spaces : ℕ → VmAddressSpace)
    (entryPc userSp : KernelWord) : Bool :=
  match process.addressSpace with
  | none => false
  | some space =>
    (spaces space).allocated && (spaces space).rootTable != 0 && decide (entryPc < MEM_BASE) &&
      decide (0 < userSp) && decide (userSp ≤ MEM_BASE) &&
      process.userRegions entryPc (VM_PAGE_EXEC ||| VM_PAGE_USER) &&
      process.userRegions (userSp - 1) (VM_PAGE_WRITE ||| VM_PAGE_USER)

def userRuntimeStackArgsValid (trapStackBase trapStackSize : KernelWord) : Bool :=
  trapStackBase != 0 && decide (TRAP_USER_RUNTIME_MIN_STACK_SIZE ≤ trapStackSize) &&
    (trapStackBase &&& (TRAP_USER_RUNTIME_STACK_ALIGNMENT - 1)) == 0 &&
    (trapStackSize &&& (TRAP_USER_RUNTIME_STACK_ALIGNMENT - 1)) == 0 &&
    decide (trapStackBase ≤ BitVec.allOnes 64 - trapStackSize)

def TrapUserRuntime.zeroed : TrapUserRuntime where
  archState := clearedArchState
  trapContext := none
  process := none
  arg0 := 0
  expectedEcallPc := 0
  resumePc := 0
  validate := none
  validateContext := none
  timerSignal := clearedUserSignal
  externalSignal := clearedUserSignal

namespace TrapMemory

def init (processes : ℕ → VmProcess) (spaces : ℕ → VmAddressSpace) : TrapMemory where
  contexts := fun _ => TrapContext.cleared
  runtimes := fun _ => TrapUserRuntime.zeroed
  processes := processes
  spaces := spaces
  activeUserRuntime := none
  activeTrapContext := none
  activeProcess := none
  activeAddressSpace := none

variable (m : TrapMemory)

def updateContext (context : ℕ) (f : TrapContext → TrapContext) : TrapMemory :=
  { m with contexts := Function.update m.contexts context (f (m.contexts context)) }

def updateRuntime (runtime : ℕ) (f : TrapUserRuntime → TrapUserRuntime) :
    TrapMemory :=
  { m with runtimes := Function.update m.runtimes runtime (f (m.runtimes runtime)) }

def updateProcess (process : ℕ) (f : VmProcess → VmProcess) : TrapMemory :=
  { m with processes := Function.update m.processes process (f (m.processes process)) }

def dropActive (runtime : ℕ) : TrapMemory :=
  { m with
    activeUserRuntime :=
      if m.activeUserRuntime = some runtime then none else m.activeUserRuntime }

def resetPreparedRuntimeState (runtime : ℕ) : TrapMemory :=
  (m.dropActive runtime).updateRuntime runtime TrapUserRuntime.reset

variable (context : Option ℕ)

def clearRuntimePolicyRefs (runtime : ℕ) : TrapMemory :=
  match context with
  | none => m
  | some context => m.updateContext context fun c => c.clearRuntimePolicyRefs runtime

def detachRuntimeFromContextBinding (runtime context : Option ℕ) : TrapMemory :=
  match runtime, context with
  | some runtime, some context =>
    let m := m.clearRuntimePolicyRefs (some context) runtime
    if (m.runtimes runtime).trapContext = some context then
      (m.resetPreparedRuntimeState runtime).updateRuntime runtime fun r =>
        { r with trapContext := none }
    else m
  | _, _ => m

def trapContextInit : TrapMemory :=
  match context with
  | none => m
  | some context => m.updateContext context fun _ => TrapContext.cleared

def trapUserRuntimeInit (runtime : Option ℕ) : TrapMemory :=
  match runtime with
  | none => m
  | some runtime =>
    let context := (m.runtimes runtime).trapContext
    let m := (m.dropActive runtime).clearRuntimePolicyRefs context runtime
    let m := m.updateRuntime runtime fun r =>
      { r with
        archState := clearedArchState
        trapContext := none
        process := none
        arg0 := 0 }
    m.resetPreparedRuntimeState runtime

def trapContextActivate : Bool × TrapMemory :=
  match context with
  | none => (false, m)
  | some context =>
    let stale := match m.activeUserRuntime with
      | none => false
      | some active => (m.runtimes active).trapContext ≠ some context
    (true,
      { m with
        activeUserRuntime := if stale then none else m.activeUserRuntime
        activeTrapContext := some context })

def trapUserRuntimeBind (runtime context process : Option ℕ)
    (arg0 : KernelWord) : Bool × TrapMemory :=
  match runtime, context, process with
  | some runtime, some context, some process =>
    if (m.processes process).addressSpace = none then (false, m)
    else
      let m := m.detachRuntimeFromContextBinding (some runtime) (m.runtimes runtime).trapContext
      let m := m.detachRuntimeFromContextBinding
        (m.contexts context).supervisorTimerPolicy.userRuntime (some context)
      let m := m.detachRuntimeFromContextBinding
        (m.contexts context).supervisorExternalPolicy.userRuntime (some context)
      let m := m.detachRuntimeFromContextBinding
        (m.contexts context).userEcallPolicy.userRuntime (some context)
      let m := m.updateRuntime runtime fun r =>
        { r with trapContext := some context, process := some process, arg0 := arg0 }
      (true, m.resetPreparedRuntimeState runtime)
  | _, _, _ => (false, m)

def trapUserRuntimeConfigureSupervisorTrapStack (runtime : ℕ)
    (trapStackBase trapStackSize : KernelWord) : Bool × TrapMemory :=
  if (m.runtimes runtime).isValid && userRuntimeStackArgsValid trapStackBase trapStackSize then
    (true, m.updateRuntime runtime fun r =>
      { r with
        archState :=
          { savedSupervisorSp := 0
            savedSupervisorRa := 0
            supervisorTrapStackTop := trapStackBase + trapStackSize
            supervisorTrapStackSize := trapStackSize } })
  else (false, m)

/-- `archResume` is the address of `trap_user_runtime_arch_resume`. -/
def trapUserRuntimeConfigureEcallResume (archResume : KernelWord) (m : TrapMemory) (runtime : ℕ)
    (expectedEcallPc : KernelWord) (validate validateContext : Option ℕ) : Bool × TrapMemory :=
  if (m.runtimes runtime).isValid && expectedEcallPc != 0 then
    (true, m.updateRuntime runtime fun r =>
      { r with
        expectedEcallPc := expectedEcallPc
        resumePc := archResume
        validate := validate
        validateContext := validateContext })
  else (false, m)

def trapContextInstallInterruptHandler (cause : ℕ)
    (handler : Option InterruptHandler) (handlerContext : Option ℕ) : Bool × TrapMemory :=
  match context, handler with
  | some context, some handler =>
    if h : cause < 16 then
      (true, m.updateContext context fun c =>
        { c with
          interruptHandlers := Function.update c.interruptHandlers ⟨cause, h⟩
            { handler := some handler, context := handlerContext } })
    else (false, m)
  | _, _ => (false, m)

def trapContextInstallExceptionHandler (cause : ℕ)
    (handler : Option ExceptionHandler) (handlerContext : Option ℕ) : Bool × TrapMemory :=
  match context, handler with
  | some context, some handler =>
    if h : cause < 16 then
      (true, m.updateContext context fun c =>
        { c with
          exceptionHandlers := Function.update c.exceptionHandlers ⟨cause, h⟩
            { handler := some handler, context := handlerContext } })
    else (false, m)
  | _, _ => (false, m)

def boundTo (runtime context : ℕ) : Bool :=
  (m.runtimes runtime).isValid && (m.runtimes runtime).trapContext == some context

def trapContextBindSupervisorTimerUserRuntime (context runtime : Option ℕ) :
    Bool × TrapMemory :=
  match context, runtime with
  | some context, some runtime =>
    if m.boundTo runtime context then
      (true, m.updateContext context fun c =>
        { c with
          supervisorTimerPolicy := { c.supervisorTimerPolicy with userRuntime := some runtime } })
    else (false, m)
  | _, _ => (false, m)

def trapContextBindSupervisorExternalUserRuntime (context runtime : Option ℕ) :
    Bool × TrapMemory :=
  match context, runtime with
  | some context, some runtime =>
    if m.boundTo runtime context then
      (true, m.updateContext context fun c =>
        { c with
          supervisorExternalPolicy :=
            { c.supervisorExternalPolicy with userRuntime := some runtime } })
    else (false, m)
  | _, _ => (false, m)

def trapContextInstallSupervisorTimerPolicy
    (postHandler postContext : Option ℕ) : Bool × TrapMemory :=
  match context with
  | none => (false, m)
  | some context =>
    let m := m.updateContext context fun c =>
      { c with
        supervisorTimerPolicy :=
          { c.supervisorTimerPolicy with postHandler := postHandler, postContext := postContext } }
    m.trapContextInstallInterruptHandler (some context) RISCV_SUPERVISOR_TIMER_INTERRUPT
      (some .defaultSupervisorTimer) (some context)

def trapContextInstallSupervisorExternalPolicy
    (postHandler postContext : Option ℕ) : Bool × TrapMemory :=
  match context with
  | none => (false, m)
  | some context =>
    let m := m.updateContext context fun c =>
      { c with
        supervisorExternalPolicy :=
          { c.supervisorExternalPolicy with
            postHandler := postHandler
            postContext := postContext } }
    m.trapContextInstallInterruptHandler (some context) RISCV_SUPERVISOR_EXTERNAL_INTERRUPT
      (some .defaultSupervisorExternal) (some context)

def trapContextInstallUserRuntimeResumePolicy (context runtime : Option ℕ) :
    Bool × TrapMemory :=
  match context, runtime with
  | some context, some runtime =>
    if m.boundTo runtime context && (m.runtimes runtime).resumePc != 0 &&
        (m.runtimes runtime).expectedEcallPc != 0 then
      let m := m.updateContext context fun c =>
        { c with userEcallPolicy := { emptyUserEcallPolicy with userRuntime := some runtime } }
      m.trapContextInstallExceptionHandler (some context) RISCV_EXC_ECALL_FROM_U
        (some .defaultUserEcallResume) (some context)
    else (false, m)
  | _, _ => (false, m)

def trapContextInstallUserEcallResumePolicy
    (resumePc : KernelWord) (validate validateContext : Option ℕ) : Bool × TrapMemory :=
  match context with
  | none => (false, m)
  | some context =>
    if resumePc = 0 then (false, m)
    else
      let m := m.updateContext context fun c =>
        { c with
          userEcallPolicy :=
            { emptyUserEcallPolicy with
              validate := validate
              validateContext := validateContext
              resumePc := resumePc } }
      m.trapContextInstallExceptionHandler (some context) RISCV_EXC_ECALL_FROM_U
        (some .defaultUserEcallResume) (some context)

def trapContextInstallUserSyscallPolicy (context syscalls : Option ℕ) :
    Bool × TrapMemory :=
  match context, syscalls with
  | some context, some syscalls =>
    (true, m.updateContext context fun c =>
      { c with userEcallPolicy := { emptyUserEcallPolicy with syscalls := some syscalls } })
  | _, _ => (false, m)

def trapContextInstallLinuxCompatSyscallPolicy
    (context userRuntime runtime : Option ℕ) : Bool × TrapMemory :=
  match context, runtime with
  | some context, some runtime =>
    let accepted := match userRuntime with
      | none => true
      | some user => m.boundTo user context && (m.runtimes user).resumePc != 0
    if accepted then
      (true, m.updateContext context fun c =>
        { c with
          userEcallPolicy :=
            { emptyUserEcallPolicy with
              userRuntime := userRuntime
              linuxRuntime := some runtime } })
    else (false, m)
  | _, _ => (false, m)

def trapContextInstallUserCrashPolicy (context handler handlerContext : Option ℕ) :
    Bool × TrapMemory :=
  match context, handler with
  | some context, some handler =>
    (true, m.updateContext context fun c =>
      { c with userCrashPolicy := { handler := some handler, context := handlerContext } })
  | _, _ => (false, m)

def inheritPostHandler (policy : SupervisorPolicy) (postHandler postContext : Option ℕ) :
    Option ℕ × Option ℕ :=
  match postHandler with
  | none => (policy.postHandler, policy.postContext)
  | some handler => (some handler, postContext)

def trapContextInstallStandardUserRuntimePolicies (context runtime : Option ℕ)
    (timerPost timerContext externalPost externalContext : Option ℕ) : Bool × TrapMemory :=
  match context with
  | none => (false, m)
  | some c =>
    let timer := inheritPostHandler (m.contexts c).supervisorTimerPolicy timerPost timerContext
    let external :=
      inheritPostHandler (m.contexts c).supervisorExternalPolicy externalPost externalContext
    let m := (m.trapContextInstallSupervisorTimerPolicy context timer.1 timer.2).2
    let m := (m.trapContextInstallSupervisorExternalPolicy context external.1 external.2).2
    match runtime with
    | none => (true, m)
    | some _ =>
      match m.trapContextBindSupervisorTimerUserRuntime context runtime with
      | (false, m) => (false, m)
      | (true, m) =>
        match m.trapContextBindSupervisorExternalUserRuntime context runtime with
        | (false, m) => (false, m)
        | (true, m) => m.trapContextInstallUserRuntimeResumePolicy context runtime

end TrapMemory

end VisualCpu
