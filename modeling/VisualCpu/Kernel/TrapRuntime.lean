import VisualCpu.Kernel.TrapContext

/-!
# Preparing and activating user runtimes

`prepare` and `prepare_standard` take a snapshot of everything they may change, with room for
four runtimes, and restore it when a step fails.
-/

namespace VisualCpu

/-- The policies of a context that bind a runtime. -/
structure ContextBinding where
  (supervisorTimerPolicy supervisorExternalPolicy : SupervisorPolicy)
  userEcallPolicy : UserEcallPolicy
deriving DecidableEq

/-- The handlers that the standard policies install. -/
structure StandardHandlers where
  (supervisorTimerHandler supervisorExternalHandler : HandlerEntry InterruptHandler)
  userEcallHandler : HandlerEntry ExceptionHandler
deriving DecidableEq

/-- `previous` is there only when it is another context than the target. -/
structure BindRollback where
  target : ℕ × ContextBinding
  previous : Option (ℕ × ContextBinding)
  activeRuntime : Option ℕ
  entries : List (ℕ × TrapUserRuntime)

structure StandardRollback where
  bind : BindRollback
  handlers : StandardHandlers

namespace TrapContext

variable (context : TrapContext)

def captureBinding : ContextBinding where
  supervisorTimerPolicy := context.supervisorTimerPolicy
  supervisorExternalPolicy := context.supervisorExternalPolicy
  userEcallPolicy := context.userEcallPolicy

def restoreBinding (binding : ContextBinding) : TrapContext :=
  { context with
    supervisorTimerPolicy := binding.supervisorTimerPolicy
    supervisorExternalPolicy := binding.supervisorExternalPolicy
    userEcallPolicy := binding.userEcallPolicy }

def captureHandlers : StandardHandlers where
  supervisorTimerHandler := context.interruptHandlers RISCV_SUPERVISOR_TIMER_INTERRUPT
  supervisorExternalHandler := context.interruptHandlers RISCV_SUPERVISOR_EXTERNAL_INTERRUPT
  userEcallHandler := context.exceptionHandlers RISCV_EXC_ECALL_FROM_U

def restoreHandlers (handlers : StandardHandlers) : TrapContext :=
  { context with
    interruptHandlers :=
      Function.update
        (Function.update context.interruptHandlers RISCV_SUPERVISOR_TIMER_INTERRUPT
          handlers.supervisorTimerHandler)
        RISCV_SUPERVISOR_EXTERNAL_INTERRUPT handlers.supervisorExternalHandler
    exceptionHandlers :=
      Function.update context.exceptionHandlers RISCV_EXC_ECALL_FROM_U handlers.userEcallHandler }

end TrapContext

/-- Room for the runtimes that a rollback restores. -/
def rollbackEntryCount : ℕ := 4

namespace BindRollback

/-- A runtime is recorded once, and only while there is room. -/
def captureRuntime (m : TrapMemory) (entries : List (ℕ × TrapUserRuntime)) (runtime : Option ℕ) :
    List (ℕ × TrapUserRuntime) :=
  match runtime with
  | none => entries
  | some runtime =>
    if runtime ∈ entries.map Prod.fst then entries
    else if rollbackEntryCount ≤ entries.length then entries
    else entries ++ [(runtime, m.runtimes runtime)]

/-- `prepare_runtime_bind_rollback` -/
def capture (m : TrapMemory) (runtime context : ℕ) : BindRollback where
  target := (context, (m.contexts context).captureBinding)
  previous :=
    match (m.runtimes runtime).trapContext with
    | none => none
    | some previous =>
      if previous = context then none
      else some (previous, (m.contexts previous).captureBinding)
  activeRuntime := m.activeUserRuntime
  entries :=
    captureRuntime m
      (captureRuntime m
        (captureRuntime m (captureRuntime m [] (some runtime))
          (m.contexts context).supervisorTimerPolicy.userRuntime)
        (m.contexts context).supervisorExternalPolicy.userRuntime)
      (m.contexts context).userEcallPolicy.userRuntime

def restoreRuntimes (m : TrapMemory) (entries : List (ℕ × TrapUserRuntime)) : TrapMemory :=
  entries.foldl (fun m entry => m.updateRuntime entry.1 fun _ => entry.2) m

/-- `rollback_prepared_bind_runtime` -/
def restore (rollback : BindRollback) (m : TrapMemory) : TrapMemory :=
  let m := restoreRuntimes m rollback.entries
  let m := match rollback.previous with
    | none => m
    | some previous => m.updateContext previous.1 fun c => c.restoreBinding previous.2
  let m := m.updateContext rollback.target.1 fun c => c.restoreBinding rollback.target.2
  { m with activeUserRuntime := rollback.activeRuntime }

end BindRollback

def StandardRollback.capture (m : TrapMemory) (runtime context : ℕ) : StandardRollback where
  bind := BindRollback.capture m runtime context
  handlers := (m.contexts context).captureHandlers

def StandardRollback.restore (rollback : StandardRollback) (m : TrapMemory) : TrapMemory :=
  (rollback.bind.restore m).updateContext rollback.bind.target.1 fun c =>
    c.restoreHandlers rollback.handlers

/-- The arguments of `prepare`. -/
structure PrepareArgs where
  (runtime context process : Option ℕ)
  (arg0 trapStackBase trapStackSize expectedEcallPc : KernelWord)
  (validate validateContext : Option ℕ)

/-- What `prepare_standard` takes in addition. -/
structure StandardArgs where
  prepare : PrepareArgs
  (entryPc userSp : KernelWord)
  (timerPost timerContext externalPost externalContext : Option ℕ)

namespace TrapMemory

/-- Steps that are tried in order up to the first that fails. -/
def allSteps (m : TrapMemory) : List (TrapMemory → Bool × TrapMemory) → Bool × TrapMemory
  | [] => (true, m)
  | step :: steps =>
    match step m with
    | (false, m) => (false, m)
    | (true, m) => m.allSteps steps

variable (m : TrapMemory)

/-- `user_runtime_prepare_args_valid`, with the pointers that it has found not to be `NULL`. -/
def prepareArgs? (args : PrepareArgs) : Option (ℕ × ℕ × ℕ) :=
  match args.runtime, args.context, args.process with
  | some runtime, some context, some process =>
    if (m.processes process).addressSpace.isSome &&
        userRuntimeStackArgsValid args.trapStackBase args.trapStackSize &&
        args.expectedEcallPc != 0 then
      some (runtime, context, process)
    else none
  | _, _, _ => none

variable (archResume : KernelWord)

def prepareSteps (args : PrepareArgs) (runtime : ℕ) :
    List (TrapMemory → Bool × TrapMemory) :=
  [fun m => m.trapUserRuntimeBind args.runtime args.context args.process args.arg0,
    fun m => m.trapUserRuntimeConfigureSupervisorTrapStack runtime args.trapStackBase
      args.trapStackSize,
    fun m => trapUserRuntimeConfigureEcallResume archResume m runtime args.expectedEcallPc
      args.validate args.validateContext]

def trapUserRuntimePrepare (m : TrapMemory) (args : PrepareArgs) :
    Bool × TrapMemory :=
  match m.prepareArgs? args with
  | none => (false, m)
  | some (runtime, context, _) =>
    let rollback := BindRollback.capture m runtime context
    match m.allSteps (prepareSteps archResume args runtime) with
    | (true, m) => (true, m)
    | (false, m) => (false, rollback.restore m)

def vmProcessSetUserContext (process : ℕ) (entryPc userSp : KernelWord) :
    Bool × TrapMemory :=
  if processContextValid (m.processes process) m.spaces entryPc userSp then
    (true, m.updateProcess process fun p => { p with entryPc := entryPc, userSp := userSp })
  else (false, m)

/-- Setting the process up comes first, and installing the policies last. -/
def standardSteps (args : StandardArgs) (runtime process : ℕ) :
    List (TrapMemory → Bool × TrapMemory) :=
  (fun m => m.vmProcessSetUserContext process args.entryPc args.userSp) ::
    prepareSteps archResume args.prepare runtime ++
    [fun m => m.trapContextInstallStandardUserRuntimePolicies args.prepare.context
      args.prepare.runtime args.timerPost args.timerContext args.externalPost
      args.externalContext]

def trapUserRuntimePrepareStandard (m : TrapMemory)
    (args : StandardArgs) : Bool × TrapMemory :=
  match m.prepareArgs? args.prepare with
  | none => (false, m)
  | some (runtime, context, process) =>
    let previous := m.processes process
    let rollback := StandardRollback.capture m runtime context
    match m.allSteps (standardSteps archResume args runtime process) with
    | (true, m) => (true, m)
    | (false, m) =>
      let m := m.updateProcess process fun p =>
        { p with entryPc := previous.entryPc, userSp := previous.userSp }
      (false, rollback.restore m)

/-- `vm_address_space_enable`; the writes of `satp` and of the TLB are left out. -/
def vmAddressSpaceEnable (space : Option ℕ) : Bool × TrapMemory :=
  match space with
  | none => (false, m)
  | some space =>
    if (m.spaces space).rootTable = 0 ∨ (m.spaces space).satpValue = 0 then (false, m)
    else
      let spaces := match m.activeAddressSpace with
        | none => m.spaces
        | some active =>
          Function.update m.spaces active { m.spaces active with enabled := false }
      let staleProcess := match m.activeProcess with
        | none => false
        | some process => (m.processes process).addressSpace ≠ some space
      (true,
        { m with
          spaces := Function.update spaces space { spaces space with enabled := true }
          activeAddressSpace := some space
          activeProcess := if staleProcess then none else m.activeProcess })

def vmProcessActivate (process : ℕ) : Bool × TrapMemory :=
  let p := m.processes process
  if processContextValid p m.spaces p.entryPc p.userSp then
    match m.vmAddressSpaceEnable p.addressSpace with
    | (false, m) => (false, m)
    | (true, m) =>
      (true,
        { m with
          activeProcess := some process
          activeAddressSpace := (m.processes process).addressSpace })
  else (false, m)

/-- `vm_address_space_disable`, which reports a space that is not set up. -/
def vmAddressSpaceDisable (space : Option ℕ) : Bool × TrapMemory :=
  match space with
  | none => (false, m)
  | some space =>
    if ¬ (m.spaces space).allocated ∨ (m.spaces space).rootTable = 0 then (false, m)
    else
      let m :=
        if m.activeAddressSpace = some space then
          { m with
            activeAddressSpace := none
            activeProcess :=
              if (m.activeProcess.bind fun p => (m.processes p).addressSpace) = some space then none
              else m.activeProcess }
        else m
      (true,
        { m with
          spaces := Function.update m.spaces space { m.spaces space with enabled := false } })

def trapUserRuntimeActivate (runtime : Option ℕ) : Bool × TrapMemory :=
  match runtime with
  | none => (false, m)
  | some runtime =>
    match (m.runtimes runtime).process, (m.runtimes runtime).trapContext with
    | some process, some context =>
      let p := m.processes process
      if (m.runtimes runtime).stackValid &&
          processContextValid p m.spaces p.entryPc p.userSp then
        match m.vmProcessActivate process with
        | (false, m) => (false, m)
        | (true, m) =>
          let m := (m.trapContextActivate (some context)).2
          (true, { m with activeUserRuntime := some runtime })
      else (false, m)
    | _, _ => (false, m)

def trapUserRuntimeIsActive (runtime : ℕ) : Bool :=
  (m.runtimes runtime).isValid && m.activeUserRuntime == some runtime &&
    m.activeProcess == (m.runtimes runtime).process &&
    m.activeTrapContext == (m.runtimes runtime).trapContext

/-- The write of `sstatus.SUM` is left out. -/
def trapUserRuntimeDeactivate (runtime : Option ℕ) : Bool × TrapMemory :=
  match runtime with
  | none => (false, m)
  | some runtime =>
    if m.trapUserRuntimeIsActive runtime then
      let m := m.updateRuntime runtime fun r =>
        { r with timerSignal := clearedUserSignal, externalSignal := clearedUserSignal }
      let m := { m with activeUserRuntime := none }
      match (m.runtimes runtime).process with
      | none => (false, m)
      | some process => m.vmAddressSpaceDisable (m.processes process).addressSpace
    else (false, m)

end TrapMemory

end VisualCpu
