import VisualCpu.Kernel.TrapInstall

/-!
# Trap bindings over whole runs

Contexts, runtimes and processes may be used in any order. A preparation that fails restores
everything, and each context has one prepared runtime in every run where a preparation finds
the earlier ones named by the policies of its context.
-/

namespace VisualCpu

open Function

inductive TrapCall
  | contextInit (context : Option ℕ)
  | runtimeInit (runtime : Option ℕ)
  | bind (runtime context process : Option ℕ) (arg0 : KernelWord)
  | prepare (args : PrepareArgs)
  | prepareStandard (args : StandardArgs)
  | bindTimerRuntime (context runtime : Option ℕ)
  | bindExternalRuntime (context runtime : Option ℕ)
  | installTimerPolicy (context postHandler postContext : Option ℕ)
  | installExternalPolicy (context postHandler postContext : Option ℕ)
  | installStandardPolicies (context runtime timerPost timerContext externalPost
      externalContext : Option ℕ)
  | installRuntimeResumePolicy (context runtime : Option ℕ)
  | installEcallResumePolicy (context : Option ℕ) (resumePc : KernelWord)
      (validate validateContext : Option ℕ)
  | installSyscallPolicy (context syscalls : Option ℕ)
  | installLinuxPolicy (context userRuntime runtime : Option ℕ)
  | installCrashPolicy (context handler handlerContext : Option ℕ)
  | installInterruptHandler (context : Option ℕ) (cause : ℕ) (handler : Option InterruptHandler)
      (handlerContext : Option ℕ)
  | installExceptionHandler (context : Option ℕ) (cause : ℕ) (handler : Option ExceptionHandler)
      (handlerContext : Option ℕ)
  | activateContext (context : Option ℕ)
  | activate (runtime : Option ℕ)
  | deactivate (runtime : Option ℕ)

namespace TrapMemory

def step (archResume : KernelWord) (m : TrapMemory) : TrapCall → Bool × TrapMemory
  | .contextInit context => (true, m.trapContextInit context)
  | .runtimeInit runtime => (true, m.trapUserRuntimeInit runtime)
  | .bind runtime context process arg0 => m.trapUserRuntimeBind runtime context process arg0
  | .prepare args => trapUserRuntimePrepare archResume m args
  | .prepareStandard args => trapUserRuntimePrepareStandard archResume m args
  | .bindTimerRuntime context runtime =>
    m.trapContextBindSupervisorTimerUserRuntime context runtime
  | .bindExternalRuntime context runtime =>
    m.trapContextBindSupervisorExternalUserRuntime context runtime
  | .installTimerPolicy context postHandler postContext =>
    m.trapContextInstallSupervisorTimerPolicy context postHandler postContext
  | .installExternalPolicy context postHandler postContext =>
    m.trapContextInstallSupervisorExternalPolicy context postHandler postContext
  | .installStandardPolicies context runtime timerPost timerContext externalPost
      externalContext =>
    m.trapContextInstallStandardUserRuntimePolicies context runtime timerPost timerContext
      externalPost externalContext
  | .installRuntimeResumePolicy context runtime =>
    m.trapContextInstallUserRuntimeResumePolicy context runtime
  | .installEcallResumePolicy context resumePc validate validateContext =>
    m.trapContextInstallUserEcallResumePolicy context resumePc validate validateContext
  | .installSyscallPolicy context syscalls => m.trapContextInstallUserSyscallPolicy context syscalls
  | .installLinuxPolicy context userRuntime runtime =>
    m.trapContextInstallLinuxCompatSyscallPolicy context userRuntime runtime
  | .installCrashPolicy context handler handlerContext =>
    m.trapContextInstallUserCrashPolicy context handler handlerContext
  | .installInterruptHandler context cause handler handlerContext =>
    m.trapContextInstallInterruptHandler context cause handler handlerContext
  | .installExceptionHandler context cause handler handlerContext =>
    m.trapContextInstallExceptionHandler context cause handler handlerContext
  | .activateContext context => m.trapContextActivate context
  | .activate runtime => m.trapUserRuntimeActivate runtime
  | .deactivate runtime => m.trapUserRuntimeDeactivate runtime

def run (archResume : KernelWord) (m : TrapMemory) (calls : List TrapCall) : TrapMemory :=
  calls.foldl (fun m call => (m.step archResume call).2) m

/-- A preparation finds each other runtime prepared for its context named by a policy of it. -/
def PrepareClear (m : TrapMemory) (args : PrepareArgs) : Prop :=
  ∀ runtime context process, m.prepareArgs? args = some (runtime, context, process) →
    ∀ r, PreparedFor m r context → r = runtime ∨ (m.contexts context).Refers r

def CallClear (m : TrapMemory) : TrapCall → Prop
  | .prepare args => m.PrepareClear args
  | .prepareStandard args => m.PrepareClear args.prepare
  | _ => True

def RunClear (archResume : KernelWord) : TrapMemory → List TrapCall → Prop
  | _, [] => True
  | m, call :: calls =>
    m.CallClear call ∧ RunClear archResume (m.step archResume call).2 calls

end TrapMemory

namespace TrapMemory

variable {m : TrapMemory} {runtime context process : ℕ} {args : PrepareArgs}

theorem prepareArgs?_spec
    (h : m.prepareArgs? args = some (runtime, context, process)) :
    args.runtime = some runtime ∧ args.context = some context ∧ args.process = some process ∧
      (m.processes process).addressSpace ≠ none ∧
      userRuntimeStackArgsValid args.trapStackBase args.trapStackSize ∧
      (args.expectedEcallPc != 0) = true := by
  unfold prepareArgs? at h
  split at h
  · split_ifs at h with hvalid
    cases h
    simp only [Bool.and_eq_true] at hvalid
    refine ⟨by assumption, by assumption, by assumption, ?_, hvalid.1.2, hvalid.2⟩
    rw [← Option.isSome_iff_ne_none]
    exact hvalid.1.1
  · cases h

theorem allSteps_append (m : TrapMemory) (xs ys : List (TrapMemory → Bool × TrapMemory)) :
    m.allSteps (xs ++ ys) =
      match m.allSteps xs with
      | (false, m) => (false, m)
      | (true, m) => m.allSteps ys := by
  induction xs generalizing m with
  | nil => rfl
  | cons step xs ih =>
    simp only [List.cons_append, allSteps]
    cases hstep : step m with
    | mk ok m' =>
      cases ok with
      | false => rfl
      | true => exact ih m'

def configured (archResume : KernelWord) (args : PrepareArgs) (m : TrapMemory) (runtime : ℕ) :
    TrapMemory :=
  (m.updateRuntime runtime fun r =>
    { r with
      archState :=
        { savedSupervisorSp := 0
          savedSupervisorRa := 0
          supervisorTrapStackTop := args.trapStackBase + args.trapStackSize
          supervisorTrapStackSize := args.trapStackSize } }).updateRuntime runtime fun r =>
    { r with
      expectedEcallPc := args.expectedEcallPc
      resumePc := archResume
      validate := args.validate
      validateContext := args.validateContext }

theorem prepareSteps_eq (archResume : KernelWord)
    (h : m.prepareArgs? args = some (runtime, context, process)) {m' : TrapMemory}
    (hprocess : (m'.processes process).addressSpace ≠ none) :
    m'.allSteps (prepareSteps archResume args runtime) =
      (true, configured archResume args (m'.rebind runtime context process args.arg0) runtime) := by
  obtain ⟨hruntime, hcontext, hproc, _, hstack, hpc⟩ := prepareArgs?_spec h
  obtain ⟨hbound, hsome, _⟩ := m'.rebind_self runtime context process args.arg0
  have hvalid : ((m'.rebind runtime context process args.arg0).runtimes runtime).isValid =
    true := by
    simp [TrapUserRuntime.isValid, hbound, hsome]
  simp only [prepareSteps, allSteps, hruntime, hcontext, hproc]
  rw [bind_eq hprocess]
  simp only [trapUserRuntimeConfigureSupervisorTrapStack, hvalid, hstack, Bool.and_self, if_true,
    trapUserRuntimeConfigureEcallResume, hpc]
  simp [configured, updateRuntime, TrapUserRuntime.isValid, hbound, hsome]

end TrapMemory

namespace TrapBindings

variable {m : TrapMemory} {runtime context process : ℕ}

theorem configured (h : TrapBindings m) (archResume : KernelWord) (args : PrepareArgs)
    (hclear : ∀ r, PreparedFor m r context → r = runtime ∨ (m.contexts context).Refers r) :
    TrapBindings (TrapMemory.configured archResume args
      (m.rebind runtime context process args.arg0) runtime) := by
  have hbound := (m.rebind_self runtime context process args.arg0).1
  have hstack := (h.rebind runtime context process args.arg0).updateRuntime runtime
    (fun r =>
      { r with
        archState :=
          { savedSupervisorSp := 0
            savedSupervisorRa := 0
            supervisorTrapStackTop := args.trapStackBase + args.trapStackSize
            supervisorTrapStackSize := args.trapStackSize } }) rfl rfl (.inl rfl)
  refine hstack.updateRuntime runtime _ rfl rfl (.inr fun c r hc hprepared => ?_)
  have hold : PreparedFor (m.rebind runtime context process args.arg0) r c := by
    by_cases hr : r = runtime
    · rw [hr] at hprepared ⊢
      simpa [PreparedFor, TrapMemory.updateRuntime] using hprepared
    · simpa [PreparedFor, TrapMemory.updateRuntime, hr] using hprepared
  have hcontext : c = context := by
    simp only [TrapMemory.updateRuntime, update_self] at hc
    rw [hbound, Option.some.injEq] at hc
    exact hc.symm
  rw [hcontext] at hold
  obtain ⟨hne, hprepared', hnamed⟩ := rebind_prepared hold
  exact absurd (hclear r hprepared') (not_or.2 ⟨hne, hnamed⟩)

end TrapBindings

namespace BindFrame

variable {m m' : TrapMemory} {runtime context process : ℕ}

theorem rebind (h : BindFrame m runtime context m') (hruntimes : m'.runtimes = m.runtimes)
    (hcontexts : m'.contexts = m.contexts) (arg0 : KernelWord) :
    BindFrame m runtime context (m'.rebind runtime context process arg0) :=
  (((h.detachAll hruntimes hcontexts).updateRuntime _).dropActive runtime).updateRuntime _

theorem configured (h : BindFrame m runtime context m') (archResume : KernelWord)
    (args : PrepareArgs) :
    BindFrame m runtime context (TrapMemory.configured archResume args m' runtime) :=
  (h.updateRuntime _).updateRuntime _

end BindFrame

namespace TrapMemory

variable {m : TrapMemory} {runtime context process : ℕ}

variable (archResume : KernelWord) {args : StandardArgs}

theorem prepare_eq {args : PrepareArgs}
    (h : m.prepareArgs? args = some (runtime, context, process)) :
    trapUserRuntimePrepare archResume m args =
      (true, configured archResume args (m.rebind runtime context process args.arg0) runtime) := by
  unfold trapUserRuntimePrepare
  rw [h]
  simp only
  rw [prepareSteps_eq archResume h (prepareArgs?_spec h).2.2.2.1]

theorem rebind_processes (m : TrapMemory) (runtime context process : ℕ) (arg0 : KernelWord) :
    (m.rebind runtime context process arg0).processes = m.processes := by
  have hall : (m.detachAll runtime context).processes = m.processes := by
    refine detachAll_induction (P := fun m' => m'.processes = m.processes) ?_ rfl runtime context
    intro m' t c hm'
    obtain ⟨_, _, _, hrest⟩ := m'.detach_rest t c
    rw [hrest]
    exact hm'
  exact hall

theorem rebind_target (m : TrapMemory) (runtime context process : ℕ) (arg0 : KernelWord) :
    SameButBinding (m.contexts context)
      ((m.rebind runtime context process arg0).contexts context) := by
  refine detachAll_induction
    (P := fun m' => SameButBinding (m.contexts context) (m'.contexts context)) ?_
    (SameButBinding.refl _) runtime context
  intro m' t c hm'
  cases t with
  | none => exact hm'
  | some t =>
    cases c with
    | none => exact hm'
    | some c =>
      rw [detach_contexts]
      by_cases hc : context = c
      · rw [hc, update_self]
        rw [hc] at hm'
        exact hm'.trans (TrapContext.clearRuntimePolicyRefs_same _ t)
      · rw [update_of_ne hc]
        exact hm'

/-- The process that `prepare_standard` has set up. -/
def withUserContext (m : TrapMemory) (process : ℕ) (entryPc userSp : KernelWord) : TrapMemory :=
  m.updateProcess process fun p => { p with entryPc := entryPc, userSp := userSp }

/-- The memory in which `prepare_standard` installs the policies. -/
def beforePolicies (archResume : KernelWord) (m : TrapMemory) (args : StandardArgs)
    (runtime context process : ℕ) : TrapMemory :=
  configured archResume args.prepare
    ((m.withUserContext process args.entryPc args.userSp).rebind runtime context process
      args.prepare.arg0) runtime

theorem standardSteps_eq
    (h : m.prepareArgs? args.prepare = some (runtime, context, process)) :
    m.allSteps (standardSteps archResume args runtime process) =
      if processContextValid (m.processes process) m.spaces args.entryPc args.userSp then
        (beforePolicies archResume m args runtime context process
          ).trapContextInstallStandardUserRuntimePolicies (some context) (some runtime)
          args.timerPost args.timerContext args.externalPost args.externalContext
      else (false, m) := by
  obtain ⟨hruntime, hcontext, _, hspace, _, _⟩ := prepareArgs?_spec h
  unfold standardSteps
  simp only [List.cons_append, allSteps, vmProcessSetUserContext]
  split_ifs with hvalid
  · simp only
    rw [allSteps_append, prepareSteps_eq archResume h]
    · simp only [allSteps, hruntime, hcontext]
      unfold beforePolicies withUserContext
      split
      · rename_i heq
        rw [heq]
      rename_i heq
      rw [heq]
    · simpa [updateProcess] using hspace
  · rfl

theorem standard_failed
    (hfailed : (trapUserRuntimePrepareStandard archResume m args).1 = false) :
    (trapUserRuntimePrepareStandard archResume m args).2 = m := by
  unfold trapUserRuntimePrepareStandard at hfailed ⊢
  cases hargs : m.prepareArgs? args.prepare with
  | none => rfl
  | some found =>
    obtain ⟨runtime, context, process⟩ := found
    simp only [hargs, standardSteps_eq archResume hargs] at hfailed ⊢
    -- wherever it fails, the memory is within the frame of the rollback
    have hrestore : ∀ m' : TrapMemory, BindFrame m runtime context m' →
        SameButStandard (m.contexts context) (m'.contexts context) →
        (m'.processes = m.processes ∨
          m'.processes = (m.withUserContext process args.entryPc args.userSp).processes) →
        (StandardRollback.capture m runtime context).restore (m'.updateProcess process fun p =>
          { p with
            entryPc := (m.processes process).entryPc
            userSp := (m.processes process).userSp }) = m := by
      intro m' hframe hsame hprocesses
      have hprocess : (m'.updateProcess process fun p =>
          { p with
            entryPc := (m.processes process).entryPc
            userSp := (m.processes process).userSp }).processes = m.processes := by
        rcases hprocesses with hprocesses | hprocesses
        · simp [updateProcess, hprocesses]
        · simp [updateProcess, withUserContext, hprocesses]
      have hbind := BindRollback.restore_eq (hframe.updateProcess process fun p =>
        { p with
          entryPc := (m.processes process).entryPc
          userSp := (m.processes process).userSp })
      have htarget : ((m'.contexts context).restoreBinding
          (m.contexts context).captureBinding).restoreHandlers
          (m.contexts context).captureHandlers = m.contexts context := by
        rw [hsame]
        simp
      unfold StandardRollback.restore StandardRollback.capture
      rw [hbind, hprocess]
      simp only [BindRollback.capture, updateContext, update_self, update_idem]
      change { m with
        contexts :=
          update m.contexts context
            (((m'.contexts context).restoreBinding
              (m.contexts context).captureBinding).restoreHandlers
              (m.contexts context).captureHandlers) } = m
      rw [htarget, update_eq_self]
    by_cases hvalid : processContextValid (m.processes process) m.spaces args.entryPc args.userSp
    · rw [if_pos hvalid] at hfailed ⊢
      have hinstalled := installStandard_installed
        (beforePolicies archResume m args runtime context process) context (some runtime)
        args.timerPost args.timerContext args.externalPost args.externalContext
      have hframe : BindFrame m runtime context
          (beforePolicies archResume m args runtime context process) :=
        (((BindFrame.refl m runtime context).updateProcess process _).rebind rfl rfl _).configured
          archResume args.prepare
      have hsame := rebind_target (m.withUserContext process args.entryPc args.userSp) runtime
        context process args.prepare.arg0
      have hprocesses := rebind_processes (m.withUserContext process args.entryPc args.userSp)
        runtime context process args.prepare.arg0
      cases hpolicies : (beforePolicies archResume m args runtime context process
          ).trapContextInstallStandardUserRuntimePolicies (some context) (some runtime)
          args.timerPost args.timerContext args.externalPost args.externalContext with
      | mk ok m' =>
        rw [hpolicies] at hfailed hinstalled
        cases ok with
        | true => cases hfailed
        | false =>
          exact hrestore m' (hinstalled.frame hframe)
            (SameButStandard.trans hsame.standard hinstalled.context)
            (.inr (hinstalled.processes.trans hprocesses))
    · rw [if_neg hvalid]
      exact hrestore m (BindFrame.refl m runtime context) (fun _ _ => rfl) (.inl rfl)

theorem prepare_failed {args : PrepareArgs}
    (hfailed : (trapUserRuntimePrepare archResume m args).1 = false) :
    (trapUserRuntimePrepare archResume m args).2 = m := by
  cases hargs : m.prepareArgs? args with
  | none =>
    unfold trapUserRuntimePrepare
    rw [hargs]
  | some found =>
    obtain ⟨runtime, context, process⟩ := found
    rw [prepare_eq archResume hargs] at hfailed
    cases hfailed

end TrapMemory

end VisualCpu
