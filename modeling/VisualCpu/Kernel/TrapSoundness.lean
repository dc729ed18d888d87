import VisualCpu.Kernel.TrapRuns

/-!
# Consistent bindings in every run
-/

namespace VisualCpu

open TrapMemory

/-- The bindings are consistent, and a preparation that fails changes nothing. -/
structure TrapSound (archResume : KernelWord) (m : TrapMemory) : Prop where
  bindings : TrapBindings m
  prepareFailed : ∀ args, (m.step archResume (.prepare args)).1 = false →
    (m.step archResume (.prepare args)).2 = m
  standardFailed : ∀ args, (m.step archResume (.prepareStandard args)).1 = false →
    (m.step archResume (.prepareStandard args)).2 = m

namespace TrapBindings

variable {m : TrapMemory} {archResume : KernelWord}

theorem contextInit (h : TrapBindings m) (context : Option ℕ) :
    TrapBindings (m.trapContextInit context) := by
  cases context with
  | none => exact h
  | some c =>
    refine TrapBindings.updateContext h c (fun _ => TrapContext.cleared) fun r hr => ?_
    rcases hr with hr | hr | hr <;> cases hr

theorem runtimeInit (h : TrapBindings m) (runtime : Option ℕ) :
    TrapBindings (m.trapUserRuntimeInit runtime) := by
  cases runtime with
  | none => exact h
  | some runtime =>
    have hother : ∀ r, r ≠ runtime →
        (m.trapUserRuntimeInit (some runtime)).runtimes r = m.runtimes r := by
      intro r hr
      cases hbound : (m.runtimes runtime).trapContext <;>
        simp [trapUserRuntimeInit, hbound, TrapMemory.clearRuntimePolicyRefs,
          TrapMemory.updateContext, resetPreparedRuntimeState,
          TrapMemory.updateRuntime, TrapMemory.dropActive, hr]
    have hself : ∀ c, ¬ PreparedFor (m.trapUserRuntimeInit (some runtime)) runtime c := by
      rintro c ⟨_, hpc⟩
      simp [trapUserRuntimeInit, resetPreparedRuntimeState,
        TrapMemory.updateRuntime, TrapUserRuntime.reset] at hpc
    have hrefs : ∀ c r, ((m.trapUserRuntimeInit (some runtime)).contexts c).Refers r →
        (m.contexts c).Refers r ∧ r ≠ runtime := by
      intro c r hr
      cases hbound : (m.runtimes runtime).trapContext with
      | none =>
        have hold : (m.contexts c).Refers r := by
          simpa [trapUserRuntimeInit, hbound, TrapMemory.clearRuntimePolicyRefs,
            resetPreparedRuntimeState, TrapMemory.updateRuntime,
            TrapMemory.dropActive] using hr
        refine ⟨hold, fun heq => ?_⟩
        have hnone := h.refs c r hold
        rw [heq, hbound] at hnone
        cases hnone
      | some c' =>
        have hcontexts : (m.trapUserRuntimeInit (some runtime)).contexts =
            Function.update m.contexts c' ((m.contexts c').clearRuntimePolicyRefs runtime) := by
          simp [trapUserRuntimeInit, hbound, TrapMemory.clearRuntimePolicyRefs,
            TrapMemory.updateContext, resetPreparedRuntimeState,
            TrapMemory.updateRuntime, TrapMemory.dropActive]
        rw [hcontexts] at hr
        by_cases hc : c = c'
        · rw [hc, Function.update_self] at hr
          rw [hc]
          exact TrapContext.refers_clear hr
        rw [Function.update_of_ne hc] at hr
        refine ⟨hr, fun heq => ?_⟩
        have hsome := h.refs c r hr
        rw [heq, hbound, Option.some.injEq] at hsome
        exact hc hsome.symm
    refine ⟨fun c r hr => ?_, fun r hactive => ?_, fun c r r' hr hr' => ?_⟩
    · obtain ⟨hold, hne⟩ := hrefs c r hr
      rw [hother r hne]
      exact h.refs c r hold
    · have hdropped : ((m.dropActive runtime).dropActive runtime).activeUserRuntime = some r := by
        cases hbound : (m.runtimes runtime).trapContext <;>
          simpa [trapUserRuntimeInit, hbound, TrapMemory.clearRuntimePolicyRefs,
            TrapMemory.updateContext, resetPreparedRuntimeState,
            TrapMemory.updateRuntime, TrapMemory.dropActive] using hactive
      obtain ⟨hne, hdropped'⟩ := dropActive_active hdropped
      obtain ⟨c, hc⟩ := h.active r (dropActive_active hdropped').2
      refine ⟨c, ?_⟩
      rw [hother r hne]
      cases hbound : (m.runtimes runtime).trapContext <;>
        simpa [trapUserRuntimeInit, hbound, TrapMemory.clearRuntimePolicyRefs,
          TrapMemory.updateContext, resetPreparedRuntimeState,
          TrapMemory.updateRuntime, TrapMemory.dropActive] using hc
    · have hne : r ≠ runtime := by
        rintro rfl
        exact hself c hr
      have hne' : r' ≠ runtime := by
        rintro rfl
        exact hself c hr'
      unfold PreparedFor at hr hr'
      rw [hother r hne] at hr
      rw [hother r' hne'] at hr'
      exact h.onePrepared c r r' hr hr'

theorem activateContext (h : TrapBindings m) (context : Option ℕ) :
    TrapBindings (m.trapContextActivate context).2 := by
  cases context with
  | none => exact h
  | some c =>
    refine ⟨h.refs, fun r hactive => ?_, h.onePrepared⟩
    simp only [trapContextActivate] at hactive ⊢
    cases hcurrent : m.activeUserRuntime with
    | none => simp [hcurrent] at hactive
    | some active =>
      by_cases hstale : (m.runtimes active).trapContext = some c
      · simp only [hcurrent, hstale, ne_eq, not_true_eq_false, decide_false, Bool.false_eq_true,
          if_false, Option.some.injEq] at hactive
        obtain ⟨_, _, hprocess, _⟩ := h.active active hcurrent
        subst hactive
        exact ⟨c, hstale, hprocess, rfl⟩
      · simp [hcurrent, hstale] at hactive

/-- The memory with the same contexts, runtimes and active ones. -/
structure SameTraps (m m' : TrapMemory) : Prop where
  contexts : m'.contexts = m.contexts
  runtimes : m'.runtimes = m.runtimes
  activeUserRuntime : m'.activeUserRuntime = m.activeUserRuntime
  activeTrapContext : m'.activeTrapContext = m.activeTrapContext

theorem ofSameTraps (h : TrapBindings m) {m' : TrapMemory} (hsame : SameTraps m m') :
    TrapBindings m' := by
  refine h.install hsame.runtimes hsame.activeUserRuntime hsame.activeTrapContext fun c r hr => ?_
  rw [hsame.contexts] at hr
  exact .inl hr

theorem vmProcessActivate_same (m : TrapMemory) (process : ℕ) :
    SameTraps m (m.vmProcessActivate process).2 := by
  unfold vmProcessActivate
  simp only
  split_ifs
  · cases (m.processes process).addressSpace with
    | none => exact ⟨rfl, rfl, rfl, rfl⟩
    | some space =>
      simp only [vmAddressSpaceEnable]
      split_ifs <;> exact ⟨rfl, rfl, rfl, rfl⟩
  · exact ⟨rfl, rfl, rfl, rfl⟩

theorem vmAddressSpaceDisable_same (m : TrapMemory) (space : Option ℕ) :
    SameTraps m (m.vmAddressSpaceDisable space).2 := by
  unfold vmAddressSpaceDisable
  cases space with
  | none => exact ⟨rfl, rfl, rfl, rfl⟩
  | some space =>
    split
    · exact ⟨rfl, rfl, rfl, rfl⟩
    · split_ifs <;> exact ⟨rfl, rfl, rfl, rfl⟩

section

variable (h : TrapBindings m)

include h

theorem activate (runtime : Option ℕ) : TrapBindings (m.trapUserRuntimeActivate runtime).2 := by
  cases runtime with
  | none => exact h
  | some runtime =>
    simp only [trapUserRuntimeActivate]
    split
    · rename_i process context hprocess hcontext
      split
      · have hsame := vmProcessActivate_same m process
        split
        · rename_i m' hactivated
          rw [hactivated] at hsame
          exact h.ofSameTraps hsame
        rename_i m' hactivated
        rw [hactivated] at hsame
        have hm' := h.ofSameTraps hsame
        refine ⟨hm'.refs, fun r hactive => ?_, hm'.onePrepared⟩
        simp only [Option.some.injEq] at hactive
        subst hactive
        have hruntimes : m'.runtimes = m.runtimes := hsame.runtimes
        simp only [trapContextActivate]
        rw [hruntimes]
        exact ⟨context, hcontext, by rw [hprocess]; rfl, rfl⟩
      · exact h
    · exact h

theorem deactivate (runtime : Option ℕ) : TrapBindings (m.trapUserRuntimeDeactivate runtime).2 := by
  cases runtime with
  | none => exact h
  | some runtime =>
    simp only [trapUserRuntimeDeactivate]
    split
    · have hcleared := h.updateRuntime runtime
        (fun r => { r with timerSignal := clearedUserSignal, externalSignal := clearedUserSignal })
        rfl rfl (.inl rfl)
      have hidle : TrapBindings { m.updateRuntime runtime fun r =>
          { r with timerSignal := clearedUserSignal, externalSignal := clearedUserSignal } with
          activeUserRuntime := none } :=
        ⟨hcleared.refs, fun r hactive => (by cases hactive), hcleared.onePrepared⟩
      split
      · exact hidle
      · exact hidle.ofSameTraps (vmAddressSpaceDisable_same _ _)
    · exact h

theorem bind (runtime context process : Option ℕ) (arg0 : KernelWord) :
    TrapBindings (m.trapUserRuntimeBind runtime context process arg0).2 := by
  cases runtime with
  | none => exact h
  | some runtime =>
    cases context with
    | none => exact h
    | some context =>
      cases process with
      | none => exact h
      | some process =>
        by_cases hspace : (m.processes process).addressSpace = none
        · rw [trapUserRuntimeBind, if_pos hspace]
          exact h
        rw [bind_eq hspace]
        exact h.rebind runtime context process arg0

theorem prepare {args : PrepareArgs} (hclear : m.PrepareClear args) :
    TrapBindings (trapUserRuntimePrepare archResume m args).2 := by
  cases hargs : m.prepareArgs? args with
  | none =>
    rw [trapUserRuntimePrepare, hargs]
    exact h
  | some found =>
    obtain ⟨runtime, context, process⟩ := found
    rw [prepare_eq archResume hargs]
    exact h.configured archResume args (hclear runtime context process hargs)

theorem prepareStandard {args : StandardArgs} (hclear : m.PrepareClear args.prepare) :
    TrapBindings (trapUserRuntimePrepareStandard archResume m args).2 := by
  cases hresult : trapUserRuntimePrepareStandard archResume m args with
  | mk ok m' =>
    cases ok with
    | false =>
      have hfailed := @TrapMemory.standard_failed m archResume args (by rw [hresult])
      rw [hresult] at hfailed
      rw [show m' = m from hfailed]
      exact h
    | true =>
      unfold trapUserRuntimePrepareStandard at hresult
      cases hargs : m.prepareArgs? args.prepare with
      | none =>
        rw [hargs] at hresult
        cases hresult
      | some found =>
        obtain ⟨runtime, context, process⟩ := found
        simp only [hargs, standardSteps_eq archResume hargs] at hresult
        by_cases hvalid : processContextValid (m.processes process) m.spaces args.entryPc
            args.userSp
        · rw [if_pos hvalid] at hresult
          have hbefore : TrapBindings
              (beforePolicies archResume m args runtime context process) := by
            have hset : TrapBindings
                (m.withUserContext process args.entryPc args.userSp) :=
              h.ofSameTraps ⟨rfl, rfl, rfl, rfl⟩
            exact hset.configured archResume args.prepare
              (hclear runtime context process hargs)
          have hinstalled := (installStandard_installed
            (beforePolicies archResume m args runtime context process) context
            (some runtime) args.timerPost args.timerContext args.externalPost
            args.externalContext).bindings hbefore
          split at hresult
          · rename_i m'' hpolicies
            cases hresult
            rw [hpolicies] at hinstalled
            exact hinstalled
          · cases hresult
        · rw [if_neg hvalid] at hresult
          cases hresult

theorem step (call : TrapCall) (hclear : m.CallClear call) :
    TrapBindings (m.step archResume call).2 := by
  have hany : ∀ context : TrapContext, AnyChange context context := fun _ => trivial
  cases call with
  | contextInit context => exact h.contextInit context
  | runtimeInit runtime => exact h.runtimeInit runtime
  | bind runtime context process arg0 => exact h.bind runtime context process arg0
  | prepare args => exact h.prepare hclear
  | prepareStandard args => exact h.prepareStandard hclear
  | bindTimerRuntime context runtime =>
    cases context with
    | none => exact h
    | some c => exact (bindTimer_installed m c runtime).bindings h
  | bindExternalRuntime context runtime =>
    cases context with
    | none => exact h
    | some c => exact (bindExternal_installed m c runtime).bindings h
  | installTimerPolicy context postHandler postContext =>
    cases context with
    | none => exact h
    | some c => exact (installTimerPolicy_installed m c postHandler postContext).bindings h
  | installExternalPolicy context postHandler postContext =>
    cases context with
    | none => exact h
    | some c => exact (installExternalPolicy_installed m c postHandler postContext).bindings h
  | installStandardPolicies context runtime timerPost timerContext externalPost externalContext =>
    cases context with
    | none => exact h
    | some c =>
      exact (installStandard_installed m c runtime timerPost timerContext externalPost
        externalContext).bindings h
  | installRuntimeResumePolicy context runtime =>
    cases context with
    | none => exact h
    | some c => exact (installRuntimeResume_installed m c runtime).bindings h
  | installEcallResumePolicy context resumePc validate validateContext =>
    cases context with
    | none => exact h
    | some c =>
      exact (installEcallResume_installed m c resumePc validate validateContext).bindings h
  | installSyscallPolicy context syscalls =>
    cases context with
    | none => exact h
    | some c => exact (installSyscall_installed m c syscalls).bindings h
  | installLinuxPolicy context userRuntime runtime =>
    cases context with
    | none => exact h
    | some c => exact (installLinux_installed m c userRuntime runtime).bindings h
  | installCrashPolicy context handler handlerContext =>
    cases context with
    | none => exact h
    | some c => exact (installCrash_installed m c handler handlerContext).bindings h
  | installInterruptHandler context cause handler handlerContext =>
    cases context with
    | none => exact h
    | some c =>
      exact (installInterruptHandler_installed m c hany cause handler handlerContext
        fun _ _ => trivial).bindings h
  | installExceptionHandler context cause handler handlerContext =>
    cases context with
    | none => exact h
    | some c =>
      exact (installExceptionHandler_installed m c hany cause handler handlerContext
        fun _ _ => trivial).bindings h
  | activateContext context => exact h.activateContext context
  | activate runtime => exact h.activate runtime
  | deactivate runtime => exact h.deactivate runtime

theorem run {calls : List TrapCall}
    (hclear : m.RunClear archResume calls) : TrapBindings (m.run archResume calls) := by
  induction calls generalizing m with
  | nil => exact h
  | cons call calls ih => exact ih (h.step call hclear.1) hclear.2

end

end TrapBindings

/-- In a run where a preparation finds the runtimes prepared before named by the policies of
its context, the bindings are consistent and a failed preparation changes nothing. -/
theorem run_trapSound (archResume : KernelWord) (processes : ℕ → VmProcess)
    (spaces : ℕ → VmAddressSpace) (calls : List TrapCall)
    (hclear : (TrapMemory.init processes spaces).RunClear archResume calls) :
    TrapSound archResume ((TrapMemory.init processes spaces).run archResume calls) :=
  ⟨(TrapBindings.init processes spaces).run hclear, fun _ => prepare_failed archResume,
    fun _ => standard_failed archResume⟩

/-- A process of which every page is code and stack. -/
def openProcess : VmProcess where
  addressSpace := some 0
  entryPc := 0
  userSp := 0
  userRegions := fun _ _ => true

def openSpace : VmAddressSpace :=
  { allocated := true, rootTable := 0x80001000, satpValue := 1, enabled := false }

/-- A runtime and context `0` with a stack of one page. -/
def prepareOn (runtime : ℕ) : PrepareArgs where
  runtime := some runtime
  context := some 0
  process := some 0
  arg0 := 0
  trapStackBase := 0x80002000
  trapStackSize := 4096
  expectedEcallPc := 0x1000
  validate := none
  validateContext := none

theorem prepareAndActivate_sound :
    TrapSound 0x80000100 ((TrapMemory.init (fun _ => openProcess) fun _ => openSpace).run 0x80000100
      [.prepare (prepareOn 0), .installRuntimeResumePolicy (some 0) (some 0),
        .activate (some 0)]) := by
  refine run_trapSound _ _ _ _ ⟨?_, trivial, trivial, trivial⟩
  rintro runtime context process _ r ⟨hbound, _⟩
  cases hbound

/-- Two runtimes are prepared for one context before a policy names the first. -/
theorem secondPrepare_keepsFirst : ¬ ∀ (archResume : KernelWord) (processes : ℕ → VmProcess)
    (spaces : ℕ → VmAddressSpace) (calls : List TrapCall),
    TrapSound archResume ((TrapMemory.init processes spaces).run archResume calls) := by
  intro hall
  have hsound := hall 0x80000100 (fun _ => openProcess) (fun _ => openSpace)
    [.prepare (prepareOn 0), .prepare (prepareOn 1)]
  have hone := hsound.bindings.onePrepared 0 0 1 ⟨by decide, by decide⟩
    ⟨by decide, by decide⟩
  cases hone

end VisualCpu
