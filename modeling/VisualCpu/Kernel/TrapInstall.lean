import VisualCpu.Kernel.TrapBinding

/-!
# Installing policies

A policy is installed in one context and names at most a runtime that is bound to it.
-/

namespace VisualCpu

open Function TrapMemory

/-- One context changes as `S` allows; its policies name no runtime but those they named and
those bound to it. -/
def Installed (S : TrapContext → TrapContext → Prop) (c : ℕ) (m m' : TrapMemory) : Prop :=
  ∃ context, m' = m.updateContext c (fun _ => context) ∧ S (m.contexts c) context ∧
    ∀ r, context.Refers r → (m.contexts c).Refers r ∨ (m.runtimes r).trapContext = some c

namespace Installed

variable {S : TrapContext → TrapContext → Prop} {c : ℕ} {m m' m'' : TrapMemory}

theorem refl (hrefl : ∀ context, S context context) (m : TrapMemory) (c : ℕ) :
    Installed S c m m := by
  refine ⟨m.contexts c, ?_, hrefl _, fun r hr => .inl hr⟩
  simp [TrapMemory.updateContext]

theorem trans (htrans : ∀ x y z, S x y → S y z → S x z) (h : Installed S c m m')
    (h' : Installed S c m' m'') : Installed S c m m'' := by
  obtain ⟨context, rfl, hS, hrefs⟩ := h
  obtain ⟨context', rfl, hS', hrefs'⟩ := h'
  simp only [TrapMemory.updateContext, update_self] at hS' hrefs'
  refine ⟨context', ?_, htrans _ _ _ hS hS', fun r hr => ?_⟩
  · simp [TrapMemory.updateContext]
  rcases hrefs' r hr with hold | hbound
  · exact hrefs r hold
  · exact .inr hbound

theorem update (f : TrapContext → TrapContext) (hm : m' = m.updateContext c f)
    (hS : S (m.contexts c) (f (m.contexts c)))
    (hrefs : ∀ r, (f (m.contexts c)).Refers r →
      (m.contexts c).Refers r ∨ (m.runtimes r).trapContext = some c) :
    Installed S c m m' := ⟨f (m.contexts c), hm, hS, hrefs⟩

section

variable (h : Installed S c m m')

include h

theorem bindings (hm : TrapBindings m) : TrapBindings m' := by
  obtain ⟨context, rfl, _, hrefs⟩ := h
  exact hm.updateContext c _ hrefs

theorem frame {runtime : ℕ} {m₀ : TrapMemory}
    (hm : BindFrame m₀ runtime c m) : BindFrame m₀ runtime c m' := by
  obtain ⟨context, rfl, _, _⟩ := h
  exact hm.updateContext _

theorem context : S (m.contexts c) (m'.contexts c) := by
  obtain ⟨context, rfl, hS, _⟩ := h
  simpa [TrapMemory.updateContext] using hS

theorem processes : m'.processes = m.processes := by
  obtain ⟨context, rfl, _, _⟩ := h
  rfl

end

end Installed

open Installed

def AnyChange (_ _ : TrapContext) : Prop := True

section Install

variable (m : TrapMemory) (c : ℕ) {S : TrapContext → TrapContext → Prop}

theorem installInterruptHandler_installed (hrefl : ∀ context, S context context) (cause : ℕ)
    (handler : Option InterruptHandler) (handlerContext : Option ℕ)
    (hS : ∀ (h : cause < 16) entry, S (m.contexts c)
      { m.contexts c with
        interruptHandlers :=
          update (m.contexts c).interruptHandlers ⟨cause, h⟩ entry }) :
    Installed S c m
      (m.trapContextInstallInterruptHandler (some c) cause handler handlerContext).2 := by
  unfold trapContextInstallInterruptHandler
  cases handler with
  | none => exact refl hrefl m c
  | some handler =>
    split_ifs with hcause
    · dsimp only
      refine update _ rfl ?_ ?_
      · exact hS hcause _
      · exact fun r hr => .inl hr
    · exact refl hrefl m c

theorem installExceptionHandler_installed (hrefl : ∀ context, S context context) (cause : ℕ)
    (handler : Option ExceptionHandler) (handlerContext : Option ℕ)
    (hS : ∀ (h : cause < 16) entry, S (m.contexts c)
      { m.contexts c with
        exceptionHandlers :=
          update (m.contexts c).exceptionHandlers ⟨cause, h⟩ entry }) :
    Installed S c m
      (m.trapContextInstallExceptionHandler (some c) cause handler handlerContext).2 := by
  unfold trapContextInstallExceptionHandler
  cases handler with
  | none => exact refl hrefl m c
  | some handler =>
    split_ifs with hcause
    · dsimp only
      refine update _ rfl ?_ ?_
      · exact hS hcause _
      · exact fun r hr => .inl hr
    · exact refl hrefl m c

variable (context : TrapContext)

theorem sameButStandard_interrupt (cause : Fin 16) (entry : HandlerEntry InterruptHandler)
    (hcause : cause = RISCV_SUPERVISOR_TIMER_INTERRUPT ∨
      cause = RISCV_SUPERVISOR_EXTERNAL_INTERRUPT) :
    SameButStandard context
      { context with
        interruptHandlers := update context.interruptHandlers cause entry } := by
  intro binding handlers
  simp only [TrapContext.restoreHandlers, TrapContext.restoreBinding, TrapContext.mk.injEq,
    and_true]
  funext i
  by_cases hexternal : i = RISCV_SUPERVISOR_EXTERNAL_INTERRUPT
  · rw [hexternal, update_self, update_self]
  rw [update_of_ne hexternal, update_of_ne hexternal]
  by_cases htimer : i = RISCV_SUPERVISOR_TIMER_INTERRUPT
  · rw [htimer, update_self, update_self]
  rw [update_of_ne htimer, update_of_ne htimer, update_of_ne]
  rintro rfl
  exact hcause.elim htimer hexternal

theorem sameButStandard_ecall (entry : HandlerEntry ExceptionHandler) : SameButStandard context
      { context with
        exceptionHandlers :=
          update context.exceptionHandlers RISCV_EXC_ECALL_FROM_U entry } := by
  intro binding handlers
  simp only [TrapContext.restoreHandlers, TrapContext.restoreBinding, update_idem]

theorem sameButStandard_refl : SameButStandard context context :=
  fun _ _ => rfl

theorem sameButStandard_trans (x y z : TrapContext) (h : SameButStandard x y)
    (h' : SameButStandard y z) : SameButStandard x z := h.trans h'

theorem installTimerPolicy_installed (postHandler postContext : Option ℕ) :
    Installed SameButStandard c m
      (m.trapContextInstallSupervisorTimerPolicy (some c) postHandler postContext).2 := by
  refine trans sameButStandard_trans ?_ (installInterruptHandler_installed _ c
    sameButStandard_refl _ _ _ fun _ entry => sameButStandard_interrupt _ _ entry (.inl rfl))
  refine update _ rfl ?_ ?_
  · exact fun _ _ => rfl
  · exact fun r hr => .inl hr

theorem installExternalPolicy_installed (postHandler postContext : Option ℕ) :
    Installed SameButStandard c m
      (m.trapContextInstallSupervisorExternalPolicy (some c) postHandler postContext).2 := by
  refine trans sameButStandard_trans ?_ (installInterruptHandler_installed _ c
    sameButStandard_refl _ _ _ fun _ entry => sameButStandard_interrupt _ _ entry (.inr rfl))
  refine update _ rfl ?_ ?_
  · exact fun _ _ => rfl
  · exact fun r hr => .inl hr

theorem boundTo_trapContext {r : ℕ} (h : m.boundTo r c) : (m.runtimes r).trapContext = some c := by
  unfold boundTo at h
  simp only [Bool.and_eq_true, beq_iff_eq] at h
  exact h.2

theorem bindTimer_installed (runtime : Option ℕ) : Installed SameButStandard c m
      (m.trapContextBindSupervisorTimerUserRuntime (some c) runtime).2 := by
  unfold trapContextBindSupervisorTimerUserRuntime
  cases runtime with
  | none => exact refl sameButStandard_refl m c
  | some runtime =>
    simp only
    split_ifs with hbound
    · dsimp only
      refine update _ rfl ?_ ?_
      · exact fun _ _ => rfl
      rintro r (htimer | hrest)
      · cases htimer
        exact .inr (boundTo_trapContext m c hbound)
      · exact .inl (.inr hrest)
    · exact refl sameButStandard_refl m c

theorem bindExternal_installed (runtime : Option ℕ) : Installed SameButStandard c m
      (m.trapContextBindSupervisorExternalUserRuntime (some c) runtime).2 := by
  unfold trapContextBindSupervisorExternalUserRuntime
  cases runtime with
  | none => exact refl sameButStandard_refl m c
  | some runtime =>
    simp only
    split_ifs with hbound
    · dsimp only
      refine update _ rfl ?_ ?_
      · exact fun _ _ => rfl
      rintro r (htimer | hexternal | hecall)
      · exact .inl (.inl htimer)
      · cases hexternal
        exact .inr (boundTo_trapContext m c hbound)
      · exact .inl (.inr (.inr hecall))
    · exact refl sameButStandard_refl m c

theorem installRuntimeResume_installed (runtime : Option ℕ) : Installed SameButStandard c m
      (m.trapContextInstallUserRuntimeResumePolicy (some c) runtime).2 := by
  unfold trapContextInstallUserRuntimeResumePolicy
  cases runtime with
  | none => exact refl sameButStandard_refl m c
  | some runtime =>
    simp only
    split_ifs with hready
    · simp only [Bool.and_eq_true] at hready
      refine trans sameButStandard_trans ?_ (installExceptionHandler_installed _ c
        sameButStandard_refl _ _ _ fun _ entry => sameButStandard_ecall _ entry)
      refine update _ rfl ?_ ?_
      · exact fun _ _ => rfl
      rintro r (htimer | hexternal | hecall)
      · exact .inl (.inl htimer)
      · exact .inl (.inr (.inl hexternal))
      cases hecall
      exact .inr (boundTo_trapContext m c hready.1.1)
    · exact refl sameButStandard_refl m c

theorem installStandard_installed
    (runtime timerPost timerContext externalPost externalContext : Option ℕ) :
    Installed SameButStandard c m (m.trapContextInstallStandardUserRuntimePolicies (some c) runtime
      timerPost timerContext externalPost externalContext).2 := by
  unfold trapContextInstallStandardUserRuntimePolicies
  have hposts := fun timer external : Option ℕ × Option ℕ =>
    (installTimerPolicy_installed m c timer.1 timer.2).trans sameButStandard_trans
      (installExternalPolicy_installed _ c external.1 external.2)
  cases runtime with
  | none => exact hposts _ _
  | some runtime =>
    simp only
    have htimer := (hposts (inheritPostHandler (m.contexts c).supervisorTimerPolicy
      timerPost timerContext) (inheritPostHandler
      (m.contexts c).supervisorExternalPolicy externalPost externalContext)).trans
      sameButStandard_trans (bindTimer_installed _ c (some runtime))
    split
    · rename_i hbind
      rw [hbind] at htimer
      exact htimer
    rename_i hbind
    rw [hbind] at htimer
    have hexternal := htimer.trans sameButStandard_trans
      (bindExternal_installed _ c (some runtime))
    split
    · rename_i hbind'
      rw [hbind'] at hexternal
      exact hexternal
    rename_i hbind'
    rw [hbind'] at hexternal
    exact hexternal.trans sameButStandard_trans
      (installRuntimeResume_installed _ c (some runtime))

theorem installEcallResume_installed (resumePc : KernelWord) (validate validateContext : Option ℕ) :
    Installed SameButStandard c m (m.trapContextInstallUserEcallResumePolicy (some c) resumePc
      validate validateContext).2 := by
  unfold trapContextInstallUserEcallResumePolicy
  split_ifs
  · exact refl sameButStandard_refl m c
  refine trans sameButStandard_trans ?_ (installExceptionHandler_installed _ c
    sameButStandard_refl _ _ _ fun _ entry => sameButStandard_ecall _ entry)
  refine update _ rfl ?_ ?_
  · exact fun _ _ => rfl
  rintro r (htimer | hexternal | hecall)
  · exact .inl (.inl htimer)
  · exact .inl (.inr (.inl hexternal))
  · cases hecall

theorem installSyscall_installed (syscalls : Option ℕ) : Installed SameButStandard c m
      (m.trapContextInstallUserSyscallPolicy (some c) syscalls).2 := by
  cases syscalls with
  | none => exact refl sameButStandard_refl m c
  | some syscalls =>
    unfold trapContextInstallUserSyscallPolicy
    dsimp only
    refine update _ rfl ?_ ?_
    · exact fun _ _ => rfl
    rintro r (htimer | hexternal | hecall)
    · exact .inl (.inl htimer)
    · exact .inl (.inr (.inl hexternal))
    · cases hecall

theorem installLinux_installed (userRuntime runtime : Option ℕ) : Installed SameButStandard c m
      (m.trapContextInstallLinuxCompatSyscallPolicy (some c) userRuntime runtime).2 := by
  unfold trapContextInstallLinuxCompatSyscallPolicy
  cases runtime with
  | none => exact refl sameButStandard_refl m c
  | some runtime =>
    have hset : ∀ user, (∀ r, user = some r → (m.runtimes r).trapContext = some c) →
        Installed SameButStandard c m (m.updateContext c fun context =>
          { context with
            userEcallPolicy :=
              { emptyUserEcallPolicy with
                userRuntime := user
                linuxRuntime := some runtime } }) := by
      intro user huser
      refine update _ rfl ?_ ?_
      · exact fun _ _ => rfl
      rintro r (htimer | hexternal | hecall)
      · exact .inl (.inl htimer)
      · exact .inl (.inr (.inl hexternal))
      · exact .inr (huser r hecall)
    cases userRuntime with
    | none => exact hset none fun r hr => (by cases hr)
    | some user =>
      simp only
      split_ifs with haccepted
      · simp only [Bool.and_eq_true] at haccepted
        refine hset (some user) fun r hr => ?_
        cases hr
        exact boundTo_trapContext m c haccepted.1
      · exact refl sameButStandard_refl m c

theorem installCrash_installed (handler handlerContext : Option ℕ) : Installed AnyChange c m
      (m.trapContextInstallUserCrashPolicy (some c) handler handlerContext).2 := by
  cases handler with
  | none => exact refl (fun _ => trivial) m c
  | some handler =>
    unfold trapContextInstallUserCrashPolicy
    dsimp only
    refine update _ rfl ?_ ?_
    · trivial
    · exact fun r hr => .inl hr

end Install

end VisualCpu
