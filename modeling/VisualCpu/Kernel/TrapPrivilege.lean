import VisualCpu.Kernel.TrapDispatch

/-!
# Privilege after a trap from user mode

Two handlers return in supervisor mode to the user's own code: the one of the course system
calls, and the one of a crash handler that accepts the exception.
-/

namespace VisualCpu

open ExceptionStage Option

variable {κ : Type}

/-- A resume pc that the kernel has set in a runtime or in a policy. -/
def ConfiguredResumePc (traps : TrapMemory) (pc : KernelWord) : Prop :=
  pc ≠ 0 ∧ ((∃ r, (traps.runtimes r).resumePc = pc) ∨
    ∃ c, (traps.contexts c).userEcallPolicy.resumePc = pc)

/-- After a trap at `epc` the return goes to user mode or to a configured pc, and never to the
trapped code in supervisor mode. -/
structure PrivilegeKept (epc : KernelWord) (m : TrapMachine κ) : Prop where
  configured : m.csrs.spp = false ∨ ConfiguredResumePc m.memory.traps m.csrs.sepc
  away : ¬ (m.csrs.spp ∧ (m.csrs.sepc = epc ∨ m.csrs.sepc = epc + 4))

open PrivilegeKept

/-- A resume pc that is set and does not lead back to the trapped code. -/
def LeadsAway (epc pc : KernelWord) : Prop := pc ≠ 0 ∧ pc ≠ epc ∧ pc ≠ epc + 4

/-- The stage that takes the exception returns to user mode, or away from the trapped code. -/
def StageKeepsPrivilege (k : TrapCallees κ) (c : ℕ) (cause epc tval : KernelWord)
    (m : TrapMachine κ) : ExceptionStage → Prop
  | .pageFault => True
  | .courseSyscall => False
  | .linuxSyscall => ∀ runtime frame, m.frame = some frame →
      (m.memory.context c).userEcallPolicy.linuxRuntime = some runtime → ∀ pc,
      (k.linuxCompatSyscallDispatch runtime frame epc m.memory).2.linuxExitPc c runtime = some pc →
      LeadsAway epc pc
  | .linuxFault => ∀ runtime user,
      (m.memory.context c).userEcallPolicy.linuxRuntime = some runtime →
      (m.memory.context c).userEcallPolicy.userRuntime = some user →
      LeadsAway epc ((k.recordUserFault runtime cause epc tval m.memory).runtime user).resumePc
  | .userCrash => False
  | .installed => ∀ h : cause.toNat < 16,
      ((m.memory.context c).exceptionHandlers ⟨cause.toNat, h⟩).handler =
        some .defaultUserEcallResume →
      ∀ pc memory, ecallResume k cause epc tval m.csrs
        ((m.memory.context c).exceptionHandlers ⟨cause.toNat, h⟩).context m.memory =
          some (pc, memory) →
      LeadsAway epc pc

/-- The trap is an interrupt, or the stage that takes it keeps the privilege. -/
def TrapKeepsPrivilege (k : TrapCallees κ) (m : TrapMachine κ) : Prop :=
  ∀ c stage m' m'', m.memory.traps.activeTrapContext = some c →
    m.csrs.scause &&& RISCV_INTERRUPT_BIT = 0 →
    takenBy k c (m.csrs.scause &&& ~~~RISCV_INTERRUPT_BIT) m.csrs.sepc m.csrs.stval m
      ExceptionStage.order = some (stage, m', m'') →
    StageKeepsPrivilege k c (m.csrs.scause &&& ~~~RISCV_INTERRUPT_BIT) m.csrs.sepc m.csrs.stval m'
      stage

namespace PrivilegeKept

variable {epc pc : KernelWord} {m : TrapMachine κ}

theorem user (hspp : m.csrs.spp = false) : PrivilegeKept epc m :=
  ⟨.inl hspp, fun h => by rw [hspp] at h; exact Bool.noConfusion h.1⟩

theorem supervisor_iff (hspp : m.csrs.spp) (hsepc : m.csrs.sepc = pc)
    (hconfigured : (∃ r, (m.memory.traps.runtimes r).resumePc = pc) ∨
      ∃ c, (m.memory.traps.contexts c).userEcallPolicy.resumePc = pc) :
    PrivilegeKept epc m ↔ LeadsAway epc pc := by
  constructor
  · rintro ⟨hkept, haway⟩
    rw [hsepc] at hkept haway
    rcases hkept with huser | ⟨hset, _⟩
    · rw [hspp] at huser
      cases huser
    · exact ⟨hset, fun heq => haway ⟨hspp, .inl heq⟩, fun heq => haway ⟨hspp, .inr heq⟩⟩
  · rintro ⟨hset, htrapped, hnext⟩
    refine ⟨.inr ⟨by rw [hsepc]; exact hset, by rw [hsepc]; exact hconfigured⟩, ?_⟩
    rw [hsepc]
    rintro ⟨_, heq | heq⟩
    · exact htrapped heq
    · exact hnext heq

theorem not_of_next (hspp : m.csrs.spp) (hsepc : m.csrs.sepc = epc + 4) :
    ¬ PrivilegeKept epc m := fun h => h.away ⟨hspp, .inr hsepc⟩

end PrivilegeKept

section Stages

variable {k : TrapCallees κ} {c : ℕ} {cause epc tval : KernelWord} {m m' : TrapMachine κ}
  {taken : Bool}

theorem handleUserSyscallPolicy_cases
    (h : handleUserSyscallPolicy k c cause epc tval m = some (taken, m')) :
    (taken = false ∧ m' = m) ∨ (taken ∧ m'.csrs = m.csrs.resumeSupervisor (epc + 4)) := by
  unfold handleUserSyscallPolicy at h
  split at h
  · cases h
    exact .inl ⟨rfl, rfl⟩
  split at h
  · cases h
  split at h
  · cases h
    exact .inr ⟨rfl, rfl⟩
  · cases h

theorem handleLinuxCompatSyscallPolicy_cases
    (h : handleLinuxCompatSyscallPolicy k c cause epc tval m = some (taken, m')) :
    (taken = false ∧ m' = m) ∨ ∃ runtime frame,
      (m.memory.context c).userEcallPolicy.linuxRuntime = some runtime ∧
      m.frame = some frame ∧ taken ∧
      m'.memory = (k.linuxCompatSyscallDispatch runtime frame epc m.memory).2 ∧
      m'.csrs = match m'.memory.linuxExitPc c runtime with
        | some pc => m.csrs.resumeSupervisor pc
        | none => m.csrs.resumeUser (epc + 4) := by
  unfold handleLinuxCompatSyscallPolicy at h
  split at h
  · cases h
    exact .inl ⟨rfl, rfl⟩
  rename_i runtime hruntime
  split at h
  · cases h
  rename_i frame hframe
  split at h
  · cases h
    exact .inr ⟨runtime, frame, hruntime, hframe, rfl, rfl, rfl⟩
  · cases h

variable {stage : ExceptionStage} {pc : KernelWord}

theorem attempt_csrs
    (h : stage.attempt k c cause epc tval m = some (false, m')) : m'.csrs = m.csrs := by
  cases stage with
  | pageFault =>
    simp only [attempt, handlePageFault] at h
    split at h
    · split at h <;> cases h
      rfl
    cases h
    rfl
  | courseSyscall =>
    simp only [attempt] at h
    split at h
    · rcases handleUserSyscallPolicy_cases h with ⟨_, rfl⟩ | ⟨htaken, _⟩
      · rfl
      · cases htaken
    · cases h
      rfl
  | linuxSyscall =>
    simp only [attempt] at h
    split at h
    · rcases handleLinuxCompatSyscallPolicy_cases h with
        ⟨_, rfl⟩ | ⟨runtime, frame, _, _, htaken, _⟩
      · rfl
      · cases htaken
    · cases h
      rfl
  | linuxFault =>
    simp only [attempt, handleLinuxCompatUserFaultPolicy] at h
    split at h
    · split_ifs at h <;> cases h
      rfl
    cases h
    rfl
  | userCrash =>
    simp only [attempt, handleUserCrashPolicy] at h
    split at h
    · cases h
      rfl
    split_ifs at h
    · split at h <;> cases h
      rfl
    cases h
    rfl
  | installed =>
    simp only [attempt, dispatchInstalledException] at h
    split_ifs at h
    split at h
    · cases h
    · simp at h
    · simp at h

theorem ecallResume_configured {csrs : TrapCsrs} {context : Option ℕ}
    {memory memory' : KernelMemory κ}
    (h : ecallResume k cause epc tval csrs context memory = some (pc, memory')) :
    (∃ r, (memory'.traps.runtimes r).resumePc = pc) ∨
      ∃ c, (memory'.traps.contexts c).userEcallPolicy.resumePc = pc := by
  unfold ecallResume at h
  split at h
  · cases h
  rename_i c
  split_ifs at h
  split at h
  · rename_i user _
    simp only at h
    split_ifs at h
    split at h
    · cases h
      exact .inl ⟨user, rfl⟩
    split at h
    · cases h
      exact .inl ⟨user, rfl⟩
    · cases h
  · simp only at h
    split_ifs at h
    split at h
    · cases h
      exact .inr ⟨c, rfl⟩
    split at h
    · cases h
      exact .inr ⟨c, rfl⟩
    · cases h

theorem linuxExitPc_configured {memory : KernelMemory κ} {runtime : ℕ}
    (h : memory.linuxExitPc c runtime = some pc) :
    ∃ r, (memory.traps.runtimes r).resumePc = pc := by
  unfold KernelMemory.linuxExitPc at h
  split_ifs at h
  split at h
  · cases h
  rename_i user _
  split_ifs at h
  cases h
  exact ⟨user, rfl⟩

theorem attempt_keeps_iff (hspp : m.csrs.spp = false)
    (h : stage.attempt k c cause epc tval m = some (true, m')) :
    PrivilegeKept epc m' ↔ StageKeepsPrivilege k c cause epc tval m stage := by
  cases stage with
  | pageFault =>
    have hkept : m'.csrs.spp = false := by
      simp only [attempt, handlePageFault] at h
      split at h
      · split at h <;> cases h
        · exact hspp
        · exact hspp
      · cases h
    exact ⟨fun _ => trivial, fun _ => user hkept⟩
  | courseSyscall =>
    simp only [attempt] at h
    split at h
    · rcases handleUserSyscallPolicy_cases h with ⟨hpassed, _⟩ | ⟨_, hcsrs⟩
      · cases hpassed
      refine iff_of_false (not_of_next ?_ ?_) id
      · rw [hcsrs, TrapCsrs.spp_resumeSupervisor]
      · rw [hcsrs, TrapCsrs.sepc_resumeSupervisor]
    · cases h
  | linuxSyscall =>
    simp only [attempt] at h
    split at h
    · rcases handleLinuxCompatSyscallPolicy_cases h with
        ⟨hpassed, _⟩ | ⟨runtime, frame, hruntime, hframe, _, hmemory, hcsrs⟩
      · cases hpassed
      have hcases : StageKeepsPrivilege k c cause epc tval m .linuxSyscall ↔ ∀ pc,
          m'.memory.linuxExitPc c runtime = some pc → LeadsAway epc pc := by
        rw [hmemory]
        constructor
        · intro hkeeps
          exact hkeeps runtime frame hframe hruntime
        intro hkeeps runtime' frame' hframe' hruntime'
        rw [hframe, some.injEq] at hframe'
        rw [hruntime, some.injEq] at hruntime'
        rw [← hframe', ← hruntime']
        exact hkeeps
      rw [hcases]
      cases hexit : m'.memory.linuxExitPc c runtime with
      | none =>
        rw [hexit] at hcsrs
        refine ⟨fun _ pc hpc => (by cases hpc), fun _ => user ?_⟩
        rw [hcsrs, TrapCsrs.spp_resumeUser]
      | some pc =>
        rw [hexit] at hcsrs
        rw [supervisor_iff (by rw [hcsrs, TrapCsrs.spp_resumeSupervisor])
          (by rw [hcsrs, TrapCsrs.sepc_resumeSupervisor])
          (.inl (linuxExitPc_configured hexit))]
        simp
    · cases h
  | linuxFault =>
    simp only [attempt, handleLinuxCompatUserFaultPolicy] at h
    split at h
    · rename_i runtime user hruntime huser
      split_ifs at h
      · cases h
      cases h
      rw [supervisor_iff (by simp) rfl (.inl ⟨user, rfl⟩)]
      constructor
      · intro haway runtime' user' hruntime' huser'
        rw [hruntime, some.injEq] at hruntime'
        rw [huser, some.injEq] at huser'
        rw [← hruntime', ← huser']
        exact haway
      · intro hkeeps
        exact hkeeps runtime user hruntime huser
    · cases h
  | userCrash =>
    simp only [attempt, handleUserCrashPolicy] at h
    split at h
    · cases h
    split_ifs at h
    · split at h
      · cases h
      · cases h
      cases h
      exact iff_of_false (not_of_next (by simp) rfl) id
    · cases h
  | installed =>
    simp only [attempt, dispatchInstalledException] at h
    split_ifs at h with hcause
    split at h
    · cases h
    · rename_i f hhandler
      obtain ⟨memory, _, heq⟩ := map_eq_some_iff.1 h
      cases heq
      refine ⟨fun _ _ hdefault => ?_, fun _ => user hspp⟩
      rw [hhandler] at hdefault
      cases hdefault
    · rename_i hhandler
      obtain ⟨⟨pc, memory⟩, hresume, heq⟩ := map_eq_some_iff.1 h
      cases heq
      rw [supervisor_iff (by simp) rfl (ecallResume_configured hresume)]
      constructor
      · intro haway _ _ pc' memory' hresume'
        rw [hresume] at hresume'
        cases hresume'
        exact haway
      · intro hkeeps
        exact hkeeps hcause hhandler pc memory hresume

theorem takenBy_spec {stages : List ExceptionStage}
    {m₁ m₂ : TrapMachine κ} (h : takenBy k c cause epc tval m stages = some (stage, m₁, m₂)) :
    m₁.csrs = m.csrs ∧ stage.attempt k c cause epc tval m₁ = some (true, m₂) := by
  induction stages generalizing m with
  | nil => cases h
  | cons first stages ih =>
    unfold takenBy at h
    split at h
    · cases h
    · rename_i hattempt
      cases h
      exact ⟨rfl, hattempt⟩
    · rename_i m' hattempt
      obtain ⟨hcsrs, htaken⟩ := ih h
      exact ⟨hcsrs.trans (attempt_csrs hattempt), htaken⟩

theorem dispatchInstalledInterrupt_csrs
    (h : dispatchInstalledInterrupt k c cause m = some m') : m'.csrs = m.csrs := by
  unfold dispatchInstalledInterrupt at h
  split_ifs at h
  simp only at h
  split at h
  · cases h
  all_goals
    obtain ⟨memory, _, heq⟩ := map_eq_some_iff.1 h
    cases heq
    rfl

end Stages

/-- A trap from user mode returns without supervisor privilege for user code exactly when the
stage that takes it does. -/
theorem dispatch_privilegeKept_iff (k : TrapCallees κ) (m m' : TrapMachine κ)
    (hspp : m.csrs.spp = false) (h : supervisorTrapDispatchWithFrame k m = some m') :
    PrivilegeKept m.csrs.sepc m' ↔ TrapKeepsPrivilege k m := by
  unfold supervisorTrapDispatchWithFrame at h
  split at h
  · cases h
  rename_i c hactive
  by_cases hexception : m.csrs.scause &&& RISCV_INTERRUPT_BIT = 0
  · rw [if_pos hexception] at h
    obtain ⟨⟨stage, m₁, m₂⟩, htaken, heq⟩ := Option.map_eq_some_iff.1 h
    cases heq
    obtain ⟨hcsrs, hattempt⟩ := takenBy_spec htaken
    rw [attempt_keeps_iff (by rw [hcsrs]; exact hspp) hattempt]
    constructor
    · intro hkeeps c' stage' m₁' m₂' hactive' _ htaken'
      rw [hactive, Option.some.injEq] at hactive'
      subst hactive'
      rw [htaken] at htaken'
      cases htaken'
      exact hkeeps
    · intro hkeeps
      exact hkeeps c stage m₁ m₂ hactive hexception htaken
  · rw [if_neg hexception] at h
    have hcsrs := dispatchInstalledInterrupt_csrs h
    refine iff_of_true (user (by rw [hcsrs]; exact hspp)) ?_
    intro _ _ _ _ _ hzero
    exact absurd hzero hexception

def idleCallees : TrapCallees Unit where
  vmHandlePageFault _ _ _ _ _ memory := (.unhandled, memory)
  courseSyscallDispatch _ _ _ _ _ _ memory := (0, memory)
  linuxCompatSyscallDispatch _ _ _ memory := (0, memory)
  recordUserFault _ _ _ _ memory := memory
  crashHandler _ _ _ _ _ memory := some (true, memory)
  ecallValidate _ _ _ _ memory := some (true, memory)
  runtimeValidate _ _ _ _ _ memory := some (true, memory)
  exceptionHandler _ _ _ _ _ memory := some memory
  interruptHandler _ _ _ memory := some memory
  externalPostHandler _ _ _ _ memory := some memory
  timerHandleInterrupt memory := memory
  plicSupervisorClaim memory := (0, memory)
  plicSupervisorComplete _ memory := memory

/-- A user `ecall` at `0x7000` under an `ecall` policy. -/
def userEcall (policy : UserEcallPolicy) : TrapMachine Unit where
  csrs := { scause := 8, sepc := 0x7000, stval := 0, sstatus := RISCV_SSTATUS_SPIE }
  frame := some { a0 := 1, a1 := 0x2000, a2 := 5, a3 := 9, a4 := 0, a5 := 0, a7 := 64 }
  memory :=
    { traps :=
        { TrapMemory.init
            (fun _ => { addressSpace := none, entryPc := 0, userSp := 0
                        userRegions := fun _ _ => false })
            (fun _ => { allocated := false, rootTable := 0, satpValue := 0, enabled := false }) with
          contexts := fun _ => { TrapContext.cleared with userEcallPolicy := policy }
          activeTrapContext := some 0 }
      exited := fun _ => false
      words := fun _ _ => 0
      rest := () }

def linuxPolicy : UserEcallPolicy := { emptyUserEcallPolicy with linuxRuntime := some 0 }

def coursePolicy : UserEcallPolicy := { emptyUserEcallPolicy with syscalls := some 0 }

theorem linuxEcall_privilegeKept_iff : ∃ m',
    supervisorTrapDispatchWithFrame idleCallees (userEcall linuxPolicy) = some m' ∧
    (PrivilegeKept (userEcall linuxPolicy).csrs.sepc m' ↔
      TrapKeepsPrivilege idleCallees (userEcall linuxPolicy)) :=
  ⟨_, rfl, dispatch_privilegeKept_iff _ _ _ rfl rfl⟩

/-- A course system call returns in supervisor mode to the instruction after the `ecall`. -/
theorem courseEcall_escalates : ¬ ∀ (κ : Type) (k : TrapCallees κ) (m m' : TrapMachine κ),
    m.csrs.spp = false → supervisorTrapDispatchWithFrame k m = some m' →
      PrivilegeKept m.csrs.sepc m' := by
  intro hall
  have hkept := hall Unit idleCallees (userEcall coursePolicy) _ rfl rfl
  exact hkept.away ⟨rfl, .inr rfl⟩

end VisualCpu
