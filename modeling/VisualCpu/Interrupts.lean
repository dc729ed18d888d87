import VisualCpu.TrapEntry
import VisualCpu.Pipeline.Backend
import Mathlib.Data.Set.Finite.Lemmas

/-!
# Interrupt selection

`Highest` states the rule of the architecture for the interrupt to take, from
the mode and the four registers it depends on. The selection of the trap
controller looks at four of the six sources and expects the supervisor ones to
be delegated; it agrees with the rule exactly where `Served` holds.
-/

namespace VisualCpu

open Csr Bool Option

/-- The machine and supervisor external, software and timer interrupts. -/
inductive InterruptSource where
  | mei | msi | mti | sei | ssi | sti
deriving DecidableEq

open InterruptSource

namespace InterruptSource

instance : Fintype InterruptSource where
  elems := {.mei, .msi, .mti, .sei, .ssi, .sti}
  complete i := by cases i <;> decide

def code : InterruptSource → ℕ
  | .mei => 11
  | .msi => 3
  | .mti => 7
  | .sei => 9
  | .ssi => 1
  | .sti => 5

variable (i : InterruptSource)

def mask : BitVec 64 := 1#64 <<< i.code

def cause : BitVec 64 := causeIntBit ||| BitVec.ofNat 64 i.code

/-- Position in the order of decreasing priority. -/
def rank : InterruptSource → ℕ
  | .mei => 0
  | .msi => 1
  | .mti => 2
  | .sei => 3
  | .ssi => 4
  | .sti => 5

/-- The request that the trap controller makes for a source. -/
def request : PendingInterrupt := ⟨i.cause, i.mask⟩

theorem rank_lt : i.rank < 6 := by
  cases i <;> decide

theorem rank_injective : Function.Injective rank := by
  intro i j h
  revert h
  cases i <;> cases j <;> decide

theorem cause_injective : Function.Injective cause := by
  intro i j h
  revert h
  cases i <;> cases j <;> decide

theorem code_lt : i.code < 64 := by
  cases i <;> decide

theorem testMask_mask (v : BitVec 64) (i : InterruptSource) :
    testMask v i.mask = v.getLsbD i.code :=
  testMask_iff i.code_lt

end InterruptSource

/-- What the interrupt rules look at. -/
structure InterruptState where
  mode : PrivilegeMode
  (mstatus mie mip mideleg : BitVec 64)

open InterruptState

namespace InterruptState

variable (s : InterruptState) (i j : InterruptSource)

def delegated : Bool := testMask s.mideleg i.mask

/-- Pending and enabled individually. -/
def raised : Bool := testMask s.mip i.mask && testMask s.mie i.mask

/-- The level that handles the source admits interrupts: the mode is below it, or
equal to it with the enable bit of the level set. -/
def enabled : Bool :=
  if s.delegated i then
    s.mode == .user || s.mode == .supervisor && testMask s.mstatus Mstatus.sie
  else s.mode != .machine || testMask s.mstatus Mstatus.mie

def takeable : Bool := s.raised i && s.enabled i

/-- Smaller is taken first: sources bound for machine mode, then the order of sources. -/
def priority : ℕ := (if s.delegated i then 6 else 0) + i.rank

/-- The takeable interrupt of highest priority. -/
def Highest : Prop := s.takeable i ∧ ∀ j, s.takeable j → s.priority i ≤ s.priority j

/-- The sources that the trap controller looks at. -/
def Served : Prop := i = .mei ∨ i = .mti ∨ s.delegated i ∧ (i = .sei ∨ i = .sti)

/-- Only the supervisor sources can be delegated. -/
def MachineSourcesKept : Prop := ∀ i, i = .mei ∨ i = .msi ∨ i = .mti → s.delegated i = false

def select : Option PendingInterrupt :=
  selectServiceableInterrupt s.mode s.mstatus s.mie s.mip s.mideleg

variable {s i j}

theorem enabled_of_delegated (h : s.delegated i) :
    s.enabled i = supervisorInterruptsEnabled s.mode s.mstatus := by
  unfold enabled supervisorInterruptsEnabled
  rw [if_pos h]
  cases s.mode <;> rfl

theorem enabled_of_not_delegated (h : s.delegated i = false) :
    s.enabled i = machineInterruptsEnabled s.mode s.mstatus := by
  unfold enabled machineInterruptsEnabled
  rw [if_neg (by simp [h])]
  cases s.mode <;> rfl

theorem priority_injective : Function.Injective s.priority := by
  intro i j h
  have hi := i.rank_lt
  have hj := j.rank_lt
  apply rank_injective
  unfold priority at h
  split_ifs at h <;> omega

theorem Highest.unique (hi : s.Highest i) (hj : s.Highest j) : i = j :=
  priority_injective (le_antisymm (hi.2 j hj.1) (hj.2 i hi.1))

theorem exists_highest (h : s.takeable i) : ∃ k, s.Highest k := by
  obtain ⟨k, hk, hmin⟩ := Set.exists_min_image {k | s.takeable k} s.priority
    (Set.toFinite _) ⟨i, h⟩
  exact ⟨k, hk, fun j hj => hmin j hj⟩

theorem select_eq (hkept : s.MachineSourcesKept) : s.select =
      if s.takeable .mei then some mei.request
      else if s.takeable .mti then some mti.request
      else if s.delegated .sei && s.takeable .sei then some sei.request
      else if s.delegated .sti && s.takeable .sti then some sti.request
      else none := by
  have hmei : s.takeable .mei = (testMask s.mie Mie.meie && testMask s.mip Mie.meie &&
      machineInterruptsEnabled s.mode s.mstatus) := by
    rw [takeable, raised, enabled_of_not_delegated (hkept .mei (by simp))]
    exact congrArg (· && _) (Bool.and_comm _ _)
  have hmti : s.takeable .mti = (testMask s.mie Mie.mtie && testMask s.mip Mie.mtie &&
      machineInterruptsEnabled s.mode s.mstatus) := by
    rw [takeable, raised, enabled_of_not_delegated (hkept .mti (by simp))]
    exact congrArg (· && _) (Bool.and_comm _ _)
  have hdeleg : ∀ i, (s.delegated i && s.takeable i) = (testMask s.mideleg i.mask &&
      testMask s.mie i.mask && testMask s.mip i.mask &&
      supervisorInterruptsEnabled s.mode s.mstatus) := by
    intro i
    cases h : s.delegated i with
    | false =>
      have : testMask s.mideleg i.mask = false := h
      simp [this]
    | true =>
      have : testMask s.mideleg i.mask := h
      rw [takeable, raised, enabled_of_delegated h, this, Bool.true_and, Bool.true_and]
      exact congrArg (· && _) (Bool.and_comm _ _)
  rw [hmei, hmti, hdeleg, hdeleg]
  rfl

theorem select_takeable (hkept : s.MachineSourcesKept) {p : PendingInterrupt}
    (h : s.select = some p) : ∃ i, s.Served i ∧ s.takeable i ∧ p = i.request := by
  rw [select_eq hkept] at h
  split_ifs at h with hmei hmti hsei hsti
  · exact ⟨.mei, .inl rfl, hmei, (some.inj h).symm⟩
  · exact ⟨.mti, .inr (.inl rfl), hmti, (some.inj h).symm⟩
  · rw [and_eq_true] at hsei
    exact ⟨.sei, .inr (.inr ⟨hsei.1, .inl rfl⟩), hsei.2, (some.inj h).symm⟩
  · rw [and_eq_true] at hsti
    exact ⟨.sti, .inr (.inr ⟨hsti.1, .inr rfl⟩), hsti.2, (some.inj h).symm⟩

theorem Highest.not_takeable (hi : s.Highest i) (hlt : s.priority j < s.priority i) :
    s.takeable j = false := by
  by_contra h
  have := hi.2 j (by simpa using h)
  omega

theorem select_highest (hkept : s.MachineSourcesKept) (hi : s.Highest i) (hserved : s.Served i) :
    s.select = some i.request := by
  rw [select_eq hkept]
  have hmei : s.priority .mei = 0 := by
    simp [priority, hkept .mei (by simp), rank]
  have hmti : s.priority .mti = 2 := by
    simp [priority, hkept .mti (by simp), rank]
  rcases hserved with rfl | rfl | ⟨hdeleg, rfl | rfl⟩
  · rw [if_pos hi.1]
  · have hno := hi.not_takeable (j := .mei) (by omega)
    rw [if_neg (by simp [hno]), if_pos hi.1]
  · have hprio : s.priority .sei = 9 := by
      simp [priority, hdeleg, rank]
    have hno := hi.not_takeable (j := .mei) (by omega)
    have hno' := hi.not_takeable (j := .mti) (by omega)
    rw [if_neg (by simp [hno]), if_neg (by simp [hno']), if_pos (by simp [hdeleg, hi.1])]
  · have hprio : s.priority .sti = 11 := by
      simp [priority, hdeleg, rank]
    have hno := hi.not_takeable (j := .mei) (by omega)
    have hno' := hi.not_takeable (j := .mti) (by omega)
    have hsei : (s.delegated .sei && s.takeable .sei) = false := by
      cases hd : s.delegated .sei with
      | false => rfl
      | true =>
        have hprio' : s.priority .sei = 9 := by
          simp [priority, hd, rank]
        exact hi.not_takeable (by omega)
    rw [if_neg (by simp [hno]), if_neg (by simp [hno']), if_neg (by simp [hsei]),
      if_pos (by simp [hdeleg, hi.1])]

/-- The interrupt to take, if there is one, is one that the trap controller serves. -/
def AllServed (s : InterruptState) : Prop := ∀ i, s.Highest i → s.Served i

end InterruptState

namespace Cpu

variable {D : Type} [Devices D] (cpu : Cpu D)

def interruptState : InterruptState where
  mode := cpu.core.privilegeMode
  mstatus := cpu.readCsr Csr.mstatus
  mie := cpu.readCsr Csr.mie
  mip := cpu.readCsr Csr.mip
  mideleg := cpu.readCsr Csr.mideleg

theorem machineSourcesKept : cpu.interruptState.MachineSourcesKept := by
  intro i hi
  have hmask : CsrFile.midelegMask &&& i.mask = 0 := by
    rcases hi with rfl | rfl | rfl <;> decide
  change testMask (cpu.csr.regs mideleg &&& CsrFile.midelegMask) i.mask = false
  unfold testMask
  rw [BitVec.and_assoc, hmask]
  simp

variable (i : InterruptSource)

/-- The level that handles an interrupt source, as `mideleg` prescribes it. -/
def interruptLevel : PrivilegeMode :=
  if cpu.interruptState.delegated i then .supervisor else .machine

theorem trapLevel_cause {i : InterruptSource} (h : cpu.interruptState.takeable i) :
    cpu.trapLevel i.cause = cpu.interruptLevel i := by
  have hcode : isInterruptCause i.cause ∧ 1#64 <<< (interruptCauseCode i.cause).toNat = i.mask := by
    cases i <;> decide
  have hdeleg : cpu.delegatedToSupervisor i.cause =
      (cpu.core.privilegeMode != .machine && cpu.interruptState.delegated i) := by
    unfold delegatedToSupervisor
    rw [if_pos hcode.1, hcode.2]
    rfl
  unfold trapLevel interruptLevel
  rw [hdeleg]
  cases hd : cpu.interruptState.delegated i with
  | false => simp
  | true =>
    -- a delegated source is never takeable in machine mode
    have henabled : cpu.interruptState.enabled i := (and_eq_true _ _ ▸ h).2
    have hmode : cpu.core.privilegeMode ≠ .machine := by
      intro hm
      rw [enabled_of_delegated hd] at henabled
      simp [interruptState, hm, supervisorInterruptsEnabled] at henabled
    simp [hmode]

def clearPending : Cpu D :=
  cpu.writeCsr Csr.mip (cpu.readCsr Csr.mip &&& ~~~i.mask)

def takeInterrupt : Cpu D := (cpu.clearPending i).enterInterrupt i.cause

theorem servicePendingInterrupts_eq_some {taken : Cpu D}
    (h : cpu.servicePendingInterrupts = some taken) :
    ∃ i, cpu.interruptState.Served i ∧ cpu.interruptState.takeable i ∧
      taken = cpu.takeInterrupt i := by
  obtain ⟨p, hp, rfl⟩ := map_eq_some_iff.1 h
  obtain ⟨i, hserved, htake, rfl⟩ := select_takeable cpu.machineSourcesKept hp
  exact ⟨i, hserved, htake, rfl⟩

theorem servicePendingInterrupts_of_select {i : InterruptSource}
    (h : cpu.interruptState.select = some i.request) :
    cpu.servicePendingInterrupts = some (cpu.takeInterrupt i) := by
  have hsel : cpu.serviceableInterrupt = some i.request := h
  rw [servicePendingInterrupts, hsel]
  rfl

theorem takeInterrupt_enters {i : InterruptSource} (h : cpu.interruptState.takeable i) :
    EntersTrap cpu (cpu.takeInterrupt i) (cpu.interruptLevel i) i.cause 0 := by
  have hlevel : (cpu.clearPending i).trapLevel i.cause = cpu.interruptLevel i :=
    cpu.trapLevel_cause h
  have henter := (cpu.clearPending i).enterTrap_enters i.cause 0
  rw [hlevel] at henter
  cases hl : cpu.interruptLevel i <;> rw [hl] at henter <;>
    exact ⟨henter.mode_eq, henter.epc_eq, henter.cause_eq, henter.tval_eq, henter.vector,
      henter.previousMode, henter.previousEnable, henter.enable⟩

theorem clearPending_mip (i j : InterruptSource)
    (h : testMask ((cpu.clearPending i).readCsr mip) j.mask) :
    testMask (cpu.readCsr mip) j.mask := by
  have hread : ∀ c : Cpu D, c.readCsr mip =
      if c.csr.stimecmpPending c.addressSpace.bus.mtime c.core
      then c.csr.regs mip &&& CsrFile.mipMieMask ||| Mie.stie
      else c.csr.regs mip &&& CsrFile.mipMieMask := fun _ => rfl
  have hstored : (cpu.clearPending i).csr.regs mip =
      cpu.readCsr mip &&& ~~~i.mask &&& CsrFile.mipMieMask := rfl
  have hpending : (cpu.clearPending i).csr.stimecmpPending
      (cpu.clearPending i).addressSpace.bus.mtime (cpu.clearPending i).core =
      cpu.csr.stimecmpPending cpu.addressSpace.bus.mtime cpu.core := rfl
  rw [hread, hpending, hstored, testMask_mask] at h
  rw [testMask_mask]
  rw [hread] at h ⊢
  split_ifs at h ⊢ with hp
  · simp only [BitVec.getLsbD_or, BitVec.getLsbD_and, or_eq_true, and_eq_true] at h ⊢
    tauto
  simp only [BitVec.getLsbD_and, and_eq_true] at h ⊢
  tauto

theorem takeInterrupt_interruptState {i : InterruptSource} (h : cpu.interruptState.takeable i) :
    (cpu.takeInterrupt i).interruptState =
      { mode := cpu.interruptLevel i
        mstatus := (cpu.takeInterrupt i).readCsr mstatus
        mie := cpu.readCsr mie
        mip := (cpu.clearPending i).readCsr mip
        mideleg := cpu.readCsr mideleg } := by
  have hmode := (cpu.takeInterrupt_enters h).mode_eq
  have hmie : (cpu.takeInterrupt i).readCsr mie = cpu.readCsr mie := by
    unfold takeInterrupt enterInterrupt enterTrap
    split_ifs <;> rfl
  have hmip : (cpu.takeInterrupt i).readCsr mip = (cpu.clearPending i).readCsr mip := by
    unfold takeInterrupt enterInterrupt enterTrap
    split_ifs <;> rfl
  have hmideleg : (cpu.takeInterrupt i).readCsr mideleg = cpu.readCsr mideleg := by
    unfold takeInterrupt enterInterrupt enterTrap
    split_ifs <;> rfl
  rw [interruptState, hmode, hmie, hmip, hmideleg]

theorem takeInterrupt_quiet {i : InterruptSource} (hi : cpu.interruptState.Highest i)
    (j : InterruptSource) : (cpu.takeInterrupt i).interruptState.takeable j = false := by
  have henter := cpu.takeInterrupt_enters hi.1
  have hstate := cpu.takeInterrupt_interruptState hi.1
  have hdeleg : ∀ k, (cpu.takeInterrupt i).interruptState.delegated k =
      cpu.interruptState.delegated k := by
    intro k
    rw [hstate]
    rfl
  have hraised : (cpu.takeInterrupt i).interruptState.raised j → cpu.interruptState.raised j := by
    rw [hstate]
    simp only [raised, and_eq_true]
    rintro ⟨hmip, hmie⟩
    exact ⟨cpu.clearPending_mip i j hmip, hmie⟩
  have henable := henter.enable
  by_contra hj
  rw [not_eq_false] at hj
  obtain ⟨hjraised, hjenabled⟩ := (and_eq_true _ _).mp hj
  have hmode : (cpu.takeInterrupt i).interruptState.mode = cpu.interruptLevel i := henter.mode_eq
  have hstatus : (cpu.takeInterrupt i).interruptState.mstatus =
      (cpu.takeInterrupt i).readCsr mstatus := rfl
  unfold enabled at hjenabled
  rw [hdeleg, hmode, hstatus] at hjenabled
  cases hi' : cpu.interruptState.delegated i with
  | false =>
    -- machine mode with its interrupts disabled
    have hlevel : cpu.interruptLevel i = .machine := by
      simp [interruptLevel, hi']
    rw [hlevel] at hjenabled henable
    have hmie : testMask ((cpu.takeInterrupt i).readCsr mstatus) Mstatus.mie = false := henable
    simp [hmie] at hjenabled
  | true =>
    have hlevel : cpu.interruptLevel i = .supervisor := by
      simp [interruptLevel, hi']
    rw [hlevel] at hjenabled henable
    have hsie : testMask ((cpu.takeInterrupt i).readCsr mstatus) Mstatus.sie = false := henable
    cases hj' : cpu.interruptState.delegated j with
    | true => simp [hj', hsie] at hjenabled
    | false =>
      -- it was takeable before, with a higher priority
      have hienabled : cpu.interruptState.enabled i := ((and_eq_true _ _).mp hi.1).2
      have hbelow : cpu.core.privilegeMode ≠ .machine := by
        intro hm
        rw [enabled_of_delegated hi'] at hienabled
        simp [interruptState, hm, supervisorInterruptsEnabled] at hienabled
      have htake : cpu.interruptState.takeable j := by
        unfold takeable enabled
        rw [hraised hjraised, hj']
        simp [interruptState, hbelow]
      have hle := hi.2 j htake
      have hrank := j.rank_lt
      simp only [priority, hi', hj', if_true] at hle
      simp at hle
      omega

end Cpu

namespace FunctionalBackend

section

variable {D : Type} [Devices D]

/-- The processor after the platform tick of a step, where interrupts are chosen. -/
def ticked (backend : FunctionalBackend D) : Cpu D :=
  backend.cpu.tickBus.2.syncPlatformEvents backend.cpu.tickBus.1

def aboutToExecute (backend : FunctionalBackend D) : Cpu D :=
  backend.handleInterruptAndRecordProfile.cpu

variable (backend : FunctionalBackend D) {cpu : Cpu D}

theorem aboutToExecute_eq :
    backend.aboutToExecute = backend.ticked.servicePendingInterrupts.getD backend.ticked := by
  unfold aboutToExecute handleInterruptAndRecordProfile ticked
  rcases backend.cpu.tickBus with ⟨events, ticked⟩
  dsimp only
  cases (ticked.syncPlatformEvents events).servicePendingInterrupts <;> rfl

theorem ticked_core : backend.ticked.core = backend.cpu.core := by
  unfold ticked Cpu.syncPlatformEvents Cpu.raiseTimerInterrupt Cpu.clearTimerInterrupt
  split_ifs <;> rfl

theorem step_of_fault [Fpu] {fault : TrapRequest}
    (h : backend.aboutToExecute.fetchInstruction backend.aboutToExecute.core.pc =
      (.error fault, cpu)) :
    backend.step = backend.handleInterruptAndRecordProfile.recordTrap (cpu.enterException fault)
      backend.aboutToExecute.core.pc 0 := by
  unfold aboutToExecute at h
  unfold step stepInstruction
  dsimp only
  rw [h]
  rfl

theorem step_of_fetched [Fpu] {raw : BitVec 32}
    (h : backend.aboutToExecute.fetchInstruction backend.aboutToExecute.core.pc = (.ok raw, cpu)) :
    backend.step = backend.handleInterruptAndRecordProfile.executeFetched cpu raw := by
  unfold aboutToExecute at h
  unfold step stepInstruction
  dsimp only
  rw [h]

/-- A step takes interrupts as the architecture says: no source is takeable when the
instruction executes, and an interrupt taken is the takeable one of highest
priority, entered at the level that `mideleg` prescribes. -/
structure TakesInterrupts (backend : FunctionalBackend D) : Prop where
  quiet : ∀ i, backend.aboutToExecute.interruptState.takeable i = false
  taken : ∀ cpu, backend.ticked.servicePendingInterrupts = some cpu →
    ∃ i, backend.ticked.interruptState.Highest i ∧
      Cpu.EntersTrap backend.ticked cpu (backend.ticked.interruptLevel i) i.cause 0

theorem takesInterrupts_of_allServed {backend : FunctionalBackend D}
    (h : backend.ticked.interruptState.AllServed) : backend.TakesInterrupts := by
  have hkept := backend.ticked.machineSourcesKept
  by_cases hany : ∃ i, backend.ticked.interruptState.takeable i
  · obtain ⟨i, hi⟩ := exists_highest hany.choose_spec
    have hservice := backend.ticked.servicePendingInterrupts_of_select
      (select_highest hkept hi (h i hi))
    refine ⟨fun j => ?_, fun cpu hcpu => ?_⟩
    · rw [aboutToExecute_eq, hservice]
      exact backend.ticked.takeInterrupt_quiet hi j
    rw [hservice, some.injEq] at hcpu
    subst hcpu
    exact ⟨i, hi, backend.ticked.takeInterrupt_enters hi.1⟩
  · have hnone : backend.ticked.servicePendingInterrupts = none := by
      by_contra hsome
      obtain ⟨cpu, hcpu⟩ := ne_none_iff_exists'.1 hsome
      obtain ⟨i, -, htake, -⟩ := backend.ticked.servicePendingInterrupts_eq_some hcpu
      exact hany ⟨i, htake⟩
    refine ⟨fun j => ?_, fun cpu hcpu => ?_⟩
    · rw [aboutToExecute_eq, hnone]
      exact eq_false_iff.2 fun hj => hany ⟨j, hj⟩
    rw [hnone] at hcpu
    cases hcpu

theorem allServed_of_takesInterrupts {backend : FunctionalBackend D} (h : backend.TakesInterrupts) :
    backend.ticked.interruptState.AllServed := by
  intro i hi
  cases hservice : backend.ticked.servicePendingInterrupts with
  | none =>
    -- nothing was taken, so the source is still takeable
    have hquiet := h.quiet i
    rw [aboutToExecute_eq, hservice, getD_none, hi.1] at hquiet
    cases hquiet
  | some cpu =>
    obtain ⟨k, hk, henter⟩ := h.taken cpu hservice
    obtain ⟨j, hserved, htake, rfl⟩ := backend.ticked.servicePendingInterrupts_eq_some hservice
    have hki : k = i := hk.unique hi
    subst hki
    -- the cause register tells which source was taken
    have henter' := backend.ticked.takeInterrupt_enters htake
    have hlevel := henter.mode_eq.symm.trans henter'.mode_eq
    have hcause := henter.cause_eq
    rw [hlevel, henter'.cause_eq] at hcause
    rw [← cause_injective hcause]
    exact hserved

/-- In every run of the functional backend the steps take interrupts as the
architecture says exactly when the interrupt to take is always a served one. -/
theorem run_takesInterrupts_iff [Fpu] : (∀ n, (step^[n] backend).TakesInterrupts) ↔
      ∀ n, (step^[n] backend).ticked.interruptState.AllServed :=
  forall_congr' fun _ => ⟨allServed_of_takesInterrupts, takesInterrupts_of_allServed⟩

end

def softwareInterruptProgram : List (BitVec 32) :=
  [0x34445073, -- csrwi mip, 8
    0x30445073, -- csrwi mie, 8
    0x30046073] -- csrsi mstatus, 8

/-- The state of that program when its fourth instruction is fetched. -/
def softwareInterruptPending : FunctionalBackend Unit :=
  letI := Fpu.silent
  step^[3] (reset (Ram.ofWords memBase softwareInterruptProgram) ())

/-- The machine software interrupt is takeable and not taken. -/
theorem softwareInterrupt_ignored : ¬ softwareInterruptPending.TakesInterrupts := by
  intro h
  have htake : softwareInterruptPending.aboutToExecute.interruptState.takeable .msi := by
    decide +kernel
  rw [h.quiet .msi] at htake
  cases htake

end FunctionalBackend

end VisualCpu
