import VisualCpu.Exec.CsrWrites
import VisualCpu.Pipeline.Backend

/-!
# The supervisor timer bit

The timer bit of `mip` reads as set when it is stored or when `stimecmp` has expired.
A step that reads `mip` and writes it back can store the computed bit, and then it
stays set after `stimecmp` has moved into the future. As long as no step of a run does
so, the bit follows `stimecmp`.
-/

namespace VisualCpu

open CsrFile Mie Csr
open BitVec hiding and_assoc

namespace Cpu

variable {D : Type} [Devices D] (cpu : Cpu D)

def timerBitStored (cpu : Cpu D) : Bool := testMask (cpu.csr.regs Csr.mip) stie

def timerBitDelegated (cpu : Cpu D) : Bool := testMask (cpu.csr.regs Csr.mideleg) stie

def timerBitRaised (cpu : Cpu D) : Bool := testMask cpu.trap.timerPendingMask stie

def currentTime : BitVec 64 := CsrFile.currentTime cpu.addressSpace.bus.mtime cpu.core

/-- Supervisor timer compare is enabled, and its time has come. -/
def stimecmpExpired : Bool := cpu.csr.stimecmpPending cpu.addressSpace.bus.mtime cpu.core

theorem stimecmpExpired_of_lt (h : cpu.currentTime < cpu.csr.regs stimecmp) :
    cpu.stimecmpExpired = false := by
  have hnot : ¬ cpu.csr.regs stimecmp ≤ cpu.currentTime := BitVec.not_le.2 h
  change (cpu.csr.sstcEnabled && decide (cpu.csr.regs stimecmp ≤ cpu.currentTime)) = false
  rw [decide_eq_false hnot, Bool.and_false]

theorem testMask_stie (v : BitVec 64) : testMask v stie = v.getLsbD 5 :=
  testMask_iff (k := 5) (by decide)

theorem readCsr_mip_timerBit :
    testMask (cpu.readCsr mip) stie = (cpu.timerBitStored || cpu.stimecmpExpired) := by
  have hread : cpu.readCsr mip =
      if cpu.stimecmpExpired then cpu.csr.regs mip &&& mipMieMask ||| stie
      else cpu.csr.regs mip &&& mipMieMask := rfl
  have hmask : mipMieMask.getLsbD 5 := by decide
  have hbit : stie.getLsbD 5 := by decide
  rw [hread, timerBitStored, testMask_stie, testMask_stie]
  cases cpu.stimecmpExpired <;> simp [hmask, hbit]

theorem readCsr_sip_timerBit : testMask (cpu.readCsr sip) stie =
    (cpu.timerBitDelegated && (cpu.timerBitStored || cpu.stimecmpExpired)) := by
  have hread : cpu.readCsr sip =
      if cpu.stimecmpExpired && cpu.timerBitDelegated then
        cpu.csr.regs mip &&& cpu.csr.regs mideleg &&& sieMask ||| stie
      else cpu.csr.regs mip &&& cpu.csr.regs mideleg &&& sieMask := rfl
  have hmask : sieMask.getLsbD 5 := by decide
  have hbit : stie.getLsbD 5 := by decide
  have hdelegated : (cpu.csr.regs mideleg).getLsbD 5 = cpu.timerBitDelegated :=
    (testMask_stie _).symm
  rw [hread, timerBitStored, testMask_stie, testMask_stie]
  cases cpu.stimecmpExpired <;> cases hd : cpu.timerBitDelegated <;> rw [hd] at hdelegated <;>
    simp only [Bool.and_false, Bool.and_true, Bool.false_eq_true, if_false, if_true,
      getLsbD_and, getLsbD_or, hmask, hbit, hdelegated, Bool.or_false, Bool.or_true,
      Bool.false_and, Bool.true_and]

omit [Devices D] in
theorem writeCsr_mip_timerBit (value : BitVec 64) :
    (cpu.writeCsr mip value).timerBitStored = testMask value stie := by
  have hwritten : (cpu.writeCsr mip value).csr.regs mip = value &&& mipMieMask :=
    rfl
  have hmask : mipMieMask.getLsbD 5 := by decide
  rw [timerBitStored, hwritten, testMask_stie, testMask_stie]
  simp [hmask]

variable (regs : BitVec 12 → BitVec 64)

include regs

theorem mipWrite_timerBit (value : BitVec 64) :
    testMask (writeRegs regs mip value mip) stie = testMask value stie := by
  have hwritten : writeRegs regs mip value mip = value &&& mipMieMask := rfl
  have hmask : mipMieMask.getLsbD 5 := by decide
  rw [hwritten, testMask_stie, testMask_stie]
  simp [hmask]

theorem sipWrite_timerBit (value : BitVec 64) :
    testMask (writeRegs regs sip value mip) stie =
      if testMask (regs mideleg) stie then testMask value stie
      else testMask (regs mip) stie := by
  have hwritten : writeRegs regs sip value mip =
      (regs mip &&& ~~~(regs mideleg &&& sieMask)) |||
        (value &&& (regs mideleg &&& sieMask)) := rfl
  have hmask : sieMask.getLsbD 5 := by decide
  have hlt : (5 : ℕ) < 64 := by decide
  simp only [hwritten, testMask_stie, getLsbD_and, getLsbD_or, getLsbD_not,
    hmask, hlt, decide_true, Bool.and_true, Bool.true_and]
  cases (regs mideleg).getLsbD 5 <;> simp

theorem otherWrite_timerBit {addr : BitVec 12} (value : BitVec 64)
    (hmip : addr ≠ mip) (hsip : addr ≠ sip) :
    writeRegs regs addr value mip = regs mip := by
  apply writeRegs_of_not_storesTo
  intro h
  cases h with
  | own h => exact hmip h.symm
  | view h => revert h; decide
  | pending hview _ => exact hsip hview
  | counter h => revert h; decide

end Cpu

/-- A step that matters for the timer bit while no timer event of the platform is
pending. -/
inductive TimerStep (D : Type) where
  /-- Time passes: memory, devices and the cycle counter move on in any way. -/
  | elapse (addressSpace : AddressSpace D) (cycle : BitVec 64)
  | sync (machineExternal supervisorExternal : Bool)
  | service
  | trap (cause tval : BitVec 64)
  | instruction (insn : Insn)

namespace TimerStep

open SystemOps Cpu

variable {D : Type} [Devices D] [Fpu]

def events (machineExternal supervisorExternal : Bool) : PlatformEvents :=
  ⟨false, machineExternal, supervisorExternal⟩

def commitInput (cpu : Cpu D) (insn : Insn) : CommitBoundaryInput :=
  ⟨cpu.core.pc, cpu.core.pc + instructionSize insn, buildEffects cpu insn⟩

def run (cpu : Cpu D) : TimerStep D → Cpu D
  | elapse addressSpace cycle =>
    { cpu with
      core := { cpu.core with cycle }
      addressSpace }
  | sync machineExternal supervisorExternal =>
    cpu.syncPlatformEvents (events machineExternal supervisorExternal)
  | service => cpu.servicePendingInterrupts.getD cpu
  | trap cause tval => cpu.enterTrap cause tval
  | instruction insn => (cpu.applyCommitBoundary (commitInput cpu insn)).2

def runAll : Cpu D → List (TimerStep D) → Cpu D
  | cpu, [] => cpu
  | cpu, step :: steps => runAll (step.run cpu) steps

def reachesTimerBit (cpu : Cpu D) (addr : BitVec 12) : Bool :=
  addr == Csr.mip || addr == Csr.sip && cpu.timerBitDelegated

/-- The CSR instruction keeps the old value of the bits outside its source. -/
def keepsOld (funct3 : ℕ) : Bool := funct3 == 2 || funct3 == 3 || funct3 == 6 || funct3 == 7

def clearsSource (funct3 : ℕ) : Bool := funct3 == 3 || funct3 == 7

def sourceBit (cpu : Cpu D) (insn : Insn) : Bool :=
  testMask (csrSource insn (coreInputs insn cpu.core)) stie

def setsTimerBit (cpu : Cpu D) : TimerStep D → Bool
  | instruction insn =>
    match (buildEffects cpu insn).csrWrite with
    | some write =>
      reachesTimerBit cpu write.addr && !clearsSource insn.funct3 && sourceBit cpu insn
    | none => false
  | _ => false

def copiesTimerBit (cpu : Cpu D) : TimerStep D → Bool
  | sync _ _ => cpu.stimecmpExpired && (!cpu.timerBitStored || cpu.timerBitRaised)
  | service =>
    match cpu.serviceableInterrupt with
    | some pending =>
      cpu.stimecmpExpired && !cpu.timerBitStored && !testMask pending.mipMask stie
    | none => false
  | instruction insn =>
    match (buildEffects cpu insn).csrWrite with
    | some write =>
      reachesTimerBit cpu write.addr && cpu.stimecmpExpired && !cpu.timerBitStored &&
        keepsOld insn.funct3 && !sourceBit cpu insn
    | none => false
  | _ => false

/-- No step of the run satisfies the predicate in the state that it starts from. -/
def Never (bad : Cpu D → TimerStep D → Bool) : Cpu D → List (TimerStep D) → Prop
  | _, [] => True
  | cpu, step :: steps => bad cpu step = false ∧ Never bad (step.run cpu) steps

omit [Fpu] in
theorem csrResult_timerBit (funct3 : ℕ) (old source : BitVec 64) :
    testMask (csrResult funct3 old source) stie =
      if keepsOld funct3 then
        if clearsSource funct3 then testMask old stie && !testMask source stie
        else testMask old stie || testMask source stie
      else testMask source stie := by
  have hlt : (5 : ℕ) < 64 := by decide
  simp only [testMask_stie]
  unfold csrResult
  split
  · exact getLsbD_or
  · exact getLsbD_or
  · simp only [getLsbD_and, getLsbD_not, hlt]
    rfl
  · simp only [getLsbD_and, getLsbD_not, hlt]
    rfl
  · next h2 h6 h3 h7 =>
    have hkeeps : keepsOld funct3 = false := by
      simp only [keepsOld, Bool.or_eq_false_iff, beq_eq_false_iff_ne]
      exact ⟨⟨⟨h2, h3⟩, h6⟩, h7⟩
    rw [hkeeps]
    rfl

omit [Fpu] in
theorem csrResult_stored {funct3 : ℕ} {old source : BitVec 64} {stored expired : Bool}
    (hold : testMask old stie = (stored || expired))
    (hsets : (!clearsSource funct3 && testMask source stie) = false)
    (hcopies : (expired && !stored && keepsOld funct3 && !testMask source stie) = false)
    (h : testMask (csrResult funct3 old source) stie) : stored := by
  have hkeeps : clearsSource funct3 → keepsOld funct3 := by
    intro hclears
    simp only [clearsSource, Bool.or_eq_true] at hclears
    simp only [keepsOld, Bool.or_eq_true]
    rcases hclears with h3 | h7
    · exact .inl (.inl (.inr h3))
    · exact .inr h7
  rw [csrResult_timerBit, hold] at h
  generalize testMask source stie = bit at hsets hcopies h
  generalize keepsOld funct3 = keeps at hkeeps hcopies h
  generalize clearsSource funct3 = clears at hkeeps hsets h
  cases stored <;> cases expired <;> cases bit <;> cases keeps <;> cases clears <;> simp_all

variable {cpu : Cpu D} {pending : PendingInterrupt}

theorem instruction_timerBit {insn : Insn}
    (hcopies : copiesTimerBit cpu (.instruction insn) = false)
    (hsets : setsTimerBit cpu (.instruction insn) = false)
    (h : ((instruction insn).run cpu).timerBitStored) : cpu.timerBitStored := by
  have hmem : mip ∉ trapCsrs := by decide
  have hregs := cpu.applyCommitBoundary_regs (commitInput cpu insn) hmem
  unfold timerBitStored at h
  rcases hregs with hsame | hwritten
  · rw [run, hsame] at h
    exact h
  rw [run, hwritten] at h
  unfold commitInput afterWrite at h
  unfold copiesTimerBit at hcopies
  unfold setsTimerBit at hsets
  cases hwrite : (buildEffects cpu insn).csrWrite with
  | none =>
    simp only [hwrite] at h
    exact h
  | some write =>
    simp only [hwrite] at h hcopies hsets
    rcases buildEffects_csrWrite hwrite with hfcsr | hcsr
    · rw [otherWrite_timerBit _ _ (by rw [hfcsr]; decide) (by rw [hfcsr]; decide)] at h
      exact h
    have hvalue : write.value = csrResult insn.funct3 (cpu.readCsr write.addr)
        (csrSource insn (coreInputs insn cpu.core)) := hcsr.value
    by_cases hmip : write.addr = mip
    · have hreaches : reachesTimerBit cpu write.addr := by simp [reachesTimerBit, hmip]
      rw [hreaches, Bool.true_and] at hcopies hsets
      rw [hmip, mipWrite_timerBit, hvalue, hmip] at h
      exact csrResult_stored cpu.readCsr_mip_timerBit hsets hcopies h
    by_cases hsip : write.addr = sip
    · rw [hsip, sipWrite_timerBit] at h
      change (if cpu.timerBitDelegated = true then _ else _) = true at h
      by_cases hdelegated : cpu.timerBitDelegated
      · have hreaches : reachesTimerBit cpu write.addr := by
          simp [reachesTimerBit, hsip, hdelegated]
        have hold := cpu.readCsr_sip_timerBit
        rw [hdelegated, Bool.true_and] at hold
        rw [hreaches, Bool.true_and] at hcopies hsets
        rw [if_pos hdelegated, hvalue, hsip] at h
        exact csrResult_stored hold hsets hcopies h
      · rw [if_neg hdelegated] at h
        exact h
    · rw [otherWrite_timerBit _ _ hmip hsip] at h
      exact h

omit [Fpu] in
theorem sync_timerBit (cpu : Cpu D) (m s : Bool) :
    (cpu.syncPlatformEvents (events m s)).timerBitStored =
      (cpu.timerBitStored && !cpu.timerBitRaised || cpu.stimecmpExpired) := by
  have hlt : (5 : ℕ) < 64 := by decide
  have hmeie : meie.getLsbD 5 = false := by decide
  have hseie : seie.getLsbD 5 = false := by decide
  have hexternal : ∀ c : Cpu D, (c.syncExternalInterrupts (events m s)).timerBitStored =
      (c.timerBitStored || c.stimecmpExpired) := by
    intro c
    unfold syncExternalInterrupts events
    rw [writeCsr_mip_timerBit, ← readCsr_mip_timerBit, testMask_stie, testMask_stie]
    cases m <;> cases s <;> simp only [Bool.false_eq_true, if_true, if_false, getLsbD_and,
      getLsbD_or, getLsbD_not, hmeie, hseie, hlt, decide_true, Bool.not_false,
      Bool.and_true, Bool.or_false]
  change (cpu.clearTimerInterrupt.syncExternalInterrupts (events m s)).timerBitStored = _
  rw [hexternal]
  unfold clearTimerInterrupt
  split_ifs with hmask
  · have hcleared : (cpu.writeCsr mip
        (cpu.readCsr mip &&& ~~~cpu.trap.timerPendingMask)).timerBitStored =
          ((cpu.timerBitStored || cpu.stimecmpExpired) && !cpu.timerBitRaised) := by
      rw [writeCsr_mip_timerBit, ← readCsr_mip_timerBit, timerBitRaised, testMask_stie,
        testMask_stie, testMask_stie, getLsbD_and, getLsbD_not]
      simp only [hlt, decide_true, Bool.true_and]
    change ((cpu.writeCsr mip
      (cpu.readCsr mip &&& ~~~cpu.trap.timerPendingMask)).timerBitStored ||
        cpu.stimecmpExpired) = _
    rw [hcleared]
    cases cpu.timerBitStored <;> cases cpu.stimecmpExpired <;> cases cpu.timerBitRaised <;> rfl
  · have hraised : cpu.timerBitRaised = false := by
      rw [timerBitRaised, not_not.1 hmask]
      decide
    rw [hraised, Bool.not_false, Bool.and_true]

omit [Fpu] in
theorem enterTrap_timerBit (cpu : Cpu D) (cause tval : BitVec 64) :
    (cpu.enterTrap cause tval).timerBitStored = cpu.timerBitStored := by
  have hmem : mip ∉ trapCsrs := by decide
  unfold timerBitStored
  rw [cpu.enterTrap_regs_of_not_mem cause tval hmem]

omit [Fpu] in
theorem service_timerBit (cpu : Cpu D) (h : cpu.serviceableInterrupt = some pending) :
    (cpu.servicePendingInterrupts.getD cpu).timerBitStored =
      ((cpu.timerBitStored || cpu.stimecmpExpired) && !testMask pending.mipMask stie) := by
  have hlt : (5 : ℕ) < 64 := by decide
  unfold servicePendingInterrupts
  rw [h]
  change ((cpu.writeCsr mip (cpu.readCsr mip &&& ~~~pending.mipMask)).enterTrap
    pending.cause 0).timerBitStored = _
  rw [enterTrap_timerBit, writeCsr_mip_timerBit, ← readCsr_mip_timerBit, testMask_stie,
    testMask_stie, testMask_stie, getLsbD_and, getLsbD_not]
  simp only [hlt, decide_true, Bool.true_and]

theorem run_timerBit {step : TimerStep D} (hcopies : copiesTimerBit cpu step = false)
    (hsets : setsTimerBit cpu step = false) (h : (step.run cpu).timerBitStored) :
    cpu.timerBitStored := by
  cases step with
  | elapse addressSpace cycle => exact h
  | sync m s =>
    rw [run, sync_timerBit] at h
    unfold copiesTimerBit at hcopies
    cases hstored : cpu.timerBitStored with
    | true => rfl
    | false => simp_all
  | service =>
    cases hpending : cpu.serviceableInterrupt with
    | none =>
      rw [run, servicePendingInterrupts, hpending] at h
      exact h
    | some pending =>
      rw [run, service_timerBit cpu hpending] at h
      simp only [copiesTimerBit, hpending] at hcopies
      cases hstored : cpu.timerBitStored with
      | true => rfl
      | false => simp_all
  | trap cause tval =>
    rw [run, enterTrap_timerBit] at h
    exact h
  | instruction insn => exact instruction_timerBit hcopies hsets h

/-- The stored timer bit is the one that an earlier timer event raised. -/
def OnlyRaised (cpu : Cpu D) : Prop := cpu.timerBitStored → cpu.timerBitRaised

omit [Fpu] in
theorem applyCommitBoundary_raised (cpu : Cpu D) (input : CommitBoundaryInput) :
    (cpu.applyCommitBoundary input).2.timerBitRaised = cpu.timerBitRaised := by
  cases cpu.applyCommitBoundary_outcome input with
  | trapped accessed haccessed trap observed heq =>
    obtain ⟨vector, reservation, addressSpace, rfl⟩ := haccessed
    rw [heq]
    unfold trapResult enterPreciseTrap enterException enterTrap
    split_ifs <;> rfl
  | finished accessed haccessed filled hfilled changed observed heq =>
    obtain ⟨vector, reservation, addressSpace, rfl⟩ := haccessed
    rw [heq]
    unfold timerBitRaised
    rw [finishCommit_trap]

omit [Fpu] in
theorem enterTrap_raised (cpu : Cpu D) (cause tval : BitVec 64) :
    (cpu.enterTrap cause tval).timerBitRaised = cpu.timerBitRaised := by
  unfold enterTrap
  split_ifs <;> rfl

section

variable {cpu : Cpu D} (h : OnlyRaised cpu)

include h

theorem run_onlyRaised {step : TimerStep D}
    (hcopies : copiesTimerBit cpu step = false) (hsets : setsTimerBit cpu step = false) :
    OnlyRaised (step.run cpu) := by
  intro hstored
  have hbefore := h (run_timerBit hcopies hsets hstored)
  cases step with
  | elapse addressSpace cycle => exact hbefore
  | sync m s =>
    rw [run, sync_timerBit, hbefore] at hstored
    simp only [copiesTimerBit, hbefore, Bool.or_true, Bool.and_true] at hcopies
    rw [hcopies] at hstored
    simp at hstored
  | service =>
    unfold run servicePendingInterrupts
    cases cpu.serviceableInterrupt with
    | none => exact hbefore
    | some pending => exact (enterTrap_raised _ _ _).trans hbefore
  | trap cause tval => exact (enterTrap_raised _ _ _).trans hbefore
  | instruction insn => exact (applyCommitBoundary_raised _ _).trans hbefore

theorem sync_settles {m s : Bool} (hcopies : copiesTimerBit cpu (.sync m s) = false) :
    ((sync m s).run cpu).timerBitStored = false := by
  rw [run, sync_timerBit]
  unfold copiesTimerBit at hcopies
  unfold OnlyRaised at h
  cases hstored : cpu.timerBitStored <;> cases hraised : cpu.timerBitRaised <;> simp_all

theorem runAll_onlyRaised {steps : List (TimerStep D)}
    (hcopies : Never copiesTimerBit cpu steps) (hsets : Never setsTimerBit cpu steps) :
    OnlyRaised (runAll cpu steps) := by
  induction steps generalizing cpu with
  | nil => exact h
  | cons step steps ih => exact ih (run_onlyRaised h hcopies.1 hsets.1) hcopies.2 hsets.2

end

theorem runAll_timerBit (h : cpu.timerBitStored = false) {steps : List (TimerStep D)}
    (hcopies : Never copiesTimerBit cpu steps) (hsets : Never setsTimerBit cpu steps) :
    (runAll cpu steps).timerBitStored = false := by
  induction steps generalizing cpu with
  | nil => exact h
  | cons step steps ih =>
    apply ih _ hcopies.2 hsets.2
    by_contra hstored
    have hbefore := run_timerBit hcopies.1 hsets.1 (Bool.not_eq_false _ ▸ hstored)
    rw [h] at hbefore
    cases hbefore

theorem never_append {bad : Cpu D → TimerStep D → Bool}
    {steps steps' : List (TimerStep D)} :
    Never bad cpu (steps ++ steps') ↔ Never bad cpu steps ∧ Never bad (runAll cpu steps)
      steps' := by
  induction steps generalizing cpu with
  | nil => simp [Never, runAll]
  | cons step steps ih => simp only [List.cons_append, Never, runAll, ih, and_assoc]

theorem runAll_append (cpu : Cpu D) (steps steps' : List (TimerStep D)) :
    runAll cpu (steps ++ steps') = runAll (runAll cpu steps) steps' := by
  induction steps generalizing cpu with
  | nil => rfl
  | cons step steps ih => exact ih (step.run cpu)

omit [Fpu] in
theorem serviceable_timerBit
    (h : cpu.serviceableInterrupt = some pending) (hcause : pending.cause = causeIntBit ||| 5) :
    testMask (cpu.readCsr mip) stie := by
  unfold serviceableInterrupt selectServiceableInterrupt at h
  split_ifs at h with hmei hmti hsei hsti
  · cases h
    exact absurd hcause (by decide)
  · cases h
    exact absurd hcause (by decide)
  · cases h
    exact absurd hcause (by decide)
  · simp only [Bool.and_eq_true] at hsti
    exact hsti.1.2

/-- In a run whose steps never copy the computed timer bit, once a sync has been made and
while the time is below `stimecmp`, the bit reads as clear from `mip` and `sip` and no
supervisor timer interrupt is serviceable, unless the guest has set the bit itself. -/
theorem timerBit_follows_stimecmp (cpu : Cpu D) (hstart : OnlyRaised cpu)
    (before after : List (TimerStep D)) (machineExternal supervisorExternal : Bool)
    (hguest : Never setsTimerBit cpu
      (before ++ .sync machineExternal supervisorExternal :: after))
    (hcopies : Never copiesTimerBit cpu
      (before ++ .sync machineExternal supervisorExternal :: after))
    (htime :
      (runAll cpu (before ++ .sync machineExternal supervisorExternal :: after)).currentTime <
      (runAll cpu (before ++ .sync machineExternal supervisorExternal :: after)).csr.regs
        Csr.stimecmp) :
    testMask ((runAll cpu (before ++ .sync machineExternal supervisorExternal :: after)).readCsr
        Csr.mip) stie = false ∧
      testMask ((runAll cpu (before ++ .sync machineExternal supervisorExternal :: after)).readCsr
        Csr.sip) stie = false ∧
      ∀ pending, (runAll cpu
          (before ++ .sync machineExternal supervisorExternal :: after)).serviceableInterrupt =
        some pending → pending.cause ≠ causeIntBit ||| 5 := by
  obtain ⟨hguest₁, -, hguest₂⟩ := never_append.1 hguest
  obtain ⟨hcopies₁, hsync, hcopies₂⟩ := never_append.1 hcopies
  have hsettled := sync_settles (runAll_onlyRaised hstart hcopies₁ hguest₁) hsync
  have hstored := runAll_timerBit hsettled hcopies₂ hguest₂
  have hend : runAll cpu (before ++ .sync machineExternal supervisorExternal :: after) =
      runAll ((sync machineExternal supervisorExternal).run (runAll cpu before)) after :=
    runAll_append _ _ _
  rw [hend] at htime ⊢
  generalize runAll ((sync machineExternal supervisorExternal).run (runAll cpu before)) after =
    last at hstored htime ⊢
  have hexpired := last.stimecmpExpired_of_lt htime
  have hmip : testMask (last.readCsr Csr.mip) stie = false := by
    rw [readCsr_mip_timerBit, hstored, hexpired]
    rfl
  refine ⟨hmip, ?_, fun pending hpending hcause => ?_⟩
  · rw [readCsr_sip_timerBit, hstored, hexpired, Bool.or_false, Bool.and_false]
  rw [serviceable_timerBit hpending hcause] at hmip
  cases hmip

/-- A supervisor whose timer has expired, with the interrupt delegated and enabled. -/
def expiredTimer : Cpu Unit :=
  let cpu := Cpu.reset (fun _ => 0) ()
  let cpu := ((((cpu.writeCsr Csr.menvcfg menvcfgStce).writeCsr Csr.stimecmp 0).writeCsr
    Csr.mideleg stie).writeCsr Csr.mie stie).writeCsr Csr.mstatus Mstatus.sie
  cpu.mapCore fun core => (core.setPrivilegeMode .supervisor).writeGpr 5 100

/-- `csrrw x0, stimecmp, x5`. -/
def moveStimecmp : Insn := FunctionalBackend.decodeFetched 0x14D29073

/-- A sync while the timer has expired, the write of `stimecmp` by the handler, and the
next sync. -/
def handlerRun : List (TimerStep Unit) :=
  [.sync false false, .instruction moveStimecmp, .sync false false]

omit [Fpu] in
/-- The handler has moved `stimecmp` into the future and nothing has set the bit, yet it
reads as set and the interrupt is serviceable again. -/
theorem handlerRun_stuck :
    letI := Fpu.silent
    OnlyRaised expiredTimer ∧ Never setsTimerBit expiredTimer handlerRun ∧
      (runAll expiredTimer handlerRun).currentTime <
        (runAll expiredTimer handlerRun).csr.regs Csr.stimecmp ∧
      testMask ((runAll expiredTimer handlerRun).readCsr Csr.mip) stie ∧
      (runAll expiredTimer handlerRun).serviceableInterrupt = some ⟨causeIntBit ||| 5, stie⟩ := by
  let := Fpu.silent
  refine ⟨?_, ⟨rfl, rfl, rfl, trivial⟩, ?_, rfl, rfl⟩
  · have hclear : expiredTimer.timerBitStored = false := rfl
    intro hstored
    rw [hclear] at hstored
    cases hstored
  · decide

omit [Fpu] in
theorem expiredTimer_onlyRaised : OnlyRaised expiredTimer := by
  have hclear : expiredTimer.timerBitStored = false := rfl
  intro hstored
  rw [hclear] at hstored
  cases hstored

omit [Fpu] in
/-- When the handler moves `stimecmp` before the next sync, the bit follows it. -/
theorem handlerRun_follows :
    letI := Fpu.silent
    testMask ((runAll expiredTimer
      [.instruction moveStimecmp, .sync false false]).readCsr Csr.mip) stie = false := by
  let := Fpu.silent
  exact (timerBit_follows_stimecmp expiredTimer expiredTimer_onlyRaised
    [.instruction moveStimecmp] [] false false ⟨rfl, rfl, trivial⟩
    ⟨rfl, by decide, trivial⟩
    (by decide)).1

end TimerStep

end VisualCpu
