import VisualCpu.Library.Bits
import VisualCpu.Trap

/-!
# What a trap entry does

The status word saved by a trap, field by field, and the state after an entry
into machine or supervisor mode.
-/

namespace VisualCpu

open CsrFile Function Mstatus Bits

theorem withSdSummary_and {m : BitVec 64} (hm : sd &&& m = 0) (v : BitVec 64) :
    withSdSummary v &&& m = v &&& m := by
  unfold withSdSummary
  split_ifs
  · exact or_and_of_disjoint hm v
  · exact clear_and_of_disjoint hm v

theorem sanitizeMstatus_and {m : BitVec 64} (hsd : sd &&& m = 0) {v : BitVec 64}
    (hv : (v &&& mppMask) >>> 11 ≠ 2) : sanitizeMstatus v &&& m = v &&& m := by
  have hmpp : v &&& ~~~sd &&& mppMask = v &&& mppMask :=
    clear_and_of_disjoint (by decide) v
  simp only [sanitizeMstatus]
  rw [hmpp, if_neg hv, withSdSummary_and hsd, clear_and_of_disjoint hsd]

theorem sanitizeMstatus_mpp (v : BitVec 64) :
    (sanitizeMstatus v &&& mppMask) >>> 11 ≠ 2 := by
  have hsd : sd &&& mppMask = 0 := by decide
  simp only [sanitizeMstatus]
  split_ifs with h
  · rw [withSdSummary_and hsd, clear_and_self]
    decide
  rw [withSdSummary_and hsd]
  exact h

theorem CsrFile.mstatus_mpp (csr : CsrFile) :
    (csr.regs Csr.mstatus &&& mppMask) >>> 11 ≠ 2 := by
  have hlegal : sanitizeMstatus (csr.regs Csr.mstatus) = csr.regs Csr.mstatus :=
    csr.legal Csr.mstatus
  rw [← hlegal]
  exact sanitizeMstatus_mpp _

theorem testMask_eq_of_and_eq {v v' m : BitVec 64} (h : v &&& m = v' &&& m) :
    testMask v m = testMask v' m := by
  unfold testMask
  rw [h]

theorem testMask_sanitize {v : BitVec 64} (hv : (v &&& mppMask) >>> 11 ≠ 2) {m : BitVec 64}
    (hm : sd &&& m = 0) : testMask (withSdSummary (sanitizeMstatus v)) m = testMask v m :=
  testMask_eq_of_and_eq (by rw [withSdSummary_and hm, sanitizeMstatus_and hm hv])

theorem testMask_iff {v : BitVec 64} {k : ℕ} (hk : k < 64) :
    testMask v (1#64 <<< k) = v.getLsbD k := by
  rw [Bool.eq_iff_iff, ← and_shift_ne_zero_iff v hk]
  simp [testMask]

theorem PrivilegeMode.encode_shift_and (mode : PrivilegeMode) :
    (mode.encode <<< 11 &&& mppMask) >>> 11 = mode.encode := by
  cases mode <;> decide

theorem PrivilegeMode.encode_ne_two (mode : PrivilegeMode) : mode.encode ≠ 2 := by
  cases mode <;> decide

section MachineTrapStatus

variable (mstatus : BitVec 64) (mode : PrivilegeMode)

theorem machineTrapStatus_mpp :
    (machineTrapStatus mstatus mode &&& mppMask) >>> 11 = mode.encode := by
  unfold machineTrapStatus
  rw [replace_and_self]
  exact mode.encode_shift_and

theorem machineTrapStatus_mie : testMask (machineTrapStatus mstatus mode) mie = false := by
  unfold machineTrapStatus
  rw [mie, testMask_iff (by decide)]
  cases mode <;> simp [mppMask, PrivilegeMode.encode]

theorem machineTrapStatus_mpie :
    testMask (machineTrapStatus mstatus mode) mpie = testMask mstatus mie := by
  unfold machineTrapStatus
  rw [mie, mpie, testMask_iff (by decide), testMask_iff (by decide)]
  cases mode <;> simp [mppMask, PrivilegeMode.encode]

end MachineTrapStatus

section SupervisorTrapStatus

variable (mstatus : BitVec 64) (mode : PrivilegeMode)

theorem supervisorTrapStatus_sie :
    testMask (supervisorTrapStatus mstatus mode) sie = false := by
  unfold supervisorTrapStatus
  rw [sie, testMask_iff (by decide)]
  split_ifs <;> simp [spp]

theorem supervisorTrapStatus_spie :
    testMask (supervisorTrapStatus mstatus mode) spie = testMask mstatus sie := by
  unfold supervisorTrapStatus
  rw [spie, testMask_iff (by decide)]
  cases hsie : testMask mstatus sie <;> split_ifs <;> simp_all [spp, sie]

theorem supervisorTrapStatus_spp :
    testMask (supervisorTrapStatus mstatus mode) spp = decide (mode = .supervisor) := by
  unfold supervisorTrapStatus
  rw [spp, testMask_iff (by decide)]
  by_cases hmode : mode = .supervisor <;> simp [hmode]

theorem supervisorTrapStatus_mpp :
    supervisorTrapStatus mstatus mode &&& Mstatus.mppMask = mstatus &&& Mstatus.mppMask := by
  have hkeep : ∀ sie : BitVec 64, sie = 0 ∨ sie = 1 →
      ((mstatus &&& ~~~Mstatus.spie) ||| (sie <<< 5)) &&& ~~~Mstatus.sie &&& Mstatus.mppMask =
        mstatus &&& Mstatus.mppMask := by
    intro sie hsie
    rw [clear_and_of_disjoint (by decide), or_and_of_disjoint,
      clear_and_of_disjoint (by decide)]
    rcases hsie with rfl | rfl <;> decide
  have hbit : ∀ b : Bool, (if b then (1 : BitVec 64) else 0) = 0 ∨
      (if b then (1 : BitVec 64) else 0) = 1 := by decide
  unfold supervisorTrapStatus
  split_ifs
  all_goals
    first
    | rw [or_and_of_disjoint (by decide)]
    | rw [clear_and_of_disjoint (by decide)]
  all_goals exact hkeep _ (by first | exact .inl rfl | exact .inr rfl)

end SupervisorTrapStatus

namespace Cpu

variable {D : Type} [Devices D]

def epcOf : PrivilegeMode → BitVec 12
  | .supervisor => Csr.sepc
  | _ => Csr.mepc

def causeOf : PrivilegeMode → BitVec 12
  | .supervisor => Csr.scause
  | _ => Csr.mcause

def tvalOf : PrivilegeMode → BitVec 12
  | .supervisor => Csr.stval
  | _ => Csr.mtval

def tvecOf : PrivilegeMode → BitVec 12
  | .supervisor => Csr.stvec
  | _ => Csr.mtvec

def enableOf : PrivilegeMode → BitVec 64
  | .supervisor => Mstatus.sie
  | _ => Mstatus.mie

/-- The saved interrupt enable of a trap level. -/
def previousEnableOf : PrivilegeMode → BitVec 64
  | .supervisor => Mstatus.spie
  | _ => Mstatus.mpie

/-- The previous mode saved in a status word; the supervisor level has one bit for it. -/
def SavesMode (mstatus : BitVec 64) (level mode : PrivilegeMode) : Prop :=
  match level with
  | .supervisor => testMask mstatus Mstatus.spp = decide (mode = .supervisor)
  | _ => (mstatus &&& Mstatus.mppMask) >>> 11 = mode.encode

/-- `after` is `before` with a trap taken at the given level. -/
structure EntersTrap (before after : Cpu D) (level : PrivilegeMode) (cause tval : BitVec 64) :
    Prop where
  mode_eq : after.core.privilegeMode = level
  epc_eq : after.readCsr (epcOf level) = before.core.pc
  cause_eq : after.readCsr (causeOf level) = cause
  tval_eq : after.readCsr (tvalOf level) = tval
  vector : after.core.pc = trapVectorBase (before.readCsr (tvecOf level)) cause
  previousMode : SavesMode (after.readCsr Csr.mstatus) level before.core.privilegeMode
  previousEnable : testMask (after.readCsr Csr.mstatus) (previousEnableOf level) =
    testMask (before.readCsr Csr.mstatus) (enableOf level)
  enable : testMask (after.readCsr Csr.mstatus) (enableOf level) = false

def trapLevel (cpu : Cpu D) (cause : BitVec 64) : PrivilegeMode :=
  if cpu.delegatedToSupervisor cause then .supervisor else .machine

variable (cpu : Cpu D)

theorem readCsr_mstatus : cpu.readCsr Csr.mstatus = withSdSummary (cpu.csr.regs Csr.mstatus) := rfl

variable (cause tval : BitVec 64) {m : BitVec 64}

theorem enterMachineTrap_mstatus (hm : sd &&& m = 0) :
    (cpu.enterMachineTrap cause tval).readCsr Csr.mstatus &&& m =
      machineTrapStatus (cpu.readCsr Csr.mstatus) cpu.core.privilegeMode &&& m := by
  change withSdSummary (sanitizeMstatus (machineTrapStatus (cpu.readCsr Csr.mstatus)
    cpu.core.privilegeMode)) &&& m = _
  rw [withSdSummary_and hm, sanitizeMstatus_and hm]
  rw [machineTrapStatus_mpp]
  exact cpu.core.privilegeMode.encode_ne_two

theorem enterSupervisorTrap_mstatus (hm : sd &&& m = 0) :
    (cpu.enterSupervisorTrap cause tval).readCsr Csr.mstatus &&& m =
      supervisorTrapStatus (cpu.readCsr Csr.mstatus) cpu.core.privilegeMode &&& m := by
  change withSdSummary (sanitizeMstatus (supervisorTrapStatus (cpu.readCsr Csr.mstatus)
    cpu.core.privilegeMode)) &&& m = _
  rw [withSdSummary_and hm, sanitizeMstatus_and hm]
  rw [supervisorTrapStatus_mpp, readCsr_mstatus, withSdSummary_and (by decide)]
  exact cpu.csr.mstatus_mpp

theorem enterMachineTrap_enters :
    EntersTrap cpu (cpu.enterMachineTrap cause tval) .machine cause tval where
  mode_eq := rfl
  epc_eq := rfl
  cause_eq := rfl
  tval_eq := rfl
  vector := rfl
  previousMode := by
    change (_ &&& mppMask) >>> 11 = _
    rw [cpu.enterMachineTrap_mstatus cause tval (by decide)]
    exact machineTrapStatus_mpp _ _
  previousEnable := by
    rw [testMask_eq_of_and_eq (cpu.enterMachineTrap_mstatus cause tval (by decide))]
    exact machineTrapStatus_mpie _ _
  enable := by
    rw [testMask_eq_of_and_eq (cpu.enterMachineTrap_mstatus cause tval (by decide))]
    exact machineTrapStatus_mie _ _

theorem enterSupervisorTrap_enters :
    EntersTrap cpu (cpu.enterSupervisorTrap cause tval) .supervisor cause tval where
  mode_eq := rfl
  epc_eq := rfl
  cause_eq := rfl
  tval_eq := rfl
  vector := rfl
  previousMode := by
    change testMask _ spp = _
    rw [testMask_eq_of_and_eq (cpu.enterSupervisorTrap_mstatus cause tval (by decide))]
    exact supervisorTrapStatus_spp _ _
  previousEnable := by
    rw [testMask_eq_of_and_eq (cpu.enterSupervisorTrap_mstatus cause tval (by decide))]
    exact supervisorTrapStatus_spie _ _
  enable := by
    rw [testMask_eq_of_and_eq (cpu.enterSupervisorTrap_mstatus cause tval (by decide))]
    exact supervisorTrapStatus_sie _ _

theorem enterTrap_enters :
    EntersTrap cpu (cpu.enterTrap cause tval) (cpu.trapLevel cause) cause tval := by
  unfold enterTrap trapLevel
  split_ifs
  · have h := cpu.clearReservation.enterSupervisorTrap_enters cause tval
    exact ⟨h.mode_eq, h.epc_eq, h.cause_eq, h.tval_eq, h.vector, h.previousMode, h.previousEnable,
      h.enable⟩
  · have h := cpu.clearReservation.enterMachineTrap_enters cause tval
    exact ⟨h.mode_eq, h.epc_eq, h.cause_eq, h.tval_eq, h.vector, h.previousMode, h.previousEnable,
      h.enable⟩

theorem enterTrap_regs {addr : BitVec 12} (hstatus : addr ≠ Csr.mstatus)
    (hepc : addr ≠ epcOf (cpu.trapLevel cause)) (hcause : addr ≠ causeOf (cpu.trapLevel cause))
    (htval : addr ≠ tvalOf (cpu.trapLevel cause)) :
    (cpu.enterTrap cause tval).csr.regs addr = cpu.csr.regs addr := by
  have hregs : ∃ status, (cpu.enterTrap cause tval).csr.regs =
      update (update (update (update cpu.csr.regs Csr.mstatus
        status) (epcOf (cpu.trapLevel cause)) cpu.core.pc) (causeOf (cpu.trapLevel cause)) cause)
        (tvalOf (cpu.trapLevel cause)) tval := by
    unfold enterTrap trapLevel
    split_ifs
    · exact ⟨_, rfl⟩
    · exact ⟨_, rfl⟩
  obtain ⟨status, hregs⟩ := hregs
  rw [hregs, update_of_ne htval, update_of_ne hcause, update_of_ne hepc, update_of_ne hstatus]

theorem enterTrap_core : (cpu.enterTrap cause tval).core = { cpu.core with
        privilegeMode := cpu.trapLevel cause
        pc := trapVectorBase (cpu.readCsr (tvecOf (cpu.trapLevel cause))) cause } := by
  unfold enterTrap trapLevel
  split_ifs <;> rfl

/-- The return instruction of a trap level. -/
def returnFrom : PrivilegeMode → Cpu D
  | .supervisor => cpu.returnFromSret
  | _ => cpu.returnFromMret

theorem returnFromMret_mie : testMask (cpu.returnFromMret.readCsr Csr.mstatus) mie =
    testMask (cpu.readCsr Csr.mstatus) mpie := by
  unfold returnFromMret
  refine (testMask_sanitize ?_ (by decide)).trans ?_
  · split_ifs
    · rw [clear_and_of_disjoint (by decide), clear_and_self]
      decide
    · rw [clear_and_self]
      decide
  · rw [mie, mpie, testMask_iff (by decide), testMask_iff (by decide)]
    split_ifs <;> simp [mppMask, mprv]

theorem returnFromSret_sie : testMask (cpu.returnFromSret.readCsr Csr.mstatus) sie =
    testMask (cpu.readCsr Csr.mstatus) spie := by
  unfold returnFromSret
  refine (testMask_sanitize ?_ (by decide)).trans ?_
  · rw [clear_and_of_disjoint (by decide), clear_and_of_disjoint (by decide),
      or_and_of_disjoint (by decide), or_and_of_disjoint (by split_ifs <;> decide),
      clear_and_of_disjoint (by decide), readCsr_mstatus, withSdSummary_and (by decide)]
    exact cpu.csr.mstatus_mpp
  · rw [sie, testMask_iff (by decide)]
    cases testMask (cpu.readCsr Csr.mstatus) spie <;>
      simp [spp, spie, mprv]

/-- A trap and the return from it leave the registers, the mode, the pc and the interrupt enable as
they were. -/
theorem enterTrap_returns :
    ((cpu.enterTrap cause tval).returnFrom (cpu.trapLevel cause)).core = cpu.core ∧
      testMask (((cpu.enterTrap cause tval).returnFrom (cpu.trapLevel cause)).readCsr Csr.mstatus)
        (enableOf (cpu.trapLevel cause)) =
      testMask (cpu.readCsr Csr.mstatus) (enableOf (cpu.trapLevel cause)) := by
  have henters := cpu.enterTrap_enters cause tval
  have hback : ∀ epc mode, epc = cpu.core.pc → mode = cpu.core.privilegeMode →
      ((cpu.enterTrap cause tval).core.setPrivilegeMode mode).setPc epc = cpu.core := by
    rintro _ _ rfl rfl
    rw [enterTrap_core]
    rfl
  cases hlevel : cpu.delegatedToSupervisor cause with
  | true =>
    have htrap : cpu.trapLevel cause = .supervisor := if_pos hlevel
    rw [htrap] at henters ⊢
    refine ⟨hback _ _ henters.epc_eq ?_, (returnFromSret_sie _).trans henters.previousEnable⟩
    have hmode : testMask _ Mstatus.spp = _ := henters.previousMode
    rw [hmode]
    unfold delegatedToSupervisor at hlevel
    cases hbefore : cpu.core.privilegeMode <;> simp_all
  | false =>
    have htrap : cpu.trapLevel cause = .machine := if_neg (by simp [hlevel])
    rw [htrap] at henters ⊢
    refine ⟨hback _ _ henters.epc_eq ?_, (returnFromMret_mie _).trans henters.previousEnable⟩
    have hmode : (_ &&& Mstatus.mppMask) >>> 11 = _ := henters.previousMode
    rw [hmode]
    cases cpu.core.privilegeMode <;> rfl

end Cpu

end VisualCpu
