import VisualCpu.Arch.CoreState

/-!
# Control and status registers

The register array of `csr_file.cpp` with its aliases: `sstatus`, `sie` and
`sip` are masked views of machine registers, the counters live in `CoreState`,
and the timer bit of `mip` is partly computed from `stimecmp`. Every write
legalizes the stored value, and `CsrFile` carries that as a field: a register
array that no sequence of writes can produce cannot be built.
-/

namespace VisualCpu

open Option

namespace Csr

def sstatus : BitVec 12 := 0x100#12
def sie : BitVec 12 := 0x104#12
def stvec : BitVec 12 := 0x105#12
def scounteren : BitVec 12 := 0x106#12
def sscratch : BitVec 12 := 0x140#12
def sepc : BitVec 12 := 0x141#12
def scause : BitVec 12 := 0x142#12
def stval : BitVec 12 := 0x143#12
def sip : BitVec 12 := 0x144#12
def stimecmp : BitVec 12 := 0x14D#12
def satp : BitVec 12 := 0x180#12
def fflags : BitVec 12 := 0x001#12
def frm : BitVec 12 := 0x002#12
def fcsr : BitVec 12 := 0x003#12
def mstatus : BitVec 12 := 0x300#12
def misa : BitVec 12 := 0x301#12
def medeleg : BitVec 12 := 0x302#12
def mideleg : BitVec 12 := 0x303#12
def mie : BitVec 12 := 0x304#12
def mtvec : BitVec 12 := 0x305#12
def mcounteren : BitVec 12 := 0x306#12
def menvcfg : BitVec 12 := 0x30A#12
def mcountinhibit : BitVec 12 := 0x320#12
def mhpmevent3 : BitVec 12 := 0x323#12
def mhpmevent31 : BitVec 12 := 0x33F#12
def mscratch : BitVec 12 := 0x340#12
def mepc : BitVec 12 := 0x341#12
def mcause : BitVec 12 := 0x342#12
def mtval : BitVec 12 := 0x343#12
def mip : BitVec 12 := 0x344#12
def pmpcfg0 : BitVec 12 := 0x3A0#12
def pmpaddr0 : BitVec 12 := 0x3B0#12
def mcycle : BitVec 12 := 0xB00#12
def minstret : BitVec 12 := 0xB02#12
def mhpmcounter3 : BitVec 12 := 0xB03#12
def mhpmcounter31 : BitVec 12 := 0xB1F#12
def cycle : BitVec 12 := 0xC00#12
def time : BitVec 12 := 0xC01#12
def instret : BitVec 12 := 0xC02#12
def hpmcounter3 : BitVec 12 := 0xC03#12
def hpmcounter31 : BitVec 12 := 0xC1F#12
def mhartid : BitVec 12 := 0xF14#12

end Csr

open Csr

namespace Mstatus

def sie : BitVec 64 := 1#64 <<< 1
def mie : BitVec 64 := 1#64 <<< 3
def spie : BitVec 64 := 1#64 <<< 5
def mpie : BitVec 64 := 1#64 <<< 7
def spp : BitVec 64 := 1#64 <<< 8
def vsMask : BitVec 64 := 3#64 <<< 9
def vsDirty : BitVec 64 := 3#64 <<< 9
def mppMask : BitVec 64 := 3#64 <<< 11
def fsMask : BitVec 64 := 3#64 <<< 13
def fsOff : BitVec 64 := 0
def fsDirty : BitVec 64 := 3#64 <<< 13
def mprv : BitVec 64 := 1#64 <<< 17
def sum : BitVec 64 := 1#64 <<< 18
def mxr : BitVec 64 := 1#64 <<< 19
def sd : BitVec 64 := 1#64 <<< 63

end Mstatus

open Mstatus

namespace Mie

def ssie : BitVec 64 := 1#64 <<< 1
def msie : BitVec 64 := 1#64 <<< 3
def stie : BitVec 64 := 1#64 <<< 5
def mtie : BitVec 64 := 1#64 <<< 7
def seie : BitVec 64 := 1#64 <<< 9
def meie : BitVec 64 := 1#64 <<< 11

end Mie

/-- Some bit of `mask` is set in `value`. -/
def testMask (value mask : BitVec 64) : Bool := (value &&& mask) != 0

namespace CsrFile

def sstatusMask : BitVec 64 :=
  Mstatus.sie ||| Mstatus.spie ||| Mstatus.spp ||| Mstatus.sum ||| Mstatus.mxr
def sieMask : BitVec 64 := Mie.ssie ||| Mie.stie ||| Mie.seie
def mipMieMask : BitVec 64 :=
  Mie.ssie ||| Mie.msie ||| Mie.stie ||| Mie.mtie ||| Mie.seie ||| Mie.meie
def menvcfgStce : BitVec 64 := 1#64 <<< 63
def fcsrFflagsMask : BitVec 64 := 0x1F
def fcsrFrmMask : BitVec 64 := 7#64 <<< 5
def fcsrMask : BitVec 64 := fcsrFflagsMask ||| fcsrFrmMask
def satpModeBare : BitVec 64 := 0
def satpModeSv39 : BitVec 64 := 8
def satpPpnMask : BitVec 64 := (1#64 <<< 44) - 1
def misaImplementedValue : BitVec 64 :=
  (2#64 <<< 62) ||| (1#64 <<< 20) ||| (1#64 <<< 18) ||| (1#64 <<< 12) ||| (1#64 <<< 8) |||
    (1#64 <<< 2) ||| 1
def medelegMask : BitVec 64 :=
  (1#64 <<< 1) ||| (1#64 <<< 2) ||| (1#64 <<< 3) ||| (1#64 <<< 5) ||| (1#64 <<< 7) |||
    (1#64 <<< 8) ||| (1#64 <<< 9) ||| (1#64 <<< 12) ||| (1#64 <<< 13) ||| (1#64 <<< 15)
def midelegMask : BitVec 64 := sieMask
def sstatusStatusMask : BitVec 64 := sstatusMask ||| Mstatus.fsMask ||| Mstatus.vsMask

def withSdSummary (mstatus : BitVec 64) : BitVec 64 :=
  if mstatus &&& Mstatus.fsMask = Mstatus.fsDirty ∨ mstatus &&& Mstatus.vsMask = Mstatus.vsDirty
  then mstatus ||| Mstatus.sd
  else mstatus &&& ~~~Mstatus.sd

def isHpmcounterShadow (addr : BitVec 12) : Bool :=
  Csr.hpmcounter3 ≤ addr && addr ≤ Csr.hpmcounter31

def isMhpmcounter (addr : BitVec 12) : Bool :=
  Csr.mhpmcounter3 ≤ addr && addr ≤ Csr.mhpmcounter31

def isMhpmevent (addr : BitVec 12) : Bool := Csr.mhpmevent3 ≤ addr && addr ≤ Csr.mhpmevent31

def hpmShadowToMachine (addr : BitVec 12) : BitVec 12 := Csr.mhpmcounter3 + (addr - Csr.hpmcounter3)

/-- The individually listed CSR numbers of `is_supported_csr`. -/
def supportedCsrs : List (BitVec 12) :=
  [Csr.sstatus, Csr.sie, Csr.stvec, Csr.scounteren, Csr.sscratch, Csr.sepc, Csr.scause, Csr.stval,
    Csr.sip, Csr.satp, Csr.fflags, Csr.frm, Csr.fcsr, Csr.mstatus, Csr.misa, Csr.medeleg,
    Csr.mideleg, Csr.mie, Csr.mtvec, Csr.mcounteren, Csr.mcountinhibit, Csr.menvcfg, Csr.pmpcfg0,
    Csr.pmpaddr0, Csr.mcycle, Csr.minstret, Csr.mscratch, Csr.mepc, Csr.mcause, Csr.mtval, Csr.mip,
    Csr.mhartid, Csr.cycle, Csr.time, Csr.instret, Csr.stimecmp]

def isImplemented (addr : BitVec 12) : Bool :=
  isHpmcounterShadow addr || isMhpmcounter addr || isMhpmevent addr || supportedCsrs.contains addr

def sanitizeMstatus (value : BitVec 64) : BitVec 64 :=
  let value := value &&& ~~~Mstatus.sd
  withSdSummary
    (if (value &&& Mstatus.mppMask) >>> 11 = 2 then value &&& ~~~Mstatus.mppMask else value)

/-- Registers that `CsrFile::write(addr, value)` leaves alone. -/
def ignoresWrite (addr : BitVec 12) : Bool :=
  addr == Csr.cycle || addr == Csr.time || addr == Csr.instret || addr == Csr.mcycle ||
    addr == Csr.minstret || addr == Csr.misa || addr == Csr.mhartid

/-- Writes to registers whose fields are rearranged: status, floating-point and `satp`. -/
def writeFields (regs : BitVec 12 → BitVec 64) (addr : BitVec 12) (value : BitVec 64) :
    Option (BitVec 12 × BitVec 64) :=
  if addr = Csr.sstatus then
    some (Csr.mstatus, sanitizeMstatus
      ((regs Csr.mstatus &&& ~~~sstatusStatusMask) ||| (value &&& sstatusStatusMask)))
  else if addr = Csr.fflags then
    some (Csr.fcsr, (regs Csr.fcsr &&& ~~~fcsrFflagsMask) ||| (value &&& fcsrFflagsMask))
  else if addr = Csr.frm then
    some (Csr.fcsr, (regs Csr.fcsr &&& ~~~fcsrFrmMask) ||| ((value &&& 7) <<< 5))
  else if addr = Csr.fcsr then some (Csr.fcsr, value &&& fcsrMask)
  else if addr = Csr.mstatus then some (Csr.mstatus, sanitizeMstatus value)
  else if addr = Csr.satp then
    if (value &&& (0xF#64 <<< 60)) >>> 60 = satpModeSv39 then
      some (Csr.satp, (satpModeSv39 <<< 60) ||| (value &&& satpPpnMask))
    else some (Csr.satp, satpModeBare)
  else none

/-- Writes to registers with a mask of implemented bits, and to their supervisor views. -/
def writeMasked (regs : BitVec 12 → BitVec 64) (addr : BitVec 12) (value : BitVec 64) :
    Option (BitVec 12 × BitVec 64) :=
  if addr = Csr.medeleg then some (Csr.medeleg, value &&& medelegMask)
  else if addr = Csr.mideleg then some (Csr.mideleg, value &&& midelegMask)
  else if addr = Csr.mie then some (Csr.mie, value &&& mipMieMask)
  else if addr = Csr.mip then some (Csr.mip, value &&& mipMieMask)
  else if addr = Csr.menvcfg then some (Csr.menvcfg, value &&& menvcfgStce)
  else if addr = Csr.sie then
    let mask := regs Csr.mideleg &&& sieMask
    some (Csr.mie, (regs Csr.mie &&& ~~~mask) ||| (value &&& mask))
  else if addr = Csr.sip then
    let mask := regs Csr.mideleg &&& sieMask
    some (Csr.mip, (regs Csr.mip &&& ~~~mask) ||| (value &&& mask))
  else none

/-- The register that `CsrFile::write(addr, value)` stores to and the value it
stores there, or nothing for a register that ignores writes. -/
def writeTarget (regs : BitVec 12 → BitVec 64) (addr : BitVec 12) (value : BitVec 64) :
    Option (BitVec 12 × BitVec 64) :=
  if ignoresWrite addr then none
  else
    match writeFields regs addr value, writeMasked regs addr value with
    | some target, _ => some target
    | none, some target => some target
    | none, none =>
      if isHpmcounterShadow addr then some (hpmShadowToMachine addr, value) else some (addr, value)

/-- The stored array after `CsrFile::write(addr, value)`. -/
def writeRegs (regs : BitVec 12 → BitVec 64) (addr : BitVec 12) (value : BitVec 64) :
    BitVec 12 → BitVec 64 :=
  match writeTarget regs addr value with
  | none => regs
  | some (target, stored) => Function.update regs target stored

/-- The array after `CsrFile::reset`. -/
def resetRegs : BitVec 12 → BitVec 64 :=
  Function.update (Function.update (fun _ => 0) Csr.misa misaImplementedValue)
    Csr.stimecmp (BitVec.allOnes 64)

/-- The legal value stored for `value` in the register `addr`. -/
def legalize (addr : BitVec 12) (value : BitVec 64) : BitVec 64 :=
  if addr = Csr.mstatus then sanitizeMstatus value
  else if addr = Csr.mie then value &&& mipMieMask
  else if addr = Csr.mip then value &&& mipMieMask
  else if addr = Csr.mideleg then value &&& midelegMask
  else if addr = Csr.medeleg then value &&& medelegMask
  else if addr = Csr.fcsr then value &&& fcsrMask
  else if addr = Csr.menvcfg then value &&& menvcfgStce
  else value

/-- Every register holds a value that its own legalization keeps. -/
def Legal (regs : BitVec 12 → BitVec 64) : Prop := ∀ addr, legalize addr (regs addr) = regs addr

variable {regs : BitVec 12 → BitVec 64}

theorem Legal.update (h : Legal regs) {a : BitVec 12} {v : BitVec 64}
    (hv : legalize a v = v) : Legal (Function.update regs a v) := by
  intro addr
  by_cases ha : addr = a
  · subst ha
    simpa using hv
  · simpa [Function.update_of_ne ha] using h addr

theorem withSdSummary_and_not_sd (w : BitVec 64) :
    withSdSummary w &&& ~~~sd = w &&& ~~~sd := by
  unfold withSdSummary
  split
  · ext i hi
    simp
    grind
  · simp [BitVec.and_assoc]

variable (v : BitVec 64)

theorem sanitizeMstatus_idem : sanitizeMstatus (sanitizeMstatus v) = sanitizeMstatus v := by
  have hclear : ∀ u : BitVec 64, (u &&& ~~~mppMask &&& mppMask) >>> 11 = 0#64 := by
    intro u
    ext i hi
    simp
  have hmove : ∀ u : BitVec 64, u &&& ~~~sd &&& ~~~mppMask &&& ~~~sd =
      u &&& ~~~sd &&& ~~~mppMask := by
    intro u
    ext i hi
    simp
    grind
  have hsd : ∀ u : BitVec 64, u &&& ~~~sd &&& ~~~sd = u &&& ~~~sd := by
    intro u
    ext i hi
    simp
  simp only [sanitizeMstatus, withSdSummary_and_not_sd]
  split_ifs with h1 h2 h2
  · simp [hmove, hclear] at h2
  · simp [hmove]
  · simp only [hsd] at h2
    exact absurd h2 h1
  · simp [hsd]

/-- The registers that `legalize` changes. -/
def legalizedCsrs : List (BitVec 12) :=
  [Csr.mstatus, Csr.mie, Csr.mip, Csr.mideleg, Csr.medeleg, Csr.fcsr, Csr.menvcfg]

variable {addr : BitVec 12}

theorem legalize_of_not_mem (h : addr ∉ legalizedCsrs) (v : BitVec 64) : legalize addr v = v := by
  simp only [legalizedCsrs, List.mem_cons, List.not_mem_nil, or_false, not_or] at h
  simp [legalize, h]

@[simp] theorem legalize_mstatus : legalize mstatus v = sanitizeMstatus v := rfl
@[simp] theorem legalize_mie : legalize mie v = v &&& mipMieMask := rfl
@[simp] theorem legalize_mip : legalize mip v = v &&& mipMieMask := rfl
@[simp] theorem legalize_mideleg : legalize mideleg v = v &&& midelegMask := rfl
@[simp] theorem legalize_medeleg : legalize medeleg v = v &&& medelegMask := rfl
@[simp] theorem legalize_fcsr : legalize fcsr v = v &&& fcsrMask := rfl
@[simp] theorem legalize_menvcfg : legalize menvcfg v = v &&& menvcfgStce := rfl

theorem isHpmcounterShadow_iff : isHpmcounterShadow addr ↔ 0xC03#12 ≤ addr ∧ addr ≤ 0xC1F#12 := by
  simp only [isHpmcounterShadow, Bool.and_eq_true, decide_eq_true_eq]
  rfl

theorem isMhpmcounter_iff : isMhpmcounter addr ↔ 0xB03#12 ≤ addr ∧ addr ≤ 0xB1F#12 := by
  simp only [isMhpmcounter, Bool.and_eq_true, decide_eq_true_eq]
  rfl

theorem isMhpmcounter_hpmShadowToMachine (h : isHpmcounterShadow addr) :
    isMhpmcounter (hpmShadowToMachine addr) := by
  rw [isHpmcounterShadow_iff] at h
  rw [isMhpmcounter_iff, hpmShadowToMachine, mhpmcounter3, hpmcounter3]
  bv_omega

theorem not_mem_legalizedCsrs_of_counter
    (h : isMhpmcounter addr ∨ isMhpmevent addr) : addr ∉ legalizedCsrs := by
  intro hmem
  simp only [legalizedCsrs, List.mem_cons, List.not_mem_nil, or_false] at hmem
  rcases hmem with rfl | rfl | rfl | rfl | rfl | rfl | rfl <;> revert h <;> decide

theorem and_mask_merge {mask sub old new : BitVec 64} (hold : old &&& mask = old)
    (hsub : sub &&& mask = sub) :
    (old &&& ~~~sub ||| new &&& sub) &&& mask = old &&& ~~~sub ||| new &&& sub := by
  rw [← hold, ← hsub]
  ext i hi
  simp
  grind

theorem sieMask_le (m : BitVec 64) : m &&& sieMask &&& mipMieMask = m &&& sieMask := by
  rw [BitVec.and_assoc]
  congr 1

theorem frm_field_le : (v &&& 7) <<< 5 &&& fcsrMask = (v &&& 7) <<< 5 := by
  rw [BitVec.shiftLeft_and_distrib, BitVec.and_assoc]
  congr 1

variable {value stored : BitVec 64}

theorem writeFields_legal (h : Legal regs) {addr target : BitVec 12}
    (hw : writeFields regs addr value = some (target, stored)) :
    legalize target stored = stored := by
  have hfcsr : regs fcsr &&& fcsrMask = regs fcsr := h fcsr
  unfold writeFields at hw
  split_ifs at hw
  all_goals
    rw [some.injEq, Prod.mk.injEq] at hw
    obtain ⟨rfl, rfl⟩ := hw
  · exact sanitizeMstatus_idem _
  · exact and_mask_merge hfcsr (by decide)
  · rw [legalize_fcsr, ← frm_field_le value, ← hfcsr]
    ext i hi
    simp
    grind
  · simp [BitVec.and_assoc]
  · exact sanitizeMstatus_idem _
  · rfl
  · rfl

theorem writeMasked_legal (h : Legal regs) {addr target : BitVec 12}
    (hw : writeMasked regs addr value = some (target, stored)) :
    legalize target stored = stored := by
  have hmie : regs mie &&& mipMieMask = regs mie := h mie
  have hmip : regs mip &&& mipMieMask = regs mip := h mip
  unfold writeMasked at hw
  split_ifs at hw
  all_goals
    rw [some.injEq, Prod.mk.injEq] at hw
    obtain ⟨rfl, rfl⟩ := hw
  · simp [BitVec.and_assoc]
  · simp [BitVec.and_assoc]
  · simp [BitVec.and_assoc]
  · simp [BitVec.and_assoc]
  · simp [BitVec.and_assoc]
  · exact and_mask_merge hmie (sieMask_le _)
  · exact and_mask_merge hmip (sieMask_le _)

theorem not_mem_legalizedCsrs {value : BitVec 64}
    (hf : writeFields regs addr value = none) (hm : writeMasked regs addr value = none) :
    addr ∉ legalizedCsrs := by
  intro hmem
  simp only [legalizedCsrs, List.mem_cons, List.not_mem_nil, or_false] at hmem
  rcases hmem with rfl | rfl | rfl | rfl | rfl | rfl | rfl
  · exact some_ne_none _ hf
  · exact some_ne_none _ hm
  · exact some_ne_none _ hm
  · exact some_ne_none _ hm
  · exact some_ne_none _ hm
  · exact some_ne_none _ hf
  · exact some_ne_none _ hm

theorem writeTarget_legal (h : Legal regs) {addr target : BitVec 12}
    (hw : writeTarget regs addr value = some (target, stored)) :
    legalize target stored = stored := by
  unfold writeTarget at hw
  split at hw
  · cases hw
  cases hf : writeFields regs addr value with
  | some t =>
    rw [hf] at hw
    exact writeFields_legal h (hf.trans hw)
  | none =>
    cases hm : writeMasked regs addr value with
    | some t =>
      rw [hf, hm] at hw
      exact writeMasked_legal h (hm.trans hw)
    | none =>
      simp only [hf, hm] at hw
      split at hw
      · next hs =>
        rw [some.injEq, Prod.mk.injEq] at hw
        obtain ⟨rfl, rfl⟩ := hw
        exact legalize_of_not_mem (not_mem_legalizedCsrs_of_counter
          (.inl (isMhpmcounter_hpmShadowToMachine hs))) _
      · rw [some.injEq, Prod.mk.injEq] at hw
        obtain ⟨rfl, rfl⟩ := hw
        exact legalize_of_not_mem (not_mem_legalizedCsrs hf hm) _

theorem writeRegs_legal (h : Legal regs) (addr : BitVec 12)
    (value : BitVec 64) : Legal (writeRegs regs addr value) := by
  unfold writeRegs
  split
  · exact h
  · next hw => exact h.update (writeTarget_legal h hw)

theorem resetRegs_legal : Legal resetRegs :=
  Legal.update (Legal.update (fun _ => by unfold legalize; split_ifs <;> decide) (by decide))
    (by decide)

end CsrFile

/-- A register array together with the legality of its contents. -/
structure CsrFile where
  regs : BitVec 12 → BitVec 64
  legal : CsrFile.Legal regs

namespace CsrFile

@[ext] theorem ext {a b : CsrFile} (h : a.regs = b.regs) : a = b := by
  cases a
  cases b
  simpa using h

def reset : CsrFile := ⟨resetRegs, resetRegs_legal⟩

variable (csr : CsrFile)

/-- The time base: the bound timer device, or the cycle counter without one. -/
def currentTime (mtime : Option (BitVec 64)) (core : CoreState) : BitVec 64 :=
  mtime.getD core.cycle

def sstcEnabled : Bool := testMask (csr.regs Csr.menvcfg) menvcfgStce

def stimecmpPending (mtime : Option (BitVec 64)) (core : CoreState) : Bool :=
  csr.sstcEnabled && decide (csr.regs Csr.stimecmp ≤ currentTime mtime core)

variable (addr : BitVec 12)

def readCounter (core : CoreState) (mtime : Option (BitVec 64)) :
    Option (BitVec 64) :=
  if addr = Csr.cycle ∨ addr = Csr.mcycle then some core.cycle
  else if addr = Csr.time then some (currentTime mtime core)
  else if addr = Csr.instret ∨ addr = Csr.minstret then some core.instret
  else if isHpmcounterShadow addr then some (csr.regs (hpmShadowToMachine addr))
  else none

/-- Reads of the interrupt registers, where `stimecmp` adds the timer bit. -/
def readInterrupts (core : CoreState) (mtime : Option (BitVec 64)) :
    Option (BitVec 64) :=
  if addr = Csr.mip then
    let value := csr.regs Csr.mip &&& mipMieMask
    some (if csr.stimecmpPending mtime core then value ||| Mie.stie else value)
  else if addr = Csr.sie then
    some (csr.regs Csr.mie &&& csr.regs Csr.mideleg &&& sieMask)
  else if addr = Csr.sip then
    let value := csr.regs Csr.mip &&& csr.regs Csr.mideleg &&& sieMask
    some (if csr.stimecmpPending mtime core && testMask (csr.regs Csr.mideleg) Mie.stie
      then value ||| Mie.stie else value)
  else none

def readFields : BitVec 64 :=
  if addr = Csr.sstatus then
    withSdSummary (csr.regs Csr.mstatus) &&& (sstatusStatusMask ||| Mstatus.sd)
  else if addr = Csr.fflags then csr.regs Csr.fcsr &&& fcsrFflagsMask
  else if addr = Csr.frm then (csr.regs Csr.fcsr &&& fcsrFrmMask) >>> 5
  else if addr = Csr.fcsr then csr.regs Csr.fcsr &&& fcsrMask
  else if addr = Csr.mhartid then 0
  else if addr = Csr.medeleg then csr.regs Csr.medeleg &&& medelegMask
  else if addr = Csr.mideleg then csr.regs Csr.mideleg &&& midelegMask
  else if addr = Csr.mie then csr.regs Csr.mie &&& mipMieMask
  else if addr = Csr.menvcfg then csr.regs Csr.menvcfg &&& menvcfgStce
  else if addr = Csr.mstatus then withSdSummary (csr.regs Csr.mstatus)
  else csr.regs addr

/-- `CsrFile::read(addr, core)`. -/
def read (core : CoreState) (mtime : Option (BitVec 64)) : BitVec 64 :=
  match csr.readCounter addr core mtime, csr.readInterrupts addr core mtime with
  | some value, _ => value
  | none, some value => value
  | none, none => csr.readFields addr

/-- `CsrFile::write(addr, value)`. -/
def writeStored (value : BitVec 64) : CsrFile :=
  ⟨writeRegs csr.regs addr value, writeRegs_legal csr.legal addr value⟩

/-- `CsrFile::write(addr, value, core)`: the machine counters are kept in the core. -/
def write (value : BitVec 64) (core : CoreState) : CsrFile × CoreState :=
  if addr = Csr.mcycle then (csr, { core with cycle := value })
  else if addr = Csr.minstret then (csr, { core with instret := value })
  else (csr.writeStored addr value, core)

end CsrFile

end VisualCpu
