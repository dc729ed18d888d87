import VisualCpu.Library.Sv39
import VisualCpu.Mem.RamFacts
import VisualCpu.TrapEntry

/-!
# The page-table walk against Sv39

With an empty translation buffer `translate` is the translation of the architecture, over the
same bus: the same result, the same fault and the same bus afterwards.
-/

namespace VisualCpu

open Sv39 Pte AddressSpace
open BitVec hiding not_not

def AccessType.toSv39 : AccessType → Sv39.Access
  | .instruction => .fetch
  | .load => .load
  | .store => .store

namespace AccessContext

variable (ctx : AccessContext)

/-- The privilege of an access in the architecture. MPRV counts in machine mode, outside of
which it is always clear; the reserved value of MPP reads as user mode. -/
def sv39Privilege (type : AccessType) : PrivilegeMode :=
  if type ≠ .instruction ∧ ctx.privilege = .machine ∧ ctx.mstatus.getLsbD 17 then
    match ctx.mstatus.toNat / 2 ^ 11 % 2 ^ 2 with
    | 0 => .user
    | 1 => .supervisor
    | 3 => .machine
    | _ => .user
  else ctx.privilege

def sv39Rights (type : AccessType) : Sv39.Rights where
  userMode := ctx.sv39Privilege type = .user
  sum := ctx.mstatus.getLsbD 18
  mxr := ctx.mstatus.getLsbD 19

def sv39Root : ℕ := ctx.satp.toNat % 2 ^ 44

end AccessContext

def sv39Result (type : AccessType) (vaddr : BitVec 64) :
    Sv39.Outcome → Except TrapRequest (BitVec 64)
  | .mapped pa => .ok pa
  | .pageFault => .error (type.pageFault vaddr)
  | .accessFault => .error (type.accessFault vaddr)

section Reference

variable {D : Type} [Devices D]

def readEntry (bus : Bus D) (addr : BitVec 64) : Option (BitVec 64) × Bus D := bus.tryLoad addr 8

def writeEntry (bus : Bus D) (addr value : BitVec 64) : Bool × Bus D := bus.tryStore addr value 8

/-- Sv39 on the bus. Machine mode is not translated. -/
def sv39Translate (ctx : AccessContext) (vaddr : BitVec 64) (type : AccessType) (update : Bool)
    (bus : Bus D) : Except TrapRequest (BitVec 64) × Bus D :=
  if ctx.sv39Privilege type = .machine then (.ok vaddr, bus)
  else
    let result := Sv39.translate readEntry writeEntry (ctx.sv39Rights type) type.toSv39 update
      vaddr ctx.sv39Root bus
    (sv39Result type vaddr result.1, result.2)

end Reference

section Bits

theorem lowMask_toNat {n : ℕ} (hn : n < 64) : ((1#64 <<< n) - 1).toNat = 2 ^ n - 1 := by
  have hlt : 2 ^ n < 2 ^ 64 := Nat.pow_lt_pow_right (by decide) hn
  have hpos := Nat.two_pow_pos n
  have hshift : (1#64 <<< n).toNat = 2 ^ n := by
    rw [toNat_shiftLeft, Nat.shiftLeft_eq, show (1#64).toNat = 1 from rfl, Nat.one_mul,
      Nat.mod_eq_of_lt hlt]
  rw [toNat_sub, hshift, show (1 : BitVec 64).toNat = 1 from rfl]
  omega

theorem and_lowMask_toNat (x : BitVec 64) {n : ℕ} (hn : n < 64) :
    (x &&& ((1#64 <<< n) - 1)).toNat = x.toNat % 2 ^ n := by
  rw [toNat_and, lowMask_toNat hn, Nat.and_two_pow_sub_one_eq_mod]

theorem testMask_low (x : BitVec 64) {n : ℕ} (hn : n < 64) :
    testMask x ((1#64 <<< n) - 1) = decide (x.toNat % 2 ^ n ≠ 0) := by
  rw [testMask, Bool.eq_iff_iff, bne_iff_ne, decide_eq_true_eq, ne_eq, ← toNat_inj,
    and_lowMask_toNat x hn]
  rfl

variable (pte : BitVec 64)

theorem pte_ppn : (Pte.ppn pte).toNat = Sv39.ppn pte := by
  rw [Pte.ppn, ppnMask, and_lowMask_toNat _ (by decide), toNat_ushiftRight,
    Nat.shiftRight_eq_div_pow]
  rfl

theorem testMask_reserved : testMask pte reservedMask = Sv39.reserved pte := by
  have hsplit : (pte &&& reservedMask = 0) ↔ pte >>> 54 = 0 := by
    constructor
    · intro h
      apply eq_of_getLsbD_eq
      intro i hi
      have hbit := congrArg (fun x => x.getLsbD (54 + i)) h
      have hmask : ∀ i < 10, reservedMask.getLsbD (54 + i) := by decide
      rw [getLsbD_ushiftRight]
      by_cases hin : i < 10
      · simpa [hmask i hin] using hbit
      · simp [getLsbD_of_ge pte (54 + i) (by omega)]
    · intro h
      apply eq_of_getLsbD_eq
      intro i hi
      have hmask : ∀ i < 54, reservedMask.getLsbD i = false := by decide
      rw [getLsbD_and]
      by_cases hlow : i < 54
      · simp [hmask i hlow]
      have hbit := congrArg (fun x => x.getLsbD (i - 54)) h
      simp only [getLsbD_ushiftRight, show 54 + (i - 54) = i by omega] at hbit
      simp [hbit]
  rw [testMask, Sv39.reserved, Bool.eq_iff_iff, bne_iff_ne, decide_eq_true_eq, ne_eq, hsplit,
    ← toNat_inj, toNat_ushiftRight, Nat.shiftRight_eq_div_pow,
    show (0 : BitVec 64).toNat = 0 from rfl]
  omega

theorem testMask_bit {k : ℕ} (hk : k < 64) :
    testMask pte (1#64 <<< k) = pte.getLsbD k := testMask_iff hk

theorem testMask_or (x m n : BitVec 64) :
    testMask x (m ||| n) = (testMask x m || testMask x n) := by
  rw [testMask, testMask, testMask, and_or_distrib_left, Bool.eq_iff_iff, Bool.or_eq_true,
    bne_iff_ne, bne_iff_ne, bne_iff_ne, ← not_and_or, not_iff_not]
  exact or_eq_zero_iff

theorem pte_leaf : Pte.isLeaf pte = (Sv39.leaf pte || Sv39.writable pte) := by
  rw [Pte.isLeaf, testMask_or, testMask_or, Pte.r, Pte.w, Pte.x, testMask_bit _ (by decide),
    testMask_bit _ (by decide), testMask_bit _ (by decide), Sv39.leaf, Sv39.readable,
    Sv39.executable, Sv39.writable, Bool.or_right_comm]

theorem entry_addr (base : BitVec 64) (vaddr : BitVec 64) (level : ℕ)
    (hbase : base.toNat < 2 ^ 44) :
    (base <<< 12) ||| (AddressSpace.vpn vaddr level <<< 3) =
      BitVec.ofNat 64 (base.toNat * 2 ^ 12 + Sv39.vpn vaddr level * 2 ^ 3) := by
  have hvpn : (AddressSpace.vpn vaddr level).toNat = Sv39.vpn vaddr level := by
    rw [AddressSpace.vpn, show (0x1FF : BitVec 64) = (1#64 <<< 9) - 1 from rfl,
      and_lowMask_toNat _ (by decide), toNat_ushiftRight, Nat.shiftRight_eq_div_pow]
    rfl
  have hsmall : Sv39.vpn vaddr level < 2 ^ 9 := Nat.mod_lt _ (by decide)
  apply eq_of_toNat_eq
  rw [toNat_or, toNat_shiftLeft, toNat_shiftLeft, hvpn,
    Nat.shiftLeft_eq (Sv39.vpn vaddr level), Nat.mod_eq_of_lt (a := _ * 2 ^ 3) (by omega),
    Nat.mod_eq_of_lt (a := base.toNat <<< 12) (by rw [Nat.shiftLeft_eq]; omega),
    ← Nat.shiftLeft_add_eq_or_of_lt (by omega), Nat.shiftLeft_eq, toNat_ofNat,
    Nat.mod_eq_of_lt (by omega)]

variable (vaddr : BitVec 64) {level : ℕ}

theorem pageMask_toNat {shift : ℕ} (hshift : shift < 64) :
    (vaddr &&& pageMask shift).toNat = vaddr.toNat % 2 ^ shift := by
  rw [pageMask, and_lowMask_toNat _ hshift]

theorem misaligned_eq (hlevel : level < 3) :
    AddressSpace.misalignedSuperpage level pte = misaligned pte level := by
  rw [misaligned, ← pte_ppn]
  have hcases : level = 0 ∨ level = 1 ∨ level = 2 := by omega
  rcases hcases with rfl | rfl | rfl
  · simp [AddressSpace.misalignedSuperpage, Nat.mod_one]
  · exact testMask_low (Pte.ppn pte) (n := 9) (by decide)
  · exact testMask_low (Pte.ppn pte) (n := 18) (by decide)

theorem physical_eq (vaddr pte : BitVec 64) (hlevel : level < 3)
    (haligned : misaligned pte level = false) :
    (Pte.ppn pte <<< 12) ||| (vaddr &&& pageMask (12 + 9 * level)) = physical vaddr level pte := by
  rw [misaligned, decide_eq_false_iff_not, not_not] at haligned
  have hppn : Sv39.ppn pte < 2 ^ 44 := Nat.mod_lt _ (by decide)
  have hpage : Sv39.ppn pte / 2 ^ (9 * level) * 2 ^ (12 + 9 * level) = Sv39.ppn pte * 2 ^ 12 := by
    rw [Nat.add_comm 12, Nat.pow_add, ← Nat.mul_assoc,
      Nat.div_mul_cancel (Nat.dvd_of_mod_eq_zero haligned)]
  have hoffset : vaddr.toNat % 2 ^ (12 + 9 * level) < 2 ^ (12 + 9 * level) :=
    Nat.mod_lt _ (Nat.two_pow_pos _)
  have hbound : 2 ^ (12 + 9 * level) ≤ 2 ^ 30 := Nat.pow_le_pow_right (by decide) (by omega)
  have hsum : Sv39.ppn pte * 2 ^ 12 ||| vaddr.toNat % 2 ^ (12 + 9 * level) =
      Sv39.ppn pte * 2 ^ 12 + vaddr.toNat % 2 ^ (12 + 9 * level) := by
    rw [← hpage, ← Nat.shiftLeft_eq (Sv39.ppn pte / _), Nat.shiftLeft_add_eq_or_of_lt hoffset]
  have htotal : Sv39.ppn pte * 2 ^ 12 + vaddr.toNat % 2 ^ (12 + 9 * level) < 2 ^ 64 := by omega
  apply eq_of_toNat_eq
  rw [toNat_or, toNat_shiftLeft, pageMask_toNat _ (by omega), pte_ppn,
    Nat.shiftLeft_eq, Nat.mod_eq_of_lt (Nat.lt_of_le_of_lt (Nat.le_add_right _ _) htotal), hsum,
    physical, hpage, toNat_ofNat, Nat.mod_eq_of_lt htotal]

theorem upper_eq_iff (bit : Bool) :
    (vaddr >>> 39 = if bit then (1#64 <<< 25) - 1 else 0) ↔
      ∀ i, 39 ≤ i → i < 64 → vaddr.getLsbD i = bit := by
  have hmask : ∀ j < 64, ((1#64 <<< 25) - 1).getLsbD j = decide (j < 25) := by decide
  have hbits : ∀ j < 64, (if bit then (1#64 <<< 25) - 1 else 0 : BitVec 64).getLsbD j =
      (bit && decide (j < 25)) := by
    intro j hj
    cases bit
    · simp
    · simpa using hmask j hj
  constructor
  · intro h i hlow hhigh
    have hbit := congrArg (fun x => x.getLsbD (i - 39)) h
    simp only [getLsbD_ushiftRight, show 39 + (i - 39) = i by omega,
      hbits (i - 39) (by omega)] at hbit
    rw [hbit, decide_eq_true (by omega), Bool.and_true]
  · intro h
    apply eq_of_getLsbD_eq
    intro j hj
    rw [getLsbD_ushiftRight, hbits j hj]
    by_cases hin : j < 25
    · rw [h _ (by omega) (by omega), decide_eq_true hin, Bool.and_true]
    · rw [getLsbD_of_ge _ _ (by omega), decide_eq_false hin, Bool.and_false]

theorem signBit_iff : ((vaddr >>> 38) &&& 1 ≠ 0) ↔ vaddr.getLsbD 38 := by
  have hbit := Bits.and_shift_ne_zero_iff (vaddr >>> 38) (k := 0) (by decide)
  rw [getLsbD_ushiftRight] at hbit
  exact hbit

theorem canonical_eq : isSv39Canonical vaddr = canonical vaddr := by
  have hextend : ∀ i < 64, ((vaddr.setWidth 39).signExtend 64).getLsbD i =
      if i < 39 then vaddr.getLsbD i else vaddr.getLsbD 38 := by
    intro i hi
    rw [getLsbD_signExtend, decide_eq_true hi, Bool.true_and, getLsbD_setWidth]
    split
    · rename_i hlow
      rw [decide_eq_true hlow, Bool.true_and]
    rw [msb_eq_getLsbD_last, getLsbD_setWidth]
    rfl
  rw [isSv39Canonical, canonical, Bool.eq_iff_iff, beq_iff_eq, beq_iff_eq]
  simp only [signBit_iff]
  rw [upper_eq_iff]
  constructor
  · intro h
    apply eq_of_getLsbD_eq
    intro i hi
    rw [hextend i hi]
    split
    · rfl
    · exact (h i (by omega) hi).symm
  · intro h i hlow hhigh
    have hbit := hextend i hhigh
    rw [h, if_neg (by omega)] at hbit
    exact hbit

theorem withAccessBits_eq (type : AccessType) :
    Pte.withAccessBits pte type = Sv39.withAccessBits pte type.toSv39 := by
  cases type
  · exact (or_zero).symm
  · exact (or_zero).symm
  · rfl

theorem or_twoPow_self (x : BitVec 64) {k : ℕ} (hk : k < 64) :
    x ||| twoPow 64 k = x ↔ x.getLsbD k := by
  constructor
  · intro h
    have hbit := congrArg (fun y => y.getLsbD k) h
    simpa [getLsbD_twoPow, hk] using hbit
  intro h
  apply eq_of_getLsbD_eq
  intro i hi
  rw [getLsbD_or, getLsbD_twoPow]
  by_cases hik : k = i
  · rw [← hik, h, Bool.true_or]
  · rw [decide_eq_false hik, Bool.and_false, Bool.or_false]

theorem withAccessBits_self (type : AccessType) :
    Pte.withAccessBits pte type = pte ↔ lacksAccessBits pte type.toSv39 = false := by
  have haccessed := or_twoPow_self pte (k := 6) (by decide)
  have hload : pte ||| Pte.a = pte ↔ accessed pte := haccessed
  cases type with
  | instruction => simpa [Pte.withAccessBits, lacksAccessBits, AccessType.toSv39] using hload
  | load => simpa [Pte.withAccessBits, lacksAccessBits, AccessType.toSv39] using hload
  | store =>
    have hstore : pte ||| Pte.a ||| d = pte ↔ accessed pte ∧ Sv39.dirty pte := by
      constructor
      · intro h
        have ha := congrArg (fun x => x.getLsbD 6) h
        have hd := congrArg (fun x => x.getLsbD 7) h
        simp [Pte.a, d] at ha hd
        exact ⟨ha, hd⟩
      · rintro ⟨ha, hd⟩
        rw [hload.2 ha]
        exact (or_twoPow_self pte (k := 7) (by decide)).2 hd
    simpa [Pte.withAccessBits, lacksAccessBits, AccessType.toSv39] using hstore

end Bits

section Translate

variable (ctx : AccessContext) (type : AccessType)

theorem mpp_toNat (mstatus : BitVec 64) :
    (((mstatus &&& Mstatus.mppMask) >>> 11) &&& 3).toNat = mstatus.toNat / 2 ^ 11 % 2 ^ 2 := by
  have hthree : (3 : BitVec 64) = (1#64 <<< 2) - 1 := rfl
  rw [ushiftRight_and_distrib, show Mstatus.mppMask >>> 11 = (3 : BitVec 64) from rfl,
    BitVec.and_assoc, BitVec.and_self, hthree, and_lowMask_toNat _ (by decide),
    toNat_ushiftRight, Nat.shiftRight_eq_div_pow]

theorem privilege_eq : ctx.effectiveMode type = ctx.sv39Privilege type := by
  rw [AccessContext.effectiveMode, AccessContext.sv39Privilege, Mstatus.mprv,
    testMask_bit _ (by decide), PrivilegeMode.decode, mpp_toNat]
  by_cases htype : type = .instruction
  · rw [if_pos htype, if_neg fun h => h.1 htype]
  rw [if_neg htype]
  by_cases hmode : ctx.privilege = .machine ∧ ctx.mstatus.getLsbD 17
  · exact (if_pos hmode).trans (if_pos ⟨htype, hmode⟩).symm
  · rw [if_neg hmode, if_neg fun h => hmode h.2]

theorem mode_cases {mode : PrivilegeMode} (h : mode ≠ .machine) :
    mode = .user ∨ mode = .supervisor := by
  cases mode with
  | user => exact .inl rfl
  | supervisor => exact .inr rfl
  | machine => exact absurd rfl h

theorem checkLeaf_eq (pte : BitVec 64) (hmode : ctx.sv39Privilege type ≠ .machine) :
    AddressSpace.checkLeafPermissions ctx type pte =
      ((Sv39.readable pte || !Sv39.writable pte) &&
        permits pte (ctx.sv39Rights type) type.toSv39) := by
  unfold AddressSpace.checkLeafPermissions
  simp only [Pte.r, Pte.w, Pte.x, Pte.u, Mstatus.mxr, Mstatus.sum, canAccessUserPage,
    testMask_bit _ (by decide : 1 < 64), testMask_bit _ (by decide : 2 < 64),
    testMask_bit _ (by decide : 3 < 64), testMask_bit _ (by decide : 4 < 64),
    testMask_bit _ (by decide : 18 < 64), testMask_bit _ (by decide : 19 < 64), privilege_eq,
    permits, AccessContext.sv39Rights, Sv39.readable, Sv39.writable, Sv39.executable,
    Sv39.user]
  generalize pte.getLsbD 1 = r, pte.getLsbD 2 = w, pte.getLsbD 3 = x, pte.getLsbD 4 = u,
    ctx.mstatus.getLsbD 18 = sum, ctx.mstatus.getLsbD 19 = mxr
  rcases mode_cases hmode with hp | hp <;> simp only [hp] <;> cases type <;>
    revert r w x u sum mxr <;> decide

variable {D : Type} [Devices D] (vaddr : BitVec 64) (update : Bool) {as : AddressSpace D}

theorem finishLeaf_eq (as : AddressSpace D) (hmode : ctx.sv39Privilege type ≠ .machine)
    {level : ℕ} (hlevel : level < 3) (addr pte : BitVec 64)
    (hwritable : (Sv39.readable pte || !Sv39.writable pte) = true) :
    let code := as.finishLeaf ctx vaddr type update level addr pte
    let reference := Sv39.finish writeEntry (ctx.sv39Rights type) type.toSv39 update vaddr level
      addr pte as.bus
    code.1 = sv39Result type vaddr reference.1 ∧ code.2.bus = reference.2 := by
  unfold AddressSpace.finishLeaf
  rw [Sv39.finish, checkLeaf_eq ctx type pte hmode, hwritable, Bool.true_and,
    misaligned_eq pte hlevel]
  cases hpermits : permits pte (ctx.sv39Rights type) type.toSv39 with
  | false => simp [sv39Result]
  | true =>
    cases haligned : misaligned pte level with
    | true => simp [sv39Result]
    | false =>
      have hphysical := physical_eq vaddr pte hlevel haligned
      have hself := withAccessBits_self pte type
      simp only [Bool.not_true, Bool.or_self, Bool.false_eq_true, if_false, hphysical]
      cases update with
      | false => exact ⟨rfl, rfl⟩
      | true =>
        rw [if_pos rfl, AddressSpace.updatePteAccessBits, Bool.true_and]
        by_cases hlacks : lacksAccessBits pte type.toSv39
        · rw [if_neg fun h => absurd (hself.1 h) (by rw [hlacks]; decide),
            if_pos hlacks, withAccessBits_eq, writeEntry]
          rcases as.bus.tryStore addr (Sv39.withAccessBits pte type.toSv39) 8 with ⟨_ | _, bus⟩
          · exact ⟨rfl, rfl⟩
          · exact ⟨rfl, rfl⟩
        · rw [if_pos (hself.2 (Bool.eq_false_of_not_eq_true hlacks)), if_neg hlacks]
          exact ⟨rfl, rfl⟩

theorem walkFrom_eq (as : AddressSpace D) (hmode : ctx.sv39Privilege type ≠ .machine)
    (levels : ℕ) (hlevels : levels ≤ 3) (base : BitVec 64) (hbase : base.toNat < 2 ^ 44) :
    let code := AddressSpace.walkFrom ctx as vaddr type update levels base
    let reference := Sv39.walk readEntry writeEntry (ctx.sv39Rights type) type.toSv39 update vaddr
      levels base.toNat as.bus
    code.1 = sv39Result type vaddr reference.1 ∧ code.2.bus = reference.2 := by
  induction levels generalizing as base with
  | zero => exact ⟨rfl, rfl⟩
  | succ level ih =>
    rw [AddressSpace.walkFrom, Sv39.walk, entry_addr base vaddr level hbase, readEntry]
    rcases as.bus.tryLoad (BitVec.ofNat 64 (base.toNat * 2 ^ 12 + Sv39.vpn vaddr level * 2 ^ 3)) 8
      with ⟨_ | pte, bus⟩
    · exact ⟨rfl, rfl⟩
    have hv : testMask pte v = Sv39.valid pte := testMask_bit pte (by decide)
    have hpointer : testMask pte (Pte.u ||| Pte.a ||| d) =
        (Sv39.user pte || accessed pte || Sv39.dirty pte) := by
      rw [testMask_or, testMask_or, Pte.u, Pte.a, d, testMask_bit _ (by decide),
        testMask_bit _ (by decide), testMask_bit _ (by decide)]
      rfl
    dsimp only
    rw [hv, testMask_reserved, pte_leaf, hpointer, malformed]
    cases Sv39.valid pte with
    | false => exact ⟨rfl, rfl⟩
    | true =>
      cases Sv39.reserved pte with
      | true => rw [Bool.or_true, Bool.true_or]; exact ⟨rfl, rfl⟩
      | false =>
        by_cases hwritable : (Sv39.readable pte || !Sv39.writable pte) = true
        · have hencoding : (!Sv39.readable pte && Sv39.writable pte) = false := by
            revert hwritable
            cases Sv39.readable pte <;> cases Sv39.writable pte <;> decide
          rw [hencoding]
          cases hleaf : Sv39.leaf pte with
          | true => exact finishLeaf_eq ctx type vaddr update _ hmode (by omega) _ pte hwritable
          | false =>
            have hreadonly : Sv39.writable pte = false := by
              rw [Sv39.leaf, Bool.or_eq_false_iff] at hleaf
              rw [hleaf.1, Bool.false_or, Bool.not_eq_true'] at hwritable
              exact hwritable
            rw [hreadonly]
            cases Sv39.user pte || accessed pte || Sv39.dirty pte with
            | true => exact ⟨rfl, rfl⟩
            | false =>
              have hppn : (Pte.ppn pte).toNat < 2 ^ 44 := by
                rw [pte_ppn]
                exact Nat.mod_lt _ (by decide)
              have hnext := ih { as with bus } (by omega) (Pte.ppn pte) hppn
              rw [pte_ppn] at hnext
              exact hnext
        · have hencoding : (!Sv39.readable pte && Sv39.writable pte) = true ∧
              (Sv39.leaf pte || Sv39.writable pte) = true := by
            revert hwritable
            cases Sv39.readable pte <;> cases Sv39.writable pte <;> simp
          rw [hencoding.1, hencoding.2]
          have hdenied : AddressSpace.checkLeafPermissions ctx type pte = false := by
            rw [checkLeaf_eq ctx type pte hmode, Bool.eq_false_of_not_eq_true hwritable,
              Bool.false_and]
          constructor
          · unfold AddressSpace.finishLeaf
            rw [hdenied]
            rfl
          · unfold AddressSpace.finishLeaf
            rw [hdenied]
            rfl

theorem satpRoot_toNat : (ctx.satp &&& CsrFile.satpPpnMask).toNat = ctx.sv39Root := by
  rw [CsrFile.satpPpnMask, and_lowMask_toNat _ (by decide)]
  rfl

omit [Devices D] in
theorem lookupTlb_empty (hempty : ∀ i, (as.tlb i).valid = false)
    (satp : BitVec 64) : as.lookupTlb satp vaddr = none := by
  rw [lookupTlb, List.find?_eq_none]
  intro i _
  rw [entryMatches, hempty i, Bool.false_and, Bool.false_and]
  exact Bool.false_ne_true

/-- With an empty buffer the translation is that of the architecture. -/
theorem translate_eq (hsv39 : ctx.satpMode = CsrFile.satpModeSv39)
    (hempty : ∀ i, (as.tlb i).valid = false) :
    (as.translate ctx vaddr type update).1 = (sv39Translate ctx vaddr type update as.bus).1 ∧
      (as.translate ctx vaddr type update).2.bus =
        (sv39Translate ctx vaddr type update as.bus).2 := by
  rw [AddressSpace.translate, sv39Translate, hsv39, privilege_eq]
  by_cases hmode : ctx.sv39Privilege type = .machine
  · rw [if_pos (.inr hmode), if_pos hmode]
    exact ⟨rfl, rfl⟩
  rw [if_neg (by rw [or_iff_left hmode]; decide), if_neg (not_not.2 rfl), if_neg hmode,
    canonical_eq, Sv39.translate]
  cases canonical vaddr with
  | false => exact ⟨rfl, rfl⟩
  | true =>
    rw [lookupTlb_empty vaddr hempty]
    have hroot : (ctx.satp &&& CsrFile.satpPpnMask).toNat < 2 ^ 44 := by
      rw [satpRoot_toNat]
      exact Nat.mod_lt _ (by decide)
    have hwalk := walkFrom_eq ctx type vaddr update as hmode 3 (Nat.le_refl 3) _ hroot
    rw [satpRoot_toNat] at hwalk
    exact hwalk

end Translate

section Claim

variable {D : Type} [Devices D]

/-- A device that refuses a store of an entry has changed no RAM. -/
def RefusedStoresKeepRam (D : Type) [Devices D] : Prop :=
  ∀ (devices : D) ram addr value, (Devices.store devices ram addr value 8).1 = false →
    (Devices.store devices ram addr value 8).2.2 = ram

/-- The RAM is as before, or the translation succeeded and stored the access bits of the leaf
entry that it had read. -/
def OnlyAccessBits (type : AccessType) (update : Bool) (bus : Bus D)
    (result : Except TrapRequest (BitVec 64) × Bus D) : Prop :=
  result.2.ram = bus.ram ∨ update ∧ ∃ (pa : BitVec 64) (start before : Bus D)
    (addr pte : BitVec 64),
    result.1 = .ok pa ∧ before.ram = bus.ram ∧ start.tryLoad addr 8 = (some pte, before) ∧
    Sv39.leaf pte ∧
    before.tryStore addr (Sv39.withAccessBits pte type.toSv39) 8 = (true, result.2)

theorem readEntry_ram (bus : Bus D) (addr : BitVec 64) : (readEntry bus addr).2.ram = bus.ram := by
  rw [readEntry, Bus.tryLoad]
  split <;> rfl

theorem writeEntry_refused (hrefused : RefusedStoresKeepRam D) (bus : Bus D)
    (addr value : BitVec 64) (h : (writeEntry bus addr value).1 = false) :
    (writeEntry bus addr value).2.ram = bus.ram := by
  rw [writeEntry, Bus.tryStore] at h ⊢
  cases hregion : Bus.describeRegion D addr 8 with
  | ram =>
    rw [hregion] at h
    cases h
  | mmio =>
    rw [hregion] at h
    exact hrefused bus.devices bus.ram addr value h
  | unmapped => rfl

theorem sv39Translate_ram (hrefused : RefusedStoresKeepRam D) (ctx : AccessContext)
    (vaddr : BitVec 64) (type : AccessType) (update : Bool) (bus : Bus D) :
    OnlyAccessBits type update bus (sv39Translate ctx vaddr type update bus) := by
  rw [sv39Translate]
  split
  · exact .inl rfl
  rcases translate_view readEntry writeEntry (ctx.sv39Rights type) type.toSv39 update vaddr
    Bus.ram readEntry_ram (writeEntry_refused hrefused) ctx.sv39Root bus with
    hkept | ⟨hupdate, start, before, addr, pte, pa, hview, hread, hleaf, hwrite, hmapped⟩
  · exact .inl hkept
  refine .inr ⟨hupdate, pa, start, before, addr, pte, ?_, hview, hread, hleaf, hwrite⟩
  dsimp only
  rw [hmapped]
  rfl

/-- A root table in RAM with a leaf of 1 GiB for address zero. -/
def sv39Bus : Bus Unit where
  ram := Ram.store (fun _ => 0) 0x80000000 0x2000000F 8
  devices := ()
  lastAccessMmio := false

def sv39Space : AddressSpace Unit := ⟨fun _ => .empty, 0, .disabled, sv39Bus⟩

def sv39Context : AccessContext := ⟨0x8000000000080000, 0, .supervisor⟩

end Claim

end VisualCpu
