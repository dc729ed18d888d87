import VisualCpu.Mem.AddressSpace
import VisualCpu.Mem.RamFacts

/-!
# Transparency of the translation buffer

A valid entry of the buffer agrees with the page tables in memory: a walk from
scratch reaches the same leaf entry, up to the access bits. The invariant holds
as long as only the walker writes the page tables between two flushes, and it
makes a translation through the buffer return what the walk returns.
-/

namespace VisualCpu

open BitVec AddressSpace

namespace Pte

def accessMask : BitVec 64 := a ||| d

/-- The two entries differ at most in their access bits. -/
def SameButAccess (p q : BitVec 64) : Prop := p &&& ~~~accessMask = q &&& ~~~accessMask

variable {p q : BitVec 64}

section

variable (h : SameButAccess p q) {m : BitVec 64}

include h

theorem SameButAccess.and (hm : accessMask &&& m = 0) : p &&& m = q &&& m := by
  rw [← Bits.clear_and_of_disjoint hm p, ← Bits.clear_and_of_disjoint hm q, h]

theorem SameButAccess.testMask
    (hm : accessMask &&& m = 0) : testMask p m = testMask q m := by
  unfold VisualCpu.testMask
  rw [h.and hm]

theorem SameButAccess.ppn : Pte.ppn p = Pte.ppn q := by
  have hshift : ∀ r : BitVec 64, Pte.ppn r = (r &&& (ppnMask <<< 10)) >>> 10 := by
    intro r
    rw [ushiftRight_and_distrib]
    rfl
  rw [hshift p, hshift q, h.and (by decide)]

theorem SameButAccess.isLeaf : Pte.isLeaf p = Pte.isLeaf q :=
  h.testMask (by decide)

end

theorem withAccessBits_same (pte : BitVec 64) (type : AccessType) :
    SameButAccess (withAccessBits pte type) pte := by
  have ha : ∀ r : BitVec 64, SameButAccess (r ||| a) r := fun r =>
    Bits.or_and_of_disjoint (by decide) r
  have hd : ∀ r : BitVec 64, SameButAccess (r ||| d) r := fun r =>
    Bits.or_and_of_disjoint (by decide) r
  unfold withAccessBits
  split_ifs
  · exact (hd _).trans (ha _)
  · exact ha _

theorem SameButAccess.checkLeafPermissions (h : SameButAccess p q)
    (ctx : AccessContext) (type : AccessType) :
    checkLeafPermissions ctx type p = checkLeafPermissions ctx type q := by
  unfold AddressSpace.checkLeafPermissions
  rw [h.testMask (m := r) (by decide), h.testMask (m := w) (by decide),
    h.testMask (m := x) (by decide), h.testMask (m := u) (by decide)]

theorem SameButAccess.misalignedSuperpage (h : SameButAccess p q) (level : ℕ) :
    misalignedSuperpage level p = misalignedSuperpage level q := by
  unfold AddressSpace.misalignedSuperpage
  rw [h.ppn]

end Pte

namespace AddressSpace

variable {level : ℕ}

theorem pageMask_eq (hlevel : level < 3) :
    pageMask (12 + 9 * level) = (allOnes (12 + 9 * level)).setWidth 64 := by
  have hcases : level = 0 ∨ level = 1 ∨ level = 2 := by omega
  rcases hcases with rfl | rfl | rfl <;> decide

theorem pageMask_getLsbD (hlevel : level < 3) (k : ℕ) :
    (pageMask (12 + 9 * level)).getLsbD k = decide (k < 12 + 9 * level) := by
  rw [pageMask_eq hlevel, getLsbD_setWidth, getLsbD_allOnes]
  by_cases hk : k < 12 + 9 * level
  · have : k < 64 := by omega
    simp [hk, this]
  · simp [hk]

theorem frame_and_pageMask (hlevel : level < 3) {pte : BitVec 64}
    (h : misalignedSuperpage level pte = false) :
    (Pte.ppn pte <<< 12) &&& pageMask (12 + 9 * level) = 0 := by
  have hzero : ∀ m : BitVec 64, testMask (Pte.ppn pte) m = false → ∀ k, m.getLsbD k →
      (Pte.ppn pte).getLsbD k = false := by
    intro m hm k hk
    have hand : Pte.ppn pte &&& m = 0 := by
      simpa [testMask] using hm
    have := congrArg (·.getLsbD k) hand
    simpa [hk] using this
  apply eq_of_getLsbD_eq
  intro k hk
  rw [getLsbD_and, pageMask_getLsbD hlevel, getLsbD_shiftLeft]
  by_cases hlow : k < 12
  · simp [hlow]
  by_cases hoff : k < 12 + 9 * level
  · have hbit : (Pte.ppn pte).getLsbD (k - 12) = false := by
      have hcases : level = 0 ∨ level = 1 ∨ level = 2 := by omega
      rcases hcases with rfl | rfl | rfl
      · omega
      · refine hzero _ h _ ?_
        have hmask : (0x1FF : BitVec 64) = (allOnes 9).setWidth 64 := by decide
        rw [hmask, getLsbD_setWidth, getLsbD_allOnes, Bool.and_eq_true]
        exact ⟨by simp; omega, by simp; omega⟩
      · refine hzero _ h _ ?_
        have hmask : (1#64 <<< 18) - 1 = (allOnes 18).setWidth 64 := by decide
        rw [hmask, getLsbD_setWidth, getLsbD_allOnes, Bool.and_eq_true]
        exact ⟨by simp; omega, by simp; omega⟩
    simp [hbit]
  · simp [hoff]

theorem vpn_congr {level k : ℕ} (hlevel : level < 3) (hk : level ≤ k) {va vb : BitVec 64}
    (h : va &&& ~~~pageMask (12 + 9 * level) = vb &&& ~~~pageMask (12 + 9 * level)) :
    vpn va k = vpn vb k := by
  have hbit : ∀ j, 12 + 9 * level ≤ j → va.getLsbD j = vb.getLsbD j := by
    intro j hj
    by_cases hj64 : j < 64
    · have hj' := congrArg (·.getLsbD j) h
      simp only [getLsbD_and, getLsbD_not, pageMask_getLsbD hlevel] at hj'
      simpa only [Nat.not_lt.2 hj, hj64, decide_true, decide_false, Bool.not_false, Bool.and_true]
        using hj'
    · rw [getLsbD_of_ge _ _ (by omega), getLsbD_of_ge _ _ (by omega)]
  unfold vpn
  congr 1
  apply eq_of_getLsbD_eq
  intro i hi
  rw [getLsbD_ushiftRight, getLsbD_ushiftRight]
  exact hbit _ (by omega)

/-- The address of the entry that a walk reads at a level. -/
def pteAddrAt (vaddr ppn : BitVec 64) (level : ℕ) : BitVec 64 :=
  (ppn <<< 12) ||| (vpn vaddr level <<< 3)

/-- A set of words of RAM that hold page tables. -/
structure TableMemory (tables : Set (BitVec 64)) : Prop where
  in_ram : ∀ addr ∈ tables, Ram.contains addr 8
  aligned : ∀ addr ∈ tables, addr.toNat % 8 = 0

/-- A walk with `levels` levels left reaches a leaf at `level`, in the entry at
`addr`, and reads only entries in `tables`. -/
inductive WalksTo (tables : Set (BitVec 64)) (ram : Ram) (vaddr : BitVec 64) :
    ℕ → BitVec 64 → ℕ → BitVec 64 → Prop
  | leaf {level : ℕ} {ppn : BitVec 64} (hmem : pteAddrAt vaddr ppn level ∈ tables)
      (hvalid : testMask (ram.load (pteAddrAt vaddr ppn level) 8) Pte.v)
      (hreserved : testMask (ram.load (pteAddrAt vaddr ppn level) 8) Pte.reservedMask = false)
      (hleaf : Pte.isLeaf (ram.load (pteAddrAt vaddr ppn level) 8)) :
      WalksTo tables ram vaddr (level + 1) ppn level (pteAddrAt vaddr ppn level)
  | step {levels level : ℕ} {ppn addr : BitVec 64} (hmem : pteAddrAt vaddr ppn levels ∈ tables)
      (hvalid : testMask (ram.load (pteAddrAt vaddr ppn levels) 8) Pte.v)
      (hreserved : testMask (ram.load (pteAddrAt vaddr ppn levels) 8) Pte.reservedMask = false)
      (hleaf : Pte.isLeaf (ram.load (pteAddrAt vaddr ppn levels) 8) = false)
      (hbits : testMask (ram.load (pteAddrAt vaddr ppn levels) 8) (Pte.u ||| Pte.a ||| Pte.d) =
        false)
      (hrest : WalksTo tables ram vaddr levels
        (Pte.ppn (ram.load (pteAddrAt vaddr ppn levels) 8)) level addr) :
      WalksTo tables ram vaddr (levels + 1) ppn level addr

namespace WalksTo

variable {tables : Set (BitVec 64)} {ram ram' : Ram} {vaddr ppn addr : BitVec 64}
  {levels level : ℕ}

section

variable (h : WalksTo tables ram vaddr levels ppn level addr)

include h

theorem level_lt : level < levels := by
  induction h with
  | leaf => exact Nat.lt_succ_self _
  | step _ _ _ _ _ _ ih => exact ih.trans (Nat.lt_succ_self _)

theorem mem : addr ∈ tables := by
  induction h with
  | leaf hmem => exact hmem
  | step _ _ _ _ _ _ ih => exact ih

theorem isLeaf : Pte.isLeaf (ram.load addr 8) := by
  induction h with
  | leaf _ _ _ hleaf => exact hleaf
  | step _ _ _ _ _ _ ih => exact ih

theorem congr {vaddr' : BitVec 64} (hvpn : ∀ k, level ≤ k → vpn vaddr' k = vpn vaddr k) :
    WalksTo tables ram vaddr' levels ppn level addr := by
  induction h with
  | @leaf level ppn hmem hvalid hreserved hleaf =>
    have haddr : pteAddrAt vaddr ppn level = pteAddrAt vaddr' ppn level := by
      rw [pteAddrAt, pteAddrAt, hvpn level le_rfl]
    rw [haddr] at hmem hvalid hreserved hleaf ⊢
    exact .leaf hmem hvalid hreserved hleaf
  | @step levels level ppn addr hmem hvalid hreserved hleaf hbits hrest ih =>
    have haddr : pteAddrAt vaddr ppn levels = pteAddrAt vaddr' ppn levels := by
      rw [pteAddrAt, pteAddrAt, hvpn levels hrest.level_lt.le]
    rw [haddr] at hmem hvalid hreserved hleaf hbits ih
    exact .step hmem hvalid hreserved hleaf hbits (ih hvpn)

end

end WalksTo

/-- The tables hold the same entries, up to the access bits of leaves. -/
def SameTables (tables : Set (BitVec 64)) (ram ram' : Ram) : Prop :=
  ∀ addr ∈ tables, Pte.SameButAccess (ram'.load addr 8) (ram.load addr 8) ∧
    (Pte.isLeaf (ram.load addr 8) = false → ram'.load addr 8 = ram.load addr 8)

variable {tables : Set (BitVec 64)}

theorem SameTables.of_eq {ram ram' : Ram}
    (h : ∀ addr ∈ tables, ram'.load addr 8 = ram.load addr 8) : SameTables tables ram ram' :=
  fun addr haddr => by
    rw [h addr haddr]
    exact ⟨rfl, fun _ => rfl⟩

theorem WalksTo.mono {ram ram' : Ram} {vaddr ppn addr : BitVec 64}
    {levels level : ℕ} (h : WalksTo tables ram vaddr levels ppn level addr)
    (hsame : SameTables tables ram ram') : WalksTo tables ram' vaddr levels ppn level addr := by
  induction h with
  | leaf hmem hvalid hreserved hleaf =>
    have hpte := (hsame _ hmem).1
    refine .leaf hmem ?_ ?_ ?_
    · rw [hpte.testMask (by decide)]
      exact hvalid
    · rw [hpte.testMask (by decide)]
      exact hreserved
    · rw [hpte.isLeaf]
      exact hleaf
  | step hmem hvalid hreserved hleaf hbits hrest ih =>
    have hpte := (hsame _ hmem).2 hleaf
    refine .step hmem ?_ ?_ ?_ ?_ ?_ <;> rw [hpte] <;> assumption

end AddressSpace

end VisualCpu
