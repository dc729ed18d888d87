import VisualCpu.Mem.TlbInvariant
import VisualCpu.Mem.WriteLog

/-!
# Translating an address again

A translation leaves an entry for its page in the buffer. As long as the buffer does
not change, the same address translates to the same physical address again.
-/

namespace VisualCpu

open Function

namespace AddressSpace

variable {D : Type}

variable {as as' : AddressSpace D} {i : Fin 32} {level : ℕ}

theorem lookupTlb_congr {satp vaddr : BitVec 64}
    (h : ∀ i, entryMatches (as'.tlb i) satp vaddr = entryMatches (as.tlb i) satp vaddr) :
    as'.lookupTlb satp vaddr = as.lookupTlb satp vaddr := by
  unfold lookupTlb
  simp only [h]

theorem lookupTlb_none {as : AddressSpace D} {satp vaddr : BitVec 64}
    (h : as.lookupTlb satp vaddr = none) (i : Fin 32) :
    entryMatches (as.tlb i) satp vaddr = false := by
  have hnone := List.find?_eq_none.1 h i (List.mem_finRange i)
  simpa using hnone

theorem lookupTlb_update {satp vaddr : BitVec 64}
    {entry : TlbEntry} (h : as.lookupTlb satp vaddr = none) (htlb : as'.tlb = update as.tlb i entry)
    (hentry : entryMatches entry satp vaddr) : as'.lookupTlb satp vaddr = some i := by
  have hself : entryMatches (as'.tlb i) satp vaddr := by
    rw [htlb, update_self]
    exact hentry
  cases hfound : as'.lookupTlb satp vaddr with
  | none =>
    rw [lookupTlb_none hfound i] at hself
    cases hself
  | some j =>
    by_cases hj : j = i
    · rw [hj]
    have hmatch := List.find?_some hfound
    rw [htlb, update_of_ne hj, lookupTlb_none h j] at hmatch
    cases hmatch

theorem leafEntry_address (ctx : AccessContext) {vaddr pteAddr pte : BitVec 64}
    (hlevel : level < 3) (haligned : misalignedSuperpage level pte = false) :
    (leafEntry ctx vaddr pteAddr pte level).ppageBase |||
      (vaddr &&& pageMask (12 + 9 * level)) = leafAddress vaddr pte level := by
  have hzero := frame_and_pageMask hlevel haligned
  change (((Pte.ppn pte <<< 12) ||| (vaddr &&& pageMask (12 + 9 * level))) &&&
    ~~~pageMask (12 + 9 * level)) ||| (vaddr &&& pageMask (12 + 9 * level)) =
      (Pte.ppn pte <<< 12) ||| (vaddr &&& pageMask (12 + 9 * level))
  generalize Pte.ppn pte <<< 12 = frame at hzero ⊢
  ext i hi
  have hbit := congrArg (·[i]) hzero
  simp only [BitVec.getElem_and, BitVec.ofNat_eq_ofNat, BitVec.getElem_zero] at hbit
  cases hf : frame[i] <;> cases hm : (pageMask (12 + 9 * level))[i] <;> simp_all

theorem leafEntry_matches (ctx : AccessContext) (vaddr pteAddr pte : BitVec 64) (level : ℕ) :
    entryMatches (leafEntry ctx vaddr pteAddr pte level) ctx.satp vaddr := by
  simp [entryMatches, leafEntry]

variable [Devices D] {ctx : AccessContext} {vaddr paddr : BitVec 64} {type : AccessType}
  {update : Bool}

theorem updatePteAccessBits_same {bus bus' : Bus D} {pteAddr pte updated : BitVec 64}
    (h : updatePteAccessBits bus pteAddr pte type = (some updated, bus')) :
    Pte.SameButAccess updated pte := by
  unfold updatePteAccessBits at h
  by_cases hsame : Pte.withAccessBits pte type = pte
  · simp only [if_pos hsame, Prod.mk.injEq, Option.some.injEq] at h
    rw [← h.1]
    rfl
  simp only [if_neg hsame] at h
  cases hstore : bus.tryStore pteAddr (Pte.withAccessBits pte type) 8 with
  | mk stored bus'' =>
    rw [hstore] at h
    cases stored with
    | false => cases h
    | true =>
      cases h
      exact Pte.withAccessBits_same pte type

/-- The buffer holds an entry installed for the page of the address. -/
structure Installed (ctx : AccessContext) (vaddr : BitVec 64) (type : AccessType)
    (as as' : AddressSpace D) (paddr : BitVec 64) : Prop where
  entry : ∃ i level pteAddr pte, level < 3 ∧ as'.tlb =
    Function.update as.tlb i (leafEntry ctx vaddr pteAddr pte level) ∧
    checkLeafPermissions ctx type pte ∧ misalignedSuperpage level pte = false ∧
    paddr = leafAddress vaddr pte level

theorem finishLeaf_installed {pteAddr pte : BitVec 64} (hlevel : level < 3)
    (h : as.finishLeaf ctx vaddr type update level pteAddr pte = (.ok paddr, as')) :
    Installed ctx vaddr type as as' paddr := by
  unfold finishLeaf at h
  split_ifs at h with hperm hmis hupdate
  · cases h
  · cases h
  · cases hwritten : updatePteAccessBits as.bus pteAddr pte type with
    | mk updated bus =>
      rw [hwritten] at h
      cases updated with
      | none => cases h
      | some updated =>
        have hsame := updatePteAccessBits_same hwritten
        cases h
        refine ⟨as.nextTlbVictim, level, pteAddr, updated, hlevel, ?_, ?_, ?_, ?_⟩
        · rw [← hsame.ppn]
          rfl
        · rw [hsame.checkLeafPermissions]
          simpa using hperm
        · rw [hsame.misalignedSuperpage]
          simpa using hmis
        · rw [leafAddress, hsame.ppn]
  · cases h
    exact ⟨as.nextTlbVictim, level, pteAddr, pte, hlevel, rfl, by simpa using hperm,
      by simpa using hmis, rfl⟩

theorem walkFrom_installed {levels : ℕ} {ppn : BitVec 64} (hlevels : levels ≤ 3)
    (h : walkFrom ctx as vaddr type update levels ppn = (.ok paddr, as')) :
    Installed ctx vaddr type as as' paddr := by
  induction levels generalizing as ppn with
  | zero => cases h
  | succ level ih =>
    simp only [walkFrom] at h
    cases hload : as.bus.tryLoad ((ppn <<< 12) ||| (vpn vaddr level <<< 3)) 8 with
    | mk read bus =>
      rw [hload] at h
      cases read with
      | none => cases h
      | some pte =>
        dsimp only at h
        split_ifs at h with hvalid hreserved hleaf hbits
        · cases h
        · cases h
        · exact ⟨(finishLeaf_installed (by omega) h).entry⟩
        · cases h
        · exact ⟨(ih (by omega) h).entry⟩

theorem translateHit_again {as as' as'' : AddressSpace D}
    (hlookup : as.lookupTlb ctx.satp vaddr = some i)
    (h : as.translateHit ctx i vaddr type update = (.ok paddr, as')) (htlb : as''.tlb = as'.tlb) :
    as''.lookupTlb ctx.satp vaddr = some i ∧
      as''.translateHit ctx i vaddr type false = (.ok paddr, as'') := by
  simp only [translateHit] at h
  split_ifs at h with hperm hupdate
  · cases h
  · cases h
    refine ⟨?_, ?_⟩
    · rw [← hlookup]
      exact lookupTlb_congr fun j => by rw [htlb]
    unfold translateHit
    rw [htlb]
    simp only [if_neg hperm, Bool.not_false, if_true]
  · cases hwritten : updatePteAccessBits as.bus (as.tlb i).pteAddr (as.tlb i).pte type with
    | mk updated bus =>
      rw [hwritten] at h
      cases updated with
      | none => cases h
      | some updated =>
        have hsame := updatePteAccessBits_same hwritten
        cases h
        change as''.tlb = Function.update as.tlb i { as.tlb i with pte := updated } at htlb
        have hentry : as''.tlb i = { as.tlb i with pte := updated } := by
          rw [htlb, update_self]
        refine ⟨?_, ?_⟩
        · rw [← hlookup]
          apply lookupTlb_congr
          intro j
          by_cases hj : j = i
          · rw [hj, hentry]
            rfl
          · rw [htlb, update_of_ne hj]
        · unfold translateHit
          rw [hentry]
          simp only [hsame.checkLeafPermissions, if_neg hperm, Bool.not_false, if_true]

theorem translateHit_of_installed {as as' as'' : AddressSpace D}
    (hlookup : as.lookupTlb ctx.satp vaddr = none) (h : Installed ctx vaddr type as as' paddr)
    (htlb : as''.tlb = as'.tlb) : ∃ i, as''.lookupTlb ctx.satp vaddr = some i ∧
      as''.translateHit ctx i vaddr type false = (.ok paddr, as'') := by
  obtain ⟨i, level, pteAddr, pte, hlevel, hinstalled, hperm, hmis, rfl⟩ := h.entry
  rw [hinstalled] at htlb
  refine ⟨i, lookupTlb_update hlookup htlb (leafEntry_matches ctx vaddr pteAddr pte level), ?_⟩
  have haddress : (leafEntry ctx vaddr pteAddr pte level).ppageBase |||
      (vaddr &&& pageMask (leafEntry ctx vaddr pteAddr pte level).pageShift) =
        leafAddress vaddr pte level := leafEntry_address ctx hlevel hmis
  have hpte : checkLeafPermissions ctx type (leafEntry ctx vaddr pteAddr pte level).pte :=
    hperm
  unfold translateHit
  rw [htlb, update_self]
  simp only [haddress, hpte, Bool.not_true, Bool.not_false, Bool.false_eq_true, if_false, if_true]

theorem translate_again {as as' as'' : AddressSpace D}
    (h : as.translate ctx vaddr type update = (.ok paddr, as')) (htlb : as''.tlb = as'.tlb) :
    as''.translate ctx vaddr type false = (.ok paddr, as'') := by
  unfold translate at h ⊢
  split_ifs at h ⊢ with hbare hmode hcanonical
  · cases h
    rfl
  · cases h
  · cases h
  cases hlookup : as.lookupTlb ctx.satp vaddr with
  | some i =>
    rw [hlookup] at h
    obtain ⟨hfound, hagain⟩ := translateHit_again hlookup h htlb
    rw [hfound]
    exact hagain
  | none =>
    rw [hlookup] at h
    obtain ⟨i, hfound, hagain⟩ := translateHit_of_installed hlookup
      (walkFrom_installed le_rfl h) htlb
    rw [hfound]
    exact hagain

end AddressSpace

end VisualCpu
