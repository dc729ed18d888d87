import VisualCpu.Library.Lists
import VisualCpu.Pipeline.RenameMap
import Mathlib.Data.List.Range

/-!
# Safety of register renaming

`Consistent m inFlight` says how the maps and free lists of `m` account for every
register number below `nextPhys`, where `inFlight` lists the uncommitted
destinations from the oldest. Each operation keeps it, so it holds along every
run of renames, in-order commits and rollbacks.
-/

namespace VisualCpu

open List

namespace RenameMap

/-- The committed physical registers by architectural number. -/
def archIds (m : RenameMap) : List ℕ := (finRange 32).map m.architecturalMap

/-- How many register numbers are architectural or free after a rollback. -/
def committedBound (m : RenameMap) : ℕ := 32 + m.committedFreeList.length

structure Consistent (m : RenameMap) (inFlight : List ℕ) : Prop where
  zero_mapped : m.architecturalMap 0 = 0
  owned : (m.archIds ++ (inFlight ++ m.speculativeFreeList)).Perm (List.range m.nextPhys)
  committed_owned : (m.archIds ++ m.committedFreeList).Perm (List.range m.committedBound)
  bound_le : m.committedBound ≤ m.nextPhys
  /-- The numbers never committed are in flight, in the order of their allocation. -/
  fresh : inFlight.filter (m.committedBound ≤ ·) =
    range' m.committedBound (m.nextPhys - m.committedBound)

variable {m : RenameMap} {arch : Fin 32}

theorem mem_archIds {id : ℕ} : id ∈ m.archIds ↔ ∃ arch, m.architecturalMap arch = id := by
  simp [archIds]

@[simp] theorem length_archIds (m : RenameMap) : m.archIds.length = 32 := by
  simp [archIds]

theorem init_consistent : init.Consistent [] where
  zero_mapped := rfl
  owned := by decide
  committed_owned := by decide
  bound_le := by decide
  fresh := by decide

namespace Consistent

variable {m : RenameMap} {inFlight : List ℕ} (h : m.Consistent inFlight)
include h

theorem nodup : (m.archIds ++ (inFlight ++ m.speculativeFreeList)).Nodup :=
  h.owned.nodup_iff.2 nodup_range

theorem committed_nodup : (m.archIds ++ m.committedFreeList).Nodup :=
  h.committed_owned.nodup_iff.2 nodup_range

theorem injective : Function.Injective m.architecturalMap := by
  have hmap : m.archIds.Nodup := (nodup_append.1 h.nodup).1
  intro a b hab
  exact inj_on_of_nodup_map hmap (mem_finRange a) (mem_finRange b) hab

theorem nextPhys_eq : m.nextPhys = 32 + inFlight.length + m.speculativeFreeList.length := by
  have hlen := h.owned.length_eq
  simp only [length_append, length_archIds, length_range] at hlen
  omega

variable {id : ℕ}

theorem lt_nextPhys_iff :
    id < m.nextPhys ↔ id ∈ m.archIds ∨ id ∈ inFlight ∨ id ∈ m.speculativeFreeList := by
  rw [← mem_range, ← h.owned.mem_iff]
  simp

theorem inFlight_not_arch (hid : id ∈ inFlight) : id ∉ m.archIds := fun harch =>
  (disjoint_of_nodup_append h.nodup) harch (mem_append_left _ hid)

theorem free_not_arch (hid : id ∈ m.speculativeFreeList) : id ∉ m.archIds := fun harch =>
  (disjoint_of_nodup_append h.nodup) harch (mem_append_right _ hid)

theorem free_not_inFlight (hid : id ∈ m.speculativeFreeList) : id ∉ inFlight :=
  fun hfly => (disjoint_of_nodup_append (nodup_append.1 h.nodup).2.1) hfly hid

theorem zero_mem_archIds : 0 ∈ m.archIds := mem_archIds.2 ⟨0, h.zero_mapped⟩

theorem arch_ne_zero {arch : Fin 32} (harch : arch ≠ 0) : m.architecturalMap arch ≠ 0 := by
  intro hzero
  exact harch (h.injective (hzero.trans h.zero_mapped.symm))

theorem free_lt_bound (hid : id ∈ m.speculativeFreeList) : id < m.committedBound := by
  by_contra hge
  have hlt : id < m.nextPhys := h.lt_nextPhys_iff.2 (.inr (.inr hid))
  have hmem : id ∈ inFlight.filter (m.committedBound ≤ ·) := by
    rw [h.fresh, mem_range'_1]
    omega
  exact h.free_not_inFlight hid (mem_filter.1 hmem).1

theorem mem_committedFree (hid : id ∈ inFlight) (hlt : id < m.committedBound) :
    id ∈ m.committedFreeList := by
  have hmem : id ∈ m.archIds ++ m.committedFreeList :=
    h.committed_owned.mem_iff.2 (mem_range.2 hlt)
  rcases mem_append.1 hmem with harch | hfree
  · exact absurd harch (h.inFlight_not_arch hid)
  · exact hfree

end Consistent

/-- The register that `renameDest` allocates. -/
def nextDest (m : RenameMap) : ℕ := m.speculativeFreeList.getLast?.getD m.nextPhys

theorem renameDest_phys (harch : arch ≠ 0) : (m.renameDest arch).1.phys = m.nextDest := by
  unfold renameDest nextDest
  rw [if_neg harch]
  cases m.speculativeFreeList.getLast? <;> rfl

variable {inFlight : List ℕ}

theorem Consistent.nextDest_fresh (h : m.Consistent inFlight) :
    m.nextDest ∉ m.archIds ∧ m.nextDest ∉ inFlight ∧ m.nextDest ≠ 0 := by
  have hzero : 0 ∈ m.archIds := h.zero_mem_archIds
  unfold nextDest
  cases hlast : m.speculativeFreeList.getLast? with
  | some phys =>
    have hfree : phys ∈ m.speculativeFreeList := List.mem_of_getLast? hlast
    refine ⟨h.free_not_arch hfree, h.free_not_inFlight hfree, ?_⟩
    rintro hphys
    exact h.free_not_arch hfree (by simpa [show phys = 0 from hphys] using hzero)
  | none =>
    have hge : ∀ id, id ∈ m.archIds ∨ id ∈ inFlight → id < m.nextPhys := fun id hid =>
      h.lt_nextPhys_iff.2 (hid.imp_right .inl)
    refine ⟨fun hid => ?_, fun hid => ?_, ?_⟩
    · exact absurd (hge _ (.inl hid)) (lt_irrefl _)
    · exact absurd (hge _ (.inr hid)) (lt_irrefl _)
    · exact (Nat.ne_zero_of_lt (hge 0 (.inl hzero)))

/-- Renaming keeps the accounting, as long as the counter does not wrap. -/
theorem Consistent.renameDest (h : m.Consistent inFlight)
    (harch : arch ≠ 0) (hbound : 33 + inFlight.length < 2 ^ 32) :
    (m.renameDest arch).2.Consistent (inFlight ++ [m.nextDest]) := by
  unfold RenameMap.renameDest nextDest
  rw [if_neg harch]
  cases hlast : m.speculativeFreeList.getLast? with
  | some phys =>
    obtain ⟨rest, hrest⟩ := List.getLast?_eq_some_iff.1 hlast
    have hphys : phys < m.committedBound := h.free_lt_bound (List.mem_of_getLast? hlast)
    refine ⟨h.zero_mapped, ?_, h.committed_owned, h.bound_le, ?_⟩
    · have hperm : (inFlight ++ [phys] ++ rest).Perm (inFlight ++ m.speculativeFreeList) := by
        rw [hrest, List.append_assoc]
        exact perm_append_comm.append_left _
      simpa [hrest, archIds] using (hperm.append_left m.archIds).trans h.owned
    · change (inFlight ++ [phys]).filter (m.committedBound ≤ ·) =
        range' m.committedBound (m.nextPhys - m.committedBound)
      rw [filter_append, h.fresh]
      simp [hphys]
  | none =>
    have hempty : m.speculativeFreeList = [] := List.getLast?_eq_none_iff.1 hlast
    have hnext := h.nextPhys_eq
    have hsucc : succPhys m.nextPhys = m.nextPhys + 1 := by
      rw [hempty, length_nil] at hnext
      exact Nat.mod_eq_of_lt (by omega)
    have hle := h.bound_le
    refine ⟨h.zero_mapped, ?_, h.committed_owned, ?_, ?_⟩
    · have howned := h.owned
      rw [hempty, append_nil] at howned
      simp only [hsucc, hempty, append_nil, range_succ, Option.getD_none]
      rw [← List.append_assoc]
      exact howned.append_right _
    · simp only [hsucc]
      exact Nat.le_succ_of_le hle
    · change (inFlight ++ [m.nextPhys]).filter (m.committedBound ≤ ·) =
        range' m.committedBound (succPhys m.nextPhys - m.committedBound)
      rw [filter_append, h.fresh, hsucc, Nat.sub_add_comm hle, range'_concat]
      simp [hle]

/-- The map after a commit: what `commitDest` leaves when nothing is degenerate. -/
def committed (m : RenameMap) (arch : Fin 32) (phys : ℕ) : RenameMap :=
  { m with
    architecturalMap := Function.update m.architecturalMap arch phys
    committedFreeList := removeFromFreeList phys m.committedFreeList ++ [m.architecturalMap arch]
    speculativeFreeList := m.speculativeFreeList ++ [m.architecturalMap arch] }

namespace Consistent

variable {m : RenameMap} {inFlight : List ℕ} {arch : Fin 32} {phys : ℕ}

theorem commitDest_eq (h : m.Consistent (phys :: inFlight)) (harch : arch ≠ 0) :
    (m.commitDest arch phys).2 = m.committed arch phys := by
  have hprev : m.architecturalMap arch ≠ 0 := h.arch_ne_zero harch
  have hmem : m.architecturalMap arch ∈ m.archIds := mem_archIds.2 ⟨arch, rfl⟩
  have hne : m.architecturalMap arch ≠ phys := by
    intro heq
    exact h.inFlight_not_arch mem_cons_self (heq ▸ hmem)
  have hspec : removeFromFreeList phys m.speculativeFreeList = m.speculativeFreeList :=
    Lists.filter_ne_eq_self fun hfree => h.free_not_inFlight hfree mem_cons_self
  have hnotFree : m.architecturalMap arch ∉ m.speculativeFreeList := fun hfree =>
    h.free_not_arch hfree hmem
  have hnotCommitted : m.architecturalMap arch ∉ removeFromFreeList phys m.committedFreeList := by
    intro hfree
    exact (disjoint_of_nodup_append h.committed_nodup) hmem (mem_filter.1 hfree).1
  simp [commitDest, committed, recyclePhys, harch, hprev, hne, hspec, hnotFree, hnotCommitted]

theorem archIds_committed (m : RenameMap) (arch : Fin 32) (phys : ℕ) :
    ((m.committed arch phys).archIds ++ [m.architecturalMap arch]).Perm (m.archIds ++ [phys]) :=
  Lists.map_update_perm (nodup_finRange 32) (mem_finRange arch) phys

theorem archIds_committed_append (m : RenameMap) (arch : Fin 32) (phys : ℕ) (rest : List ℕ) :
    ((m.committed arch phys).archIds ++ (rest ++ [m.architecturalMap arch])).Perm
      (m.archIds ++ (phys :: rest)) := by
  have hswap := (archIds_committed m arch phys).append_right rest
  rw [perm_iff_count] at hswap ⊢
  intro x
  have hx := hswap x
  simp only [count_append, count_cons, count_nil] at hx ⊢
  omega

theorem commitDest (h : m.Consistent (phys :: inFlight)) (harch : arch ≠ 0) :
    (m.commitDest arch phys).2.Consistent inFlight := by
  rw [h.commitDest_eq harch]
  have hzero : (m.committed arch phys).architecturalMap 0 = 0 := by
    simpa [committed, Function.update_of_ne harch.symm] using h.zero_mapped
  have howned : ((m.committed arch phys).archIds ++
      (inFlight ++ (m.committed arch phys).speculativeFreeList)).Perm (List.range m.nextPhys) := by
    have hperm := archIds_committed_append m arch phys (inFlight ++ m.speculativeFreeList)
    simpa [committed] using hperm.trans h.owned
  have hcommitted := archIds_committed_append m arch phys
    (removeFromFreeList phys m.committedFreeList)
  have hfresh := h.fresh
  by_cases hlt : phys < m.committedBound
  · -- a recycled number: the committed numbers stay the same
    have hmem := h.mem_committedFree mem_cons_self hlt
    have hremove := Lists.perm_cons_filter_ne (nodup_append.1 h.committed_nodup).2.1 hmem
    have hbound : (m.committed arch phys).committedBound = m.committedBound := by
      have hlen := hremove.length_eq
      simp only [committedBound, committed, length_append, length_cons, length_nil,
        removeFromFreeList] at hlen ⊢
      omega
    refine ⟨hzero, howned, ?_, hbound ▸ h.bound_le, ?_⟩
    · rw [hbound]
      exact hcommitted.trans ((hremove.symm.append_left _).trans h.committed_owned)
    rw [hbound]
    change inFlight.filter (m.committedBound ≤ ·) =
      range' m.committedBound (m.nextPhys - m.committedBound)
    simpa [Nat.not_le.2 hlt] using hfresh
  · -- a number used for the first time: it is the smallest one that was never committed
    have hnot : phys ∉ m.committedFreeList := by
      intro hfree
      exact hlt (mem_range.1 (h.committed_owned.mem_iff.1 (mem_append_right _ hfree)))
    have hremove : removeFromFreeList phys m.committedFreeList = m.committedFreeList :=
      Lists.filter_ne_eq_self hnot
    have hbound : (m.committed arch phys).committedBound = m.committedBound + 1 := by
      simp only [committedBound, committed, hremove, length_append, length_singleton]
      omega
    have hge : m.committedBound ≤ phys := Nat.le_of_not_lt hlt
    rw [filter_cons_of_pos (by simpa using hge)] at hfresh
    obtain ⟨k, hk⟩ : ∃ k, m.nextPhys - m.committedBound = k + 1 := by
      cases hsub : m.nextPhys - m.committedBound with
      | zero => simp [hsub] at hfresh
      | succ k => exact ⟨k, rfl⟩
    rw [hk, range'_succ, List.cons.injEq] at hfresh
    obtain ⟨hphys, htail⟩ := hfresh
    refine ⟨hzero, howned, ?_, ?_, ?_⟩
    · have hperm : (m.archIds ++ phys :: m.committedFreeList).Perm
          (m.archIds ++ m.committedFreeList ++ [phys]) := by
        rw [List.append_assoc]
        exact (perm_append_singleton phys _).symm.append_left _
      rw [hremove] at hcommitted
      rw [hbound, range_succ]
      change ((m.committed arch phys).archIds ++ (removeFromFreeList phys m.committedFreeList ++
        [m.architecturalMap arch])).Perm _
      rw [hremove]
      refine (hcommitted.trans hperm).trans ?_
      rw [hphys]
      exact h.committed_owned.append_right _
    · rw [hbound]
      change m.committedBound + 1 ≤ m.nextPhys
      omega
    · have hrest : ∀ id ∈ inFlight, id ≠ phys := by
        rintro id hid rfl
        have hnodup := (nodup_append.1 (nodup_append.1 h.nodup).2.1).1
        exact (nodup_cons.1 hnodup).1 hid
      rw [hbound]
      change inFlight.filter (m.committedBound + 1 ≤ ·) =
        range' (m.committedBound + 1) (m.nextPhys - (m.committedBound + 1))
      have hcount : m.nextPhys - (m.committedBound + 1) = k := by omega
      rw [hcount, ← htail]
      apply filter_congr
      intro id hid
      have := hrest id hid
      simp only [decide_eq_decide]
      omega

end Consistent

variable {ids : List ℕ}

theorem Consistent.nextPhys_renameDest_le (h : m.Consistent ids) (harch : arch ≠ 0) :
    (m.renameDest arch).2.nextPhys ≤ max m.nextPhys (32 + (ids.length + 1)) := by
  unfold RenameMap.renameDest
  rw [if_neg harch]
  cases hlast : m.speculativeFreeList.getLast? with
  | some phys => exact le_max_left _ _
  | none =>
    have hempty : m.speculativeFreeList = [] := List.getLast?_eq_none_iff.1 hlast
    have hnext := h.nextPhys_eq
    rw [hempty, length_nil] at hnext
    refine le_max_of_le_right ?_
    change succPhys m.nextPhys ≤ _
    have : succPhys m.nextPhys ≤ m.nextPhys + 1 := Nat.mod_le _ _
    omega

theorem nextPhys_commitDest (m : RenameMap) (arch : Fin 32) (phys : ℕ) :
    (m.commitDest arch phys).2.nextPhys = m.nextPhys := by
  unfold RenameMap.commitDest
  dsimp only
  split_ifs <;> rfl

theorem raiseNextPhys_le {bound n phys : ℕ} (hn : n ≤ bound) (hphys : phys < bound) :
    raiseNextPhys n phys ≤ bound := by
  unfold raiseNextPhys succPhys
  split_ifs
  · exact (Nat.mod_le _ _).trans hphys
  · exact hn

theorem foldl_raiseNextPhys_le {bound : ℕ} (hids : ∀ id ∈ ids, id < bound) :
    ∀ n ≤ bound, ids.foldl raiseNextPhys n ≤ bound := by
  induction ids with
  | nil => exact fun n hn => hn
  | cons id ids ih =>
    intro n hn
    rw [forall_mem_cons] at hids
    exact ih hids.2 _ (raiseNextPhys_le hn hids.1)

theorem le_foldl_raiseNextPhys (hids : ∀ id ∈ ids, id + 1 < 2 ^ 32) :
    ∀ n, n ≤ ids.foldl raiseNextPhys n ∧ ∀ id ∈ ids, id < ids.foldl raiseNextPhys n := by
  induction ids with
  | nil => simp
  | cons id ids ih =>
    intro n
    rw [forall_mem_cons] at hids
    obtain ⟨hle, hlt⟩ := ih hids.2 (raiseNextPhys n id)
    have hraise : n ≤ raiseNextPhys n id ∧ id < raiseNextPhys n id := by
      unfold raiseNextPhys succPhys
      rw [Nat.mod_eq_of_lt hids.1]
      split_ifs <;> omega
    refine ⟨hraise.1.trans hle, ?_⟩
    simp only [mem_cons, forall_eq_or_imp, foldl_cons]
    exact ⟨hraise.2.trans_le hle, hlt⟩

theorem Consistent.committedNextPhys_eq
    (h : m.Consistent inFlight) (hbound : m.committedBound < 2 ^ 32) :
    committedNextPhys m.architecturalMap m.committedFreeList = m.committedBound := by
  have hall : ∀ id ∈ m.archIds ++ m.committedFreeList, id < m.committedBound := fun id hid =>
    mem_range.1 (h.committed_owned.mem_iff.1 hid)
  have hfold : committedNextPhys m.architecturalMap m.committedFreeList =
      (m.archIds ++ m.committedFreeList).foldl raiseNextPhys 32 := by
    rw [foldl_append]
    rfl
  have h32 : 32 ≤ m.committedBound := Nat.le_add_right _ _
  obtain ⟨hle, hlt⟩ := le_foldl_raiseNextPhys
    (fun id hid => lt_of_le_of_lt (hall id hid) hbound) 32
  rw [hfold]
  refine le_antisymm (foldl_raiseNextPhys_le hall 32 h32) ?_
  -- the largest committed number already forces the cursor to the bound
  have hlast : m.committedBound - 1 ∈ m.archIds ++ m.committedFreeList :=
    h.committed_owned.mem_iff.2 (mem_range.2 (by omega))
  have := hlt _ hlast
  omega

theorem rollback_consistent (h : m.Consistent inFlight) (hbound : m.committedBound < 2 ^ 32) :
    (m.rollback m.committedCheckpoint).Consistent [] := by
  have hnext : (m.rollback m.committedCheckpoint).nextPhys = m.committedBound :=
    h.committedNextPhys_eq hbound
  refine ⟨h.zero_mapped, ?_, h.committed_owned, ?_, ?_⟩
  · rw [hnext]
    exact h.committed_owned
  · rw [hnext]
    exact le_rfl
  · rw [hnext]
    change [] = range' m.committedBound (m.committedBound - m.committedBound)
    simp

end RenameMap

end VisualCpu
