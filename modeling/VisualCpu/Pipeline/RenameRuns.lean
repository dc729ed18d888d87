import VisualCpu.Pipeline.RenameSafety

/-!
# Runs of the rename map

A run renames destinations, commits the oldest uncommitted rename and rolls back
to the committed checkpoint, in any order. The accounting of `Consistent` holds
after every run in which the allocation counter does not wrap.
-/

namespace VisualCpu

open RenameMap List

/-- An operation on a rename map; a commit is always of the oldest rename. -/
inductive RenameOp where
  | rename (arch : Fin 32)
  | commit | rollback
deriving DecidableEq

/-- A rename map in use, with what an observer has seen of it. -/
structure RenameRun where
  map : RenameMap
  /-- The uncommitted renames, from the oldest. -/
  uncommitted : List (Fin 32 × ℕ)
  lastCommitted : Fin 32 → ℕ
  /-- The largest number of physical registers in flight so far. -/
  peak : ℕ

namespace RenameRun

def init : RenameRun := ⟨RenameMap.init, [], fun arch => arch, 0⟩

/-- The physical registers held by uncommitted renames; `x0` holds none. -/
def inFlightOf (uncommitted : List (Fin 32 × ℕ)) : List ℕ :=
  (uncommitted.filter (·.1 ≠ 0)).map (·.2)

def inFlight (r : RenameRun) : List ℕ := inFlightOf r.uncommitted

def rename (r : RenameRun) (arch : Fin 32) : RenameRun :=
  let uncommitted := r.uncommitted ++ [(arch, (r.map.renameDest arch).1.phys)]
  { r with
    map := (r.map.renameDest arch).2
    uncommitted
    peak := max r.peak (inFlightOf uncommitted).length }

def commit (r : RenameRun) : RenameRun :=
  match r.uncommitted with
  | [] => r
  | (arch, phys) :: rest =>
    { r with
      map := (r.map.commitDest arch phys).2
      uncommitted := rest
      lastCommitted :=
        if arch = 0 then r.lastCommitted else Function.update r.lastCommitted arch phys }

def rollback (r : RenameRun) : RenameRun :=
  { r with
    map := r.map.rollback r.map.committedCheckpoint
    uncommitted := [] }

def step (r : RenameRun) : RenameOp → RenameRun
  | .rename arch => r.rename arch
  | .commit => r.commit
  | .rollback => r.rollback

def run (ops : List RenameOp) : RenameRun := ops.foldl step init

variable (ops : List RenameOp)

@[simp] theorem run_concat (op : RenameOp) : run (ops ++ [op]) = (run ops).step op := by
  simp [run]

/-- What a register number below `nextPhys` is used for. -/
inductive Role where
  | mapped | inFlight | free
deriving DecidableEq

def HasRole (r : RenameRun) (id : ℕ) : Role → Prop
  | .mapped => ∃ arch, r.map.architecturalMap arch = id
  | .inFlight => id ∈ r.inFlight
  | .free => id ∈ r.map.speculativeFreeList

/-- The invariant of runs: the accounting, the observed commits and the bound. -/
structure Sound (r : RenameRun) : Prop where
  consistent : r.map.Consistent r.inFlight
  observed : r.map.architecturalMap = r.lastCommitted
  inFlight_le : r.inFlight.length ≤ r.peak
  next_le : r.map.nextPhys ≤ 32 + r.peak

theorem init_sound : init.Sound :=
  ⟨init_consistent, rfl, le_rfl, le_rfl⟩

theorem peak_le_step (r : RenameRun) (op : RenameOp) : r.peak ≤ (r.step op).peak := by
  cases op with
  | rename arch => exact le_max_left _ _
  | commit => cases hpending : r.uncommitted <;> simp [step, commit, hpending]
  | rollback => exact le_rfl

variable {r : RenameRun}

theorem Sound.rename (h : r.Sound) (arch : Fin 32)
    (hpeak : (r.rename arch).peak < 2 ^ 32 - 32) : (r.rename arch).Sound := by
  by_cases harch : arch = 0
  · subst harch
    have hfly : (r.rename 0).inFlight = r.inFlight := by
      simp [RenameRun.rename, inFlight, inFlightOf]
    refine ⟨?_, h.observed, ?_, ?_⟩
    · rw [hfly]
      exact h.consistent
    · rw [hfly]
      exact h.inFlight_le.trans (le_max_left _ _)
    · exact h.next_le.trans (Nat.add_le_add_left (le_max_left _ _) 32)
  · have hfly : (r.rename arch).inFlight = r.inFlight ++ [r.map.nextDest] := by
      simp [RenameRun.rename, inFlight, inFlightOf, harch, renameDest_phys harch]
    have hlen : (r.rename arch).inFlight.length = r.inFlight.length + 1 := by
      simp [hfly]
    have hle : (r.rename arch).inFlight.length ≤ (r.rename arch).peak := le_max_right _ _
    refine ⟨?_, ?_, hle, ?_⟩
    · rw [hfly]
      exact h.consistent.renameDest harch (by omega)
    · have hmap : (r.rename arch).map.architecturalMap = r.map.architecturalMap := by
        unfold RenameRun.rename RenameMap.renameDest
        rw [if_neg harch]
        cases r.map.speculativeFreeList.getLast? <;> rfl
      rw [hmap]
      exact h.observed
    · have hold := peak_le_step r (.rename arch)
      have hnext := h.consistent.nextPhys_renameDest_le harch
      refine hnext.trans (max_le (h.next_le.trans (Nat.add_le_add_left hold 32)) ?_)
      rw [← hlen]
      exact Nat.add_le_add_left hle 32

theorem Sound.commit (h : r.Sound) : r.commit.Sound := by
  cases hpending : r.uncommitted with
  | nil =>
    have : r.commit = r := by
      simp [RenameRun.commit, hpending]
    rwa [this]
  | cons oldest rest =>
    obtain ⟨arch, phys⟩ := oldest
    have hfly : r.commit.inFlight = inFlightOf rest := by
      simp [RenameRun.commit, hpending, inFlight]
    have hpeak : r.commit.peak = r.peak := by
      simp [RenameRun.commit, hpending]
    by_cases harch : arch = 0
    · subst harch
      have hold : r.inFlight = inFlightOf rest := by
        simp [inFlight, hpending, inFlightOf]
      have hmap : r.commit.map = r.map := by
        simp [RenameRun.commit, hpending, RenameMap.commitDest]
      refine ⟨?_, ?_, ?_, ?_⟩
      · rw [hfly, hmap, ← hold]
        exact h.consistent
      · rw [hmap, h.observed]
        simp [RenameRun.commit, hpending]
      · rw [hfly, hpeak, ← hold]
        exact h.inFlight_le
      · rw [hmap, hpeak]
        exact h.next_le
    · have hold : r.inFlight = phys :: inFlightOf rest := by
        simp [inFlight, hpending, inFlightOf, harch]
      have hcons : r.map.Consistent (phys :: inFlightOf rest) := hold ▸ h.consistent
      have hmap : r.commit.map = (r.map.commitDest arch phys).2 := by
        simp [RenameRun.commit, hpending]
      have hcommitted := hcons.commitDest_eq harch
      refine ⟨?_, ?_, ?_, ?_⟩
      · rw [hfly, hmap]
        exact hcons.commitDest harch
      · rw [hmap, hcommitted]
        simp [RenameRun.commit, hpending, harch, RenameMap.committed, h.observed]
      · have hle := h.inFlight_le
        rw [hold, length_cons] at hle
        rw [hfly, hpeak]
        omega
      · rw [hmap, hcommitted, hpeak]
        exact h.next_le

theorem Sound.rollback (h : r.Sound) (hpeak : r.peak < 2 ^ 32 - 32) : r.rollback.Sound := by
  have hbound := h.consistent.bound_le
  have hnext := h.next_le
  have hlt : r.map.committedBound < 2 ^ 32 := by omega
  refine ⟨rollback_consistent h.consistent hlt, h.observed, Nat.zero_le _, ?_⟩
  calc r.rollback.map.nextPhys = r.map.committedBound := h.consistent.committedNextPhys_eq hlt
    _ ≤ r.map.nextPhys := hbound
    _ ≤ 32 + r.peak := hnext

theorem run_sound (hpeak : (run ops).peak < 2 ^ 32 - 32) : (run ops).Sound := by
  induction ops using reverseRecOn with
  | nil => exact init_sound
  | append_singleton ops op ih =>
    rw [run_concat] at hpeak ⊢
    have hold : (run ops).peak < 2 ^ 32 - 32 := (peak_le_step _ op).trans_lt hpeak
    cases op with
    | rename arch => exact (ih hold).rename arch hpeak
    | commit => exact (ih hold).commit
    | rollback => exact (ih hold).rollback hold

theorem Sound.existsUnique_role (h : r.Sound) {id : ℕ}
    (hid : id < r.map.nextPhys) : ∃! role, r.HasRole id role := by
  have hc := h.consistent
  have harch : r.HasRole id .mapped ↔ id ∈ r.map.archIds := mem_archIds.symm
  have hfly : r.HasRole id .inFlight ↔ id ∈ r.inFlight := Iff.rfl
  have hfree : r.HasRole id .free ↔ id ∈ r.map.speculativeFreeList := Iff.rfl
  rcases hc.lt_nextPhys_iff.1 hid with hmem | hmem | hmem
  · refine ⟨.mapped, harch.2 hmem, fun role hrole => ?_⟩
    cases role with
    | mapped => rfl
    | inFlight => exact absurd hmem (hc.inFlight_not_arch (hfly.1 hrole))
    | free => exact absurd hmem (hc.free_not_arch (hfree.1 hrole))
  · refine ⟨.inFlight, hmem, fun role hrole => ?_⟩
    cases role with
    | mapped => exact absurd (harch.1 hrole) (hc.inFlight_not_arch hmem)
    | inFlight => rfl
    | free => exact absurd hmem (hc.free_not_inFlight (hfree.1 hrole))
  · refine ⟨.free, hmem, fun role hrole => ?_⟩
    cases role with
    | mapped => exact absurd (harch.1 hrole) (hc.free_not_arch hmem)
    | inFlight => exact absurd (hfly.1 hrole) (hc.free_not_inFlight hmem)
    | free => rfl

/-- Rename safety and no leak, for runs with fewer than `2 ^ 32 - 32` uncommitted
renames at a time and for destinations other than `x0`, which allocates nothing. -/
theorem renameRun_safe (hpeak : (run ops).peak < 2 ^ 32 - 32) :
    Function.Injective (run ops).map.architecturalMap ∧
    (∀ arch, arch ≠ 0 →
      (∀ other, (run ops).map.architecturalMap other ≠ ((run ops).map.renameDest arch).1.phys) ∧
      ((run ops).map.renameDest arch).1.phys ∉ (run ops).inFlight ∧
      ((run ops).map.renameDest arch).1.phys ≠ 0) ∧
    (run ops).map.renameDest 0 = (⟨0, 0⟩, (run ops).map) ∧
    (run ops).inFlight.Nodup ∧
    (∀ arch, (run ops).rollback.map.mapSource arch = (run ops).lastCommitted arch ∧
      (run ops).rollback.map.architecturalSource arch = (run ops).lastCommitted arch) ∧
    (∀ id < (run ops).map.nextPhys, ∃! role, (run ops).HasRole id role) ∧
    (run ops).map.nextPhys ≤ 32 + (run ops).peak := by
  have h := run_sound ops hpeak
  refine ⟨h.consistent.injective, ?_, rfl, ?_, ?_, ?_, h.next_le⟩
  · intro arch harch
    rw [renameDest_phys harch]
    obtain ⟨hmapped, hfly, hzero⟩ := h.consistent.nextDest_fresh
    exact ⟨fun other heq => hmapped (mem_archIds.2 ⟨other, heq⟩), hfly, hzero⟩
  · exact (nodup_append.1 (nodup_append.1 h.consistent.nodup).2.1).1
  · intro arch
    have hobserved := congrFun h.observed arch
    exact ⟨hobserved, hobserved⟩
  · intro id hid
    exact h.existsUnique_role hid

/-- A run with a commit, a rollback and a recycled register. -/
theorem renameRun_safe_recycled :
    (run [.rename 1, .rename 2, .commit, .rollback, .rename 3]).peak < 2 ^ 32 - 32 ∧
    Function.Injective
      (run [.rename 1, .rename 2, .commit, .rollback, .rename 3]).map.architecturalMap :=
  ⟨by decide, (renameRun_safe _ (by decide)).1⟩

/-- Renaming one destination over and over without a commit. -/
theorem run_replicate_rename (n : ℕ) :
    (run (replicate n (.rename 1))).map.nextPhys = (32 + n) % 2 ^ 32 ∧
    (run (replicate n (.rename 1))).map.speculativeFreeList = [] := by
  induction n with
  | zero => exact ⟨rfl, rfl⟩
  | succ n ih =>
    obtain ⟨hnext, hfree⟩ := ih
    rw [replicate_succ', run_concat]
    have hstep : ((run (replicate n (.rename 1))).step (.rename 1)).map =
        ((run (replicate n (.rename 1))).map.renameDest 1).2 := rfl
    rw [hstep]
    unfold RenameMap.renameDest
    rw [if_neg (by decide), hfree]
    refine ⟨?_, rfl⟩
    change succPhys (run (replicate n (.rename 1))).map.nextPhys = _
    rw [hnext, succPhys]
    omega

/-- The counter is 32 bits wide: after `2 ^ 32 - 32` uncommitted renames the next
one is given the register of `x0`. -/
theorem renameDest_wraps :
    ((run (replicate (2 ^ 32 - 32) (.rename 1))).map.renameDest 1).1.phys = 0 ∧
    (run (replicate (2 ^ 32 - 32) (.rename 1))).map.architecturalMap 0 = 0 := by
  obtain ⟨hnext, hfree⟩ := run_replicate_rename (2 ^ 32 - 32)
  have hmap : ∀ n, (run (replicate n (.rename 1))).map.architecturalMap 0 = 0 := by
    intro n
    induction n with
    | zero => rfl
    | succ n ih =>
      rw [replicate_succ', run_concat]
      simpa [step, rename, RenameMap.renameDest, (run_replicate_rename n).2] using ih
  refine ⟨?_, hmap _⟩
  rw [renameDest_phys (by decide), nextDest, hfree, hnext]
  rfl

end RenameRun

end VisualCpu
