import Mathlib.Tactic.Common
import Mathlib.Algebra.Order.Ring.Nat

/-!
# Sv39

The address translation of the RISC-V privileged architecture for three levels of tables,
over any memory that answers reads and writes of entries. Entries are taken apart by bit
positions and page numbers as natural numbers. The access bits are updated in hardware.
-/

namespace VisualCpu.Sv39

inductive Access
  | fetch | load | store
deriving DecidableEq

/-- What permissions depend on besides the entry. -/
structure Rights where
  (userMode sum mxr : Bool)

inductive Outcome
  | mapped (physical : BitVec 64)
  | pageFault | accessFault
deriving DecidableEq

section Entry

variable (pte : BitVec 64)

def valid : Bool := pte.getLsbD 0
def readable : Bool := pte.getLsbD 1
def writable : Bool := pte.getLsbD 2
def executable : Bool := pte.getLsbD 3
def user : Bool := pte.getLsbD 4
def accessed : Bool := pte.getLsbD 6
def dirty : Bool := pte.getLsbD 7
def ppn : ℕ := pte.toNat / 2 ^ 10 % 2 ^ 44

/-- Bits 63 to 54 belong to extensions that are not there. -/
def reserved : Bool := decide (2 ^ 54 ≤ pte.toNat)

def leaf : Bool := readable pte || executable pte

/-- An entry that is not valid or that has a reserved encoding: writable and not readable, a
bit for extensions, or a pointer with U, A or D. -/
def malformed : Bool :=
  !valid pte || (!readable pte && writable pte) || reserved pte ||
    (!leaf pte && (user pte || accessed pte || dirty pte))

def permits (rights : Rights) (access : Access) : Bool :=
  (if rights.userMode then user pte else !user pte || (access != .fetch && rights.sum)) &&
    match access with
    | .fetch => executable pte
    | .load => readable pte || (rights.mxr && executable pte)
    | .store => writable pte

/-- A leaf above the last level whose lower page numbers are not zero. -/
def misaligned (level : ℕ) : Bool := decide (ppn pte % 2 ^ (9 * level) ≠ 0)

def lacksAccessBits (access : Access) : Bool :=
  !accessed pte || (access == .store && !dirty pte)

/-- The entry with A, and for a store D. -/
def withAccessBits (access : Access) : BitVec 64 :=
  pte ||| BitVec.twoPow 64 6 ||| if access = .store then BitVec.twoPow 64 7 else 0

end Entry

def canonical (va : BitVec 64) : Bool := (va.setWidth 39).signExtend 64 == va

def vpn (va : BitVec 64) (level : ℕ) : ℕ := va.toNat / 2 ^ (12 + 9 * level) % 2 ^ 9

/-- The page of the entry and the offset of the address in it. -/
def physical (va : BitVec 64) (level : ℕ) (pte : BitVec 64) : BitVec 64 :=
  BitVec.ofNat 64 (ppn pte / 2 ^ (9 * level) * 2 ^ (12 + 9 * level) +
    va.toNat % 2 ^ (12 + 9 * level))

section Walk

variable {M : Type} (read : M → BitVec 64 → Option (BitVec 64) × M)
  (write : M → BitVec 64 → BitVec 64 → Bool × M)
  (rights : Rights) (access : Access) (update : Bool) (va : BitVec 64)

/-- The steps at a leaf entry. -/
def finish (level : ℕ) (addr pte : BitVec 64) (m : M) : Outcome × M :=
  if misaligned pte level || !permits pte rights access then (.pageFault, m)
  else if update && lacksAccessBits pte access then
    match write m addr (withAccessBits pte access) with
    | (false, m) => (.accessFault, m)
    | (true, m) => (.mapped (physical va level pte), m)
  else (.mapped (physical va level pte), m)

def walk : ℕ → ℕ → M → Outcome × M
  | 0, _, m => (.pageFault, m)
  | level + 1, base, m =>
    let addr := BitVec.ofNat 64 (base * 2 ^ 12 + vpn va level * 2 ^ 3)
    match read m addr with
    | (none, m) => (.accessFault, m)
    | (some pte, m) =>
      if malformed pte then (.pageFault, m)
      else if leaf pte then finish write rights access update va level addr pte m
      else walk level (ppn pte) m

/-- The translation of an address under the page number of the root table. -/
def translate (root : ℕ) (m : M) : Outcome × M :=
  if canonical va then walk read write rights access update va 3 root m else (.pageFault, m)

/-- The walk from a table comes to a leaf that permits the access and maps the address. -/
def Grants (pa : BitVec 64) : ℕ → ℕ → M → Prop
  | 0, _, _ => False
  | level + 1, base, m => ∃ pte next,
    read m (BitVec.ofNat 64 (base * 2 ^ 12 + vpn va level * 2 ^ 3)) = (some pte, next) ∧
      malformed pte = false ∧
      if leaf pte then
        permits pte rights access ∧ misaligned pte level = false ∧ physical va level pte = pa
      else Grants pa level (ppn pte) next

theorem finish_grants {level : ℕ} {m : M} {addr pte pa : BitVec 64}
    (h : (finish write rights access update va level addr pte m).1 = .mapped pa) :
    permits pte rights access ∧ misaligned pte level = false ∧ physical va level pte = pa := by
  unfold finish at h
  split at h
  · cases h
  rename_i hallowed
  rw [Bool.or_eq_true, Bool.not_eq_true', not_or, Bool.not_eq_true, Bool.not_eq_false] at hallowed
  refine ⟨hallowed.2, hallowed.1, ?_⟩
  split at h
  · split at h
    · cases h
    · exact Outcome.mapped.inj h
  · exact Outcome.mapped.inj h

theorem walk_grants {levels base : ℕ} {m : M} {pa : BitVec 64}
    (h : (walk read write rights access update va levels base m).1 = .mapped pa) :
    Grants read rights access va pa levels base m := by
  induction levels generalizing base m with
  | zero => cases h
  | succ level ih =>
    rw [walk] at h
    rcases hread : read m (BitVec.ofNat 64 (base * 2 ^ 12 + vpn va level * 2 ^ 3)) with
      ⟨_ | pte, next⟩ <;> rw [hread] at h
    · cases h
    dsimp only at h
    split_ifs at h with hformed hleaf
    · refine ⟨pte, next, hread, by simpa using hformed, ?_⟩
      rw [if_pos hleaf]
      exact finish_grants _ _ _ _ _ h
    · refine ⟨pte, next, hread, by simpa using hformed, ?_⟩
      rw [if_neg hleaf]
      exact ih h

variable {α : Type} (view : M → α)

/-- A translation that succeeded and wrote the access bits of a leaf entry that it read, in
a memory that looked as at the start. -/
def WroteAccessBits (m : M) (result : Outcome × M) : Prop :=
  update ∧ ∃ start before addr pte pa, view before = view m ∧
    read start addr = (some pte, before) ∧ leaf pte ∧
    write before addr (withAccessBits pte access) = (true, result.2) ∧ result.1 = .mapped pa

theorem walk_view (hread : ∀ m a, view (read m a).2 = view m)
    (hrefused : ∀ m a v, (write m a v).1 = false → view (write m a v).2 = view m)
    (levels base : ℕ) (m : M) :
    view (walk read write rights access update va levels base m).2 = view m ∨
      WroteAccessBits read write access update view m
        (walk read write rights access update va levels base m) := by
  induction levels generalizing base m with
  | zero => exact .inl rfl
  | succ level ih =>
    have hsame := hread m (BitVec.ofNat 64 (base * 2 ^ 12 + vpn va level * 2 ^ 3))
    rw [walk]
    revert hsame
    rcases hresult : read m (BitVec.ofNat 64 (base * 2 ^ 12 + vpn va level * 2 ^ 3)) with
      ⟨_ | pte, m'⟩ <;> intro hsame
    · exact .inl hsame
    dsimp only at hsame ⊢
    split
    · exact .inl hsame
    split
    · rename_i hleaf
      rw [finish]
      split
      · exact .inl hsame
      split
      · rename_i hupdate
        rw [Bool.and_eq_true] at hupdate
        have hwrite := hrefused m' (BitVec.ofNat 64 (base * 2 ^ 12 + vpn va level * 2 ^ 3))
          (withAccessBits pte access)
        rcases hstored : write m' (BitVec.ofNat 64 (base * 2 ^ 12 + vpn va level * 2 ^ 3))
          (withAccessBits pte access) with ⟨_ | _, m''⟩
        · rw [hstored] at hwrite
          exact .inl ((hwrite rfl).trans hsame)
        · exact .inr ⟨hupdate.1, m, m', _, pte, _, hsame, hresult, hleaf, hstored, rfl⟩
      · exact .inl hsame
    · rcases ih (ppn pte)
        m' with hkept | ⟨hupdate, start, before, addr, leafPte, pa, hview, hrest⟩
      · exact .inl (hkept.trans hsame)
      · exact .inr ⟨hupdate, start, before, addr, leafPte, pa, hview.trans hsame, hrest⟩

theorem translate_view (hread : ∀ m a, view (read m a).2 = view m)
    (hrefused : ∀ m a v, (write m a v).1 = false → view (write m a v).2 = view m)
    (root : ℕ) (m : M) :
    view (translate read write rights access update va root m).2 = view m ∨
      WroteAccessBits read write access update view m
        (translate read write rights access update va root m) := by
  rw [translate]
  split
  · exact walk_view read write rights access update va view hread hrefused 3 root m
  · exact .inl rfl

end Walk

end VisualCpu.Sv39
