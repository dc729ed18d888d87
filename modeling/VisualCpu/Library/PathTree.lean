import Mathlib.Tactic.Common

/-!
# Namespaces that are trees

A namespace gives each name a kind: a directory, something else, or nothing. It is a tree when
the parent of every name but the root is a directory of the namespace.
-/

namespace VisualCpu

open Function

namespace PathTree

variable {P : Type}

/-- Every name that is there, except the root, has a directory as its parent. -/
def IsTree (parent : P → Option P) (root : P) (kind : P → Option Bool) : Prop :=
  ∀ p, p ≠ root → (kind p).isSome → ∃ q, parent p = some q ∧ kind q = some true

variable {parent : P → Option P} {root : P} {kind : P → Option Bool}

theorem IsTree.no_children (h : IsTree parent root kind) {p : P} (hp : kind p ≠ some true)
    {c : P} (hroot : c ≠ root) (hc : parent c = some p) : kind c = none := by
  cases hkind : kind c with
  | none => rfl
  | some directory =>
    obtain ⟨q, hq, hdirectory⟩ := h c hroot (by rw [hkind]; rfl)
    rw [hc] at hq
    cases hq
    exact absurd hdirectory hp

variable [DecidableEq P]

theorem IsTree.put (h : IsTree parent root kind) {p q : P} {directory : Bool}
    (hparent : parent p = some q) (hdirectory : kind q = some true) (hne : q ≠ p)
    (hkeep : directory ∨ ∀ c, parent c = some p → kind c = none) :
    IsTree parent root (update kind p (some directory)) := by
  intro c hroot hsome
  by_cases hc : c = p
  · subst hc
    exact ⟨q, hparent, by rw [update_of_ne hne, hdirectory]⟩
  rw [update_of_ne hc] at hsome
  obtain ⟨q', hq', hkind⟩ := h c hroot hsome
  refine ⟨q', hq', ?_⟩
  by_cases hp : q' = p
  · subst hp
    rcases hkeep with rfl | hempty
    · exact update_self ..
    rw [hempty c hq'] at hsome
    cases hsome
  · rw [update_of_ne hp, hkind]

theorem IsTree.remove (h : IsTree parent root kind) {p : P}
    (hempty : ∀ c, parent c = some p → kind c = none) :
    IsTree parent root (update kind p none) := by
  intro c hroot hsome
  by_cases hc : c = p
  · subst hc
    rw [update_self] at hsome
    cases hsome
  rw [update_of_ne hc] at hsome
  obtain ⟨q, hq, hkind⟩ := h c hroot hsome
  refine ⟨q, hq, ?_⟩
  have hne : q ≠ p := by
    rintro rfl
    rw [hempty c hq] at hsome
    cases hsome
  rw [update_of_ne hne, hkind]

end PathTree
end VisualCpu
