import Mathlib.Data.List.Perm.Basic

/-!
# Orders of dependent actions

Lists without duplicates as orders of actions. Two orders in which every exchanged pair of
actions commutes have the same effect; this holds of any two orders that respect the
dependencies when all pairs that do not commute are connected by a path of dependencies.
-/

namespace VisualCpu.Orders

open List

variable {α σ : Type}

/-- The first element stands before the second. -/
def Before (order : List α) (a b : α) : Prop := [a, b].Sublist order

variable {order : List α} {a b : α} {depends : α → α → Prop}

theorem Before.mem_left (h : Before order a b) : a ∈ order :=
  h.subset (by simp)

theorem Before.mem_right (h : Before order a b) : b ∈ order :=
  h.subset (by simp)

theorem before_cons {x a b : α} :
    Before (x :: order) a b ↔ Before order a b ∨ a = x ∧ b ∈ order := by
  unfold Before
  rw [sublist_cons_iff]
  constructor
  · rintro (h | ⟨rest, heq, h⟩)
    · exact .inl h
    obtain ⟨rfl, rfl⟩ := List.cons.inj heq
    exact .inr ⟨rfl, singleton_sublist.1 h⟩
  · rintro (h | ⟨rfl, h⟩)
    · exact .inl h
    · exact .inr ⟨[b], rfl, singleton_sublist.2 h⟩

theorem before_append_singleton (ha : a ∈ order) : Before (order ++ [b]) a b :=
  (singleton_sublist.2 ha).append (List.Sublist.refl [b])

theorem Before.mono {order order' : List α} (h : order.Sublist order')
    (hbefore : Before order a b) : Before order' a b :=
  List.Sublist.trans hbefore h

theorem Before.trans (hnodup : order.Nodup) {a b c : α} (hab : Before order a b)
    (hbc : Before order b c) : Before order a c := by
  induction order with
  | nil => cases hab
  | cons x rest ih =>
    rw [nodup_cons] at hnodup
    rw [before_cons] at hab hbc ⊢
    rcases hbc with hbc | ⟨rfl, hc⟩
    · rcases hab with hab | ⟨rfl, hb⟩
      · exact .inl (ih hnodup.2 hab hbc)
      · exact .inr ⟨rfl, hbc.mem_right⟩
    · rcases hab with hab | ⟨rfl, hb⟩
      · exact absurd hab.mem_right hnodup.1
      · exact absurd hb hnodup.1

theorem Before.asymm (hnodup : order.Nodup) (hab : Before order a b) : ¬Before order b a := by
  induction order with
  | nil => cases hab
  | cons x rest ih =>
    intro hba
    rw [nodup_cons] at hnodup
    rw [before_cons] at hab hba
    rcases hab with hab | ⟨rfl, hb⟩
    · rcases hba with hba | ⟨rfl, ha⟩
      · exact ih hnodup.2 hab hba
      · exact hnodup.1 hab.mem_right
    · rcases hba with hba | ⟨rfl, ha⟩
      · exact hnodup.1 hba.mem_right
      · exact hnodup.1 hb

theorem not_before_self (hnodup : order.Nodup) (a : α) : ¬Before order a a :=
  fun h => h.asymm hnodup h

def Respects (depends : α → α → Prop) (order : List α) : Prop :=
  ∀ a b, depends a b → Before order a b

theorem Respects.path (h : Respects depends order)
    (hnodup : order.Nodup) (hpath : Relation.TransGen depends a b) :
    Before order a b := by
  induction hpath with
  | single hab => exact h _ _ hab
  | tail _ hbc ih => exact ih.trans hnodup (h _ _ hbc)

variable {act : σ → α → σ} {valid : σ → Prop}

variable (hvalid : ∀ s a, valid s → valid (act s a)) {first second : List α} {s : σ}

include hvalid

/-- An action that commutes with those before it can come first. -/
theorem foldl_move_front {a : α} {xs : List α}
    (hcommute : ∀ x ∈ xs, ∀ s, valid s → act (act s x) a = act (act s a) x) (hs : valid s) :
    act (xs.foldl act s) a = xs.foldl act (act s a) := by
  induction xs generalizing s with
  | nil => rfl
  | cons x rest ih =>
    have hrest : ∀ y ∈ rest, ∀ s, valid s → act (act s y) a = act (act s a) y :=
      fun y hy => hcommute y (mem_cons_of_mem _ hy)
    rw [foldl_cons, foldl_cons, ih hrest (hvalid s x hs), hcommute x mem_cons_self s hs]

/-- Two orders of the same actions have the same effect if the exchanged pairs commute. -/
theorem foldl_eq_of_perm
    (hperm : first.Perm second) (hnodup : first.Nodup)
    (hcommute : ∀ a b, Before first a b → Before second b a →
      ∀ s, valid s → act (act s b) a = act (act s a) b) (hs : valid s) :
    first.foldl act s = second.foldl act s := by
  induction first generalizing second s with
  | nil => rw [hperm.nil_eq]
  | cons a rest ih =>
    obtain ⟨xs, ys, rfl⟩ := append_of_mem (hperm.subset mem_cons_self)
    have hrest : rest.Perm (xs ++ ys) := (hperm.trans perm_middle).cons_inv
    have hsublist : (xs ++ ys).Sublist (xs ++ a :: ys) :=
      (List.Sublist.refl xs).append (sublist_cons_self a ys)
    rw [nodup_cons] at hnodup
    have hfront : ∀ x ∈ xs, ∀ s, valid s → act (act s x) a = act (act s a) x := by
      intro x hx
      have hmem : x ∈ rest := hrest.mem_iff.2 (mem_append_left ys hx)
      refine hcommute a x (before_cons.2 (.inr ⟨rfl, hmem⟩)) ?_
      exact (singleton_sublist.2 hx).append (singleton_sublist.2 mem_cons_self)
    have hlater : ∀ b c, Before rest b c → Before (xs ++ ys) c b →
        ∀ s, valid s → act (act s c) b = act (act s b) c := by
      intro b c hbc hcb
      exact hcommute b c (hbc.mono (sublist_cons_self a rest)) (hcb.mono hsublist)
    rw [foldl_cons, ih hrest hnodup.2 hlater (hvalid s a hs), foldl_append,
      foldl_append, foldl_cons, foldl_move_front hvalid hfront hs]

theorem foldl_eq_of_respects
    (hperm : first.Perm second)
    (hnodup : first.Nodup) (hfirst : Respects depends first) (hsecond : Respects depends second)
    (hconnected : ∀ a ∈ first, ∀ b ∈ first, a ≠ b →
      (∀ s, valid s → act (act s b) a = act (act s a) b) ∨
        Relation.TransGen depends a b ∨ Relation.TransGen depends b a) (hs : valid s) :
    first.foldl act s = second.foldl act s := by
  have hnodup' : second.Nodup := hperm.nodup_iff.1 hnodup
  refine foldl_eq_of_perm hvalid hperm hnodup (fun a b hab hba => ?_) hs
  have hne : a ≠ b := by
    rintro rfl
    exact not_before_self hnodup a hab
  rcases hconnected a hab.mem_left b hab.mem_right hne with hcommute | hpath | hpath
  · exact hcommute
  · exact absurd hba ((hsecond.path hnodup' hpath).asymm hnodup')
  · exact absurd hab ((hfirst.path hnodup hpath).asymm hnodup)

end VisualCpu.Orders
