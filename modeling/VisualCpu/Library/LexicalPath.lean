import Mathlib.Data.List.Flatten
import Mathlib.Tactic.SplitIfs

/-!
# Lexical paths

A path is read as the parts between its slashes; an empty part or a dot says nothing.
-/

namespace VisualCpu.LexicalPath

open List

variable {α : Type}

/-- Parts that are left out are missed. -/
theorem flatMap_eq_filter_iff (slash : α) (p : List α → Bool) (parts : List (List α)) :
    parts.flatMap (slash :: ·) = (parts.filter p).flatMap (slash :: ·) ↔
      ∀ part ∈ parts, p part := by
  refine ⟨fun heq => ?_, fun hall => by rw [filter_eq_self.2 hall]⟩
  induction parts with
  | nil => exact fun _ hmem => absurd hmem not_mem_nil
  | cons part parts ih =>
    cases hp : p part with
    | true =>
      rw [filter_cons_of_pos hp, flatMap_cons, flatMap_cons, append_cancel_left_eq] at heq
      exact forall_mem_cons.2 ⟨hp, ih heq⟩
    | false =>
      have hlength := congrArg length heq
      have hle := ((@filter_sublist _ p parts).flatMap (slash :: ·)).length_le
      rw [filter_cons_of_neg (by rw [hp]; exact Bool.false_ne_true), flatMap_cons,
        length_append, length_cons] at hlength
      omega

variable [DecidableEq α] (slash dot : α)

def Proper (part : List α) : Prop := part ≠ [] ∧ part ≠ [dot]

instance : DecidablePred (Proper dot) := fun _ => inferInstanceAs (Decidable (_ ∧ _))

def parts (path : List α) : List (List α) := (path.splitOn slash).filter (Proper dot ·)

def render (parts : List (List α)) : List α :=
  if parts = [] then [slash] else parts.flatMap (slash :: ·)

/-- An absolute path in normal form. -/
def Normal (path : List α) : Prop := path = render slash (parts slash dot path)

instance : DecidablePred (Normal slash dot) := fun _ => inferInstanceAs (Decidable (_ = _))

variable {slash dot} {path rest : List α}

theorem parts_append (path rest : List α) : parts slash dot (path ++ slash :: rest) =
    parts slash dot path ++ parts slash dot rest := by
  rw [parts, splitOn_append_cons_self, filter_append]
  rfl

theorem parts_cons (rest : List α) : parts slash dot (slash :: rest) = parts slash dot rest :=
  (parts_append [] rest).trans (by simp [parts, Proper])

theorem cons_eq_flatMap (rest : List α) :
    slash :: rest = (rest.splitOn slash).flatMap (slash :: ·) := by
  have hflat : ∀ parts : List (List α), parts ≠ [] →
      slash :: [slash].intercalate parts = parts.flatMap (slash :: ·) := by
    intro parts hne
    induction parts with
    | nil => exact absurd rfl hne
    | cons part parts ih =>
      cases parts with
      | nil => simp
      | cons next parts =>
        rw [flatMap_cons, ← ih (cons_ne_nil _ _)]
        simp [intercalate]
  rw [← hflat _ (splitOn_ne_nil _ _), intercalate_splitOn]

theorem cons_eq_parts_iff : slash :: rest = (parts slash dot rest).flatMap (slash :: ·) ↔
    ∀ part ∈ rest.splitOn slash, Proper dot part := by
  rw [cons_eq_flatMap rest, parts, flatMap_eq_filter_iff]
  simp only [decide_eq_true_eq]

theorem cons_eq_render_iff : slash :: rest = render slash (parts slash dot rest) ↔
    rest = [] ∨ ∀ part ∈ rest.splitOn slash, Proper dot part := by
  rw [render, ← cons_eq_parts_iff]
  split_ifs with hnone
  · rw [hnone]
    simp
  refine ⟨.inr, fun h => h.resolve_left ?_⟩
  rintro rfl
  exact hnone (by simp [parts, Proper])

theorem normal_cons_iff : Normal slash dot (slash :: rest) ↔
    rest = [] ∨ ∀ part ∈ rest.splitOn slash, Proper dot part := by
  rw [Normal, parts_cons, cons_eq_render_iff]

theorem Normal.exists_cons (h : Normal slash dot path) : ∃ rest, path = slash :: rest := by
  rw [Normal, render] at h
  split_ifs at h with hnone
  · exact ⟨_, h⟩
  obtain ⟨part, parts, hparts⟩ := exists_cons_of_ne_nil hnone
  rw [hparts, flatMap_cons] at h
  exact ⟨_, h⟩

theorem length_of_proper (h : ∀ part ∈ rest.splitOn slash, Proper dot part) :
    1 < (slash :: rest).length := by
  cases rest with
  | nil => exact absurd rfl (h [] (by simp)).1
  | cons _ _ => simp

/-- A path below another one is normal if each of its parts says something. -/
theorem Normal.append (h : Normal slash dot path)
    (hrest : ∀ part ∈ rest.splitOn slash, Proper dot part) :
    Normal slash dot (path ++ (if 1 < path.length then [slash] else []) ++ rest) := by
  obtain ⟨below, rfl⟩ := h.exists_cons
  rcases normal_cons_iff.1 h with rfl | hbelow
  · exact normal_cons_iff.2 (.inr hrest)
  have hlong : 1 < (slash :: below).length := by
    cases below with
    | nil => exact absurd rfl (hbelow [] (by simp)).1
    | cons _ _ => simp
  rw [if_pos hlong, append_assoc, cons_append]
  refine normal_cons_iff.2 (.inr ?_)
  rw [cons_append, nil_append, splitOn_append_cons_self]
  exact forall_mem_append.2 ⟨hbelow, hrest⟩

/-- A path below another one has the parts of both, and a path is normal only if its parts are. -/
theorem Normal.append_eq_iff (h : Normal slash dot path) (hne : rest ≠ []) :
    path ++ (if 1 < path.length then [slash] else []) ++ rest =
      render slash (parts slash dot path ++ parts slash dot rest) ↔
    ∀ part ∈ rest.splitOn slash, Proper dot part := by
  obtain ⟨below, rfl⟩ := h.exists_cons
  rcases normal_cons_iff.1 h with rfl | hbelow
  · rw [parts_cons]
    exact cons_eq_render_iff.trans (or_iff_right hne)
  have hparts := cons_eq_parts_iff.2 hbelow
  rw [if_pos (length_of_proper hbelow), parts_cons, render, if_neg, flatMap_append,
    ← hparts, append_assoc, singleton_append, append_cancel_left_eq]
  · exact cons_eq_parts_iff
  intro hnone
  rw [(append_eq_nil_iff.1 hnone).1] at hparts
  cases hparts

end VisualCpu.LexicalPath
