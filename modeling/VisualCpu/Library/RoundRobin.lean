import Mathlib.Data.List.Nodup

/-!
# Searching in a circle

The indices below a number in circular order from a start, and the search for the first of
them that passes a test. An index that passes is reached, and each search that stops before
it comes nearer to it. A queue whose head is served and goes back to the end serves every
other member at most once between two turns of the same one.
-/

namespace VisualCpu.RoundRobin

open List

/-- The indices below `n` from `start` on, around the circle. -/
def circle (n start : ℕ) : List ℕ := (List.range n).map fun step => (start + step) % n

/-- How many indices of the circle from `start` come before an index. -/
def gap (n start index : ℕ) : ℕ := if start ≤ index then index - start else index + n - start

theorem add_mod_of_lt {n a b : ℕ} (ha : a < n) (hb : b < n) :
    (a + b) % n = if a + b < n then a + b else a + b - n := by
  split
  · exact Nat.mod_eq_of_lt ‹_›
  · rw [Nat.mod_eq_sub_mod (by omega), Nat.mod_eq_of_lt (by omega)]

variable {n start index : ℕ} {test : ℕ → Bool}

theorem gap_lt (hstart : start < n) (hindex : index < n) : gap n start index < n := by
  rw [gap]
  split <;> omega

theorem succ_mod {n index : ℕ} (h : index < n) :
    (index + 1) % n = if index + 1 = n then 0 else index + 1 := by
  split
  · rename_i heq
    rw [heq, Nat.mod_self]
  · exact Nat.mod_eq_of_lt (by omega)

theorem gap_succ_of_ne {n index other : ℕ} (h : index < n) (hother : other < n)
    (hne : other ≠ index) : gap n ((other + 1) % n) index + 1 < n := by
  rw [succ_mod hother, gap]
  split <;> split <;> omega

theorem gap_after {n start index step : ℕ} (hstart : start < n) (hindex : index < n)
    (hstep : step < gap n start index) :
    gap n (((start + step) % n + 1) % n) index < gap n start index := by
  have hlt := gap_lt hstart hindex
  have hmod : (start + step) % n < n := Nat.mod_lt _ (by omega)
  rw [succ_mod hmod, add_mod_of_lt hstart (by omega)]
  simp only [gap] at hstep hlt ⊢
  split_ifs at hstep hlt ⊢ <;> omega

theorem circle_getElem_gap (hstart : start < n) (hindex : index < n) :
    (start + gap n start index) % n = index := by
  rw [add_mod_of_lt hstart (gap_lt hstart hindex)]
  simp only [gap]
  split_ifs <;> omega

theorem mem_circle (hstart : start < n) : index ∈ circle n start ↔ index < n := by
  rw [circle, mem_map]
  constructor
  · rintro ⟨step, -, rfl⟩
    exact Nat.mod_lt _ (by omega)
  intro hindex
  exact ⟨gap n start index, mem_range.2 (gap_lt hstart hindex), circle_getElem_gap hstart hindex⟩

theorem find_circle (hstart : start < n) (hindex : index < n) (htest : test index) :
    ∃ found, (circle n start).find? test = some found ∧ found < n ∧ test found ∧
      (found = index ∨ gap n ((found + 1) % n) index < gap n start index) := by
  rw [circle, List.find?_map]
  cases hfind : (List.range n).find? (test ∘ fun step => (start + step) % n) with
  | none =>
    rw [List.find?_range_eq_none] at hfind
    have hpass := hfind (gap n start index) (gap_lt hstart hindex)
    simp [circle_getElem_gap hstart hindex, htest] at hpass
  | some step =>
    rw [List.find?_range_eq_some] at hfind
    obtain ⟨hpass, hmem, hfirst⟩ := hfind
    refine ⟨(start + step) % n, rfl, Nat.mod_lt _ (by omega), hpass, ?_⟩
    rcases Nat.lt_trichotomy step (gap n start index) with hlt | heq | hgt
    · exact .inr (gap_after hstart hindex hlt)
    · left
      rw [heq, circle_getElem_gap hstart hindex]
    · have hbefore := hfirst _ hgt
      simp [circle_getElem_gap hstart hindex, htest] at hbefore

theorem find_circle_none {n start : ℕ} (hstart : start < n) :
    (circle n start).find? test = none ↔ ∀ index < n, test index = false := by
  rw [List.find?_eq_none]
  constructor
  · intro h index hindex
    simpa using h index ((mem_circle hstart).2 hindex)
  intro h index hindex
  simp [h index ((mem_circle hstart).1 hindex)]

theorem gap_succ_grow {n index other : ℕ} (hindex : index < n) (hother : other < n) :
    gap (n + 1) ((other + 1) % (n + 1)) index ≤ gap n ((other + 1) % n) index + 1 := by
  rw [succ_mod hother, succ_mod (Nat.lt_succ_of_lt hother)]
  simp only [gap]
  split_ifs <;> omega

section

variable {ι : Type} [DecidableEq ι] {queue log : List ι} {member : ι} {head : ι}

/-- Between two turns of a member, every other one has at most one turn. -/
def Fair (log : List ι) : Prop :=
  ∀ member early between late, log = early ++ member :: between ++ member :: late →
    member ∉ between → between.Nodup

/-- The turns after the last one of a member, the newest first. -/
def since (member : ι) (log : List ι) : List ι := log.reverse.takeWhile (· ≠ member)

theorem since_concat_self (member : ι) (log : List ι) : since member (log ++ [member]) = [] := by
  simp [since]

theorem since_concat_of_ne {member other : ι} (hne : other ≠ member) (log : List ι) :
    since member (log ++ [other]) = other :: since member log := by
  simp [since, hne]

theorem since_append (early between : List ι) (hnot : member ∉ between) :
    since member (early ++ member :: between) = between.reverse := by
  have hbetween : ∀ other ∈ between.reverse, decide (other ≠ member) = true := by
    intro other hother
    have hmem : other ∈ between := mem_reverse.1 hother
    simp only [decide_eq_true_eq]
    rintro rfl
    exact hnot hmem
  rw [since, List.reverse_append, reverse_cons, List.append_assoc, takeWhile_append_of_pos hbetween]
  simp

/-- The state of the turns: since the last turn of a waiting member, no other one had two, and
those that had one wait behind it. -/
structure Rotating (queue log : List ι) : Prop where
  nodup : queue.Nodup
  once : ∀ member ∈ queue, member ∈ log → (since member log).Nodup
  behind : ∀ ahead member rest, queue = ahead ++ member :: rest → member ∈ log →
    ∀ other ∈ ahead, other ∉ since member log

theorem Rotating.nil : Rotating ([] : List ι) [] where
  nodup := nodup_nil
  once := by
    intro member hmember
    cases hmember
  behind := by
    intro ahead member rest hqueue
    simp at hqueue

theorem Rotating.serve (h : Rotating (head :: queue) log) : Rotating queue (log ++ [head]) := by
  have hnodup := nodup_cons.1 h.nodup
  have hlog : ∀ {member}, member ∈ queue → member ∈ log ++ [head] → head ≠ member ∧
    member ∈ log := by
    intro member hmember hlog
    have hne : head ≠ member := by
      rintro rfl
      exact hnodup.1 hmember
    rw [mem_append, mem_singleton] at hlog
    exact ⟨hne, hlog.resolve_right hne.symm⟩
  constructor
  · exact hnodup.2
  · intro member hmember hserved
    obtain ⟨hne, hbefore⟩ := hlog hmember hserved
    rw [since_concat_of_ne hne, nodup_cons]
    obtain ⟨ahead, rest, hsplit⟩ := append_of_mem hmember
    constructor
    · apply h.behind (head :: ahead) member rest (by rw [hsplit]; rfl) hbefore
      exact mem_cons_self
    · exact h.once member (mem_cons_of_mem _ hmember) hbefore
  · intro ahead member rest hsplit hserved other hother
    obtain ⟨hne, hbefore⟩ := hlog (by rw [hsplit]; simp) hserved
    rw [since_concat_of_ne hne, mem_cons, not_or]
    constructor
    · rintro rfl
      exact hnodup.1 (by rw [hsplit]; exact mem_append_left _ hother)
    apply h.behind (head :: ahead) member rest (by rw [hsplit]; rfl) hbefore
    exact mem_cons_of_mem _ hother

theorem Rotating.join (h : Rotating queue log) (hnot : member ∉ queue)
    (hfresh : member ∈ log → since member log = []) : Rotating (queue ++ [member]) log := by
  constructor
  · rw [nodup_append]
    refine ⟨h.nodup, nodup_singleton _, ?_⟩
    intro other hother last hlast
    rw [mem_singleton.1 hlast]
    rintro rfl
    exact hnot hother
  · intro other hother hserved
    rw [mem_append, mem_singleton] at hother
    rcases hother with hother | rfl
    · exact h.once other hother hserved
    rw [hfresh hserved]
    exact nodup_nil
  · intro ahead other rest hsplit hserved before hbefore
    rcases eq_nil_or_concat rest with rfl | ⟨rest, last, rfl⟩
    · have hparts := append_inj' hsplit rfl
      obtain rfl : member = other := by simpa using hparts.2
      rw [hfresh hserved]
      exact not_mem_nil
    · have hwhole : queue ++ [member] = ahead ++ other :: rest ++ [last] := by
        rw [hsplit]
        simp
      have hparts := append_inj' hwhole rfl
      exact h.behind ahead other rest hparts.1 hserved before hbefore

theorem Rotating.join_all {fresh : List ι} (h : Rotating queue log) (hnodup : fresh.Nodup)
    (hnot : ∀ member ∈ fresh, member ∉ queue ∧ member ∉ log) : Rotating (queue ++ fresh) log := by
  induction fresh generalizing queue with
  | nil => simpa using h
  | cons member fresh ih =>
    obtain ⟨hhead, hrest⟩ := nodup_cons.1 hnodup
    obtain ⟨hqueue, hlog⟩ := hnot member mem_cons_self
    rw [← singleton_append, ← List.append_assoc]
    apply ih (h.join hqueue fun hmem => absurd hmem hlog) hrest
    intro other hother
    obtain ⟨hqueue', hlog'⟩ := hnot other (mem_cons_of_mem _ hother)
    refine ⟨?_, hlog'⟩
    rw [mem_append, mem_singleton, not_or]
    refine ⟨hqueue', ?_⟩
    rintro rfl
    exact hhead hother

theorem Fair.serve (hfair : Fair log) (h : Rotating (head :: queue) log) :
    Fair (log ++ [head]) := by
  intro member early between late hlog hbetween
  rcases eq_nil_or_concat late with rfl | ⟨late, last, rfl⟩
  · have hparts := append_inj' hlog rfl
    obtain rfl : head = member := by simpa using hparts.2
    have honce := h.once head mem_cons_self (by rw [hparts.1]; simp)
    rw [hparts.1, since_append early between hbetween] at honce
    exact nodup_reverse.1 honce
  · have hwhole : log ++ [head] = early ++ member :: between ++ member :: late ++ [last] := by
      rw [hlog]
      simp
    have hparts := append_inj' hwhole rfl
    exact hfair member early between late hparts.1 hbetween

omit [DecidableEq ι] in
theorem Fair.nil : Fair ([] : List ι) := by
  intro member early between late hlog
  simp at hlog

end

end VisualCpu.RoundRobin
