import Mathlib.Data.Fintype.Order
import VisualCpu.Library.LinearExtensions

/-!
# Ordering a graph by in-degrees

The algorithm that keeps the number of open incoming edges of every vertex and a queue of
the vertices without any. It visits every vertex exactly when the edges, which may repeat,
have no cycle; each vertex once and after all its sources.
-/

namespace VisualCpu.Kahn

open List Function Orders

variable {α σ ε : Type} [DecidableEq α]

def successors (edges : List (α × α)) (a : α) : List α :=
  (edges.filter fun e => e.1 = a).map (·.2)

/-- The queue and the in-degrees after the edges to some vertices are removed. -/
def release : List α → List α → (α → ℕ) → List α × (α → ℕ)
  | [], ready, degree => (ready, degree)
  | b :: rest, ready, degree =>
    let left := degree b - 1
    release rest (if left = 0 then ready ++ [b] else ready) (update degree b left)

/-- The order in which the vertices leave the queue. -/
def order (edges : List (α × α)) : ℕ → List α → (α → ℕ) → List α
  | 0, _, _ => []
  | _ + 1, [], _ => []
  | fuel + 1, a :: ready, degree =>
    let (ready, degree) := release (successors edges a) ready degree
    a :: order edges fuel ready degree

def loop (edges : List (α × α)) (visit : σ → α → Except ε σ) :
    ℕ → List α → (α → ℕ) → σ → Option (Except ε σ)
  | 0, _, _, _ => none
  | _ + 1, [], _, s => some (.ok s)
  | fuel + 1, a :: ready, degree, s =>
    match visit s a with
    | .error e => some (.error e)
    | .ok s =>
      let (ready, degree) := release (successors edges a) ready degree
      loop edges visit fuel ready degree s

theorem release_degree (targets ready : List α) (degree : α → ℕ) (v : α) :
    (release targets ready degree).2 v = degree v - targets.count v := by
  induction targets generalizing ready degree with
  | nil => simp [release]
  | cons b rest ih =>
    rw [release, ih]
    by_cases hb : v = b
    · subst hb
      rw [update_self, count_cons_self]
      omega
    · rw [update_of_ne hb, count_cons_of_ne (Ne.symm hb)]

variable {degree : α → ℕ}

/-- The vertices that enter the queue are those whose last open edges are removed. -/
theorem release_ready {targets : List α}
    (hopen : ∀ v, targets.count v ≤ degree v) (ready : List α) :
    ∃ fresh, (release targets ready degree).1 = ready ++ fresh ∧ fresh.Nodup ∧
      ∀ v, v ∈ fresh ↔ v ∈ targets ∧ degree v = targets.count v := by
  induction targets generalizing ready degree with
  | nil => exact ⟨[], by simp [release]⟩
  | cons b rest ih =>
    have hb : rest.count b + 1 ≤ degree b := by simpa using hopen b
    have hrest : ∀ v, rest.count v ≤ update degree b (degree b - 1) v := by
      intro v
      by_cases hv : v = b
      · subst hv
        rw [update_self]
        omega
      · rw [update_of_ne hv]
        have := hopen v
        rwa [count_cons_of_ne (Ne.symm hv)] at this
    obtain ⟨fresh, hready, hnodup, hmem⟩ :=
      ih hrest (if degree b - 1 = 0 then ready ++ [b] else ready)
    have hmem' : ∀ v ≠ b, v ∈ fresh ↔ v ∈ rest ∧ degree v = rest.count v := by
      intro v hv
      rw [hmem, update_of_ne hv]
    have hmemb : b ∈ fresh ↔ b ∈ rest ∧ degree b - 1 = rest.count b := by
      rw [hmem, update_self]
    rw [release]
    by_cases hlast : degree b - 1 = 0
    · -- the last open edge of `b`, which no later target is
      have hcount : rest.count b = 0 := by omega
      have hnot : b ∉ rest := count_eq_zero.1 hcount
      have hfresh : b ∉ fresh := fun h => hnot (hmemb.1 h).1
      refine ⟨b :: fresh, by rw [hready, if_pos hlast]; simp, nodup_cons.2 ⟨hfresh, hnodup⟩, ?_⟩
      intro v
      by_cases hv : v = b
      · subst hv
        simp only [mem_cons, true_or, count_cons_self, true_and, true_iff]
        omega
      · rw [mem_cons, hmem' v hv, mem_cons, count_cons_of_ne (Ne.symm hv)]
        simp [hv]
    · refine ⟨fresh, by rw [hready, if_neg hlast], hnodup, ?_⟩
      intro v
      by_cases hv : v = b
      · subst hv
        rw [hmemb, count_cons_self]
        constructor
        · rintro ⟨hin, heq⟩
          exact ⟨mem_cons_self, by omega⟩
        rintro ⟨-, heq⟩
        have hpos : 0 < rest.count v := by omega
        exact ⟨count_pos_iff.1 hpos, by omega⟩
      · rw [hmem' v hv, mem_cons, count_cons_of_ne (Ne.symm hv)]
        simp [hv]

def openEdges (edges : List (α × α)) (done : List α) (v : α) : ℕ :=
  edges.countP fun e => e.2 = v ∧ e.1 ∉ done

/-- What holds after some vertices are done. -/
structure Inv (vertices : List α) (edges : List (α × α)) (done ready : List α) (degree : α → ℕ) :
    Prop where
  nodup : (done ++ ready).Nodup
  subset : ∀ v ∈ done ++ ready, v ∈ vertices
  opened : ∀ v, degree v = openEdges edges done v
  zero : ∀ v ∈ vertices, v ∈ done ++ ready ↔ degree v = 0
  sorted : ∀ e ∈ edges, e.2 ∈ done → Before done e.1 e.2

variable {edges : List (α × α)}

theorem openEdges_eq_zero {done : List α} {v : α} :
    openEdges edges done v = 0 ↔ ∀ e ∈ edges, e.2 = v → e.1 ∈ done := by
  unfold openEdges
  rw [countP_eq_zero]
  constructor
  · intro h e he hv
    by_contra hnot
    exact h e he (by simp [hv, hnot])
  · intro h e he htrue
    simp only [decide_eq_true_eq] at htrue
    exact htrue.2 (h e he htrue.1)

theorem openEdges_append {done : List α} {a : α} (ha : a ∉ done) (v : α) : openEdges edges done v =
      openEdges edges (done ++ [a]) v + (successors edges a).count v := by
  unfold openEdges successors
  induction edges with
  | nil => rfl
  | cons e rest ih =>
    rw [countP_cons, countP_cons, ih]
    by_cases hsource : e.1 = a
    · rw [filter_cons_of_pos (by simpa using hsource), map_cons, count_cons]
      by_cases htarget : e.2 = v
      · simp [hsource, htarget, ha]
        omega
      · simp [htarget]
    · rw [filter_cons_of_neg (by simpa using hsource)]
      simp only [mem_append, mem_singleton, hsource, or_false]
      omega

variable {vertices : List α} {done ready : List α} {fuel : ℕ}

theorem Inv.step {a : α} (hedges : ∀ e ∈ edges, e.2 ∈ vertices)
    (h : Inv vertices edges done (a :: ready) degree) :
    Inv vertices edges (done ++ [a]) (release (successors edges a) ready degree).1
      (release (successors edges a) ready degree).2 := by
  have hfront : a ∈ done ++ a :: ready := by simp
  have hvertex : a ∈ vertices := h.subset a hfront
  have hdone : a ∉ done := by
    intro hin
    exact (nodup_append.1 h.nodup).2.2 a hin a mem_cons_self rfl
  have hopen : ∀ v, (successors edges a).count v ≤ degree v := by
    intro v
    rw [h.opened, openEdges_append hdone]
    omega
  have hdegree : ∀ v, (release (successors edges a) ready degree).2 v =
      openEdges edges (done ++ [a]) v := by
    intro v
    rw [release_degree, h.opened, openEdges_append hdone]
    omega
  obtain ⟨fresh, hready, hnodup, hmem⟩ := release_ready hopen ready
  have hfresh : ∀ v ∈ fresh, v ∈ vertices ∧ v ∉ done ++ a :: ready := by
    intro v hv
    obtain ⟨htarget, heq⟩ := (hmem v).1 hv
    have hin : v ∈ vertices := by
      obtain ⟨e, he, rfl⟩ := mem_map.1 htarget
      exact hedges e (mem_of_mem_filter he)
    refine ⟨hin, fun hold => ?_⟩
    have hzero := (h.zero v hin).1 hold
    have hpos := count_pos_iff.2 htarget
    omega
  rw [hready]
  have hlist : done ++ [a] ++ (ready ++ fresh) = done ++ a :: ready ++ fresh := by simp
  refine ⟨?_, ?_, hdegree, ?_, ?_⟩
  · rw [hlist]
    exact nodup_append.2 ⟨h.nodup, hnodup,
      fun x hx y hy hxy => (hfresh y hy).2 (hxy ▸ hx)⟩
  · intro v hv
    rw [hlist] at hv
    rcases mem_append.1 hv with hv | hv
    · exact h.subset v hv
    · exact (hfresh v hv).1
  · intro v hv
    rw [hlist, mem_append, h.zero v hv, hmem, release_degree]
    have := hopen v
    constructor
    · rintro (hzero | ⟨-, heq⟩) <;> omega
    intro hzero
    by_cases hnone : degree v = 0
    · exact .inl hnone
    · exact .inr ⟨count_pos_iff.1 (by omega), by omega⟩
  · intro e he htarget
    rcases mem_append.1 htarget with hold | hnew
    · exact (h.sorted e he hold).mono (sublist_append_left done [a])
    have ha : e.2 = a := mem_singleton.1 hnew
    have hzero : openEdges edges done a = 0 := by
      rw [← h.opened]
      exact (h.zero a hvertex).1 hfront
    rw [ha]
    exact before_append_singleton (openEdges_eq_zero.1 hzero e he ha)

theorem Inv.length_le (h : Inv vertices edges done ready degree) :
    done.length + ready.length ≤ vertices.length := by
  rw [← length_append]
  exact (subperm_of_subset h.nodup h.subset).length_le

theorem Inv.order (hedges : ∀ e ∈ edges, e.2 ∈ vertices)
    (hfuel : vertices.length < fuel + done.length) (h : Inv vertices edges done ready degree) :
    ∃ degree', Inv vertices edges (done ++ order edges fuel ready degree) [] degree' := by
  induction fuel generalizing done ready degree with
  | zero =>
    have := h.length_le
    omega
  | succ fuel ih =>
    cases ready with
    | nil => exact ⟨degree, by simpa [Kahn.order] using h⟩
    | cons a ready =>
      have hstep := h.step hedges
      obtain ⟨degree', hend⟩ := ih (by simp; omega) hstep
      exact ⟨degree', by simpa [Kahn.order] using hend⟩

theorem Inv.loop
    (hedges : ∀ e ∈ edges, e.2 ∈ vertices) (visit : σ → α → Except ε σ)
    (hfuel : vertices.length < fuel + done.length)
    (h : Inv vertices edges done ready degree) (s : σ) :
    Kahn.loop edges visit fuel ready degree s =
      some ((Kahn.order edges fuel ready degree).foldlM visit s) := by
  induction fuel generalizing done ready degree s with
  | zero =>
    have := h.length_le
    omega
  | succ fuel ih =>
    cases ready with
    | nil => rfl
    | cons a ready =>
      rw [Kahn.loop, Kahn.order, foldlM_cons]
      cases visit s a with
      | error e => rfl
      | ok next => exact ih (by simp; omega) (h.step hedges) next

theorem inv_start (edges : List (α × α)) (hnodup : vertices.Nodup) :
    Inv vertices edges [] (vertices.filter fun v => openEdges edges [] v = 0)
      (openEdges edges []) where
  nodup := by simpa using hnodup.filter _
  subset v hv := by
    rw [nil_append] at hv
    exact mem_of_mem_filter hv
  opened _ := rfl
  zero v hv := by simp [hv]
  sorted e _ h := by cases h

def Edge (edges : List (α × α)) (a b : α) : Prop := (a, b) ∈ edges

/-- No vertex has a path to itself. -/
def Acyclic (edges : List (α × α)) : Prop := ∀ a, ¬Relation.TransGen (Edge edges) a a

theorem Inv.complete (hedges : ∀ e ∈ edges, e.1 ∈ vertices ∧ e.2 ∈ vertices) {done : List α}
    (h : Inv vertices edges done [] degree) : (∀ v ∈ vertices, v ∈ done) ↔ Acyclic edges := by
  have hnodup : done.Nodup := by simpa using h.nodup
  constructor
  · intro hall a hcycle
    have hrespects : Respects (Edge edges) done := fun a b hab =>
      h.sorted (a, b) hab (hall b (hedges (a, b) hab).2)
    exact not_before_self hnodup a (hrespects.path hnodup hcycle)
  intro hacyclic v hv
  by_contra hnot
  -- a vertex that is not done has a source that is not done
  have hsource : ∀ v ∈ vertices, v ∉ done → ∃ u ∈ vertices, u ∉ done ∧ Edge edges u v := by
    intro v hv hnot
    have hopen : openEdges edges done v ≠ 0 := by
      rw [← h.opened]
      intro hzero
      exact hnot (by simpa using (h.zero v hv).2 hzero)
    rw [Ne, openEdges_eq_zero] at hopen
    push Not at hopen
    obtain ⟨e, he, rfl, hnot'⟩ := hopen
    exact ⟨e.1, (hedges e he).1, hnot', he⟩
  let Open := { v // v ∈ vertices ∧ v ∉ done }
  let path (a b : Open) : Prop := Relation.TransGen (Edge edges) a.1 b.1
  have hfinite : Finite Open := by
    have hsub : Set.Finite { v | v ∈ vertices ∧ v ∉ done } :=
      (finite_toSet vertices).subset fun v hv => hv.1
    exact hsub.to_subtype
  have htrans : IsTrans Open path := ⟨fun _ _ _ => Relation.TransGen.trans⟩
  have hirrefl : Std.Irrefl path := ⟨fun a => hacyclic a.1⟩
  have hwf : WellFounded path := Finite.wellFounded_of_trans_of_irrefl path
  obtain ⟨least, -, hleast⟩ := hwf.has_min Set.univ ⟨⟨v, hv, hnot⟩, trivial⟩
  obtain ⟨u, hu, hnotu, hedge⟩ := hsource least.1 least.2.1 least.2.2
  exact hleast ⟨u, hu, hnotu⟩ trivial (.single hedge)

end VisualCpu.Kahn
