import Mathlib.Data.List.GetD
import VisualCpu.Library.Loops

/-!
# Tables in row-major order

The elements of a table as one list, row by row, and loops whose states are known in advance.
-/

namespace VisualCpu.Tables

open List Loops

variable {α β ε σ : Type}

variable (rows cols : ℕ)

variable (f : ℕ → ℕ → α) {body : ℕ → σ → Except ε σ}

def table : List α :=
  (List.range rows).flatMap fun row => (List.range cols).map (f row)

theorem table_succ :
    table (rows + 1) cols f = table rows cols f ++ (List.range cols).map (f rows) := by
  simp [table, range_succ, flatMap_append]

@[simp] theorem length_table : (table rows cols f).length = rows * cols := by
  induction rows with
  | zero => simp [table]
  | succ rows ih =>
    rw [table_succ, length_append, ih, length_map, length_range, Nat.succ_mul]

theorem getElem?_table {rows cols row col : ℕ} (hrow : row < rows)
    (hcol : col < cols) : (table rows cols f)[row * cols + col]? = some (f row col) := by
  induction rows with
  | zero => omega
  | succ rows ih =>
    rw [table_succ]
    by_cases hlast : row = rows
    · subst hlast
      rw [List.getElem?_append_right (by simp), length_table, Nat.add_sub_cancel_left]
      simp [hcol]
    · have hbefore : row < rows := by omega
      rw [List.getElem?_append_left (by rw [length_table]; exact index_lt hbefore hcol)]
      exact ih hbefore

theorem exists_index {rows cols i : ℕ} (hi : i < rows * cols) :
    ∃ row col, row < rows ∧ col < cols ∧ i = row * cols + col := by
  have hcols : 0 < cols := by
    rcases Nat.eq_zero_or_pos cols with hzero | hpos
    · rw [hzero, Nat.mul_zero] at hi
      omega
    · exact hpos
  refine ⟨i / cols, i % cols, ?_, Nat.mod_lt _ hcols, ?_⟩
  · exact (Nat.div_lt_iff_lt_mul hcols).2 hi
  rw [Nat.mul_comm]
  exact (Nat.div_add_mod i cols).symm

theorem index_injective {cols row col row' col' : ℕ} (hcol : col < cols) (hcol' : col' < cols)
    (h : row * cols + col = row' * cols + col') : row = row' ∧ col = col' := by
  have hrow : row = row' := by
    have hleft : (row * cols + col) / cols = row := by
      rw [Nat.mul_comm, Nat.mul_add_div (by omega), Nat.div_eq_of_lt hcol, Nat.add_zero]
    have hright : (row' * cols + col') / cols = row' := by
      rw [Nat.mul_comm, Nat.mul_add_div (by omega), Nat.div_eq_of_lt hcol', Nat.add_zero]
    rw [← hleft, ← hright, h]
  subst hrow
  exact ⟨rfl, by omega⟩

theorem eq_table {rows cols : ℕ} {f : ℕ → ℕ → α} {values : List α}
    (hlength : values.length = rows * cols)
    (h : ∀ row < rows, ∀ col < cols, values[row * cols + col]? = some (f row col)) :
    values = table rows cols f := by
  apply List.ext_getElem?
  intro i
  by_cases hi : i < rows * cols
  · obtain ⟨row, col, hrow, hcol, rfl⟩ := exists_index hi
    rw [h row hrow col hcol, getElem?_table f hrow hcol]
  · rw [List.getElem?_eq_none (by omega), List.getElem?_eq_none (by rw [length_table]; omega)]

theorem exists_of_mem_table {rows cols : ℕ} {f : ℕ → ℕ → α} {x : α} (h : x ∈ table rows cols f) :
    ∃ row col, f row col = x := by
  obtain ⟨row, -, hrow⟩ := mem_flatMap.1 h
  obtain ⟨col, -, rfl⟩ := mem_map.1 hrow
  exact ⟨row, col, rfl⟩

theorem table_congr {rows cols : ℕ} {f g : ℕ → ℕ → α}
    (h : ∀ row < rows, ∀ col < cols, f row col = g row col) :
    table rows cols f = table rows cols g := by
  apply eq_table (length_table rows cols f)
  intro row hrow col hcol
  rw [getElem?_table f hrow hcol, h row hrow col hcol]

theorem map_table (g : α → β) (rows cols : ℕ) (f : ℕ → ℕ → α) :
    (table rows cols f).map g = table rows cols fun row col => g (f row col) := by
  apply eq_table (by simp)
  intro row hrow col hcol
  rw [List.getElem?_map, getElem?_table f hrow hcol]
  rfl

theorem table_const (x : α) : table rows cols (fun _ _ => x) = List.replicate (rows * cols) x := by
  symm
  apply eq_table (by simp)
  intro row hrow col hcol
  rw [List.getElem?_replicate, if_pos (index_lt hrow hcol)]

theorem set_table {rows cols row col : ℕ} (x : α) (hrow : row < rows) (hcol : col < cols) :
    (table rows cols f).set (row * cols + col) x =
      table rows cols fun row' col' => if row' = row ∧ col' = col then x else f row' col' := by
  apply eq_table (by simp)
  intro row' hrow' col' hcol'
  by_cases hplace : row' = row ∧ col' = col
  · obtain ⟨rfl, rfl⟩ := hplace
    rw [List.getElem?_set_self (by rw [length_table]; exact index_lt hrow hcol),
      if_pos ⟨rfl, rfl⟩]
  have hne : row * cols + col ≠ row' * cols + col' := by
    intro heq
    obtain ⟨hrows, hcols⟩ := index_injective hcol hcol' heq
    exact hplace ⟨hrows.symm, hcols.symm⟩
  rw [List.getElem?_set_ne hne, getElem?_table f hrow' hcol', if_neg hplace]

def matrix : List (List α) :=
  (List.range rows).map fun row => (List.range cols).map (f row)

theorem flatten_matrix : (matrix rows cols f).flatten = table rows cols f := rfl

@[simp] theorem length_matrix : (matrix rows cols f).length = rows := by
  simp [matrix]

theorem getElem?_matrix {rows cols row : ℕ} (hrow : row < rows) :
    (matrix rows cols f)[row]? = some ((List.range cols).map (f row)) := by
  simp [matrix, hrow]

theorem map_matrix (g : α → β) (rows cols : ℕ) (f : ℕ → ℕ → α) :
    (matrix rows cols f).map (List.map g) = matrix rows cols fun row col => g (f row col) := by
  unfold matrix
  rw [map_map]
  apply map_congr_left
  intro row _
  exact map_map

def entryAt (x : α) (rows : List (List α)) (row col : ℕ) : α := (rows.getD row []).getD col x

theorem eq_matrix {rows : List (List α)} {cols : ℕ} (x : α)
    (h : ∀ values ∈ rows, values.length = cols) :
    rows = matrix rows.length cols (entryAt x rows) := by
  apply ext_getElem
  · simp
  intro row hrow _
  have hcols := h rows[row] (getElem_mem hrow)
  have hvalues : rows.getD row [] = rows[row] := getD_eq_getElem rows [] hrow
  simp only [matrix, getElem_map, getElem_range]
  apply ext_getElem
  · simp [hcols]
  intro col hcol _
  simp only [entryAt, getElem_map, getElem_range, hvalues]
  exact (getD_eq_getElem rows[row] x hcol).symm

/-- What holds of all elements and of the default holds at every place. -/
theorem entryAt_of_forall {p : α → Prop} {x : α} (hx : p x) {rows : List (List α)}
    (h : ∀ values ∈ rows, ∀ value ∈ values, p value) (row col : ℕ) :
    p (entryAt x rows row col) := by
  unfold entryAt
  by_cases hrow : row < rows.length
  · rw [getD_eq_getElem rows [] hrow]
    by_cases hcol : col < rows[row].length
    · rw [getD_eq_getElem rows[row] x hcol]
      exact h _ (getElem_mem hrow) _ (getElem_mem hcol)
    rw [getD_eq_default _ _ (by omega)]
    exact hx
  · rw [getD_eq_default rows [] (by omega), getD_nil]
    exact hx

theorem forLoop_eq {n : ℕ} (state : ℕ → σ) (h : ∀ i < n, body i (state i) = .ok (state (i + 1))) :
    forLoop n body (state 0) = .ok (state n) := by
  induction n with
  | zero => rfl
  | succ n ih =>
    rw [forLoop, ih fun i hi => h i (by omega)]
    exact h n (Nat.lt_succ_self n)

/-- A computation that gives a result under a condition and an error without it. -/
def OkIf (p : Prop) (x : Except ε σ) (s : σ) (e : ε) : Prop := (p → x = .ok s) ∧ (¬p → x = .error e)

theorem OkIf.congr {p q : Prop} {x : Except ε σ} {s : σ} {e : ε} (h : OkIf p x s e) (hiff : p ↔ q) :
    OkIf q x s e :=
  ⟨fun hq => h.1 (hiff.2 hq), fun hq => h.2 fun hp => hq (hiff.1 hp)⟩

theorem forLoop_okIf {n : ℕ} (state : ℕ → σ) (guard : ℕ → Prop) {e : ε}
    (h : ∀ i < n, OkIf (guard i) (body i (state i)) (state (i + 1)) e) :
    OkIf (∀ i < n, guard i) (forLoop n body (state 0)) (state n) e := by
  induction n with
  | zero => exact ⟨fun _ => rfl, fun hnot =>
    absurd (fun i hi => absurd hi (Nat.not_lt_zero i)) hnot⟩
  | succ n ih =>
    obtain ⟨hok, herror⟩ := ih fun i hi => h i (by omega)
    obtain ⟨hlast, hlast'⟩ := h n (Nat.lt_succ_self n)
    rw [forLoop]
    constructor
    · intro hall
      rw [hok fun i hi => hall i (by omega)]
      exact hlast (hall n (Nat.lt_succ_self n))
    intro hnot
    by_cases hbefore : ∀ i < n, guard i
    · rw [hok hbefore]
      apply hlast'
      intro hguard
      exact hnot ((Nat.forall_lt_succ_right).2 ⟨hbefore, hguard⟩)
    · rw [herror hbefore]

end VisualCpu.Tables
