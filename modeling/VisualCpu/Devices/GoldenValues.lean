import Mathlib.Algebra.BigOperators.Intervals
import VisualCpu.Devices.GoldenFacts
import VisualCpu.Library.Tables

/-!
# What the tensor operations compute

The matrix product, the convolution, the transposition and the sums of rows on tables: the
result is the table of the sums that define them, in 32-bit arithmetic.
-/

namespace VisualCpu.TensorGolden

open Loops Tables Finset Nat

variable {rows cols row col : ℕ}

theorem access_table (f : ℕ → ℕ → BitVec 32) (hrow : row < rows)
    (hcol : col < cols) : access (table rows cols f) (row * cols + col) = .ok (f row col) := by
  unfold access
  rw [getElem?_table f hrow hcol]

theorem update_table (f : ℕ → ℕ → BitVec 32) (x : BitVec 32)
    (hrow : row < rows) (hcol : col < cols) :
    update (table rows cols f) (row * cols + col) x =
      .ok (table rows cols fun row' col' =>
        if row' = row ∧ col' = col then x else f row' col') := by
  unfold update
  rw [if_pos (by rw [length_table]; exact index_lt hrow hcol), set_table f x hrow hcol]

theorem demand_of {condition : Prop} [Decidable condition] {what : String} (h : condition) :
    demand condition what = .ok () := if_pos h

theorem expectSize_table {rows cols : ℕ} (f : ℕ → ℕ → BitVec 32) (label : String) :
    expectSize (table rows cols f) (rows * cols) label = .ok () :=
  demand_of (length_table rows cols f)

/-- The elements before a place, row by row, are those of one table, the others of another. -/
def upTo (row col : ℕ) (f g : ℕ → ℕ → BitVec 32) (row' col' : ℕ) : BitVec 32 :=
  if row' < row ∨ row' = row ∧ col' < col then f row' col' else g row' col'

theorem upTo_start (f g : ℕ → ℕ → BitVec 32) (row' col' : ℕ) : upTo 0 0 f g row' col' =
    g row' col' :=
  if_neg (by omega)

theorem upTo_end {row row' : ℕ} (f g : ℕ → ℕ → BitVec 32) (hrow : row' < row) (col col' : ℕ) :
    upTo row col f g row' col' = f row' col' :=
  if_pos (.inl hrow)

theorem upTo_succ (row col : ℕ) (f g : ℕ → ℕ → BitVec 32) (row' col' : ℕ) :
    upTo row (col + 1) f g row' col' =
      if row' = row ∧ col' = col then f row col else upTo row col f g row' col' := by
  unfold upTo
  by_cases hplace : row' = row ∧ col' = col
  · obtain ⟨rfl, rfl⟩ := hplace
    rw [if_pos (.inr ⟨rfl, lt_succ_self _⟩), if_pos ⟨rfl, rfl⟩]
  rw [if_neg hplace]
  by_cases hbefore : row' < row ∨ row' = row ∧ col' < col
  · rw [if_pos hbefore, if_pos (by omega)]
  · rw [if_neg hbefore, if_neg (by omega)]

theorem upTo_row {cols col' : ℕ} (row : ℕ) (f g : ℕ → ℕ → BitVec 32) (hcol' : col' < cols)
    (row' : ℕ) : upTo row cols f g row' col' = upTo (row + 1) 0 f g row' col' := by
  unfold upTo
  by_cases hbefore : row' < row ∨ row' = row ∧ col' < cols
  · rw [if_pos hbefore, if_pos (by omega)]
  · rw [if_neg hbefore, if_neg (by omega)]

theorem update_upTo (f g : ℕ → ℕ → BitVec 32) (hrow : row < rows) (hcol : col < cols) :
    update (table rows cols (upTo row col f g)) (row * cols + col) (f row col) =
      .ok (table rows cols (upTo row (col + 1) f g)) := by
  rw [update_table _ _ hrow hcol]
  apply congrArg
  apply table_congr
  intro row' _ col' _
  exact (upTo_succ row col f g row' col').symm

theorem forLoop_upTo_okIf {ε : Type} {rows cols : ℕ}
    {body : ℕ → ℕ → List (BitVec 32) → Except ε (List (BitVec 32))}
    {store : (ℕ → ℕ → BitVec 32) → List (BitVec 32)} (f g : ℕ → ℕ → BitVec 32)
    (guard : ℕ → ℕ → Prop) {e : ε}
    (hstore : ∀ f g : ℕ → ℕ → BitVec 32,
      (∀ row < rows, ∀ col < cols, f row col = g row col) → store f = store g)
    (h : ∀ row < rows, ∀ col < cols,
      OkIf (guard row col) (body row col (store (upTo row col f g)))
        (store (upTo row (col + 1) f g)) e) :
    OkIf (∀ row < rows, ∀ col < cols, guard row col)
      (forLoop rows (fun row out => forLoop cols (body row) out) (store g)) (store f) e := by
  have hstart : store (upTo 0 0 f g) = store g :=
    hstore _ _ fun row _ col _ => upTo_start f g row col
  have hend : store (upTo rows 0 f g) = store f :=
    hstore _ _ fun row hrow col _ => upTo_end f g hrow 0 col
  rw [← hstart, ← hend]
  apply forLoop_okIf fun row => store (upTo row 0 f g)
  intro row hrow
  have hrows : store (upTo row cols f g) = store (upTo (row + 1) 0 f g) :=
    hstore _ _ fun row' _ _ hcol' => upTo_row row f g hcol' row'
  rw [← hrows]
  exact forLoop_okIf (fun col => store (upTo row col f g)) _ fun col hcol => h row hrow col hcol

theorem forLoop_upTo {rows cols : ℕ}
    {body : ℕ → ℕ → List (BitVec 32) → KernelRun (List (BitVec 32))}
    {store : (ℕ → ℕ → BitVec 32) → List (BitVec 32)} (f g : ℕ → ℕ → BitVec 32)
    (hstore : ∀ f g : ℕ → ℕ → BitVec 32,
      (∀ row < rows, ∀ col < cols, f row col = g row col) → store f = store g)
    (h : ∀ row < rows, ∀ col < cols,
      body row col (store (upTo row col f g)) = .ok (store (upTo row (col + 1) f g))) :
    forLoop rows (fun row out => forLoop cols (body row) out) (store g) = .ok (store f) := by
  have hloop := @forLoop_upTo_okIf _ rows cols body store f g (fun _ _ => True) .outOfBounds hstore
    fun row hrow col hcol => ⟨fun _ => h row hrow col hcol, fun hnot => absurd trivial hnot⟩
  exact hloop.1 fun _ _ _ _ => trivial

def partialSums (sums : ℕ → ℕ → ℕ → BitVec 32) (k row depth col : ℕ) (row' col' : ℕ) : BitVec 32 :=
  if row' < row then sums k row' col'
  else if row' = row then sums (if col' < col then depth + 1 else depth) row' col'
  else 0

section

variable {sums : ℕ → ℕ → ℕ → BitVec 32} {m k n row depth col : ℕ}

theorem update_partialSums (hrow : row < m) (hcol : col < n) :
    update (table m n (partialSums sums k row depth col)) (row * n + col)
        (sums (depth + 1) row col) =
      .ok (table m n (partialSums sums k row depth (col + 1))) := by
  rw [update_table _ _ hrow hcol]
  apply congrArg
  apply table_congr
  intro row' _ col' _
  unfold partialSums
  by_cases hplace : row' = row ∧ col' = col
  · obtain ⟨rfl, rfl⟩ := hplace
    rw [if_pos ⟨rfl, rfl⟩, if_neg (lt_irrefl _), if_pos rfl, if_pos (lt_succ_self _)]
  rw [if_neg hplace]
  by_cases heq : row' = row
  · have hiff : col' < col + 1 ↔ col' < col := by omega
    simp only [hiff]
  · rw [if_neg heq, if_neg heq]

theorem partialSums_depth :
    table m n (partialSums sums k row depth n) =
      table m n (partialSums sums k row (depth + 1) 0) := by
  apply table_congr
  intro row' _ col' hcol'
  simp only [partialSums, if_pos hcol', not_lt_zero, if_false]

theorem partialSums_row (hzero : ∀ row' col', sums 0 row' col' = 0) :
    table m n (partialSums sums k row k 0) = table m n (partialSums sums k (row + 1) 0 0) := by
  apply table_congr
  intro row' _ col' _
  simp only [partialSums, not_lt_zero, if_false, hzero, ite_self]
  by_cases hlt : row' < row
  · rw [if_pos hlt, if_pos (by omega)]
  rw [if_neg hlt]
  by_cases heq : row' = row
  · rw [if_pos heq, if_pos (by omega)]
  · rw [if_neg heq, if_neg (by omega)]

end

theorem goldenGemm_table (widen : BitVec 32 → BitVec 32) {m k n : ℕ}
    (hshape : m ≠ 0 ∧ k ≠ 0 ∧ n ≠ 0) (lhs rhs : ℕ → ℕ → BitVec 32) :
    goldenGemm widen (· * ·) (· + ·) (table m k lhs) (table k n rhs) m k n =
      .ok (table m n fun row col =>
        ∑ depth ∈ range k, widen (lhs row depth) * widen (rhs depth col)) := by
  let sums (depth row col : ℕ) : BitVec 32 :=
    ∑ i ∈ range depth, widen (lhs row i) * widen (rhs i col)
  have hzero : ∀ row col, sums 0 row col = 0 := fun row col => sum_range_zero _
  have hstart : table m n (partialSums sums k 0 0 0) = List.replicate (m * n) 0 := by
    rw [← table_const]
    apply table_congr
    intro row' _ col' _
    simp only [partialSums, not_lt_zero, if_false, hzero, ite_self]
  have hend : table m n (partialSums sums k m 0 0) = table m n (sums k) := by
    apply table_congr
    intro row' hrow' col' _
    simp only [partialSums, if_pos hrow']
  unfold goldenGemm
  rw [demand_of hshape, expectSize_table, expectSize_table, ← hstart]
  simp only [bind, Except.bind]
  refine Eq.trans (forLoop_eq (fun row => table m n (partialSums sums k row 0 0)) ?_)
    (congrArg _ hend)
  intro row hrow
  rw [← partialSums_row hzero]
  apply forLoop_eq fun depth => table m n (partialSums sums k row depth 0)
  intro depth hdepth
  rw [access_table lhs hrow hdepth]
  rw [← partialSums_depth]
  apply forLoop_eq fun col => table m n (partialSums sums k row depth col)
  intro col hcol
  have hold : partialSums sums k row depth col row col = sums depth row col := by
    simp [partialSums]
  have hnext : sums depth row col + widen (lhs row depth) * widen (rhs depth col) =
      sums (depth + 1) row col := (sum_range_succ _ _).symm
  rw [access_table rhs hdepth hcol, access_table _ hrow hcol]
  dsimp only
  rw [hold, hnext]
  exact update_partialSums hrow hcol

theorem goldenConv2dValid_table (widen : BitVec 32 → BitVec 32) {inputH inputW kernelH kernelW : ℕ}
    (hkernel : kernelH ≠ 0 ∧ kernelW ≠ 0) (hfits : kernelH ≤ inputH ∧ kernelW ≤ inputW)
    (hsize : inputH * inputW < 2 ^ 32) (input kernel : ℕ → ℕ → BitVec 32) :
    goldenConv2dValid widen (table inputH inputW input) inputH inputW
        (table kernelH kernelW kernel) kernelH kernelW =
      .ok (table (inputH - kernelH + 1) (inputW - kernelW + 1) fun oy ox =>
        ∑ ky ∈ range kernelH, ∑ kx ∈ range kernelW,
          widen (input (oy + ky) (ox + kx)) * widen (kernel ky kx)) := by
  have hkernelSize : kernelH * kernelW < 2 ^ 32 :=
    lt_of_le_of_lt (Nat.mul_le_mul hfits.1 hfits.2) hsize
  have houtputSize : (inputH - kernelH + 1) * (inputW - kernelW + 1) < 2 ^ 32 :=
    lt_of_le_of_lt (Nat.mul_le_mul (by omega) (by omega)) hsize
  unfold goldenConv2dValid
  rw [demand_of (by omega), demand_of hfits, expectSize_table, expectSize_table]
  refine Eq.trans (congrArg (forLoop _ _) (table_const _ _ 0).symm) (forLoop_upTo _ _
    (fun _ _ => table_congr) ?_)
  intro oy hoy ox hox
  let window (ky kx : ℕ) : BitVec 32 := widen (input (oy + ky) (ox + kx)) * widen (kernel ky kx)
  have hsum : forLoop kernelH (fun ky acc =>
      forLoop kernelW (fun kx acc => do
        let inputVal ← access (table inputH inputW input)
          (index32 ((oy + ky) * inputW + (ox + kx)))
        let kernelVal ← access (table kernelH kernelW kernel) (index32 (ky * kernelW + kx))
        .ok (acc + widen inputVal * widen kernelVal)) acc) 0 =
      .ok (∑ ky ∈ range kernelH, ∑ kx ∈ range kernelW, window ky kx) := by
    apply forLoop_eq fun ky => ∑ i ∈ range ky, ∑ kx ∈ range kernelW, window i kx
    intro ky hky
    rw [sum_range_succ]
    apply Eq.trans (congrArg _ (add_zero _).symm)
    apply forLoop_eq fun kx =>
      (∑ i ∈ range ky, ∑ j ∈ range kernelW, window i j) + ∑ j ∈ range kx, window ky j
    intro kx hkx
    have hy : oy + ky < inputH := by omega
    have hx : ox + kx < inputW := by omega
    have hinput := index_lt hy hx
    have hindex := index_lt hky hkx
    rw [index32_eq (by omega), index32_eq (by omega), access_table input hy hx,
      access_table kernel hky hkx, sum_range_succ, ← add_assoc]
    rfl
  have hindex := index_lt hoy hox
  rw [hsum]
  rw [index32_eq (by omega)]
  exact update_upTo _ _ hoy hox

theorem reduceSumRowsI32_table {rows cols : ℕ} (hshape : rows ≠ 0 ∧ cols ≠ 0)
    (hsize : rows * cols < 2 ^ 32) (input : ℕ → ℕ → BitVec 32) :
    reduceSumRowsI32 (table rows cols input) rows cols =
      .ok ((List.range rows).map fun row => ∑ col ∈ range cols, input row col) := by
  -- the elements of a list as the first row of a table
  let sum (row : ℕ) : BitVec 32 := ∑ col ∈ range cols, input row col
  let state (row : ℕ) : List (BitVec 32) := table 1 rows (upTo 0 row (fun _ => sum) fun _ _ => 0)
  have hstart : List.replicate rows 0 = state 0 := by
    have hzero : state 0 = table 1 rows fun _ _ => 0 :=
      table_congr fun row' _ col' _ => upTo_start _ _ row' col'
    rw [hzero, table_const, one_mul]
  have hend : state rows = (List.range rows).map sum := by
    have hall : state rows = table 1 rows fun _ => sum := by
      apply table_congr
      intro row' hrow' col' hcol'
      exact (upTo_row 0 _ _ hcol' row').trans (upTo_end _ _ hrow' 0 col')
    rw [hall]
    simp [table]
  unfold reduceSumRowsI32
  rw [demand_of hshape, expectSize_table, hstart]
  refine Eq.trans (forLoop_eq state ?_) (congrArg _ hend)
  intro row hrow
  have hsum : forLoop cols (fun col acc => do
      let value ← access (table rows cols input) (index32 (row * cols + col))
      .ok (acc + value)) 0 = .ok (sum row) := by
    apply forLoop_eq fun col => ∑ j ∈ range col, input row j
    intro col hcol
    have hindex := index_lt hrow hcol
    rw [index32_eq (by omega), access_table input hrow hcol, sum_range_succ]
    rfl
  have hupdate := update_upTo (fun _ => sum) (fun _ _ => 0) one_pos hrow
  rw [zero_mul, zero_add] at hupdate
  rw [hsum]
  exact hupdate

theorem transpose2dI32_table {rows cols : ℕ} (hshape : rows ≠ 0 ∧ cols ≠ 0)
    (hsize : rows * cols < 2 ^ 32) (input : ℕ → ℕ → BitVec 32) :
    transpose2dI32 (table rows cols input) rows cols =
      .ok (table cols rows fun col row => input row col) := by
  have hstart : List.replicate (rows * cols) 0 = table cols rows fun _ _ => (0 : BitVec 32) := by
    rw [table_const, mul_comm]
  unfold transpose2dI32
  rw [demand_of hshape, expectSize_table, hstart]
  apply @forLoop_upTo rows cols _ (fun f => table cols rows fun col row => f row col) input
    (fun _ _ => 0)
  · intro f g hfg
    exact table_congr fun col hcol row hrow => hfg row hrow col hcol
  intro row hrow col hcol
  have hinput := index_lt hrow hcol
  have houtput := index_lt hcol hrow
  rw [mul_comm cols rows] at houtput
  rw [index32_eq (by omega), access_table input hrow hcol, index32_eq (by omega)]
  apply (update_table _ _ hcol hrow).trans
  apply congrArg
  apply table_congr
  intro col' _ row' _
  rw [upTo_succ]
  simp only [and_comm]

end VisualCpu.TensorGolden
