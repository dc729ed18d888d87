import Mathlib.Algebra.BigOperators.Intervals
import VisualCpu.Devices.TaskSpecBuild

/-!
# The reference arithmetic of task specs

On matrices without gaps the script computes the sums that define the product, the
convolution, the transposition and the sums of rows, and packs them when they fit.
-/

namespace VisualCpu.TaskSpecLowering

open List ByteCodec Checks Loops Tables

variable (f : ℕ → ℕ → ℤ) {rows cols : ℕ}

theorem elementAt_matrix {rows cols row col : ℕ} (hrow : row < rows)
    (hcol : col < cols) : elementAt (matrix rows cols f) row col = .ok (f row col) := by
  unfold elementAt itemAt
  rw [getElem?_matrix f hrow]
  simp [bind, Except.bind, hcol]

theorem itemAt_matrix (hrows : rows ≠ 0) :
    itemAt (matrix rows cols f) 0 = .ok ((List.range cols).map (f 0)) := by
  unfold itemAt
  rw [getElem?_matrix f (Nat.pos_of_ne_zero hrows)]

theorem forLoop_append {α : Type} {n : ℕ} {x : ℕ → Except Stop α} {f : ℕ → α}
    (h : ∀ i < n, x i = .ok (f i)) (start : List α) :
    forLoop n (fun i items => do .ok (items ++ [← x i])) start =
      .ok (start ++ (List.range n).map f) := by
  induction n with
  | zero =>
    rw [range_zero, map_nil, append_nil]
    rfl
  | succ n ih =>
    rw [forLoop, ih fun i hi => h i (by omega), h n (Nat.lt_succ_self n), range_succ,
      map_append, ← List.append_assoc]
    rfl

theorem forLoop_sum {n : ℕ} {body : ℕ → ℤ → Except Stop ℤ} {f : ℕ → ℤ}
    (h : ∀ i < n, ∀ total, body i total = .ok (total + f i)) (start : ℤ) :
    forLoop n body start = .ok (start + ∑ i ∈ Finset.range n, f i) := by
  induction n with
  | zero =>
    rw [Finset.sum_range_zero, add_zero]
    rfl
  | succ n ih =>
    rw [forLoop, ih fun i hi => h i (by omega), Finset.sum_range_succ, ← add_assoc]
    exact h n (Nat.lt_succ_self n) _

theorem gemmTotal_matrix {m k n row col : ℕ} (lhs rhs : ℕ → ℕ → ℤ) (hrow : row < m)
    (hcol : col < n) :
    gemmTotal (matrix m k lhs) (matrix k n rhs) k row col =
      .ok (∑ depth ∈ Finset.range k, lhs row depth * rhs depth col) := by
  rw [← zero_add (∑ depth ∈ Finset.range k, lhs row depth * rhs depth col)]
  apply forLoop_sum
  intro depth hdepth total
  rw [elementAt_matrix lhs hrow hdepth, elementAt_matrix rhs hdepth hcol]
  rfl

theorem gemmI8I32_matrix {m k n : ℕ} (hm : m ≠ 0) (hk : k ≠ 0) (lhs rhs : ℕ → ℕ → ℤ) :
    gemmI8I32 (matrix m k lhs) (matrix k n rhs) =
      .ok (table m n fun row col => ∑ depth ∈ Finset.range k, lhs row depth * rhs depth col) := by
  unfold gemmI8I32
  rw [itemAt_matrix lhs hm, itemAt_matrix rhs hk, length_matrix]
  simp only [bind, Except.bind, length_map, length_range]
  apply forLoop_eq fun row =>
    table row n fun row col => ∑ depth ∈ Finset.range k, lhs row depth * rhs depth col
  intro row hrow
  rw [table_succ]
  exact forLoop_append (fun col hcol => gemmTotal_matrix lhs rhs hrow hcol) _

section Convolution

variable {inputH inputW kernelH kernelW : ℕ} (input kernel : ℕ → ℕ → ℤ)

def windowSum (kernelH kernelW : ℕ) (input kernel : ℕ → ℕ → ℤ) (row col : ℕ) : ℤ :=
  ∑ ky ∈ Finset.range kernelH, ∑ kx ∈ Finset.range kernelW,
    input (row + ky) (col + kx) * kernel ky kx

theorem convTotal_matrix {row col : ℕ} (hfits : kernelH ≤ inputH ∧ kernelW ≤ inputW)
    (hrow : row < inputH - kernelH + 1) (hcol : col < inputW - kernelW + 1) :
    convTotal (matrix inputH inputW input) (matrix kernelH kernelW kernel) kernelW row col =
      .ok (windowSum kernelH kernelW input kernel row col) := by
  unfold convTotal windowSum
  rw [length_matrix, ← zero_add (∑ ky ∈ Finset.range kernelH, _)]
  apply forLoop_sum
  intro ky hky total
  apply forLoop_sum
  intro kx hkx total
  rw [elementAt_matrix input (by omega) (by omega), elementAt_matrix kernel hky hkx]
  rfl

theorem convRow_matrix {row : ℕ} (hfits : kernelH ≤ inputH ∧ kernelW ≤ inputW)
    (hrow : row < inputH - kernelH + 1) :
    convRow (matrix inputH inputW input) (matrix kernelH kernelW kernel) kernelW
        (inputW - kernelW + 1) row =
      .ok ((List.range (inputW - kernelW + 1)).map
        (windowSum kernelH kernelW input kernel row)) :=
  forLoop_append (fun _ hcol => convTotal_matrix input kernel hfits hrow hcol) []

theorem conv2dI8I32_matrix (hkernel : kernelH ≠ 0) (hfits : kernelH ≤ inputH ∧ kernelW ≤ inputW) :
    conv2dI8I32 (matrix inputH inputW input) (matrix kernelH kernelW kernel) =
      .ok (matrix (inputH - kernelH + 1) (inputW - kernelW + 1)
        (windowSum kernelH kernelW input kernel)) := by
  have hrows : inputH + 1 - kernelH = inputH - kernelH + 1 := by omega
  have hcols : inputW + 1 - kernelW = inputW - kernelW + 1 := by omega
  unfold conv2dI8I32
  rw [itemAt_matrix input (by omega), itemAt_matrix kernel hkernel, length_matrix, length_matrix]
  simp only [bind, Except.bind, length_map, length_range, hrows, hcols]
  exact forLoop_append (fun row hrow => convRow_matrix input kernel hfits hrow) []

end Convolution

theorem reluI32_matrix (rows cols : ℕ) :
    reluI32 (matrix rows cols f) = matrix rows cols fun row col => max 0 (f row col) :=
  map_matrix (max 0) rows cols f

theorem transposeRows_matrix (hrows : rows ≠ 0) (f : ℕ → ℕ → ℤ) :
    transposeRows (matrix rows cols f) = matrix cols rows fun col row => f row col := by
  have hlengths : (matrix rows cols f).map List.length = List.replicate rows cols := by
    rw [eq_replicate_iff]
    constructor
    · rw [length_map, length_matrix]
    · simp [matrix]
  have hwidth : ((matrix rows cols f).map List.length).min?.getD 0 = cols := by
    rw [hlengths, List.min?_replicate_of_pos (Nat.pos_of_ne_zero hrows)]
    rfl
  unfold transposeRows
  rw [hwidth]
  apply map_congr_left
  intro col hcol
  have hcol := mem_range.1 hcol
  unfold matrix
  rw [filterMap_map, ← filterMap_eq_map]
  apply filterMap_congr
  intro row _
  simp [hcol]

theorem sum_map_range (n : ℕ) (f : ℕ → ℤ) :
    ((List.range n).map f).sum = ∑ i ∈ Finset.range n, f i := by
  induction n with
  | zero => rfl
  | succ n ih =>
    rw [range_succ, map_append, sum_append, ih, Finset.sum_range_succ, map_singleton, sum_singleton]

theorem reduceSumRows_matrix (rows cols : ℕ) : reduceSumRows (matrix rows cols f) =
      (List.range rows).map fun row => ∑ col ∈ Finset.range cols, f row col := by
  unfold reduceSumRows matrix
  rw [map_map]
  apply map_congr_left
  intro row _
  exact sum_map_range cols (f row)

theorem packSignedAll_eq {count : ℕ} {values : List ℤ}
    (h : ∀ value ∈ values, -(256 ^ count / 2) ≤ value ∧ value < 256 ^ count / 2) :
    packSignedAll count values = .ok (values.flatMap (littleEndian count)) := by
  have hpacked : values.mapM (packSigned EncodeError.structError count) =
      .ok (values.map (littleEndian count)) := by
    induction values with
    | nil => rfl
    | cons value rest ih =>
      have hvalue : packSigned EncodeError.structError count value =
          .ok (littleEndian count value) := if_pos (h value mem_cons_self)
      rw [mapM_cons, hvalue, ih fun other hother => h other (mem_cons_of_mem _ hother)]
      rfl
  unfold packSignedAll
  rw [hpacked]
  rfl

theorem flattenI8Matrix_eq {cols : ℕ} {rows : List (List ℤ)} (h : IsI8Matrix cols rows) :
    flattenI8Matrix rows = .ok (rows.flatten.map (BitVec.ofInt 8)) := by
  have hrange : ∀ value ∈ rows.flatten, -(256 ^ 1 / 2) ≤ value ∧ value < 256 ^ 1 / 2 := by
    intro value hvalue
    obtain ⟨row, hrow, hin⟩ := mem_flatten.1 hvalue
    have hint8 := h.int8 row hrow value hin
    omega
  have hbytes : rows.flatten.flatMap (littleEndian 1) = rows.flatten.map (BitVec.ofInt 8) := by
    rw [map_eq_flatMap]
    apply flatMap_congr
    intro value _
    simp [littleEndian]
  unfold flattenI8Matrix
  rw [packSignedAll_eq hrange, hbytes]

end VisualCpu.TaskSpecLowering
