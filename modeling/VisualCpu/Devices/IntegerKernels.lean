import Mathlib.Algebra.Order.Ring.Abs
import VisualCpu.Devices.KernelValues

/-!
# Integer kernels

The integer kernels with the signed arithmetic of the host, which stops on an overflow: they
finish exactly when every sum on the way fits in 32 bits, and then the sums are exact.
-/

namespace VisualCpu

open Checks Loops Tables List Except AiScratchpad

/-- How a kernel on a host with checked arithmetic stops. -/
inductive IntegerStop where
  | stop (stop : KernelStop)
  | overflow
deriving DecidableEq

abbrev CheckedRun := Except IntegerStop

namespace CheckedRun

def lift {α : Type} (x : KernelRun α) : CheckedRun α := x.mapError .stop

/-- The sum of two signed words. -/
def add (a b : BitVec 32) : CheckedRun (BitVec 32) :=
  if a.saddOverflow b then .error .overflow else .ok (a + b)

def mul (a b : BitVec 32) : CheckedRun (BitVec 32) :=
  if a.smulOverflow b then .error .overflow else .ok (a * b)

@[simp] theorem lift_ok {α : Type} (a : α) : lift (.ok a) = .ok a := rfl

end CheckedRun

namespace TensorGolden

open CheckedRun

/-- `golden_gemm_integer_to_i32`. -/
def checkedGemm (widen : BitVec 32 → BitVec 32) (lhs rhs : List (BitVec 32)) (m k n : ℕ) :
    CheckedRun (List (BitVec 32)) := do
  lift (demand (m ≠ 0 ∧ k ≠ 0 ∧ n ≠ 0) "GEMM shape must be non-zero")
  lift (expectSize lhs (m * k) "GEMM lhs")
  lift (expectSize rhs (k * n) "GEMM rhs")
  forLoop m (fun row out =>
    forLoop k (fun depth out => do
      let lhsVal ← lift (access lhs (row * k + depth))
      forLoop n (fun col out => do
        let rhsVal ← lift (access rhs (depth * n + col))
        let old ← lift (access out (row * n + col))
        let product ← mul (widen lhsVal) (widen rhsVal)
        let sum ← add old product
        lift (update out (row * n + col) sum)) out) out)
    (replicate (m * n) 0)

/-- `golden_conv2d_valid_to_i32`. -/
def checkedConv2dValid (widen : BitVec 32 → BitVec 32) (input : List (BitVec 32))
    (inputH inputW : ℕ) (kernel : List (BitVec 32)) (kernelH kernelW : ℕ) :
    CheckedRun (List (BitVec 32)) := do
  lift (demand (inputH ≠ 0 ∧ inputW ≠ 0 ∧ kernelH ≠ 0 ∧ kernelW ≠ 0)
    "conv shape must be non-zero")
  lift (demand (kernelH ≤ inputH ∧ kernelW ≤ inputW) "conv kernel exceeds input")
  lift (expectSize input (inputH * inputW) "conv input")
  lift (expectSize kernel (kernelH * kernelW) "conv kernel")
  let outputH := inputH - kernelH + 1
  let outputW := inputW - kernelW + 1
  forLoop outputH (fun oy out =>
    forLoop outputW (fun ox out => do
      let acc ← forLoop kernelH (fun ky acc =>
        forLoop kernelW (fun kx acc => do
          let inputVal ← lift (access input (index32 ((oy + ky) * inputW + (ox + kx))))
          let kernelVal ← lift (access kernel (index32 (ky * kernelW + kx)))
          let product ← mul (widen inputVal) (widen kernelVal)
          add acc product) acc) 0
      lift (update out (index32 (oy * outputW + ox)) acc)) out)
    (replicate (outputH * outputW) 0)

/-- `tensor_golden_reduce_sum_rows_i32`. -/
def checkedReduceSumRows (input : List (BitVec 32)) (rows cols : ℕ) :
    CheckedRun (List (BitVec 32)) := do
  lift (demand (rows ≠ 0 ∧ cols ≠ 0) "reduce shape must be non-zero")
  lift (expectSize input (rows * cols) "reduce input")
  forLoop rows (fun row out => do
    let acc ← forLoop cols (fun col acc => do
      let value ← lift (access input (index32 (row * cols + col)))
      add acc value) 0
    lift (update out row acc))
    (replicate rows 0)

end TensorGolden

/-- An integer that a signed word can hold. -/
def FitsWord (v : ℤ) : Prop := -2 ^ 31 ≤ v ∧ v < 2 ^ 31

instance (v : ℤ) : Decidable (FitsWord v) := inferInstanceAs (Decidable (_ ∧ _))

variable (term : ℕ → ℤ)

def partialSum (i : ℕ) : ℤ := ∑ j ∈ Finset.range i, term j

def accumulator (i : ℕ) : BitVec 32 := BitVec.ofInt 32 (partialSum term i)

theorem accumulator_zero : accumulator term 0 = 0 := rfl

theorem accumulator_succ (i : ℕ) :
    accumulator term (i + 1) = accumulator term i + BitVec.ofInt 32 (term i) := by
  unfold accumulator partialSum
  rw [Finset.sum_range_succ, BitVec.ofInt_add]

theorem toInt_ofInt_of_fits {v : ℤ} (h : FitsWord v) : (BitVec.ofInt 32 v).toInt = v :=
  BitVec.toInt_ofInt_eq_self (by decide) h.1 h.2

theorem saddOverflow_iff (a b : BitVec 32) : a.saddOverflow b ↔ ¬FitsWord (a.toInt + b.toInt) := by
  simp only [BitVec.saddOverflow, FitsWord, Bool.or_eq_true, decide_eq_true_eq]
  omega

theorem accumulation_iff {term : ℕ → ℤ} (hterm : ∀ i, FitsWord (term i)) (count : ℕ) :
    (∀ i < count, (accumulator term i).saddOverflow (BitVec.ofInt 32 (term i)) = false) ↔
      ∀ i ≤ count, FitsWord (partialSum term i) := by
  have hstep : ∀ i, FitsWord (partialSum term i) →
      ((accumulator term i).saddOverflow (BitVec.ofInt 32 (term i)) = false ↔
        FitsWord (partialSum term (i + 1))) := by
    intro i hfits
    have hsum : partialSum term (i + 1) = partialSum term i + term i :=
      Finset.sum_range_succ _ _
    rw [← Bool.not_eq_true, saddOverflow_iff, not_not, accumulator, toInt_ofInt_of_fits hfits,
      toInt_ofInt_of_fits (hterm i), hsum]
  constructor
  · intro h i hi
    induction i with
    | zero =>
      have hzero : partialSum term 0 = 0 := rfl
      rw [hzero]
      decide
    | succ i ih => exact (hstep i (ih (by omega))).1 (h i (by omega))
  · intro h i hi
    exact (hstep i (h i (by omega))).2 (h (i + 1) (by omega))

def SumsFit (rows cols count : ℕ) (term : ℕ → ℕ → ℕ → ℤ) : Prop :=
  ∀ row < rows, ∀ col < cols, ∀ i ≤ count, FitsWord (partialSum (term row col) i)

theorem sumsFit_iff {rows cols count : ℕ} {term : ℕ → ℕ → ℕ → ℤ}
    (hterm : ∀ row col i, FitsWord (term row col i)) :
    (∀ row < rows, ∀ col < cols, ∀ i < count,
        (accumulator (term row col) i).saddOverflow (BitVec.ofInt 32 (term row col i)) = false) ↔
      SumsFit rows cols count term := by
  constructor
  · intro h row hrow col hcol
    exact (accumulation_iff (hterm row col) count).1 (h row hrow col hcol)
  intro h row hrow col hcol
  exact (accumulation_iff (hterm row col) count).2 (h row hrow col hcol)

theorem CheckedRun.mul_eq {a b : BitVec 32} (h : FitsWord (a.toInt * b.toInt)) :
    mul a b = .ok (BitVec.ofInt 32 (a.toInt * b.toInt)) := by
  have hoverflow : a.smulOverflow b = false := by
    rw [← Bool.not_eq_true]
    simp only [BitVec.smulOverflow, Bool.or_eq_true, decide_eq_true_eq]
    obtain ⟨hlow, hhigh⟩ := h
    omega
  unfold mul
  rw [hoverflow, BitVec.ofInt_mul, BitVec.ofInt_toInt, BitVec.ofInt_toInt]
  rfl

theorem CheckedRun.add_okIf (i : ℕ) :
    OkIf ((accumulator term i).saddOverflow (BitVec.ofInt 32 (term i)) = false)
      (add (accumulator term i) (BitVec.ofInt 32 (term i))) (accumulator term (i + 1))
      .overflow := by
  unfold add
  rw [accumulator_succ]
  constructor
  · intro hfits
    rw [hfits]
    rfl
  · intro hnot
    rw [if_pos (by simpa using hnot)]

theorem CheckedRun.okIf_bind {α β : Type} {p : Prop} {x : CheckedRun α} {a : α} {f : α → CheckedRun β} {b : β}
    (h : OkIf p x a .overflow) (hf : f a = .ok b) : OkIf p (x >>= f) b .overflow := by
  constructor
  · intro hp
    rw [h.1 hp]
    exact hf
  · intro hp
    rw [h.2 hp]
    rfl

namespace TensorGolden

open CheckedRun

/-- The products of two factors fit, as those of bytes and of half words do. -/
def SmallFactors (widen : BitVec 32 → BitVec 32) : Prop :=
  ∀ a b, FitsWord ((widen a).toInt * (widen b).toInt)

variable {widen : BitVec 32 → BitVec 32}

theorem checkedGemm_table (hwiden : SmallFactors widen)
    {m k n : ℕ} (hshape : m ≠ 0 ∧ k ≠ 0 ∧ n ≠ 0) (lhs rhs : ℕ → ℕ → BitVec 32)
    {term : ℕ → ℕ → ℕ → ℤ}
    (hterm : ∀ row col i, term row col i = (widen (lhs row i)).toInt * (widen (rhs i col)).toInt) :
    OkIf (SumsFit m n k term) (checkedGemm widen (table m k lhs) (table k n rhs) m k n)
      (table m n fun row col => accumulator (term row col) k) .overflow := by
  let sums (depth row col : ℕ) : BitVec 32 := accumulator (term row col) depth
  let guard (row depth col : ℕ) : Prop :=
    (sums depth row col).saddOverflow (BitVec.ofInt 32 (term row col depth)) = false
  have hfits : ∀ row col i, FitsWord (term row col i) := by
    intro row col i
    rw [hterm]
    exact hwiden _ _
  have hzero : ∀ row col, sums 0 row col = 0 := fun row col => accumulator_zero _
  have hstart : table m n (partialSums sums k 0 0 0) = replicate (m * n) 0 := by
    rw [← table_const]
    apply table_congr
    intro row' _ col' _
    simp only [partialSums, Nat.not_lt_zero, if_false, hzero, ite_self]
  have hend : table m n (partialSums sums k m 0 0) = table m n (sums k) := by
    apply table_congr
    intro row' hrow' col' _
    simp only [partialSums, if_pos hrow']
  have horder : (∀ row < m, ∀ depth < k, ∀ col < n, guard row depth col) ↔ SumsFit m n k term := by
    rw [← sumsFit_iff hfits]
    constructor
    · exact fun h row hrow col hcol i hi => h row hrow i hi col hcol
    · exact fun h row hrow depth hdepth col hcol => h row hrow col hcol depth hdepth
  refine OkIf.congr ?_ horder
  rw [← hend]
  unfold checkedGemm
  rw [demand_of hshape, expectSize_table, expectSize_table, ← hstart]
  apply forLoop_okIf fun row => table m n (partialSums sums k row 0 0)
  intro row hrow
  rw [← partialSums_row hzero]
  apply forLoop_okIf fun depth => table m n (partialSums sums k row depth 0)
  intro depth hdepth
  rw [access_table lhs hrow hdepth, ← partialSums_depth]
  apply forLoop_okIf fun col => table m n (partialSums sums k row depth col)
  intro col hcol
  have hold : partialSums sums k row depth col row col = sums depth row col := by
    simp [partialSums]
  have hupdate := @update_partialSums sums m k n row depth col hrow hcol
  rw [access_table rhs hdepth hcol, access_table _ hrow hcol, hold]
  change OkIf _ (mul _ _ >>= fun product => add _ product >>= _) _ _
  rw [mul_eq (hwiden _ _), ← hterm]
  apply okIf_bind (add_okIf (term row col) depth)
  rw [show accumulator (term row col) (depth + 1) = sums (depth + 1) row col from rfl, hupdate]
  rfl

def windowTerm (widen : BitVec 32 → BitVec 32) (input kernel : ℕ → ℕ → BitVec 32) (kernelW : ℕ)
    (oy ox i : ℕ) : ℤ :=
  (widen (input (oy + i / kernelW) (ox + i % kernelW))).toInt *
    (widen (kernel (i / kernelW) (i % kernelW))).toInt

theorem checkedConv2dValid_table (hwiden : SmallFactors widen)
    {inputH inputW kernelH kernelW : ℕ} (hkernel : kernelH ≠ 0 ∧ kernelW ≠ 0)
    (hfits : kernelH ≤ inputH ∧ kernelW ≤ inputW) (hsize : inputH * inputW < 2 ^ 32)
    (input kernel : ℕ → ℕ → BitVec 32) :
    OkIf (SumsFit (inputH - kernelH + 1) (inputW - kernelW + 1) (kernelH * kernelW)
        (windowTerm widen input kernel kernelW))
      (checkedConv2dValid widen (table inputH inputW input) inputH inputW
        (table kernelH kernelW kernel) kernelH kernelW)
      (table (inputH - kernelH + 1) (inputW - kernelW + 1) fun oy ox =>
        accumulator (windowTerm widen input kernel kernelW oy ox) (kernelH * kernelW))
      .overflow := by
  let term := windowTerm widen input kernel kernelW
  have hterms : ∀ oy ox i, FitsWord (term oy ox i) := fun oy ox i => hwiden _ _
  have hkernelSize : kernelH * kernelW < 2 ^ 32 :=
    lt_of_le_of_lt (Nat.mul_le_mul hfits.1 hfits.2) hsize
  have houtputSize : (inputH - kernelH + 1) * (inputW - kernelW + 1) < 2 ^ 32 :=
    lt_of_le_of_lt (Nat.mul_le_mul (by omega) (by omega)) hsize
  have hwindow : ∀ oy < inputH - kernelH + 1, ∀ ox < inputW - kernelW + 1,
      OkIf (∀ i < kernelH * kernelW,
          (accumulator (term oy ox) i).saddOverflow (BitVec.ofInt 32 (term oy ox i)) = false)
        (forLoop kernelH (fun ky acc =>
          forLoop kernelW (fun kx acc => do
            let inputVal ← lift (access (table inputH inputW input)
              (index32 ((oy + ky) * inputW + (ox + kx))))
            let kernelVal ← lift (access (table kernelH kernelW kernel)
              (index32 (ky * kernelW + kx)))
            let product ← mul (widen inputVal) (widen kernelVal)
            add acc product) acc) 0)
        (accumulator (term oy ox) (kernelH * kernelW)) .overflow := by
    intro oy hoy ox hox
    have horder : (∀ ky < kernelH, ∀ kx < kernelW,
        (accumulator (term oy ox) (ky * kernelW + kx)).saddOverflow
          (BitVec.ofInt 32 (term oy ox (ky * kernelW + kx))) = false) ↔
        ∀ i < kernelH * kernelW,
          (accumulator (term oy ox) i).saddOverflow (BitVec.ofInt 32 (term oy ox i)) = false := by
      constructor
      · intro h i hi
        obtain ⟨ky, kx, hky, hkx, rfl⟩ := exists_index hi
        exact h ky hky kx hkx
      · exact fun h ky hky kx hkx => h _ (index_lt hky hkx)
    refine OkIf.congr ?_ horder
    have hstart : (0 : BitVec 32) = accumulator (term oy ox) (0 * kernelW) := by
      rw [Nat.zero_mul]
      exact (accumulator_zero _).symm
    rw [hstart]
    apply forLoop_okIf fun ky => accumulator (term oy ox) (ky * kernelW)
    intro ky hky
    rw [Nat.succ_mul]
    apply forLoop_okIf fun kx => accumulator (term oy ox) (ky * kernelW + kx)
    intro kx hkx
    have hy : oy + ky < inputH := by omega
    have hx : ox + kx < inputW := by omega
    have hinput := index_lt hy hx
    have hindex := index_lt hky hkx
    have hdiv : (ky * kernelW + kx) / kernelW = ky := by
      rw [Nat.mul_comm, Nat.mul_add_div (by omega), Nat.div_eq_of_lt hkx, Nat.add_zero]
    have hmod : (ky * kernelW + kx) % kernelW = kx := by
      rw [Nat.mul_comm, Nat.mul_add_mod, Nat.mod_eq_of_lt hkx]
    have hterm : (widen (input (oy + ky) (ox + kx))).toInt * (widen (kernel ky kx)).toInt =
        term oy ox (ky * kernelW + kx) := by
      simp only [term, windowTerm, hdiv, hmod]
    rw [index32_eq (by omega), index32_eq (by omega), access_table input hy hx,
      access_table kernel hky hkx]
    change OkIf _ (mul _ _ >>= fun product => add _ product) _ _
    rw [mul_eq (hwiden _ _), hterm]
    exact add_okIf (term oy ox) (ky * kernelW + kx)
  refine OkIf.congr ?_ (sumsFit_iff hterms)
  unfold checkedConv2dValid
  rw [demand_of (by omega), demand_of hfits, expectSize_table, expectSize_table]
  simp only [lift_ok]
  rw [← table_const]
  apply forLoop_upTo_okIf _ _ _ fun _ _ => table_congr
  intro oy hoy ox hox
  apply okIf_bind (hwindow oy hoy ox hox)
  have hindex := index_lt hoy hox
  rw [index32_eq (by omega), update_upTo _ _ hoy hox]
  rfl

theorem checkedReduceSumRows_table {rows cols : ℕ} (hshape : rows ≠ 0 ∧ cols ≠ 0)
    (hsize : rows * cols < 2 ^ 32) (input : ℕ → ℕ → BitVec 32) :
    OkIf (SumsFit rows 1 cols fun row _ i => (input row i).toInt)
      (checkedReduceSumRows (table rows cols input) rows cols)
      (table rows 1 fun row _ => accumulator (fun i => (input row i).toInt) cols) .overflow := by
  let term (row i : ℕ) : ℤ := (input row i).toInt
  have hterms : ∀ row col i : ℕ, FitsWord (term row i) := by
    intro row _ i
    exact ⟨BitVec.le_toInt _, BitVec.toInt_lt⟩
  have hword : ∀ row i, BitVec.ofInt 32 (term row i) = input row i := fun _ _ => BitVec.ofInt_toInt
  -- the elements of the result as the first row of a table
  let sum (row : ℕ) : BitVec 32 := accumulator (term row) cols
  let state (row : ℕ) : List (BitVec 32) := table 1 rows (upTo 0 row (fun _ => sum) fun _ _ => 0)
  have hstart : replicate rows 0 = state 0 := by
    have hzero : state 0 = table 1 rows fun _ _ => 0 :=
      table_congr fun row' _ col' _ => upTo_start _ _ row' col'
    rw [hzero, table_const, Nat.one_mul]
  have hend : state rows = table rows 1 fun row _ => sum row := by
    have hall : state rows = table 1 rows fun _ => sum := by
      apply table_congr
      intro row' hrow' col' hcol'
      exact (upTo_row 0 _ _ hcol' row').trans (upTo_end _ _ hrow' 0 col')
    rw [hall]
    simp [table, map_eq_flatMap]
  have hguard : (∀ row < rows, ∀ i < cols,
      (accumulator (term row) i).saddOverflow (BitVec.ofInt 32 (term row i)) = false) ↔
        SumsFit rows 1 cols fun row _ i => term row i := by
    rw [← sumsFit_iff hterms]
    constructor
    · exact fun h row hrow _ _ => h row hrow
    · exact fun h row hrow => h row hrow 0 Nat.one_pos
  refine OkIf.congr ?_ hguard
  rw [← hend]
  unfold checkedReduceSumRows
  rw [demand_of hshape, expectSize_table, hstart]
  apply forLoop_okIf state
  intro row hrow
  have hrow_sum : OkIf (∀ i < cols,
      (accumulator (term row) i).saddOverflow (BitVec.ofInt 32 (term row i)) = false)
      (forLoop cols (fun col acc => do
        let value ← lift (access (table rows cols input) (index32 (row * cols + col)))
        add acc value) 0) (sum row) .overflow := by
    rw [← accumulator_zero (term row)]
    apply forLoop_okIf (accumulator (term row))
    intro col hcol
    have hindex := index_lt hrow hcol
    rw [index32_eq (by omega), access_table input hrow hcol, ← hword row col]
    exact add_okIf (term row) col
  apply okIf_bind hrow_sum
  have hupdate := update_upTo (fun _ => sum) (fun _ _ => 0) Nat.one_pos hrow
  rw [Nat.zero_mul, Nat.zero_add] at hupdate
  rw [hupdate]
  rfl

theorem smallFactors_of_bounds
    (h : ∀ x, |(widen x).toInt| ≤ 2 ^ 15) : SmallFactors widen := by
  intro a b
  have hproduct : |(widen a).toInt * (widen b).toInt| ≤ 2 ^ 15 * 2 ^ 15 := by
    rw [abs_mul]
    exact mul_le_mul (h a) (h b) (abs_nonneg _) (by decide)
  rw [abs_le] at hproduct
  constructor <;> omega

theorem widenI8_small : SmallFactors widenI8 := by
  apply smallFactors_of_bounds
  intro x
  have hlow := (x.setWidth 8).le_toInt
  have hhigh := (x.setWidth 8).toInt_lt
  rw [widenI8, BitVec.toInt_signExtend_of_le (by decide), abs_le]
  constructor <;> omega

theorem widenI16_small : SmallFactors widenI16 := by
  apply smallFactors_of_bounds
  intro x
  have hlow := (x.setWidth 16).le_toInt
  have hhigh := (x.setWidth 16).toInt_lt
  rw [widenI16, BitVec.toInt_signExtend_of_le (by decide), abs_le]
  constructor <;> omega

theorem sum_eq_accumulator {term : ℕ → ℤ} {word : ℕ → BitVec 32}
    (h : ∀ i, word i = BitVec.ofInt 32 (term i)) (count : ℕ) :
    ∑ i ∈ Finset.range count, word i = accumulator term count := by
  rw [accumulator, partialSum, ofInt_sum]
  exact Finset.sum_congr rfl fun i _ => h i

theorem mul_eq_ofInt (a b : BitVec 32) : a * b = BitVec.ofInt 32 (a.toInt * b.toInt) := by
  rw [BitVec.ofInt_mul, BitVec.ofInt_toInt, BitVec.ofInt_toInt]

theorem window_sum (input kernel : ℕ → ℕ → BitVec 32) (kernelW kernelH oy ox : ℕ) :
    ∑ ky ∈ Finset.range kernelH, ∑ kx ∈ Finset.range kernelW,
        widen (input (oy + ky) (ox + kx)) * widen (kernel ky kx) =
      accumulator (windowTerm widen input kernel kernelW oy ox) (kernelH * kernelW) := by
  rw [← sum_eq_accumulator fun i => rfl]
  induction kernelH with
  | zero => simp
  | succ kernelH ih =>
    rw [Finset.sum_range_succ, ih, Nat.succ_mul, Finset.sum_range_add]
    apply congrArg
    apply Finset.sum_congr rfl
    intro kx hkx
    have hlt := Finset.mem_range.1 hkx
    have hdiv : (kernelH * kernelW + kx) / kernelW = kernelH := by
      rw [Nat.mul_comm, Nat.mul_add_div (by omega), Nat.div_eq_of_lt hlt, Nat.add_zero]
    have hmod : (kernelH * kernelW + kx) % kernelW = kx := by
      rw [Nat.mul_comm, Nat.mul_add_mod, Nat.mod_eq_of_lt hlt]
    rw [windowTerm, hdiv, hmod, mul_eq_ofInt]

end TensorGolden

/-- An integer kernel: the sums that it stands for and its run with checked arithmetic. -/
structure IntegerKernel where
  (rows cols count : ℕ)
  term : List (BitVec 32) → List (BitVec 32) → ℕ → ℕ → ℕ → ℤ
  checked : List (BitVec 32) → List (BitVec 32) → CheckedRun (List (BitVec 32))

namespace IntegerKernel

/-- The exact value of an element of the output. -/
def sum (kernel : IntegerKernel) (lhs rhs : List (BitVec 32)) (row col : ℕ) : ℤ :=
  partialSum (kernel.term lhs rhs row col) kernel.count

/-- Every sum on the way to an element of the output fits. -/
def Fits (kernel : IntegerKernel) (lhs rhs : List (BitVec 32)) : Prop :=
  SumsFit kernel.rows kernel.cols kernel.count (kernel.term lhs rhs)

/-- The arithmetic of a kernel computes the sums modulo 2^32, and its checked run finishes
exactly when they fit. -/
structure Computes (kernel : IntegerKernel) (lhs rhs out : List (BitVec 32)) : Prop where
  values : out = table kernel.rows kernel.cols fun row col =>
    accumulator (kernel.term lhs rhs row col) kernel.count
  checked : OkIf (kernel.Fits lhs rhs) (kernel.checked lhs rhs) out .overflow

theorem Computes.exact {kernel : IntegerKernel} {lhs rhs out : List (BitVec 32)}
    (h : kernel.Computes lhs rhs out) (hfits : kernel.Fits lhs rhs) {row col : ℕ}
    (hrow : row < kernel.rows) (hcol : col < kernel.cols) :
    out[row * kernel.cols + col]?.map BitVec.toInt = some (kernel.sum lhs rhs row col) := by
  rw [h.values, getElem?_table _ hrow hcol, Option.map_some]
  exact congrArg some (toInt_ofInt_of_fits (hfits row hrow col hcol kernel.count le_rfl))

/-- The elements of a row-major matrix. -/
def entry (values : List (BitVec 32)) (cols row col : ℕ) : BitVec 32 :=
  values.getD (row * cols + col) 0

theorem eq_table_entry {values : List (BitVec 32)} {rows cols : ℕ}
    (h : values.length = rows * cols) : values = table rows cols (entry values cols) := by
  apply eq_table h
  intro row hrow col hcol
  have hlt : row * cols + col < values.length := h ▸ index_lt hrow hcol
  rw [entry, getD_eq_getElem _ _ hlt, getElem?_eq_getElem hlt]

end IntegerKernel

open IntegerKernel TensorGolden

def gemmKernel (widen : BitVec 32 → BitVec 32) (m k n : ℕ) : IntegerKernel where
  rows := m
  cols := n
  count := k
  term lhs rhs row col i := (widen (entry lhs k row i)).toInt * (widen (entry rhs n i col)).toInt
  checked lhs rhs := checkedGemm widen lhs rhs m k n

def convKernel (widen : BitVec 32 → BitVec 32) (inputH inputW kernelH kernelW : ℕ) :
    IntegerKernel where
  rows := inputH - kernelH + 1
  cols := inputW - kernelW + 1
  count := kernelH * kernelW
  term input kernel := windowTerm widen (entry input inputW) (entry kernel kernelW) kernelW
  checked input kernel := checkedConv2dValid widen input inputH inputW kernel kernelH kernelW

def reduceKernel (rows cols : ℕ) : IntegerKernel where
  rows
  cols := 1
  count := cols
  term input _ row _ i := (entry input cols row i).toInt
  checked input _ := checkedReduceSumRows input rows cols

section

variable {widen : BitVec 32 → BitVec 32} {lhs rhs out : List (BitVec 32)}

theorem demand_eq_ok {condition : Prop} [Decidable condition] {what : String} {u : Unit} :
    demand condition what = .ok u ↔ condition := by
  unfold demand
  split_ifs with h <;> simp [h]

theorem gemmKernel_computes (hwiden : SmallFactors widen) {m k n : ℕ}
    (h : goldenGemm widen (· * ·) (· + ·) lhs rhs m k n = .ok out) :
    (gemmKernel widen m k n).Computes lhs rhs out := by
  have hsizes := h
  unfold goldenGemm expectSize at hsizes
  simp only [seq_eq_ok, demand_eq_ok] at hsizes
  obtain ⟨hshape, hlhs, hrhs, -⟩ := hsizes
  have hleft := eq_table_entry hlhs
  have hright := eq_table_entry hrhs
  have hvalues : out = table m n fun row col =>
      accumulator ((gemmKernel widen m k n).term lhs rhs row col) k := by
    rw [hleft, hright, goldenGemm_table widen hshape] at h
    rw [← ok.inj h]
    apply table_congr
    intro row _ col _
    exact sum_eq_accumulator (fun i => mul_eq_ofInt _ _) k
  have hterm : ∀ row col i, (gemmKernel widen m k n).term lhs rhs row col i =
      (widen (entry lhs k row i)).toInt * (widen (entry rhs n i col)).toInt := fun _ _ _ => rfl
  have hchecked := checkedGemm_table hwiden hshape (entry lhs k) (entry rhs n) hterm
  rw [← hleft, ← hright, ← hvalues] at hchecked
  exact ⟨hvalues, hchecked⟩

theorem convKernel_computes (hwiden : SmallFactors widen) {inputH inputW kernelH kernelW : ℕ}
    (hsize : lhs.length < 2 ^ 32)
    (h : goldenConv2dValid widen lhs inputH inputW rhs kernelH kernelW = .ok out) :
    (convKernel widen inputH inputW kernelH kernelW).Computes lhs rhs out := by
  have hsizes := h
  unfold goldenConv2dValid expectSize at hsizes
  simp only [seq_eq_ok, demand_eq_ok] at hsizes
  obtain ⟨⟨-, -, hkernelH, hkernelW⟩, hfits, hlhs, hrhs, -⟩ := hsizes
  have hleft := eq_table_entry hlhs
  have hright := eq_table_entry hrhs
  rw [hlhs] at hsize
  have hvalues : out = table (inputH - kernelH + 1) (inputW - kernelW + 1) fun oy ox =>
      accumulator ((convKernel widen inputH inputW kernelH kernelW).term lhs rhs oy ox)
        (kernelH * kernelW) := by
    rw [hleft, hright, goldenConv2dValid_table widen ⟨hkernelH, hkernelW⟩ hfits hsize] at h
    rw [← ok.inj h]
    apply table_congr
    intro oy _ ox _
    exact window_sum _ _ kernelW kernelH oy ox
  have hchecked := checkedConv2dValid_table hwiden ⟨hkernelH, hkernelW⟩ hfits hsize
    (entry lhs inputW) (entry rhs kernelW)
  rw [← hleft, ← hright] at hchecked
  exact ⟨hvalues, hvalues ▸ hchecked⟩

theorem reduceKernel_computes {rows cols : ℕ} (hsize : lhs.length < 2 ^ 32)
    (h : reduceSumRowsI32 lhs rows cols = .ok out) :
    (reduceKernel rows cols).Computes lhs rhs out := by
  have hsizes := h
  unfold reduceSumRowsI32 expectSize at hsizes
  simp only [seq_eq_ok, demand_eq_ok] at hsizes
  obtain ⟨hshape, hlhs, -⟩ := hsizes
  have hleft := eq_table_entry hlhs
  rw [hlhs] at hsize
  have hvalues : out = table rows 1 fun row _ =>
      accumulator (fun i => (entry lhs cols row i).toInt) cols := by
    rw [hleft, reduceSumRowsI32_table hshape hsize] at h
    rw [← ok.inj h]
    simp only [table, range_one, map_cons, map_nil, ← map_eq_flatMap]
    apply map_congr_left
    intro row _
    exact sum_eq_accumulator (fun i => BitVec.ofInt_toInt.symm) cols
  have hchecked := checkedReduceSumRows_table hshape hsize (entry lhs cols)
  rw [← hleft] at hchecked
  exact ⟨hvalues, hvalues ▸ hchecked⟩

end

namespace Kernel

variable {kernel : Kernel} {pad next : AiScratchpad}

theorem readTensorValues_inv {size : ℕ} {entry : AiMemoryPlanEntry} {values : List (BitVec 32)}
    (h : pad.readTensorValues size entry = .ok values) : values = pad.valuesOf size entry := by
  unfold AiScratchpad.readTensorValues AiScratchpad.read at h
  simp only [seq_eq_ok] at h
  obtain ⟨-, h⟩ := h
  split_ifs at h
  · exact (ok.inj h).symm
  · cases h
  · cases h

theorem run_eq_ok (h : kernel.run pad = .ok next) :
    ∃ out, kernel.compute (pad.valuesOf kernel.inputSize kernel.input0)
        (kernel.input1.elim [] (pad.valuesOf kernel.inputSize)) = .ok out ∧
      out.length * kernel.outputSize = kernel.output.byteSize.toNat ∧
      next = pad.store kernel.output.scratchpadOffset.toNat
        (encodeValues kernel.outputSize out) := by
  unfold run at h
  simp only [bind_eq_ok] at h
  obtain ⟨lhs, hlhs, rhs, hrhs, out, hcompute, hwrite⟩ := h
  obtain rfl := readTensorValues_inv hlhs
  have hsecond : rhs = kernel.input1.elim [] (pad.valuesOf kernel.inputSize) := by
    cases hinput : kernel.input1 with
    | none =>
      rw [hinput] at hrhs
      exact (ok.inj hrhs).symm
    | some entry =>
      rw [hinput] at hrhs
      exact readTensorValues_inv hrhs
  unfold writeTensorValues write at hwrite
  simp only [seq_eq_ok, check_eq_ok] at hwrite
  obtain ⟨hsize, hwrite⟩ := hwrite
  refine ⟨out, hsecond ▸ hcompute, hsize, ?_⟩
  split_ifs at hwrite
  · exact (ok.inj hwrite).symm
  · cases hwrite
  · cases hwrite

end Kernel

def AiDataType.widen? : AiDataType → Option (BitVec 32 → BitVec 32)
  | int8 => some widenI8
  | int16 => some widenI16
  | _ => none

namespace AiGraphPackage

def integerKernel (package : AiGraphPackage) (op : AiOpDescriptor) : Option IntegerKernel :=
  match op.opcode, package.tensor? op.input0, package.tensor? op.input1 with
  | .gemm, some lhs, some rhs => op.inputDtype.widen?.map fun widen =>
    gemmKernel widen (lhs.dims.get 0).toNat (lhs.dims.get 1).toNat (rhs.dims.get 1).toNat
  | .conv2d, some input, some kernel => op.inputDtype.widen?.map fun widen =>
    convKernel widen (input.dims.get 0).toNat (input.dims.get 1).toNat (kernel.dims.get 0).toNat
      (kernel.dims.get 1).toNat
  | .reduceSum, some input, _ => some (reduceKernel (input.dims.get 0).toNat (input.dims.get 1).toNat)
  | _, _, _ => none

/-- A plan whose kernel computes the sums of the operation. -/
def RunsSums (package : AiGraphPackage) (op : AiOpDescriptor) (plan : OpPlan) : Prop :=
  ∃ kernel sums, plan.kernel = some kernel ∧ package.integerKernel op = some sums ∧
    kernel.outputSize = 4 ∧
    ∀ lhs rhs out, lhs.length < 2 ^ 32 → kernel.compute lhs rhs = .ok out →
      sums.Computes lhs rhs out

variable {package : AiGraphPackage} {op : AiOpDescriptor} {plan : OpPlan}

section

variable [HostFloat]

/-- The products, convolutions and sums of rows of integers. -/
def IntegerOp (op : AiOpDescriptor) : Prop :=
  op.opcode ∈ [.gemm, .conv2d, .reduceSum] ∧ op.inputDtype ∈ [.int8, .int16, .int32]

theorem executeGemm_computes (hopcode : op.opcode = .gemm)
    (hdtype : op.inputDtype ∈ [AiDataType.int8, .int16, .int32])
    (h : package.executeGemm op = .ok plan) : package.RunsSums op plan := by
  unfold executeGemm at h
  simp only [bind_eq_ok] at h
  obtain ⟨lhs, hlhs, rhs, hrhs, output, -, _, -, _, -, _, -, lhsEntry, -, rhsEntry, -,
    outputEntry, -, arithmetic, harithmetic, hplan⟩ := h
  obtain rfl := ok.inj hplan
  have hleft := tensorAt_eq_ok.1 hlhs
  have hright := tensorAt_eq_ok.1 hrhs
  unfold RunsSums integerKernel
  rw [hopcode, hleft, hright]
  simp only [mem_cons, not_mem_nil, or_false] at hdtype
  rcases hdtype with hint | hint | hint
  · rw [hint] at harithmetic ⊢
    simp only [gemmArithmetic, seq_eq_ok] at harithmetic
    obtain rfl := ok.inj harithmetic.2
    exact ⟨_, _, rfl, rfl, rfl, fun _ _ _ _ hcompute => gemmKernel_computes widenI8_small hcompute⟩
  · rw [hint] at harithmetic ⊢
    simp only [gemmArithmetic, seq_eq_ok] at harithmetic
    obtain rfl := ok.inj harithmetic.2
    exact ⟨_, _, rfl, rfl, rfl, fun _ _ _ _ hcompute => gemmKernel_computes widenI16_small hcompute⟩
  · rw [hint] at harithmetic
    cases harithmetic

omit [HostFloat] in
theorem executeConv_computes (hopcode : op.opcode = .conv2d)
    (hdtype : op.inputDtype ∈ [AiDataType.int8, .int16, .int32])
    (h : package.executeConv op = .ok plan) : package.RunsSums op plan := by
  unfold executeConv at h
  simp only [bind_eq_ok] at h
  obtain ⟨input, hinput, window, hwindow, output, -, _, -, _, -, _, -, _, -, inputEntry, -,
    kernelEntry, -, outputEntry, -, arithmetic, harithmetic, hplan⟩ := h
  obtain rfl := ok.inj hplan
  have hleft := tensorAt_eq_ok.1 hinput
  have hright := tensorAt_eq_ok.1 hwindow
  unfold RunsSums integerKernel
  rw [hopcode, hleft, hright]
  simp only [mem_cons, not_mem_nil, or_false] at hdtype
  rcases hdtype with hint | hint | hint
  · rw [hint] at harithmetic ⊢
    obtain rfl := ok.inj harithmetic
    exact ⟨_, _, rfl, rfl, rfl, fun _ _ _ hsize hcompute =>
      convKernel_computes widenI8_small hsize hcompute⟩
  · rw [hint] at harithmetic ⊢
    obtain rfl := ok.inj harithmetic
    exact ⟨_, _, rfl, rfl, rfl, fun _ _ _ hsize hcompute =>
      convKernel_computes widenI16_small hsize hcompute⟩
  · rw [hint] at harithmetic
    cases harithmetic

omit [HostFloat] in
theorem executeReduceSum_computes (hopcode : op.opcode = .reduceSum)
    (h : package.executeReduceSum op = .ok plan) : package.RunsSums op plan := by
  unfold executeReduceSum at h
  simp only [bind_eq_ok] at h
  obtain ⟨input, hinput, output, -, _, -, inputEntry, -, outputEntry, -, hplan⟩ := h
  obtain rfl := ok.inj hplan
  unfold RunsSums integerKernel
  rw [hopcode, tensorAt_eq_ok.1 hinput]
  exact ⟨_, _, rfl, rfl, rfl, fun _ _ _ hsize hcompute => reduceKernel_computes hsize hcompute⟩

theorem planOp_computes (hinteger : IntegerOp op) (h : package.planOp op = .ok plan) :
    package.RunsSums op plan := by
  obtain ⟨hopcode, hdtype⟩ := hinteger
  simp only [mem_cons, not_mem_nil, or_false] at hopcode
  unfold planOp at h
  rcases hopcode with hopcode | hopcode | hopcode
  · rw [hopcode] at h
    exact executeGemm_computes hopcode hdtype h
  · rw [hopcode] at h
    exact executeConv_computes hopcode hdtype h
  · rw [hopcode] at h
    exact executeReduceSum_computes hopcode h

variable (package) in
/-- The output tensor holds the sums of an integer operation modulo 2^32. With checked
arithmetic the operation finishes exactly when every sum on the way fits in 32 bits, and then
the elements are the exact sums. -/
def LeavesSums (op : AiOpDescriptor) (pad next : AiScratchpad) : Prop :=
  ∃ plan kernel sums, package.planOp op = .ok plan ∧ package.Operands op plan ∧
    plan.kernel = some kernel ∧ package.integerKernel op = some sums ∧
    let lhs := pad.valuesOf kernel.inputSize kernel.input0
    let rhs := kernel.input1.elim [] (pad.valuesOf kernel.inputSize)
    sums.Computes lhs rhs (next.valuesOf 4 kernel.output) ∧
    (sums.Fits lhs rhs → ∀ row < sums.rows, ∀ col < sums.cols,
      (next.valuesOf 4 kernel.output)[row * sums.cols + col]?.map BitVec.toInt =
        some (sums.sum lhs rhs row col))

/-- Every integer operation that finishes leaves its sums. -/
theorem executeOp_leavesSums (hinteger : IntegerOp op) {pad next : AiScratchpad}
    {retiredOps : BitVec 64} (h : package.executeOp op pad = .ok (next, retiredOps)) :
    package.LeavesSums op pad next := by
  unfold executeOp OpPlan.run at h
  simp only [bind_eq_ok] at h
  obtain ⟨plan, hplan, middle, hrun, _, -, hnext⟩ := h
  obtain ⟨kernel, sums, hkernel, hsums, hsize, hcomputes⟩ := planOp_computes hinteger hplan
  unfold OpPlan.runKernel at hrun
  rw [hkernel] at hrun
  obtain ⟨out, hcompute, hlength, rfl⟩ := Kernel.run_eq_ok hrun
  obtain ⟨rfl, -⟩ := Prod.mk.inj (ok.inj hnext)
  rw [hsize] at hlength
  have hout := pad.valuesOf_store hlength
  have hinput : (pad.valuesOf kernel.inputSize kernel.input0).length < 2 ^ 32 := by
    unfold valuesOf decodeValues
    rw [length_map, length_range, length_slice]
    exact (Nat.div_le_self _ _).trans_lt kernel.input0.byteSize.isLt
  have hresult := hcomputes _ _ _ hinput hcompute
  refine ⟨plan, kernel, sums, hplan, planOp_operands hplan, hkernel, hsums, ?_, ?_⟩
  · rw [hsize, hout]
    exact hresult
  intro hfits row hrow col hcol
  rw [hsize, hout]
  exact hresult.exact hfits hrow hcol

end

end AiGraphPackage

def dotOp (dtype : AiDataType) : AiOpDescriptor :=
  { opcode := .gemm, inputDtype := dtype, accumDtype := .int32, input0 := 0, input1 := 1,
    input2 := kAiInvalidTensorIndex, output := 2, attrs := axes 0 0 0 0 }

/-- A product of a row and a column of two elements. -/
def dotPackage (dtype : AiDataType) (bytes : BitVec 32) : AiGraphPackage :=
  let tensor (role : AiTensorRole) (dtype : AiDataType) (d₀ d₁ : BitVec 32) : AiTensorMetadata :=
    { dtype, role, rank := 2, dims := axes d₀ d₁ 0 0, tileDims := axes 1 1 0 0 }
  let plan (tensorIndex : BitVec 16) (offset size : BitVec 32) : AiMemoryPlanEntry :=
    { tensorIndex, systemOffset := offset, scratchpadOffset := offset, byteSize := size,
      scratchpadBytes := size }
  { shapeMode := .static
    trainingMode := .inference
    scratchpadBudgetBytes := 32
    tensors := [tensor .input dtype 1 2, tensor .weight dtype 2 1, tensor .output .int32 1 1]
    ops := [dotOp dtype]
    dependencies := []
    memoryPlan := [plan 0 0 bytes, plan 1 8 bytes, plan 2 16 4]
    dynamicTensors := [] }

def dotPad (halfWord : BitVec 32) : AiScratchpad :=
  ((configure 32).store 0 (encodeValues 2 [halfWord, halfWord])).store 8
    (encodeValues 2 [halfWord, halfWord])

theorem dotPackage_leavesSums :
    letI := HostFloat.silent
    ∃ next retiredOps, (dotPackage .int16 4).executeOp (dotOp .int16) (dotPad 5) =
        .ok (next, retiredOps) ∧
      (dotPackage .int16 4).LeavesSums (dotOp .int16) (dotPad 5) next := by
  let _ := HostFloat.silent
  have hinteger : AiGraphPackage.IntegerOp (dotOp .int16) := by
    constructor
    · decide
    · decide
  have hok : (@AiGraphPackage.executeOp (dotPackage .int16 4) HostFloat.silent (dotOp .int16)
      (dotPad 5)).isOk := by decide
  cases hrun : (dotPackage .int16 4).executeOp (dotOp .int16) (dotPad 5) with
  | error stop =>
    rw [hrun] at hok
    cases hok
  | ok result => exact ⟨result.1, result.2, rfl, AiGraphPackage.executeOp_leavesSums hinteger hrun⟩

/-- Two squares of the least half word exceed a signed word, and a product of 32-bit integers
is accepted but not executed. -/
theorem dotPackage_overflows :
    letI := HostFloat.silent
    (dotPackage .int16 4).Accepted ∧
    ((dotPackage .int16 4).executeOp (dotOp .int16) (dotPad 0x8000)).map
        (fun result => result.1.valuesOf 4 ⟨2, 16, 16, 4, 4⟩) = .ok [0x80000000] ∧
    (gemmKernel widenI16 1 2 1).sum [0x8000, 0x8000] [0x8000, 0x8000] 0 0 = 2 ^ 31 ∧
    checkedGemm widenI16 [0x8000, 0x8000] [0x8000, 0x8000] 1 2 1 = .error .overflow ∧
    (dotPackage .int32 8).Accepted ∧
    ((dotPackage .int32 8).executeOp (dotOp .int32) (dotPad 5)).map
        (fun result => result.1.valuesOf 4 ⟨2, 16, 16, 4, 4⟩) =
      .error (.fault .unsupportedDtype "GEMM dtype is unsupported") := by
  refine ⟨⟨(dotPackage .int16 4).encoded, _, AiGraphPackage.parse_serialize (by decide +kernel)
    (by decide), .inl rfl⟩, by decide, by decide, by decide,
    ⟨(dotPackage .int32 8).encoded, _, AiGraphPackage.parse_serialize (by decide +kernel)
    (by decide), .inl rfl⟩, by decide⟩

end VisualCpu
