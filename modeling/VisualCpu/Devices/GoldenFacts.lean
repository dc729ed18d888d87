import VisualCpu.Devices.TensorGoldenOps

/-!
# Tensor operations on vectors of the right size

On inputs whose sizes match their shapes no operation throws or leaves its vectors, and the
result has the size of the output shape. The sum of a softmax row is not zero by what the
host promises for nonnegative floats.
-/

namespace VisualCpu

open Loops HostFloat

/-- What the host promises for floats that are not negative. -/
structure HostFloat.Lawful [HostFloat] (Nonnegative Positive : BitVec 32 → Prop) : Prop where
  zero : Nonnegative 0
  exp_nonnegative : ∀ a, Nonnegative (exp a)
  /-- The exponential of a difference of equal numbers, which is zero or NaN. -/
  exp_sub_self : ∀ a, Positive (exp (sub a a))
  add_nonnegative : ∀ a b, Nonnegative a → Nonnegative b → Nonnegative (add a b)
  add_positive_left : ∀ a b, Positive a → Nonnegative b → Positive (add a b)
  add_positive_right : ∀ a b, Nonnegative a → Positive b → Positive (add a b)

namespace HostFloat

def isNan (a : BitVec 32) : Bool := decide (0x7f800000 < a &&& 0x7fffffff)

/-- NaN, or zero or more. -/
def Nonnegative (a : BitVec 32) : Prop := isNan a ∨ a.msb = false

/-- NaN, or more than zero. -/
def Positive (a : BitVec 32) : Prop := isNan a ∨ a.msb = false ∧ isZero a = false

theorem Positive.isZero {a : BitVec 32} (h : Positive a) : isZero a = false := by
  rcases h with hnan | ⟨-, hzero⟩
  · unfold isNan at hnan
    unfold HostFloat.isZero
    rw [decide_eq_true_eq, BitVec.lt_def] at hnan
    rw [beq_eq_false_iff_ne]
    intro hzero
    rw [hzero] at hnan
    exact absurd hnan (by decide)
  · exact hzero

theorem max_eq [HostFloat] (a b : BitVec 32) : max a b = a ∨ max a b = b := by
  unfold max
  split_ifs
  · exact .inr rfl
  · exact .inl rfl

end HostFloat

namespace TensorGolden

variable {values : List (BitVec 32)}

theorem access_ends {i : ℕ} (h : i < values.length) :
    Ends (access values i) fun value => values[i]? = some value := by
  refine ⟨values[i], ?_, List.getElem?_eq_getElem h⟩
  simp [access, h]

theorem access_any {i : ℕ} (h : i < values.length) : Ends (access values i) fun _ => True :=
  (access_ends h).mono fun _ _ => trivial

theorem update_ends {i size : ℕ} (value : BitVec 32) (h : i < size) (hsize : values.length = size) :
    Ends (update values i value) fun out => out.length = size := by
  refine ⟨values.set i value, ?_, List.length_set.trans hsize⟩
  rw [update, if_pos (hsize ▸ h)]

theorem demand_ends {condition : Prop} [Decidable condition] {what : String} (h : condition) :
    Ends (demand condition what) fun _ => True := ⟨(), if_pos h, trivial⟩

theorem expectSize_ends {expected : ℕ} {label : String}
    (h : values.length = expected) : Ends (expectSize values expected label) fun _ => True :=
  demand_ends h

theorem index32_eq {n : ℕ} (h : n < 2 ^ 32) : index32 n = n := Nat.mod_eq_of_lt h

theorem goldenGemm_ends (widen : BitVec 32 → BitVec 32)
    (mul add : BitVec 32 → BitVec 32 → BitVec 32)
    {lhs rhs : List (BitVec 32)} {m k n : ℕ} (hshape : m ≠ 0 ∧ k ≠ 0 ∧ n ≠ 0)
    (hlhs : lhs.length = m * k) (hrhs : rhs.length = k * n) :
    Ends (goldenGemm widen mul add lhs rhs m k n) fun out => out.length = m * n := by
  refine (demand_ends hshape).bind fun _ _ => (expectSize_ends hlhs).bind fun _ _ =>
    (expectSize_ends hrhs).bind fun _ _ => ?_
  refine forLoop_keeps (fun row hrow out hout => ?_) (List.length_replicate ..)
  refine forLoop_keeps (fun depth hdepth out hout => ?_) hout
  have hleft : row * k + depth < lhs.length := hlhs ▸ index_lt hrow hdepth
  refine (access_any hleft).bind fun lhsVal _ => ?_
  refine forLoop_keeps (fun col hcol out hout => ?_) hout
  have hright : depth * n + col < rhs.length := hrhs ▸ index_lt hdepth hcol
  have hindex : row * n + col < m * n := index_lt hrow hcol
  refine (access_any hright).bind fun rhsVal _ => ?_
  refine (access_any (hout ▸ hindex)).bind fun old _ => ?_
  exact update_ends _ hindex hout

theorem window_lt {inputH inputW y x : ℕ} (hy : y < inputH) (hx : x < inputW)
    (hsize : inputH * inputW < 2 ^ 32) : index32 (y * inputW + x) < inputH * inputW := by
  have hlt := index_lt hy hx
  rw [index32_eq (by omega)]
  exact hlt

theorem goldenConv2dValid_ends (widen : BitVec 32 → BitVec 32) {input kernel : List (BitVec 32)}
    {inputH inputW kernelH kernelW : ℕ} (hkernel : kernelH ≠ 0 ∧ kernelW ≠ 0)
    (hfits : kernelH ≤ inputH ∧ kernelW ≤ inputW) (hinput : input.length = inputH * inputW)
    (hkernelSize : kernel.length = kernelH * kernelW) (hsize : inputH * inputW < 2 ^ 32)
    (houtput : (inputH - kernelH + 1) * (inputW - kernelW + 1) < 2 ^ 32) :
    Ends (goldenConv2dValid widen input inputH inputW kernel kernelH kernelW)
      fun out => out.length = (inputH - kernelH + 1) * (inputW - kernelW + 1) := by
  have hkernelBound : kernelH * kernelW < 2 ^ 32 :=
    lt_of_le_of_lt (Nat.mul_le_mul hfits.1 hfits.2) hsize
  refine (demand_ends (by omega)).bind fun _ _ => (demand_ends hfits).bind fun _ _ =>
    (expectSize_ends hinput).bind fun _ _ => (expectSize_ends hkernelSize).bind fun _ _ => ?_
  refine forLoop_keeps (fun oy hoy out hout => ?_) (List.length_replicate ..)
  refine forLoop_keeps (fun ox hox out hout => ?_) hout
  have hsum : Ends (forLoop kernelH (fun ky acc =>
      forLoop kernelW (fun kx acc => do
        let inputVal ← access input (index32 ((oy + ky) * inputW + (ox + kx)))
        let kernelVal ← access kernel (index32 (ky * kernelW + kx))
        .ok (acc + widen inputVal * widen kernelVal)) acc) 0) fun _ => True := by
    refine forLoop_keeps (fun ky hky acc _ => ?_) trivial
    refine forLoop_keeps (fun kx hkx acc _ => ?_) trivial
    have hleft : index32 ((oy + ky) * inputW + (ox + kx)) < input.length :=
      hinput ▸ window_lt (by omega) (by omega) hsize
    have hright : index32 (ky * kernelW + kx) < kernel.length :=
      hkernelSize ▸ window_lt hky hkx hkernelBound
    exact (access_any hleft).bind fun _ _ => (access_any hright).bind fun _ _ => .ok trivial
  exact hsum.bind fun acc _ => update_ends _ (window_lt hoy hox houtput) hout

variable {input : List (BitVec 32)} {rows cols : ℕ}

theorem maxPool2dF32_ends [HostFloat]
    {inputH inputW windowH windowW strideH strideW : ℕ} (hwindow : windowH ≠ 0 ∧ windowW ≠ 0)
    (hstride : strideH ≠ 0 ∧ strideW ≠ 0) (hfits : windowH ≤ inputH ∧ windowW ≤ inputW)
    (hbounds : inputH < 2 ^ 32 ∧ inputW < 2 ^ 32) (hinput : input.length = inputH * inputW)
    (hsize : inputH * inputW < 2 ^ 32)
    (houtput : ((inputH - windowH) / strideH + 1) * ((inputW - windowW) / strideW + 1) < 2 ^ 32) :
    Ends (maxPool2dF32 input inputH inputW windowH windowW strideH strideW) fun out =>
      out.length = ((inputH - windowH) / strideH + 1) * ((inputW - windowW) / strideW + 1) := by
  -- the last position of a window is inside the input
  have hposition : ∀ {o w extent window stride : ℕ}, window ≤ extent →
      o < (extent - window) / stride + 1 → w < window → o * stride + w < extent := by
    intro o w extent window stride hle ho hw
    have hmul : o * stride ≤ extent - window :=
      (Nat.mul_le_mul_right stride (Nat.lt_succ_iff.1 ho)).trans (Nat.div_mul_le_self _ _)
    omega
  refine (demand_ends (by omega)).bind fun _ _ => (expectSize_ends hinput).bind fun _ _ =>
    (demand_ends hfits).bind fun _ _ => ?_
  refine forLoop_keeps (fun oy hoy out hout => ?_) (List.length_replicate ..)
  refine forLoop_keeps (fun ox hox out hout => ?_) hout
  have hbest : Ends (forLoop windowH (fun wy best =>
      forLoop windowW (fun wx best => do
        let iy := index32 (oy * strideH + wy)
        let ix := index32 (ox * strideW + wx)
        let value ← access input (index32 (iy * inputW + ix))
        .ok (max best value)) best) negInfinity) fun _ => True := by
    refine forLoop_keeps (fun wy hwy best _ => ?_) trivial
    refine forLoop_keeps (fun wx hwx best _ => ?_) trivial
    have hy := hposition hfits.1 hoy hwy
    have hx := hposition hfits.2 hox hwx
    have hin : index32 (index32 (oy * strideH + wy) * inputW + index32 (ox * strideW + wx)) <
        input.length := by
      rw [index32_eq (n := oy * strideH + wy) (by omega),
        index32_eq (n := ox * strideW + wx) (by omega), hinput]
      exact window_lt hy hx hsize
    exact (access_any hin).bind fun _ _ => .ok trivial
  exact hbest.bind fun best _ => update_ends _ (window_lt hoy hox houtput) hout

theorem reduceSumRowsI32_ends
    (hshape : rows ≠ 0 ∧ cols ≠ 0) (hinput : input.length = rows * cols)
    (hsize : rows * cols < 2 ^ 32) :
    Ends (reduceSumRowsI32 input rows cols) fun out => out.length = rows := by
  refine (demand_ends hshape).bind fun _ _ => (expectSize_ends hinput).bind fun _ _ => ?_
  refine forLoop_keeps (fun row hrow out hout => ?_) (List.length_replicate ..)
  have hsum : Ends (forLoop cols (fun col acc => do
      let value ← access input (index32 (row * cols + col))
      .ok (acc + value)) 0) fun _ => True := by
    refine forLoop_keeps (fun col hcol acc _ => ?_) trivial
    have hin : index32 (row * cols + col) < input.length := hinput ▸ window_lt hrow hcol hsize
    exact (access_any hin).bind fun _ _ => .ok trivial
  exact hsum.bind fun acc _ => update_ends _ hrow hout

theorem transpose2dI32_ends
    (hshape : rows ≠ 0 ∧ cols ≠ 0) (hinput : input.length = rows * cols)
    (hsize : rows * cols < 2 ^ 32) :
    Ends (transpose2dI32 input rows cols) fun out => out.length = rows * cols := by
  refine (demand_ends hshape).bind fun _ _ => (expectSize_ends hinput).bind fun _ _ => ?_
  refine forLoop_keeps (fun row hrow out hout => ?_) (List.length_replicate ..)
  refine forLoop_keeps (fun col hcol out hout => ?_) hout
  have hin : index32 (row * cols + col) < input.length := hinput ▸ window_lt hrow hcol hsize
  have hout' : index32 (col * rows + row) < rows * cols := by
    rw [Nat.mul_comm rows cols]
    exact window_lt hcol hrow (by rwa [Nat.mul_comm])
  exact (access_any hin).bind fun value _ => update_ends _ hout' hout

section Softmax

variable [HostFloat]

theorem rowMax_ends {input : List (BitVec 32)} {base cols : ℕ} (hcols : cols ≠ 0)
    (hrow : base + cols ≤ input.length) :
    Ends (rowMax input base cols) fun best => ∃ j < cols, input[base + j]? = some best := by
  have hfirst : base < input.length := by omega
  refine (access_ends hfirst).bind fun first hfound => ?_
  refine forLoop_keeps (fun i hi best hbest => ?_) ⟨0, by omega, by simpa using hfound⟩
  have hin : base + (i + 1) < input.length := by omega
  refine (access_ends hin).bind fun value hvalue => ?_
  refine .ok ?_
  rcases max_eq best value with hmax | hmax
  · rw [hmax]
    exact hbest
  · exact ⟨i + 1, by omega, by rw [hmax, hvalue]⟩

variable (hlaws : HostFloat.Lawful HostFloat.Nonnegative HostFloat.Positive)

include hlaws

theorem rowExp_ends
    {input out : List (BitVec 32)} {base cols size : ℕ} {best : BitVec 32}
    (hrow : base + cols ≤ input.length) (hsize : out.length = size) (hout : base + cols ≤ size)
    (hbest : ∃ j < cols, input[base + j]? = some best) :
    Ends (rowExp input base cols best out) fun result =>
      result.1.length = size ∧ HostFloat.Positive result.2 := by
  obtain ⟨j, hj, hfound⟩ := hbest
  -- the sum is positive once the largest element is added
  suffices hloop : Ends (rowExp input base cols best out) fun state =>
      state.1.length = size ∧ HostFloat.Nonnegative state.2 ∧
        (j < cols → HostFloat.Positive state.2) from
    hloop.mono fun result h => ⟨h.1, h.2.2 hj⟩
  refine @forLoop_ends _ _ cols _ (fun i state => state.1.length = size ∧
    HostFloat.Nonnegative state.2 ∧ (j < i → HostFloat.Positive state.2)) ?_ (out, 0)
    ⟨hsize, hlaws.zero, by omega⟩
  intro col hcol state ⟨hlength, hnonnegative, hpositive⟩
  have hin : base + col < input.length := by omega
  refine (access_ends hin).bind fun value hvalue => ?_
  refine (update_ends _ (show base + col < size by omega) hlength).bind fun next hnext => ?_
  have hpower := hlaws.exp_nonnegative (sub value best)
  refine .ok ⟨hnext, hlaws.add_nonnegative _ _ hnonnegative hpower, fun hlt => ?_⟩
  by_cases heq : j = col
  · subst heq
    rw [hvalue] at hfound
    obtain rfl := Option.some.inj hfound
    exact hlaws.add_positive_right _ _ hnonnegative (hlaws.exp_sub_self value)
  · exact hlaws.add_positive_left _ _ (hpositive (by omega)) hpower

theorem softmaxRowsF32_ends
    {input : List (BitVec 32)} {rows cols : ℕ} (hshape : rows ≠ 0 ∧ cols ≠ 0)
    (hinput : input.length = rows * cols) :
    Ends (softmaxRowsF32 input rows cols) fun out => out.length = rows * cols := by
  refine (demand_ends hshape).bind fun _ _ => (expectSize_ends hinput).bind fun _ _ => ?_
  refine forLoop_keeps (fun row hrow out hout => ?_) (by rw [List.length_replicate, hinput])
  have hend : row * cols + cols ≤ rows * cols := by
    rw [← Nat.succ_mul]
    exact Nat.mul_le_mul_right cols hrow
  refine (rowMax_ends hshape.2 (hinput ▸ hend)).bind fun best hbest => ?_
  refine (rowExp_ends hlaws (hinput ▸ hend) hout hend hbest).bind fun result hresult => ?_
  refine (demand_ends hresult.2.isZero).bind fun _ _ => ?_
  refine forLoop_keeps (fun col hcol out hout => ?_) hresult.1
  have hin : row * cols + col < rows * cols := by omega
  exact (access_any (hout ▸ hin)).bind fun value _ => update_ends _ hin hout

end Softmax

end TensorGolden

end VisualCpu
