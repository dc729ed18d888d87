import VisualCpu.Devices.GraphPackage

/-!
# The arithmetic of the tensor operations

`tensor_golden_ops.cpp`: matrix product, convolution, pooling, sums, transposition and
softmax on vectors of 32-bit words. Every access to a vector is checked, so that an index
outside it is an outcome of its own. The operations of the host on floats are a parameter.
-/

namespace VisualCpu

open Loops

inductive AiAccelFault where
  | none | invalidDescriptor | unsupportedDtype | illegalOp | dma | scratchpadOverflow | execution
  | timeout | queueNotConfigured | completionQueueFull
deriving DecidableEq

/-- How an operation stops early: with a fault that its caller handles, with an exception
that nobody handles, or by an access outside a vector. -/
inductive KernelStop where
  | fault (code : AiAccelFault) (error : String)
  | thrown (what : String)
  | outOfBounds
deriving DecidableEq

abbrev KernelRun := Except KernelStop

/-- The operations of the host on `float`, on their bit patterns. -/
class HostFloat where
  add : BitVec 32 → BitVec 32 → BitVec 32
  sub : BitVec 32 → BitVec 32 → BitVec 32
  mul : BitVec 32 → BitVec 32 → BitVec 32
  div : BitVec 32 → BitVec 32 → BitVec 32
  lt : BitVec 32 → BitVec 32 → Bool
  exp : BitVec 32 → BitVec 32

namespace HostFloat

variable [HostFloat]

def negInfinity : BitVec 32 := 0xff800000

/-- `std::max`: the first argument unless it is less. -/
def max (a b : BitVec 32) : BitVec 32 := if lt a b then b else a

/-- A float compares equal to `0.0f`. -/
def isZero (a : BitVec 32) : Bool := a &&& 0x7fffffff == 0

end HostFloat

namespace TensorGolden

/-- An element of a vector. -/
def access (values : List (BitVec 32)) (i : ℕ) : KernelRun (BitVec 32) :=
  match values[i]? with
  | none => .error .outOfBounds
  | some value => .ok value

/-- A vector with one element replaced. -/
def update (values : List (BitVec 32)) (i : ℕ) (value : BitVec 32) : KernelRun (List (BitVec 32)) :=
  if i < values.length then .ok (values.set i value) else .error .outOfBounds

/-- Throws `std::invalid_argument` unless the condition holds. -/
def demand (condition : Prop) [Decidable condition] (what : String) : KernelRun Unit :=
  if condition then .ok () else .error (.thrown what)

def expectSize (values : List (BitVec 32)) (expected : ℕ) (label : String) : KernelRun Unit :=
  demand (values.length = expected) (label ++ " has unexpected element count")

def index32 (n : ℕ) : ℕ := n % 2 ^ 32

/-- The loops that the products share; `widen` turns an element into a factor. -/
def goldenGemm (widen : BitVec 32 → BitVec 32) (mul add : BitVec 32 → BitVec 32 → BitVec 32)
    (lhs rhs : List (BitVec 32)) (m k n : ℕ) : KernelRun (List (BitVec 32)) := do
  demand (m ≠ 0 ∧ k ≠ 0 ∧ n ≠ 0) "GEMM shape must be non-zero"
  expectSize lhs (m * k) "GEMM lhs"
  expectSize rhs (k * n) "GEMM rhs"
  forLoop m (fun row out =>
    forLoop k (fun depth out => do
      let lhsVal ← access lhs (row * k + depth)
      forLoop n (fun col out => do
        let rhsVal ← access rhs (depth * n + col)
        let old ← access out (row * n + col)
        update out (row * n + col) (add old (mul (widen lhsVal) (widen rhsVal)))) out) out)
    (List.replicate (m * n) 0)

variable (value : BitVec 32)

def widenI8 : BitVec 32 := (value.setWidth 8).signExtend 32
def widenI16 : BitVec 32 := (value.setWidth 16).signExtend 32

/-- `tensor_golden_gemm_i8_to_i32`. -/
def gemmI8ToI32 := goldenGemm widenI8 (· * ·) (· + ·)

/-- `tensor_golden_gemm_i16_to_i32`. -/
def gemmI16ToI32 := goldenGemm widenI16 (· * ·) (· + ·)

/-- The loop of `tensor_golden_decode_fp16` over a subnormal mantissa. -/
def normalizeFp16 : ℕ → BitVec 32 → BitVec 32 → BitVec 32 × BitVec 32
  | 0, mantissa, exponent => (mantissa, exponent)
  | fuel + 1, mantissa, exponent =>
    if mantissa &&& 0x0400 = 0 then normalizeFp16 fuel (mantissa <<< 1) (exponent - 1)
    else (mantissa, exponent)

/-- `tensor_golden_decode_fp16`; ten rounds normalise every mantissa that is not zero. -/
def decodeFp16 : BitVec 32 :=
  let sign := (value &&& 0x8000) <<< 16
  let exponent := value >>> 10 &&& 0x1f
  let mantissa := value &&& 0x03ff
  if exponent = 0 then
    if mantissa = 0 then sign
    else
      let (mantissa, exponent) := normalizeFp16 10 mantissa exponent
      sign ||| (exponent + 1 + (127 - 15)) <<< 23 ||| (mantissa &&& 0x03ff) <<< 13
  else if exponent = 0x1f then sign ||| 0x7f800000 ||| mantissa <<< 13
  else sign ||| (exponent + (127 - 15)) <<< 23 ||| mantissa <<< 13

/-- `tensor_golden_decode_bf16`. -/
def decodeBf16 : BitVec 32 := value <<< 16

section Floats

variable [HostFloat]

/-- `tensor_golden_gemm_fp16_to_fp32`. -/
def gemmFp16ToFp32 := goldenGemm decodeFp16 HostFloat.mul HostFloat.add

/-- `tensor_golden_gemm_bf16_to_fp32`. -/
def gemmBf16ToFp32 := goldenGemm decodeBf16 HostFloat.mul HostFloat.add

/-- `tensor_golden_gemm_f32`. -/
def gemmF32 := goldenGemm id HostFloat.mul HostFloat.add

end Floats

/-- `golden_conv2d_valid_to_i32`; the indices are computed in 32 bits. -/
def goldenConv2dValid (widen : BitVec 32 → BitVec 32) (input : List (BitVec 32)) (inputH inputW : ℕ)
    (kernel : List (BitVec 32)) (kernelH kernelW : ℕ) : KernelRun (List (BitVec 32)) := do
  demand (inputH ≠ 0 ∧ inputW ≠ 0 ∧ kernelH ≠ 0 ∧ kernelW ≠ 0) "conv shape must be non-zero"
  demand (kernelH ≤ inputH ∧ kernelW ≤ inputW) "conv kernel exceeds input"
  expectSize input (inputH * inputW) "conv input"
  expectSize kernel (kernelH * kernelW) "conv kernel"
  let outputH := inputH - kernelH + 1
  let outputW := inputW - kernelW + 1
  forLoop outputH (fun oy out =>
    forLoop outputW (fun ox out => do
      let acc ← forLoop kernelH (fun ky acc =>
        forLoop kernelW (fun kx acc => do
          let inputVal ← access input (index32 ((oy + ky) * inputW + (ox + kx)))
          let kernelVal ← access kernel (index32 (ky * kernelW + kx))
          .ok (acc + widen inputVal * widen kernelVal)) acc) 0
      update out (index32 (oy * outputW + ox)) acc) out)
    (List.replicate (outputH * outputW) 0)

/-- `tensor_golden_conv2d_valid_i8_to_i32`. -/
def conv2dValidI8ToI32 := goldenConv2dValid widenI8

/-- `tensor_golden_conv2d_valid_i16_to_i32`. -/
def conv2dValidI16ToI32 := goldenConv2dValid widenI16

/-- `tensor_golden_max_pool_2d_f32`. -/
def maxPool2dF32 [HostFloat] (input : List (BitVec 32))
    (inputH inputW windowH windowW strideH strideW : ℕ) : KernelRun (List (BitVec 32)) := do
  demand (inputH ≠ 0 ∧ inputW ≠ 0 ∧ windowH ≠ 0 ∧ windowW ≠ 0 ∧ strideH ≠ 0 ∧ strideW ≠ 0)
    "max pool shape must be non-zero"
  expectSize input (inputH * inputW) "max pool input"
  demand (windowH ≤ inputH ∧ windowW ≤ inputW) "max pool window exceeds input"
  let outputH := (inputH - windowH) / strideH + 1
  let outputW := (inputW - windowW) / strideW + 1
  forLoop outputH (fun oy out =>
    forLoop outputW (fun ox out => do
      let best ← forLoop windowH (fun wy best =>
        forLoop windowW (fun wx best => do
          let iy := index32 (oy * strideH + wy)
          let ix := index32 (ox * strideW + wx)
          let value ← access input (index32 (iy * inputW + ix))
          .ok (HostFloat.max best value)) best) HostFloat.negInfinity
      update out (index32 (oy * outputW + ox)) best) out)
    (List.replicate (outputH * outputW) 0)

/-- `tensor_golden_reduce_sum_rows_i32`. -/
def reduceSumRowsI32 (input : List (BitVec 32)) (rows cols : ℕ) : KernelRun (List (BitVec 32)) := do
  demand (rows ≠ 0 ∧ cols ≠ 0) "reduce shape must be non-zero"
  expectSize input (rows * cols) "reduce input"
  forLoop rows (fun row out => do
    let acc ← forLoop cols (fun col acc => do
      let value ← access input (index32 (row * cols + col))
      .ok (acc + value)) 0
    update out row acc)
    (List.replicate rows 0)

/-- `tensor_golden_transpose_2d_i32`. -/
def transpose2dI32 (input : List (BitVec 32)) (rows cols : ℕ) : KernelRun (List (BitVec 32)) := do
  demand (rows ≠ 0 ∧ cols ≠ 0) "transpose shape must be non-zero"
  expectSize input (rows * cols) "transpose input"
  forLoop rows (fun row out =>
    forLoop cols (fun col out => do
      let value ← access input (index32 (row * cols + col))
      update out (index32 (col * rows + row)) value) out)
    (List.replicate (rows * cols) 0)

section Softmax

variable [HostFloat]

def rowMax (input : List (BitVec 32)) (base cols : ℕ) : KernelRun (BitVec 32) := do
  let first ← access input base
  forLoop (cols - 1) (fun i best => do
    let value ← access input (base + (i + 1))
    .ok (HostFloat.max best value)) first

/-- The exponentials of a row, written to the output and summed up. -/
def rowExp (input : List (BitVec 32)) (base cols : ℕ) (best : BitVec 32)
    (out : List (BitVec 32)) : KernelRun (List (BitVec 32) × BitVec 32) :=
  forLoop cols (fun col state => do
    let value ← access input (base + col)
    let power := HostFloat.exp (HostFloat.sub value best)
    let out ← update state.1 (base + col) power
    .ok (out, HostFloat.add state.2 power)) (out, 0)

/-- `tensor_golden_softmax_rows_f32`. -/
def softmaxRowsF32 (input : List (BitVec 32)) (rows cols : ℕ) : KernelRun (List (BitVec 32)) := do
  demand (rows ≠ 0 ∧ cols ≠ 0) "softmax shape must be non-zero"
  expectSize input (rows * cols) "softmax input"
  forLoop rows (fun row out => do
    let base := row * cols
    let best ← rowMax input base cols
    let (out, denominator) ← rowExp input base cols best out
    demand (HostFloat.isZero denominator = false) "softmax denominator is zero"
    forLoop cols (fun col out => do
      let value ← access out (base + col)
      update out (base + col) (HostFloat.div value denominator)) out)
    (List.replicate input.length 0)

end Softmax

end TensorGolden

end VisualCpu
