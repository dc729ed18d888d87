import VisualCpu.Devices.Scratchpad

/-!
# The operations of a graph on the scratchpad

`ai_execute_gemm_op`, `ai_execute_conv_op` and `ai_execute_elementwise_op`. An operation
checks its tensors first, which does not look at the scratchpad, and then reads its inputs,
computes and writes its output.
-/

namespace VisualCpu

open Checks TensorGolden

/-- The elements of a vector of bytes, least significant byte first. -/
def decodeValues (size : ℕ) (bytes : List (BitVec 8)) : List (BitVec 32) :=
  (List.range (bytes.length / size)).map fun i =>
    (List.range size).foldr
      (fun j value => value <<< 8 ||| (bytes.getD (i * size + j) 0).setWidth 32) 0

def encodeValues (size : ℕ) (values : List (BitVec 32)) : List (BitVec 8) :=
  values.flatMap fun (value : BitVec 32) =>
    (List.range size).map fun j => (value >>> (8 * j)).setWidth 8

namespace AiScratchpad

variable (pad : AiScratchpad)

def readTensorValues (size : ℕ) (entry : AiMemoryPlanEntry) : KernelRun (List (BitVec 32)) := do
  check (entry.byteSize.toNat % size = 0) (.fault .execution "tensor byte size is misaligned")
  match ← pad.read entry.scratchpadOffset entry.byteSize.toNat with
  | none => .error (.fault .execution "could not read tensor bytes from scratchpad")
  | some bytes => .ok (decodeValues size bytes)

def readSecondValues (size : ℕ) : Option AiMemoryPlanEntry → KernelRun (List (BitVec 32))
  | none => .ok []
  | some entry => pad.readTensorValues size entry

def writeTensorValues (size : ℕ) (entry : AiMemoryPlanEntry) (values : List (BitVec 32)) :
    KernelRun AiScratchpad := do
  check (values.length * size = entry.byteSize.toNat)
    (.fault .execution "tensor byte size does not match compute output")
  match ← pad.write entry.scratchpadOffset (encodeValues size values) with
  | none => .error (.fault .execution "could not write tensor bytes into scratchpad")
  | some pad => .ok pad

end AiScratchpad

namespace AiGraphPackage

variable (package : AiGraphPackage)

def tensorAt (index : BitVec 16) : KernelRun AiTensorMetadata :=
  match package.tensor? index with
  | none => .error .outOfBounds
  | some tensor => .ok tensor

def requiredEntry (index : BitVec 16) : KernelRun AiMemoryPlanEntry := do
  check (index.toNat < package.tensors.length)
    (.fault .invalidDescriptor "tensor memory plan is missing")
  match package.memoryPlanOf index with
  | none => .error (.fault .invalidDescriptor "tensor memory plan is missing")
  | some entry => do
    check (entry.byteSize ≤ entry.scratchpadBytes)
      (.fault .invalidDescriptor "partial tensor scratchpad residency is not supported")
    .ok entry

end AiGraphPackage

/-- What an operation does on the scratchpad. A unary operation has no second input, and its
arithmetic gets an empty one. -/
structure Kernel where
  input0 : AiMemoryPlanEntry
  input1 : Option AiMemoryPlanEntry
  output : AiMemoryPlanEntry
  (inputSize outputSize : ℕ)
  compute : List (BitVec 32) → List (BitVec 32) → KernelRun (List (BitVec 32))

/-- An operation after its checks. A type that no case of a switch names leaves the
scratchpad as it is. -/
structure OpPlan where
  kernel : Option Kernel
  finish : KernelRun Unit := .ok ()
  retiredOps : BitVec 64

def Kernel.run (kernel : Kernel) (pad : AiScratchpad) : KernelRun AiScratchpad := do
  let lhs ← pad.readTensorValues kernel.inputSize kernel.input0
  let rhs ← pad.readSecondValues kernel.inputSize kernel.input1
  let values ← kernel.compute lhs rhs
  pad.writeTensorValues kernel.outputSize kernel.output values

def OpPlan.runKernel (plan : OpPlan) (pad : AiScratchpad) : KernelRun AiScratchpad :=
  match plan.kernel with
  | none => .ok pad
  | some kernel => kernel.run pad

def OpPlan.run (plan : OpPlan) (pad : AiScratchpad) : KernelRun (AiScratchpad × BitVec 64) := do
  let pad ← plan.runKernel pad
  plan.finish
  .ok (pad, plan.retiredOps)

namespace AiGraphPackage

variable (package : AiGraphPackage)

def product (factors : List (BitVec 32)) : BitVec 64 :=
  factors.foldl (fun count factor => count * factor.setWidth 64) 1

section Operations

variable [HostFloat]

/-- An arithmetic for matrices with the size of its input elements. -/
abbrev GemmArithmetic :=
  ℕ × (List (BitVec 32) → List (BitVec 32) → ℕ → ℕ → ℕ → KernelRun (List (BitVec 32)))

/-- The switch of `ai_execute_gemm_op`. -/
def gemmArithmetic (input output : AiDataType) : KernelRun (Option GemmArithmetic) :=
  match input with
  | .int8 => do
    check (output = .int32) (.fault .unsupportedDtype "INT8 GEMM requires INT32 output")
    .ok (some (1, gemmI8ToI32))
  | .int16 => do
    check (output = .int32) (.fault .unsupportedDtype "INT16 GEMM requires INT32 output")
    .ok (some (2, gemmI16ToI32))
  | .fp16 => do
    check (output = .fp32) (.fault .unsupportedDtype "FP16 GEMM requires FP32 output")
    .ok (some (2, gemmFp16ToFp32))
  | .bf16 => do
    check (output = .fp32) (.fault .unsupportedDtype "BF16 GEMM requires FP32 output")
    .ok (some (2, gemmBf16ToFp32))
  | .fp32 => do
    check (output = .fp32) (.fault .unsupportedDtype "FP32 GEMM requires FP32 output")
    .ok (some (4, gemmF32))
  | .int32 | .invalid => .error (.fault .unsupportedDtype "GEMM dtype is unsupported")
  | .other _ _ => .ok none

variable (op : AiOpDescriptor)

/-- `ai_execute_gemm_op`. -/
def executeGemm : KernelRun OpPlan := do
  let lhs ← package.tensorAt op.input0
  let rhs ← package.tensorAt op.input1
  let output ← package.tensorAt op.output
  check (lhs.rank = 2 ∧ rhs.rank = 2 ∧ output.rank = 2)
    (.fault .illegalOp "GEMM requires rank-2 tensors")
  let m := lhs.dims.get 0
  let k := lhs.dims.get 1
  let n := rhs.dims.get 1
  check (k ≠ 0 ∧ rhs.dims.get 0 ≠ 0 ∧ m ≠ 0 ∧ n ≠ 0 ∧ k = rhs.dims.get 0 ∧ output.dims.get 0 = m ∧
      output.dims.get 1 = n)
    (.fault .illegalOp "GEMM tensor shapes are inconsistent")
  check (lhs.dtype = op.inputDtype ∧ rhs.dtype = op.inputDtype)
    (.fault .unsupportedDtype "GEMM input tensor dtype does not match opcode")
  let lhsEntry ← package.requiredEntry op.input0
  let rhsEntry ← package.requiredEntry op.input1
  let outputEntry ← package.requiredEntry op.output
  let arithmetic ← gemmArithmetic op.inputDtype output.dtype
  .ok
    { kernel := arithmetic.map fun arithmetic =>
        { input0 := lhsEntry
          input1 := some rhsEntry
          output := outputEntry
          inputSize := arithmetic.1
          outputSize := 4
          compute := fun lhs rhs => arithmetic.2 lhs rhs m.toNat k.toNat n.toNat }
      finish := check (output.elementCount = product [m, n])
        (.fault .illegalOp "GEMM output element count is inconsistent")
      retiredOps := product [m, k, n] }

abbrev ConvArithmetic :=
  ℕ × (List (BitVec 32) → ℕ → ℕ → List (BitVec 32) → ℕ → ℕ → KernelRun (List (BitVec 32)))

/-- The switch of `ai_execute_conv_op`. -/
def convArithmetic : AiDataType → KernelRun (Option ConvArithmetic)
  | .int8 => .ok (some (1, conv2dValidI8ToI32))
  | .int16 => .ok (some (2, conv2dValidI16ToI32))
  | .int32 | .fp16 | .bf16 | .fp32 | .invalid =>
    .error (.fault .unsupportedDtype "Conv2d dtype is unsupported")
  | .other _ _ => .ok none

/-- `ai_execute_conv_op`. -/
def executeConv : KernelRun OpPlan := do
  let input ← package.tensorAt op.input0
  let kernel ← package.tensorAt op.input1
  let output ← package.tensorAt op.output
  check (input.rank = 2 ∧ kernel.rank = 2 ∧ output.rank = 2)
    (.fault .illegalOp "Conv2d requires rank-2 tensors")
  let inputH := input.dims.get 0
  let inputW := input.dims.get 1
  let kernelH := kernel.dims.get 0
  let kernelW := kernel.dims.get 1
  check (kernelH ≠ 0 ∧ kernelW ≠ 0 ∧ kernelH ≤ inputH ∧ kernelW ≤ inputW)
    (.fault .illegalOp "Conv2d kernel shape is invalid")
  let outputH := inputH - kernelH + 1
  let outputW := inputW - kernelW + 1
  check (output.dims.get 0 = outputH ∧ output.dims.get 1 = outputW)
    (.fault .illegalOp "Conv2d output shape is inconsistent")
  check (input.dtype = op.inputDtype ∧ kernel.dtype = op.inputDtype ∧ output.dtype = .int32)
    (.fault .unsupportedDtype "Conv2d tensor dtype does not match opcode")
  let inputEntry ← package.requiredEntry op.input0
  let kernelEntry ← package.requiredEntry op.input1
  let outputEntry ← package.requiredEntry op.output
  let arithmetic ← convArithmetic op.inputDtype
  .ok
    { kernel := arithmetic.map fun arithmetic =>
        { input0 := inputEntry
          input1 := some kernelEntry
          output := outputEntry
          inputSize := arithmetic.1
          outputSize := 4
          compute := fun input kernel =>
            arithmetic.2 input inputH.toNat inputW.toNat kernel kernelH.toNat kernelW.toNat }
      retiredOps := product [outputH, outputW, kernelH, kernelW] }

def unaryPlan (input output : AiMemoryPlanEntry) (size : ℕ)
    (compute : List (BitVec 32) → KernelRun (List (BitVec 32))) (retiredOps : BitVec 64) :
    OpPlan where
  kernel := some
    { input0 := input
      input1 := none
      output
      inputSize := size
      outputSize := size
      compute := fun values _ => compute values }
  retiredOps

/-- The switch of `execute_relu`: the size of an element and when it is replaced by zero. -/
def reluArithmetic : AiDataType → KernelRun (Option (ℕ × (BitVec 32 → Bool)))
  | .int8 => .ok (some (1, fun value => (value.setWidth 8).msb))
  | .int16 => .ok (some (2, fun value => (value.setWidth 16).msb))
  | .int32 => .ok (some (4, fun value => value.msb))
  | .fp32 => .ok (some (4, fun value => HostFloat.lt value 0))
  | .fp16 | .bf16 | .invalid => .error (.fault .unsupportedDtype "EltwiseRelu dtype is unsupported")
  | .other _ _ => .ok none

def reluValues (negative : BitVec 32 → Bool) (values : List (BitVec 32)) : List (BitVec 32) :=
  values.map fun value => if negative value then 0 else value

/-- `execute_relu`. -/
def executeRelu : KernelRun OpPlan := do
  let input ← package.tensorAt op.input0
  let output ← package.tensorAt op.output
  check (input.rank = output.rank ∧ input.dims = output.dims ∧ input.dtype = output.dtype ∧
      input.dtype = op.inputDtype)
    (.fault .illegalOp "EltwiseRelu tensor shape or dtype is inconsistent")
  let inputEntry ← package.requiredEntry op.input0
  let outputEntry ← package.requiredEntry op.output
  match ← reluArithmetic input.dtype with
  | none => .ok { kernel := none, retiredOps := output.elementCount }
  | some (size, negative) =>
    .ok (unaryPlan inputEntry outputEntry size (fun values => .ok (reluValues negative values))
      output.elementCount)

/-- `execute_pool_max`. -/
def executePoolMax : KernelRun OpPlan := do
  let input ← package.tensorAt op.input0
  let output ← package.tensorAt op.output
  check (input.rank = 2 ∧ output.rank = 2 ∧ input.dtype = .fp32 ∧ output.dtype = .fp32)
    (.fault .unsupportedDtype "PoolMax requires FP32 rank-2 tensors")
  let windowH := op.attrs.get 0
  let windowW := op.attrs.get 1
  let strideH := op.attrs.get 2
  let strideW := op.attrs.get 3
  check (windowH ≠ 0 ∧ windowW ≠ 0 ∧ strideH ≠ 0 ∧ strideW ≠ 0 ∧ windowH ≤ input.dims.get 0 ∧
      windowW ≤ input.dims.get 1)
    (.fault .illegalOp "PoolMax attrs are invalid")
  check (output.dims.get 0 = poolExtent (input.dims.get 0) windowH strideH ∧
      output.dims.get 1 = poolExtent (input.dims.get 1) windowW strideW)
    (.fault .illegalOp "PoolMax output shape is inconsistent")
  let inputEntry ← package.requiredEntry op.input0
  let outputEntry ← package.requiredEntry op.output
  .ok (unaryPlan inputEntry outputEntry 4
    (fun values => maxPool2dF32 values (input.dims.get 0).toNat (input.dims.get 1).toNat
      windowH.toNat windowW.toNat strideH.toNat strideW.toNat)
    (output.elementCount * windowH.setWidth 64 * windowW.setWidth 64))

omit [HostFloat] in
/-- `execute_reduce_sum`. -/
def executeReduceSum : KernelRun OpPlan := do
  let input ← package.tensorAt op.input0
  let output ← package.tensorAt op.output
  check (input.rank = 2 ∧ output.rank = 1 ∧ input.dtype = .int32 ∧ output.dtype = .int32 ∧
      output.dims.get 0 = input.dims.get 0)
    (.fault .illegalOp "ReduceSum tensor shape or dtype is inconsistent")
  let inputEntry ← package.requiredEntry op.input0
  let outputEntry ← package.requiredEntry op.output
  .ok (unaryPlan inputEntry outputEntry 4
    (fun values => reduceSumRowsI32 values (input.dims.get 0).toNat (input.dims.get 1).toNat)
    (product [input.dims.get 0, input.dims.get 1]))

omit [HostFloat] in
/-- `execute_layout_transpose`. -/
def executeLayoutTranspose : KernelRun OpPlan := do
  let input ← package.tensorAt op.input0
  let output ← package.tensorAt op.output
  check (input.rank = 2 ∧ output.rank = 2 ∧ input.dtype = .int32 ∧ output.dtype = .int32 ∧
      output.dims.get 0 = input.dims.get 1 ∧ output.dims.get 1 = input.dims.get 0)
    (.fault .illegalOp "LayoutTranspose tensor shape or dtype is inconsistent")
  let inputEntry ← package.requiredEntry op.input0
  let outputEntry ← package.requiredEntry op.output
  .ok (unaryPlan inputEntry outputEntry 4
    (fun values => transpose2dI32 values (input.dims.get 0).toNat (input.dims.get 1).toNat)
    (product [input.dims.get 0, input.dims.get 1]))

/-- `execute_softmax`. -/
def executeSoftmax : KernelRun OpPlan := do
  let input ← package.tensorAt op.input0
  let output ← package.tensorAt op.output
  check (input.rank = 2 ∧ output.rank = 2 ∧ input.dims = output.dims ∧ input.dtype = .fp32 ∧
      output.dtype = .fp32 ∧ op.inputDtype = .fp32 ∧ op.accumDtype = .fp32)
    (.fault .illegalOp "Softmax tensor shape or dtype is inconsistent")
  let inputEntry ← package.requiredEntry op.input0
  let outputEntry ← package.requiredEntry op.output
  .ok (unaryPlan inputEntry outputEntry 4
    (fun values => softmaxRowsF32 values (input.dims.get 0).toNat (input.dims.get 1).toNat)
    output.elementCount)

/-- The switch of the scheduler over the operations. -/
def planOp : KernelRun OpPlan :=
  match op.opcode with
  | .gemm => package.executeGemm op
  | .conv2d => package.executeConv op
  | .eltwiseRelu => package.executeRelu op
  | .poolMax => package.executePoolMax op
  | .reduceSum => package.executeReduceSum op
  | .layoutTranspose => package.executeLayoutTranspose op
  | .softmax => package.executeSoftmax op
  | .invalid => .error (.fault .illegalOp "invalid opcode in graph scheduler")
  | .other _ _ => .error (.fault .execution "")

def executeOp (pad : AiScratchpad) :
    KernelRun (AiScratchpad × BitVec 64) := do
  let plan ← package.planOp op
  plan.run pad

end Operations

end AiGraphPackage

end VisualCpu
