import Mathlib.Data.BitVec
import VisualCpu.Library.Loops
import VisualCpu.Library.IndexTypes

/-!
# Graph packages

The tables of a compiled graph (`AiGraphPackage`), `validate_ai_graph_package` with the
contracts of the operations, and the resolution of a package with bounded dynamic shapes
by a table of runtime shapes.
-/

namespace VisualCpu

open Checks

/-- `AiDataType`; a byte that names no type stays as it is. -/
inductive AiDataType where
  | invalid | int8 | int16 | int32 | fp16 | bf16 | fp32
  | other (code : BitVec 8) (h : 6 < code)
deriving DecidableEq

namespace AiDataType

def toCode : AiDataType → BitVec 8
  | invalid => 0
  | int8 => 1
  | int16 => 2
  | int32 => 3
  | fp16 => 4
  | bf16 => 5
  | fp32 => 6
  | other code _ => code

def ofCode (code : BitVec 8) : AiDataType :=
  if h : 6 < code then .other code h
  else
    match code.toNat with
    | 0 => invalid
    | 1 => int8
    | 2 => int16
    | 3 => int32
    | 4 => fp16
    | 5 => bf16
    | _ => fp32

@[simp] theorem ofCode_toCode (dtype : AiDataType) : ofCode dtype.toCode = dtype := by
  cases dtype with
  | other code h => exact dif_pos h
  | _ => rfl

/-- `ai_dtype_supported`. -/
def supported : AiDataType → Bool
  | int8 | int16 | int32 | fp16 | bf16 | fp32 => true
  | _ => false

/-- `ai_dtype_size_bytes`. -/
def sizeBytes : AiDataType → ℕ
  | int8 => 1
  | int16 | fp16 | bf16 => 2
  | int32 | fp32 => 4
  | _ => 0

end AiDataType

inductive AiTensorRole where
  | invalid | input | output | weight | intermediate | constant
  | other (code : BitVec 8) (h : 5 < code)
deriving DecidableEq

namespace AiTensorRole

def toCode : AiTensorRole → BitVec 8
  | invalid => 0
  | input => 1
  | output => 2
  | weight => 3
  | intermediate => 4
  | constant => 5
  | other code _ => code

def ofCode (code : BitVec 8) : AiTensorRole :=
  if h : 5 < code then .other code h
  else
    match code.toNat with
    | 0 => invalid
    | 1 => input
    | 2 => output
    | 3 => weight
    | 4 => intermediate
    | _ => constant

@[simp] theorem ofCode_toCode (role : AiTensorRole) : ofCode role.toCode = role := by
  cases role with
  | other code h => exact dif_pos h
  | _ => rfl

/-- `ai_tensor_role_supported`. -/
def supported : AiTensorRole → Bool
  | input | output | weight | intermediate | constant => true
  | _ => false

end AiTensorRole

inductive AiOpCode where
  | invalid | gemm | conv2d | eltwiseRelu | poolMax | reduceSum | layoutTranspose | softmax
  | other (code : BitVec 8) (h : 7 < code)
deriving DecidableEq

namespace AiOpCode

def toCode : AiOpCode → BitVec 8
  | invalid => 0
  | gemm => 1
  | conv2d => 2
  | eltwiseRelu => 3
  | poolMax => 4
  | reduceSum => 5
  | layoutTranspose => 6
  | softmax => 7
  | other code _ => code

def ofCode (code : BitVec 8) : AiOpCode :=
  if h : 7 < code then .other code h
  else
    match code.toNat with
    | 0 => invalid
    | 1 => gemm
    | 2 => conv2d
    | 3 => eltwiseRelu
    | 4 => poolMax
    | 5 => reduceSum
    | 6 => layoutTranspose
    | _ => softmax

@[simp] theorem ofCode_toCode (opcode : AiOpCode) : ofCode opcode.toCode = opcode := by
  cases opcode with
  | other code h => exact dif_pos h
  | _ => rfl

/-- `ai_opcode_supported`. -/
def supported : AiOpCode → Bool
  | gemm | conv2d | eltwiseRelu | poolMax | reduceSum | layoutTranspose | softmax => true
  | _ => false

def requiresBinaryInputs : AiOpCode → Bool
  | gemm | conv2d => true
  | _ => false

def requiresUnaryInput : AiOpCode → Bool
  | eltwiseRelu | poolMax | reduceSum | layoutTranspose | softmax => true
  | _ => false

end AiOpCode

inductive AiShapeMode where
  | static | dynamicBounded
  | other (code : BitVec 8) (h : 1 < code)
deriving DecidableEq

namespace AiShapeMode

def toCode : AiShapeMode → BitVec 8
  | static => 0
  | dynamicBounded => 1
  | other code _ => code

def ofCode (code : BitVec 8) : AiShapeMode :=
  if h : 1 < code then .other code h else if code = 0 then static else dynamicBounded

@[simp] theorem ofCode_toCode (mode : AiShapeMode) : ofCode mode.toCode = mode := by
  cases mode with
  | other code h => exact dif_pos h
  | _ => rfl

/-- `ai_shape_mode_supported`. -/
def supported : AiShapeMode → Bool
  | static | dynamicBounded => true
  | other _ _ => false

end AiShapeMode

inductive AiTrainingMode where
  | inference | trainingReserved
  | other (code : BitVec 8) (h : 1 < code)
deriving DecidableEq

namespace AiTrainingMode

def toCode : AiTrainingMode → BitVec 8
  | inference => 0
  | trainingReserved => 1
  | other code _ => code

def ofCode (code : BitVec 8) : AiTrainingMode :=
  if h : 1 < code then .other code h else if code = 0 then inference else trainingReserved

@[simp] theorem ofCode_toCode (mode : AiTrainingMode) : ofCode mode.toCode = mode := by
  cases mode with
  | other code h => exact dif_pos h
  | _ => rfl

end AiTrainingMode

def kAiInvalidTensorIndex : BitVec 16 := 0xffff

/-- A value for each of the four axes. -/
def axes {α : Type} (a b c d : α) : Vector α 4 := #v[a, b, c, d]

structure AiTensorMetadata where
  dtype : AiDataType
  role : AiTensorRole
  rank : BitVec 8
  (dims tileDims : Vector (BitVec 32) 4)
deriving DecidableEq

structure AiOpDescriptor where
  opcode : AiOpCode
  (inputDtype accumDtype : AiDataType)
  (input0 input1 input2 output : BitVec 16)
  attrs : Vector (BitVec 32) 4
deriving DecidableEq

structure AiDependencyEdge where
  (sourceOp targetOp : BitVec 16)
deriving DecidableEq

structure AiMemoryPlanEntry where
  tensorIndex : BitVec 16
  (systemOffset scratchpadOffset byteSize scratchpadBytes : BitVec 32)
deriving DecidableEq

structure AiDynamicTensorMetadata where
  tensorIndex : BitVec 16
  maxTensorBytes : BitVec 32
deriving DecidableEq

structure AiRuntimeShapeEntry where
  tensorIndex : BitVec 16
  rank : BitVec 8
  dims : Vector (BitVec 32) 4
deriving DecidableEq

structure AiGraphPackage where
  shapeMode : AiShapeMode
  trainingMode : AiTrainingMode
  scratchpadBudgetBytes : BitVec 32
  tensors : List AiTensorMetadata
  ops : List AiOpDescriptor
  dependencies : List AiDependencyEdge
  memoryPlan : List AiMemoryPlanEntry
  dynamicTensors : List AiDynamicTensorMetadata
deriving DecidableEq

/-- The product of the first dimensions, modulo 2^64. -/
def elementCount (rank : BitVec 8) (dims : Vector (BitVec 32) 4) : BitVec 64 :=
  (dims.toList.take rank.toNat).foldl (fun count dim => count * dim.setWidth 64) 1

/-- The product of the first dimensions. -/
def exactElementCount (rank : BitVec 8) (dims : Vector (BitVec 32) 4) : ℕ :=
  (dims.toList.take rank.toNat).foldl (fun count dim => count * dim.toNat) 1

namespace AiTensorMetadata

variable (tensor : AiTensorMetadata)

/-- `tensor_element_count`. -/
def elementCount : BitVec 64 := VisualCpu.elementCount tensor.rank tensor.dims

/-- `tensor_byte_size`. -/
def byteSize : BitVec 64 := tensor.elementCount * BitVec.ofNat 64 tensor.dtype.sizeBytes

def exactByteSize : ℕ := exactElementCount tensor.rank tensor.dims * tensor.dtype.sizeBytes

end AiTensorMetadata

def sameShape (lhs rhs : AiTensorMetadata) : Bool := lhs.rank == rhs.rank && lhs.dims == rhs.dims

/-- `compatible_accumulator_dtype`. -/
def compatibleAccumulatorDtype (inputDtype accumDtype : AiDataType) : Bool :=
  match inputDtype with
  | .int8 | .int16 => accumDtype == .int32
  | .fp16 | .bf16 => accumDtype == .fp32
  | .int32 | .fp32 => accumDtype == inputDtype
  | _ => false

def validateGemmContract (lhs rhs output : AiTensorMetadata) (op : AiOpDescriptor) :
    Except String Unit := do
  check (lhs.rank = 2 ∧ rhs.rank = 2 ∧ output.rank = 2) "GEMM tensor shape rank is invalid"
  check (lhs.dims.get 1 = rhs.dims.get 0 ∧ output.dims.get 0 = lhs.dims.get 0 ∧
      output.dims.get 1 = rhs.dims.get 1)
    "GEMM tensor shape is inconsistent"
  check (lhs.dtype = op.inputDtype ∧ rhs.dtype = op.inputDtype)
    "GEMM input tensor dtype is inconsistent"
  check (¬((op.inputDtype = .int8 ∨ op.inputDtype = .int16) ∧ output.dtype ≠ .int32))
    "GEMM output dtype is inconsistent"
  check (¬((op.inputDtype = .fp16 ∨ op.inputDtype = .bf16) ∧ output.dtype ≠ .fp32))
    "GEMM output dtype is inconsistent"
  check (¬(op.inputDtype = .fp32 ∧ output.dtype ≠ .fp32)) "GEMM output dtype is inconsistent"

def validateConvContract (input kernel output : AiTensorMetadata) (op : AiOpDescriptor) :
    Except String Unit := do
  check (input.rank = 2 ∧ kernel.rank = 2 ∧ output.rank = 2) "Conv2d tensor shape rank is invalid"
  check (kernel.dims.get 0 ≤ input.dims.get 0 ∧ kernel.dims.get 1 ≤ input.dims.get 1 ∧
      output.dims.get 0 = input.dims.get 0 - kernel.dims.get 0 + 1 ∧
      output.dims.get 1 = input.dims.get 1 - kernel.dims.get 1 + 1)
    "Conv2d tensor shape is inconsistent"
  check (input.dtype = op.inputDtype ∧ kernel.dtype = op.inputDtype ∧ output.dtype = .int32)
    "Conv2d tensor dtype is inconsistent"

variable (input output : AiTensorMetadata)

variable (op : AiOpDescriptor)

def validateReluContract :
    Except String Unit := do
  check (sameShape input output) "EltwiseRelu tensor shape is inconsistent"
  check (input.dtype = output.dtype ∧ input.dtype = op.inputDtype)
    "EltwiseRelu tensor dtype is inconsistent"

/-- The number of positions of a window in a dimension. -/
def poolExtent (dim window stride : BitVec 32) : BitVec 32 := 1 + (dim - window) / stride

/-- A pool with a zero window or stride passes; its execution is a fault. -/
def validatePoolContract :
    Except String Unit := do
  check (input.rank = 2 ∧ output.rank = 2 ∧ input.dtype = .fp32 ∧ output.dtype = .fp32)
    "PoolMax tensor shape or dtype is inconsistent"
  if op.attrs.get 0 = 0 ∨ op.attrs.get 1 = 0 ∨ op.attrs.get 2 = 0 ∨ op.attrs.get 3 = 0 then .ok ()
  else do
    check (op.attrs.get 0 ≤ input.dims.get 0 ∧ op.attrs.get 1 ≤ input.dims.get 1)
      "PoolMax tensor shape is inconsistent"
    check (output.dims.get 0 = poolExtent (input.dims.get 0) (op.attrs.get 0) (op.attrs.get 2) ∧
        output.dims.get 1 = poolExtent (input.dims.get 1) (op.attrs.get 1) (op.attrs.get 3))
      "PoolMax tensor shape is inconsistent"

def validateReduceContract :
    Except String Unit := do
  check (input.rank = 2 ∧ output.rank = 1 ∧ output.dims.get 0 = input.dims.get 0)
    "ReduceSum tensor shape is inconsistent"
  check (input.dtype = .int32 ∧ output.dtype = .int32 ∧ op.inputDtype = .int32)
    "ReduceSum tensor dtype is inconsistent"

def validateLayoutContract :
    Except String Unit := do
  check (input.rank = 2 ∧ output.rank = 2 ∧ output.dims.get 0 = input.dims.get 1 ∧
      output.dims.get 1 = input.dims.get 0)
    "LayoutTranspose tensor shape is inconsistent"
  check (input.dtype = .int32 ∧ output.dtype = .int32 ∧ op.inputDtype = .int32)
    "LayoutTranspose tensor dtype is inconsistent"

def validateSoftmaxContract (shapeMode : AiShapeMode) (input output : AiTensorMetadata)
    (op : AiOpDescriptor) : Except String Unit := do
  check (shapeMode = .static) "Softmax only supports static shape"
  check (input.rank = 2 ∧ output.rank = 2 ∧ sameShape input output)
    "Softmax tensor shape is inconsistent"
  check (input.dtype = .fp32 ∧ output.dtype = .fp32 ∧ op.inputDtype = .fp32 ∧
      op.accumDtype = .fp32)
    "Softmax tensor dtype is inconsistent"

def AiTensorMetadata.validateAxis (tensor : AiTensorMetadata) (axis : Fin 4) : Except String Unit :=
  if axis.val < tensor.rank.toNat then do
    check (tensor.dims.get axis ≠ 0) "tensor dimension must be non-zero"
    check (tensor.tileDims.get axis ≠ 0 ∧ tensor.tileDims.get axis ≤ tensor.dims.get axis)
      "tensor tile is out of range"
  else
    check (tensor.dims.get axis = 0 ∧ tensor.tileDims.get axis = 0)
      "tensor trailing dims/tile dims must be zero"

def AiTensorMetadata.validate (tensor : AiTensorMetadata) : Except String Unit := do
  check tensor.dtype.supported "tensor dtype is unsupported"
  check tensor.role.supported "tensor role is unsupported"
  check (tensor.rank ≠ 0 ∧ tensor.rank ≤ 4) "tensor rank is out of range"
  checkAll tensor.validateAxis (List.finRange 4)
  check (tensor.byteSize ≠ 0 ∧ tensor.byteSize ≤ 0xffffffff) "tensor byte size is invalid"

namespace AiGraphPackage

variable (package : AiGraphPackage)

def tensor? (index : BitVec 16) : Option AiTensorMetadata := package.tensors[index.toNat]?

/-- The plan of a tensor; a package with two plans for a tensor is rejected. -/
def memoryPlanOf (index : BitVec 16) : Option AiMemoryPlanEntry :=
  package.memoryPlan.find? fun entry => entry.tensorIndex == index

variable (op : AiOpDescriptor)

/-- `validate_op_tensor_contract`, after the checks of the tensor indices. -/
def validateOpTensorContract : Except String Unit :=
  match op.opcode, package.tensor? op.input0, package.tensor? op.input1,
    package.tensor? op.output with
  | .gemm, some lhs, some rhs, some output => validateGemmContract lhs rhs output op
  | .conv2d, some input, some kernel, some output => validateConvContract input kernel output op
  | .eltwiseRelu, some input, _, some output => validateReluContract input output op
  | .poolMax, some input, _, some output => validatePoolContract input output op
  | .reduceSum, some input, _, some output => validateReduceContract input output op
  | .layoutTranspose, some input, _, some output => validateLayoutContract input output op
  | .softmax, some input, _, some output =>
    validateSoftmaxContract package.shapeMode input output op
  | _, _, _, _ => .error "opcode is unsupported"

/-- The loop over the operations. -/
def validateOp : Except String Unit := do
  check op.opcode.supported "opcode is unsupported"
  check op.inputDtype.supported "opcode input dtype is unsupported"
  check (op.accumDtype.supported ∧ compatibleAccumulatorDtype op.inputDtype op.accumDtype)
    "opcode accumulator dtype is incompatible"
  check (op.output.toNat < package.tensors.length) "opcode output tensor index is out of range"
  check (op.opcode.requiresBinaryInputs → op.input0.toNat < package.tensors.length ∧
      op.input1.toNat < package.tensors.length ∧ op.input2 = kAiInvalidTensorIndex)
    "opcode binary tensor indexes are invalid"
  check (op.opcode.requiresUnaryInput → op.input0.toNat < package.tensors.length ∧
      op.input1 = kAiInvalidTensorIndex ∧ op.input2 = kAiInvalidTensorIndex)
    "opcode unary tensor indexes are invalid"
  package.validateOpTensorContract op

def validateDependency (edge : AiDependencyEdge) : Except String Unit :=
  check (edge.sourceOp.toNat < package.ops.length ∧ edge.targetOp.toNat < package.ops.length ∧
      edge.sourceOp ≠ edge.targetOp)
    "dependency edge is invalid"

def validateMemoryPlan (planned : List (BitVec 16)) : List AiMemoryPlanEntry → Except String Unit
  | [] => .ok ()
  | entry :: rest =>
    match package.tensor? entry.tensorIndex with
    | none => .error "memory plan tensor index is out of range"
    | some tensor => do
      check (entry.tensorIndex ∉ planned) "duplicate memory plan entry for tensor"
      check (entry.byteSize.setWidth 64 = tensor.byteSize)
        "memory plan byte size does not match tensor"
      check (entry.scratchpadBytes ≠ 0 ∧ entry.scratchpadBytes ≤ entry.byteSize)
        "scratchpad bytes are invalid"
      check (entry.scratchpadOffset.toNat + entry.scratchpadBytes.toNat ≤
          package.scratchpadBudgetBytes.toNat)
        "scratchpad budget is exceeded"
      validateMemoryPlan (entry.tensorIndex :: planned) rest

/-- `require_memory_plan`. -/
def requireMemoryPlan (index : BitVec 16) : Except String Unit :=
  check (index = kAiInvalidTensorIndex ∨
      index.toNat < package.tensors.length ∧ (package.memoryPlanOf index).isSome)
    "missing memory plan for opcode tensor"

def requireMemoryPlans : Except String Unit := do
  package.requireMemoryPlan op.input0
  package.requireMemoryPlan op.input1
  package.requireMemoryPlan op.input2
  package.requireMemoryPlan op.output

def validateDynamicTensors : List AiDynamicTensorMetadata → Except String Unit
  | [] => .ok ()
  | metadata :: rest =>
    match package.tensor? metadata.tensorIndex with
    | none => .error "dynamic tensor index is out of range"
    | some tensor => do
      check (metadata.maxTensorBytes ≠ 0) "dynamic tensor max tensor bytes must be non-zero"
      check (∀ later ∈ rest, later.tensorIndex ≠ metadata.tensorIndex)
        "dynamic tensor metadata is duplicated"
      check (tensor.byteSize ≠ 0 ∧ tensor.byteSize ≤ 0xffffffff ∧
          metadata.maxTensorBytes.setWidth 64 = tensor.byteSize)
        "dynamic tensor max tensor bytes do not match tensor"
      check ((package.memoryPlanOf metadata.tensorIndex).map (·.byteSize) =
          some metadata.maxTensorBytes)
        "dynamic tensor memory plan bytes do not match max tensor bytes"
      validateDynamicTensors rest

/-- `validate_ai_graph_package`. -/
def validate : Except String Unit := do
  check package.shapeMode.supported "shape mode is unsupported"
  check (package.trainingMode = .inference) "training mode is reserved"
  check (package.scratchpadBudgetBytes ≠ 0) "scratchpad budget must be non-zero"
  check (package.tensors ≠ []) "graph package requires at least one tensor"
  check (package.ops ≠ []) "graph package requires at least one opcode entry"
  check (package.memoryPlan ≠ []) "graph package requires at least one memory plan entry"
  checkAll AiTensorMetadata.validate package.tensors
  checkAll package.validateOp package.ops
  checkAll package.validateDependency package.dependencies
  package.validateMemoryPlan [] package.memoryPlan
  checkAll package.requireMemoryPlans package.ops
  if package.shapeMode = .static then
    check (package.dynamicTensors = [])
      "dynamic tensor metadata requires dynamic_bounded shape mode"
  else do
    check (package.dynamicTensors ≠ []) "dynamic tensor metadata is required"
    package.validateDynamicTensors package.dynamicTensors

end AiGraphPackage

end VisualCpu
