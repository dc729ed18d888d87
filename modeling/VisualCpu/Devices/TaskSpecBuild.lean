import VisualCpu.Devices.TaskSpecParser
import VisualCpu.Library.Tables

/-!
# The files of a task spec

The arithmetic, the memory plan and the files of the specs of a matrix product and of a small
convolution network, as the script computes them with unbounded integers.
-/

namespace VisualCpu.TaskSpecLowering

open ByteCodec Checks Loops

/-- An element of a list; an index outside it raises. -/
def itemAt {α : Type} (items : List α) (i : ℕ) : Except Stop α :=
  match items[i]? with
  | none => .error .indexError
  | some item => .ok item

def elementAt (rows : List (List ℤ)) (row col : ℕ) : Except Stop ℤ := do
  itemAt (← itemAt rows row) col

/-- The inner loop of `gemm_i8_i32`. -/
def gemmTotal (lhsRows rhsRows : List (List ℤ)) (kDim row col : ℕ) : Except Stop ℤ :=
  forLoop kDim (fun k total => do
    let lhs ← elementAt lhsRows row k
    let rhs ← elementAt rhsRows k col
    .ok (total + lhs * rhs)) 0

/-- `gemm_i8_i32`. -/
def gemmI8I32 (lhsRows rhsRows : List (List ℤ)) : Except Stop (List ℤ) := do
  let kDim := (← itemAt lhsRows 0).length
  let colCount := (← itemAt rhsRows 0).length
  forLoop lhsRows.length (fun row result =>
    forLoop colCount (fun col result => do
      let total ← gemmTotal lhsRows rhsRows kDim row col
      .ok (result ++ [total])) result) []

/-- The loops of `conv2d_i8_i32` over the kernel. -/
def convTotal (inputRows kernelRows : List (List ℤ)) (kernelCols row col : ℕ) : Except Stop ℤ :=
  forLoop kernelRows.length (fun kernelRow total =>
    forLoop kernelCols (fun kernelCol total => do
      let input ← elementAt inputRows (row + kernelRow) (col + kernelCol)
      let kernel ← elementAt kernelRows kernelRow kernelCol
      .ok (total + input * kernel)) total) 0

def convRow (inputRows kernelRows : List (List ℤ)) (kernelCols outputCols row : ℕ) :
    Except Stop (List ℤ) :=
  forLoop outputCols (fun col outputRow => do
    let total ← convTotal inputRows kernelRows kernelCols row col
    .ok (outputRow ++ [total])) []

/-- `conv2d_i8_i32`; a range that would be negative is empty. -/
def conv2dI8I32 (inputRows kernelRows : List (List ℤ)) : Except Stop (List (List ℤ)) := do
  let inputCols := (← itemAt inputRows 0).length
  let kernelCols := (← itemAt kernelRows 0).length
  forLoop (inputRows.length + 1 - kernelRows.length) (fun row result => do
    let outputRow ← convRow inputRows kernelRows kernelCols (inputCols + 1 - kernelCols) row
    .ok (result ++ [outputRow])) []

def reluI32 (rows : List (List ℤ)) : List (List ℤ) := rows.map fun row => row.map (max 0)

/-- `transpose_rows`: the columns up to the length of the shortest row. -/
def transposeRows (rows : List (List ℤ)) : List (List ℤ) :=
  (List.range ((rows.map List.length).min?.getD 0)).map fun col => rows.filterMap (·[col]?)

def reduceSumRows (rows : List (List ℤ)) : List ℤ := rows.map List.sum

/-- `struct.pack` of signed integers of one size. -/
def packSignedAll (count : ℕ) (values : List ℤ) : Except Stop Bytes :=
  match values.mapM (packSigned EncodeError.structError count) with
  | .error error => .error (.encode error)
  | .ok packed => .ok packed.flatten

def flattenI8Matrix (rows : List (List ℤ)) : Except Stop Bytes := packSignedAll 1 rows.flatten

def dtypeSizes : List (String × ℤ) :=
  [("int8", 1), ("int16", 2), ("int32", 4), ("fp16", 2), ("bf16", 2), ("fp32", 4)]

def product (values : Vector ℤ 4) (rank : ℤ) : Except Stop ℤ :=
  forLoop rank.toNat (fun i count => do
    let value ← itemAt values.toList i
    .ok (count * value)) 1

def tensorByteSize (tensor : Tensor) : Except Stop ℤ := do
  let count ← product tensor.dims tensor.rank
  match dtypeSizes.lookup tensor.dtype with
  | none => .error (.encode (.keyError tensor.dtype))
  | some size => .ok (count * size)

def alignUp (value alignment : ℤ) : ℤ :=
  if alignment ≤ 1 then value else (value + alignment - 1) / alignment * alignment

def planFrom (alignment : ℤ) : ℕ → ℤ → List Tensor → Except Stop (List MemoryPlan × ℤ)
  | _, offset, [] => .ok ([], offset)
  | index, offset, tensor :: rest => do
    let offset := alignUp offset alignment
    let byteSize ← tensorByteSize tensor
    let (plans, last) ← planFrom alignment (index + 1) (offset + byteSize) rest
    .ok ({ tensorIndex := index, systemOffset := 0, scratchpadOffset := offset, byteSize,
           scratchpadBytes := byteSize } :: plans, last)

variable (tensors : List Tensor)

def buildSequentialMemoryPlan (alignment : ℤ) (alignTotal : Bool) :
    Except Stop (List MemoryPlan × ℤ) := do
  let (plans, offset) ← planFrom alignment 0 0 tensors
  .ok (plans, if alignTotal then alignUp offset alignment else offset)

/-- The place that an index names in a list; a negative one counts from the end. -/
def place (length : ℕ) (index : ℤ) : Except Stop ℕ :=
  if 0 ≤ index then
    if index < length then .ok index.toNat else .error .indexError
  else if -length ≤ index then .ok (length + index).toNat
  else .error .indexError

def resizeEntry (index byteSize : ℤ) : List MemoryPlan → Option (List MemoryPlan)
  | [] => none
  | entry :: rest =>
    match resizeEntry index byteSize rest with
    | some rest => some (entry :: rest)
    | none =>
      if entry.tensorIndex = index then
        some ({ entry with byteSize, scratchpadBytes := byteSize } :: rest)
      else none

def Tensor.reshape (tensor : Tensor) (shape : RuntimeShape) : Tensor :=
  { tensor with
    rank := shape.rank
    dims := Vector.ofFn fun axis : Fin 4 => if axis.val < shape.rank then shape.dims.get axis else 0
    tileDims := Vector.ofFn fun axis : Fin 4 =>
      if axis.val < shape.rank then min (tensor.tileDims.get axis) (shape.dims.get axis) else 0 }

/-- One round of the loop over the runtime shapes. -/
def resolveRuntimeShape (state : List Tensor × List MemoryPlan) (shape : RuntimeShape) :
    Except Stop (List Tensor × List MemoryPlan) := do
  let (tensors, memoryPlan) := state
  check (shape.tensorIndex < tensors.length)
    (.exit ("runtime shape tensor index is out of range: " ++ toString shape.tensorIndex))
  let i ← place tensors.length shape.tensorIndex
  let tensor := (← itemAt tensors i).reshape shape
  check (memoryPlan.any fun entry => entry.tensorIndex = shape.tensorIndex)
    (.exit ("runtime shape tensor memory plan is missing: " ++ toString shape.tensorIndex))
  let runtimeBytes ← tensorByteSize tensor
  check (0 < runtimeBytes)
    (.exit ("runtime shape bytes are invalid: tensor_index=" ++ toString shape.tensorIndex))
  .ok (tensors.set i tensor,
    (resizeEntry shape.tensorIndex runtimeBytes memoryPlan).getD memoryPlan)

/-- `resolve_memory_plan_for_runtime_shapes`. -/
def resolveMemoryPlanForRuntimeShapes (memoryPlan : List MemoryPlan)
    (runtimeShapes : List RuntimeShape) : Except Stop (List Tensor × List MemoryPlan) :=
  runtimeShapes.foldlM resolveRuntimeShape (tensors, memoryPlan)

def manifestLines (name graphPackage runtimeShapeTable : String)
    (inputs outputs expectedOutputs : List String) (maxTicks sourceTag : ℤ) : List String :=
  ["format=ai_proto_manifest_v1", "name=" ++ name, "graph_package=" ++ graphPackage,
    "runtime_shape_table=" ++ runtimeShapeTable] ++
  inputs.map ("input=" ++ ·) ++ outputs.map ("output=" ++ ·) ++
  expectedOutputs.map ("expected_output=" ++ ·) ++
  ["max_ticks=" ++ toString maxTicks, "source_tag=" ++ toString sourceTag]

/-- The line of an entry in `write_memory_plan_summary`. -/
def memoryPlanLine (entry : MemoryPlan) : Except Stop String := do
  check (entry.tensorIndex < tensors.length)
    (.exit ("memory plan entry tensor index is out of range: " ++ toString entry.tensorIndex))
  let tensor ← itemAt tensors (← place tensors.length entry.tensorIndex)
  .ok ("memory_plan_entry tensor_index=" ++ toString entry.tensorIndex ++ " role=" ++ tensor.role ++
    " dtype=" ++ tensor.dtype ++ " system_offset=" ++ toString entry.systemOffset ++
    " scratchpad_offset=" ++ toString entry.scratchpadOffset ++ " byte_size=" ++
    toString entry.byteSize ++ " scratchpad_bytes=" ++ toString entry.scratchpadBytes)

def memoryPlanSummary (shapeMode : String) (scratchpadBudgetBytes : ℤ) (tensors : List Tensor)
    (memoryPlan : List MemoryPlan) : Except Stop (List String) := do
  let entries ← memoryPlan.mapM (memoryPlanLine tensors)
  .ok (["format=ai_proto_memory_plan_v1", "shape_mode=" ++ shapeMode,
    "scratchpad_budget_bytes=" ++ toString scratchpadBudgetBytes,
    "tensor_count=" ++ toString tensors.length,
    "memory_plan_entries=" ++ toString memoryPlan.length] ++ entries)

/-- A step of the encoder. -/
def encoded {α : Type} : Except EncodeError α → Except Stop α
  | .error error => .error (.encode error)
  | .ok a => .ok a

/-- The bound of a dynamic tensor is its size in the package. -/
def dynamicTensor (index : ℕ) : Except Stop DynamicTensor := do
  let bytes ← tensorByteSize (← itemAt tensors index)
  .ok { tensorIndex := index, maxTensorBytes := bytes }

/-- What does not depend on the contents of the matrices: the package, the table of runtime
shapes, the plans and their summaries. -/
structure DynamicPlan where
  scratchpadBudget : ℤ
  memoryPlan : List MemoryPlan
  resolvedTensors : List Tensor
  resolvedMemoryPlan : List MemoryPlan
  (graph runtimeShapeTable : Bytes)
  (summary resolvedSummary : List String)

/-- The part of `build_dynamic_gemm_like` and `build_dynamic_cnn_like` without contents. -/
def planDynamic (ops : List Op) (dependencies : List (ℤ × ℤ))
    (dynamicIndices : List ℕ) (runtimeShapes : List RuntimeShape) : Except Stop DynamicPlan := do
  let (memoryPlan, scratchpadBudget) ← buildSequentialMemoryPlan tensors 16 true
  let dynamicTensors ← dynamicIndices.mapM (dynamicTensor tensors)
  let graph ← encoded (serializeGraphPackage
    { scratchpadBudgetBytes := scratchpadBudget
      tensors, ops, dependencies, memoryPlan
      shapeMode := "dynamic_bounded"
      dynamicTensors := some dynamicTensors })
  let runtimeShapeTable ← encoded (serializeRuntimeShapeTable runtimeShapes)
  let (resolvedTensors, resolvedMemoryPlan) ←
    resolveMemoryPlanForRuntimeShapes tensors memoryPlan runtimeShapes
  let summary ← memoryPlanSummary "dynamic_bounded" scratchpadBudget tensors memoryPlan
  let resolvedSummary ←
    memoryPlanSummary "static" scratchpadBudget resolvedTensors resolvedMemoryPlan
  .ok { scratchpadBudget, memoryPlan, resolvedTensors, resolvedMemoryPlan, graph,
        runtimeShapeTable, summary, resolvedSummary }

/-- The files of a spec: bytes, and the lines of the texts. -/
structure LoweredFiles where
  plan : DynamicPlan
  (input0 input1 output0Expected : Bytes)
  manifest : List String

variable (spec : MatrixTaskSpec)

def lowerContents (outputValues : List ℤ) (plan : DynamicPlan) :
    Except Stop LoweredFiles := do
  let input0 ← flattenI8Matrix spec.input0Rows
  let input1 ← flattenI8Matrix spec.input1Rows
  let output0Expected ← packSignedAll 4 outputValues
  let file (suffix : String) : String := spec.name ++ "." ++ suffix
  .ok
    { plan, input0, input1, output0Expected
      manifest := manifestLines spec.name (file "graph.bin") (file "runtime_shape.bin")
        [file "input0.bin", file "input1.bin"] [file "output0.actual.bin"]
        [file "output0.expected.bin"] spec.maxTicks spec.sourceTag }

def gemmTensors : List Tensor :=
  [{ dtype := "int8", role := "input", rank := 2, dims := #v[2, 8, 0, 0],
     tileDims := #v[1, 8, 0, 0] },
   { dtype := "int8", role := "weight", rank := 2, dims := #v[8, 4, 0, 0],
     tileDims := #v[8, 4, 0, 0] },
   { dtype := "int32", role := "output", rank := 2, dims := #v[2, 4, 0, 0],
     tileDims := #v[1, 4, 0, 0] }]

def gemmOps : List Op :=
  [{ opcode := "gemm", inputDtype := "int8", accumDtype := "int32", input0 := 0, input1 := 1,
     input2 := 0xffff, output := 2 }]

def gemmShapes (rowCount : ℕ) : List RuntimeShape :=
  [{ tensorIndex := 0, rank := 2, dims := #v[rowCount, 8, 0, 0] },
   { tensorIndex := 2, rank := 2, dims := #v[rowCount, 4, 0, 0] }]

def planGemm (rowCount : ℕ) : Except Stop DynamicPlan :=
  planDynamic gemmTensors gemmOps [] [0, 2] (gemmShapes rowCount)

/-- `build_dynamic_gemm_like`. -/
def buildDynamicGemmLike : Except Stop LoweredFiles := do
  let outputValues ← gemmI8I32 spec.input0Rows spec.input1Rows
  let plan ← planGemm spec.input0Rows.length
  lowerContents spec outputValues plan

def cnnTensors : List Tensor :=
  [{ dtype := "int8", role := "input", rank := 2, dims := #v[4, 4, 0, 0],
     tileDims := #v[2, 4, 0, 0] },
   { dtype := "int8", role := "weight", rank := 2, dims := #v[2, 2, 0, 0],
     tileDims := #v[2, 2, 0, 0] },
   { dtype := "int32", role := "intermediate", rank := 2, dims := #v[3, 3, 0, 0],
     tileDims := #v[2, 3, 0, 0] },
   { dtype := "int32", role := "intermediate", rank := 2, dims := #v[3, 3, 0, 0],
     tileDims := #v[2, 3, 0, 0] },
   { dtype := "int32", role := "intermediate", rank := 2, dims := #v[3, 3, 0, 0],
     tileDims := #v[3, 2, 0, 0] },
   { dtype := "int32", role := "output", rank := 1, dims := #v[3, 0, 0, 0],
     tileDims := #v[2, 0, 0, 0] }]

def cnnOps : List Op :=
  [{ opcode := "conv2d", inputDtype := "int8", accumDtype := "int32", input0 := 0, input1 := 1,
     input2 := 0xffff, output := 2 },
   { opcode := "eltwise_relu", inputDtype := "int32", accumDtype := "int32", input0 := 2,
     input1 := 0xffff, input2 := 0xffff, output := 3 },
   { opcode := "layout_transpose", inputDtype := "int32", accumDtype := "int32", input0 := 3,
     input1 := 0xffff, input2 := 0xffff, output := 4 },
   { opcode := "reduce_sum", inputDtype := "int32", accumDtype := "int32", input0 := 4,
     input1 := 0xffff, input2 := 0xffff, output := 5 }]

def cnnShapes (inputRows inputCols reducedRows reducedCols : ℕ) : List RuntimeShape :=
  [{ tensorIndex := 0, rank := 2, dims := #v[inputRows, inputCols, 0, 0] },
   { tensorIndex := 2, rank := 2, dims := #v[reducedRows, reducedCols, 0, 0] },
   { tensorIndex := 3, rank := 2, dims := #v[reducedRows, reducedCols, 0, 0] },
   { tensorIndex := 4, rank := 2, dims := #v[reducedCols, reducedRows, 0, 0] },
   { tensorIndex := 5, rank := 1, dims := #v[reducedRows, 0, 0, 0] }]

def planCnn (inputRows inputCols reducedRows reducedCols : ℕ) : Except Stop DynamicPlan :=
  planDynamic cnnTensors cnnOps [(0, 1), (1, 2), (2, 3)] [0, 2, 3, 4, 5]
    (cnnShapes inputRows inputCols reducedRows reducedCols)

/-- `build_dynamic_cnn_like`. -/
def buildDynamicCnnLike : Except Stop LoweredFiles := do
  let inputCols := (← itemAt spec.input0Rows 0).length
  let conv ← conv2dI8I32 spec.input0Rows spec.input1Rows
  let outputValues := reduceSumRows (transposeRows (reluI32 conv))
  let reducedCols := (← itemAt conv 0).length
  let plan ← planCnn spec.input0Rows.length inputCols conv.length reducedCols
  lowerContents spec outputValues plan

end VisualCpu.TaskSpecLowering
