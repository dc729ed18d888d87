import VisualCpu.Devices.GraphCodec
import VisualCpu.Library.ByteWriter

/-!
# The package encoder of the task specs

`serialize_graph_package` and `serialize_runtime_shape_table` of the script that lowers task
specs, whose fields are unbounded integers and names. The parser of the device gives back
every package and every table of shapes that the script writes.
-/

namespace VisualCpu.TaskSpecLowering

open ByteCodec ByteWriter AiGraphPackage

def graphMagic : ℤ := 0x31475041
def graphVersion : ℤ := 1
def graphBaseHeaderBytes : ℤ := 40
def graphExtendedHeaderBytes : ℤ := 56
def tensorRecordBytes : ℤ := 36
def opRecordBytes : ℤ := 28
def dependencyRecordBytes : ℤ := 4
def memoryPlanRecordBytes : ℤ := 20
def dynamicTensorRecordBytes : ℤ := 8

def dtypeCodes : List (String × ℤ) :=
  [("int8", 1), ("int16", 2), ("int32", 3), ("fp16", 4), ("bf16", 5), ("fp32", 6)]

def roleCodes : List (String × ℤ) :=
  [("input", 1), ("output", 2), ("weight", 3), ("intermediate", 4), ("constant", 5)]

def opcodeCodes : List (String × ℤ) :=
  [("gemm", 1), ("conv2d", 2), ("eltwise_relu", 3), ("pool_max", 4), ("reduce_sum", 5),
    ("layout_transpose", 6), ("softmax", 7)]

def shapeModeCodes : List (String × ℤ) := [("static", 0), ("dynamic_bounded", 1)]

def trainingModeCodes : List (String × ℤ) := [("inference", 0), ("training_reserved", 1)]

structure Tensor where
  (dtype role : String)
  rank : ℤ
  (dims tileDims : Vector ℤ 4)

structure Op where
  (opcode inputDtype accumDtype : String)
  (input0 input1 input2 output : ℤ)
  attrs : Vector ℤ 4 := axes 0 0 0 0

structure MemoryPlan where
  (tensorIndex systemOffset scratchpadOffset byteSize scratchpadBytes : ℤ)

structure DynamicTensor where
  (tensorIndex maxTensorBytes : ℤ)

structure RuntimeShape where
  (tensorIndex rank : ℤ)
  dims : Vector ℤ 4

/-- The arguments of `serialize_graph_package`, with their defaults. -/
structure GraphArguments where
  scratchpadBudgetBytes : ℤ
  tensors : List Tensor
  ops : List Op
  dependencies : List (ℤ × ℤ)
  memoryPlan : List MemoryPlan
  shapeMode : String := "static"
  trainingMode : String := "inference"
  dynamicTensors : Option (List DynamicTensor) := none

/-- What the encoder raises. -/
inductive EncodeError where
  | structError
  | keyError (name : String)
deriving DecidableEq

def appendU8 (value : ℤ) : ByteWriter EncodeError Unit := append (packUnsigned .structError 1 value)

def appendU16 (value : ℤ) : ByteWriter EncodeError Unit :=
  append (packUnsigned .structError 2 value)

def appendU32 (value : ℤ) : ByteWriter EncodeError Unit :=
  append (packUnsigned .structError 4 value)

def appendI32 (value : ℤ) : ByteWriter EncodeError Unit := append (packSigned .structError 4 value)

/-- The entry of a dictionary. -/
def codeOf (codes : List (String × ℤ)) (name : String) : ByteWriter EncodeError ℤ :=
  match codes.lookup name with
  | none => raise (.keyError name)
  | some code => pure code

def appendTensor (tensor : Tensor) : ByteWriter EncodeError Unit := do
  appendU8 (← codeOf dtypeCodes tensor.dtype)
  appendU8 (← codeOf roleCodes tensor.role)
  appendU8 tensor.rank
  appendU8 0
  tensor.dims.toList.forM appendU32
  tensor.tileDims.toList.forM appendU32

def appendOp (op : Op) : ByteWriter EncodeError Unit := do
  appendU8 (← codeOf opcodeCodes op.opcode)
  appendU8 (← codeOf dtypeCodes op.inputDtype)
  appendU8 (← codeOf dtypeCodes op.accumDtype)
  appendU8 0
  appendU16 op.input0
  appendU16 op.input1
  appendU16 op.input2
  appendU16 op.output
  op.attrs.toList.forM appendI32

def appendDependency (dependency : ℤ × ℤ) : ByteWriter EncodeError Unit := do
  appendU16 dependency.1
  appendU16 dependency.2

def appendMemoryPlan (entry : MemoryPlan) : ByteWriter EncodeError Unit := do
  appendU16 entry.tensorIndex
  appendU16 0
  appendU32 entry.systemOffset
  appendU32 entry.scratchpadOffset
  appendU32 entry.byteSize
  appendU32 entry.scratchpadBytes

def appendDynamicTensor (metadata : DynamicTensor) : ByteWriter EncodeError Unit := do
  appendU16 metadata.tensorIndex
  appendU16 0
  appendU32 metadata.maxTensorBytes

namespace GraphArguments

variable (args : GraphArguments)

/-- `dynamic_tensors or []`. -/
def dynamicTable : List DynamicTensor := args.dynamicTensors.getD []

def headerBytes : ℤ :=
  if args.shapeMode ≠ "static" ∨ args.trainingMode ≠ "inference" ∨ args.dynamicTable ≠ [] then
    graphExtendedHeaderBytes
  else graphBaseHeaderBytes

def tensorsOffset : ℤ := args.headerBytes

def opsOffset : ℤ := args.tensorsOffset + args.tensors.length * tensorRecordBytes

def dependenciesOffset : ℤ := args.opsOffset + args.ops.length * opRecordBytes

def memoryPlanOffset : ℤ :=
  args.dependenciesOffset + args.dependencies.length * dependencyRecordBytes

def dynamicTensorsOffset : ℤ :=
  args.memoryPlanOffset + args.memoryPlan.length * memoryPlanRecordBytes

def packageBytes : ℤ :=
  args.dynamicTensorsOffset + args.dynamicTable.length * dynamicTensorRecordBytes

def appendBaseHeader : ByteWriter EncodeError Unit := do
  appendU32 graphMagic
  appendU16 graphVersion
  appendU16 args.headerBytes
  appendU32 args.scratchpadBudgetBytes
  appendU16 args.tensors.length
  appendU16 args.ops.length
  appendU16 args.dependencies.length
  appendU16 args.memoryPlan.length
  appendU32 args.tensorsOffset
  appendU32 args.opsOffset
  appendU32 args.dependenciesOffset
  appendU32 args.memoryPlanOffset
  appendU32 args.packageBytes

def appendExtension : ByteWriter EncodeError Unit := do
  appendU8 (← codeOf shapeModeCodes args.shapeMode)
  appendU8 (← codeOf trainingModeCodes args.trainingMode)
  appendU16 args.dynamicTable.length
  appendU32 args.dynamicTensorsOffset
  appendU32 0
  appendU32 0

def appendHeader : ByteWriter EncodeError Unit := do
  args.appendBaseHeader
  if args.headerBytes = graphExtendedHeaderBytes then args.appendExtension else pure ()

def appendTables : ByteWriter EncodeError Unit := do
  args.tensors.forM appendTensor
  args.ops.forM appendOp
  args.dependencies.forM appendDependency
  args.memoryPlan.forM appendMemoryPlan
  args.dynamicTable.forM appendDynamicTensor

def appendPackage : ByteWriter EncodeError Unit := do
  args.appendHeader
  args.appendTables

end GraphArguments

/-- `serialize_graph_package`. -/
def serializeGraphPackage (args : GraphArguments) : Except EncodeError Bytes :=
  match args.appendPackage [] with
  | .error error => .error error
  | .ok (_, out) => .ok out

def appendRuntimeShape (shape : RuntimeShape) : ByteWriter EncodeError Unit := do
  appendU16 shape.tensorIndex
  appendU8 shape.rank
  appendU8 0
  shape.dims.toList.forM appendU32

/-- `serialize_runtime_shape_table`. -/
def serializeRuntimeShapeTable (shapes : List RuntimeShape) : Except EncodeError Bytes :=
  match shapes.forM appendRuntimeShape [] with
  | .error error => .error error
  | .ok (_, out) => .ok out

/-- `ai_dtype_name`. -/
def aiDtypeName : AiDataType → String
  | .int8 => "int8"
  | .int16 => "int16"
  | .int32 => "int32"
  | .fp16 => "fp16"
  | .bf16 => "bf16"
  | .fp32 => "fp32"
  | .invalid => "invalid"
  | .other _ _ => "unknown"

/-- `ai_opcode_name`. -/
def aiOpcodeName : AiOpCode → String
  | .gemm => "gemm"
  | .conv2d => "conv2d"
  | .eltwiseRelu => "eltwise_relu"
  | .poolMax => "pool_max"
  | .reduceSum => "reduce_sum"
  | .layoutTranspose => "layout_transpose"
  | .softmax => "softmax"
  | .invalid => "invalid"
  | .other _ _ => "unknown"

/-- The role that the name of a role stands for. -/
def roleNamed : String → Option AiTensorRole
  | "input" => some .input
  | "output" => some .output
  | "weight" => some .weight
  | "intermediate" => some .intermediate
  | "constant" => some .constant
  | _ => none

def shapeModeNamed : String → Option AiShapeMode
  | "static" => some .static
  | "dynamic_bounded" => some .dynamicBounded
  | _ => none

def trainingModeNamed : String → Option AiTrainingMode
  | "inference" => some .inference
  | "training_reserved" => some .trainingReserved
  | _ => none

/-- Four integers with the values of four unsigned words. -/
def WordsFit (values : Vector ℤ 4) (words : Vector (BitVec 32) 4) : Prop :=
  values = words.map fun word => (word.toNat : ℤ)

instance (values : Vector ℤ 4) (words : Vector (BitVec 32) 4) : Decidable (WordsFit values words) :=
  inferInstanceAs (Decidable (values = words.map fun word => (word.toNat : ℤ)))

/-- The fields fit their widths, and the record has their values. -/
structure Tensor.Fits (tensor : Tensor) (metadata : AiTensorMetadata) : Prop where
  dtype : metadata.dtype.supported ∧ tensor.dtype = aiDtypeName metadata.dtype
  role : roleNamed tensor.role = some metadata.role
  rank : tensor.rank = metadata.rank.toNat
  dims : WordsFit tensor.dims metadata.dims
  tileDims : WordsFit tensor.tileDims metadata.tileDims

structure Op.Fits (op : Op) (descriptor : AiOpDescriptor) : Prop where
  opcode : descriptor.opcode.supported ∧ op.opcode = aiOpcodeName descriptor.opcode
  inputDtype : descriptor.inputDtype.supported ∧ op.inputDtype = aiDtypeName descriptor.inputDtype
  accumDtype : descriptor.accumDtype.supported ∧ op.accumDtype = aiDtypeName descriptor.accumDtype
  input0 : op.input0 = descriptor.input0.toNat
  input1 : op.input1 = descriptor.input1.toNat
  input2 : op.input2 = descriptor.input2.toNat
  output : op.output = descriptor.output.toNat
  attrs : op.attrs = descriptor.attrs.map BitVec.toInt

def DependencyFits (dependency : ℤ × ℤ) (edge : AiDependencyEdge) : Prop :=
  dependency.1 = edge.sourceOp.toNat ∧ dependency.2 = edge.targetOp.toNat

structure MemoryPlan.Fits (plan : MemoryPlan) (entry : AiMemoryPlanEntry) : Prop where
  tensorIndex : plan.tensorIndex = entry.tensorIndex.toNat
  systemOffset : plan.systemOffset = entry.systemOffset.toNat
  scratchpadOffset : plan.scratchpadOffset = entry.scratchpadOffset.toNat
  byteSize : plan.byteSize = entry.byteSize.toNat
  scratchpadBytes : plan.scratchpadBytes = entry.scratchpadBytes.toNat

structure DynamicTensor.Fits (dynamicTensor : DynamicTensor) (metadata : AiDynamicTensorMetadata) :
    Prop where
  tensorIndex : dynamicTensor.tensorIndex = metadata.tensorIndex.toNat
  maxTensorBytes : dynamicTensor.maxTensorBytes = metadata.maxTensorBytes.toNat

structure RuntimeShape.Fits (shape : RuntimeShape) (entry : AiRuntimeShapeEntry) : Prop where
  tensorIndex : shape.tensorIndex = entry.tensorIndex.toNat
  rank : shape.rank = entry.rank.toNat
  dims : WordsFit shape.dims entry.dims

/-- The arguments fit the widths of the encoding, and the package has their values. -/
structure GraphArguments.Fits (args : GraphArguments) (package : AiGraphPackage) : Prop where
  scratchpadBudgetBytes : args.scratchpadBudgetBytes = package.scratchpadBudgetBytes.toNat
  shapeMode : shapeModeNamed args.shapeMode = some package.shapeMode
  trainingMode : trainingModeNamed args.trainingMode = some package.trainingMode
  tensors : List.Forall₂ Tensor.Fits args.tensors package.tensors
  ops : List.Forall₂ Op.Fits args.ops package.ops
  dependencies : List.Forall₂ DependencyFits args.dependencies package.dependencies
  memoryPlan : List.Forall₂ MemoryPlan.Fits args.memoryPlan package.memoryPlan
  dynamicTensors : List.Forall₂ DynamicTensor.Fits args.dynamicTable package.dynamicTensors
  counts : package.Counts

variable {value : ℤ} {x : BitVec 32}

theorem writes_appendU8 {x : BitVec 8} (h : value = x.toNat) : Writes (appendU8 value) [x] () := by
  rw [h]
  exact writes_append (packUnsigned_u8 _ x)

theorem writes_appendU16 {x : BitVec 16} (h : value = x.toNat) :
    Writes (appendU16 value) (writeU16 x) () := by
  rw [h]
  exact writes_append (packUnsigned_u16 _ x)

theorem writes_appendU32 (h : value = x.toNat) : Writes (appendU32 value) (writeU32 x) () := by
  rw [h]
  exact writes_append (packUnsigned_u32 _ x)

theorem writes_appendI32 (h : value = x.toInt) : Writes (appendI32 value) (writeU32 x) () := by
  rw [h]
  exact writes_append (packSigned_i32 _ x)

variable {name : String} {words : Vector (BitVec 32) 4} {package : AiGraphPackage}
  {args : GraphArguments} {values : Vector ℤ 4}

theorem writes_codeOf {codes : List (String × ℤ)} {code : BitVec 8}
    (h : codes.lookup name = some (code.toNat : ℤ)) : Writes (codeOf codes name) [] code.toNat := by
  unfold codeOf
  rw [h]
  exact writes_pure _

theorem lookup_dtype {dtype : AiDataType} (h : dtype.supported ∧ name = aiDtypeName dtype) :
    dtypeCodes.lookup name = some (dtype.toCode.toNat : ℤ) := by
  obtain ⟨hsupported, rfl⟩ := h
  cases dtype with
  | invalid => cases hsupported
  | other code hcode => cases hsupported
  | _ => decide

theorem lookup_opcode {opcode : AiOpCode} (h : opcode.supported ∧ name = aiOpcodeName opcode) :
    opcodeCodes.lookup name = some (opcode.toCode.toNat : ℤ) := by
  obtain ⟨hsupported, rfl⟩ := h
  cases opcode with
  | invalid => cases hsupported
  | other code hcode => cases hsupported
  | _ => decide

theorem lookup_role {role : AiTensorRole} (h : roleNamed name = some role) :
    roleCodes.lookup name = some (role.toCode.toNat : ℤ) := by
  unfold roleNamed at h
  split at h
  all_goals first | (cases h; done) | (rw [← Option.some.inj h]; decide)

theorem lookup_shapeMode {mode : AiShapeMode} (h : shapeModeNamed name = some mode) :
    shapeModeCodes.lookup name = some (mode.toCode.toNat : ℤ) := by
  unfold shapeModeNamed at h
  split at h
  all_goals first | (cases h; done) | (rw [← Option.some.inj h]; decide)

theorem lookup_trainingMode {mode : AiTrainingMode} (h : trainingModeNamed name = some mode) :
    trainingModeCodes.lookup name = some (mode.toCode.toNat : ℤ) := by
  unfold trainingModeNamed at h
  split at h
  all_goals first | (cases h; done) | (rw [← Option.some.inj h]; decide)

theorem writes_words
    {append : ℤ → ByteWriter EncodeError Unit} {value : BitVec 32 → ℤ}
    (happend : ∀ word, Writes (append (value word)) (writeU32 word) ())
    (h : values = words.map value) :
    Writes (values.toList.forM append) (writeWords words) () := by
  have hvalues : values.toList =
      [value words[0], value words[1], value words[2], value words[3]] := by
    rw [h]
    apply List.ext_getElem
    · simp
    intro i hi hi'
    simp only [List.length_cons, List.length_nil] at hi'
    rcases (by omega : i = 0 ∨ i = 1 ∨ i = 2 ∨ i = 3) with rfl | rfl | rfl | rfl <;> simp
  have hwritten : writeWords words = writeU32 words[0] ++ (writeU32 words[1] ++
      (writeU32 words[2] ++ (writeU32 words[3] ++ []))) := by
    rw [List.append_nil]
    rfl
  rw [hvalues, hwritten]
  iterate 3 refine (happend _).bind ?_
  exact (happend _).bind (writes_pure ())

theorem writes_unsignedWords
    (h : WordsFit values words) :
    Writes (values.toList.forM appendU32) (writeWords words) () :=
  writes_words (fun _ => writes_appendU32 rfl) h

theorem writes_appendTensor {tensor : Tensor} {metadata : AiTensorMetadata}
    (h : tensor.Fits metadata) : Writes (appendTensor tensor) metadata.write () := by
  apply (writes_codeOf (lookup_dtype h.dtype)).bind
  apply (writes_appendU8 rfl).bind
  apply (writes_codeOf (lookup_role h.role)).bind
  apply (writes_appendU8 rfl).bind
  apply (writes_appendU8 h.rank).bind
  apply (writes_appendU8 (x := 0) rfl).bind
  apply (writes_unsignedWords h.dims).bind
  exact writes_unsignedWords h.tileDims

theorem writes_appendOp {op : Op} {descriptor : AiOpDescriptor} (h : op.Fits descriptor) :
    Writes (appendOp op) descriptor.write () := by
  apply (writes_codeOf (lookup_opcode h.opcode)).bind
  apply (writes_appendU8 rfl).bind
  apply (writes_codeOf (lookup_dtype h.inputDtype)).bind
  apply (writes_appendU8 rfl).bind
  apply (writes_codeOf (lookup_dtype h.accumDtype)).bind
  apply (writes_appendU8 rfl).bind
  apply (writes_appendU8 (x := 0) rfl).bind
  apply (writes_appendU16 h.input0).bind
  apply (writes_appendU16 h.input1).bind
  apply (writes_appendU16 h.input2).bind
  apply (writes_appendU16 h.output).bind
  exact writes_words (fun _ => writes_appendI32 rfl) h.attrs

theorem writes_appendDependency {dependency : ℤ × ℤ} {edge : AiDependencyEdge}
    (h : DependencyFits dependency edge) :
    Writes (appendDependency dependency) edge.write () := by
  apply (writes_appendU16 h.1).bind
  exact writes_appendU16 h.2

theorem writes_appendMemoryPlan {plan : MemoryPlan} {entry : AiMemoryPlanEntry}
    (h : plan.Fits entry) : Writes (appendMemoryPlan plan) entry.write () := by
  apply (writes_appendU16 h.tensorIndex).bind
  apply (writes_appendU16 (x := 0) rfl).bind
  apply (writes_appendU32 h.systemOffset).bind
  apply (writes_appendU32 h.scratchpadOffset).bind
  apply (writes_appendU32 h.byteSize).bind
  exact writes_appendU32 h.scratchpadBytes

theorem writes_appendDynamicTensor {dynamicTensor : DynamicTensor}
    {metadata : AiDynamicTensorMetadata} (h : dynamicTensor.Fits metadata) :
    Writes (appendDynamicTensor dynamicTensor) metadata.write () := by
  apply (writes_appendU16 h.tensorIndex).bind
  apply (writes_appendU16 (x := 0) rfl).bind
  exact writes_appendU32 h.maxTensorBytes

theorem writes_appendRuntimeShape {shape : RuntimeShape} {entry : AiRuntimeShapeEntry}
    (h : shape.Fits entry) : Writes (appendRuntimeShape shape) entry.write () := by
  apply (writes_appendU16 h.tensorIndex).bind
  apply (writes_appendU8 h.rank).bind
  apply (writes_appendU8 (x := 0) rfl).bind
  exact writes_unsignedWords h.dims

namespace GraphArguments

variable {args : GraphArguments} {package : AiGraphPackage}

theorem shapeMode_static_iff {mode : AiShapeMode} {name : String}
    (h : shapeModeNamed name = some mode) : name = "static" ↔ mode = .static := by
  unfold shapeModeNamed at h
  split at h
  · simpa using h.symm
  · rw [← Option.some.inj h]
    decide
  · cases h

theorem trainingMode_inference_iff {mode : AiTrainingMode} {name : String}
    (h : trainingModeNamed name = some mode) : name = "inference" ↔ mode = .inference := by
  unfold trainingModeNamed at h
  split at h
  · simpa using h.symm
  · rw [← Option.some.inj h]
    decide
  · cases h

theorem Fits.extended_iff (h : args.Fits package) :
    (args.shapeMode ≠ "static" ∨ args.trainingMode ≠ "inference" ∨ args.dynamicTable ≠ []) ↔
      package.requiresExtendedHeader := by
  have hdynamic : args.dynamicTable = [] ↔ package.dynamicTensors = [] := by
    rw [← List.length_eq_zero_iff, ← List.length_eq_zero_iff, h.dynamicTensors.length_eq]
  rw [ne_eq, ne_eq, ne_eq, shapeMode_static_iff h.shapeMode,
    trainingMode_inference_iff h.trainingMode, hdynamic]
  simp [requiresExtendedHeader, or_assoc]

theorem Fits.headerBytes (h : args.Fits package) :
    args.headerBytes = package.header.headerBytes.toNat := by
  unfold GraphArguments.headerBytes
  rw [headerBytes_eq]
  by_cases hextended : package.requiresExtendedHeader
  · rw [if_pos (h.extended_iff.2 hextended), if_pos hextended]
    rfl
  rw [if_neg fun hcontra => hextended (h.extended_iff.1 hcontra), if_neg hextended]
  rfl

theorem Fits.offsets (h : args.Fits package) :
    args.tensorsOffset = package.header.tensorsOffset.toNat ∧
      args.opsOffset = package.header.opsOffset.toNat ∧
      args.dependenciesOffset = package.header.dependenciesOffset.toNat ∧
      args.memoryPlanOffset = package.header.memoryPlanOffset.toNat ∧
      args.dynamicTensorsOffset = package.header.dynamicTensorsOffset.toNat ∧
      args.packageBytes = package.header.packageBytes.toNat := by
  have hoffsets := h.counts.offsets
  have hheader : args.tensorsOffset = (package.headerLength : ℤ) := by
    have hlength : package.header.tensorsOffset.toNat = package.header.headerBytes.toNat := by
      have hoffset : package.header.tensorsOffset = package.header.headerBytes.setWidth 32 := rfl
      rw [hoffset, BitVec.toNat_setWidth]
      exact Nat.mod_eq_of_lt (by omega)
    rw [tensorsOffset, h.headerBytes, ← hlength, hoffsets.tensors]
  have htensors := h.tensors.length_eq
  have hops := h.ops.length_eq
  have hdependencies := h.dependencies.length_eq
  have hmemoryPlan := h.memoryPlan.length_eq
  have hdynamic := h.dynamicTensors.length_eq
  have hopsOffset : args.opsOffset = package.header.opsOffset.toNat := by
    rw [opsOffset, hheader, hoffsets.ops, htensors, tensorRecordBytes, kTensorRecordBytes]
    omega
  have hdependenciesOffset : args.dependenciesOffset = package.header.dependenciesOffset.toNat := by
    rw [dependenciesOffset, hopsOffset, hoffsets.ops, hoffsets.dependencies, hops, opRecordBytes,
      kOpRecordBytes]
    omega
  have hmemoryPlanOffset : args.memoryPlanOffset = package.header.memoryPlanOffset.toNat := by
    rw [memoryPlanOffset, hdependenciesOffset, hoffsets.dependencies, hoffsets.memoryPlan,
      hdependencies, dependencyRecordBytes, kDependencyRecordBytes]
    omega
  have hdynamicOffset : args.dynamicTensorsOffset = package.header.dynamicTensorsOffset.toNat := by
    rw [dynamicTensorsOffset, hmemoryPlanOffset, hoffsets.memoryPlan, hoffsets.dynamicTensors,
      hmemoryPlan, memoryPlanRecordBytes, kMemoryPlanRecordBytes]
    omega
  have hbytes : args.packageBytes = package.header.packageBytes.toNat := by
    rw [packageBytes, hdynamicOffset, hoffsets.dynamicTensors, hoffsets.packageBytes, hdynamic,
      dynamicTensorRecordBytes, kDynamicTensorRecordBytes]
    omega
  refine ⟨?_, hopsOffset, hdependenciesOffset, hmemoryPlanOffset, hdynamicOffset, hbytes⟩
  rw [hheader, hoffsets.tensors]

theorem count_eq {n m : ℕ} (hlength : n = m) (hcount : m ≤ 0xffff) :
    (n : ℤ) = (BitVec.ofNat 16 m).toNat := by
  rw [hlength, toNat_count hcount]

section

variable (h : args.Fits package)

include h

theorem Fits.writes_baseHeader : Writes args.appendBaseHeader package.header.writeBase () := by
  obtain ⟨htensors, hops, hdependencies, hmemoryPlan, -, hbytes⟩ := h.offsets
  apply (writes_appendU32 (x := kAiGraphPackageMagic) rfl).bind
  apply (writes_appendU16 (x := kAiGraphPackageVersion) rfl).bind
  apply (writes_appendU16 h.headerBytes).bind
  apply (writes_appendU32 h.scratchpadBudgetBytes).bind
  apply (writes_appendU16 (count_eq h.tensors.length_eq h.counts.tensors)).bind
  apply (writes_appendU16 (count_eq h.ops.length_eq h.counts.ops)).bind
  apply (writes_appendU16 (count_eq h.dependencies.length_eq h.counts.dependencies)).bind
  apply (writes_appendU16 (count_eq h.memoryPlan.length_eq h.counts.memoryPlan)).bind
  apply (writes_appendU32 htensors).bind
  apply (writes_appendU32 hops).bind
  apply (writes_appendU32 hdependencies).bind
  apply (writes_appendU32 hmemoryPlan).bind
  exact writes_appendU32 hbytes

theorem Fits.writes_extension : Writes args.appendExtension package.header.writeExtension () := by
  obtain ⟨-, -, -, -, hdynamic, -⟩ := h.offsets
  apply (writes_codeOf (lookup_shapeMode h.shapeMode)).bind
  apply (writes_appendU8 rfl).bind
  apply (writes_codeOf (lookup_trainingMode h.trainingMode)).bind
  apply (writes_appendU8 rfl).bind
  apply (writes_appendU16 (count_eq h.dynamicTensors.length_eq h.counts.dynamicTensors)).bind
  apply (writes_appendU32 hdynamic).bind
  apply (writes_appendU32 (x := 0) rfl).bind
  exact writes_appendU32 (x := 0) rfl

theorem Fits.writes_header : Writes args.appendHeader package.header.write () := by
  have hiff : args.headerBytes = graphExtendedHeaderBytes ↔
      package.header.headerBytes = kAiGraphPackageExtendedHeaderBytes := by
    rw [h.headerBytes, BitVec.toNat_eq, graphExtendedHeaderBytes,
      show kAiGraphPackageExtendedHeaderBytes.toNat = 56 from rfl]
    omega
  unfold ParsedHeader.write appendHeader
  by_cases hextended : package.header.headerBytes = kAiGraphPackageExtendedHeaderBytes
  · rw [if_pos hextended, if_pos (hiff.2 hextended)]
    exact h.writes_baseHeader.bind h.writes_extension
  rw [if_neg hextended, if_neg fun hcontra => hextended (hiff.1 hcontra),
    ← List.append_nil package.header.writeBase]
  exact h.writes_baseHeader.bind (writes_pure ())

theorem Fits.writes_tables :
    Writes args.appendTables (package.tensors.flatMap AiTensorMetadata.write ++
      (package.ops.flatMap AiOpDescriptor.write ++
        (package.dependencies.flatMap AiDependencyEdge.write ++
          (package.memoryPlan.flatMap AiMemoryPlanEntry.write ++
            package.dynamicTensors.flatMap AiDynamicTensorMetadata.write)))) () := by
  have htensors : Writes (args.tensors.forM appendTensor)
      (package.tensors.flatMap AiTensorMetadata.write) () :=
    Writes.forM (fun _ _ hfits => writes_appendTensor hfits) h.tensors
  have hops : Writes (args.ops.forM appendOp) (package.ops.flatMap AiOpDescriptor.write) () :=
    Writes.forM (fun _ _ hfits => writes_appendOp hfits) h.ops
  have hdependencies : Writes (args.dependencies.forM appendDependency)
      (package.dependencies.flatMap AiDependencyEdge.write) () :=
    Writes.forM (fun _ _ hfits => writes_appendDependency hfits) h.dependencies
  have hmemoryPlan : Writes (args.memoryPlan.forM appendMemoryPlan)
      (package.memoryPlan.flatMap AiMemoryPlanEntry.write) () :=
    Writes.forM (fun _ _ hfits => writes_appendMemoryPlan hfits) h.memoryPlan
  have hdynamic : Writes (args.dynamicTable.forM appendDynamicTensor)
      (package.dynamicTensors.flatMap AiDynamicTensorMetadata.write) () :=
    Writes.forM (fun _ _ hfits => writes_appendDynamicTensor hfits) h.dynamicTensors
  apply htensors.bind
  apply hops.bind
  apply hdependencies.bind
  exact hmemoryPlan.bind hdynamic

theorem Fits.writes_package : Writes args.appendPackage package.encoded () :=
  h.writes_header.bind h.writes_tables

end

end GraphArguments

theorem serializeGraphPackage_eq
    (h : args.Fits package) : serializeGraphPackage args = .ok package.encoded := by
  have hwrites : args.appendPackage [] = .ok ((), [] ++ package.encoded) := h.writes_package []
  unfold serializeGraphPackage
  rw [hwrites]
  rfl

theorem serializeRuntimeShapeTable_eq {shapes : List RuntimeShape}
    {entries : List AiRuntimeShapeEntry} (h : List.Forall₂ RuntimeShape.Fits shapes entries) :
    serializeRuntimeShapeTable shapes = .ok (entries.flatMap AiRuntimeShapeEntry.write) := by
  have hwrites : shapes.forM appendRuntimeShape [] =
      .ok ((), [] ++ entries.flatMap AiRuntimeShapeEntry.write) :=
    have hforM : Writes (shapes.forM appendRuntimeShape)
        (entries.flatMap AiRuntimeShapeEntry.write) () :=
      Writes.forM (fun _ _ hfits => writes_appendRuntimeShape hfits) h
    hforM []
  unfold serializeRuntimeShapeTable
  rw [hwrites]
  rfl

theorem readHeader_headerBytes (package : AiGraphPackage) :
    package.readHeader.headerBytes = package.header.headerBytes := by
  rcases package.readHeader_cases with hread | ⟨hread, -⟩
  · rw [hread]
  rw [hread]
  rfl

theorem GraphArguments.Fits.headerLength
    (h : args.Fits package) : package.headerLength =
      if args.shapeMode = "static" ∧ args.trainingMode = "inference" ∧ args.dynamicTable = [] then
        40
      else 56 := by
  have hiff := h.extended_iff
  unfold AiGraphPackage.headerLength
  by_cases hbase : args.shapeMode = "static" ∧ args.trainingMode = "inference" ∧
      args.dynamicTable = []
  · have hnone : ¬package.requiresExtendedHeader := by
      intro hextended
      rcases hiff.2 hextended with hne | hne | hne
      · exact hne hbase.1
      · exact hne hbase.2.1
      · exact hne hbase.2.2
    rw [if_neg hnone, if_pos hbase]
  · have hextended : package.requiresExtendedHeader := by
      apply hiff.1
      by_contra hnone
      push Not at hnone
      exact hbase hnone
    rw [if_pos hextended, if_neg hbase]

/-- A valid package is read back from the string that the script writes for it, whose header
has 40 or 56 bytes, and so is every table of runtime shapes. -/
theorem taskSpecEncoding_roundTrips :
    (∀ (args : GraphArguments) (package : AiGraphPackage), args.Fits package →
      package.validate = .ok () →
        ∃ bytes header, serializeGraphPackage args = .ok bytes ∧
          parseAiGraphPackage bytes = .ok package ∧
          ParsedHeader.read bytes 0 = .ok (header, header.headerBytes.toNat) ∧
          header.headerBytes.toNat =
            if args.shapeMode = "static" ∧ args.trainingMode = "inference" ∧
                args.dynamicTable = [] then 40
            else 56) ∧
    ∀ (shapes : List RuntimeShape) (entries : List AiRuntimeShapeEntry),
      List.Forall₂ RuntimeShape.Fits shapes entries →
        ∃ bytes, serializeRuntimeShapeTable shapes = .ok bytes ∧
          parseAiRuntimeShapeTable bytes entries.length = .ok entries := by
  constructor
  · intro args package hfits hvalid
    have hlength : package.readHeader.headerBytes.toNat = package.headerLength := by
      rw [readHeader_headerBytes]
      unfold headerLength
      rw [headerBytes_eq]
      cases package.requiresExtendedHeader <;> rfl
    refine ⟨package.encoded, package.readHeader, serializeGraphPackage_eq hfits, ?_, ?_, ?_⟩
    · exact parse_encoded hfits.counts hvalid
    · rw [read_header, hlength]
    · rw [hlength, hfits.headerLength]
  · intro shapes entries hfits
    exact ⟨_, serializeRuntimeShapeTable_eq hfits, parse_runtimeShapeTable entries⟩

/-- The arguments for one operation on two tensors of four bytes. -/
def reluArguments : GraphArguments :=
  let tensor (role : String) : Tensor :=
    { dtype := "int8", role, rank := 1, dims := #v[4, 0, 0, 0], tileDims := #v[4, 0, 0, 0] }
  let plan (tensorIndex offset : ℤ) : MemoryPlan :=
    { tensorIndex, systemOffset := offset, scratchpadOffset := offset, byteSize := 4,
      scratchpadBytes := 4 }
  { scratchpadBudgetBytes := 8
    tensors := [tensor "input", tensor "output"]
    ops := [{
      opcode := "eltwise_relu", inputDtype := "int8", accumDtype := "int32", input0 := 0,
      input1 := 0xffff, input2 := 0xffff, output := 1 }]
    dependencies := []
    memoryPlan := [plan 0 0, plan 1 4] }

theorem reluArguments_fits : reluArguments.Fits reluPackage where
  scratchpadBudgetBytes := rfl
  shapeMode := rfl
  trainingMode := rfl
  tensors := .cons ⟨by decide, rfl, rfl, by decide +kernel, by decide +kernel⟩
    (.cons ⟨by decide, rfl, rfl, by decide +kernel, by decide +kernel⟩ .nil)
  ops := .cons ⟨by decide, by decide, by decide, rfl, rfl, rfl, rfl, by decide +kernel⟩ .nil
  dependencies := .nil
  memoryPlan := .cons ⟨rfl, rfl, rfl, rfl, rfl⟩ (.cons ⟨rfl, rfl, rfl, rfl, rfl⟩ .nil)
  dynamicTensors := .nil
  counts := ⟨by decide, by decide, by decide, by decide, by decide⟩

theorem reluArguments_roundTrips : (∃ bytes, serializeGraphPackage reluArguments = .ok bytes ∧
      parseAiGraphPackage bytes = .ok reluPackage) ∧
    ∃ bytes, serializeRuntimeShapeTable [⟨0, 1, #v[4, 0, 0, 0]⟩] = .ok bytes ∧
      parseAiRuntimeShapeTable bytes 1 = .ok [⟨0, 1, #v[4, 0, 0, 0]⟩] := by
  constructor
  · obtain ⟨bytes, -, hserialize, hparse, -⟩ :=
      taskSpecEncoding_roundTrips.1 reluArguments reluPackage reluArguments_fits (by decide)
    exact ⟨bytes, hserialize, hparse⟩
  · exact taskSpecEncoding_roundTrips.2 [⟨0, 1, #v[4, 0, 0, 0]⟩] [⟨0, 1, #v[4, 0, 0, 0]⟩]
      (.cons ⟨rfl, rfl, by decide +kernel⟩ .nil)

end VisualCpu.TaskSpecLowering
