import Mathlib.Algebra.Order.Ring.Abs
import Mathlib.Tactic.Linarith
import VisualCpu.Devices.KernelValues
import VisualCpu.Devices.TaskSpecValues

/-!
# Lowered task specs on the device

The package and the shapes of an accepted spec with integers are accepted by the device, with
the same tensors and plan, and executing the package on the emitted inputs leaves the emitted
expected output.
-/

namespace VisualCpu

open List ByteCodec Checks Loops Tables TaskSpecLowering AiGraphPackage TensorGolden Except

namespace AiGraphPackage

variable (package : AiGraphPackage)

def loadEntries : List AiMemoryPlanEntry :=
  package.memoryPlan.filter fun entry =>
    (package.tensor? entry.tensorIndex).any fun tensor =>
      tensor.role ≠ .intermediate ∧ tensor.role ≠ .output

/-- The entries of the tensors that are stored after an execution. -/
def storeEntries : List AiMemoryPlanEntry :=
  package.memoryPlan.filter fun entry =>
    (package.tensor? entry.tensorIndex).any fun tensor => tensor.role = .output

/-- The planned ranges are disjoint and within the budget. -/
structure PlanSafe : Prop where
  disjoint : package.memoryPlan.Pairwise fun entry other =>
    entry.scratchpadOffset.toNat + entry.scratchpadBytes.toNat ≤ other.scratchpadOffset.toNat ∨
      other.scratchpadOffset.toNat + other.scratchpadBytes.toNat ≤ entry.scratchpadOffset.toNat
  budget : ∀ entry ∈ package.memoryPlan,
    entry.scratchpadOffset.toNat + entry.scratchpadBytes.toNat ≤ package.scratchpadBudgetBytes.toNat

instance : Decidable package.PlanSafe :=
  decidable_of_iff
    ((package.memoryPlan.Pairwise fun entry other =>
      entry.scratchpadOffset.toNat + entry.scratchpadBytes.toNat ≤ other.scratchpadOffset.toNat ∨
        other.scratchpadOffset.toNat + other.scratchpadBytes.toNat ≤
          entry.scratchpadOffset.toNat) ∧
      ∀ entry ∈ package.memoryPlan,
        entry.scratchpadOffset.toNat + entry.scratchpadBytes.toNat ≤
          package.scratchpadBudgetBytes.toNat)
    ⟨fun h => ⟨h.1, h.2⟩, fun h => ⟨h.disjoint, h.budget⟩⟩

end AiGraphPackage

def AiScratchpad.contents (pad : AiScratchpad) (entries : List AiMemoryPlanEntry) : List Bytes :=
  entries.map fun entry => pad.slice entry.scratchpadOffset.toNat entry.byteSize.toNat

namespace TaskSpecLowering

instance (tensor : Tensor) (metadata : AiTensorMetadata) : Decidable (tensor.Fits metadata) :=
  decidable_of_iff
    ((metadata.dtype.supported ∧ tensor.dtype = aiDtypeName metadata.dtype) ∧
      roleNamed tensor.role = some metadata.role ∧ tensor.rank = metadata.rank.toNat ∧
      WordsFit tensor.dims metadata.dims ∧ WordsFit tensor.tileDims metadata.tileDims)
    ⟨fun h => ⟨h.1, h.2.1, h.2.2.1, h.2.2.2.1, h.2.2.2.2⟩,
      fun h => ⟨h.dtype, h.role, h.rank, h.dims, h.tileDims⟩⟩

instance (plan : MemoryPlan) (entry : AiMemoryPlanEntry) : Decidable (plan.Fits entry) :=
  decidable_of_iff
    (plan.tensorIndex = entry.tensorIndex.toNat ∧ plan.systemOffset = entry.systemOffset.toNat ∧
      plan.scratchpadOffset = entry.scratchpadOffset.toNat ∧
      plan.byteSize = entry.byteSize.toNat ∧ plan.scratchpadBytes = entry.scratchpadBytes.toNat)
    ⟨fun h => ⟨h.1, h.2.1, h.2.2.1, h.2.2.2.1, h.2.2.2.2⟩,
      fun h => ⟨h.tensorIndex, h.systemOffset, h.scratchpadOffset, h.byteSize, h.scratchpadBytes⟩⟩

/-- The device accepts the package and the table of a plan, and resolves them to the tensors
and the ranges that the script has computed. -/
structure DynamicPlan.Accepted (plan : DynamicPlan) (package resolved : AiGraphPackage)
    (shapes : List AiRuntimeShapeEntry) : Prop where
  parses : parseAiGraphPackage plan.graph = .ok package
  shapesParse : parseAiRuntimeShapeTable plan.runtimeShapeTable package.dynamicTensors.length =
    .ok shapes
  resolves : package.resolveRuntimeShapes shapes = .ok resolved
  tensors : List.Forall₂ Tensor.Fits plan.resolvedTensors resolved.tensors
  memoryPlan : List.Forall₂ MemoryPlan.Fits plan.resolvedMemoryPlan resolved.memoryPlan
  safe : package.PlanSafe
  resolvedSafe : resolved.PlanSafe

/-- The files of a spec are accepted by the device, and on a scratchpad that holds the emitted
inputs the execution leaves the expected output. -/
def AgreesWithDevice (result : Except Stop LoweredFiles) : Prop :=
  ∃ files package resolved shapes, result = .ok files ∧
    files.plan.Accepted package resolved shapes ∧
    ∀ (_ : HostFloat) (timing : AiGraphSchedulerTiming) (pad : AiScratchpad),
      resolved.LayoutOf pad → pad.contents resolved.loadEntries = [files.input0, files.input1] →
        ∃ run, resolved.execute timing pad = some (.ok run) ∧
          run.pad.contents resolved.storeEntries = [files.output0Expected]

def integerTensor (dtype : AiDataType) (role : AiTensorRole) (rows cols tileRows tileCols : ℕ) :
    AiTensorMetadata where
  dtype
  role
  rank := 2
  dims := #v[BitVec.ofNat 32 rows, BitVec.ofNat 32 cols, 0, 0]
  tileDims := #v[BitVec.ofNat 32 tileRows, BitVec.ofNat 32 tileCols, 0, 0]

def planEntry (tensorIndex offset size : ℕ) : AiMemoryPlanEntry where
  tensorIndex := BitVec.ofNat 16 tensorIndex
  systemOffset := 0
  scratchpadOffset := BitVec.ofNat 32 offset
  byteSize := BitVec.ofNat 32 size
  scratchpadBytes := BitVec.ofNat 32 size

def gemmOp : AiOpDescriptor where
  opcode := .gemm
  inputDtype := .int8
  accumDtype := .int32
  input0 := 0
  input1 := 1
  input2 := kAiInvalidTensorIndex
  output := 2
  attrs := #v[0, 0, 0, 0]

def gemmResolved (rows : ℕ) : AiGraphPackage where
  shapeMode := .static
  trainingMode := .inference
  scratchpadBudgetBytes := 80
  tensors := [integerTensor .int8 .input rows 8 1 8, integerTensor .int8 .weight 8 4 8 4,
    integerTensor .int32 .output rows 4 1 4]
  ops := [gemmOp]
  dependencies := []
  memoryPlan := [planEntry 0 0 (rows * 8), planEntry 1 16 32, planEntry 2 48 (rows * 16)]
  dynamicTensors := []

/-- The package for at most two rows. -/
def gemmPackage : AiGraphPackage :=
  { gemmResolved 2 with
    shapeMode := .dynamicBounded
    dynamicTensors := [⟨0, 16⟩, ⟨2, 32⟩] }

def gemmEntries (rows : ℕ) : List AiRuntimeShapeEntry :=
  [⟨0, 2, #v[BitVec.ofNat 32 rows, 8, 0, 0]⟩, ⟨2, 2, #v[BitVec.ofNat 32 rows, 4, 0, 0]⟩]

/-- An operation of the convolution network after the first. -/
def unaryOp (opcode : AiOpCode) (input output : BitVec 16) : AiOpDescriptor where
  opcode
  inputDtype := .int32
  accumDtype := .int32
  input0 := input
  input1 := kAiInvalidTensorIndex
  input2 := kAiInvalidTensorIndex
  output
  attrs := #v[0, 0, 0, 0]

def convOp : AiOpDescriptor := { gemmOp with opcode := .conv2d }

variable (size : ℕ)

/-- The package of a convolution network for a square input. -/
def cnnResolved : AiGraphPackage where
  shapeMode := .static
  trainingMode := .inference
  scratchpadBudgetBytes := 192
  tensors := [integerTensor .int8 .input size size 2 (min size 4),
    integerTensor .int8 .weight 2 2 2 2,
    integerTensor .int32 .intermediate (size - 1) (size - 1) 2 (size - 1),
    integerTensor .int32 .intermediate (size - 1) (size - 1) 2 (size - 1),
    integerTensor .int32 .intermediate (size - 1) (size - 1) (size - 1) 2,
    { dtype := .int32, role := .output, rank := 1, dims := #v[BitVec.ofNat 32 (size - 1), 0, 0, 0]
      tileDims := #v[2, 0, 0, 0] }]
  ops := [convOp, unaryOp .eltwiseRelu 2 3, unaryOp .layoutTranspose 3 4, unaryOp .reduceSum 4 5]
  dependencies := [⟨0, 1⟩, ⟨1, 2⟩, ⟨2, 3⟩]
  memoryPlan := [planEntry 0 0 (size * size), planEntry 1 16 4,
    planEntry 2 32 ((size - 1) * (size - 1) * 4), planEntry 3 80 ((size - 1) * (size - 1) * 4),
    planEntry 4 128 ((size - 1) * (size - 1) * 4), planEntry 5 176 ((size - 1) * 4)]
  dynamicTensors := []

/-- The package for inputs with at most four rows. -/
def cnnPackage : AiGraphPackage :=
  { cnnResolved 4 with
    shapeMode := .dynamicBounded
    dynamicTensors := [⟨0, 16⟩, ⟨2, 36⟩, ⟨3, 36⟩, ⟨4, 36⟩, ⟨5, 12⟩] }

def cnnEntries : List AiRuntimeShapeEntry :=
  let reduced := BitVec.ofNat 32 (size - 1)
  [⟨0, 2, #v[BitVec.ofNat 32 size, BitVec.ofNat 32 size, 0, 0]⟩,
    ⟨2, 2, #v[reduced, reduced, 0, 0]⟩, ⟨3, 2, #v[reduced, reduced, 0, 0]⟩,
    ⟨4, 2, #v[reduced, reduced, 0, 0]⟩, ⟨5, 1, #v[reduced, 0, 0, 0]⟩]

instance (op : Op) (descriptor : AiOpDescriptor) : Decidable (op.Fits descriptor) :=
  decidable_of_iff
    ((descriptor.opcode.supported ∧ op.opcode = aiOpcodeName descriptor.opcode) ∧
      (descriptor.inputDtype.supported ∧ op.inputDtype = aiDtypeName descriptor.inputDtype) ∧
      (descriptor.accumDtype.supported ∧ op.accumDtype = aiDtypeName descriptor.accumDtype) ∧
      op.input0 = descriptor.input0.toNat ∧ op.input1 = descriptor.input1.toNat ∧
      op.input2 = descriptor.input2.toNat ∧ op.output = descriptor.output.toNat ∧
      op.attrs = descriptor.attrs.map BitVec.toInt)
    ⟨fun ⟨h₁, h₂, h₃, h₄, h₅, h₆, h₇, h₈⟩ => ⟨h₁, h₂, h₃, h₄, h₅, h₆, h₇, h₈⟩,
      fun h => ⟨h.opcode, h.inputDtype, h.accumDtype, h.input0, h.input1, h.input2, h.output,
        h.attrs⟩⟩

instance (dependency : ℤ × ℤ) (edge : AiDependencyEdge) :
    Decidable (DependencyFits dependency edge) :=
  inferInstanceAs (Decidable (_ ∧ _))

instance (dynamicTensor : DynamicTensor) (metadata : AiDynamicTensorMetadata) :
    Decidable (dynamicTensor.Fits metadata) :=
  decidable_of_iff
    (dynamicTensor.tensorIndex = metadata.tensorIndex.toNat ∧
      dynamicTensor.maxTensorBytes = metadata.maxTensorBytes.toNat)
    ⟨fun h => ⟨h.1, h.2⟩, fun h => ⟨h.tensorIndex, h.maxTensorBytes⟩⟩

instance (shape : RuntimeShape) (entry : AiRuntimeShapeEntry) : Decidable (shape.Fits entry) :=
  decidable_of_iff
    (shape.tensorIndex = entry.tensorIndex.toNat ∧ shape.rank = entry.rank.toNat ∧
      WordsFit shape.dims entry.dims)
    ⟨fun h => ⟨h.1, h.2.1, h.2.2⟩, fun h => ⟨h.tensorIndex, h.rank, h.dims⟩⟩

/-- A valid package with the tables that a builder gives to the encoder. -/
structure PackageOf (tensors : List Tensor) (ops : List Op) (dependencies : List (ℤ × ℤ))
    (dynamicIndices : List ℕ) (package : AiGraphPackage) : Prop where
  valid : package.validate = .ok ()
  shapeMode : package.shapeMode = .dynamicBounded
  trainingMode : package.trainingMode = .inference
  tensorsFit : List.Forall₂ Tensor.Fits tensors package.tensors
  opsFit : List.Forall₂ Op.Fits ops package.ops
  dependenciesFit : List.Forall₂ DependencyFits dependencies package.dependencies
  dynamicTensorsFit : Ends (dynamicIndices.mapM (dynamicTensor tensors)) fun table =>
    List.Forall₂ DynamicTensor.Fits table package.dynamicTensors
  counts : package.Counts

/-- The values of a plan that the device finds in the package and in the resolved package. -/
structure DynamicPlan.Fits (plan : DynamicPlan) (package resolved : AiGraphPackage) : Prop where
  scratchpadBudget : plan.scratchpadBudget = package.scratchpadBudgetBytes.toNat
  memoryPlan : List.Forall₂ MemoryPlan.Fits plan.memoryPlan package.memoryPlan
  resolvedTensors : List.Forall₂ Tensor.Fits plan.resolvedTensors resolved.tensors
  resolvedMemoryPlan : List.Forall₂ MemoryPlan.Fits plan.resolvedMemoryPlan resolved.memoryPlan

instance (plan : DynamicPlan) (package resolved : AiGraphPackage) :
    Decidable (plan.Fits package resolved) :=
  decidable_of_iff
    (plan.scratchpadBudget = package.scratchpadBudgetBytes.toNat ∧
      List.Forall₂ MemoryPlan.Fits plan.memoryPlan package.memoryPlan ∧
      List.Forall₂ Tensor.Fits plan.resolvedTensors resolved.tensors ∧
      List.Forall₂ MemoryPlan.Fits plan.resolvedMemoryPlan resolved.memoryPlan)
    ⟨fun h => ⟨h.1, h.2.1, h.2.2.1, h.2.2.2⟩,
      fun h => ⟨h.scratchpadBudget, h.memoryPlan, h.resolvedTensors, h.resolvedMemoryPlan⟩⟩

theorem encoded_eq_ok {α : Type} {x : Except EncodeError α} {a : α} (h : encoded x = .ok a) :
    x = .ok a := by
  cases x with
  | error error => cases h
  | ok found => exact congrArg _ (ok.inj h)

section

variable {tensors : List Tensor} {ops : List Op} {dependencies : List (ℤ × ℤ)}
  {dynamicIndices : List ℕ} {runtimeShapes : List RuntimeShape} {plan : DynamicPlan}

theorem planDynamic_eq_ok
    (h : planDynamic tensors ops dependencies dynamicIndices runtimeShapes = .ok plan) :
    (∃ dynamicTensors, dynamicIndices.mapM (dynamicTensor tensors) = .ok dynamicTensors ∧
      serializeGraphPackage
        { scratchpadBudgetBytes := plan.scratchpadBudget
          tensors, ops, dependencies
          memoryPlan := plan.memoryPlan
          shapeMode := "dynamic_bounded"
          dynamicTensors := some dynamicTensors } = .ok plan.graph) ∧
      serializeRuntimeShapeTable runtimeShapes = .ok plan.runtimeShapeTable := by
  unfold planDynamic at h
  simp only [bind_eq_ok] at h
  obtain ⟨⟨memoryPlan, budget⟩, -, dynamicTensors, hdynamic, graph, hgraph, table, htable,
    ⟨resolvedTensors, resolvedMemoryPlan⟩, -, summary, -, resolvedSummary, -, hplan⟩ := h
  obtain rfl := ok.inj hplan
  exact ⟨⟨dynamicTensors, hdynamic, encoded_eq_ok hgraph⟩, encoded_eq_ok htable⟩

theorem ends_accepted {package resolved : AiGraphPackage} {shapes : List AiRuntimeShapeEntry}
    (hpackage : PackageOf tensors ops dependencies dynamicIndices package)
    (hfits : Ends (planDynamic tensors ops dependencies dynamicIndices runtimeShapes) fun plan =>
      plan.Fits package resolved)
    (hshapes : List.Forall₂ RuntimeShape.Fits runtimeShapes shapes)
    (hlength : shapes.length = package.dynamicTensors.length)
    (hresolves : package.resolveRuntimeShapes shapes = .ok resolved) (hsafe : package.PlanSafe)
    (hresolvedSafe : resolved.PlanSafe) :
    Ends (planDynamic tensors ops dependencies dynamicIndices runtimeShapes) fun plan =>
      plan.Accepted package resolved shapes := by
  obtain ⟨plan, hplan, hfits⟩ := hfits
  obtain ⟨⟨table, htable, hgraph⟩, hruntime⟩ := planDynamic_eq_ok hplan
  obtain ⟨_, hok, hdynamic⟩ := hpackage.dynamicTensorsFit
  rw [htable] at hok
  obtain rfl := ok.inj hok
  have hargs : GraphArguments.Fits
      { scratchpadBudgetBytes := plan.scratchpadBudget
        tensors, ops, dependencies
        memoryPlan := plan.memoryPlan
        shapeMode := "dynamic_bounded"
        dynamicTensors := some table } package :=
    { scratchpadBudgetBytes := hfits.scratchpadBudget
      shapeMode := by rw [hpackage.shapeMode]; rfl
      trainingMode := by rw [hpackage.trainingMode]; rfl
      tensors := hpackage.tensorsFit
      ops := hpackage.opsFit
      dependencies := hpackage.dependenciesFit
      memoryPlan := hfits.memoryPlan
      dynamicTensors := hdynamic
      counts := hpackage.counts }
  rw [serializeGraphPackage_eq hargs] at hgraph
  rw [serializeRuntimeShapeTable_eq hshapes] at hruntime
  refine ⟨plan, hplan, ?_, ?_, hresolves, hfits.resolvedTensors, hfits.resolvedMemoryPlan, hsafe,
    hresolvedSafe⟩
  · rw [← ok.inj hgraph]
    exact parse_encoded hpackage.counts hpackage.valid
  rw [← ok.inj hruntime, ← hlength]
  exact parse_runtimeShapeTable shapes

end

theorem gemm_packageOf : PackageOf gemmTensors gemmOps [] [0, 2] gemmPackage where
  valid := by decide
  shapeMode := rfl
  trainingMode := rfl
  tensorsFit := by decide +kernel
  opsFit := by decide +kernel
  dependenciesFit := .nil
  dynamicTensorsFit := by decide
  counts := ⟨by decide, by decide, by decide, by decide, by decide⟩

variable {rows : ℕ} {pad : AiScratchpad}

theorem planGemm_accepted (hrows : rows = 1 ∨ rows = 2) :
    Ends (planGemm rows) fun plan =>
      plan.Accepted gemmPackage (gemmResolved rows) (gemmEntries rows) := by
  rcases hrows with rfl | rfl
  · apply ends_accepted gemm_packageOf <;> decide +kernel
  · apply ends_accepted gemm_packageOf <;> decide +kernel

theorem cnn_packageOf :
    PackageOf cnnTensors cnnOps [(0, 1), (1, 2), (2, 3)] [0, 2, 3, 4, 5] cnnPackage where
  valid := by decide
  shapeMode := rfl
  trainingMode := rfl
  tensorsFit := by decide +kernel
  opsFit := by decide +kernel
  dependenciesFit := by decide
  dynamicTensorsFit := by decide
  counts := ⟨by decide, by decide, by decide, by decide, by decide⟩

theorem planCnn_accepted {size : ℕ} (hsize : size = 3 ∨ size = 4) :
    Ends (planCnn size size (size - 1) (size - 1)) fun plan =>
      plan.Accepted cnnPackage (cnnResolved size) (cnnEntries size) := by
  rcases hsize with rfl | rfl
  · apply ends_accepted cnn_packageOf <;> decide +kernel
  · apply ends_accepted cnn_packageOf <;> decide +kernel

section

variable {n : ℕ} {f g : ℕ → ℕ → ℤ}

/-- The elements of a function of two numbers fit eight bits. -/
def Int8 (f : ℕ → ℕ → ℤ) : Prop := ∀ row col, -128 ≤ f row col ∧ f row col ≤ 127

theorem IsI8Matrix.entries {cols : ℕ} {rows : List (List ℤ)} (h : IsI8Matrix cols rows) :
    rows = matrix rows.length cols (entryAt 0 rows) ∧ Int8 (entryAt 0 rows) :=
  ⟨eq_matrix 0 h.columns,
    entryAt_of_forall (p := fun value : ℤ => -128 ≤ value ∧ value ≤ 127) (by decide) h.int8⟩

theorem abs_sum_le {f : ℕ → ℤ} {bound : ℤ} (h : ∀ i, |f i| ≤ bound) (n : ℕ) :
    |∑ i ∈ Finset.range n, f i| ≤ n * bound := by
  induction n with
  | zero => simp
  | succ n ih =>
    rw [Finset.sum_range_succ]
    have htriangle := abs_add_le (∑ i ∈ Finset.range n, f i) (f n)
    have hlast := h n
    push_cast
    linarith

theorem Int8.abs_mul_le (hf : Int8 f) (hg : Int8 g) (row col row' col' : ℕ) :
    |f row col * g row' col'| ≤ 16384 := by
  have hleft : |f row col| ≤ 128 := abs_le.2 ⟨(hf row col).1, by linarith [(hf row col).2]⟩
  have hright : |g row' col'| ≤ 128 := abs_le.2 ⟨(hg row' col').1, by linarith [(hg row' col').2]⟩
  rw [abs_mul]
  calc |f row col| * |g row' col'| ≤ 128 * 128 :=
        mul_le_mul hleft hright (abs_nonneg _) (by norm_num)
    _ = 16384 := by norm_num

theorem Int8.widen_mul (hf : Int8 f) (hg : Int8 g) (row col row' col' : ℕ) :
    widenI8 ((BitVec.ofInt 8 (f row col)).setWidth 32) *
        widenI8 ((BitVec.ofInt 8 (g row' col')).setWidth 32) =
      BitVec.ofInt 32 (f row col * g row' col') := by
  rw [widenI8_ofInt (hf row col).1 (hf row col).2, widenI8_ofInt (hg row' col').1 (hg row' col').2,
    BitVec.ofInt_mul]

end

theorem valuesOf_matrix {entry : AiMemoryPlanEntry} {rows cols : ℕ}
    {f : ℕ → ℕ → ℤ}
    (h : pad.slice entry.scratchpadOffset.toNat entry.byteSize.toNat =
      (matrix rows cols f).flatten.map (BitVec.ofInt 8)) :
    pad.valuesOf 1 entry =
      table rows cols fun row col => (BitVec.ofInt 8 (f row col)).setWidth 32 := by
  unfold AiScratchpad.valuesOf
  rw [h, decodeValues_one, flatten_matrix, map_table, map_table]

variable {spec : MatrixTaskSpec}

theorem agrees_of_executeOps {values : List ℤ} {plan : DynamicPlan}
    {package resolved : AiGraphPackage} {shapes : List AiRuntimeShapeEntry}
    (haccepted : plan.Accepted package resolved shapes) {cols₀ cols₁ : ℕ}
    (h₀ : IsI8Matrix cols₀ spec.input0Rows) (h₁ : IsI8Matrix cols₁ spec.input1Rows)
    (hvalues : ∀ value ∈ values, |value| ≤ 2 ^ 30) {input₀ input₁ output : AiMemoryPlanEntry}
    (hloads : resolved.loadEntries = [input₀, input₁]) (hstores : resolved.storeEntries = [output])
    (hsize : values.length * 4 = output.byteSize.toNat) (hcount : resolved.ops.length < 2 ^ 16)
    (hall : resolved.queueOrder.length = resolved.ops.length)
    (hexecutes : ∀ (_ : HostFloat) (pad : AiScratchpad), resolved.LayoutOf pad →
      pad.slice input₀.scratchpadOffset.toNat input₀.byteSize.toNat =
        spec.input0Rows.flatten.map (BitVec.ofInt 8) →
      pad.slice input₁.scratchpadOffset.toNat input₁.byteSize.toNat =
        spec.input1Rows.flatten.map (BitVec.ofInt 8) →
      ∃ before : AiScratchpad, resolved.executeOps resolved.queueOrder pad =
        .ok (before.store output.scratchpadOffset.toNat
          (encodeValues 4 (values.map (BitVec.ofInt 32))))) :
    AgreesWithDevice (lowerContents spec values plan) := by
  have hbound : ∀ value ∈ values, -(256 ^ 4 / 2) ≤ value ∧ value < 256 ^ 4 / 2 := by
    intro value hvalue
    obtain ⟨hlow, hhigh⟩ := abs_le.1 (hvalues value hvalue)
    constructor <;> omega
  obtain ⟨hvalid, -⟩ := resolveRuntimeShapes_valid haccepted.resolves
  unfold lowerContents
  rw [flattenI8Matrix_eq h₀, flattenI8Matrix_eq h₁, packSignedAll_eq hbound]
  refine ⟨_, package, resolved, shapes, rfl, haccepted, ?_⟩
  intro host timing pad hpad hcontents
  rw [hloads] at hcontents
  obtain ⟨hcontents₀, hrest⟩ := List.cons.inj hcontents
  obtain ⟨hcontents₁, -⟩ := List.cons.inj hrest
  obtain ⟨before, hexecute⟩ := hexecutes host pad hpad hcontents₀ hcontents₁
  obtain ⟨run, hrun, hlast⟩ :=
    execute_of_executeOps hvalid hcount hall timing hexecute
  refine ⟨run, hrun, ?_⟩
  have hlength : (encodeValues 4 (values.map (BitVec.ofInt 32))).length =
    output.byteSize.toNat := by
    rw [length_encodeValues, length_map, hsize]
  rw [hlast, hstores]
  unfold AiScratchpad.contents
  rw [map_singleton, ← hlength, AiScratchpad.slice_store, encodeValues_ofInt]

def gemmKernel (rows : ℕ) : Kernel where
  input0 := planEntry 0 0 (rows * 8)
  input1 := some (planEntry 1 16 32)
  output := planEntry 2 48 (rows * 16)
  inputSize := 1
  outputSize := 4
  compute := fun lhs rhs => gemmI8ToI32 lhs rhs rows 8 4

theorem gemm_kernelAt [HostFloat] (hrows : rows = 1 ∨ rows = 2) :
    (gemmResolved rows).KernelAt 0 (gemmKernel rows) := by
  have haligned : (gemmKernel rows).Aligned := ⟨Nat.mod_one _, fun _ _ => Nat.mod_one _⟩
  rcases hrows with rfl | rfl
  · exact ⟨gemmOp, _, rfl, rfl, rfl, rfl, haligned⟩
  · exact ⟨gemmOp, _, rfl, rfl, rfl, rfl, haligned⟩

/-- The sums of a matrix product of depth 8. -/
def gemmSum (lhs rhs : ℕ → ℕ → ℤ) (row col : ℕ) : ℤ :=
  ∑ depth ∈ Finset.range 8, lhs row depth * rhs depth col

theorem gemmKernel_computeOn (hrows : rows ≠ 0)
    {lhs rhs : ℕ → ℕ → ℤ} (hlhs : Int8 lhs) (hrhs : Int8 rhs)
    (h₀ : pad.valuesOf 1 (planEntry 0 0 (rows * 8)) =
      table rows 8 fun row col => (BitVec.ofInt 8 (lhs row col)).setWidth 32)
    (h₁ : pad.valuesOf 1 (planEntry 1 16 32) =
      table 8 4 fun row col => (BitVec.ofInt 8 (rhs row col)).setWidth 32) :
    (gemmKernel rows).computeOn pad =
      .ok ((table rows 4 (gemmSum lhs rhs)).map (BitVec.ofInt 32)) := by
  have hcompute : (gemmKernel rows).computeOn pad =
      gemmI8ToI32 (pad.valuesOf 1 (planEntry 0 0 (rows * 8)))
        (pad.valuesOf 1 (planEntry 1 16 32)) rows 8 4 := rfl
  rw [hcompute, h₀, h₁, map_table]
  apply (goldenGemm_table widenI8 ⟨hrows, by decide, by decide⟩ _ _).trans
  apply congrArg
  apply table_congr
  intro row _ col _
  unfold gemmSum
  rw [ofInt_sum]
  apply Finset.sum_congr rfl
  intro depth _
  exact hlhs.widen_mul hrhs row depth depth col

theorem gemm_facts (hrows : rows = 1 ∨ rows = 2) : (gemmResolved rows).Exact ∧
      (gemmResolved rows).loadEntries = [planEntry 0 0 (rows * 8), planEntry 1 16 32] ∧
      (gemmResolved rows).storeEntries = [planEntry 2 48 (rows * 16)] ∧
      (planEntry 2 48 (rows * 16)).byteSize.toNat = rows * 4 * 4 ∧
      (gemmResolved rows).queueOrder = [0] := by
  have hwrap : ∀ tensor ∈ (gemmResolved rows).tensors, tensor.exactByteSize < 2 ^ 64 := by
    rcases hrows with rfl | rfl <;> decide
  have hvalid : (gemmResolved rows).validate = .ok () := by
    rcases hrows with rfl | rfl <;> decide
  refine ⟨exact_of_noWrap hvalid hwrap, ?_⟩
  rcases hrows with rfl | rfl <;> decide

theorem gemm_agrees (h : GemmShaped spec) : AgreesWithDevice (buildDynamicGemmLike spec) := by
  obtain ⟨hlhs, hint₀⟩ := h.input0.entries
  obtain ⟨hrhs, hint₁⟩ := h.input1.entries
  rw [h.depth] at hrhs
  generalize hrowCount : spec.input0Rows.length = rows at hlhs
  have hrows : rows = 1 ∨ rows = 2 := hrowCount ▸ h.rows
  have hpositive : rows ≠ 0 := by omega
  generalize entryAt 0 spec.input0Rows = lhs at hlhs hint₀
  generalize entryAt 0 spec.input1Rows = rhs at hrhs hint₁
  obtain ⟨plan, hplan, haccepted⟩ := planGemm_accepted hrows
  obtain ⟨hexact, hloads, hstores, hsize, horder⟩ := gemm_facts hrows
  have hvalues : gemmI8I32 spec.input0Rows spec.input1Rows =
      .ok (table rows 4 (gemmSum lhs rhs)) := by
    rw [hlhs, hrhs]
    exact gemmI8I32_matrix hpositive (by decide) lhs rhs
  have hbuild : buildDynamicGemmLike spec =
      lowerContents spec (table rows 4 (gemmSum lhs rhs)) plan := by
    unfold buildDynamicGemmLike
    rw [hvalues, hrowCount, hplan]
    rfl
  have hbound : ∀ value ∈ table rows 4 (gemmSum lhs rhs), |value| ≤ 2 ^ 30 := by
    intro value hvalue
    obtain ⟨row, col, rfl⟩ := exists_of_mem_table hvalue
    have hsum := abs_sum_le (fun depth => hint₀.abs_mul_le hint₁ row depth depth col) 8
    exact hsum.trans (by norm_num)
  rw [hbuild]
  apply agrees_of_executeOps haccepted h.input0 h.input1 hbound hloads hstores
    (by rw [length_table, hsize]) (show 1 < 2 ^ 16 by decide) (by rw [horder]; rfl)
  intro host pad hpad hcontents₀ hcontents₁
  have hcompute := gemmKernel_computeOn hpositive hint₀ hint₁
    (valuesOf_matrix (hcontents₀.trans (congrArg _ (congrArg _ hlhs))))
    (valuesOf_matrix (hcontents₁.trans (congrArg _ (congrArg _ hrhs))))
  have hop := (gemm_kernelAt hrows).opAt_eq hexact (show 80 + 8192 < 2 ^ 32 by decide)
    hpad hcompute (by
    rw [length_map, length_table]
    exact hsize.symm)
  refine ⟨pad, ?_⟩
  rw [horder]
  unfold executeOps
  rw [foldlM_cons, hop]
  rfl

def convKernel : Kernel where
  input0 := planEntry 0 0 (size * size)
  input1 := some (planEntry 1 16 4)
  output := planEntry 2 32 ((size - 1) * (size - 1) * 4)
  inputSize := 1
  outputSize := 4
  compute := fun input kernel => conv2dValidI8ToI32 input size size kernel 2 2

def wordsKernel (input output : AiMemoryPlanEntry)
    (compute : List (BitVec 32) → KernelRun (List (BitVec 32))) : Kernel where
  input0 := input
  input1 := none
  output := output
  inputSize := 4
  outputSize := 4
  compute := fun values _ => compute values

def squareEntry (size tensorIndex offset : ℕ) : AiMemoryPlanEntry :=
  planEntry tensorIndex offset ((size - 1) * (size - 1) * 4)

def reluKernel : Kernel :=
  wordsKernel (squareEntry size 2 32) (squareEntry size 3 80) fun values =>
    .ok (reluValues BitVec.msb values)

def transposeKernel : Kernel :=
  wordsKernel (squareEntry size 3 80) (squareEntry size 4 128) fun values =>
    transpose2dI32 values (size - 1) (size - 1)

def reduceKernel : Kernel :=
  wordsKernel (squareEntry size 4 128) (planEntry 5 176 ((size - 1) * 4)) fun values =>
    reduceSumRowsI32 values (size - 1) (size - 1)

section

variable {size : ℕ} (hsize : size = 3 ∨ size = 4)
include hsize

theorem squareEntry_size (tensorIndex offset : ℕ) :
    (squareEntry size tensorIndex offset).byteSize.toNat = (size - 1) * (size - 1) * 4 := by
  rcases hsize with rfl | rfl <;> rfl

theorem wordsKernel_aligned (tensorIndex offset : ℕ) (output : AiMemoryPlanEntry)
    (compute : List (BitVec 32) → KernelRun (List (BitVec 32))) :
    (wordsKernel (squareEntry size tensorIndex offset) output compute).Aligned := by
  refine ⟨?_, fun _ h => (by cases h)⟩
  change (squareEntry size tensorIndex offset).byteSize.toNat % 4 = 0
  rw [squareEntry_size hsize]
  exact Nat.mul_mod_left _ _

theorem cnn_kernelAt [HostFloat] : (cnnResolved size).KernelAt 0 (convKernel size) ∧
      (cnnResolved size).KernelAt 1 (reluKernel size) ∧
      (cnnResolved size).KernelAt 2 (transposeKernel size) ∧
      (cnnResolved size).KernelAt 3 (reduceKernel size) := by
  have hconv : (convKernel size).Aligned := ⟨Nat.mod_one _, fun _ _ => Nat.mod_one _⟩
  have hrelu : (reluKernel size).Aligned := wordsKernel_aligned hsize 2 32 _ _
  have htranspose : (transposeKernel size).Aligned := wordsKernel_aligned hsize 3 80 _ _
  have hreduce : (reduceKernel size).Aligned := wordsKernel_aligned hsize 4 128 _ _
  rcases hsize with rfl | rfl
  · exact ⟨⟨convOp, _, rfl, rfl, rfl, rfl, hconv⟩,
      ⟨unaryOp .eltwiseRelu 2 3, _, rfl, rfl, rfl, rfl, hrelu⟩,
      ⟨unaryOp .layoutTranspose 3 4, _, rfl, rfl, rfl, rfl, htranspose⟩,
      unaryOp .reduceSum 4 5, _, rfl, rfl, rfl, rfl, hreduce⟩
  · exact ⟨⟨convOp, _, rfl, rfl, rfl, rfl, hconv⟩,
      ⟨unaryOp .eltwiseRelu 2 3, _, rfl, rfl, rfl, rfl, hrelu⟩,
      ⟨unaryOp .layoutTranspose 3 4, _, rfl, rfl, rfl, rfl, htranspose⟩,
      unaryOp .reduceSum 4 5, _, rfl, rfl, rfl, rfl, hreduce⟩

theorem cnn_facts : (cnnResolved size).Exact ∧
      (cnnResolved size).loadEntries = [planEntry 0 0 (size * size), planEntry 1 16 4] ∧
      (cnnResolved size).storeEntries = [planEntry 5 176 ((size - 1) * 4)] ∧
      (cnnResolved size).queueOrder = [0, 1, 2, 3] ∧
      (planEntry 5 176 ((size - 1) * 4)).byteSize.toNat = (size - 1) * 4 := by
  have hwrap : ∀ tensor ∈ (cnnResolved size).tensors, tensor.exactByteSize < 2 ^ 64 := by
    rcases hsize with rfl | rfl <;> decide
  have hvalid : (cnnResolved size).validate = .ok () := by
    rcases hsize with rfl | rfl <;> decide
  refine ⟨exact_of_noWrap hvalid hwrap, ?_⟩
  rcases hsize with rfl | rfl <;> decide

variable {pad : AiScratchpad} {f : ℕ → ℕ → ℤ}

variable {input kernel : ℕ → ℕ → ℤ}

theorem convKernel_computeOn (hinput : Int8 input) (hkernel : Int8 kernel)
    (h₀ : pad.valuesOf 1 (planEntry 0 0 (size * size)) =
      table size size fun row col => (BitVec.ofInt 8 (input row col)).setWidth 32)
    (h₁ : pad.valuesOf 1 (planEntry 1 16 4) =
      table 2 2 fun row col => (BitVec.ofInt 8 (kernel row col)).setWidth 32) :
    (convKernel size).computeOn pad =
      .ok ((table (size - 1) (size - 1) (windowSum 2 2 input kernel)).map (BitVec.ofInt 32)) := by
  have hcompute : (convKernel size).computeOn pad =
      conv2dValidI8ToI32 (pad.valuesOf 1 (planEntry 0 0 (size * size))) size size
        (pad.valuesOf 1 (planEntry 1 16 4)) 2 2 := rfl
  have hreduced : size - 2 + 1 = size - 1 := by omega
  have hbound : size * size < 2 ^ 32 := by rcases hsize with rfl | rfl <;> decide
  rw [hcompute, h₀, h₁, map_table]
  apply (goldenConv2dValid_table widenI8 ⟨by decide, by decide⟩
    ⟨by omega, by omega⟩ hbound _ _).trans
  rw [hreduced]
  apply congrArg
  apply table_congr
  intro row _ col _
  unfold windowSum
  rw [ofInt_sum]
  apply Finset.sum_congr rfl
  intro ky _
  rw [ofInt_sum]
  apply Finset.sum_congr rfl
  intro kx _
  exact hinput.widen_mul hkernel (row + ky) (col + kx) ky kx

omit hsize in
theorem reluKernel_computeOn (hbound : ∀ row col, |f row col| ≤ 2 ^ 30)
    (h : pad.valuesOf 4 (squareEntry size 2 32) =
      (table (size - 1) (size - 1) f).map (BitVec.ofInt 32)) :
    (reluKernel size).computeOn pad =
      .ok ((table (size - 1) (size - 1) fun row col => max 0 (f row col)).map
        (BitVec.ofInt 32)) := by
  have hcompute : (reluKernel size).computeOn pad =
      .ok (reluValues BitVec.msb (pad.valuesOf 4 (squareEntry size 2 32))) := rfl
  rw [hcompute, h]
  unfold reluValues
  rw [map_table, map_table, map_table]
  apply congrArg
  apply table_congr
  intro row _ col _
  obtain ⟨hlow, hhigh⟩ := abs_le.1 (hbound row col)
  exact relu_ofInt (by omega) (by omega)

theorem transposeKernel_computeOn (h : pad.valuesOf 4 (squareEntry size 3 80) =
      (table (size - 1) (size - 1) f).map (BitVec.ofInt 32)) :
    (transposeKernel size).computeOn pad =
      .ok ((table (size - 1) (size - 1) fun col row => f row col).map (BitVec.ofInt 32)) := by
  have hcompute : (transposeKernel size).computeOn pad =
      transpose2dI32 (pad.valuesOf 4 (squareEntry size 3 80)) (size - 1) (size - 1) :=
    rfl
  rw [hcompute, h, map_table, map_table]
  exact transpose2dI32_table ⟨by omega, by omega⟩
    (by rcases hsize with rfl | rfl <;> decide) _

theorem reduceKernel_computeOn (h : pad.valuesOf 4 (squareEntry size 4 128) =
      (table (size - 1) (size - 1) f).map (BitVec.ofInt 32)) :
    (reduceKernel size).computeOn pad =
      .ok (((List.range (size - 1)).map fun row =>
        ∑ col ∈ Finset.range (size - 1), f row col).map (BitVec.ofInt 32)) := by
  have hcompute : (reduceKernel size).computeOn pad =
      reduceSumRowsI32 (pad.valuesOf 4 (squareEntry size 4 128)) (size - 1)
        (size - 1) := rfl
  rw [hcompute, h, map_table, map_map]
  apply (reduceSumRowsI32_table ⟨by omega, by omega⟩
    (by rcases hsize with rfl | rfl <;> decide) _).trans
  apply congrArg
  apply map_congr_left
  intro row _
  exact (ofInt_sum 32 (size - 1) (f row)).symm

/-- The sums of the columns of the rectified windows. -/
def cnnSums (size : ℕ) (input kernel : ℕ → ℕ → ℤ) : List ℤ :=
  (List.range (size - 1)).map fun col =>
    ∑ row ∈ Finset.range (size - 1), max 0 (windowSum 2 2 input kernel row col)

omit hsize in
theorem abs_windowSum_le (hinput : Int8 input) (hkernel : Int8 kernel)
    (row col : ℕ) : |windowSum 2 2 input kernel row col| ≤ 65536 := by
  have hrows : ∀ ky, |∑ kx ∈ Finset.range 2, input (row + ky) (col + kx) * kernel ky kx| ≤
      2 * 16384 := fun ky =>
    abs_sum_le (fun kx => hinput.abs_mul_le hkernel (row + ky) (col + kx) ky kx) 2
  exact (abs_sum_le hrows 2).trans (by norm_num)

/-- The operations of the network one after another, each on what the one before has left. -/
theorem cnn_executeOps [HostFloat] (hinput : Int8 input)
    (hkernel : Int8 kernel) (hpad : (cnnResolved size).LayoutOf pad)
    (h₀ : pad.valuesOf 1 (planEntry 0 0 (size * size)) =
      table size size fun row col => (BitVec.ofInt 8 (input row col)).setWidth 32)
    (h₁ : pad.valuesOf 1 (planEntry 1 16 4) =
      table 2 2 fun row col => (BitVec.ofInt 8 (kernel row col)).setWidth 32) :
    ∃ before : AiScratchpad, (cnnResolved size).executeOps [0, 1, 2, 3] pad =
      .ok (before.store (planEntry 5 176 ((size - 1) * 4)).scratchpadOffset.toNat
        (encodeValues 4 ((cnnSums size input kernel).map (BitVec.ofInt 32)))) := by
  obtain ⟨hexact, -, -, -, hlast⟩ := cnn_facts hsize
  obtain ⟨hconv, hrelu, htranspose, hreduce⟩ := cnn_kernelAt hsize
  have hbudget : (cnnResolved size).scratchpadBudgetBytes.toNat + 8192 < 2 ^ 32 :=
    show 192 + 8192 < 2 ^ 32 by decide
  -- every square tensor holds one word for each of its elements
  have hfull : ∀ (f : ℕ → ℕ → ℤ) (i offset : ℕ),
      ((table (size - 1) (size - 1) f).map (BitVec.ofInt 32)).length * 4 =
        (squareEntry size i offset).byteSize.toNat := by
    intro f i offset
    rw [length_map, length_table, squareEntry_size hsize]
  have hwindows : ∀ row col, |windowSum 2 2 input kernel row col| ≤ 2 ^ 30 := fun row col =>
    (abs_windowSum_le hinput hkernel row col).trans (by norm_num)
  have hop₀ := hconv.opAt_eq hexact hbudget hpad (convKernel_computeOn hsize hinput hkernel h₀ h₁)
    (hfull _ 2 32)
  generalize hpad₁ : pad.store _ _ = pad₁ at hop₀
  have hlayout₁ : (cnnResolved size).LayoutOf pad₁ := hpad₁ ▸ hpad
  have hvalues₁ : pad₁.valuesOf 4 (squareEntry size 2 32) =
      (table (size - 1) (size - 1) (windowSum 2 2 input kernel)).map (BitVec.ofInt 32) :=
    hpad₁ ▸ pad.valuesOf_store (hfull _ 2 32)
  have hop₁ := hrelu.opAt_eq hexact hbudget hlayout₁ (reluKernel_computeOn hwindows hvalues₁)
    (hfull _ 3 80)
  generalize hpad₂ : pad₁.store _ _ = pad₂ at hop₁
  have hlayout₂ : (cnnResolved size).LayoutOf pad₂ := hpad₂ ▸ hlayout₁
  have hvalues₂ : pad₂.valuesOf 4 (squareEntry size 3 80) =
      (table (size - 1) (size - 1) fun row col =>
        max 0 (windowSum 2 2 input kernel row col)).map (BitVec.ofInt 32) :=
    hpad₂ ▸ pad₁.valuesOf_store (hfull _ 3 80)
  have hop₂ := htranspose.opAt_eq hexact hbudget hlayout₂ (transposeKernel_computeOn hsize hvalues₂)
    (hfull _ 4 128)
  generalize hpad₃ : pad₂.store _ _ = pad₃ at hop₂
  have hlayout₃ : (cnnResolved size).LayoutOf pad₃ := hpad₃ ▸ hlayout₂
  have hvalues₃ : pad₃.valuesOf 4 (squareEntry size 4 128) =
      (table (size - 1) (size - 1) fun col row =>
        max 0 (windowSum 2 2 input kernel row col)).map (BitVec.ofInt 32) :=
    hpad₃ ▸ pad₂.valuesOf_store (hfull _ 4 128)
  have hop₃ := hreduce.opAt_eq hexact hbudget hlayout₃ (reduceKernel_computeOn hsize hvalues₃) (by
    rw [length_map, length_map, length_range]
    exact hlast.symm)
  refine ⟨pad₃, ?_⟩
  unfold executeOps
  rw [foldlM_cons, hop₀]
  simp only [bind, Except.bind]
  rw [foldlM_cons, hop₁]
  simp only [bind, Except.bind]
  rw [foldlM_cons, hop₂]
  simp only [bind, Except.bind]
  rw [foldlM_cons, hop₃]
  rfl

end

theorem length_cnnSums (input kernel : ℕ → ℕ → ℤ) :
    (cnnSums size input kernel).length = size - 1 := by
  simp [cnnSums]

theorem abs_cnnSums_le {size : ℕ} (hsize : size = 3 ∨ size = 4) {input kernel : ℕ → ℕ → ℤ}
    (hinput : Int8 input) (hkernel : Int8 kernel) :
    ∀ value ∈ cnnSums size input kernel, |value| ≤ 2 ^ 30 := by
  intro value hvalue
  obtain ⟨col, -, rfl⟩ := mem_map.1 hvalue
  have hrectified : ∀ row, |max 0 (windowSum 2 2 input kernel row col)| ≤ 65536 := by
    intro row
    have hwindow := abs_windowSum_le hinput hkernel row col
    rcases max_choice 0 (windowSum 2 2 input kernel row col) with hzero | hsame
    · rw [hzero, abs_zero]
      norm_num
    · rwa [hsame]
  have hsum := abs_sum_le hrectified (size - 1)
  have hthree : ((size - 1 : ℕ) : ℤ) ≤ 3 := by omega
  linarith

theorem ok_bind {α β : Type} (a : α) (f : α → Except Stop β) : (ok a >>= f) = f a := rfl

theorem cnn_agrees (h : CnnShaped spec) : AgreesWithDevice (buildDynamicCnnLike spec) := by
  obtain ⟨hinput, hint₀⟩ := h.input0.entries
  obtain ⟨hkernel, hint₁⟩ := h.input1.entries
  have hmatrix := h.input0
  rw [h.kernelSize] at hkernel
  generalize hsizeEq : spec.input0Rows.length = size at hinput hmatrix
  have hsize : size = 3 ∨ size = 4 := hsizeEq ▸ h.size
  generalize entryAt 0 spec.input0Rows = input at hinput hint₀
  generalize entryAt 0 spec.input1Rows = kernel at hkernel hint₁
  have hreduced : size - 2 + 1 = size - 1 := by omega
  obtain ⟨plan, hplan, haccepted⟩ := planCnn_accepted hsize
  obtain ⟨-, hloads, hstores, horder, hlast⟩ := cnn_facts hsize
  have hconv : conv2dI8I32 spec.input0Rows spec.input1Rows =
      .ok (matrix (size - 1) (size - 1) (windowSum 2 2 input kernel)) := by
    rw [hinput, hkernel, ← hreduced]
    exact conv2dI8I32_matrix input kernel (by decide) ⟨by omega, by omega⟩
  have hvalues : reduceSumRows (transposeRows (reluI32
      (matrix (size - 1) (size - 1) (windowSum 2 2 input kernel)))) =
        cnnSums size input kernel := by
    rw [reluI32_matrix, transposeRows_matrix (by omega), reduceSumRows_matrix]
    rfl
  have hfirst : itemAt spec.input0Rows 0 = .ok ((List.range size).map (input 0)) := by
    rw [hinput]
    exact itemAt_matrix input (by omega)
  have hbuild : buildDynamicCnnLike spec = lowerContents spec (cnnSums size input kernel) plan := by
    unfold buildDynamicCnnLike
    rw [hfirst, hconv, ok_bind, ok_bind, hvalues, itemAt_matrix _ (by omega), ok_bind, hsizeEq,
      length_matrix, length_map, length_range, length_map, length_range]
    dsimp only
    rw [hplan, ok_bind]
  rw [hbuild]
  apply agrees_of_executeOps haccepted hmatrix h.input1 (abs_cnnSums_le hsize hint₀ hint₁) hloads
    hstores (by rw [length_cnnSums, hlast]) (show 4 < 2 ^ 16 by decide) (by rw [horder]; rfl)
  intro host pad hpad hcontents₀ hcontents₁
  rw [horder]
  exact cnn_executeOps hsize hint₀ hint₁ hpad
    (valuesOf_matrix (hcontents₀.trans (congrArg _ (congrArg _ hinput))))
    (valuesOf_matrix (hcontents₁.trans (congrArg _ (congrArg _ hkernel))))

variable {φ : Type}

/-- The files of every accepted spec with integer matrices agree with the device. -/
theorem integerSpecs_agree (kinds : FloatKinds φ) (payload : Json) (spec : MatrixTaskSpec) :
    (parseTaskSpec kinds payload = .ok (.gemm spec) →
      AgreesWithDevice (buildDynamicGemmLike spec)) ∧
    (parseTaskSpec kinds payload = .ok (.cnn spec) → AgreesWithDevice (buildDynamicCnnLike spec)) :=
  ⟨fun h => gemm_agrees (parseTaskSpec_shaped.1 h), fun h => cnn_agrees (parseTaskSpec_shaped.2 h)⟩

def matrixDocument (kind : String) (input0 input1 : List (List ℤ)) : Json :=
  let matrix (rows : List (List ℤ)) : Json :=
    .array (rows.map fun row => .array (row.map .int))
  .object [("format", .string "ai_task_spec_v1"), ("task_kind", .string kind),
    ("name", .string "edges"), ("input0", matrix input0), ("input1", matrix input1)]

/-- One row against a matrix with the least and the largest bytes. -/
def gemmSpec : MatrixTaskSpec where
  name := "edges"
  sourceTag := 73
  maxTicks := 128
  input0Rows := [[-128, 127, 3, -4, 5, -6, 7, -8]]
  input1Rows := List.replicate 4 [-128, 127, 1, 0] ++ List.replicate 4 [2, -3, -128, 127]

/-- A square of three rows, smaller than the bound of the package. -/
def cnnSpec : MatrixTaskSpec where
  name := "edges"
  sourceTag := 79
  maxTicks := 128
  input0Rows := [[1, -2, 3], [-4, 127, -128], [7, 8, 9]]
  input1Rows := [[1, -1], [-128, 127]]

def noFloats : FloatKinds Unit where
  tinyModel _ := .error (.exit "")
  tinyAttention _ := .error (.exit "")

theorem edgeSpecs_agree : AgreesWithDevice (buildDynamicGemmLike gemmSpec) ∧
      AgreesWithDevice (buildDynamicCnnLike cnnSpec) :=
  ⟨(integerSpecs_agree noFloats
      (matrixDocument "bounded_dynamic_gemm_v1" gemmSpec.input0Rows gemmSpec.input1Rows)
      gemmSpec).1 (by decide),
    (integerSpecs_agree noFloats
      (matrixDocument "bounded_dynamic_cnn_v1" cnnSpec.input0Rows cnnSpec.input1Rows)
      cnnSpec).2 (by decide)⟩

end TaskSpecLowering

end VisualCpu
