import VisualCpu.Devices.GraphCodec

/-!
# Packages with runtime shapes

`validate_ai_runtime_shape_table` and `resolve_ai_runtime_shape_package`: the shapes of the
dynamic tensors are replaced by those of a table, and the static package that results is
validated again.
-/

namespace VisualCpu

open Checks

namespace AiRuntimeShapeEntry

variable (shape : AiRuntimeShapeEntry)

def elementCount : BitVec 64 :=
  VisualCpu.elementCount shape.rank shape.dims

/-- `runtime_tensor_byte_size`. -/
def byteSize (dtype : AiDataType) : BitVec 64 :=
  shape.elementCount * BitVec.ofNat 64 dtype.sizeBytes

def validateAxis (tensor : AiTensorMetadata) (axis : Fin 4) :
    Except String Unit :=
  if axis.val < shape.rank.toNat then
    check (shape.dims.get axis ≠ 0 ∧ shape.dims.get axis ≤ tensor.dims.get axis)
      "runtime shape dims exceed bounded tensor dims"
  else check (shape.dims.get axis = 0) "runtime shape trailing dims must be zero"

end AiRuntimeShapeEntry

def AiTensorMetadata.reshape (tensor : AiTensorMetadata) (shape : AiRuntimeShapeEntry) : AiTensorMetadata :=
  { tensor with
    rank := shape.rank
    dims := Vector.ofFn fun axis : Fin 4 =>
      if axis.val < shape.rank.toNat then shape.dims.get axis else 0
    tileDims := Vector.ofFn fun axis : Fin 4 =>
      if axis.val < shape.rank.toNat then
        if tensor.tileDims.get axis > shape.dims.get axis then shape.dims.get axis
        else tensor.tileDims.get axis
      else 0 }

def resizePlan (index : BitVec 16) (size : BitVec 32) :
    List AiMemoryPlanEntry → Option (List AiMemoryPlanEntry)
  | [] => none
  | entry :: rest =>
    if entry.tensorIndex = index then
      some ({ entry with byteSize := size, scratchpadBytes := size } :: rest)
    else (resizePlan index size rest).map (entry :: ·)

namespace AiGraphPackage

variable (package : AiGraphPackage)

def validateRuntimeShapes : List AiRuntimeShapeEntry → Except String Unit
  | [] => .ok ()
  | shape :: rest => do
    check (shape.rank ≠ 0 ∧ shape.rank ≤ 4) "runtime shape rank is out of range"
    check (∀ later ∈ rest, later.tensorIndex ≠ shape.tensorIndex)
      "runtime shape tensor index is duplicated"
    match package.dynamicTensors.find? (·.tensorIndex == shape.tensorIndex),
        package.tensor? shape.tensorIndex with
    | some metadata, some tensor => do
      check (shape.rank = tensor.rank) "runtime shape rank does not match tensor rank"
      checkAll (shape.validateAxis tensor) (List.finRange 4)
      let bytes := shape.byteSize tensor.dtype
      check (bytes ≠ 0 ∧ bytes ≤ metadata.maxTensorBytes.setWidth 64 ∧ bytes ≤ 0xffffffff)
        "runtime shape bytes exceed max tensor bytes"
      validateRuntimeShapes rest
    | _, _ => .error "runtime shape tensor index is not declared as dynamic"

/-- `validate_ai_runtime_shape_table`. -/
def validateRuntimeShapeTable (shapes : List AiRuntimeShapeEntry) : Except String Unit :=
  if package.shapeMode = .static then
    check (shapes = []) "runtime shape table is not allowed for static packages"
  else do
    check (package.shapeMode = .dynamicBounded)
      "runtime shape table requires supported dynamic shape mode"
    check (shapes.length = package.dynamicTensors.length)
      "runtime shape table does not match dynamic tensor metadata"
    package.validateRuntimeShapes shapes

def resolveShape (package : AiGraphPackage) (shape : AiRuntimeShapeEntry) :
    Except String AiGraphPackage :=
  match package.tensor? shape.tensorIndex with
  | none => .error "runtime shape tensor index is not declared as dynamic"
  | some tensor => do
    let bytes := shape.byteSize tensor.dtype
    match resizePlan shape.tensorIndex (bytes.setWidth 32) package.memoryPlan with
    | none => .error "runtime shape tensor memory plan is missing"
    | some memoryPlan => do
      check (bytes ≠ 0 ∧ bytes ≤ 0xffffffff) "runtime shape bytes are invalid"
      .ok
        { package with
          tensors := package.tensors.set shape.tensorIndex.toNat (tensor.reshape shape)
          memoryPlan }

/-- `resolve_ai_runtime_shape_package`. -/
def resolveRuntimeShapes (shapes : List AiRuntimeShapeEntry) : Except String AiGraphPackage := do
  package.validateRuntimeShapeTable shapes
  let resolved ← shapes.foldlM resolveShape package
  let resolved : AiGraphPackage :=
    { resolved with shapeMode := .static, trainingMode := .inference, dynamicTensors := [] }
  resolved.validate
  .ok resolved

variable {package}

variable {resolved : AiGraphPackage} {shapes : List AiRuntimeShapeEntry}

theorem resolveShape_ops {shape : AiRuntimeShapeEntry}
    (h : package.resolveShape shape = .ok resolved) : resolved.ops = package.ops := by
  unfold resolveShape at h
  cases htensor : package.tensor? shape.tensorIndex with
  | none =>
    rw [htensor] at h
    cases h
  | some tensor =>
    rw [htensor] at h
    dsimp only at h
    cases hplan : resizePlan shape.tensorIndex ((shape.byteSize tensor.dtype).setWidth 32)
        package.memoryPlan with
    | none =>
      rw [hplan] at h
      cases h
    | some plan =>
      rw [hplan] at h
      simp only [seq_eq_ok, check_eq_ok] at h
      rw [← Except.ok.inj h.2]

theorem foldlM_resolveShape_ops
    (h : shapes.foldlM resolveShape package = .ok resolved) : resolved.ops = package.ops := by
  induction shapes generalizing package with
  | nil =>
    obtain rfl := Except.ok.inj h
    rfl
  | cons shape rest ih =>
    rw [List.foldlM_cons, bind_eq_ok] at h
    obtain ⟨middle, hmiddle, hrest⟩ := h
    rw [ih hrest, resolveShape_ops hmiddle]

theorem resolveRuntimeShapes_valid
    (h : package.resolveRuntimeShapes shapes = .ok resolved) :
    resolved.validate = .ok () ∧ resolved.ops = package.ops := by
  unfold resolveRuntimeShapes at h
  simp only [bind_eq_ok] at h
  obtain ⟨-, -, middle, hfold, _, hvalid, hresolved⟩ := h
  have hops : middle.ops = package.ops := foldlM_resolveShape_ops hfold
  obtain rfl := Except.ok.inj hresolved
  exact ⟨hvalid, hops⟩

/-- A package that the device can execute: one that it has parsed, or one that it has resolved
from such a package and a table of runtime shapes. -/
def Accepted (package : AiGraphPackage) : Prop :=
  ∃ bytes parsed, parseAiGraphPackage bytes = .ok parsed ∧
    (package = parsed ∨ ∃ shapes, parsed.resolveRuntimeShapes shapes = .ok package)

theorem ops_length_of_parse {bytes : ByteCodec.Bytes} {parsed : AiGraphPackage}
    (h : parseAiGraphPackage bytes = .ok parsed) : parsed.ops.length < 2 ^ 16 := by
  unfold parseAiGraphPackage at h
  split_ifs at h
  obtain ⟨header, -, h⟩ := bind_eq_ok.1 h
  obtain ⟨-, -, h⟩ := bind_eq_ok.1 h
  obtain ⟨tensors, -, h⟩ := bind_eq_ok.1 h
  obtain ⟨ops, hops, h⟩ := bind_eq_ok.1 h
  obtain ⟨dependencies, -, h⟩ := bind_eq_ok.1 h
  obtain ⟨memoryPlan, -, h⟩ := bind_eq_ok.1 h
  obtain ⟨dynamicTensors, -, h⟩ := bind_eq_ok.1 h
  obtain ⟨-, -, h⟩ := bind_eq_ok.1 h
  rw [← Except.ok.inj h]
  have hlength : ops.1.length = header.1.opCount.toNat := ByteCodec.length_of_readMany hops
  rw [hlength]
  exact header.1.opCount.isLt

theorem Accepted.valid (h : package.Accepted) :
    package.validate = .ok () ∧ package.ops.length < 2 ^ 16 := by
  obtain ⟨bytes, parsed, hparse, rfl | ⟨shapes, hresolve⟩⟩ := h
  · exact ⟨validate_of_parse hparse, ops_length_of_parse hparse⟩
  obtain ⟨hvalid, hops⟩ := resolveRuntimeShapes_valid hresolve
  exact ⟨hvalid, hops ▸ ops_length_of_parse hparse⟩

end AiGraphPackage

end VisualCpu
