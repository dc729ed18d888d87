import VisualCpu.Devices.GraphPackage
import VisualCpu.Library.ByteCodec

/-!
# The encoding of graph packages

`serialize_ai_graph_package` and `parse_ai_graph_package`, and the same for tables of runtime
shapes: a header with offsets and counts, then the records of five tables. Parsing gives
back every package that is written, and never reads outside the string.
-/

namespace VisualCpu

open ByteCodec Checks AiRuntimeShapeEntry AiDataType

def kAiGraphPackageMagic : BitVec 32 := 0x31475041
def kAiGraphPackageVersion : BitVec 16 := 1
def kAiGraphPackageBaseHeaderBytes : BitVec 16 := 40
def kAiGraphPackageExtendedHeaderBytes : BitVec 16 := 56
def kTensorRecordBytes : ℕ := 36
def kOpRecordBytes : ℕ := 28
def kDependencyRecordBytes : ℕ := 4
def kMemoryPlanRecordBytes : ℕ := 20
def kDynamicTensorRecordBytes : ℕ := 8
def kAiRuntimeShapeEntryBytes : ℕ := 20

abbrev PackageReader := Reader String

def writeWords (words : Vector (BitVec 32) 4) : Bytes :=
  writeU32 (words.get 0) ++ (writeU32 (words.get 1) ++ (writeU32 (words.get 2) ++
    writeU32 (words.get 3)))

def readWords (error : String) : PackageReader (Vector (BitVec 32) 4) := do
  let w₀ ← readU32 error
  let w₁ ← readU32 error
  let w₂ ← readU32 error
  let w₃ ← readU32 error
  pure #v[w₀, w₁, w₂, w₃]

variable (tensor : AiTensorMetadata)

def AiTensorMetadata.write : Bytes :=
  [tensor.dtype.toCode] ++ ([tensor.role.toCode] ++ ([tensor.rank] ++ ([0] ++
    (writeWords tensor.dims ++ writeWords tensor.tileDims))))

def AiTensorMetadata.read : PackageReader AiTensorMetadata := do
  let dtype ← readU8 "tensor table truncated"
  let role ← readU8 "tensor table truncated"
  let rank ← readU8 "tensor table truncated"
  let reserved ← readU8 "tensor table truncated"
  Reader.require (reserved = 0) "tensor reserved field must be zero"
  let dims ← readWords "tensor dims table truncated"
  let tileDims ← readWords "tensor tile table truncated"
  pure {
    dtype := ofCode dtype
    role := AiTensorRole.ofCode role
    rank, dims, tileDims }

variable (op : AiOpDescriptor)

def AiOpDescriptor.write : Bytes :=
  [op.opcode.toCode] ++ ([op.inputDtype.toCode] ++ ([op.accumDtype.toCode] ++ ([0] ++
    (writeU16 op.input0 ++ (writeU16 op.input1 ++ (writeU16 op.input2 ++ (writeU16 op.output ++
      writeWords op.attrs)))))))

def AiOpDescriptor.read : PackageReader AiOpDescriptor := do
  let opcode ← readU8 "opcode table truncated"
  let inputDtype ← readU8 "opcode table truncated"
  let accumDtype ← readU8 "opcode table truncated"
  let reserved ← readU8 "opcode table truncated"
  let input0 ← readU16 "opcode table truncated"
  let input1 ← readU16 "opcode table truncated"
  let input2 ← readU16 "opcode table truncated"
  let output ← readU16 "opcode table truncated"
  Reader.require (reserved = 0) "opcode reserved field must be zero"
  let attrs ← readWords "opcode attrs table truncated"
  pure {
    opcode := AiOpCode.ofCode opcode
    inputDtype := ofCode inputDtype
    accumDtype := ofCode accumDtype
    input0, input1, input2, output, attrs }

variable (edge : AiDependencyEdge)

def AiDependencyEdge.write : Bytes := writeU16 edge.sourceOp ++ writeU16 edge.targetOp

def AiDependencyEdge.read : PackageReader AiDependencyEdge := do
  let sourceOp ← readU16 "dependency table truncated"
  let targetOp ← readU16 "dependency table truncated"
  pure { sourceOp, targetOp }

variable (entry : AiMemoryPlanEntry)

def AiMemoryPlanEntry.write : Bytes :=
  writeU16 entry.tensorIndex ++ (writeU16 0 ++ (writeU32 entry.systemOffset ++
    (writeU32 entry.scratchpadOffset ++ (writeU32 entry.byteSize ++
      writeU32 entry.scratchpadBytes))))

def AiMemoryPlanEntry.read : PackageReader AiMemoryPlanEntry := do
  let tensorIndex ← readU16 "memory plan table truncated"
  let reserved ← readU16 "memory plan table truncated"
  let systemOffset ← readU32 "memory plan table truncated"
  let scratchpadOffset ← readU32 "memory plan table truncated"
  let byteSize ← readU32 "memory plan table truncated"
  let scratchpadBytes ← readU32 "memory plan table truncated"
  Reader.require (reserved = 0) "memory plan reserved field must be zero"
  pure { tensorIndex, systemOffset, scratchpadOffset, byteSize, scratchpadBytes }

variable (metadata : AiDynamicTensorMetadata) {α : Type}

def AiDynamicTensorMetadata.write : Bytes :=
  writeU16 metadata.tensorIndex ++ (writeU16 0 ++ writeU32 metadata.maxTensorBytes)

def AiDynamicTensorMetadata.read : PackageReader AiDynamicTensorMetadata := do
  let tensorIndex ← readU16 "dynamic tensor table truncated"
  let reserved ← readU16 "dynamic tensor table truncated"
  let maxTensorBytes ← readU32 "dynamic tensor table truncated"
  Reader.require (reserved = 0) "dynamic tensor reserved field must be zero"
  pure { tensorIndex, maxTensorBytes }

namespace AiRuntimeShapeEntry

variable (shape : AiRuntimeShapeEntry)

def write : Bytes :=
  writeU16 shape.tensorIndex ++ ([shape.rank] ++ ([0] ++ writeWords shape.dims))

def read : PackageReader AiRuntimeShapeEntry := do
  let tensorIndex ← readU16 "runtime shape table truncated"
  let rank ← readU8 "runtime shape table truncated"
  let reserved ← readU8 "runtime shape table truncated"
  Reader.require (reserved = 0) "runtime shape table reserved byte must be zero"
  let dims ← readWords "runtime shape dims table truncated"
  pure { tensorIndex, rank, dims }

/-- The checks of one axis in `serialize_ai_runtime_shape_table`. -/
def checkAxis (axis : Fin 4) : Except String Unit :=
  if axis.val < shape.rank.toNat then
    check (shape.dims.get axis ≠ 0) "runtime shape dims must be non-zero"
  else check (shape.dims.get axis = 0) "runtime shape trailing dims must be zero"

def checkShape : Except String Unit := do
  check (shape.rank ≠ 0 ∧ shape.rank ≤ 4) "runtime shape rank is out of range"
  checkAll shape.checkAxis (List.finRange 4)

end AiRuntimeShapeEntry

/-- `serialize_ai_runtime_shape_table`. -/
def serializeAiRuntimeShapeTable : List AiRuntimeShapeEntry → Except String Bytes
  | [] => .ok []
  | shape :: rest =>
    match shape.checkShape with
    | .error error => .error error
    | .ok () =>
      match serializeAiRuntimeShapeTable rest with
      | .error error => .error error
      | .ok bytes => .ok (shape.write ++ bytes)

/-- `parse_ai_runtime_shape_table`. -/
def parseAiRuntimeShapeTable (bytes : Bytes) (expectedEntries : ℕ) :
    Except (Failure String) (List AiRuntimeShapeEntry) :=
  if bytes.length ≠ expectedEntries * kAiRuntimeShapeEntryBytes then
    .error (.refused "runtime shape table byte length mismatch")
  else (readMany read expectedEntries bytes 0).map (·.1)

structure ParsedHeader where
  magic : BitVec 32
  (version headerBytes : BitVec 16)
  shapeMode : AiShapeMode := .static
  trainingMode : AiTrainingMode := .inference
  scratchpadBudgetBytes : BitVec 32
  (tensorCount opCount dependencyCount memoryPlanCount : BitVec 16)
  dynamicTensorCount : BitVec 16 := 0
  (tensorsOffset opsOffset dependenciesOffset memoryPlanOffset : BitVec 32)
  dynamicTensorsOffset : BitVec 32 := 0
  packageBytes : BitVec 32
deriving DecidableEq

namespace ParsedHeader

def writeBase (header : ParsedHeader) : Bytes :=
  writeU32 header.magic ++ (writeU16 header.version ++ (writeU16 header.headerBytes ++
    (writeU32 header.scratchpadBudgetBytes ++ (writeU16 header.tensorCount ++
      (writeU16 header.opCount ++ (writeU16 header.dependencyCount ++
        (writeU16 header.memoryPlanCount ++ (writeU32 header.tensorsOffset ++
          (writeU32 header.opsOffset ++ (writeU32 header.dependenciesOffset ++
            (writeU32 header.memoryPlanOffset ++ writeU32 header.packageBytes)))))))))))

def writeExtension (header : ParsedHeader) : Bytes :=
  [header.shapeMode.toCode] ++ ([header.trainingMode.toCode] ++
    (writeU16 header.dynamicTensorCount ++ (writeU32 header.dynamicTensorsOffset ++
      (writeU32 0 ++ writeU32 0))))

def write (header : ParsedHeader) : Bytes :=
  if header.headerBytes = kAiGraphPackageExtendedHeaderBytes then
    header.writeBase ++ header.writeExtension
  else header.writeBase

def readBase : PackageReader ParsedHeader := do
  let magic ← readU32 "graph package header decode failed"
  let version ← readU16 "graph package header decode failed"
  let headerBytes ← readU16 "graph package header decode failed"
  let scratchpadBudgetBytes ← readU32 "graph package header decode failed"
  let tensorCount ← readU16 "graph package header decode failed"
  let opCount ← readU16 "graph package header decode failed"
  let dependencyCount ← readU16 "graph package header decode failed"
  let memoryPlanCount ← readU16 "graph package header decode failed"
  let tensorsOffset ← readU32 "graph package header decode failed"
  let opsOffset ← readU32 "graph package header decode failed"
  let dependenciesOffset ← readU32 "graph package header decode failed"
  let memoryPlanOffset ← readU32 "graph package header decode failed"
  let packageBytes ← readU32 "graph package header decode failed"
  pure {
    magic, version, headerBytes, scratchpadBudgetBytes, tensorCount, opCount, dependencyCount,
    memoryPlanCount, tensorsOffset, opsOffset, dependenciesOffset, memoryPlanOffset, packageBytes }

/-- The fields of an extended header, added to those of the base header. -/
def readExtension (header : ParsedHeader) : PackageReader ParsedHeader := do
  let shapeMode ← readU8 "graph package extended header decode failed"
  let trainingMode ← readU8 "graph package extended header decode failed"
  let dynamicTensorCount ← readU16 "graph package extended header decode failed"
  let dynamicTensorsOffset ← readU32 "graph package extended header decode failed"
  let reserved0 ← readU32 "graph package extended header decode failed"
  let reserved1 ← readU32 "graph package extended header decode failed"
  Reader.require (reserved0 = 0 ∧ reserved1 = 0)
    "graph package extended header reserved fields must be zero"
  pure { header with
    shapeMode := AiShapeMode.ofCode shapeMode
    trainingMode := AiTrainingMode.ofCode trainingMode
    dynamicTensorCount, dynamicTensorsOffset }

/-- `read_header`. -/
def read : PackageReader ParsedHeader := do
  let header ← readBase
  if header.headerBytes = kAiGraphPackageExtendedHeaderBytes then readExtension header
  else pure header

end ParsedHeader

/-- `validate_table_range`. -/
def validateTableRange (offset : BitVec 32) (count recordBytes packageBytes : ℕ) (label : String) :
    Except String Unit := do
  check (offset.toNat ≤ packageBytes) (label ++ " offset is out of range")
  check (count * recordBytes ≤ 0xffffffff) (label ++ " table is too large")
  check (offset.toNat + count * recordBytes ≤ packageBytes) (label ++ " table exceeds package bytes")

/-- The checks of `parse_ai_graph_package` between the header and the tables. -/
def ParsedHeader.check (header : ParsedHeader) (length : ℕ) : Except String Unit := do
  Checks.check (header.magic = kAiGraphPackageMagic) "graph package magic is invalid"
  Checks.check (header.version = kAiGraphPackageVersion) "graph package version is unsupported"
  Checks.check (header.headerBytes = kAiGraphPackageBaseHeaderBytes ∨
      header.headerBytes = kAiGraphPackageExtendedHeaderBytes)
    "graph package header bytes are invalid"
  Checks.check (header.packageBytes.toNat = length) "graph package byte length mismatch"
  let bytes := header.packageBytes.toNat
  validateTableRange header.tensorsOffset header.tensorCount.toNat kTensorRecordBytes bytes "tensor"
  validateTableRange header.opsOffset header.opCount.toNat kOpRecordBytes bytes "opcode"
  validateTableRange header.dependenciesOffset header.dependencyCount.toNat
    kDependencyRecordBytes bytes "dependency"
  validateTableRange header.memoryPlanOffset header.memoryPlanCount.toNat
    kMemoryPlanRecordBytes bytes "memory plan"
  validateTableRange header.dynamicTensorsOffset header.dynamicTensorCount.toNat
    kDynamicTensorRecordBytes bytes "dynamic tensor"

/-- A result of a check as a result of a reader. -/
def refused {α : Type} : Except String α → Except (Failure String) α
  | .error error => .error (.refused error)
  | .ok x => .ok x

/-- `parse_ai_graph_package`. -/
def parseAiGraphPackage (bytes : Bytes) : Except (Failure String) AiGraphPackage := do
  if bytes.length < kAiGraphPackageBaseHeaderBytes.toNat then
    .error (.refused "graph package header truncated")
  else do
    let (header, _) ← ParsedHeader.read bytes 0
    refused (header.check bytes.length)
    let (tensors, _) ←
      readMany AiTensorMetadata.read header.tensorCount.toNat bytes header.tensorsOffset.toNat
    let (ops, _) ← readMany AiOpDescriptor.read header.opCount.toNat bytes header.opsOffset.toNat
    let (dependencies, _) ← readMany AiDependencyEdge.read header.dependencyCount.toNat bytes
      header.dependenciesOffset.toNat
    let (memoryPlan, _) ← readMany AiMemoryPlanEntry.read header.memoryPlanCount.toNat bytes
      header.memoryPlanOffset.toNat
    let (dynamicTensors, _) ← readMany AiDynamicTensorMetadata.read
      header.dynamicTensorCount.toNat bytes header.dynamicTensorsOffset.toNat
    let package : AiGraphPackage := {
      shapeMode := header.shapeMode
      trainingMode := header.trainingMode
      scratchpadBudgetBytes := header.scratchpadBudgetBytes
      tensors, ops, dependencies, memoryPlan, dynamicTensors }
    refused package.validate
    .ok package

namespace AiGraphPackage

variable (package : AiGraphPackage)

def requiresExtendedHeader : Bool :=
  package.shapeMode != .static || package.trainingMode != .inference ||
    !package.dynamicTensors.isEmpty

/-- The header that `serialize_ai_graph_package` writes. -/
def header : ParsedHeader :=
  let headerBytes :=
    if package.requiresExtendedHeader then kAiGraphPackageExtendedHeaderBytes
    else kAiGraphPackageBaseHeaderBytes
  let tensorsOffset : BitVec 32 := headerBytes.setWidth 32
  let opsOffset := tensorsOffset + BitVec.ofNat 32 (package.tensors.length * kTensorRecordBytes)
  let dependenciesOffset := opsOffset + BitVec.ofNat 32 (package.ops.length * kOpRecordBytes)
  let memoryPlanOffset :=
    dependenciesOffset + BitVec.ofNat 32 (package.dependencies.length * kDependencyRecordBytes)
  let dynamicTensorsOffset :=
    memoryPlanOffset + BitVec.ofNat 32 (package.memoryPlan.length * kMemoryPlanRecordBytes)
  let packageBytes := dynamicTensorsOffset +
    BitVec.ofNat 32 (package.dynamicTensors.length * kDynamicTensorRecordBytes)
  { magic := kAiGraphPackageMagic
    version := kAiGraphPackageVersion
    headerBytes
    shapeMode := package.shapeMode
    trainingMode := package.trainingMode
    scratchpadBudgetBytes := package.scratchpadBudgetBytes
    tensorCount := BitVec.ofNat 16 package.tensors.length
    opCount := BitVec.ofNat 16 package.ops.length
    dependencyCount := BitVec.ofNat 16 package.dependencies.length
    memoryPlanCount := BitVec.ofNat 16 package.memoryPlan.length
    dynamicTensorCount := BitVec.ofNat 16 package.dynamicTensors.length
    tensorsOffset, opsOffset, dependenciesOffset, memoryPlanOffset, dynamicTensorsOffset,
    packageBytes }

/-- `fits_u16_count` for every table. -/
def fitsCounts : Bool :=
  package.tensors.length ≤ 0xffff && package.ops.length ≤ 0xffff &&
    package.dependencies.length ≤ 0xffff && package.memoryPlan.length ≤ 0xffff &&
    package.dynamicTensors.length ≤ 0xffff

/-- The header and the tables in the order in which they are written. -/
def encoded : Bytes :=
  package.header.write ++ (package.tensors.flatMap AiTensorMetadata.write ++
    (package.ops.flatMap AiOpDescriptor.write ++
      (package.dependencies.flatMap AiDependencyEdge.write ++
        (package.memoryPlan.flatMap AiMemoryPlanEntry.write ++
          package.dynamicTensors.flatMap AiDynamicTensorMetadata.write))))

/-- `serialize_ai_graph_package`. -/
def serialize : Except String Bytes :=
  if !package.fitsCounts then .error "graph package table count exceeds 16-bit encoding"
  else .ok package.encoded

end AiGraphPackage

theorem reads_readWords (error : String) (words : Vector (BitVec 32) 4) :
    Reads (readWords error) (writeWords words) words := by
  have hwords :
      (#v[words.get 0, words.get 1, words.get 2, words.get 3] : Vector (BitVec 32) 4) = words := by
    ext i hi
    rcases (by omega : i = 0 ∨ i = 1 ∨ i = 2 ∨ i = 3) with rfl | rfl | rfl | rfl <;> rfl
  iterate 3 refine (reads_readU32 _ _).bind ?_
  refine (reads_readU32 _ _).last ?_
  rw [hwords]
  exact reads_pure words

@[simp] theorem inside_readWords (error : String) : Inside (readWords error) := by
  repeat refine Inside.bind (by simp) fun _ => ?_
  simp

theorem AiTensorMetadata.reads : Reads read tensor.write tensor := by
  iterate 4 refine (reads_readU8 _ _).bind ?_
  refine .require rfl _ ((reads_readWords _ _).bind ((reads_readWords _ _).last ?_))
  rw [ofCode_toCode, AiTensorRole.ofCode_toCode]
  exact reads_pure tensor

theorem AiTensorMetadata.inside_read : Inside AiTensorMetadata.read := by
  repeat refine Inside.bind (by simp) fun _ => ?_
  simp

theorem AiOpDescriptor.reads : Reads read op.write op := by
  iterate 4 refine (reads_readU8 _ _).bind ?_
  iterate 4 refine (reads_readU16 _ _).bind ?_
  refine .require rfl _ ((reads_readWords _ _).last ?_)
  rw [AiOpCode.ofCode_toCode, ofCode_toCode, ofCode_toCode]
  exact reads_pure op

theorem AiOpDescriptor.inside_read : Inside AiOpDescriptor.read := by
  repeat refine Inside.bind (by simp) fun _ => ?_
  simp

theorem AiDependencyEdge.reads : Reads read edge.write edge :=
  (reads_readU16 _ _).bind ((reads_readU16 _ _).last (reads_pure edge))

theorem AiDependencyEdge.inside_read : Inside AiDependencyEdge.read := by
  repeat refine Inside.bind (by simp) fun _ => ?_
  simp

theorem AiMemoryPlanEntry.reads : Reads read entry.write entry := by
  iterate 2 refine (reads_readU16 _ _).bind ?_
  iterate 3 refine (reads_readU32 _ _).bind ?_
  exact (reads_readU32 _ _).last (.require rfl _ (reads_pure entry))

theorem AiMemoryPlanEntry.inside_read : Inside AiMemoryPlanEntry.read := by
  repeat refine Inside.bind (by simp) fun _ => ?_
  simp

theorem AiDynamicTensorMetadata.reads : Reads read metadata.write metadata := by
  iterate 2 refine (reads_readU16 _ _).bind ?_
  exact (reads_readU32 _ _).last (.require rfl _ (reads_pure metadata))

theorem AiDynamicTensorMetadata.inside_read : Inside AiDynamicTensorMetadata.read := by
  repeat refine Inside.bind (by simp) fun _ => ?_
  simp

theorem AiRuntimeShapeEntry.reads (shape : AiRuntimeShapeEntry) : Reads read shape.write shape := by
  refine (reads_readU16 _ _).bind ?_
  iterate 2 refine (reads_readU8 _ _).bind ?_
  exact .require rfl _ ((reads_readWords _ _).last (reads_pure shape))

theorem AiRuntimeShapeEntry.inside_read : Inside read := by
  repeat refine Inside.bind (by simp) fun _ => ?_
  simp

namespace ParsedHeader

/-- The base header alone carries the modes of a static package. -/
def base (header : ParsedHeader) : ParsedHeader :=
  { header with
    shapeMode := .static
    trainingMode := .inference
    dynamicTensorCount := 0
    dynamicTensorsOffset := 0 }

theorem reads_base (header : ParsedHeader) : Reads readBase header.writeBase header.base := by
  refine (reads_readU32 _ _).bind ?_
  iterate 2 refine (reads_readU16 _ _).bind ?_
  refine (reads_readU32 _ _).bind ?_
  iterate 4 refine (reads_readU16 _ _).bind ?_
  iterate 4 refine (reads_readU32 _ _).bind ?_
  exact (reads_readU32 _ _).last (reads_pure header.base)

theorem reads_extension (header : ParsedHeader) :
    Reads (readExtension header.base) header.writeExtension header := by
  iterate 2 refine (reads_readU8 _ _).bind ?_
  refine (reads_readU16 _ _).bind ?_
  iterate 2 refine (reads_readU32 _ _).bind ?_
  refine (reads_readU32 _ _).last (.require ⟨rfl, rfl⟩ _ ?_)
  rw [AiShapeMode.ofCode_toCode, AiTrainingMode.ofCode_toCode]
  exact reads_pure header

def written (header : ParsedHeader) : ParsedHeader :=
  if header.headerBytes = kAiGraphPackageExtendedHeaderBytes then header else header.base

theorem reads (header : ParsedHeader) : Reads read header.write header.written := by
  have hbytes : header.base.headerBytes = header.headerBytes := rfl
  unfold read write written
  split_ifs with hextended
  · refine header.reads_base.bind ?_
    rw [hbytes, if_pos hextended]
    exact header.reads_extension
  have hwritten : header.writeBase = header.writeBase ++ [] := by simp
  rw [hwritten]
  refine header.reads_base.bind ?_
  rw [hbytes, if_neg hextended]
  exact reads_pure _

theorem inside_read : Inside ParsedHeader.read := by
  have hbase : Inside readBase := by
    repeat refine Inside.bind (by simp) fun _ => ?_
    simp
  refine hbase.bind fun header => ?_
  split_ifs
  · repeat refine Inside.bind (by simp) fun _ => ?_
    simp
  · exact inside_pure _

end ParsedHeader

theorem AiTensorMetadata.length_write : tensor.write.length = kTensorRecordBytes := rfl

theorem AiOpDescriptor.length_write : op.write.length = kOpRecordBytes := rfl

theorem AiDependencyEdge.length_write : edge.write.length = kDependencyRecordBytes := rfl

theorem AiMemoryPlanEntry.length_write : entry.write.length = kMemoryPlanRecordBytes := rfl

theorem AiDynamicTensorMetadata.length_write :
    metadata.write.length = kDynamicTensorRecordBytes := rfl

theorem AiRuntimeShapeEntry.length_write (shape : AiRuntimeShapeEntry) :
    shape.write.length = kAiRuntimeShapeEntryBytes := rfl

namespace AiGraphPackage

variable {package : AiGraphPackage}

/-- The bytes of the tables, in the order in which they are written. -/
def headerLength (package : AiGraphPackage) : ℕ := if package.requiresExtendedHeader then 56 else 40

theorem headerBytes_eq (package : AiGraphPackage) : package.header.headerBytes =
    if package.requiresExtendedHeader then kAiGraphPackageExtendedHeaderBytes
    else kAiGraphPackageBaseHeaderBytes := rfl

theorem length_header (package : AiGraphPackage) :
    package.header.write.length = package.headerLength := by
  unfold ParsedHeader.write headerLength
  rw [headerBytes_eq]
  cases package.requiresExtendedHeader <;> rfl

theorem length_tensors (package : AiGraphPackage) :
    (package.tensors.flatMap AiTensorMetadata.write).length =
      package.tensors.length * kTensorRecordBytes :=
  length_flatMap_const AiTensorMetadata.length_write _

theorem length_ops (package : AiGraphPackage) :
    (package.ops.flatMap AiOpDescriptor.write).length = package.ops.length * kOpRecordBytes :=
  length_flatMap_const AiOpDescriptor.length_write _

theorem length_dependencies (package : AiGraphPackage) :
    (package.dependencies.flatMap AiDependencyEdge.write).length =
      package.dependencies.length * kDependencyRecordBytes :=
  length_flatMap_const AiDependencyEdge.length_write _

theorem length_memoryPlan (package : AiGraphPackage) :
    (package.memoryPlan.flatMap AiMemoryPlanEntry.write).length =
      package.memoryPlan.length * kMemoryPlanRecordBytes :=
  length_flatMap_const AiMemoryPlanEntry.length_write _

theorem length_dynamicTensors (package : AiGraphPackage) :
    (package.dynamicTensors.flatMap AiDynamicTensorMetadata.write).length =
      package.dynamicTensors.length * kDynamicTensorRecordBytes :=
  length_flatMap_const AiDynamicTensorMetadata.length_write _

/-- The offsets of the tables as numbers; no sum wraps. -/
structure Offsets (package : AiGraphPackage) : Prop where
  tensors : package.header.tensorsOffset.toNat = package.headerLength
  ops : package.header.opsOffset.toNat =
    package.headerLength + package.tensors.length * kTensorRecordBytes
  dependencies : package.header.dependenciesOffset.toNat =
    package.headerLength + package.tensors.length * kTensorRecordBytes +
      package.ops.length * kOpRecordBytes
  memoryPlan : package.header.memoryPlanOffset.toNat =
    package.headerLength + package.tensors.length * kTensorRecordBytes +
      package.ops.length * kOpRecordBytes + package.dependencies.length * kDependencyRecordBytes
  dynamicTensors : package.header.dynamicTensorsOffset.toNat =
    package.headerLength + package.tensors.length * kTensorRecordBytes +
      package.ops.length * kOpRecordBytes + package.dependencies.length * kDependencyRecordBytes +
        package.memoryPlan.length * kMemoryPlanRecordBytes
  packageBytes : package.header.packageBytes.toNat =
    package.headerLength + package.tensors.length * kTensorRecordBytes +
      package.ops.length * kOpRecordBytes + package.dependencies.length * kDependencyRecordBytes +
        package.memoryPlan.length * kMemoryPlanRecordBytes +
          package.dynamicTensors.length * kDynamicTensorRecordBytes

/-- The counts of the tables fit their fields. -/
structure Counts (package : AiGraphPackage) : Prop where
  tensors : package.tensors.length ≤ 0xffff
  ops : package.ops.length ≤ 0xffff
  dependencies : package.dependencies.length ≤ 0xffff
  memoryPlan : package.memoryPlan.length ≤ 0xffff
  dynamicTensors : package.dynamicTensors.length ≤ 0xffff

theorem counts_of_fits (h : package.fitsCounts) : package.Counts := by
  simp only [fitsCounts, Bool.and_eq_true, decide_eq_true_eq] at h
  obtain ⟨⟨⟨⟨htensors, hops⟩, hdependencies⟩, hmemoryPlan⟩, hdynamic⟩ := h
  exact ⟨htensors, hops, hdependencies, hmemoryPlan, hdynamic⟩

theorem next_offset {base next : BitVec 32} {count size : ℕ}
    (hnext : next = base + BitVec.ofNat 32 (count * size))
    (hfits : base.toNat + count * size < 2 ^ 32) : next.toNat = base.toNat + count * size := by
  rw [hnext, BitVec.toNat_add, BitVec.toNat_ofNat]
  omega

theorem headerLength_le (package : AiGraphPackage) : package.headerLength ≤ 56 := by
  unfold headerLength
  split_ifs <;> decide

theorem Counts.offsets (h : package.Counts) : package.Offsets := by
  obtain ⟨htensors, hops, hdependencies, hmemoryPlan, hdynamic⟩ := h
  have hheader := package.headerLength_le
  have h₀ : package.header.tensorsOffset.toNat = package.headerLength := by
    have hoffset : package.header.tensorsOffset = package.header.headerBytes.setWidth 32 := rfl
    rw [hoffset, headerBytes_eq, headerLength]
    cases package.requiresExtendedHeader <;> rfl
  have h₁ := @next_offset package.header.tensorsOffset package.header.opsOffset
    package.tensors.length 36 rfl (by omega)
  have h₂ := @next_offset package.header.opsOffset package.header.dependenciesOffset
    package.ops.length 28 rfl (by omega)
  have h₃ := @next_offset package.header.dependenciesOffset package.header.memoryPlanOffset
    package.dependencies.length 4 rfl (by omega)
  have h₄ := @next_offset package.header.memoryPlanOffset package.header.dynamicTensorsOffset
    package.memoryPlan.length 20 rfl (by omega)
  have h₅ := @next_offset package.header.dynamicTensorsOffset package.header.packageBytes
    package.dynamicTensors.length 8 rfl (by omega)
  refine ⟨h₀, ?_, ?_, ?_, ?_, ?_⟩
  all_goals
    simp only [kTensorRecordBytes, kOpRecordBytes, kDependencyRecordBytes, kMemoryPlanRecordBytes,
      kDynamicTensorRecordBytes]
    omega

def readHeader (package : AiGraphPackage) : ParsedHeader := package.header.written

theorem readHeader_cases (package : AiGraphPackage) : package.readHeader = package.header ∨
      package.readHeader = package.header.base ∧ package.shapeMode = .static ∧
        package.trainingMode = .inference ∧ package.dynamicTensors = [] := by
  unfold readHeader ParsedHeader.written
  cases hextended : package.requiresExtendedHeader with
  | true =>
    left
    rw [if_pos (by rw [headerBytes_eq, hextended]; rfl)]
  | false =>
    right
    rw [if_neg (by rw [headerBytes_eq, hextended]; decide)]
    simp only [requiresExtendedHeader, Bool.or_eq_false_iff, bne_eq_false_iff_eq,
      Bool.not_eq_false', List.isEmpty_iff] at hextended
    exact ⟨rfl, hextended.1.1, hextended.1.2, hextended.2⟩

theorem toNat_count {n : ℕ} (h : n ≤ 0xffff) : (BitVec.ofNat 16 n).toNat = n := by
  rw [BitVec.toNat_ofNat]
  omega

theorem checkTableRange {offset : BitVec 32} {count recordBytes packageBytes : ℕ} {label : String}
    (hcount : count * recordBytes ≤ 0xffffffff)
    (hend : offset.toNat + count * recordBytes ≤ packageBytes) :
    validateTableRange offset count recordBytes packageBytes label = .ok () := by
  unfold validateTableRange
  simp only [seq_eq_ok, check_eq_ok]
  exact ⟨by omega, hcount, hend⟩

theorem check_readHeader (h : package.Counts) :
    package.readHeader.check package.header.packageBytes.toNat = .ok () := by
  have hoffsets := h.offsets
  obtain ⟨htensors, hops, hdependencies, hmemoryPlan, hdynamic⟩ := h
  have hkind : package.header.headerBytes = kAiGraphPackageBaseHeaderBytes ∨
      package.header.headerBytes = kAiGraphPackageExtendedHeaderBytes := by
    rw [headerBytes_eq]
    split_ifs
    · exact .inr rfl
    · exact .inl rfl
  have hsizes := hoffsets.packageBytes
  simp only [kTensorRecordBytes, kOpRecordBytes, kDependencyRecordBytes, kMemoryPlanRecordBytes,
    kDynamicTensorRecordBytes] at hsizes
  have hcheck : ∀ header : ParsedHeader, header.magic = package.header.magic →
      header.version = package.header.version → header.headerBytes = package.header.headerBytes →
      header.packageBytes = package.header.packageBytes →
      header.tensorsOffset = package.header.tensorsOffset →
      header.opsOffset = package.header.opsOffset →
      header.dependenciesOffset = package.header.dependenciesOffset →
      header.memoryPlanOffset = package.header.memoryPlanOffset →
      header.tensorCount = package.header.tensorCount → header.opCount = package.header.opCount →
      header.dependencyCount = package.header.dependencyCount →
      header.memoryPlanCount = package.header.memoryPlanCount →
      validateTableRange header.dynamicTensorsOffset header.dynamicTensorCount.toNat
        kDynamicTensorRecordBytes package.header.packageBytes.toNat "dynamic tensor" = .ok () →
      header.check package.header.packageBytes.toNat = .ok () := by
    intro header hmagic hversion hheaderBytes hbytes htensorsOffset hopsOffset hdependenciesOffset
      hmemoryPlanOffset htensorCount hopCount hdependencyCount hmemoryPlanCount hlast
    unfold ParsedHeader.check
    simp only [seq_eq_ok, check_eq_ok, hmagic, hversion, hheaderBytes, hbytes, htensorsOffset,
      hopsOffset, hdependenciesOffset, hmemoryPlanOffset, htensorCount, hopCount, hdependencyCount,
      hmemoryPlanCount, hlast, and_true]
    have htensors' : package.header.tensorCount.toNat = package.tensors.length :=
      toNat_count htensors
    have hops' : package.header.opCount.toNat = package.ops.length := toNat_count hops
    have hdependencies' : package.header.dependencyCount.toNat = package.dependencies.length :=
      toNat_count hdependencies
    have hmemoryPlan' : package.header.memoryPlanCount.toNat = package.memoryPlan.length :=
      toNat_count hmemoryPlan
    rw [htensors', hops', hdependencies', hmemoryPlan']
    refine ⟨rfl, rfl, hkind, trivial, ?_, ?_, ?_, ?_⟩
    · apply checkTableRange
      · simp only [kTensorRecordBytes]
        omega
      rw [hoffsets.tensors, hoffsets.packageBytes]
      omega
    · apply checkTableRange
      · simp only [kOpRecordBytes]
        omega
      rw [hoffsets.ops, hoffsets.packageBytes]
      omega
    · apply checkTableRange
      · simp only [kDependencyRecordBytes]
        omega
      rw [hoffsets.dependencies, hoffsets.packageBytes]
      omega
    · apply checkTableRange
      · simp only [kMemoryPlanRecordBytes]
        omega
      rw [hoffsets.memoryPlan, hoffsets.packageBytes]
      omega
  rcases package.readHeader_cases with hread | ⟨hread, -⟩
  · rw [hread]
    refine hcheck _ rfl rfl rfl rfl rfl rfl rfl rfl rfl rfl rfl rfl ?_
    have hdynamic' : package.header.dynamicTensorCount.toNat = package.dynamicTensors.length :=
      toNat_count hdynamic
    rw [hdynamic']
    apply checkTableRange
    · simp only [kDynamicTensorRecordBytes]
      omega
    · rw [hoffsets.dynamicTensors, hoffsets.packageBytes]
  · rw [hread]
    refine hcheck _ rfl rfl rfl rfl rfl rfl rfl rfl rfl rfl rfl rfl ?_
    apply checkTableRange
    · simp [ParsedHeader.base]
    · simp [ParsedHeader.base]

theorem length_encoded (h : package.Counts) :
    package.encoded.length = package.header.packageBytes.toNat := by
  rw [h.offsets.packageBytes]
  simp only [encoded, List.length_append, length_header, length_tensors, length_ops,
    length_dependencies, length_memoryPlan, length_dynamicTensors]
  omega

theorem read_header (package : AiGraphPackage) :
    ParsedHeader.read package.encoded 0 = .ok (package.readHeader, package.headerLength) := by
  have hreads := package.header.reads [] (package.tensors.flatMap AiTensorMetadata.write ++
    (package.ops.flatMap AiOpDescriptor.write ++
      (package.dependencies.flatMap AiDependencyEdge.write ++
        (package.memoryPlan.flatMap AiMemoryPlanEntry.write ++
          package.dynamicTensors.flatMap AiDynamicTensorMetadata.write))))
  rw [List.nil_append, List.length_nil, Nat.zero_add, package.length_header] at hreads
  exact hreads

section

variable (h : package.Counts)

include h

theorem read_tensors : ∃ next, readMany AiTensorMetadata.read package.tensors.length package.encoded
      package.header.tensorsOffset.toNat = .ok (package.tensors, next) := by
  refine (Reads.readMany AiTensorMetadata.reads package.tensors).at package.header.write ?_ ?_
  · exact ⟨_, rfl⟩
  · rw [h.offsets.tensors, length_header]

theorem read_ops : ∃ next, readMany AiOpDescriptor.read package.ops.length package.encoded
      package.header.opsOffset.toNat = .ok (package.ops, next) := by
  refine (Reads.readMany AiOpDescriptor.reads package.ops).at
    (package.header.write ++ package.tensors.flatMap AiTensorMetadata.write) ?_ ?_
  · simp only [encoded, List.append_assoc]
    exact ⟨_, rfl⟩
  · rw [h.offsets.ops, List.length_append, length_header, length_tensors]

theorem read_dependencies :
    ∃ next, readMany AiDependencyEdge.read package.dependencies.length package.encoded
      package.header.dependenciesOffset.toNat = .ok (package.dependencies, next) := by
  refine (Reads.readMany AiDependencyEdge.reads package.dependencies).at
    (package.header.write ++ package.tensors.flatMap AiTensorMetadata.write ++
      package.ops.flatMap AiOpDescriptor.write) ?_ ?_
  · simp only [encoded, List.append_assoc]
    exact ⟨_, rfl⟩
  rw [h.offsets.dependencies, List.length_append, List.length_append, length_header,
    length_tensors, length_ops]

theorem read_memoryPlan :
    ∃ next, readMany AiMemoryPlanEntry.read package.memoryPlan.length package.encoded
      package.header.memoryPlanOffset.toNat = .ok (package.memoryPlan, next) := by
  refine (Reads.readMany AiMemoryPlanEntry.reads package.memoryPlan).at
    (package.header.write ++ package.tensors.flatMap AiTensorMetadata.write ++
      package.ops.flatMap AiOpDescriptor.write ++
        package.dependencies.flatMap AiDependencyEdge.write) ?_ ?_
  · simp only [encoded, List.append_assoc]
    exact ⟨_, rfl⟩
  rw [h.offsets.memoryPlan, List.length_append, List.length_append, List.length_append,
    length_header, length_tensors, length_ops, length_dependencies]

theorem read_dynamicTensors :
    ∃ next, readMany AiDynamicTensorMetadata.read package.readHeader.dynamicTensorCount.toNat
      package.encoded package.readHeader.dynamicTensorsOffset.toNat =
        .ok (package.dynamicTensors, next) := by
  rcases package.readHeader_cases with hread | ⟨hread, -, -, hnone⟩
  · have hcount : package.header.dynamicTensorCount.toNat = package.dynamicTensors.length :=
      toNat_count h.dynamicTensors
    rw [hread, hcount]
    refine (Reads.readMany AiDynamicTensorMetadata.reads package.dynamicTensors).at
      (package.header.write ++ package.tensors.flatMap AiTensorMetadata.write ++
        package.ops.flatMap AiOpDescriptor.write ++
          package.dependencies.flatMap AiDependencyEdge.write ++
            package.memoryPlan.flatMap AiMemoryPlanEntry.write) ?_ ?_
    · refine ⟨[], ?_⟩
      simp only [encoded, List.append_assoc, List.append_nil]
    rw [h.offsets.dynamicTensors, List.length_append, List.length_append, List.length_append,
      List.length_append, length_header, length_tensors, length_ops, length_dependencies,
      length_memoryPlan]
  · rw [hread, hnone]
    exact ⟨_, rfl⟩

theorem readHeader_fields : package.readHeader.tensorCount.toNat = package.tensors.length ∧
      package.readHeader.opCount.toNat = package.ops.length ∧
      package.readHeader.dependencyCount.toNat = package.dependencies.length ∧
      package.readHeader.memoryPlanCount.toNat = package.memoryPlan.length ∧
      package.readHeader.shapeMode = package.shapeMode ∧
      package.readHeader.trainingMode = package.trainingMode := by
  have htensors : package.header.tensorCount.toNat = package.tensors.length :=
    toNat_count h.tensors
  have hops : package.header.opCount.toNat = package.ops.length := toNat_count h.ops
  have hdependencies : package.header.dependencyCount.toNat = package.dependencies.length :=
    toNat_count h.dependencies
  have hmemoryPlan : package.header.memoryPlanCount.toNat = package.memoryPlan.length :=
    toNat_count h.memoryPlan
  rcases package.readHeader_cases with hread | ⟨hread, hshape, htraining, -⟩
  · rw [hread]
    exact ⟨htensors, hops, hdependencies, hmemoryPlan, rfl, rfl⟩
  rw [hread, hshape, htraining]
  exact ⟨htensors, hops, hdependencies, hmemoryPlan, rfl, rfl⟩

end

theorem readHeader_offsets (package : AiGraphPackage) :
    package.readHeader.tensorsOffset = package.header.tensorsOffset ∧
      package.readHeader.opsOffset = package.header.opsOffset ∧
      package.readHeader.dependenciesOffset = package.header.dependenciesOffset ∧
      package.readHeader.memoryPlanOffset = package.header.memoryPlanOffset ∧
      package.readHeader.scratchpadBudgetBytes = package.scratchpadBudgetBytes := by
  rcases package.readHeader_cases with hread | ⟨hread, -⟩
  · rw [hread]
    exact ⟨rfl, rfl, rfl, rfl, rfl⟩
  rw [hread]
  exact ⟨rfl, rfl, rfl, rfl, rfl⟩

theorem parse_encoded (hcounts : package.Counts) (hvalid : package.validate = .ok ()) :
    parseAiGraphPackage package.encoded = .ok package := by
  have hheader := package.read_header
  obtain ⟨_, htensors⟩ := read_tensors hcounts
  obtain ⟨_, hops⟩ := read_ops hcounts
  obtain ⟨_, hdependencies⟩ := read_dependencies hcounts
  obtain ⟨_, hmemoryPlan⟩ := read_memoryPlan hcounts
  obtain ⟨_, hdynamicTensors⟩ := read_dynamicTensors hcounts
  obtain ⟨htensorCount, hopCount, hdependencyCount, hmemoryPlanCount, hshape, htraining⟩ :=
    readHeader_fields hcounts
  obtain ⟨htensorsOffset, hopsOffset, hdependenciesOffset, hmemoryPlanOffset, hbudget⟩ :=
    package.readHeader_offsets
  have hcheck := check_readHeader hcounts
  have hlong : ¬package.encoded.length < kAiGraphPackageBaseHeaderBytes.toNat := by
    have hbase : 40 ≤ package.headerLength := by
      unfold headerLength
      split_ifs <;> decide
    rw [length_encoded hcounts, hcounts.offsets.packageBytes]
    have hforty : kAiGraphPackageBaseHeaderBytes.toNat = 40 := rfl
    omega
  unfold parseAiGraphPackage
  rw [if_neg hlong, hheader]
  simp only [bind, Except.bind, length_encoded hcounts, hcheck, refused, htensorCount, hopCount,
    hdependencyCount, hmemoryPlanCount, htensorsOffset, hopsOffset, hdependenciesOffset,
    hmemoryPlanOffset, htensors, hops, hdependencies, hmemoryPlan, hdynamicTensors, hshape,
    htraining, hbudget, hvalid]

theorem parse_serialize {bytes : Bytes} (hserialize : package.serialize = .ok bytes)
    (hvalid : package.validate = .ok ()) : parseAiGraphPackage bytes = .ok package := by
  unfold serialize at hserialize
  split_ifs at hserialize with hfits
  have hcounts := counts_of_fits (by simpa using hfits)
  rw [← Except.ok.inj hserialize]
  exact parse_encoded hcounts hvalid

end AiGraphPackage

theorem contained_refused (result : Except String α) : Contained (refused result) := by
  intro h
  cases result with
  | error error => cases h
  | ok x => cases h

theorem contained_parseAiGraphPackage (bytes : Bytes) : Contained (parseAiGraphPackage bytes) := by
  unfold parseAiGraphPackage
  split_ifs
  · intro h
    cases h
  refine Contained.bind (ParsedHeader.inside_read bytes 0) fun header => ?_
  refine Contained.bind (contained_refused _) fun _ => ?_
  refine Contained.bind (AiTensorMetadata.inside_read.readMany _ bytes _) fun tensors => ?_
  refine Contained.bind (AiOpDescriptor.inside_read.readMany _ bytes _) fun ops => ?_
  refine Contained.bind (AiDependencyEdge.inside_read.readMany _ bytes _) fun dependencies => ?_
  refine Contained.bind (AiMemoryPlanEntry.inside_read.readMany _ bytes _) fun memoryPlan => ?_
  refine Contained.bind (AiDynamicTensorMetadata.inside_read.readMany _ bytes _) fun dynamic => ?_
  exact Contained.bind (contained_refused _) fun _ => contained_ok _

theorem refused_eq_ok {result : Except String α} {x : α} :
    refused result = .ok x ↔ result = .ok x := by
  cases result <;> simp [refused]

variable {bytes : Bytes} {shapes : List AiRuntimeShapeEntry}

theorem validate_of_parse {package : AiGraphPackage}
    (h : parseAiGraphPackage bytes = .ok package) : package.validate = .ok () := by
  unfold parseAiGraphPackage at h
  split_ifs at h
  obtain ⟨header, -, h⟩ := bind_eq_ok.1 h
  obtain ⟨-, -, h⟩ := bind_eq_ok.1 h
  obtain ⟨tensors, -, h⟩ := bind_eq_ok.1 h
  obtain ⟨ops, -, h⟩ := bind_eq_ok.1 h
  obtain ⟨dependencies, -, h⟩ := bind_eq_ok.1 h
  obtain ⟨memoryPlan, -, h⟩ := bind_eq_ok.1 h
  obtain ⟨dynamicTensors, -, h⟩ := bind_eq_ok.1 h
  obtain ⟨u, hvalid, h⟩ := bind_eq_ok.1 h
  rw [← Except.ok.inj h]
  exact refused_eq_ok.1 hvalid

theorem serializeAiRuntimeShapeTable_eq_ok
    (h : serializeAiRuntimeShapeTable shapes = .ok bytes) :
    bytes = shapes.flatMap write := by
  induction shapes generalizing bytes with
  | nil => exact (Except.ok.inj h).symm
  | cons shape rest ih =>
    unfold serializeAiRuntimeShapeTable at h
    cases hcheck : shape.checkShape with
    | error error =>
      rw [hcheck] at h
      cases h
    | ok =>
      cases hrest : serializeAiRuntimeShapeTable rest with
      | error error =>
        rw [hcheck, hrest] at h
        cases h
      | ok tail =>
        rw [hcheck, hrest] at h
        rw [← Except.ok.inj h, ih hrest, List.flatMap_cons]

theorem parse_runtimeShapeTable (shapes : List AiRuntimeShapeEntry) :
    parseAiRuntimeShapeTable (shapes.flatMap write) shapes.length = .ok shapes := by
  have hlength : (shapes.flatMap write).length = shapes.length * kAiRuntimeShapeEntryBytes :=
    length_flatMap_const length_write _
  have hread : ∃ next, readMany read shapes.length
      (shapes.flatMap write) 0 = .ok (shapes, next) := by
    refine (Reads.readMany reads shapes).at [] ⟨[], ?_⟩ rfl
    rw [List.append_nil, List.nil_append]
  obtain ⟨next, hread⟩ := hread
  unfold parseAiRuntimeShapeTable
  rw [if_neg (by simpa using hlength), hread]
  rfl

theorem parse_serialize_runtimeShapeTable
    (h : serializeAiRuntimeShapeTable shapes = .ok bytes) :
    parseAiRuntimeShapeTable bytes shapes.length = .ok shapes := by
  rw [serializeAiRuntimeShapeTable_eq_ok h]
  exact parse_runtimeShapeTable shapes

theorem contained_parseAiRuntimeShapeTable (bytes : Bytes) (expectedEntries : ℕ) :
    Contained (parseAiRuntimeShapeTable bytes expectedEntries) := by
  unfold parseAiRuntimeShapeTable
  split_ifs
  · intro h
    cases h
  intro h
  have hinside := inside_read.readMany expectedEntries bytes 0
  cases hread : readMany read expectedEntries bytes 0 with
  | error failure =>
    rw [hread] at h hinside
    cases h
    exact hinside rfl
  | ok result =>
    rw [hread] at h
    cases h

/-- Packages and tables of runtime shapes are read back as they were written, and parsing
any string stays inside it and gives a validated package or an error. -/
theorem graphCodec_roundTrips :
    (∀ (package : AiGraphPackage) (bytes : Bytes), package.serialize = .ok bytes →
      package.validate = .ok () → parseAiGraphPackage bytes = .ok package) ∧
    (∀ bytes : Bytes, (∃ package, parseAiGraphPackage bytes = .ok package ∧
        package.validate = .ok ()) ∨
      ∃ error, parseAiGraphPackage bytes = .error (.refused error)) ∧
    (∀ (shapes : List AiRuntimeShapeEntry) (bytes : Bytes),
      serializeAiRuntimeShapeTable shapes = .ok bytes →
        parseAiRuntimeShapeTable bytes shapes.length = .ok shapes) ∧
    ∀ (bytes : Bytes) (expectedEntries : ℕ),
      (∃ shapes, parseAiRuntimeShapeTable bytes expectedEntries = .ok shapes) ∨
        ∃ error, parseAiRuntimeShapeTable bytes expectedEntries = .error (.refused error) := by
  refine ⟨fun package bytes hserialize hvalid => AiGraphPackage.parse_serialize hserialize hvalid,
    fun bytes => ?_, fun shapes bytes h => parse_serialize_runtimeShapeTable h,
    fun bytes expectedEntries => ?_⟩
  · cases hparse : parseAiGraphPackage bytes with
    | ok package => exact .inl ⟨package, rfl, validate_of_parse hparse⟩
    | error failure =>
      cases failure with
      | refused error => exact .inr ⟨error, rfl⟩
      | outside => exact absurd hparse (contained_parseAiGraphPackage bytes)
  · cases hparse : parseAiRuntimeShapeTable bytes expectedEntries with
    | ok shapes => exact .inl ⟨shapes, rfl⟩
    | error failure =>
      cases failure with
      | refused error => exact .inr ⟨error, rfl⟩
      | outside => exact absurd hparse (contained_parseAiRuntimeShapeTable bytes expectedEntries)

/-- A package with one operation on two tensors of four bytes. -/
def reluPackage : AiGraphPackage :=
  let tensor (role : AiTensorRole) : AiTensorMetadata :=
    { dtype := .int8, role, rank := 1, dims := axes 4 0 0 0, tileDims := axes 4 0 0 0 }
  let plan (tensorIndex : BitVec 16) (offset : BitVec 32) : AiMemoryPlanEntry :=
    { tensorIndex, systemOffset := offset, scratchpadOffset := offset, byteSize := 4,
      scratchpadBytes := 4 }
  { shapeMode := .static
    trainingMode := .inference
    scratchpadBudgetBytes := 8
    tensors := [tensor .input, tensor .output]
    ops := [{
      opcode := .eltwiseRelu, inputDtype := .int8, accumDtype := .int32, input0 := 0,
      input1 := kAiInvalidTensorIndex, input2 := kAiInvalidTensorIndex, output := 1,
      attrs := axes 0 0 0 0 }]
    dependencies := []
    memoryPlan := [plan 0 0, plan 1 4]
    dynamicTensors := [] }

theorem reluPackage_roundTrips : parseAiGraphPackage reluPackage.encoded = .ok reluPackage ∧
      parseAiRuntimeShapeTable (write ⟨0, 1, #v[4, 0, 0, 0]⟩) 1 = .ok [⟨0, 1, #v[4, 0, 0, 0]⟩] :=
  ⟨graphCodec_roundTrips.1 reluPackage _ (by decide +kernel) (by decide +kernel),
    graphCodec_roundTrips.2.2.1 [⟨0, 1, #v[4, 0, 0, 0]⟩] _ (by decide)⟩

end VisualCpu
