import VisualCpu.Devices.KernelSafety

/-!
# Resolved packages

What the resolution of runtime shapes makes of a package: the dynamic tensors get the
requested shapes and plans of the new sizes, and everything else stays.
-/

namespace VisualCpu

open List BitVec Checks

def AiRuntimeShapeEntry.exactByteSize (shape : AiRuntimeShapeEntry) (dtype : AiDataType) : ℕ :=
  exactElementCount shape.rank shape.dims * dtype.sizeBytes

theorem AiRuntimeShapeEntry.byteSize_toNat (shape : AiRuntimeShapeEntry) (dtype : AiDataType) :
    (shape.byteSize dtype).toNat = shape.exactByteSize dtype % 2 ^ 64 := by
  have hle := dtype.sizeBytes_le
  unfold byteSize exactByteSize elementCount
  rw [toNat_mul, elementCount_toNat, toNat_ofNat, ← Nat.mul_mod]

def AiMemoryPlanEntry.resize (entry : AiMemoryPlanEntry) (size : BitVec 32) : AiMemoryPlanEntry :=
  { entry with byteSize := size, scratchpadBytes := size }

theorem resizePlan_eq {index : BitVec 16} {size : BitVec 32} {plan resized : List AiMemoryPlanEntry}
    (hnodup : (plan.map (·.tensorIndex)).Nodup) (h : resizePlan index size plan = some resized) :
    resized = plan.map fun entry =>
      if entry.tensorIndex = index then entry.resize size else entry := by
  induction plan generalizing resized with
  | nil => cases h
  | cons entry rest ih =>
    obtain ⟨hfresh, hrest⟩ := nodup_cons.1 hnodup
    unfold resizePlan at h
    by_cases hindex : entry.tensorIndex = index
    · rw [if_pos hindex] at h
      have htail : ∀ other ∈ rest,
          (if other.tensorIndex = index then other.resize size else other) = other := by
        intro other hother
        apply if_neg
        intro hsame
        exact hfresh (mem_map.2 ⟨other, hother, hsame.trans hindex.symm⟩)
      rw [← Option.some.inj h, map_cons, if_pos hindex, map_congr_left htail, map_id']
      rfl
    · rw [if_neg hindex] at h
      obtain ⟨tail, htail, rfl⟩ := Option.map_eq_some_iff.1 h
      rw [map_cons, if_neg hindex, ih hrest htail]

namespace AiGraphPackage

/-- What the shapes of a table make of the plan of a tensor. -/
structure Replanned (shapes : List AiRuntimeShapeEntry) (package : AiGraphPackage)
    (entry entry' : AiMemoryPlanEntry) : Prop where
  tensorIndex : entry'.tensorIndex = entry.tensorIndex
  systemOffset : entry'.systemOffset = entry.systemOffset
  scratchpadOffset : entry'.scratchpadOffset = entry.scratchpadOffset
  fixed : (∀ shape ∈ shapes, shape.tensorIndex ≠ entry.tensorIndex) → entry' = entry
  resized : ∀ shape ∈ shapes, shape.tensorIndex = entry.tensorIndex → ∀ tensor,
    package.tensor? shape.tensorIndex = some tensor →
      entry'.byteSize = (shape.byteSize tensor.dtype).setWidth 32 ∧
      entry'.scratchpadBytes = (shape.byteSize tensor.dtype).setWidth 32

/-- What the shapes of a table make of the tensors and plans of a package. -/
structure Reshaped (shapes : List AiRuntimeShapeEntry) (package resolved : AiGraphPackage) :
    Prop where
  budget : resolved.scratchpadBudgetBytes = package.scratchpadBudgetBytes
  ops : resolved.ops = package.ops
  dependencies : resolved.dependencies = package.dependencies
  tensorCount : resolved.tensors.length = package.tensors.length
  fixed : ∀ i : ℕ, (∀ shape ∈ shapes, shape.tensorIndex.toNat ≠ i) →
    resolved.tensors[i]? = package.tensors[i]?
  reshaped : ∀ shape ∈ shapes, ∃ tensor, package.tensor? shape.tensorIndex = some tensor ∧
    resolved.tensor? shape.tensorIndex = some (tensor.reshape shape)
  planCount : resolved.memoryPlan.length = package.memoryPlan.length
  plan : ∀ (k : ℕ) (entry : AiMemoryPlanEntry), package.memoryPlan[k]? = some entry →
    ∃ entry', resolved.memoryPlan[k]? = some entry' ∧ Replanned shapes package entry entry'

variable {package middle resolved : AiGraphPackage} {shape : AiRuntimeShapeEntry}
  {shapes rest : List AiRuntimeShapeEntry}

theorem Reshaped.refl (package : AiGraphPackage) : Reshaped [] package package where
  budget := rfl
  ops := rfl
  dependencies := rfl
  tensorCount := rfl
  fixed _ _ := rfl
  reshaped _ h := nomatch h
  planCount := rfl
  plan _ entry h := ⟨entry, h, rfl, rfl, rfl, fun _ => rfl, fun _ h => nomatch h⟩

theorem Reshaped.planned (h : Reshaped shapes package resolved) :
    resolved.memoryPlan.map (·.tensorIndex) = package.memoryPlan.map (·.tensorIndex) := by
  apply List.ext_getElem?
  intro k
  rw [List.getElem?_map, List.getElem?_map]
  cases hentry : package.memoryPlan[k]? with
  | none =>
    have hout : resolved.memoryPlan[k]? = none := by
      rw [List.getElem?_eq_none_iff, h.planCount]
      exact List.getElem?_eq_none_iff.1 hentry
    rw [hout]
  | some entry =>
    obtain ⟨entry', hentry', hreplanned⟩ := h.plan k entry hentry
    rw [hentry', Option.map_some, Option.map_some, hreplanned.tensorIndex]

theorem resolveShape_reshaped (hnodup : (package.memoryPlan.map (·.tensorIndex)).Nodup)
    (h : package.resolveShape shape = .ok resolved) : Reshaped [shape] package resolved := by
  unfold resolveShape at h
  cases htensor : package.tensor? shape.tensorIndex with
  | none =>
    rw [htensor] at h
    cases h
  | some tensor =>
    rw [htensor] at h
    dsimp only at h
    cases hplan : resizePlan shape.tensorIndex ((shape.byteSize tensor.dtype).setWidth 32)
        package.memoryPlan with
    | none =>
      rw [hplan] at h
      cases h
    | some plan =>
      rw [hplan] at h
      simp only [seq_eq_ok, check_eq_ok] at h
      obtain ⟨-, h⟩ := h
      obtain rfl := Except.ok.inj h
      have hresized := resizePlan_eq hnodup hplan
      have hlt : shape.tensorIndex.toNat < package.tensors.length :=
        (List.getElem?_eq_some_iff.1 htensor).1
      constructor
      case budget => rfl
      case ops => rfl
      case dependencies => rfl
      case tensorCount => exact length_set
      case fixed =>
        intro i hi
        exact List.getElem?_set_ne (hi shape (mem_singleton_self shape))
      case reshaped =>
        intro other hother
        obtain rfl := mem_singleton.1 hother
        exact ⟨tensor, htensor, List.getElem?_set_self hlt⟩
      case planCount => rw [hresized, length_map]
      case plan =>
        intro k entry hentry
        refine ⟨_, by rw [hresized, List.getElem?_map, hentry, Option.map_some], ?_⟩
        by_cases hindex : entry.tensorIndex = shape.tensorIndex
        · rw [if_pos hindex]
          constructor
          case tensorIndex => rfl
          case systemOffset => rfl
          case scratchpadOffset => rfl
          case fixed =>
            intro hnone
            exact absurd hindex.symm (hnone shape (mem_singleton_self shape))
          case resized =>
            intro other hother _ other_tensor hother_tensor
            obtain rfl := mem_singleton.1 hother
            obtain rfl := Option.some.inj (htensor.symm.trans hother_tensor)
            exact ⟨rfl, rfl⟩
        · rw [if_neg hindex]
          constructor
          case tensorIndex => rfl
          case systemOffset => rfl
          case scratchpadOffset => rfl
          case fixed => exact fun _ => rfl
          case resized =>
            intro other hother heq
            obtain rfl := mem_singleton.1 hother
            exact absurd heq.symm hindex

theorem Reshaped.cons (hfirst : Reshaped [shape] package middle)
    (hrest : Reshaped rest middle resolved)
    (hdistinct : ∀ later ∈ rest, later.tensorIndex ≠ shape.tensorIndex) :
    Reshaped (shape :: rest) package resolved := by
  have hne : ∀ later ∈ rest, shape.tensorIndex.toNat ≠ later.tensorIndex.toNat :=
    fun later hlater heq => hdistinct later hlater (eq_of_toNat_eq heq.symm)
  have hlater : ∀ later ∈ rest,
      middle.tensor? later.tensorIndex = package.tensor? later.tensorIndex := by
    intro later hin
    apply hfirst.fixed
    intro other hother
    rw [mem_singleton.1 hother]
    exact hne later hin
  constructor
  case budget => rw [hrest.budget, hfirst.budget]
  case ops => rw [hrest.ops, hfirst.ops]
  case dependencies => rw [hrest.dependencies, hfirst.dependencies]
  case tensorCount => rw [hrest.tensorCount, hfirst.tensorCount]
  case planCount => rw [hrest.planCount, hfirst.planCount]
  case fixed =>
    intro i hi
    rw [hrest.fixed i fun other hother => hi other (mem_cons_of_mem _ hother)]
    apply hfirst.fixed
    intro other hother
    rw [mem_singleton.1 hother]
    exact hi shape mem_cons_self
  case reshaped =>
    intro other hother
    rcases mem_cons.1 hother with rfl | hin
    · obtain ⟨tensor, htensor, hreshaped⟩ := hfirst.reshaped other (mem_singleton_self other)
      have hkept : resolved.tensor? other.tensorIndex = middle.tensor? other.tensorIndex :=
        hrest.fixed _ fun later hin => (hne later hin).symm
      exact ⟨tensor, htensor, hkept.trans hreshaped⟩
    · obtain ⟨tensor, htensor, hreshaped⟩ := hrest.reshaped other hin
      exact ⟨tensor, (hlater other hin).symm.trans htensor, hreshaped⟩
  case plan =>
    intro k entry hentry
    obtain ⟨between, hbetween, hone⟩ := hfirst.plan k entry hentry
    obtain ⟨entry', hentry', htwo⟩ := hrest.plan k between hbetween
    refine ⟨entry', hentry', ?_⟩
    constructor
    case tensorIndex => rw [htwo.tensorIndex, hone.tensorIndex]
    case systemOffset => rw [htwo.systemOffset, hone.systemOffset]
    case scratchpadOffset => rw [htwo.scratchpadOffset, hone.scratchpadOffset]
    case fixed =>
      intro hnone
      have hsame := hone.fixed fun other hother => by
        rw [mem_singleton.1 hother]
        exact hnone shape mem_cons_self
      rw [htwo.fixed, hsame]
      intro later hin
      rw [hsame]
      exact hnone later (mem_cons_of_mem _ hin)
    case resized =>
      intro other hother hindex tensor htensor
      rcases mem_cons.1 hother with rfl | hin
      · have hkept : entry' = between := by
          apply htwo.fixed
          intro later hin
          rw [hone.tensorIndex, ← hindex]
          exact hdistinct later hin
        rw [hkept]
        exact hone.resized other (mem_singleton_self other) hindex tensor htensor
      · apply htwo.resized other hin (hindex.trans hone.tensorIndex.symm)
        exact (hlater other hin).trans htensor

theorem foldlM_resolveShape_reshaped (hnodup : (package.memoryPlan.map (·.tensorIndex)).Nodup)
    (hdistinct : (shapes.map (·.tensorIndex)).Nodup)
    (h : shapes.foldlM resolveShape package = .ok resolved) :
    Reshaped shapes package resolved := by
  induction shapes generalizing package with
  | nil =>
    obtain rfl := Except.ok.inj h
    exact Reshaped.refl package
  | cons shape rest ih =>
    rw [foldlM_cons, bind_eq_ok] at h
    obtain ⟨middle, hmiddle, hrest⟩ := h
    obtain ⟨hfresh, htail⟩ := nodup_cons.1 hdistinct
    have hfirst := resolveShape_reshaped hnodup hmiddle
    have hplanned : (middle.memoryPlan.map (·.tensorIndex)).Nodup := by
      rw [hfirst.planned]
      exact hnodup
    apply hfirst.cons (ih hplanned htail hrest)
    intro later hlater heq
    exact hfresh (mem_map.2 ⟨later, hlater, heq⟩)

theorem validateMemoryPlan_nodup {planned : List (BitVec 16)} {entries : List AiMemoryPlanEntry}
    (h : package.validateMemoryPlan planned entries = .ok ()) :
    (entries.map (·.tensorIndex)).Nodup ∧ ∀ entry ∈ entries, entry.tensorIndex ∉ planned := by
  induction entries generalizing planned with
  | nil => exact ⟨nodup_nil, fun _ h => nomatch h⟩
  | cons entry rest ih =>
    unfold validateMemoryPlan at h
    cases htensor : package.tensor? entry.tensorIndex with
    | none =>
      rw [htensor] at h
      cases h
    | some tensor =>
      rw [htensor] at h
      simp only [seq_eq_ok, check_eq_ok] at h
      obtain ⟨hfresh, -, -, -, hrest⟩ := h
      obtain ⟨hnodup, hout⟩ := ih hrest
      constructor
      · rw [map_cons, nodup_cons]
        refine ⟨fun hmem => ?_, hnodup⟩
        obtain ⟨other, hother, heq⟩ := mem_map.1 hmem
        exact hout other hother (heq ▸ mem_cons_self)
      · intro other hother
        rcases mem_cons.1 hother with rfl | hin
        · exact hfresh
        · exact fun hmem => hout other hin (mem_cons_of_mem _ hmem)

/-- What the table of runtime shapes is checked for. -/
def AdmitsShape (package : AiGraphPackage) (shape : AiRuntimeShapeEntry) : Prop :=
  ∃ metadata tensor,
    package.dynamicTensors.find? (·.tensorIndex == shape.tensorIndex) = some metadata ∧
    package.tensor? shape.tensorIndex = some tensor ∧ shape.rank = tensor.rank ∧
    (∀ axis : Fin 4, shape.validateAxis tensor axis = .ok ()) ∧
    shape.byteSize tensor.dtype ≤ metadata.maxTensorBytes.setWidth 64 ∧
    shape.byteSize tensor.dtype ≤ 0xffffffff

theorem validateRuntimeShapes_admits (h : package.validateRuntimeShapes shapes = .ok ()) :
    (shapes.map (·.tensorIndex)).Nodup ∧ ∀ shape ∈ shapes, package.AdmitsShape shape := by
  induction shapes with
  | nil => exact ⟨nodup_nil, fun _ h => nomatch h⟩
  | cons shape rest ih =>
    unfold validateRuntimeShapes at h
    simp only [seq_eq_ok, check_eq_ok] at h
    obtain ⟨-, hfresh, h⟩ := h
    cases hmetadata : package.dynamicTensors.find? (·.tensorIndex == shape.tensorIndex) with
    | none =>
      rw [hmetadata] at h
      cases h
    | some metadata =>
      cases htensor : package.tensor? shape.tensorIndex with
      | none =>
        rw [hmetadata, htensor] at h
        cases h
      | some tensor =>
        rw [hmetadata, htensor] at h
        simp only [seq_eq_ok, check_eq_ok, checkAll_eq_ok] at h
        obtain ⟨hrank, haxes, ⟨-, hmax, hlimit⟩, hrest⟩ := h
        obtain ⟨hnodup, hadmits⟩ := ih hrest
        constructor
        · rw [map_cons, nodup_cons]
          refine ⟨fun hmem => ?_, hnodup⟩
          obtain ⟨later, hlater, heq⟩ := mem_map.1 hmem
          exact hfresh later hlater heq
        · intro other hother
          rcases mem_cons.1 hother with rfl | hin
          · exact ⟨metadata, tensor, hmetadata, htensor, hrank,
              fun axis => haxes axis (mem_finRange axis), hmax, hlimit⟩
          · exact hadmits other hin

theorem validateDynamicTensors_parts {metadatas : List AiDynamicTensorMetadata}
    (h : package.validateDynamicTensors metadatas = .ok ()) :
    (metadatas.map (·.tensorIndex)).Nodup ∧ ∀ metadata ∈ metadatas,
      (package.memoryPlanOf metadata.tensorIndex).map (·.byteSize) =
        some metadata.maxTensorBytes := by
  induction metadatas with
  | nil => exact ⟨nodup_nil, fun _ h => nomatch h⟩
  | cons metadata rest ih =>
    unfold validateDynamicTensors at h
    cases htensor : package.tensor? metadata.tensorIndex with
    | none =>
      rw [htensor] at h
      cases h
    | some tensor =>
      rw [htensor] at h
      simp only [seq_eq_ok, check_eq_ok] at h
      obtain ⟨-, hfresh, -, hplan, hrest⟩ := h
      obtain ⟨hnodup, hplans⟩ := ih hrest
      constructor
      · rw [map_cons, nodup_cons]
        refine ⟨fun hmem => ?_, hnodup⟩
        obtain ⟨later, hlater, heq⟩ := mem_map.1 hmem
        exact hfresh later hlater heq
      · intro other hother
        rcases mem_cons.1 hother with rfl | hin
        · exact hplan
        · exact hplans other hin

theorem validate_dynamic (h : package.validate = .ok ()) (hmode : package.shapeMode ≠ .static) :
    package.validateDynamicTensors package.dynamicTensors = .ok () := by
  unfold validate at h
  simp only [seq_eq_ok] at h
  obtain ⟨-, -, -, -, -, -, -, -, -, -, -, h⟩ := h
  rw [if_neg hmode, seq_eq_ok] at h
  exact h.2

variable {tensor : AiTensorMetadata}

theorem validate_tiles (h : tensor.validate = .ok ()) (axis : Fin 4)
    (haxis : axis.val < tensor.rank.toNat) :
    tensor.tileDims.get axis ≠ 0 ∧ tensor.tileDims.get axis ≤ tensor.dims.get axis := by
  unfold AiTensorMetadata.validate at h
  simp only [seq_eq_ok, checkAll_eq_ok] at h
  obtain ⟨-, -, -, haxes, -⟩ := h
  have hcheck := haxes axis (mem_finRange axis)
  unfold AiTensorMetadata.validateAxis at hcheck
  rw [if_pos haxis] at hcheck
  simp only [seq_eq_ok, check_eq_ok] at hcheck
  exact hcheck.2

theorem AdmitsShape.dims_reshape (h : package.AdmitsShape shape)
    (htensor : package.tensor? shape.tensorIndex = some tensor) :
    (tensor.reshape shape).dims = shape.dims := by
  obtain ⟨metadata, declared, -, hdeclared, -, haxes, -⟩ := h
  obtain rfl := Option.some.inj (htensor.symm.trans hdeclared)
  apply Vector.ext
  intro axis hlt
  have haxis := haxes ⟨axis, hlt⟩
  unfold AiRuntimeShapeEntry.validateAxis at haxis
  simp only [AiTensorMetadata.reshape, Vector.getElem_ofFn]
  split_ifs with hrank
  · rfl
  rw [if_neg hrank, check_eq_ok] at haxis
  exact haxis.symm

variable {metadata : AiDynamicTensorMetadata}

theorem exists_shape (hlength : shapes.length = package.dynamicTensors.length)
    (hdistinct : (shapes.map (·.tensorIndex)).Nodup)
    (hadmits : ∀ shape ∈ shapes, package.AdmitsShape shape)
    (hmetadata : metadata ∈ package.dynamicTensors) :
    ∃ shape ∈ shapes, shape.tensorIndex = metadata.tensorIndex := by
  have hsubset : shapes.map (·.tensorIndex) ⊆ package.dynamicTensors.map (·.tensorIndex) := by
    intro index hindex
    obtain ⟨shape, hshape, rfl⟩ := mem_map.1 hindex
    obtain ⟨found, _, hfind, -⟩ := hadmits shape hshape
    have hfound : found.tensorIndex = shape.tensorIndex := by simpa using List.find?_some hfind
    exact mem_map.2 ⟨found, List.mem_of_find?_eq_some hfind, hfound⟩
  have hperm := (subperm_of_subset hdistinct hsubset).perm_of_length_le
    (by rw [length_map, length_map, hlength])
  have hmem := hperm.mem_iff.2 (mem_map_of_mem hmetadata)
  obtain ⟨shape, hshape, heq⟩ := mem_map.1 hmem
  exact ⟨shape, hshape, heq⟩

/-- The tensor of a dynamic entry after the resolution. -/
structure ResolvedTensor (shape : AiRuntimeShapeEntry) (bound : BitVec 32)
    (tensor tensor' : AiTensorMetadata) (entry' : AiMemoryPlanEntry) : Prop where
  dtype : tensor'.dtype = tensor.dtype
  role : tensor'.role = tensor.role
  rank : tensor'.rank = shape.rank
  dims : tensor'.dims = shape.dims
  tiles : ∀ axis : Fin 4, axis.val < shape.rank.toNat →
    tensor'.tileDims.get axis ≠ 0 ∧ tensor'.tileDims.get axis ≤ tensor'.dims.get axis
  bounded : entry'.byteSize ≤ bound ∧ entry'.scratchpadBytes = entry'.byteSize
  exact : shape.exactByteSize tensor.dtype < 2 ^ 64 →
    entry'.byteSize.toNat = shape.exactByteSize tensor.dtype

/-- What a resolved package keeps of the package and what it takes from the table. -/
structure Resolution (package : AiGraphPackage) (shapes : List AiRuntimeShapeEntry)
    (resolved : AiGraphPackage) : Prop where
  accepted : resolved.validate = .ok () ∧ resolved.shapeMode = .static
  budget : resolved.scratchpadBudgetBytes = package.scratchpadBudgetBytes
  ops : resolved.ops = package.ops
  dependencies : resolved.dependencies = package.dependencies
  tensorCount : resolved.tensors.length = package.tensors.length
  fixed : ∀ i : ℕ, (∀ metadata ∈ package.dynamicTensors, metadata.tensorIndex.toNat ≠ i) →
    resolved.tensors[i]? = package.tensors[i]?
  planCount : resolved.memoryPlan.length = package.memoryPlan.length
  plan : ∀ (k : ℕ) (entry : AiMemoryPlanEntry), package.memoryPlan[k]? = some entry →
    ∃ entry', resolved.memoryPlan[k]? = some entry' ∧ entry'.tensorIndex = entry.tensorIndex ∧
      entry'.systemOffset = entry.systemOffset ∧
      entry'.scratchpadOffset = entry.scratchpadOffset ∧
      ((∀ metadata ∈ package.dynamicTensors, metadata.tensorIndex ≠ entry.tensorIndex) →
        entry' = entry) ∧
      entry'.scratchpadBytes ≤ entry.byteSize ∧
      entry'.scratchpadOffset.toNat + entry'.scratchpadBytes.toNat ≤
        package.scratchpadBudgetBytes.toNat
  dynamic : ∀ metadata ∈ package.dynamicTensors, ∃ shape ∈ shapes,
    shape.tensorIndex = metadata.tensorIndex ∧ ∃ tensor tensor', ∃ k : ℕ, ∃ entry entry',
      package.tensor? metadata.tensorIndex = some tensor ∧
      resolved.tensor? metadata.tensorIndex = some tensor' ∧
      package.memoryPlan[k]? = some entry ∧ entry.tensorIndex = metadata.tensorIndex ∧
      resolved.memoryPlan[k]? = some entry' ∧
      ResolvedTensor shape metadata.maxTensorBytes tensor tensor' entry'

theorem setWidth_le {bytes : BitVec 64} {bound : BitVec 32} (h : bytes ≤ bound.setWidth 64) :
    bytes.setWidth 32 ≤ bound ∧ (bytes.setWidth 32).toNat = bytes.toNat := by
  have hbound : (bound.setWidth 64).toNat = bound.toNat := by
    rw [toNat_setWidth]
    exact Nat.mod_eq_of_lt (by omega)
  rw [le_def, hbound] at h
  have hcut : (bytes.setWidth 32).toNat = bytes.toNat := by
    rw [toNat_setWidth]
    exact Nat.mod_eq_of_lt (by omega)
  rw [le_def, hcut]
  exact ⟨h, rfl⟩

theorem byteSize_of_dynamic (hvalid : package.validate = .ok ())
    (hmode : package.shapeMode ≠ .static)
    (hmetadata : metadata ∈ package.dynamicTensors) {entry : AiMemoryPlanEntry}
    (hentry : entry ∈ package.memoryPlan) (hindex : entry.tensorIndex = metadata.tensorIndex) :
    entry.byteSize = metadata.maxTensorBytes := by
  obtain ⟨-, -, -, hplan, -⟩ := validate_parts hvalid
  obtain ⟨-, hplans⟩ := validateDynamicTensors_parts (validate_dynamic hvalid hmode)
  obtain ⟨found, hfound, hsize⟩ := Option.map_eq_some_iff.1 (hplans metadata hmetadata)
  obtain ⟨hmem, hsame⟩ := memoryPlanOf_mem hfound
  have hnodup := (validateMemoryPlan_nodup hplan).1
  have heq := inj_on_of_nodup_map hnodup hmem hentry (hsame.trans hindex.symm)
  rw [← heq, hsize]

theorem Replanned.size {entry entry' : AiMemoryPlanEntry}
    (hreplanned : Replanned shapes package entry entry')
    (hmetadatas : (package.dynamicTensors.map (·.tensorIndex)).Nodup) (hshape : shape ∈ shapes)
    (hadmits : package.AdmitsShape shape) (hmetadata : metadata ∈ package.dynamicTensors)
    (hindex : shape.tensorIndex = metadata.tensorIndex)
    (hentry : entry.tensorIndex = metadata.tensorIndex)
    (htensor : package.tensor? shape.tensorIndex = some tensor) :
    entry'.byteSize ≤ metadata.maxTensorBytes ∧ entry'.scratchpadBytes = entry'.byteSize ∧
      (shape.exactByteSize tensor.dtype < 2 ^ 64 →
        entry'.byteSize.toNat = shape.exactByteSize tensor.dtype) := by
  obtain ⟨found, declared, hfind, hdeclared, -, -, hmax, -⟩ := hadmits
  obtain rfl := Option.some.inj (htensor.symm.trans hdeclared)
  have hfound : found.tensorIndex = shape.tensorIndex := by simpa using List.find?_some hfind
  have hsame : found = metadata := inj_on_of_nodup_map hmetadatas
    (List.mem_of_find?_eq_some hfind) hmetadata (hfound.trans hindex)
  subst hsame
  obtain ⟨hsize, hscratchpad⟩ :=
    hreplanned.resized shape hshape (hindex.trans hentry.symm) tensor htensor
  obtain ⟨hle, hcut⟩ := setWidth_le hmax
  rw [hsize, hscratchpad]
  refine ⟨hle, rfl, fun hexact => ?_⟩
  rw [hcut, shape.byteSize_toNat, Nat.mod_eq_of_lt hexact]

/-- An accepted table of runtime shapes resolves to a static package that is accepted, in which
exactly the dynamic tensors and their plans have changed. -/
theorem resolveRuntimeShapes_resolution (hvalid : package.validate = .ok ())
    (hmode : package.shapeMode = .dynamicBounded)
    (h : package.resolveRuntimeShapes shapes = .ok resolved) :
    package.Resolution shapes resolved := by
  have hdynamic : package.shapeMode ≠ .static := by
    rw [hmode]
    decide
  obtain ⟨-, -, -, hplan, -⟩ := validate_parts hvalid
  have hplanned := (validateMemoryPlan_nodup hplan).1
  obtain ⟨hmetadatas, hplans⟩ := validateDynamicTensors_parts (validate_dynamic hvalid hdynamic)
  unfold resolveRuntimeShapes validateRuntimeShapeTable at h
  rw [if_neg hdynamic] at h
  simp only [bind_eq_ok] at h
  obtain ⟨_, htable, middle, hfold, _, haccepted, hresolved⟩ := h
  simp only [check_eq_ok] at htable
  obtain ⟨_, -, _, hlength, htable⟩ := htable
  obtain ⟨hdistinct, hadmits⟩ := validateRuntimeShapes_admits htable
  have hreshaped := foldlM_resolveShape_reshaped hplanned hdistinct hfold
  obtain rfl := Except.ok.inj hresolved
  obtain ⟨htensors, -, -, hplan', -⟩ := validate_parts haccepted
  -- a shape belongs to a declared tensor, so an undeclared tensor has no shape
  have hdeclared : ∀ shape ∈ shapes, ∃ metadata ∈ package.dynamicTensors,
      metadata.tensorIndex = shape.tensorIndex := by
    intro shape hshape
    obtain ⟨found, _, hfind, -⟩ := hadmits shape hshape
    exact ⟨found, List.mem_of_find?_eq_some hfind, by simpa using List.find?_some hfind⟩
  have hshape_of : ∀ metadata ∈ package.dynamicTensors, ∃ shape ∈ shapes,
      shape.tensorIndex = metadata.tensorIndex := fun metadata hmetadata =>
    exists_shape hlength hdistinct hadmits hmetadata
  constructor
  case accepted => exact ⟨haccepted, rfl⟩
  case budget => exact hreshaped.budget
  case ops => exact hreshaped.ops
  case dependencies => exact hreshaped.dependencies
  case tensorCount => exact hreshaped.tensorCount
  case planCount => exact hreshaped.planCount
  case fixed =>
    intro i hi
    apply hreshaped.fixed
    intro shape hshape heq
    obtain ⟨metadata, hmetadata, hindex⟩ := hdeclared shape hshape
    exact hi metadata hmetadata (by rw [hindex, heq])
  case plan =>
    intro k entry hentry
    obtain ⟨entry', hentry', hreplanned⟩ := hreshaped.plan k entry hentry
    have hmem := List.mem_of_getElem? hentry
    obtain ⟨_, -, -, -, -, hbudget⟩ :=
      validateMemoryPlan_entry hplan' (List.mem_of_getElem? hentry')
    have hkept : (∀ metadata ∈ package.dynamicTensors, metadata.tensorIndex ≠ entry.tensorIndex) →
        entry' = entry := by
      intro hnone
      apply hreplanned.fixed
      intro shape hshape heq
      obtain ⟨metadata, hmetadata, hindex⟩ := hdeclared shape hshape
      exact hnone metadata hmetadata (hindex.trans heq)
    refine ⟨entry', hentry', hreplanned.tensorIndex, hreplanned.systemOffset,
      hreplanned.scratchpadOffset, hkept, ?_, hreshaped.budget ▸ hbudget⟩
    by_cases hdyn : ∃ metadata ∈ package.dynamicTensors, metadata.tensorIndex = entry.tensorIndex
    · obtain ⟨metadata, hmetadata, hindex⟩ := hdyn
      obtain ⟨shape, hshape, hsame⟩ := hshape_of metadata hmetadata
      obtain ⟨tensor, htensor, -⟩ := hreshaped.reshaped shape hshape
      obtain ⟨hle, hscratchpad, -⟩ := hreplanned.size hmetadatas hshape (hadmits shape hshape)
        hmetadata hsame hindex.symm htensor
      rw [hscratchpad, byteSize_of_dynamic hvalid hdynamic hmetadata hmem hindex.symm]
      exact hle
    · have hnone : ∀ metadata ∈ package.dynamicTensors,
          metadata.tensorIndex ≠ entry.tensorIndex := fun metadata hmetadata heq =>
        hdyn ⟨metadata, hmetadata, heq⟩
      obtain ⟨_, -, -, -, hle, -⟩ := validateMemoryPlan_entry hplan hmem
      rw [hkept hnone]
      exact hle
  case dynamic =>
    intro metadata hmetadata
    obtain ⟨shape, hshape, hindex⟩ := hshape_of metadata hmetadata
    obtain ⟨tensor, htensor, htensor'⟩ := hreshaped.reshaped shape hshape
    obtain ⟨found, hfound, -⟩ := Option.map_eq_some_iff.1 (hplans metadata hmetadata)
    obtain ⟨hmem, hfound_index⟩ := memoryPlanOf_mem hfound
    obtain ⟨k, hk⟩ := List.mem_iff_getElem?.1 hmem
    obtain ⟨entry', hentry', hreplanned⟩ := hreshaped.plan k found hk
    obtain ⟨hle, hscratchpad, hexact⟩ := hreplanned.size hmetadatas hshape (hadmits shape hshape)
      hmetadata hindex hfound_index htensor
    have hvalidated := htensors _ (tensor?_mem htensor')
    refine ⟨shape, hshape, hindex, tensor, tensor.reshape shape, k, found, entry',
      hindex ▸ htensor, hindex ▸ htensor', hk, hfound_index, hentry', ?_⟩
    constructor
    case dtype => rfl
    case role => rfl
    case rank => rfl
    case dims => exact (hadmits shape hshape).dims_reshape htensor
    case tiles => exact fun axis haxis => validate_tiles hvalidated axis haxis
    case bounded => exact ⟨hle, hscratchpad⟩
    case exact => exact hexact

end AiGraphPackage

/-- A dynamic transposition with `bytes` planned for each tensor, of which `resident` are in the
scratchpad. -/
def boundedTranspose (rows cols bytes resident : BitVec 32) : AiGraphPackage :=
  let tensor (role : AiTensorRole) (d₀ d₁ : BitVec 32) : AiTensorMetadata :=
    { dtype := .int32, role, rank := 2, dims := axes d₀ d₁ 0 0, tileDims := axes 1 1 0 0 }
  let plan (tensorIndex : BitVec 16) (offset : BitVec 32) : AiMemoryPlanEntry :=
    { tensorIndex, systemOffset := offset, scratchpadOffset := offset, byteSize := bytes,
      scratchpadBytes := resident }
  { shapeMode := .dynamicBounded
    trainingMode := .inference
    scratchpadBudgetBytes := 64
    tensors := [tensor .input rows cols, tensor .output cols rows]
    ops := [{
      opcode := .layoutTranspose, inputDtype := .int32, accumDtype := .int32, input0 := 0,
      input1 := kAiInvalidTensorIndex, input2 := kAiInvalidTensorIndex, output := 1,
      attrs := axes 0 0 0 0 }]
    dependencies := []
    memoryPlan := [plan 0 0, plan 1 16]
    dynamicTensors := [⟨0, bytes⟩, ⟨1, bytes⟩] }

def transposeShapes (rows cols : BitVec 32) : List AiRuntimeShapeEntry :=
  [⟨1, 2, axes cols rows 0 0⟩, ⟨0, 2, axes rows cols 0 0⟩]

theorem boundedTranspose_resolution :
    ∃ resolved, (boundedTranspose 2 2 16 16).resolveRuntimeShapes (transposeShapes 1 2) =
        .ok resolved ∧
      (boundedTranspose 2 2 16 16).Resolution (transposeShapes 1 2) resolved := by
  have hvalid : (boundedTranspose 2 2 16 16).validate = .ok () := by decide
  have hsome : ((boundedTranspose 2 2 16 16).resolveRuntimeShapes
      (transposeShapes 1 2)).isOk := by decide
  cases hresolve : (boundedTranspose 2 2 16 16).resolveRuntimeShapes (transposeShapes 1 2) with
  | error stop =>
    rw [hresolve] at hsome
    cases hsome
  | ok resolved =>
    exact ⟨resolved, rfl, AiGraphPackage.resolveRuntimeShapes_resolution hvalid rfl hresolve⟩

/-- A plan of 4 resident bytes grows to the 16 of the runtime shape, and a shape of
`2^62 + 1` elements is planned with 4 bytes. -/
theorem boundedTranspose_grows : (boundedTranspose 2 2 16 4).validate = .ok () ∧
    ((boundedTranspose 2 2 16 4).resolveRuntimeShapes (transposeShapes 2 2)).map
        (·.memoryPlan.map (·.scratchpadBytes)) = .ok [16, 16] ∧
    (boundedTranspose 2147418113 2147549185 4 4).validate = .ok () ∧
    ((boundedTranspose 2147418113 2147549185 4 4).resolveRuntimeShapes
        (transposeShapes 2147418113 2147549185)).map
      (·.memoryPlan.map (·.byteSize)) = .ok [4, 4] ∧
    (transposeShapes 2147418113 2147549185).map (·.exactByteSize .int32) =
      [2 ^ 64 + 4, 2 ^ 64 + 4] := by
  refine ⟨by decide, by decide, by decide, by decide, by decide⟩

end VisualCpu
