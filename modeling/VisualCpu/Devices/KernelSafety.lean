import VisualCpu.Devices.GoldenFacts
import VisualCpu.Devices.RuntimeShapes
import VisualCpu.Devices.SchedulerOrder

/-!
# Safe execution of accepted packages

The sizes of tensors are checked modulo 2^64 and the scratchpad is allocated modulo 2^32.
An accepted package is safe to execute exactly when no size wraps and the tensors of its
operations are inside the bytes that are allocated.
-/

namespace VisualCpu

open BitVec Checks Loops AiTensorMetadata AiScratchpad Except TensorGolden Option

variable (dims : Vector (BitVec 32) 4) {tensor : AiTensorMetadata}

theorem elementCount_toNat (rank : BitVec 8) :
    (elementCount rank dims).toNat = exactElementCount rank dims % 2 ^ 64 := by
  have hfold : ∀ (factors : List (BitVec 32)) (count : BitVec 64) (exact : ℕ),
      count.toNat = exact % 2 ^ 64 →
      (factors.foldl (fun count dim => count * dim.setWidth 64) count).toNat =
        factors.foldl (fun count dim => count * dim.toNat) exact % 2 ^ 64 := by
    intro factors
    induction factors with
    | nil => exact fun _ _ h => h
    | cons dim rest ih =>
      intro count exact h
      refine ih _ _ ?_
      rw [toNat_mul, h, toNat_setWidth, ← Nat.mul_mod]
  exact hfold _ 1 1 rfl

theorem toNat_ne_zero {x : BitVec 32} (h : x ≠ 0) : x.toNat ≠ 0 :=
  fun hzero => h (eq_of_toNat_eq hzero)

theorem AiDataType.sizeBytes_le (dtype : AiDataType) : dtype.sizeBytes ≤ 4 := by
  cases dtype <;> simp [AiDataType.sizeBytes]

theorem AiTensorMetadata.byteSize_toNat (tensor : AiTensorMetadata) :
    tensor.byteSize.toNat = tensor.exactByteSize % 2 ^ 64 := by
  have hle := tensor.dtype.sizeBytes_le
  unfold byteSize exactByteSize elementCount
  rw [toNat_mul, elementCount_toNat, toNat_ofNat, ← Nat.mul_mod]

theorem exactElementCount_two :
    exactElementCount 2 dims = (dims.get 0).toNat * (dims.get 1).toNat := by
  have htake : dims.toList.take 2 = [dims[0], dims[1]] := by
    apply List.ext_getElem
    · simp
    intro i h₁ h₂
    have hi : i = 0 ∨ i = 1 := by
      simp only [List.length_cons, List.length_nil] at h₂
      omega
    rcases hi with rfl | rfl <;> simp
  unfold exactElementCount
  rw [show (2 : BitVec 8).toNat = 2 from rfl, htake]
  simp
  rfl

theorem exactElementCount_one : exactElementCount 1 dims = (dims.get 0).toNat := by
  have htake : dims.toList.take 1 = [dims[0]] := by
    apply List.ext_getElem
    · simp
    intro i h₁ h₂
    have hi : i = 0 := by
      simp only [List.length_cons, List.length_nil] at h₂
      omega
    subst hi
    simp
  unfold exactElementCount
  rw [show (1 : BitVec 8).toNat = 1 from rfl, htake]
  simp
  rfl

theorem AiTensorMetadata.exactByteSize_two (h : tensor.rank = 2) :
    tensor.exactByteSize =
      (tensor.dims.get 0).toNat * (tensor.dims.get 1).toNat * tensor.dtype.sizeBytes := by
  unfold exactByteSize
  rw [h, exactElementCount_two]

theorem AiTensorMetadata.exactByteSize_one (h : tensor.rank = 1) :
    tensor.exactByteSize = (tensor.dims.get 0).toNat * tensor.dtype.sizeBytes := by
  unfold exactByteSize
  rw [h, exactElementCount_one]

namespace AiGraphPackage

variable {package : AiGraphPackage}

variable {entry : AiMemoryPlanEntry} {index : BitVec 16}

theorem validateMemoryPlan_entry {planned : List (BitVec 16)} {entries : List AiMemoryPlanEntry}
    (h : package.validateMemoryPlan planned entries = .ok ()) (hentry : entry ∈ entries) :
    ∃ tensor, package.tensor? entry.tensorIndex = some tensor ∧
      entry.byteSize.setWidth 64 = tensor.byteSize ∧ entry.scratchpadBytes ≠ 0 ∧
      entry.scratchpadBytes ≤ entry.byteSize ∧
      entry.scratchpadOffset.toNat + entry.scratchpadBytes.toNat ≤
        package.scratchpadBudgetBytes.toNat := by
  induction entries generalizing planned with
  | nil => cases hentry
  | cons first rest ih =>
    unfold validateMemoryPlan at h
    cases htensor : package.tensor? first.tensorIndex with
    | none =>
      rw [htensor] at h
      cases h
    | some tensor =>
      rw [htensor] at h
      simp only [seq_eq_ok, check_eq_ok] at h
      obtain ⟨-, hsize, ⟨hne, hle⟩, hbudget, hrest⟩ := h
      rcases List.mem_cons.1 hentry with rfl | hin
      · exact ⟨tensor, htensor, hsize, hne, hle, hbudget⟩
      · exact ih hrest hin

theorem memoryPlanOf_mem
    (h : package.memoryPlanOf index = some entry) :
    entry ∈ package.memoryPlan ∧ entry.tensorIndex = index := by
  have hfound := List.find?_some h
  exact ⟨List.mem_of_find?_eq_some h, by simpa using hfound⟩

/-- No size of a tensor wraps. -/
def NoWrap (package : AiGraphPackage) : Prop :=
  ∀ tensor ∈ package.tensors, tensor.exactByteSize < 2 ^ 64

/-- What the operations rely on when no size wraps. -/
structure Exact (package : AiGraphPackage) : Prop where
  positive : ∀ index tensor, package.tensor? index = some tensor →
    ∀ axis : Fin 4, axis.val < tensor.rank.toNat → tensor.dims.get axis ≠ 0
  size : ∀ index tensor entry, package.tensor? index = some tensor →
    package.requiredEntry index = .ok entry → entry.byteSize.toNat = tensor.exactByteSize
  contained : ∀ index entry, package.requiredEntry index = .ok entry →
    entry.scratchpadOffset.toNat + entry.byteSize.toNat ≤ package.scratchpadBudgetBytes.toNat

variable {tensor : AiTensorMetadata}

theorem validate_tensor (h : tensor.validate = .ok ()) :
    (∀ axis : Fin 4, axis.val < tensor.rank.toNat → tensor.dims.get axis ≠ 0) ∧
      tensor.byteSize ≤ 0xffffffff := by
  unfold AiTensorMetadata.validate at h
  simp only [seq_eq_ok, check_eq_ok, checkAll_eq_ok] at h
  obtain ⟨-, -, -, haxes, -, hsize⟩ := h
  refine ⟨fun axis haxis => ?_, hsize⟩
  have hcheck := haxes axis (List.mem_finRange axis)
  unfold validateAxis at hcheck
  rw [if_pos haxis] at hcheck
  simp only [seq_eq_ok, check_eq_ok] at hcheck
  exact hcheck.1

theorem exactByteSize_of_noWrap (h : tensor.validate = .ok ())
    (hwrap : tensor.exactByteSize < 2 ^ 64) :
    tensor.exactByteSize < 2 ^ 32 ∧ tensor.byteSize.toNat = tensor.exactByteSize := by
  have hsize := (validate_tensor h).2
  have heq : tensor.byteSize.toNat = tensor.exactByteSize := by
    rw [tensor.byteSize_toNat, Nat.mod_eq_of_lt hwrap]
  rw [le_def, heq] at hsize
  have hbound : (0xffffffff : BitVec 64).toNat = 0xffffffff := rfl
  exact ⟨by omega, heq⟩

theorem tensor?_mem
    (h : package.tensor? index = some tensor) : tensor ∈ package.tensors :=
  List.mem_of_getElem? h

theorem entry_size (hvalid : package.validate = .ok ()) (hwrap : package.NoWrap)
    (hentry : entry ∈ package.memoryPlan) :
    ∃ tensor, package.tensor? entry.tensorIndex = some tensor ∧
      entry.byteSize.toNat = tensor.exactByteSize := by
  obtain ⟨htensors, -, -, hplan, -⟩ := validate_parts hvalid
  obtain ⟨tensor, htensor, hsize, -⟩ := validateMemoryPlan_entry hplan hentry
  have hmem := tensor?_mem htensor
  obtain ⟨-, heq⟩ := exactByteSize_of_noWrap (htensors tensor hmem) (hwrap tensor hmem)
  refine ⟨tensor, htensor, ?_⟩
  rw [← heq, ← hsize, toNat_setWidth, Nat.mod_eq_of_lt (by omega)]

theorem exact_of_noWrap (hvalid : package.validate = .ok ()) (hwrap : package.NoWrap) :
    package.Exact where
  positive index tensor htensor :=
    (validate_tensor ((validate_parts hvalid).1 tensor (tensor?_mem htensor))).1
  size index tensor entry htensor hentry := by
    obtain ⟨-, hplanOf, -⟩ := requiredEntry_eq_ok.1 hentry
    obtain ⟨hmem, rfl⟩ := memoryPlanOf_mem hplanOf
    obtain ⟨tensor', htensor', hsize⟩ := entry_size hvalid hwrap hmem
    rw [htensor] at htensor'
    obtain rfl := some.inj htensor'
    exact hsize
  contained index entry hentry := by
    obtain ⟨-, hplanOf, hresident⟩ := requiredEntry_eq_ok.1 hentry
    obtain ⟨hmem, -⟩ := memoryPlanOf_mem hplanOf
    obtain ⟨-, -, -, hplan, -⟩ := validate_parts hvalid
    obtain ⟨tensor, -, -, -, -, hbudget⟩ := validateMemoryPlan_entry hplan hmem
    rw [le_def] at hresident
    omega

end AiGraphPackage

/-- The arithmetic of a kernel ends on inputs of the planned sizes with an output of the
planned size. -/
structure Kernel.Sound (kernel : Kernel) : Prop where
  size : kernel.inputSize ≠ 0
  aligned₀ : kernel.input0.byteSize.toNat % kernel.inputSize = 0
  aligned₁ : ∀ entry, kernel.input1 = some entry → entry.byteSize.toNat % kernel.inputSize = 0
  compute : ∀ lhs rhs, lhs.length = kernel.input0.byteSize.toNat / kernel.inputSize →
    (∀ entry, kernel.input1 = some entry → rhs.length = entry.byteSize.toNat / kernel.inputSize) →
    Ends (kernel.compute lhs rhs) fun values =>
      values.length * kernel.outputSize = kernel.output.byteSize.toNat

theorem length_decodeValues (size : ℕ) (bytes : List (BitVec 8)) :
    (decodeValues size bytes).length = bytes.length / size := by
  simp [decodeValues]

namespace AiScratchpad

variable {pad : AiScratchpad} {size : ℕ} {entry : AiMemoryPlanEntry} {values : List (BitVec 32)}

theorem contains_entry (h : entry.scratchpadOffset.toNat + entry.byteSize.toNat ≤
    pad.scratchpadBytes.toNat) : pad.contains entry.scratchpadOffset entry.byteSize.toNat := by
  have hle : entry.scratchpadOffset ≤ pad.scratchpadBytes := by
    rw [le_def]
    omega
  have hsize : entry.byteSize.toNat ≤ pad.scratchpadBytes.toNat - entry.scratchpadOffset.toNat := by
    omega
  simp [contains, hle, hsize]

/-- The bytes of a tensor are inside the allocated bytes. -/
abbrev Holds (pad : AiScratchpad) (entry : AiMemoryPlanEntry) : Prop :=
  pad.allocated entry.scratchpadOffset entry.byteSize.toNat

theorem read_entry (h : entry.scratchpadOffset.toNat + entry.byteSize.toNat ≤
    pad.scratchpadBytes.toNat) :
    pad.read entry.scratchpadOffset entry.byteSize.toNat =
      if pad.allocated entry.scratchpadOffset entry.byteSize.toNat then
        .ok (some (pad.slice entry.scratchpadOffset.toNat entry.byteSize.toNat))
      else .error .outOfBounds := by
  unfold read
  rw [if_pos (contains_entry h)]

theorem readTensorValues_ends (haligned : entry.byteSize.toNat % size = 0)
    (h : entry.scratchpadOffset.toNat + entry.byteSize.toNat ≤ pad.scratchpadBytes.toNat)
    (hholds : pad.Holds entry) :
    Ends (pad.readTensorValues size entry) fun values =>
      values.length = entry.byteSize.toNat / size := by
  refine ⟨decodeValues size (pad.slice entry.scratchpadOffset.toNat entry.byteSize.toNat), ?_, ?_⟩
  · unfold readTensorValues
    rw [read_entry h, if_pos hholds]
    simp [check, haligned, bind, Except.bind]
  · exact (length_decodeValues ..).trans (by rw [length_slice])

theorem readTensorValues_outOfBounds (haligned : entry.byteSize.toNat % size = 0)
    (h : entry.scratchpadOffset.toNat + entry.byteSize.toNat ≤ pad.scratchpadBytes.toNat)
    (hholds : ¬pad.Holds entry) : pad.readTensorValues size entry = .error .outOfBounds := by
  unfold readTensorValues
  rw [read_entry h, if_neg hholds]
  simp [check, haligned, bind, Except.bind]

theorem writeTensorValues_eq_of_size (hsize : values.length * size = entry.byteSize.toNat)
    (h : entry.scratchpadOffset.toNat + entry.byteSize.toNat ≤ pad.scratchpadBytes.toNat) :
    pad.writeTensorValues size entry values =
      if pad.allocated entry.scratchpadOffset entry.byteSize.toNat then
        .ok (pad.store entry.scratchpadOffset.toNat (encodeValues size values))
      else .error .outOfBounds := by
  have hlength : (encodeValues size values).length = entry.byteSize.toNat := by
    rw [length_encodeValues, hsize]
  unfold writeTensorValues write
  rw [hlength, if_pos (contains_entry h)]
  split_ifs <;> simp [check, hsize, bind, Except.bind]

end AiScratchpad

namespace Kernel

variable {kernel : Kernel} {pad : AiScratchpad}

/-- The ranges of the operands of a kernel are inside the space for tensors. -/
structure Contained (kernel : Kernel) (pad : AiScratchpad) : Prop where
  input0 : kernel.input0.scratchpadOffset.toNat + kernel.input0.byteSize.toNat ≤
    pad.scratchpadBytes.toNat
  input1 : ∀ entry, kernel.input1 = some entry →
    entry.scratchpadOffset.toNat + entry.byteSize.toNat ≤ pad.scratchpadBytes.toNat
  output : kernel.output.scratchpadOffset.toNat + kernel.output.byteSize.toNat ≤
    pad.scratchpadBytes.toNat

/-- The operands of a kernel are inside the allocated bytes. -/
structure Allocated (kernel : Kernel) (pad : AiScratchpad) : Prop where
  input0 : pad.Holds kernel.input0
  input1 : ∀ entry, kernel.input1 = some entry → pad.Holds entry
  output : pad.Holds kernel.output

theorem readSecondValues_ends (hsound : kernel.Sound) (hcontained : kernel.Contained pad)
    (hholds : ∀ entry, kernel.input1 = some entry → pad.Holds entry) :
    Ends (pad.readSecondValues kernel.inputSize kernel.input1) fun rhs =>
      ∀ entry, kernel.input1 = some entry →
        rhs.length = entry.byteSize.toNat / kernel.inputSize := by
  cases hinput : kernel.input1 with
  | none => exact .ok fun entry hsome => (by cases hsome)
  | some entry =>
    refine (readTensorValues_ends (hsound.aligned₁ entry hinput)
      (hcontained.input1 entry hinput) (hholds entry hinput)).mono fun rhs hrhs other hsome => ?_
    obtain rfl := some.inj hsome
    exact hrhs

theorem run_ends (hsound : kernel.Sound) (hcontained : kernel.Contained pad)
    (hallocated : kernel.Allocated pad) : Ends (kernel.run pad) fun _ => True := by
  refine (readTensorValues_ends hsound.aligned₀ hcontained.input0
    hallocated.input0).bind fun lhs hlhs => ?_
  refine (readSecondValues_ends hsound hcontained hallocated.input1).bind fun rhs hrhs => ?_
  refine (hsound.compute lhs rhs hlhs hrhs).bind fun values hvalues => ?_
  rw [writeTensorValues_eq_of_size hvalues hcontained.output, if_pos hallocated.output]
  exact .ok trivial

theorem run_outOfBounds (hsound : kernel.Sound) (hcontained : kernel.Contained pad)
    (h : ¬kernel.Allocated pad) : kernel.run pad = .error .outOfBounds := by
  unfold run
  by_cases hinput0 : pad.Holds kernel.input0
  swap
  · rw [readTensorValues_outOfBounds hsound.aligned₀ hcontained.input0 hinput0]
    rfl
  obtain ⟨lhs, hread, hlhs⟩ :=
    readTensorValues_ends hsound.aligned₀ hcontained.input0 hinput0
  rw [hread]
  by_cases hinput1 : ∀ entry, kernel.input1 = some entry → pad.Holds entry
  swap
  · push Not at hinput1
    obtain ⟨entry, hentry, hnot⟩ := hinput1
    rw [hentry]
    simp only [readSecondValues]
    rw [readTensorValues_outOfBounds (hsound.aligned₁ entry hentry)
      (hcontained.input1 entry hentry) hnot]
    rfl
  obtain ⟨rhs, hread', hrhs⟩ := readSecondValues_ends hsound hcontained hinput1
  obtain ⟨values, hcompute, hvalues⟩ := hsound.compute lhs rhs hlhs hrhs
  have houtput : ¬pad.Holds kernel.output := fun hout => h ⟨hinput0, hinput1, hout⟩
  rw [hread']
  simp only [bind, Except.bind, hcompute]
  rw [writeTensorValues_eq_of_size hvalues hcontained.output, if_neg houtput]

end Kernel

/-- A computation stops early with a fault only. -/
def Handled {α : Type} (x : KernelRun α) : Prop :=
  ∀ stop, x = .error stop → ∃ code error, stop = .fault code error

section Handled

variable {α β : Type} {x : KernelRun α}

theorem handled_ok (a : α) : Handled (.ok a : KernelRun α) := fun _ h => (by cases h)

theorem handled_fault (code : AiAccelFault) (error : String) :
    Handled (.error (.fault code error) : KernelRun α) := by
  intro stop h
  cases h
  exact ⟨code, error, rfl⟩

theorem Handled.bind {f : α → KernelRun β} (hx : Handled x)
    (hf : ∀ a, x = .ok a → Handled (f a)) : Handled (x >>= f) := by
  cases hrun : x with
  | error stop =>
    intro stop' h
    cases h
    exact hx stop hrun
  | ok a => exact hf a hrun

theorem handled_check {condition : Prop} [Decidable condition] {code : AiAccelFault}
    {error : String} : Handled (check condition (KernelStop.fault code error)) := by
  unfold check
  split_ifs
  · exact handled_ok _
  · exact handled_fault code error

theorem Loops.Ends.handled {post : α → Prop} (h : Ends x post) : Handled x := by
  obtain ⟨a, rfl, -⟩ := h
  exact handled_ok a

end Handled

/-- The kernel of an operation is sound, and what follows it stops with a fault only. -/
structure OpPlan.Sound (plan : OpPlan) : Prop where
  finish : Handled plan.finish
  kernel : ∀ kernel, plan.kernel = some kernel → kernel.Sound

namespace AiGraphPackage

variable {package : AiGraphPackage} {op : AiOpDescriptor} {plan : OpPlan}

section Sizes

variable {index : BitVec 16} {tensor : AiTensorMetadata} {entry : AiMemoryPlanEntry}

theorem Exact.size_two (hexact : package.Exact) (htensor : package.tensorAt index = .ok tensor)
    (hentry : package.requiredEntry index = .ok entry) (hrank : tensor.rank = 2) :
    entry.byteSize.toNat =
      (tensor.dims.get 0).toNat * (tensor.dims.get 1).toNat * tensor.dtype.sizeBytes := by
  rw [hexact.size index tensor entry (tensorAt_eq_ok.1 htensor) hentry, exactByteSize_two hrank]

theorem Exact.positive_two (hexact : package.Exact) (htensor : package.tensorAt index = .ok tensor)
    (hrank : tensor.rank = 2) : (tensor.dims.get 0).toNat ≠ 0 ∧ (tensor.dims.get 1).toNat ≠ 0 := by
  have hpositive := hexact.positive index tensor (tensorAt_eq_ok.1 htensor)
  rw [hrank] at hpositive
  have hzero : ∀ {x : BitVec 32}, x ≠ 0 → x.toNat ≠ 0 := fun hx h => hx (eq_of_toNat_eq h)
  exact ⟨hzero (hpositive 0 (by decide)), hzero (hpositive 1 (by decide))⟩

theorem Exact.elements (hexact : package.Exact) (htensor : package.tensorAt index = .ok tensor)
    (hentry : package.requiredEntry index = .ok entry) (hrank : tensor.rank = 2) {size : ℕ}
    (hsize : tensor.dtype.sizeBytes = size) (hpos : size ≠ 0) :
    entry.byteSize.toNat % size = 0 ∧
      entry.byteSize.toNat / size = (tensor.dims.get 0).toNat * (tensor.dims.get 1).toNat ∧
      (tensor.dims.get 0).toNat * (tensor.dims.get 1).toNat * size < 2 ^ 32 := by
  have heq := hexact.size_two htensor hentry hrank
  rw [hsize] at heq
  refine ⟨?_, ?_, heq ▸ entry.byteSize.isLt⟩
  · rw [heq, Nat.mul_mod_left]
  · rw [heq, Nat.mul_div_cancel _ (Nat.pos_of_ne_zero hpos)]

end Sizes

theorem unaryPlan_sound {inputEntry outputEntry : AiMemoryPlanEntry} {size : ℕ}
    {compute : List (BitVec 32) → KernelRun (List (BitVec 32))} {retiredOps : BitVec 64}
    (hsize : size ≠ 0) (haligned : inputEntry.byteSize.toNat % size = 0)
    (hcompute : ∀ values, values.length = inputEntry.byteSize.toNat / size →
      Ends (compute values) fun out => out.length * size = outputEntry.byteSize.toNat) :
    (unaryPlan inputEntry outputEntry size compute retiredOps).Sound where
  finish := handled_ok _
  kernel kernel hkernel := by
    obtain rfl := some.inj hkernel
    exact ⟨hsize, haligned, fun entry h => (by cases h), fun lhs _ hlhs _ => hcompute lhs hlhs⟩

section Operations

variable [HostFloat]

theorem gemmArithmetic_sound {input output : AiDataType} {arithmetic : GemmArithmetic}
    (h : gemmArithmetic input output = .ok (some arithmetic)) :
    input.sizeBytes = arithmetic.1 ∧ arithmetic.1 ≠ 0 ∧ output.sizeBytes = 4 ∧
    ∀ lhs rhs m k n, m ≠ 0 ∧ k ≠ 0 ∧ n ≠ 0 → lhs.length = m * k → rhs.length = k * n →
      Ends (arithmetic.2 lhs rhs m k n) fun out => out.length = m * n := by
  unfold gemmArithmetic at h
  cases input with
  | int8 | int16 | fp16 | bf16 | fp32 =>
    simp only [seq_eq_ok, check_eq_ok] at h
    obtain ⟨rfl, h⟩ := h
    obtain rfl := some.inj (ok.inj h)
    exact ⟨rfl, by simp, rfl, fun lhs rhs m k n hshape hlhs hrhs =>
      goldenGemm_ends _ _ _ hshape hlhs hrhs⟩
  | int32 => cases h
  | invalid => cases h
  | other code hcode => cases h

theorem executeGemm_sound (hexact : package.Exact) (h : package.executeGemm op = .ok plan) :
    plan.Sound := by
  unfold executeGemm at h
  simp only [bind_eq_ok, check_eq_ok] at h
  obtain ⟨lhs, hlhs, rhs, hrhs, output, houtput, -, ⟨hrank, hrank', hrank''⟩, -,
    ⟨hk, -, hm, hn, hinner, hrows, hcols⟩, -, ⟨hdtype, hdtype'⟩, lhsEntry, hlhsEntry, rhsEntry,
    hrhsEntry, outputEntry, hentry, arithmetic, harithmetic, hplan⟩ := h
  obtain rfl := ok.inj hplan
  refine ⟨handled_check, fun kernel hkernel => ?_⟩
  obtain ⟨found, hfound, rfl⟩ := map_eq_some_iff.1 hkernel
  subst hfound
  obtain ⟨hsize, hpos, hfour, hends⟩ := gemmArithmetic_sound harithmetic
  obtain ⟨haligned, hlength, -⟩ := hexact.elements hlhs hlhsEntry hrank (hdtype ▸ hsize) hpos
  obtain ⟨haligned', hlength', -⟩ := hexact.elements hrhs hrhsEntry hrank' (hdtype' ▸ hsize) hpos
  have houtputSize := hexact.size_two houtput hentry hrank''
  refine ⟨hpos, haligned, fun entry hsome => ?_, fun lhs' rhs' hleft hright => ?_⟩
  · obtain rfl := some.inj hsome
    exact haligned'
  have hright := hright rhsEntry rfl
  rw [hlength] at hleft
  rw [hlength', ← hinner] at hright
  refine (hends lhs' rhs' _ _ _ ⟨toNat_ne_zero hm, toNat_ne_zero hk, toNat_ne_zero hn⟩
    hleft hright).mono fun out hout => ?_
  rw [hout, houtputSize, hfour, hrows, hcols]

omit [HostFloat] in
theorem convArithmetic_sound {input : AiDataType} {arithmetic : ConvArithmetic}
    (h : convArithmetic input = .ok (some arithmetic)) :
    input.sizeBytes = arithmetic.1 ∧ arithmetic.1 ≠ 0 ∧
    ∀ input inputH inputW kernel kernelH kernelW, kernelH ≠ 0 ∧ kernelW ≠ 0 →
      kernelH ≤ inputH ∧ kernelW ≤ inputW → input.length = inputH * inputW →
      kernel.length = kernelH * kernelW → inputH * inputW < 2 ^ 32 →
      (inputH - kernelH + 1) * (inputW - kernelW + 1) < 2 ^ 32 →
      Ends (arithmetic.2 input inputH inputW kernel kernelH kernelW) fun out =>
        out.length = (inputH - kernelH + 1) * (inputW - kernelW + 1) := by
  cases input with
  | int8 | int16 =>
    obtain rfl := some.inj (ok.inj h)
    refine ⟨rfl, by decide, ?_⟩
    intro input inputH inputW kernel kernelH kernelW hkernel hfits hinput hsize hbound hout
    exact goldenConv2dValid_ends _ hkernel hfits hinput hsize hbound hout
  | int32 | fp16 | bf16 | fp32 | invalid => cases h
  | other code hcode => cases h

omit [HostFloat] in
theorem toNat_positions {dim window : BitVec 32} (hle : window ≤ dim) (hne : window ≠ 0) :
    (dim - window + 1).toNat = dim.toNat - window.toNat + 1 := by
  bv_omega

omit [HostFloat] in
theorem executeConv_sound (hexact : package.Exact) (h : package.executeConv op = .ok plan) :
    plan.Sound := by
  unfold executeConv at h
  simp only [bind_eq_ok, check_eq_ok] at h
  obtain ⟨input, hinput, kernel, hkernel, output, houtput, -, ⟨hrank, hrank', hrank''⟩, -,
    ⟨hzero, hzero', hle, hle'⟩, -, ⟨hrows, hcols⟩, -, ⟨hdtype, hdtype', hdtype''⟩, inputEntry,
    hinputEntry, kernelEntry, hkernelEntry, outputEntry, hentry, arithmetic, harithmetic, hplan⟩ :=
      h
  obtain rfl := ok.inj hplan
  refine ⟨handled_ok _, fun found hfound => ?_⟩
  obtain ⟨found', hfound', rfl⟩ := map_eq_some_iff.1 hfound
  subst hfound'
  obtain ⟨hsize, hpos, hends⟩ := convArithmetic_sound harithmetic
  obtain ⟨haligned, hlength, hbound⟩ := hexact.elements hinput hinputEntry hrank (hdtype ▸ hsize)
    hpos
  obtain ⟨haligned', hlength', -⟩ := hexact.elements hkernel hkernelEntry hrank' (hdtype' ▸ hsize)
    hpos
  obtain ⟨-, -, hbound'⟩ := hexact.elements houtput hentry hrank''
    (show output.dtype.sizeBytes = 4 by rw [hdtype'']; rfl) (by decide)
  have houtputSize := hexact.size_two houtput hentry hrank''
  rw [hdtype'', hrows, hcols, toNat_positions hle hzero, toNat_positions hle' hzero'] at houtputSize
  rw [hrows, hcols, toNat_positions hle hzero, toNat_positions hle' hzero'] at hbound'
  refine ⟨hpos, haligned, fun entry hsome => ?_, fun lhs rhs hleft hright => ?_⟩
  · obtain rfl := some.inj hsome
    exact haligned'
  have hright := hright kernelEntry rfl
  rw [hlength] at hleft
  rw [hlength'] at hright
  have hinputBound : (input.dims.get 0).toNat * (input.dims.get 1).toNat < 2 ^ 32 :=
    lt_of_le_of_lt (Nat.le_mul_of_pos_right _ (Nat.pos_of_ne_zero hpos)) hbound
  refine (hends lhs _ _ rhs _ _ ⟨toNat_ne_zero hzero, toNat_ne_zero hzero'⟩ ⟨hle, hle'⟩
    hleft hright hinputBound
    (by omega)).mono fun out hout => ?_
  rw [hout, houtputSize]
  rfl

theorem reluArithmetic_sound {dtype : AiDataType} {arithmetic : ℕ × (BitVec 32 → Bool)}
    (h : reluArithmetic dtype = .ok (some arithmetic)) :
    dtype.sizeBytes = arithmetic.1 ∧ arithmetic.1 ≠ 0 := by
  cases dtype with
  | int8 | int16 | int32 | fp32 =>
    obtain rfl := some.inj (ok.inj h)
    exact ⟨rfl, by simp⟩
  | fp16 | bf16 | invalid => cases h
  | other code hcode => cases h

theorem executeRelu_sound (hexact : package.Exact) (h : package.executeRelu op = .ok plan) :
    plan.Sound := by
  unfold executeRelu at h
  simp only [bind_eq_ok, check_eq_ok] at h
  obtain ⟨input, hinput, output, houtput, -, ⟨hrank, hdims, hdtype, -⟩, inputEntry, hinputEntry,
    outputEntry, hentry, arithmetic, harithmetic, hplan⟩ := h
  cases arithmetic with
  | none =>
    obtain rfl := ok.inj hplan
    exact ⟨handled_ok _, fun kernel hkernel => (by cases hkernel)⟩
  | some arithmetic =>
    obtain rfl := ok.inj hplan
    obtain ⟨hsize, hpos⟩ := reluArithmetic_sound harithmetic
    have hinputSize := hexact.size op.input0 input inputEntry (tensorAt_eq_ok.1 hinput) hinputEntry
    have houtputSize := hexact.size op.output output outputEntry (tensorAt_eq_ok.1 houtput) hentry
    have hsame : outputEntry.byteSize.toNat = inputEntry.byteSize.toNat := by
      rw [hinputSize, houtputSize]
      unfold exactByteSize
      rw [hrank, hdims, hdtype]
    have haligned : inputEntry.byteSize.toNat % arithmetic.1 = 0 := by
      rw [hinputSize, ← hsize]
      exact Nat.mul_mod_left _ _
    refine unaryPlan_sound hpos haligned fun values hvalues => .ok ?_
    rw [reluValues, List.length_map, hvalues, hsame,
      Nat.div_mul_cancel (Nat.dvd_of_mod_eq_zero haligned)]

omit [HostFloat] in
theorem toNat_poolExtent {dim window stride : BitVec 32} (hle : window ≤ dim) (hne : window ≠ 0) :
    (poolExtent dim window stride).toNat = (dim.toNat - window.toNat) / stride.toNat + 1 := by
  have hdiff : (dim - window).toNat = dim.toNat - window.toNat := toNat_sub_of_le hle
  have hpos : window.toNat ≠ 0 := toNat_ne_zero hne
  have hdiv : (dim.toNat - window.toNat) / stride.toNat ≤ dim.toNat - window.toNat :=
    Nat.div_le_self _ _
  have hlt := dim.isLt
  rw [le_def] at hle
  unfold poolExtent
  rw [toNat_add, toNat_udiv, hdiff, show (1 : BitVec 32).toNat = 1 from rfl,
    Nat.mod_eq_of_lt (by omega)]
  omega

theorem executePoolMax_sound (hexact : package.Exact) (h : package.executePoolMax op = .ok plan) :
    plan.Sound := by
  unfold executePoolMax at h
  simp only [bind_eq_ok, check_eq_ok] at h
  obtain ⟨input, hinput, output, houtput, -, ⟨hrank, hrank', hdtype, hdtype'⟩, -,
    ⟨hwindow, hwindow', hstride, hstride', hle, hle'⟩, -, ⟨hrows, hcols⟩, inputEntry, hinputEntry,
    outputEntry, hentry, hplan⟩ := h
  obtain rfl := ok.inj hplan
  obtain ⟨haligned, hlength, hbound⟩ := hexact.elements hinput hinputEntry hrank
    (show input.dtype.sizeBytes = 4 by rw [hdtype]; rfl) (by decide)
  obtain ⟨-, -, hbound'⟩ := hexact.elements houtput hentry hrank'
    (show output.dtype.sizeBytes = 4 by rw [hdtype']; rfl) (by decide)
  have houtputSize := hexact.size_two houtput hentry hrank'
  rw [hdtype', hrows, hcols, toNat_poolExtent hle hwindow, toNat_poolExtent hle' hwindow']
    at houtputSize
  rw [hrows, hcols, toNat_poolExtent hle hwindow, toNat_poolExtent hle' hwindow'] at hbound'
  refine unaryPlan_sound (by decide) haligned fun values hvalues => ?_
  rw [hlength] at hvalues
  refine (maxPool2dF32_ends ⟨toNat_ne_zero hwindow, toNat_ne_zero hwindow'⟩
    ⟨toNat_ne_zero hstride, toNat_ne_zero hstride'⟩
    ⟨hle, hle'⟩ ⟨(input.dims.get 0).isLt, (input.dims.get 1).isLt⟩ hvalues (by omega)
    (by omega)).mono
    fun out hout => ?_
  rw [hout, houtputSize]
  rfl

omit [HostFloat] in
theorem executeReduceSum_sound (hexact : package.Exact)
    (h : package.executeReduceSum op = .ok plan) :
    plan.Sound := by
  unfold executeReduceSum at h
  simp only [bind_eq_ok, check_eq_ok] at h
  obtain ⟨input, hinput, output, houtput, -, ⟨hrank, hrank', hdtype, hdtype', hrows⟩, inputEntry,
    hinputEntry, outputEntry, hentry, hplan⟩ := h
  obtain rfl := ok.inj hplan
  obtain ⟨haligned, hlength, hbound⟩ := hexact.elements hinput hinputEntry hrank
    (show input.dtype.sizeBytes = 4 by rw [hdtype]; rfl) (by decide)
  have houtputSize := hexact.size op.output output outputEntry (tensorAt_eq_ok.1 houtput) hentry
  rw [exactByteSize_one hrank', hdtype', hrows] at houtputSize
  refine unaryPlan_sound (by decide) haligned fun values hvalues => ?_
  rw [hlength] at hvalues
  refine (reduceSumRowsI32_ends (hexact.positive_two hinput hrank) hvalues
    (by omega)).mono fun out hout => ?_
  rw [hout, houtputSize]
  rfl

omit [HostFloat] in
theorem executeLayoutTranspose_sound (hexact : package.Exact)
    (h : package.executeLayoutTranspose op = .ok plan) : plan.Sound := by
  unfold executeLayoutTranspose at h
  simp only [bind_eq_ok, check_eq_ok] at h
  obtain ⟨input, hinput, output, houtput, -, ⟨hrank, hrank', hdtype, hdtype', hrows, hcols⟩,
    inputEntry, hinputEntry, outputEntry, hentry, hplan⟩ := h
  obtain rfl := ok.inj hplan
  obtain ⟨haligned, hlength, hbound⟩ := hexact.elements hinput hinputEntry hrank
    (show input.dtype.sizeBytes = 4 by rw [hdtype]; rfl) (by decide)
  have houtputSize := hexact.size_two houtput hentry hrank'
  rw [hdtype', hrows, hcols, Nat.mul_comm ((input.dims.get 1).toNat)] at houtputSize
  refine unaryPlan_sound (by decide) haligned fun values hvalues => ?_
  rw [hlength] at hvalues
  refine (transpose2dI32_ends (hexact.positive_two hinput hrank) hvalues
    (by omega)).mono fun out hout => ?_
  rw [hout, houtputSize]
  rfl

section

variable (hlaws : HostFloat.Lawful HostFloat.Nonnegative HostFloat.Positive)

include hlaws

theorem executeSoftmax_sound
    (hexact : package.Exact) (h : package.executeSoftmax op = .ok plan) : plan.Sound := by
  unfold executeSoftmax at h
  simp only [bind_eq_ok, check_eq_ok] at h
  obtain ⟨input, hinput, output, houtput, -, ⟨hrank, hrank', hdims, hdtype, hdtype', -⟩,
    inputEntry, hinputEntry, outputEntry, hentry, hplan⟩ := h
  obtain rfl := ok.inj hplan
  obtain ⟨haligned, hlength, -⟩ := hexact.elements hinput hinputEntry hrank
    (show input.dtype.sizeBytes = 4 by rw [hdtype]; rfl) (by decide)
  have houtputSize := hexact.size_two houtput hentry hrank'
  rw [hdtype', ← hdims] at houtputSize
  refine unaryPlan_sound (by decide) haligned fun values hvalues => ?_
  rw [hlength] at hvalues
  refine (softmaxRowsF32_ends hlaws (hexact.positive_two hinput hrank) hvalues).mono
    fun out hout => ?_
  rw [hout, houtputSize]
  rfl

theorem planOp_sound
    (hexact : package.Exact) (h : package.planOp op = .ok plan) : plan.Sound := by
  unfold planOp at h
  cases hopcode : op.opcode with
  | gemm =>
    rw [hopcode] at h
    exact executeGemm_sound hexact h
  | conv2d =>
    rw [hopcode] at h
    exact executeConv_sound hexact h
  | eltwiseRelu =>
    rw [hopcode] at h
    exact executeRelu_sound hexact h
  | poolMax =>
    rw [hopcode] at h
    exact executePoolMax_sound hexact h
  | reduceSum =>
    rw [hopcode] at h
    exact executeReduceSum_sound hexact h
  | layoutTranspose =>
    rw [hopcode] at h
    exact executeLayoutTranspose_sound hexact h
  | softmax =>
    rw [hopcode] at h
    exact executeSoftmax_sound hlaws hexact h
  | invalid =>
    rw [hopcode] at h
    cases h
  | other code hcode =>
    rw [hopcode] at h
    cases h

end

omit [HostFloat] in
theorem handled_tensorAt {index : BitVec 16} (h : index.toNat < package.tensors.length) :
    Handled (package.tensorAt index) := by
  unfold tensorAt tensor?
  rw [List.getElem?_eq_getElem h]
  exact handled_ok _

omit [HostFloat] in
theorem handled_requiredEntry (index : BitVec 16) : Handled (package.requiredEntry index) := by
  refine handled_check.bind fun _ _ => ?_
  cases package.memoryPlanOf index with
  | none => exact handled_fault _ _
  | some entry => exact handled_check.bind fun _ _ => handled_ok entry

theorem handled_gemmArithmetic (input output : AiDataType) :
    Handled (gemmArithmetic input output) := by
  cases input with
  | int8 | int16 | fp16 | bf16 | fp32 => exact handled_check.bind fun _ _ => handled_ok _
  | int32 | invalid => exact handled_fault _ _
  | other code hcode => exact handled_ok _

omit [HostFloat] in
theorem handled_convArithmetic (input : AiDataType) : Handled (convArithmetic input) := by
  cases input with
  | int8 | int16 => exact handled_ok _
  | int32 | fp16 | bf16 | fp32 | invalid => exact handled_fault _ _
  | other code hcode => exact handled_ok _

theorem handled_reluArithmetic (dtype : AiDataType) : Handled (reluArithmetic dtype) := by
  cases dtype with
  | int8 | int16 | int32 | fp32 => exact handled_ok _
  | fp16 | bf16 | invalid => exact handled_fault _ _
  | other code hcode => exact handled_ok _

omit [HostFloat] in
theorem validateOp_indices (h : package.validateOp op = .ok ()) :
    op.output.toNat < package.tensors.length ∧ op.input0.toNat < package.tensors.length ∧
      (op.opcode.requiresBinaryInputs → op.input1.toNat < package.tensors.length) ∧
      op.opcode.supported := by
  unfold validateOp at h
  simp only [seq_eq_ok, check_eq_ok] at h
  obtain ⟨hsupported, -, -, houtput, hbinary, hunary, -⟩ := h
  refine ⟨houtput, ?_, fun hrequires => (hbinary hrequires).2.1, hsupported⟩
  cases hopcode : op.opcode with
  | gemm | conv2d => exact (hbinary (by rw [hopcode]; rfl)).1
  | eltwiseRelu | poolMax | reduceSum | layoutTranspose | softmax =>
    exact (hunary (by rw [hopcode]; rfl)).1
  | invalid =>
    rw [hopcode] at hsupported
    cases hsupported
  | other code hcode =>
    rw [hopcode] at hsupported
    cases hsupported

theorem handled_planOp (h : package.validateOp op = .ok ()) : Handled (package.planOp op) := by
  obtain ⟨houtput, hinput, hinput', hsupported⟩ := validateOp_indices h
  unfold planOp
  cases hopcode : op.opcode with
  | gemm =>
    refine (handled_tensorAt hinput).bind fun _ _ =>
      (handled_tensorAt (hinput' (by rw [hopcode]; rfl))).bind fun _ _ =>
      (handled_tensorAt houtput).bind fun _ _ => ?_
    refine handled_check.bind fun _ _ => handled_check.bind fun _ _ =>
      handled_check.bind fun _ _ => ?_
    refine (handled_requiredEntry _).bind fun _ _ => (handled_requiredEntry _).bind fun _ _ =>
      (handled_requiredEntry _).bind fun _ _ => ?_
    exact (handled_gemmArithmetic _ _).bind fun _ _ => handled_ok _
  | conv2d =>
    refine (handled_tensorAt hinput).bind fun _ _ =>
      (handled_tensorAt (hinput' (by rw [hopcode]; rfl))).bind fun _ _ =>
      (handled_tensorAt houtput).bind fun _ _ => ?_
    refine handled_check.bind fun _ _ => handled_check.bind fun _ _ => handled_check.bind fun _ _ =>
      handled_check.bind fun _ _ => ?_
    refine (handled_requiredEntry _).bind fun _ _ => (handled_requiredEntry _).bind fun _ _ =>
      (handled_requiredEntry _).bind fun _ _ => ?_
    exact (handled_convArithmetic _).bind fun _ _ => handled_ok _
  | eltwiseRelu =>
    refine (handled_tensorAt hinput).bind fun _ _ => (handled_tensorAt houtput).bind fun _ _ =>
      handled_check.bind fun _ _ => (handled_requiredEntry _).bind fun _ _ =>
      (handled_requiredEntry _).bind fun _ _ => (handled_reluArithmetic _).bind fun arithmetic _ =>
        ?_
    cases arithmetic with
    | none => exact handled_ok _
    | some arithmetic => exact handled_ok _
  | poolMax =>
    exact (handled_tensorAt hinput).bind fun _ _ => (handled_tensorAt houtput).bind fun _ _ =>
      handled_check.bind fun _ _ => handled_check.bind fun _ _ => handled_check.bind fun _ _ =>
      (handled_requiredEntry _).bind fun _ _ => (handled_requiredEntry _).bind fun _ _ =>
      handled_ok _
  | reduceSum | layoutTranspose | softmax =>
    exact (handled_tensorAt hinput).bind fun _ _ => (handled_tensorAt houtput).bind fun _ _ =>
      handled_check.bind fun _ _ => (handled_requiredEntry _).bind fun _ _ =>
      (handled_requiredEntry _).bind fun _ _ => handled_ok _
  | invalid =>
    rw [hopcode] at hsupported
    cases hsupported
  | other code hcode =>
    rw [hopcode] at hsupported
    cases hsupported

def LayoutOf (package : AiGraphPackage) (pad : AiScratchpad) : Prop :=
  pad.scratchpadBytes = (configure package.scratchpadBudgetBytes).scratchpadBytes ∧
    pad.totalBytes = (configure package.scratchpadBudgetBytes).totalBytes

omit [HostFloat] in
variable {pad : AiScratchpad}

theorem Exact.contained_kernel (hexact : package.Exact) (hoperands : package.Operands op plan)
    {kernel : Kernel} (hkernel : plan.kernel = some kernel)
    (hpad : package.LayoutOf pad) : kernel.Contained pad := by
  obtain ⟨hinput0, hinput1, houtput⟩ := hoperands.kernel kernel hkernel
  have hbudget : pad.scratchpadBytes = package.scratchpadBudgetBytes := hpad.1
  constructor
  · rw [hbudget]
    exact hexact.contained op.input0 kernel.input0 hinput0
  · intro entry hentry
    rw [hbudget]
    exact hexact.contained op.input1 entry (hinput1 entry hentry).2
  · rw [hbudget]
    exact hexact.contained op.output kernel.output houtput

variable (package) in
/-- The operands of every operation whose checks pass are inside the allocated bytes. -/
def OperandsAllocated : Prop :=
  ∀ op ∈ package.ops, ∀ plan, package.planOp op = .ok plan → ∀ kernel, plan.kernel = some kernel →
    kernel.Allocated (.configure package.scratchpadBudgetBytes)

omit [HostFloat] in
theorem allocated_of_layout {kernel : Kernel} (hpad : package.LayoutOf pad) :
    kernel.Allocated pad ↔ kernel.Allocated (.configure package.scratchpadBudgetBytes) := by
  have hholds : ∀ entry : AiMemoryPlanEntry, pad.Holds entry ↔
      (configure package.scratchpadBudgetBytes).Holds entry := by
    intro entry
    simp only [AiScratchpad.Holds, allocated, hpad.2]
  constructor
  · rintro ⟨hinput0, hinput1, houtput⟩
    exact ⟨(hholds _).1 hinput0, fun entry hentry => (hholds entry).1 (hinput1 entry hentry),
      (hholds _).1 houtput⟩
  · rintro ⟨hinput0, hinput1, houtput⟩
    exact ⟨(hholds _).2 hinput0, fun entry hentry => (hholds entry).2 (hinput1 entry hentry),
      (hholds _).2 houtput⟩

variable (hlaws : HostFloat.Lawful HostFloat.Nonnegative HostFloat.Positive)

include hlaws

theorem handled_executeOp
    (hexact : package.Exact) (hvalid : package.validateOp op = .ok ()) (hop : op ∈ package.ops)
    (hallocated : package.OperandsAllocated) (hpad : package.LayoutOf pad) :
    Handled (package.executeOp op pad) := by
  refine (handled_planOp hvalid).bind fun plan hplan => ?_
  have hsound := planOp_sound hlaws hexact hplan
  have hrun : Handled (plan.runKernel pad) := by
    unfold OpPlan.runKernel
    cases hkernel : plan.kernel with
    | none => exact handled_ok _
    | some kernel =>
      have hcontained := hexact.contained_kernel (planOp_operands hplan) hkernel hpad
      have halloc := (allocated_of_layout hpad).2 (hallocated op hop plan hplan kernel hkernel)
      exact (Kernel.run_ends (hsound.kernel kernel hkernel) hcontained halloc).handled
  exact hrun.bind fun _ _ => hsound.finish.bind fun _ _ => handled_ok _

theorem allocated_of_handled
    (hexact : package.Exact) (hplan : package.planOp op = .ok plan) {kernel : Kernel}
    (hkernel : plan.kernel = some kernel) (hpad : package.LayoutOf pad)
    (h : Handled (package.executeOp op pad)) : kernel.Allocated pad := by
  by_contra hnot
  have hcontained := hexact.contained_kernel (planOp_operands hplan) hkernel hpad
  have hrun := Kernel.run_outOfBounds ((planOp_sound hlaws hexact hplan).kernel kernel hkernel)
    hcontained hnot
  have hstop : package.executeOp op pad = .error .outOfBounds := by
    unfold executeOp
    rw [hplan]
    simp only [bind, Except.bind, OpPlan.run, OpPlan.runKernel, hkernel, hrun]
  obtain ⟨code, error, hfault⟩ := h _ hstop
  cases hfault

end Operations

end AiGraphPackage

end VisualCpu
