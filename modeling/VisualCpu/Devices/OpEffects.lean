import VisualCpu.Devices.GraphScheduler

/-!
# The effects of the operations of a graph

An operation stores bytes that depend on the ranges of its inputs only, and it stores them
to the range of its output. Operations whose ranges do not conflict commute.
-/

namespace VisualCpu

open Checks Except AiScratchpad Option

/-- The offsets of a tensor in the scratchpad. -/
def AiMemoryPlanEntry.range (entry : AiMemoryPlanEntry) : Set ℕ :=
  { a | entry.scratchpadOffset.toNat ≤ a ∧
    a < entry.scratchpadOffset.toNat + entry.byteSize.toNat }

namespace AiScratchpad

/-- Two scratchpads of the same layout agree on some bytes. -/
structure Agree (range : Set ℕ) (pad other : AiScratchpad) : Prop where
  scratchpadBytes : pad.scratchpadBytes = other.scratchpadBytes
  totalBytes : pad.totalBytes = other.totalBytes
  bytes : ∀ a ∈ range, pad.bytes a = other.bytes a

theorem Agree.mono {range range' : Set ℕ} {pad other : AiScratchpad} (h : Agree range pad other)
    (hsub : range' ⊆ range) : Agree range' pad other :=
  ⟨h.scratchpadBytes, h.totalBytes, fun a ha => h.bytes a (hsub ha)⟩

section

variable {range : Set ℕ} {pad other : AiScratchpad} (h : Agree range pad other)

include h

theorem Agree.contains
    (offset : BitVec 32) (size : ℕ) : pad.contains offset size = other.contains offset size := by
  unfold AiScratchpad.contains
  rw [h.scratchpadBytes]

theorem Agree.allocated
    (offset : BitVec 32) (size : ℕ) : pad.allocated offset size = other.allocated offset size := by
  unfold AiScratchpad.allocated
  rw [h.totalBytes]

end

theorem store_nil (pad : AiScratchpad) (offset : ℕ) : pad.store offset [] = pad := by
  apply ext_bytes
  · rfl
  · rfl
  intro a
  exact store_bytes_of_outside (by simp; omega)

/-- An operation that stores bytes which depend on some bytes only. -/
structure Stores (f : AiScratchpad → KernelRun AiScratchpad) (reads writes : Set ℕ) where
  offset : ℕ
  data : AiScratchpad → KernelRun (List (BitVec 8))
  run_eq : ∀ pad, f pad = (data pad).map (pad.store offset)
  inside : ∀ pad bytes, data pad = .ok bytes → ∀ a, offset ≤ a → a < offset + bytes.length →
    a ∈ writes
  congr : ∀ pad other, Agree reads pad other → data pad = data other

namespace Stores

variable {f g : AiScratchpad → KernelRun AiScratchpad} {reads writes reads' writes' : Set ℕ}
  {data data' : List (BitVec 8)}

theorem agree (hf : Stores f reads writes) (hread : ∀ a ∈ reads', a ∉ writes) {pad : AiScratchpad}
    {bytes : List (BitVec 8)} (hdata : hf.data pad = .ok bytes) :
    Agree reads' (pad.store hf.offset bytes) pad where
  scratchpadBytes := rfl
  totalBytes := rfl
  bytes a ha := by
    apply store_bytes_of_outside
    by_contra hinside
    exact hread a ha (hf.inside pad bytes hdata a (by omega) (by omega))

theorem separate {first second : ℕ} (hfirst : data ≠ []) (hsecond : data' ≠ [])
    (h : ∀ a, first ≤ a → a < first + data.length → second ≤ a → a < second + data'.length →
      False) :
    first + data.length ≤ second ∨ second + data'.length ≤ first := by
  have hpos : 0 < data.length := List.length_pos_of_ne_nil hfirst
  have hpos' : 0 < data'.length := List.length_pos_of_ne_nil hsecond
  by_contra hmeet
  rcases Nat.le_total first second with hle | hle
  · exact h second hle (by omega) (Nat.le_refl _) (by omega)
  · exact h first (Nat.le_refl _) (by omega) hle (by omega)

theorem store_store_comm (hf : Stores f reads writes) (hg : Stores g reads' writes')
    (hwrite : ∀ a ∈ writes, a ∉ writes') {pad : AiScratchpad}
    (hdata : hf.data pad = .ok data) (hdata' : hg.data pad = .ok data') :
    (pad.store hf.offset data).store hg.offset data' =
      (pad.store hg.offset data').store hf.offset data := by
  by_cases hfirst : data = []
  · rw [hfirst, store_nil, store_nil]
  by_cases hsecond : data' = []
  · rw [hsecond, store_nil, store_nil]
  apply store_comm
  apply separate hfirst hsecond
  intro a hle hlt hle' hlt'
  exact hwrite a (hf.inside pad data hdata a hle hlt) (hg.inside pad data' hdata' a hle' hlt')

/-- Operations without a conflict commute, also in whether they succeed. -/
theorem comm (hf : Stores f reads writes) (hg : Stores g reads' writes')
    (hwrite : ∀ a ∈ writes, a ∉ writes') (hread : ∀ a ∈ reads, a ∉ writes')
    (hread' : ∀ a ∈ reads', a ∉ writes) (pad : AiScratchpad) :
    ((f pad).toOption.bind fun next => (g next).toOption) =
      (g pad).toOption.bind fun next => (f next).toOption := by
  have hgf : ∀ data, hf.data pad = .ok data → hg.data (pad.store hf.offset data) = hg.data pad :=
    fun data hdata => hg.congr _ _ (hf.agree hread' hdata)
  have hfg : ∀ data, hg.data pad = .ok data → hf.data (pad.store hg.offset data) = hf.data pad :=
    fun data hdata => hf.congr _ _ (hg.agree hread hdata)
  rw [hf.run_eq, hg.run_eq]
  cases hdata : hf.data pad with
  | error stop =>
    cases hdata' : hg.data pad with
    | error stop' => rfl
    | ok data' =>
      simp only [Except.map, Except.toOption, bind_none, bind_some]
      rw [hf.run_eq, hfg data' hdata', hdata]
      rfl
  | ok data =>
    cases hdata' : hg.data pad with
    | error stop' =>
      simp only [Except.map, Except.toOption, bind_none, bind_some]
      rw [hg.run_eq, hgf data hdata, hdata']
      rfl
    | ok data' =>
      simp only [Except.map, Except.toOption, bind_some]
      rw [hf.run_eq, hg.run_eq, hgf data hdata, hfg data' hdata', hdata, hdata']
      simp only [Except.map]
      rw [hf.store_store_comm hg hwrite hdata hdata']

end Stores

variable {pad : AiScratchpad} {other : AiScratchpad} {size : ℕ}

theorem read_congr {offset : BitVec 32}
    (h : Agree { a | offset.toNat ≤ a ∧ a < offset.toNat + size } pad other) :
    pad.read offset size = other.read offset size := by
  have hslice : pad.slice offset.toNat size = other.slice offset.toNat size :=
    slice_congr fun a hle hlt => h.bytes a ⟨hle, hlt⟩
  unfold read
  rw [h.contains, h.allocated, hslice]

theorem readTensorValues_congr {entry : AiMemoryPlanEntry} (h : Agree entry.range pad other) :
    pad.readTensorValues size entry = other.readTensorValues size entry := by
  unfold readTensorValues
  rw [read_congr h]

def tensorData (pad : AiScratchpad) (size : ℕ) (entry : AiMemoryPlanEntry)
    (values : List (BitVec 32)) : KernelRun (List (BitVec 8)) := do
  let _ ← pad.writeTensorValues size entry values
  .ok (encodeValues size values)

end AiScratchpad

@[simp] theorem length_encodeValues (size : ℕ) (values : List (BitVec 32)) :
    (encodeValues size values).length = values.length * size := by
  simp [encodeValues]

namespace AiScratchpad

variable {pad : AiScratchpad} {size : ℕ} {entry : AiMemoryPlanEntry} {values : List (BitVec 32)}

theorem writeTensorValues_eq : pad.writeTensorValues size entry values =
      (pad.tensorData size entry values).map (pad.store entry.scratchpadOffset.toNat) := by
  unfold tensorData writeTensorValues write
  cases check (values.length * size = entry.byteSize.toNat)
      (KernelStop.fault .execution "tensor byte size does not match compute output") with
  | error stop => rfl
  | ok _ =>
    split_ifs <;> rfl

theorem tensorData_eq_ok {data : List (BitVec 8)}
    (h : pad.tensorData size entry values = .ok data) :
    data.length = entry.byteSize.toNat := by
  unfold tensorData writeTensorValues at h
  simp only [bind_eq_ok, check_eq_ok] at h
  obtain ⟨_, ⟨_, hsize, -⟩, hdata⟩ := h
  rw [← ok.inj hdata, length_encodeValues, hsize]

theorem tensorData_congr {other : AiScratchpad} (h : Agree ∅ pad other) :
    pad.tensorData size entry values = other.tensorData size entry values := by
  unfold tensorData writeTensorValues write
  cases check (values.length * size = entry.byteSize.toNat)
      (KernelStop.fault .execution "tensor byte size does not match compute output") with
  | error stop => rfl
  | ok _ =>
    rw [h.contains, h.allocated]
    cases other.contains entry.scratchpadOffset (encodeValues size values).length with
    | false => rfl
    | true =>
      cases other.allocated entry.scratchpadOffset (encodeValues size values).length with
      | false => rfl
      | true => rfl

end AiScratchpad

namespace Kernel

variable (kernel : Kernel)

def reads : Set ℕ :=
  { a | a ∈ kernel.input0.range ∨ ∃ entry, kernel.input1 = some entry ∧ a ∈ entry.range }

/-- The bytes that the operation stores. -/
def data (pad : AiScratchpad) : KernelRun (List (BitVec 8)) := do
  let lhs ← pad.readTensorValues kernel.inputSize kernel.input0
  let rhs ← pad.readSecondValues kernel.inputSize kernel.input1
  let values ← kernel.compute lhs rhs
  pad.tensorData kernel.outputSize kernel.output values

theorem run_eq (pad : AiScratchpad) :
    kernel.run pad = (kernel.data pad).map (pad.store kernel.output.scratchpadOffset.toNat) := by
  unfold run data
  simp only [writeTensorValues_eq]
  cases pad.readTensorValues kernel.inputSize kernel.input0 with
  | error stop => rfl
  | ok lhs =>
    simp only [bind, Except.bind]
    cases pad.readSecondValues kernel.inputSize kernel.input1 with
    | error stop => rfl
    | ok rhs =>
      simp only
      cases kernel.compute lhs rhs with
      | error stop => rfl
      | ok values => rfl

theorem data_congr {pad other : AiScratchpad} (h : AiScratchpad.Agree kernel.reads pad other) :
    kernel.data pad = kernel.data other := by
  have hlhs : pad.readTensorValues kernel.inputSize kernel.input0 =
      other.readTensorValues kernel.inputSize kernel.input0 :=
    readTensorValues_congr (h.mono fun a ha => .inl ha)
  have hrhs : pad.readSecondValues kernel.inputSize kernel.input1 =
      other.readSecondValues kernel.inputSize kernel.input1 := by
    cases hinput : kernel.input1 with
    | none => rfl
    | some entry =>
      exact readTensorValues_congr (h.mono fun a ha => .inr ⟨entry, hinput, ha⟩)
  have hdata : ∀ values, pad.tensorData kernel.outputSize kernel.output values =
      other.tensorData kernel.outputSize kernel.output values :=
    fun values => tensorData_congr (h.mono (Set.empty_subset _))
  unfold data
  rw [hlhs, hrhs]
  simp only [hdata]

theorem data_length {pad : AiScratchpad} {bytes : List (BitVec 8)}
    (h : kernel.data pad = .ok bytes) : bytes.length = kernel.output.byteSize.toNat := by
  unfold data at h
  simp only [bind_eq_ok] at h
  obtain ⟨_, -, _, -, values, -, hdata⟩ := h
  exact tensorData_eq_ok hdata

end Kernel

namespace OpPlan

variable (plan : OpPlan)

/-- The operation apart from the number of retired operations. -/
def act (pad : AiScratchpad) : KernelRun AiScratchpad := do
  let pad ← plan.runKernel pad
  plan.finish
  .ok pad

theorem run_eq (pad : AiScratchpad) :
    plan.run pad = (plan.act pad).map fun next => (next, plan.retiredOps) := by
  unfold run act
  cases plan.runKernel pad with
  | error stop => rfl
  | ok next =>
    cases plan.finish <;> rfl

/-- The ranges that the operation of a plan reads and writes. -/
def reads : Set ℕ := { a | ∃ kernel, plan.kernel = some kernel ∧ a ∈ kernel.reads }
def writes : Set ℕ := { a | ∃ kernel, plan.kernel = some kernel ∧ a ∈ kernel.output.range }

/-- An operation stores to the range of its output what depends on the ranges of its inputs. -/
def stores : AiScratchpad.Stores plan.act plan.reads plan.writes where
  offset :=
    match plan.kernel with
    | none => 0
    | some kernel => kernel.output.scratchpadOffset.toNat
  data pad := do
    let bytes ← match plan.kernel with
      | none => .ok []
      | some kernel => kernel.data pad
    plan.finish
    .ok bytes
  run_eq pad := by
    unfold act runKernel
    cases hkernel : plan.kernel with
    | none =>
      simp only [bind, Except.bind]
      cases plan.finish with
      | error stop => rfl
      | ok _ => simp [Except.map, store_nil]
    | some kernel =>
      simp only [bind, Except.bind]
      rw [kernel.run_eq]
      cases kernel.data pad with
      | error stop => rfl
      | ok bytes =>
        simp only [Except.map]
        cases plan.finish <;> rfl
  inside pad bytes hdata a hle hlt := by
    cases hkernel : plan.kernel with
    | none =>
      simp only [hkernel, bind_eq_ok] at hdata hle hlt
      obtain ⟨empty, hempty, _, -, hbytes⟩ := hdata
      rw [← Except.ok.inj hbytes, ← Except.ok.inj hempty] at hlt
      simp at hlt
    | some kernel =>
      simp only [hkernel, bind_eq_ok] at hdata hle hlt
      obtain ⟨bytes', hdata, _, -, hbytes⟩ := hdata
      rw [← Except.ok.inj hbytes, kernel.data_length hdata] at hlt
      exact ⟨kernel, hkernel, hle, hlt⟩
  congr pad other h := by
    cases hkernel : plan.kernel with
    | none => rfl
    | some kernel =>
      simp only
      rw [kernel.data_congr (h.mono fun a ha => ⟨kernel, hkernel, ha⟩)]

end OpPlan

namespace AiGraphPackage

variable {package : AiGraphPackage} {index : BitVec 16}

theorem tensorAt_eq_ok {tensor : AiTensorMetadata} :
    package.tensorAt index = .ok tensor ↔ package.tensor? index = some tensor := by
  unfold tensorAt
  cases package.tensor? index with
  | none => simp
  | some found => simp

theorem requiredEntry_eq_ok {entry : AiMemoryPlanEntry} :
    package.requiredEntry index = .ok entry ↔
      index.toNat < package.tensors.length ∧ package.memoryPlanOf index = some entry ∧
        entry.byteSize ≤ entry.scratchpadBytes := by
  unfold requiredEntry
  cases package.memoryPlanOf index with
  | none => simp
  | some found =>
    simp only [seq_eq_ok, check_eq_ok, ok.injEq, some.injEq]
    constructor
    · rintro ⟨hlt, hle, rfl⟩
      exact ⟨hlt, rfl, hle⟩
    rintro ⟨hlt, rfl, hle⟩
    exact ⟨hlt, hle, rfl⟩

/-- The operands of the kernel of an operation are those that its descriptor names. -/
structure Operands (package : AiGraphPackage) (op : AiOpDescriptor) (plan : OpPlan) : Prop where
  output : ∃ tensor, package.tensor? op.output = some tensor
  kernel : ∀ kernel, plan.kernel = some kernel →
    package.requiredEntry op.input0 = .ok kernel.input0 ∧
    (∀ entry, kernel.input1 = some entry →
      op.opcode.requiresBinaryInputs ∧ package.requiredEntry op.input1 = .ok entry) ∧
    package.requiredEntry op.output = .ok kernel.output

theorem unaryPlan_operands {op : AiOpDescriptor} {output : AiTensorMetadata}
    {inputEntry outputEntry : AiMemoryPlanEntry} {size : ℕ}
    {compute : List (BitVec 32) → KernelRun (List (BitVec 32))} {retiredOps : BitVec 64}
    (houtput : package.tensorAt op.output = .ok output)
    (hinputEntry : package.requiredEntry op.input0 = .ok inputEntry)
    (houtputEntry : package.requiredEntry op.output = .ok outputEntry) :
    package.Operands op (unaryPlan inputEntry outputEntry size compute retiredOps) where
  output := ⟨output, tensorAt_eq_ok.1 houtput⟩
  kernel kernel hkernel := by
    obtain rfl := some.inj hkernel
    exact ⟨hinputEntry, fun entry hentry => (by cases hentry), houtputEntry⟩

section

variable [HostFloat] {op : AiOpDescriptor} {plan : OpPlan}

theorem executeGemm_operands (hbinary : op.opcode.requiresBinaryInputs)
    (h : package.executeGemm op = .ok plan) : package.Operands op plan := by
  unfold executeGemm at h
  simp only [bind_eq_ok, check_eq_ok] at h
  obtain ⟨lhs, -, rhs, -, output, houtput, -, -, -, -, -, -, lhsEntry, hlhs, rhsEntry, hrhs,
    outputEntry, hentry, arithmetic, -, hplan⟩ := h
  obtain rfl := ok.inj hplan
  refine ⟨⟨output, tensorAt_eq_ok.1 houtput⟩, fun kernel hkernel => ?_⟩
  obtain ⟨found, -, rfl⟩ := map_eq_some_iff.1 hkernel
  refine ⟨hlhs, fun entry hsome => ?_, hentry⟩
  obtain rfl := some.inj hsome
  exact ⟨hbinary, hrhs⟩

omit [HostFloat] in
theorem executeConv_operands (hbinary : op.opcode.requiresBinaryInputs)
    (h : package.executeConv op = .ok plan) : package.Operands op plan := by
  unfold executeConv at h
  simp only [bind_eq_ok, check_eq_ok] at h
  obtain ⟨input, -, kernel, -, output, houtput, -, -, -, -, -, -, -, -, inputEntry, hinput,
    kernelEntry, hkernelEntry, outputEntry, hentry, arithmetic, -, hplan⟩ := h
  obtain rfl := ok.inj hplan
  refine ⟨⟨output, tensorAt_eq_ok.1 houtput⟩, fun kernel hkernel => ?_⟩
  obtain ⟨found, -, rfl⟩ := map_eq_some_iff.1 hkernel
  refine ⟨hinput, fun entry hsome => ?_, hentry⟩
  obtain rfl := some.inj hsome
  exact ⟨hbinary, hkernelEntry⟩

theorem executeRelu_operands (h : package.executeRelu op = .ok plan) :
    package.Operands op plan := by
  unfold executeRelu at h
  simp only [bind_eq_ok, check_eq_ok] at h
  obtain ⟨input, -, output, houtput, -, -, inputEntry, hinput, outputEntry, hentry, arithmetic, -,
    hplan⟩ := h
  cases arithmetic with
  | none =>
    obtain rfl := ok.inj hplan
    exact ⟨⟨output, tensorAt_eq_ok.1 houtput⟩, fun kernel hkernel => (by cases hkernel)⟩
  | some arithmetic =>
    obtain rfl := ok.inj hplan
    exact unaryPlan_operands houtput hinput hentry

theorem executePoolMax_operands (h : package.executePoolMax op = .ok plan) :
    package.Operands op plan := by
  unfold executePoolMax at h
  simp only [bind_eq_ok, check_eq_ok] at h
  obtain ⟨input, -, output, houtput, -, -, -, -, -, -, inputEntry, hinput, outputEntry, hentry,
    hplan⟩ := h
  obtain rfl := ok.inj hplan
  exact unaryPlan_operands houtput hinput hentry

omit [HostFloat] in
theorem executeReduceSum_operands (h : package.executeReduceSum op = .ok plan) :
    package.Operands op plan := by
  unfold executeReduceSum at h
  simp only [bind_eq_ok, check_eq_ok] at h
  obtain ⟨input, -, output, houtput, -, -, inputEntry, hinput, outputEntry, hentry, hplan⟩ := h
  obtain rfl := ok.inj hplan
  exact unaryPlan_operands houtput hinput hentry

omit [HostFloat] in
theorem executeLayoutTranspose_operands (h : package.executeLayoutTranspose op = .ok plan) :
    package.Operands op plan := by
  unfold executeLayoutTranspose at h
  simp only [bind_eq_ok, check_eq_ok] at h
  obtain ⟨input, -, output, houtput, -, -, inputEntry, hinput, outputEntry, hentry, hplan⟩ := h
  obtain rfl := ok.inj hplan
  exact unaryPlan_operands houtput hinput hentry

theorem executeSoftmax_operands (h : package.executeSoftmax op = .ok plan) :
    package.Operands op plan := by
  unfold executeSoftmax at h
  simp only [bind_eq_ok, check_eq_ok] at h
  obtain ⟨input, -, output, houtput, -, -, inputEntry, hinput, outputEntry, hentry, hplan⟩ := h
  obtain rfl := ok.inj hplan
  exact unaryPlan_operands houtput hinput hentry

theorem planOp_operands (h : package.planOp op = .ok plan) : package.Operands op plan := by
  unfold planOp at h
  cases hopcode : op.opcode with
  | gemm =>
    rw [hopcode] at h
    exact executeGemm_operands (by rw [hopcode]; rfl) h
  | conv2d =>
    rw [hopcode] at h
    exact executeConv_operands (by rw [hopcode]; rfl) h
  | eltwiseRelu =>
    rw [hopcode] at h
    exact executeRelu_operands h
  | poolMax =>
    rw [hopcode] at h
    exact executePoolMax_operands h
  | reduceSum =>
    rw [hopcode] at h
    exact executeReduceSum_operands h
  | layoutTranspose =>
    rw [hopcode] at h
    exact executeLayoutTranspose_operands h
  | softmax =>
    rw [hopcode] at h
    exact executeSoftmax_operands h
  | invalid =>
    rw [hopcode] at h
    cases h
  | other code hcode =>
    rw [hopcode] at h
    cases h

end

variable (package) in
/-- The offsets of the inputs of an operation in the scratchpad. -/
def opReads (op : AiOpDescriptor) : Set ℕ :=
  { a | ∃ entry, (package.memoryPlanOf op.input0 = some entry ∨
      op.opcode.requiresBinaryInputs ∧ package.memoryPlanOf op.input1 = some entry) ∧
    a ∈ entry.range }

variable (package) in
/-- The offsets of the output of an operation. -/
def opWrites (op : AiOpDescriptor) : Set ℕ :=
  { a | ∃ entry, package.memoryPlanOf op.output = some entry ∧ a ∈ entry.range }

section

variable {op : AiOpDescriptor} {plan : OpPlan} (h : package.Operands op plan)

include h

theorem Operands.reads : plan.reads ⊆ package.opReads op := by
  rintro a ⟨kernel, hkernel, hread⟩
  obtain ⟨hinput0, hinput1, -⟩ := h.kernel kernel hkernel
  rcases hread with hread | ⟨entry, hentry, hread⟩
  · exact ⟨kernel.input0, .inl (requiredEntry_eq_ok.1 hinput0).2.1, hread⟩
  obtain ⟨hbinary, hrequired⟩ := hinput1 entry hentry
  exact ⟨entry, .inr ⟨hbinary, (requiredEntry_eq_ok.1 hrequired).2.1⟩, hread⟩

theorem Operands.writes : plan.writes ⊆ package.opWrites op := by
  rintro a ⟨kernel, hkernel, hwrite⟩
  obtain ⟨-, -, houtput⟩ := h.kernel kernel hkernel
  exact ⟨kernel.output, (requiredEntry_eq_ok.1 houtput).2.1, hwrite⟩

end

end AiGraphPackage

end VisualCpu
