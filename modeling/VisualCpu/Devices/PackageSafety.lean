import VisualCpu.Devices.KernelSafety

/-!
# What an accepted package cannot do

The sizes of an accepted package are exact, its operations stop with a fault only and touch
no byte outside the planned ranges, exactly when no size wraps and the operands are inside
the allocated bytes.
-/

namespace VisualCpu

open Checks Loops HostFloat AiGraphPackage

theorem AiScratchpad.Agree.store {range : Set ℕ} {pad other : AiScratchpad} (h : Agree range pad other)
    (offset : ℕ) (data : List (BitVec 8)) :
    Agree range (pad.store offset data) (other.store offset data) where
  scratchpadBytes := h.scratchpadBytes
  totalBytes := h.totalBytes
  bytes a ha := by
    by_cases hinside : offset ≤ a ∧ a < offset + data.length
    · rw [store_bytes_of_inside hinside.1 (by omega), store_bytes_of_inside hinside.1 (by omega)]
    rw [store_bytes_of_outside (by omega), store_bytes_of_outside (by omega)]
    exact h.bytes a ha

namespace AiGraphPackage

variable {package : AiGraphPackage} {op : AiOpDescriptor} {plan : OpPlan}

def plannedBytes (package : AiGraphPackage) : Set ℕ :=
  { a | ∃ entry ∈ package.memoryPlan, entry.scratchpadOffset.toNat ≤ a ∧
    a < entry.scratchpadOffset.toNat + entry.scratchpadBytes.toNat }

theorem range_planned {index : BitVec 16} {entry : AiMemoryPlanEntry}
    (h : package.requiredEntry index = .ok entry) : entry.range ⊆ package.plannedBytes := by
  obtain ⟨-, hplan, hresident⟩ := requiredEntry_eq_ok.1 h
  intro a ha
  obtain ⟨hle, hlt⟩ := ha
  rw [BitVec.le_def] at hresident
  exact ⟨entry, (memoryPlanOf_mem hplan).1, hle, by omega⟩

theorem Operands.planned (h : package.Operands op plan) :
    plan.reads ⊆ package.plannedBytes ∧ plan.writes ⊆ package.plannedBytes := by
  constructor
  · rintro a ⟨kernel, hkernel, hread⟩
    obtain ⟨hinput0, hinput1, -⟩ := h.kernel kernel hkernel
    rcases hread with hread | ⟨entry, hentry, hread⟩
    · exact range_planned hinput0 hread
    · exact range_planned (hinput1 entry hentry).2 hread
  · rintro a ⟨kernel, hkernel, hwrite⟩
    obtain ⟨-, -, houtput⟩ := h.kernel kernel hkernel
    exact range_planned houtput hwrite

section

variable [HostFloat]

theorem executeOp_eq_act (hplan : package.planOp op = .ok plan) (pad : AiScratchpad) :
    package.executeOp op pad = (plan.act pad).map fun next => (next, plan.retiredOps) := by
  unfold executeOp
  rw [hplan]
  exact plan.run_eq pad

section

variable {pad next : AiScratchpad} {retiredOps : BitVec 64}
  (h : package.executeOp op pad = .ok (next, retiredOps))

include h

theorem executeOp_eq_ok :
    ∃ plan data, package.planOp op = .ok plan ∧ plan.stores.data pad = .ok data ∧
      next = pad.store plan.stores.offset data ∧ retiredOps = plan.retiredOps := by
  cases hplan : package.planOp op with
  | error stop =>
    unfold executeOp at h
    rw [hplan] at h
    cases h
  | ok plan =>
    rw [executeOp_eq_act hplan, plan.stores.run_eq] at h
    cases hdata : plan.stores.data pad with
    | error stop =>
      rw [hdata] at h
      cases h
    | ok data =>
      rw [hdata] at h
      obtain ⟨rfl, rfl⟩ := Prod.mk.inj (Except.ok.inj h)
      exact ⟨plan, data, rfl, hdata, rfl, rfl⟩

theorem executeOp_frame : AiScratchpad.Agree { a | a ∉ package.plannedBytes } next pad := by
  obtain ⟨plan, data, hplan, hdata, rfl, -⟩ := executeOp_eq_ok h
  have houtside : ∀ a ∈ { a | a ∉ package.plannedBytes }, a ∉ plan.writes :=
    fun a ha hwrite => ha ((planOp_operands hplan).planned.2 hwrite)
  exact plan.stores.agree houtside hdata

end

theorem LayoutOf.executeOp {pad next : AiScratchpad} {retiredOps : BitVec 64}
    (hpad : package.LayoutOf pad) (h : package.executeOp op pad = .ok (next, retiredOps)) :
    package.LayoutOf next :=
  ⟨(executeOp_frame h).scratchpadBytes.trans hpad.1, (executeOp_frame h).totalBytes.trans hpad.2⟩

theorem executeOp_congr {pad other : AiScratchpad}
    (h : AiScratchpad.Agree package.plannedBytes pad other) :
    (∀ stop, package.executeOp op pad = .error stop → package.executeOp op other = .error stop) ∧
    ∀ next retiredOps, package.executeOp op pad = .ok (next, retiredOps) →
      ∃ next', package.executeOp op other = .ok (next', retiredOps) ∧
        AiScratchpad.Agree package.plannedBytes next next' := by
  cases hplan : package.planOp op with
  | error stop =>
    have hstop : ∀ pad, package.executeOp op pad = .error stop := by
      intro pad
      unfold executeOp
      rw [hplan]
      rfl
    rw [hstop, hstop]
    exact ⟨fun _ heq => heq, fun next retiredOps heq => (by cases heq)⟩
  | ok plan =>
    have hdata := plan.stores.congr pad other (h.mono (planOp_operands hplan).planned.1)
    rw [executeOp_eq_act hplan, executeOp_eq_act hplan, plan.stores.run_eq, plan.stores.run_eq,
      ← hdata]
    cases plan.stores.data pad with
    | error stop => exact ⟨fun _ heq => heq, fun next retiredOps heq => (by cases heq)⟩
    | ok data =>
      refine ⟨fun stop heq => (by cases heq), fun next retiredOps heq => ?_⟩
      obtain ⟨rfl, rfl⟩ := Prod.mk.inj (Except.ok.inj heq)
      exact ⟨_, rfl, h.store _ data⟩

/-- An execution stops early with a fault only. -/
def SchedulerHandled (x : Except SchedulerStop Run) : Prop :=
  ∀ stop, x = .error stop → ∃ code detail error, stop = .fault code detail error

theorem executeIndex_handled (timing : AiGraphSchedulerTiming) {run : Run} {index : BitVec 16}
    (hops : ∀ op ∈ package.ops, ∀ pad, package.LayoutOf pad → Handled (package.executeOp op pad))
    (hindex : index.toNat < package.ops.length) (hpad : package.LayoutOf run.pad) :
    SchedulerHandled (package.executeIndex timing run index) ∧
      ∀ next, package.executeIndex timing run index = .ok next → package.LayoutOf next.pad := by
  unfold executeIndex
  rw [List.getElem?_eq_getElem hindex]
  dsimp only
  have hhandled := hops _ (List.getElem_mem hindex) run.pad hpad
  cases hexec : package.executeOp package.ops[index.toNat] run.pad with
  | error stop =>
    obtain ⟨code, error, rfl⟩ := hhandled stop hexec
    refine ⟨fun stop h => ?_, fun next h => (by cases h)⟩
    cases h
    exact ⟨code, _, error, rfl⟩
  | ok result =>
    obtain ⟨plan, -, hplan, -⟩ := executeOp_eq_ok hexec
    obtain ⟨output, houtput⟩ := (planOp_operands hplan).output
    rw [houtput]
    refine ⟨fun stop h => (by cases h), fun next h => ?_⟩
    obtain rfl := Except.ok.inj h
    exact hpad.executeOp hexec

theorem foldlM_executeIndex_handled (timing : AiGraphSchedulerTiming) {order : List (BitVec 16)}
    (hops : ∀ op ∈ package.ops, ∀ pad, package.LayoutOf pad → Handled (package.executeOp op pad))
    (horder : ∀ index ∈ order, index.toNat < package.ops.length) (run : Run)
    (hpad : package.LayoutOf run.pad) :
    SchedulerHandled (order.foldlM (package.executeIndex timing) run) := by
  induction order generalizing run with
  | nil => exact fun stop h => (by cases h)
  | cons index rest ih =>
    obtain ⟨hhandled, hlayout⟩ := executeIndex_handled timing hops
      (horder index List.mem_cons_self) hpad
    rw [List.foldlM_cons]
    cases hstep : package.executeIndex timing run index with
    | error stop =>
      intro stop' h
      cases h
      exact hhandled stop hstep
    | ok next =>
      exact ih (fun i hi => horder i (List.mem_cons_of_mem _ hi)) next (hlayout next hstep)

theorem execute_handled (hvalid : package.validate = .ok ()) (hcount : package.ops.length < 2 ^ 16)
    (hops : ∀ op ∈ package.ops, ∀ pad, package.LayoutOf pad → Handled (package.executeOp op pad))
    (timing : AiGraphSchedulerTiming) {pad : AiScratchpad} (hpad : package.LayoutOf pad) :
    ∃ result, package.execute timing pad = some result ∧ SchedulerHandled result := by
  obtain ⟨order, degree, hend, hexecute⟩ := execute_eq hvalid hcount timing pad
  have hrun := foldlM_executeIndex_handled timing hops
    (order_index hcount hend).2.2 (package.startRun pad) hpad
  rw [hexecute]
  cases hfold : order.foldlM (package.executeIndex timing) (package.startRun pad) with
  | error stop =>
    rw [hfold] at hrun
    exact ⟨_, rfl, hrun⟩
  | ok run =>
    refine ⟨_, rfl, fun stop h => ?_⟩
    unfold finishRun check at h
    split_ifs at h with hexecuted
    · cases h
    obtain rfl := Except.error.inj h
    exact ⟨_, _, _, rfl⟩

/-- What an accepted package is expected to keep to. -/
structure Safe (package : AiGraphPackage) : Prop where
  sizes : ∀ tensor ∈ package.tensors, tensor.exactByteSize < 2 ^ 32
  plans : ∀ entry ∈ package.memoryPlan, ∃ tensor,
    package.tensor? entry.tensorIndex = some tensor ∧ entry.byteSize.toNat = tensor.exactByteSize
  kernels : ∀ op ∈ package.ops, ∀ pad, package.LayoutOf pad → Handled (package.executeOp op pad)
  writes : ∀ op ∈ package.ops, ∀ pad next retiredOps,
    package.executeOp op pad = .ok (next, retiredOps) →
      AiScratchpad.Agree { a | a ∉ package.plannedBytes } next pad
  reads : ∀ op ∈ package.ops, ∀ pad other, AiScratchpad.Agree package.plannedBytes pad other →
    (∀ stop, package.executeOp op pad = .error stop → package.executeOp op other = .error stop) ∧
    ∀ next retiredOps, package.executeOp op pad = .ok (next, retiredOps) →
      ∃ next', package.executeOp op other = .ok (next', retiredOps) ∧
        AiScratchpad.Agree package.plannedBytes next next'
  scheduler : ∀ timing pad, package.LayoutOf pad →
    ∃ result, package.execute timing pad = some result ∧ SchedulerHandled result

/-- An accepted package is safe exactly when no size wraps and the operands of its operations
are allocated. -/
theorem accepted_safe_iff (hlaws : HostFloat.Lawful HostFloat.Nonnegative HostFloat.Positive)
    (h : package.Accepted) : package.Safe ↔ package.NoWrap ∧ package.OperandsAllocated := by
  obtain ⟨hvalid, hcount⟩ := h.valid
  obtain ⟨htensors, hops, -⟩ := validate_parts hvalid
  constructor
  · intro hsafe
    have hwrap : package.NoWrap := by
      intro tensor htensor
      have := hsafe.sizes tensor htensor
      omega
    refine ⟨hwrap, fun op hop plan hplan kernel hkernel => ?_⟩
    have hlayout : package.LayoutOf (.configure package.scratchpadBudgetBytes) := ⟨rfl, rfl⟩
    exact allocated_of_handled hlaws (exact_of_noWrap hvalid hwrap) hplan hkernel hlayout
      (hsafe.kernels op hop _ hlayout)
  · rintro ⟨hwrap, hallocated⟩
    have hexact := exact_of_noWrap hvalid hwrap
    have hkernels : ∀ op ∈ package.ops, ∀ pad, package.LayoutOf pad →
        Handled (package.executeOp op pad) := fun op hop pad hpad =>
      handled_executeOp hlaws hexact (hops op hop) hop hallocated hpad
    constructor
    · intro tensor htensor
      exact (exactByteSize_of_noWrap (htensors tensor htensor) (hwrap tensor htensor)).1
    · intro entry hentry
      exact entry_size hvalid hwrap hentry
    · exact hkernels
    · intro op _ pad next retiredOps hexec
      exact executeOp_frame hexec
    · intro op _ pad other hagree
      exact executeOp_congr hagree
    · intro timing pad hpad
      exact execute_handled hvalid hcount hkernels timing hpad

theorem operandsAllocated_of_budget (hexact : package.Exact)
    (hbudget : package.scratchpadBudgetBytes.toNat + 8192 < 2 ^ 32) :
    package.OperandsAllocated := by
  intro op _ plan hplan kernel hkernel
  have hlayout : package.LayoutOf (.configure package.scratchpadBudgetBytes) := ⟨rfl, rfl⟩
  have hcontained := hexact.contained_kernel (planOp_operands hplan) hkernel hlayout
  have htotal : (AiScratchpad.configure package.scratchpadBudgetBytes).totalBytes.toNat =
      package.scratchpadBudgetBytes.toNat + 8192 := by
    have haccumulator : kAiScratchpadDefaultAccumulatorBytes.toNat = 4096 := rfl
    have htemporary : kAiScratchpadDefaultTemporaryBytes.toNat = 4096 := rfl
    simp only [AiScratchpad.configure, BitVec.toNat_add, haccumulator, htemporary]
    omega
  have hbytes : (AiScratchpad.configure package.scratchpadBudgetBytes).scratchpadBytes =
      package.scratchpadBudgetBytes := rfl
  have hholds : ∀ entry : AiMemoryPlanEntry, entry.scratchpadOffset.toNat + entry.byteSize.toNat ≤
      package.scratchpadBudgetBytes.toNat →
      (AiScratchpad.configure package.scratchpadBudgetBytes).Holds entry := by
    intro entry hle
    simp only [AiScratchpad.Holds, AiScratchpad.allocated, htotal, Bool.or_eq_true,
      decide_eq_true_eq]
    omega
  exact ⟨hholds _ (hbytes ▸ hcontained.input0),
    fun entry hentry => hholds entry (hbytes ▸ hcontained.input1 entry hentry),
    hholds _ (hbytes ▸ hcontained.output)⟩

end

end AiGraphPackage

theorem HostFloat.silent_lawful : letI := silent
    HostFloat.Lawful HostFloat.Nonnegative HostFloat.Positive := by
  let _ := silent
  have hnan : isNan 0x7fc00000 := by decide
  exact ⟨.inr rfl, fun _ => .inl hnan, fun _ => .inl hnan, fun _ _ _ _ => .inl hnan,
    fun _ _ _ _ => .inl hnan, fun _ _ _ _ => .inl hnan⟩

theorem reluPackage_accepted : reluPackage.Accepted :=
  ⟨reluPackage.encoded, reluPackage, parse_serialize (by decide +kernel)
    (by decide), .inl rfl⟩

theorem reluPackage_safe :
    letI := silent
    reluPackage.Safe := by
  let _ := silent
  have hwrap : reluPackage.NoWrap := by
    unfold AiGraphPackage.NoWrap
    decide
  have hexact := exact_of_noWrap (by decide) hwrap
  exact (accepted_safe_iff silent_lawful reluPackage_accepted).2
    ⟨hwrap, operandsAllocated_of_budget hexact (by decide)⟩

/-- A transposition of a tensor of `2^62 + 1` elements, which are 4 bytes modulo `2^64`. -/
def wrappingTranspose : AiGraphPackage :=
  let rows : BitVec 32 := 2147418113
  let cols : BitVec 32 := 2147549185
  let tensor (role : AiTensorRole) (d₀ d₁ : BitVec 32) : AiTensorMetadata :=
    { dtype := .int32, role, rank := 2, dims := axes d₀ d₁ 0 0, tileDims := axes 1 1 0 0 }
  let plan (tensorIndex : BitVec 16) (offset : BitVec 32) : AiMemoryPlanEntry :=
    { tensorIndex, systemOffset := offset, scratchpadOffset := offset, byteSize := 4,
      scratchpadBytes := 4 }
  { shapeMode := .static
    trainingMode := .inference
    scratchpadBudgetBytes := 8
    tensors := [tensor .input rows cols, tensor .output cols rows]
    ops := [{
      opcode := .layoutTranspose, inputDtype := .int32, accumDtype := .int32, input0 := 0,
      input1 := kAiInvalidTensorIndex, input2 := kAiInvalidTensorIndex, output := 1,
      attrs := axes 0 0 0 0 }]
    dependencies := []
    memoryPlan := [plan 0 0, plan 1 4]
    dynamicTensors := [] }

theorem wrappingTranspose_unsafe : letI := silent
    wrappingTranspose.Accepted ∧ ¬wrappingTranspose.Safe ∧
      wrappingTranspose.executeOps [0] (.configure 8) =
        .error (.thrown "transpose input has unexpected element count") := by
  let _ := silent
  refine ⟨⟨wrappingTranspose.encoded, wrappingTranspose,
    parse_serialize (by decide +kernel) (by decide +kernel), .inl rfl⟩,
    fun hsafe => ?_, rfl⟩
  have hsizes := hsafe.sizes
  revert hsizes
  decide

end VisualCpu
