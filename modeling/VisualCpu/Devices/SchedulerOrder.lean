import VisualCpu.Devices.OpEffects

/-!
# The order of execution

For an accepted package whose operations succeed, the scheduler executes every operation
once and after the operations it depends on, or it reports a cycle. The scratchpad that it
leaves does not depend on the order among operations without a conflict.
-/

namespace VisualCpu

open List Checks Orders BitVec

namespace AiGraphPackage

variable {package : AiGraphPackage}

theorem validateMemoryPlan_planTable {planned : List (BitVec 16)} {entries : List AiMemoryPlanEntry}
    (h : package.validateMemoryPlan planned entries = .ok ()) :
    package.planTable planned entries = .ok () := by
  induction entries generalizing planned with
  | nil => rfl
  | cons entry rest ih =>
    unfold validateMemoryPlan at h
    cases htensor : package.tensor? entry.tensorIndex with
    | none =>
      rw [htensor] at h
      cases h
    | some tensor =>
      rw [htensor] at h
      simp only [seq_eq_ok, check_eq_ok] at h
      obtain ⟨hfresh, -, -, -, hrest⟩ := h
      have hlt : entry.tensorIndex.toNat < package.tensors.length := by
        obtain ⟨hlt, -⟩ := List.getElem?_eq_some_iff.1 htensor
        exact hlt
      simp only [planTable, seq_eq_ok, check_eq_ok]
      exact ⟨hlt, hfresh, ih hrest⟩

theorem validate_parts (h : package.validate = .ok ()) :
    (∀ tensor ∈ package.tensors, tensor.validate = .ok ()) ∧
    (∀ op ∈ package.ops, package.validateOp op = .ok ()) ∧
    (∀ edge ∈ package.dependencies, package.validateDependency edge = .ok ()) ∧
    package.validateMemoryPlan [] package.memoryPlan = .ok () ∧
    (∀ op ∈ package.ops, package.requireMemoryPlans op = .ok ()) := by
  unfold validate at h
  simp only [seq_eq_ok, check_eq_ok, checkAll_eq_ok] at h
  obtain ⟨-, -, -, -, -, -, htensors, hops, hedges, hplan, hrequired, -⟩ := h
  exact ⟨htensors, hops, hedges, hplan, hrequired⟩

theorem edge_in_range (h : package.validate = .ok ()) {edge : AiDependencyEdge}
    (hedge : edge ∈ package.dependencies) :
    edge.sourceOp.toNat < package.ops.length ∧ edge.targetOp.toNat < package.ops.length := by
  obtain ⟨-, -, hedges, -⟩ := validate_parts h
  have hvalid := hedges edge hedge
  unfold validateDependency at hvalid
  rw [check_eq_ok] at hvalid
  exact ⟨hvalid.1, hvalid.2.1⟩

theorem mem_opIndices (hcount : package.ops.length < 2 ^ 16) {index : BitVec 16} :
    index ∈ package.opIndices ↔ index.toNat < package.ops.length := by
  unfold opIndices
  rw [mem_map]
  constructor
  · rintro ⟨n, hn, rfl⟩
    rw [mem_range] at hn
    rw [toNat_ofNat, Nat.mod_eq_of_lt (by omega)]
    exact hn
  · intro hlt
    exact ⟨index.toNat, mem_range.2 hlt, by simp⟩

theorem opIndices_nodup (hcount : package.ops.length < 2 ^ 16) : package.opIndices.Nodup := by
  refine List.Nodup.map_on ?_ nodup_range
  intro m hm n hn heq
  rw [mem_range] at hm hn
  have htoNat := congrArg BitVec.toNat heq
  rw [BitVec.toNat_ofNat, BitVec.toNat_ofNat, Nat.mod_eq_of_lt (by omega),
    Nat.mod_eq_of_lt (by omega)] at htoNat
  exact htoNat

theorem edges_in_range (h : package.validate = .ok ()) (hcount : package.ops.length < 2 ^ 16) :
    ∀ e ∈ package.edges, e.1 ∈ package.opIndices ∧ e.2 ∈ package.opIndices := by
  intro e he
  obtain ⟨edge, hedge, rfl⟩ := mem_map.1 he
  obtain ⟨hsource, htarget⟩ := edge_in_range h hedge
  exact ⟨(mem_opIndices hcount).2 hsource, (mem_opIndices hcount).2 htarget⟩

theorem indegree_eq (index : BitVec 16) :
    package.indegree index = Kahn.openEdges package.edges [] index := by
  simp [indegree, Kahn.openEdges]

section

variable [HostFloat] {pad : AiScratchpad} {index : BitVec 16} {run : Run}

variable (package) in
/-- An operation without the sums. -/
def opAt (pad : AiScratchpad) (index : BitVec 16) : KernelRun AiScratchpad :=
  match package.ops[index.toNat]? with
  | none => .error .outOfBounds
  | some op => (package.executeOp op pad).map (·.1)

variable (package) in
def executeOps (order : List (BitVec 16)) (pad : AiScratchpad) : KernelRun AiScratchpad :=
  order.foldlM package.opAt pad

variable (package) in
/-- Every operation succeeds, in whatever order operations are executed, each at most once. -/
def OpsSucceed (pad : AiScratchpad) : Prop :=
  ∀ order : List (BitVec 16), order.Nodup → (∀ index ∈ order, index.toNat < package.ops.length) →
    ∃ next, package.executeOps order pad = .ok next

theorem executeIndex_of_opAt (timing : AiGraphSchedulerTiming)
    (h : package.opAt run.pad index = .ok pad) :
    ∃ next, package.executeIndex timing run index = .ok next ∧ next.pad = pad ∧
      next.executedOps = run.executedOps + 1 ∧
      next.result.opSummaries.map (·.opIndex) =
        run.result.opSummaries.map (·.opIndex) ++ [index] := by
  unfold opAt at h
  unfold executeIndex
  cases hop : package.ops[index.toNat]? with
  | none =>
    rw [hop] at h
    cases h
  | some op =>
    rw [hop] at h
    simp only at h ⊢
    cases hexec : package.executeOp op run.pad with
    | error stop =>
      rw [hexec] at h
      cases h
    | ok result =>
      rw [hexec] at h
      obtain rfl := Except.ok.inj h
      obtain ⟨next, retiredOps⟩ := result
      obtain ⟨plan, hplan, -⟩ := bind_eq_ok.1 hexec
      obtain ⟨output, houtput⟩ := (planOp_operands hplan).output
      simp only [houtput]
      exact ⟨_, rfl, rfl, rfl, by simp [record]⟩

variable {order : List (BitVec 16)} {timing : AiGraphSchedulerTiming}

theorem foldlM_executeIndex (timing : AiGraphSchedulerTiming) (run : Run)
    (h : package.executeOps order run.pad = .ok pad) :
    ∃ next, order.foldlM (package.executeIndex timing) run = .ok next ∧ next.pad = pad ∧
      next.executedOps = run.executedOps + order.length ∧
      next.result.opSummaries.map (·.opIndex) =
        run.result.opSummaries.map (·.opIndex) ++ order := by
  induction order generalizing run with
  | nil =>
    obtain rfl := Except.ok.inj h
    exact ⟨run, rfl, rfl, rfl, (append_nil _).symm⟩
  | cons index rest ih =>
    unfold executeOps at h
    rw [foldlM_cons, bind_eq_ok] at h
    obtain ⟨middle, hfirst, hrest⟩ := h
    obtain ⟨next, hnext, hpad, hcount, hlog⟩ := executeIndex_of_opAt timing hfirst
    rw [← hpad] at hrest
    obtain ⟨last, hlast, hlastPad, hlastCount, hlastLog⟩ := ih _ hrest
    refine ⟨last, ?_, hlastPad, ?_, ?_⟩
    · rw [foldlM_cons, hnext]
      exact hlast
    · rw [hlastCount, hcount, length_cons]
      omega
    · rw [hlastLog, hlog, List.append_assoc, singleton_append]

/-- The ranges of two operations meet and one of them is written. -/
def Conflict (package : AiGraphPackage) (op other : AiOpDescriptor) : Prop :=
  ∃ a, a ∈ package.opWrites op ∧ (a ∈ package.opReads other ∨ a ∈ package.opWrites other) ∨
    a ∈ package.opReads op ∧ a ∈ package.opWrites other

/-- Every two operations in conflict are connected by a path of dependencies. -/
def ConflictsConnected (package : AiGraphPackage) : Prop :=
  ∀ i j op other, package.ops[BitVec.toNat i]? = some op →
    package.ops[BitVec.toNat j]? = some other → i ≠ j → package.Conflict op other →
      Relation.TransGen (Kahn.Edge package.edges) i j ∨
        Relation.TransGen (Kahn.Edge package.edges) j i

def stepOp (package : AiGraphPackage) (state : Option AiScratchpad) (index : BitVec 16) :
    Option AiScratchpad :=
  state.bind fun pad => (package.opAt pad index).toOption

theorem opAt_eq_act {op : AiOpDescriptor}
    (hop : package.ops[index.toNat]? = some op) {plan : OpPlan}
    (hplan : package.planOp op = .ok plan)
    (pad : AiScratchpad) : package.opAt pad index = plan.act pad := by
  unfold opAt executeOp
  simp only [hop, hplan, bind, Except.bind]
  rw [plan.run_eq]
  cases plan.act pad <;> rfl

theorem stepOp_of_stop (h : ∀ pad, (package.opAt pad index).toOption = none)
    (state : Option AiScratchpad) : package.stepOp state index = none := by
  cases state with
  | none => rfl
  | some pad => exact h pad

/-- An operation whose checks fail does so on every scratchpad. -/
theorem opAt_stop_or_plan (index : BitVec 16) : (∀ pad, (package.opAt pad index).toOption = none) ∨
      ∃ op plan, package.ops[index.toNat]? = some op ∧ package.planOp op = .ok plan := by
  cases hop : package.ops[index.toNat]? with
  | none =>
    left
    intro pad
    simp [opAt, hop, Except.toOption]
  | some op =>
    cases hplan : package.planOp op with
    | error stop =>
      left
      intro pad
      simp [opAt, hop, executeOp, hplan, bind, Except.bind, Except.map, Except.toOption]
    | ok plan => exact .inr ⟨op, plan, rfl, hplan⟩

theorem stepOp_comm {i j : BitVec 16}
    (hconflict : ∀ op other, package.ops[i.toNat]? = some op → package.ops[j.toNat]? = some other →
      ¬package.Conflict op other) (state : Option AiScratchpad) :
    package.stepOp (package.stepOp state i) j = package.stepOp (package.stepOp state j) i := by
  rcases package.opAt_stop_or_plan i with hstop | ⟨op, plan, hop, hplan⟩
  · rw [stepOp_of_stop hstop, stepOp_of_stop hstop]
    rfl
  rcases package.opAt_stop_or_plan j with hstop | ⟨other, plan', hother, hplan'⟩
  · rw [stepOp_of_stop hstop, stepOp_of_stop hstop]
    rfl
  have hnone := hconflict op other hop hother
  have hoperands := planOp_operands hplan
  have hoperands' := planOp_operands hplan'
  cases state with
  | none => rfl
  | some pad =>
    have hcomm := plan.stores.comm plan'.stores
      (fun a ha ha' => hnone ⟨a, .inl ⟨hoperands.writes ha, .inr (hoperands'.writes ha')⟩⟩)
      (fun a ha ha' => hnone ⟨a, .inr ⟨hoperands.reads ha, hoperands'.writes ha'⟩⟩)
      (fun a ha ha' => hnone ⟨a, .inl ⟨hoperands.writes ha', .inl (hoperands'.reads ha)⟩⟩) pad
    simp only [stepOp, Option.bind_some, opAt_eq_act hop hplan, opAt_eq_act hother hplan']
    exact hcomm

theorem foldl_stepOp (order : List (BitVec 16)) (pad : AiScratchpad) :
    order.foldl package.stepOp (some pad) = (package.executeOps order pad).toOption := by
  have hnone : ∀ order : List (BitVec 16), order.foldl package.stepOp none = none := by
    intro order
    induction order with
    | nil => rfl
    | cons index rest ih => exact ih
  induction order generalizing pad with
  | nil => rfl
  | cons index rest ih =>
    unfold executeOps
    rw [foldl_cons, foldlM_cons]
    cases hop : package.opAt pad index with
    | error stop =>
      have hstep : package.stepOp (some pad) index = none := by simp [stepOp, hop, Except.toOption]
      rw [hstep, hnone]
      rfl
    | ok next =>
      have hstep : package.stepOp (some pad) index = some next := by
        simp [stepOp, hop, Except.toOption]
      rw [hstep, ih]
      rfl

theorem executeOps_eq_of_respects (hconnected : package.ConflictsConnected)
    {first second : List (BitVec 16)} (hperm : first.Perm second) (hnodup : first.Nodup)
    (hfirst : Respects (Kahn.Edge package.edges) first)
    (hsecond : Respects (Kahn.Edge package.edges) second) {pad next : AiScratchpad}
    (h : package.executeOps first pad = .ok next) : package.executeOps second pad = .ok next := by
  have heq : first.foldl package.stepOp (some pad) = second.foldl package.stepOp (some pad) := by
    refine foldl_eq_of_respects (fun _ _ (_ : True) => trivial) hperm hnodup hfirst
      hsecond ?_ trivial
    intro i _ j _ hne
    by_cases hconflict : ∃ op other, package.ops[i.toNat]? = some op ∧
        package.ops[j.toNat]? = some other ∧ package.Conflict op other
    · obtain ⟨op, other, hop, hother, hmeet⟩ := hconflict
      exact .inr (hconnected i j op other hop hother hne hmeet)
    left
    intro state _
    refine (stepOp_comm ?_ state).symm
    intro op other hop hother hmeet
    exact hconflict ⟨op, other, hop, hother, hmeet⟩
  rw [foldl_stepOp, foldl_stepOp, h] at heq
  cases hlast : package.executeOps second pad with
  | error stop =>
    rw [hlast] at heq
    cases heq
  | ok last =>
    rw [hlast] at heq
    rw [Option.some.inj heq]

variable (package) in
def queueOrder : List (BitVec 16) :=
  Kahn.order package.edges (package.ops.length + 1)
    (package.opIndices.filter fun op => package.indegree op = 0) package.indegree

section

variable (hvalid : package.validate = .ok ())

include hvalid

variable (hcount : package.ops.length < 2 ^ 16)

include hcount

theorem execute_eq_foldlM
 (timing : AiGraphSchedulerTiming) (pad : AiScratchpad) :
    (∃ degree, Kahn.Inv package.opIndices package.edges package.queueOrder [] degree) ∧
      package.execute timing pad =
        match package.queueOrder.foldlM (package.executeIndex timing) (package.startRun pad) with
        | .error stop => some (.error stop)
        | .ok run => some (package.finishRun run) := by
  obtain ⟨-, -, -, hplan, -⟩ := validate_parts hvalid
  have htable := validateMemoryPlan_planTable hplan
  have htargets : ∀ e ∈ package.edges, e.2 ∈ package.opIndices :=
    fun e he => (edges_in_range hvalid hcount e he).2
  have hstart := Kahn.inv_start package.edges (opIndices_nodup hcount)
  have hdegree : package.indegree = Kahn.openEdges package.edges [] := funext indegree_eq
  have hfuel : package.opIndices.length < package.ops.length + 1 +
    ([] : List (BitVec 16)).length := by
    simp [opIndices]
  have horder : package.queueOrder = Kahn.order package.edges (package.ops.length + 1)
      (package.opIndices.filter fun v => Kahn.openEdges package.edges [] v = 0)
      (Kahn.openEdges package.edges []) := by
    unfold queueOrder
    rw [hdegree]
  obtain ⟨degree, hend⟩ := hstart.order htargets hfuel
  have hloop := hstart.loop htargets (package.executeIndex timing) hfuel (package.startRun pad)
  constructor
  · rw [horder]
    exact ⟨degree, hend⟩
  unfold execute
  rw [htable]
  rw [if_pos fun edge hedge => edge_in_range hvalid hedge, if_pos hcount, hdegree, hloop, ← horder]
  cases package.queueOrder.foldlM (package.executeIndex timing) (package.startRun pad) <;> rfl

theorem execute_eq
    (timing : AiGraphSchedulerTiming) (pad : AiScratchpad) :
    ∃ order degree, Kahn.Inv package.opIndices package.edges order [] degree ∧
      package.execute timing pad =
        match order.foldlM (package.executeIndex timing) (package.startRun pad) with
        | .error stop => some (.error stop)
        | .ok run => some (package.finishRun run) := by
  obtain ⟨⟨degree, hend⟩, hexecute⟩ := execute_eq_foldlM hvalid hcount timing pad
  exact ⟨_, degree, hend, hexecute⟩

theorem execute_of_executeOps
 (hall : package.queueOrder.length = package.ops.length)
    (timing : AiGraphSchedulerTiming) {pad next : AiScratchpad}
    (h : package.executeOps package.queueOrder pad = .ok next) :
    ∃ run, package.execute timing pad = some (.ok run) ∧ run.pad = next := by
  obtain ⟨-, hexecute⟩ := execute_eq_foldlM hvalid hcount timing pad
  obtain ⟨run, hrun, hpad, hexecuted, -⟩ := foldlM_executeIndex timing (package.startRun pad) h
  have hcomplete : run.executedOps = package.ops.length := by
    rw [hexecuted, hall]
    exact Nat.zero_add _
  refine ⟨run, ?_, hpad⟩
  rw [hexecute, hrun]
  simp [finishRun, check, hcomplete, bind, Except.bind]

end

omit [HostFloat] in
theorem order_index (hcount : package.ops.length < 2 ^ 16)
    {degree : BitVec 16 → ℕ} (hend : Kahn.Inv package.opIndices package.edges order [] degree) :
    order.Nodup ∧ (∀ index ∈ order, index ∈ package.opIndices) ∧
      ∀ index ∈ order, index.toNat < package.ops.length := by
  have hsubset : ∀ index ∈ order, index ∈ package.opIndices :=
    fun index hindex => hend.subset index (by simpa using hindex)
  exact ⟨by simpa using hend.nodup, hsubset,
    fun index hindex => (mem_opIndices hcount).1 (hsubset index hindex)⟩

omit [HostFloat] in
theorem order_perm (hnodup : order.Nodup) (hsubset : ∀ index ∈ order, index ∈ package.opIndices)
    (hlength : order.length = package.ops.length) : order.Perm package.opIndices := by
  refine (subperm_of_subset hnodup hsubset).perm_of_length_le ?_
  rw [hlength]
  simp [opIndices]

theorem foldlM_executeIndex_log
    {run next : Run} (h : order.foldlM (package.executeIndex timing) run = .ok next) :
    next.executedOps = run.executedOps + order.length ∧
      next.result.opSummaries.map (·.opIndex) =
        run.result.opSummaries.map (·.opIndex) ++ order := by
  induction order generalizing run with
  | nil =>
    obtain rfl := Except.ok.inj h
    exact ⟨rfl, (append_nil _).symm⟩
  | cons index rest ih =>
    rw [foldlM_cons, bind_eq_ok] at h
    obtain ⟨middle, hfirst, hrest⟩ := h
    obtain ⟨hcount, hlog⟩ := ih hrest
    have hmiddle : middle.executedOps = run.executedOps + 1 ∧
        middle.result.opSummaries.map (·.opIndex) =
          run.result.opSummaries.map (·.opIndex) ++ [index] := by
      unfold executeIndex at hfirst
      split at hfirst
      · cases hfirst
      split at hfirst
      · cases hfirst
      split at hfirst
      · cases hfirst
      cases hfirst
      simp [record]
    rw [hcount, hlog, hmiddle.1, hmiddle.2, length_cons, List.append_assoc, singleton_append]
    exact ⟨by omega, rfl⟩

/-- A successful execution has executed every operation once. -/
theorem execute_eq_ok (hvalid : package.validate = .ok ()) (hcount : package.ops.length < 2 ^ 16)
    (h : package.execute timing pad = some (.ok run)) :
    (run.result.opSummaries.map (·.opIndex)).Perm package.opIndices := by
  obtain ⟨order, degree, hend, hexecute⟩ := execute_eq hvalid hcount timing pad
  obtain ⟨hnodup, hsubset, -⟩ := order_index hcount hend
  rw [hexecute] at h
  cases hrun : order.foldlM (package.executeIndex timing) (package.startRun pad) with
  | error stop =>
    rw [hrun] at h
    cases h
  | ok last =>
    rw [hrun] at h
    have hfinish := Option.some.inj h
    unfold finishRun at hfinish
    simp only [bind_eq_ok, check_eq_ok] at hfinish
    obtain ⟨-, hlength, hlast⟩ := hfinish
    obtain rfl := Except.ok.inj hlast
    obtain ⟨hexecuted, hlog⟩ := foldlM_executeIndex_log hrun
    have hcountAll : order.length = package.ops.length := by
      rw [← hlength, hexecuted]
      exact (Nat.zero_add _).symm
    rw [hlog]
    exact order_perm hnodup hsubset hcountAll

/-- The scheduler succeeds exactly when the dependencies have no cycle. It has then executed
every operation once and after its sources, and every other order with this property leaves
the same scratchpad if the conflicts are connected; otherwise it reports the cycle. -/
theorem execute_ordersOps (hvalid : package.validate = .ok ())
    (hcount : package.ops.length < 2 ^ 16) (timing : AiGraphSchedulerTiming) (pad : AiScratchpad)
    (hops : package.OpsSucceed pad) :
    (Kahn.Acyclic package.edges → ∃ run, package.execute timing pad = some (.ok run) ∧
      (run.result.opSummaries.map (·.opIndex)).Perm package.opIndices ∧
      Respects (Kahn.Edge package.edges) (run.result.opSummaries.map (·.opIndex)) ∧
      package.executeOps (run.result.opSummaries.map (·.opIndex)) pad = .ok run.pad ∧
      (package.ConflictsConnected → ∀ other : List (BitVec 16), other.Perm package.opIndices →
        Respects (Kahn.Edge package.edges) other → package.executeOps other pad = .ok run.pad)) ∧
    (¬Kahn.Acyclic package.edges →
      ∃ executed, package.execute timing pad = some (.error (cycleFault executed))) := by
  have hedges := edges_in_range hvalid hcount
  have hlength : package.opIndices.length = package.ops.length := by simp [opIndices]
  obtain ⟨order, degree, hend, hexecute⟩ := execute_eq hvalid hcount timing pad
  obtain ⟨hnodup, hsubset, hindex⟩ := order_index hcount hend
  obtain ⟨last, hlast⟩ := hops order hnodup hindex
  obtain ⟨run, hrun, hpad, hexecuted, hlog⟩ :=
    foldlM_executeIndex timing (package.startRun pad) hlast
  have hlog : run.result.opSummaries.map (·.opIndex) = order := by
    rw [hlog]
    rfl
  have hexecuted : run.executedOps = order.length := by
    rw [hexecuted]
    exact Nat.zero_add _
  rw [hrun] at hexecute
  have hexecute : package.execute timing pad = some (package.finishRun run) := hexecute
  have hcomplete := hend.complete hedges
  constructor
  · intro hacyclic
    have hall := hcomplete.2 hacyclic
    have hperm : order.Perm package.opIndices :=
      (perm_ext_iff_of_nodup hnodup (opIndices_nodup hcount)).2
        fun index => ⟨hsubset index, hall index⟩
    have hrespects : Respects (Kahn.Edge package.edges) order := fun a b hab =>
      hend.sorted (a, b) hab (hall b (hedges (a, b) hab).2)
    refine ⟨run, ?_, ?_, ?_, ?_, ?_⟩
    · rw [hexecute]
      unfold finishRun
      rw [hexecuted, hperm.length_eq, hlength]
      simp [check, bind, Except.bind]
    · rw [hlog]
      exact hperm
    · rw [hlog]
      exact hrespects
    · rw [hlog, hpad]
      exact hlast
    · intro hconnected other hother hrespects'
      rw [hpad]
      exact executeOps_eq_of_respects hconnected (hperm.trans hother.symm) hnodup hrespects
        hrespects' hlast
  · intro hcyclic
    have hlt : order.length ≠ package.ops.length := by
      intro heq
      exact hcyclic (hcomplete.1 fun v hv => (order_perm hnodup hsubset heq).mem_iff.2 hv)
    refine ⟨run.executedOps, ?_⟩
    rw [hexecute]
    unfold finishRun
    simp [check, hexecuted, hlt, bind, Except.bind]

end

end AiGraphPackage

@[reducible] def HostFloat.silent : HostFloat where
  add _ _ := 0x7fc00000
  sub _ _ := 0x7fc00000
  mul _ _ := 0x7fc00000
  div _ _ := 0x7fc00000
  lt _ _ := false
  exp _ := 0x7fc00000

/-- Two operations in a row on integers; the edge between them is given twice. -/
def reluChain : AiGraphPackage :=
  let tensor (role : AiTensorRole) : AiTensorMetadata :=
    { dtype := .int8, role, rank := 1, dims := axes 4 0 0 0, tileDims := axes 4 0 0 0 }
  let relu (input output : BitVec 16) : AiOpDescriptor :=
    { opcode := .eltwiseRelu, inputDtype := .int8, accumDtype := .int32, input0 := input,
      input1 := kAiInvalidTensorIndex, input2 := kAiInvalidTensorIndex, output,
      attrs := axes 0 0 0 0 }
  let plan (tensorIndex : BitVec 16) (offset : BitVec 32) : AiMemoryPlanEntry :=
    { tensorIndex, systemOffset := offset, scratchpadOffset := offset, byteSize := 4,
      scratchpadBytes := 4 }
  { shapeMode := .static
    trainingMode := .inference
    scratchpadBudgetBytes := 12
    tensors := [tensor .input, tensor .intermediate, tensor .output]
    ops := [relu 0 1, relu 1 2]
    dependencies := [⟨0, 1⟩, ⟨0, 1⟩]
    memoryPlan := [plan 0 0, plan 1 4, plan 2 8]
    dynamicTensors := [] }

theorem reluChain_order {order : List (BitVec 16)} (hnodup : order.Nodup)
    (hrange : ∀ index ∈ order, index.toNat < reluChain.ops.length) :
    order ∈ [[], [0], [1], [0, 1], [1, 0]] := by
  have hindex : ∀ index ∈ order, index ∈ [(0 : BitVec 16), 1] := by
    intro index hin
    have hlt : index.toNat < 2 := hrange index hin
    have hcases : index.toNat = 0 ∨ index.toNat = 1 := by omega
    rcases hcases with h | h
    · simp [eq_of_toNat_eq (y := 0) h]
    · simp [eq_of_toNat_eq (y := 1) h]
  have hlength : order.length ≤ 2 := (subperm_of_subset hnodup hindex).length_le
  match order, hlength with
  | [], _ => simp
  | [i], _ =>
    have hi := hindex i (by simp)
    simp only [mem_cons, not_mem_nil, or_false] at hi
    rcases hi with rfl | rfl <;> simp
  | [i, j], _ =>
    have hi := hindex i (by simp)
    have hj := hindex j (by simp)
    simp only [mem_cons, not_mem_nil, or_false] at hi hj
    rcases hi with rfl | rfl <;> rcases hj with rfl | rfl <;> simp at hnodup ⊢

theorem reluChain_opsSucceed :
    letI := HostFloat.silent
    reluChain.OpsSucceed (.configure 12) := by
  let _ := HostFloat.silent
  intro order hnodup hrange
  have hall : ∀ order ∈ [[], [0], [1], [0, 1], [(1 : BitVec 16), 0]],
      (reluChain.executeOps order (.configure 12)).isOk := by decide
  have hok := hall order (reluChain_order hnodup hrange)
  cases h : reluChain.executeOps order (.configure 12) with
  | error stop =>
    rw [h] at hok
    cases hok
  | ok next => exact ⟨next, rfl⟩

theorem reluChain_acyclic : Kahn.Acyclic reluChain.edges := by
  have hpath : ∀ {a b}, Relation.TransGen (Kahn.Edge reluChain.edges) a b → a = 0 ∧ b = 1 := by
    intro a b h
    have hedge : ∀ {a b}, Kahn.Edge reluChain.edges a b → a = 0 ∧ b = 1 := by
      intro a b hab
      have hin : (a, b) ∈ [((0 : BitVec 16), (1 : BitVec 16)), (0, 1)] := hab
      simpa using hin
    induction h with
    | single hab => exact hedge hab
    | tail _ hbc ih => exact ⟨ih.1, (hedge hbc).2⟩
  intro a hcycle
  obtain ⟨rfl, h⟩ := hpath hcycle
  exact absurd h (by decide)

theorem reluChain_ordersOps :
    letI := HostFloat.silent
    ∃ run, reluChain.execute ⟨1, 1⟩ (.configure 12) = some (.ok run) ∧
      (run.result.opSummaries.map (·.opIndex)).Perm reluChain.opIndices := by
  let _ := HostFloat.silent
  obtain ⟨run, hrun, hperm, -⟩ := (AiGraphPackage.execute_ordersOps (by decide) (by decide)
    ⟨1, 1⟩ (.configure 12) reluChain_opsSucceed).1 reluChain_acyclic
  exact ⟨run, hrun, hperm⟩

end VisualCpu
