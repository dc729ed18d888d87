import VisualCpu.Devices.Accelerator
import VisualCpu.Devices.SchedulerOrder

/-!
# What a successful completion stands for

The invariant of a submission between its acceptance and its completion: its loads are done
in the order of the plan, then its operations, then its stores. A completion without a fault
is written after all of them.
-/

namespace VisualCpu

open List Checks Loops Orders Option AiScratchpad

namespace AiActiveSubmissionState

variable (active : AiActiveSubmissionState)

def started : AiActiveSubmissionState :=
  { active with
    nextLoadIndex := 0, nextStoreIndex := 0, computeStarted := false, computeComplete := false
    computeCyclesRemaining := 0, stallCyclesRemaining := 0, retiredOps := 0, bytesMoved := 0 }

def Requests (kind : AiDmaTransferKind) (entries : List AiMemoryPlanEntry)
    (requests : List AiDmaRequest) : Prop :=
  entries.map (AiAccelerator.requestOf active kind) = requests.map some

/-- The transfers of a submission are those of its plan. -/
structure FromPlan : Prop where
  accepted : active.package.Accepted
  loads : active.loadEntries = active.package.memoryPlan.filter fun entry =>
    (active.package.tensor? entry.tensorIndex).any fun tensor =>
      tensor.role ≠ .intermediate ∧ tensor.role ≠ .output
  stores : active.storeEntries = active.package.memoryPlan.filter fun entry =>
    (active.package.tensor? entry.tensorIndex).any fun tensor => tensor.role = .output

variable {active}

theorem Requests.snoc {kind : AiDmaTransferKind} {entries : List AiMemoryPlanEntry} {n : ℕ}
    {requests : List AiDmaRequest} (h : active.Requests kind (entries.take n) requests)
    {entry : AiMemoryPlanEntry} (hentry : entries[n]? = some entry) {request : AiDmaRequest}
    (hrequest : AiAccelerator.requestOf active kind entry = some request) :
    active.Requests kind (entries.take (n + 1)) (requests ++ [request]) := by
  have hlt : n < entries.length := (List.getElem?_eq_some_iff.1 hentry).1
  have helem : entries[n] = entry := (List.getElem?_eq_some_iff.1 hentry).2
  unfold Requests at h ⊢
  rw [take_succ_eq_append_getElem hlt, helem, map_append, h, map_append]
  simp [hrequest]

end AiActiveSubmissionState

def loadAll (ram : Ram) (requests : List AiDmaRequest) (pad : AiScratchpad) : AiScratchpad :=
  requests.foldl (fun pad request =>
    pad.store request.scratchpadOffset.toNat (ram.bytes request.systemAddr request.size.toNat)) pad

def storeAll (pad : AiScratchpad) (requests : List AiDmaRequest) (ram : Ram) : Ram :=
  requests.foldl (fun ram request =>
    ram.storeBytes request.systemAddr
      (pad.slice request.scratchpadOffset.toNat request.size.toNat)) ram

theorem loadAll_snoc (ram : Ram) (requests : List AiDmaRequest) (request : AiDmaRequest)
    (pad : AiScratchpad) :
    loadAll ram (requests ++ [request]) pad =
      (loadAll ram requests pad).store request.scratchpadOffset.toNat
        (ram.bytes request.systemAddr request.size.toNat) := by
  simp [loadAll]

theorem storeAll_snoc (pad : AiScratchpad) (requests : List AiDmaRequest) (request : AiDmaRequest)
    (ram : Ram) :
    storeAll pad (requests ++ [request]) ram =
      (storeAll pad requests ram).storeBytes request.systemAddr
        (pad.slice request.scratchpadOffset.toNat request.size.toNat) := by
  simp [storeAll]

theorem requestOf_fields {active : AiActiveSubmissionState} {kind : AiDmaTransferKind}
    {entry : AiMemoryPlanEntry} {request : AiDmaRequest}
    (h : AiAccelerator.requestOf active kind entry = some request) :
    request.kind = kind ∧ request.scratchpadOffset = entry.scratchpadOffset ∧
      request.size = entry.scratchpadBytes := by
  obtain ⟨addr, -, rfl⟩ := map_eq_some_iff.1 h
  exact ⟨rfl, rfl, rfl⟩

/-- Nothing is waited for after the computation. -/
def AiGraphPackage.Run.idle (run : AiGraphPackage.Run) : Prop :=
  run.result.computeCycles = 0 ∧ run.result.stallCycles = 0

/-- The events of a submission from its descriptor to its last store, the newest first. -/
def submissionEvents (active : AiActiveSubmissionState) (ram : Ram)
    (loads stores : List AiDmaRequest)
    (run : AiGraphPackage.Run) : List AiEvent :=
  (stores.map .transferred).reverse ++
    .computed (loadAll ram loads (.configure active.package.scratchpadBudgetBytes)) run ::
    ((loads.map .transferred).reverse ++
      [.accepted active.started ram, .read active.descriptor ram])

/-- A submission was carried out before the rest of the log. -/
structure Carried [HostFloat] (timing : AiAcceleratorTiming) (active : AiActiveSubmissionState)
    (ram₀ ram : Ram)
    (loads stores : List AiDmaRequest) (run : AiGraphPackage.Run) : Prop where
  plan : active.FromPlan
  loaded : active.Requests .load active.loadEntries loads
  executed : active.package.execute timing.scheduler.normalized
    (loadAll ram₀ loads (.configure active.package.scratchpadBudgetBytes)) = some (.ok run)
  stored : ¬run.idle → active.Requests .store active.storeEntries stores ∧
    ram = storeAll run.pad stores ram₀

/-- Every completion without a fault in a log ends a submission that was carried out. -/
def History [HostFloat] (timing : AiAcceleratorTiming) (log : List AiEvent) : Prop :=
  ∀ after token ram written rest, log = after ++ .completed token .none ram written :: rest →
    ∃ active ram₀ loads stores run past, Carried timing active ram₀ ram loads stores run ∧
      token = active.descriptor.token ∧ rest = submissionEvents active ram₀ loads stores run ++ past

section

variable [HostFloat] {timing : AiAcceleratorTiming} {log : List AiEvent}

theorem History.cons (h : History timing log) {event : AiEvent}
    (hevent : ∀ token ram written, event ≠ .completed token .none ram written) :
    History timing (event :: log) := by
  intro after token ram written rest hlog
  cases after with
  | nil => exact absurd (List.cons.inj hlog).1 (hevent token ram written)
  | cons first after => exact h after token ram written rest (List.cons.inj hlog).2

theorem History.completed (h : History timing log)
    {active : AiActiveSubmissionState} {ram₀ ram : Ram} {loads stores : List AiDmaRequest}
    {run : AiGraphPackage.Run} {past : List AiEvent}
    (hlog : log = submissionEvents active ram₀ loads stores run ++ past)
    (hcarried : Carried timing active ram₀ ram loads stores run) (written : Ram) :
    History timing (.completed active.descriptor.token .none ram written :: log) := by
  intro after token ram' written' rest heq
  cases after with
  | nil =>
    obtain ⟨hevent, rfl⟩ := List.cons.inj heq
    cases hevent
    exact ⟨active, ram₀, loads, stores, run, past, hcarried, rfl, hlog⟩
  | cons first after => exact h after token ram' written' rest (List.cons.inj heq).2

namespace AiAccelerator

variable {device device' : AiAccelerator} {active : AiActiveSubmissionState}
  {descriptor : AiSubmissionDescriptor}

/-- The phases of a submission: its loads, then its stores. -/
inductive Phase (timing : AiAcceleratorTiming) (device : AiAccelerator)
    (active : AiActiveSubmissionState) : Prop where
  | loading (ram₀ : Ram) (loads : List AiDmaRequest) (past : List AiEvent)
      (hloads : active.Requests .load (active.loadEntries.take active.nextLoadIndex) loads)
      (hstart : active.computeStarted = false) (hstore : active.nextStoreIndex = 0)
      (hlog : device.log = (loads.map .transferred).reverse ++
        [.accepted active.started ram₀, .read active.descriptor ram₀] ++ past)
      (hram : device.ram = ram₀)
      (hpad : device.pad = loadAll ram₀ loads (.configure active.package.scratchpadBudgetBytes))
      (hdma : ∀ transfer, device.dma = some transfer → ∃ entry,
        active.loadEntries[active.nextLoadIndex]? = some entry ∧
        requestOf active .load entry = some transfer.request)
  | storing (ram₀ : Ram) (loads stores : List AiDmaRequest) (run : AiGraphPackage.Run)
      (past : List AiEvent)
      (hloads : active.Requests .load active.loadEntries loads)
      (hload : active.loadEntries.length ≤ active.nextLoadIndex)
      (hstart : active.computeStarted)
      (hrun : active.package.execute timing.scheduler.normalized
        (loadAll ram₀ loads (.configure active.package.scratchpadBudgetBytes)) = some (.ok run))
      (hstores : active.Requests .store (active.storeEntries.take active.nextStoreIndex) stores)
      (hlog : device.log = submissionEvents active ram₀ loads stores run ++ past)
      (hram : device.ram = storeAll run.pad stores ram₀) (hpad : device.pad = run.pad)
      (hdma : ∀ transfer, device.dma = some transfer → active.computeComplete ∧ ∃ entry,
        active.storeEntries[active.nextStoreIndex]? = some entry ∧
        requestOf active .store entry = some transfer.request ∧
        transfer.buffer =
          run.pad.slice transfer.request.scratchpadOffset.toNat transfer.request.size.toNat)

/-- What holds of the device in every run. -/
structure Inv (timing : AiAcceleratorTiming) (device : AiAccelerator) : Prop where
  history : History timing device.log
  idle : device.active = none → device.dma = none
  serving : ∀ active, device.active = some active → active.FromPlan ∧ device.Phase timing active

theorem Phase.congr (hphase : device.Phase timing active) (hlog : device'.log = device.log)
    (hram : device'.ram = device.ram) (hpad : device'.pad = device.pad)
    (hdma : device'.dma = device.dma) : device'.Phase timing active := by
  cases hphase with
  | loading ram₀ loads past hloads hstart hstore hlog' hram' hpad' htransfer =>
    exact .loading ram₀ loads past hloads hstart hstore (hlog.trans hlog') (hram.trans hram')
      (hpad.trans hpad') (hdma ▸ htransfer)
  | storing ram₀ loads stores run past hloads hload hstart hrun hstores hlog' hram' hpad'
    htransfer =>
    exact .storing ram₀ loads stores run past hloads hload hstart hrun hstores (hlog.trans hlog')
      (hram.trans hram') (hpad.trans hpad') (hdma ▸ htransfer)

theorem Inv.congr (h : Inv timing device) (hlog : device'.log = device.log)
    (hram : device'.ram = device.ram) (hpad : device'.pad = device.pad)
    (hdma : device'.dma = device.dma) (hactive : device'.active = device.active) :
    Inv timing device' := by
  refine ⟨hlog ▸ h.history, fun hnone => hdma.trans (h.idle (hactive ▸ hnone)), fun active hsome =>
    ?_⟩
  obtain ⟨hplan, hphase⟩ := h.serving active (hactive ▸ hsome)
  exact ⟨hplan, hphase.congr hlog hram hpad hdma⟩

omit [HostFloat] in
theorem completeDescriptor_spec (device : AiAccelerator) (descriptor : AiSubmissionDescriptor)
    (fault : AiAccelFault) (detail : BitVec 32) (bytesMoved retiredOps : BitVec 64) :
    (device.completeDescriptor descriptor fault detail bytesMoved retiredOps).2.dma = device.dma ∧
    (device.completeDescriptor descriptor fault detail bytesMoved retiredOps).2.active =
      device.active ∧
    ((device.completeDescriptor descriptor fault detail bytesMoved retiredOps).2.log = device.log ∨
      (device.completeDescriptor descriptor fault detail bytesMoved retiredOps).2.log =
        .completed descriptor.token fault device.ram (device.completeDescriptor descriptor fault
          detail bytesMoved retiredOps).2.ram :: device.log) := by
  unfold completeDescriptor
  by_cases hspace : device.queue.completionHasSpace = false
  · rw [if_pos hspace]
    exact ⟨rfl, rfl, .inl rfl⟩
  rw [if_neg hspace]
  dsimp only
  cases device.queue.writeNextCompletion device.ram _ with
  | none => exact ⟨rfl, rfl, .inl rfl⟩
  | some ram =>
    split_ifs with hfault
    · exact ⟨rfl, rfl, .inr rfl⟩
    · exact ⟨rfl, rfl, .inr rfl⟩

theorem completeDescriptor_history (h : History timing device.log)
    {fault : AiAccelFault} (hfault : fault ≠ .none)
    (detail : BitVec 32) (bytesMoved retiredOps : BitVec 64) :
    History timing
      (device.completeDescriptor descriptor fault detail bytesMoved retiredOps).2.log := by
  obtain ⟨-, -, hlog | hlog⟩ :=
    completeDescriptor_spec device descriptor fault detail bytesMoved retiredOps
  · rw [hlog]
    exact h
  rw [hlog]
  exact h.cons fun token ram written heq => hfault (by cases heq; rfl)

theorem inv_cleared (hhistory : History timing device.log) (hdma : device.dma = none) :
    Inv timing { device with active := none } :=
  ⟨hhistory, fun _ => hdma, fun _ h => (by cases h)⟩

variable {transfer : AiDmaTransfer}

omit [HostFloat] in
theorem finish_done {pad pad' : AiScratchpad} {ram ram' : Ram}
    (h : AiDmaEngine.finish pad ram transfer = .ok (.done pad' ram')) :
    (transfer.request.kind = .load ∧ ram' = ram ∧
      pad' = pad.store transfer.request.scratchpadOffset.toNat
        (ram.bytes transfer.request.systemAddr transfer.request.size.toNat)) ∨
    (transfer.request.kind = .store ∧ pad' = pad ∧
      ram' = ram.storeBytes transfer.request.systemAddr transfer.buffer) := by
  unfold AiDmaEngine.finish at h
  dsimp only at h
  cases hkind : transfer.request.kind with
  | load =>
    left
    rw [hkind] at h
    cases hload : ram.dmaLoadBytes transfer.request.systemAddr transfer.request.size.toNat with
    | none =>
      rw [hload] at h
      cases h
    | some bytes =>
      rw [hload] at h
      unfold Ram.dmaLoadBytes at hload
      split_ifs at hload
      obtain rfl := some.inj hload
      dsimp only at h
      unfold write at h
      split_ifs at h <;> cases h
      exact ⟨rfl, rfl, rfl⟩
  | store =>
    right
    rw [hkind] at h
    cases hstore : ram.dmaStoreBytes transfer.request.systemAddr transfer.buffer with
    | none =>
      rw [hstore] at h
      cases h
    | some next =>
      rw [hstore] at h
      unfold Ram.dmaStoreBytes at hstore
      split_ifs at hstore
      obtain rfl := some.inj hstore
      cases h
      exact ⟨rfl, rfl, rfl⟩

variable {pad : AiScratchpad} {ticked : Ticked}

omit [HostFloat] in
theorem tick_cases {ram : Ram}
    {tick : AiDmaEngine.Tick} (h : AiDmaEngine.tick pad ram transfer = .ok tick) :
    (∃ next, tick = .waiting next ∧ next.request = transfer.request ∧
      next.buffer = transfer.buffer) ∨ (∃ detail, tick = .faulted detail) ∨
    ∃ pad' ram', tick = .done pad' ram' ∧
      AiDmaEngine.finish pad ram transfer = .ok (.done pad' ram') := by
  unfold AiDmaEngine.tick at h
  by_cases hwaiting : (if transfer.remainingCycles = 0 then 0 else transfer.remainingCycles - 1) = 0
  · rw [if_neg (not_not.2 hwaiting)] at h
    cases tick with
    | waiting next =>
      unfold AiDmaEngine.finish at h
      dsimp only at h
      split at h
      all_goals split at h
      all_goals try cases h
      split at h
      all_goals cases h
    | faulted detail => exact .inr (.inl ⟨detail, rfl⟩)
    | done pad' ram' => exact .inr (.inr ⟨pad', ram', rfl, h⟩)
  · rw [if_pos hwaiting] at h
    cases h
    exact .inl ⟨_, rfl, rfl, rfl⟩

/-- The progress of a submission by a finished transfer. -/
def transferred (active : AiActiveSubmissionState) (request : AiDmaRequest) :
    AiActiveSubmissionState :=
  let active := { active with bytesMoved := active.bytesMoved + request.size.setWidth 64 }
  match request.kind with
  | .load => { active with nextLoadIndex := active.nextLoadIndex + 1 }
  | .store => { active with nextStoreIndex := active.nextStoreIndex + 1 }

theorem Phase.transferred (hphase : device.Phase timing active)
    (hdma : device.dma = some transfer) {ram : Ram}
    (h : AiDmaEngine.finish device.pad device.ram transfer = .ok (.done pad ram)) :
    Phase timing
      { device with
        pad, ram, active := some (AiAccelerator.transferred active transfer.request), dma := none
        log := .transferred transfer.request :: device.log }
      (AiAccelerator.transferred active transfer.request) := by
  cases hphase with
  | loading ram₀ loads past hloads hstart hstore hlog hram hpad htransfer =>
    obtain ⟨entry, hentry, hrequest⟩ := htransfer transfer hdma
    have hkind : transfer.request.kind = .load := (requestOf_fields hrequest).1
    rcases finish_done h with ⟨-, rfl, rfl⟩ | ⟨hother, -⟩
    swap
    · rw [hkind] at hother
      cases hother
    unfold AiAccelerator.transferred
    rw [hkind]
    refine .loading ram₀ (loads ++ [transfer.request]) past (hloads.snoc hentry hrequest) hstart
      hstore ?_ hram ?_ fun _ hnone => (by cases hnone)
    · simp only [hlog, map_append, List.reverse_append]
      rfl
    · rw [loadAll_snoc, hram, hpad]
  | storing ram₀ loads stores run past hloads hload hstart hrun hstores hlog hram hpad htransfer =>
    obtain ⟨-, entry, hentry, hrequest, hbuffer⟩ := htransfer transfer hdma
    have hkind : transfer.request.kind = .store := (requestOf_fields hrequest).1
    rcases finish_done h with ⟨hother, -⟩ | ⟨-, rfl, rfl⟩
    · rw [hkind] at hother
      cases hother
    unfold AiAccelerator.transferred
    rw [hkind]
    refine .storing ram₀ loads (stores ++ [transfer.request]) run past hloads hload hstart hrun
      (hstores.snoc hentry hrequest) ?_ ?_ hpad fun _ hnone => (by cases hnone)
    · simp only [hlog, submissionEvents, map_append, List.reverse_append]
      rfl
    · rw [storeAll_snoc, hram, hbuffer]

theorem Phase.waiting (hphase : device.Phase timing active)
    (hdma : device.dma = some transfer) {next : AiDmaTransfer}
    (hrequest : next.request = transfer.request) (hbuffer : next.buffer = transfer.buffer) :
    Phase timing { device with dma := some next } active := by
  cases hphase with
  | loading ram₀ loads past hloads hstart hstore hlog hram hpad htransfer =>
    refine .loading ram₀ loads past hloads hstart hstore hlog hram hpad fun other hother => ?_
    obtain rfl := some.inj hother
    rw [hrequest]
    exact htransfer transfer hdma
  | storing ram₀ loads stores run past hloads hload hstart hrun hstores hlog hram hpad htransfer =>
    refine .storing ram₀ loads stores run past hloads hload hstart hrun hstores hlog hram hpad
      fun other hother => ?_
    obtain rfl := some.inj hother
    rw [hrequest, hbuffer]
    exact htransfer transfer hdma

theorem tickDma_inv (h : Inv timing device) (hstep : device.tickDma = .ok (ticked, device')) :
    Inv timing device' ∧ (ticked = .goesOn → device'.dma = none) := by
  unfold tickDma at hstep
  cases hdma : device.dma with
  | none =>
    rw [hdma] at hstep
    cases hstep
    exact ⟨h, fun _ => hdma⟩
  | some transfer =>
    rw [hdma] at hstep
    dsimp only at hstep
    obtain ⟨active, hactive⟩ : ∃ active, device.active = some active := by
      cases hactive : device.active with
      | none =>
        rw [h.idle hactive] at hdma
        cases hdma
      | some active => exact ⟨active, rfl⟩
    obtain ⟨hplan, hphase⟩ := h.serving active hactive
    cases htick : AiDmaEngine.tick device.pad device.ram transfer with
    | error stop =>
      rw [htick] at hstep
      cases stop <;> cases hstep
    | ok tick =>
      rw [htick] at hstep
      rcases tick_cases htick with ⟨next, rfl, hrequest, hbuffer⟩ | ⟨detail, rfl⟩ |
        ⟨pad, ram, rfl, hfinish⟩
      · cases hstep
        refine ⟨⟨h.history, fun hnone => ?_, fun other hother => ?_⟩, fun hgoes => (by cases hgoes)⟩
        · rw [hactive] at hnone
          cases hnone
        rw [hactive] at hother
        obtain rfl := some.inj hother
        exact ⟨hplan, hphase.waiting hdma hrequest hbuffer⟩
      · cases hstep
        have hcleared : History timing ({ device with dma := none } : AiAccelerator).log :=
          h.history
        refine ⟨inv_cleared (completeDescriptor_history hcleared (by decide) _ _ _) ?_, ?_⟩
        · rw [(completeDescriptor_spec _ _ _ _ _ _).1]
        intro hgoes
        split_ifs at hgoes
      · rw [hactive] at hstep
        cases hstep
        refine ⟨⟨h.history.cons fun token ram written heq => (by cases heq),
          fun hnone => (by cases hnone),
          fun other hother => ?_⟩, fun _ => rfl⟩
        obtain rfl := some.inj hother
        refine ⟨?_, hphase.transferred hdma hfinish⟩
        cases transfer.request.kind with
        | load => exact ⟨hplan.accepted, hplan.loads, hplan.stores⟩
        | store => exact ⟨hplan.accepted, hplan.loads, hplan.stores⟩

/-- The countdown changes the counters of a computation only. -/
theorem Phase.countDown (hphase : device.Phase timing active) (hdma : device.dma = none) :
    Phase timing { device with active := some (countDown active).2 } (countDown active).2 := by
  cases hphase with
  | loading ram₀ loads past hloads hstart hstore hlog hram hpad htransfer =>
    have hsame : (AiAccelerator.countDown active).2 = active := by
      unfold AiAccelerator.countDown
      rw [hstart]
      rfl
    rw [hsame]
    exact .loading ram₀ loads past hloads hstart hstore hlog hram hpad htransfer
  | storing ram₀ loads stores run past hloads hload hstart hrun hstores hlog hram hpad htransfer =>
    have hfree : ∀ {P : AiDmaTransfer → Prop}, ∀ transfer, device.dma = some transfer →
      P transfer := by
      intro P transfer hsome
      rw [hdma] at hsome
      cases hsome
    unfold AiAccelerator.countDown
    dsimp only
    split_ifs <;>
      exact .storing ram₀ loads stores run past hloads hload hstart hrun hstores hlog hram hpad
        hfree

omit [HostFloat] in
theorem fromPlan_countDown (hplan : active.FromPlan) : (countDown active).2.FromPlan := by
  unfold countDown
  dsimp only
  split_ifs <;> exact ⟨hplan.accepted, hplan.loads, hplan.stores⟩

omit [HostFloat] in
theorem start_eq_ok {config : AiDmaTimingConfig} {busy : Option AiDmaTransfer}
    {request : AiDmaRequest} (h : AiDmaEngine.start config pad busy request = .ok transfer) :
    transfer.request = request ∧ (request.kind = .store →
      transfer.buffer = pad.slice request.scratchpadOffset.toNat request.size.toNat) := by
  unfold AiDmaEngine.start at h
  split_ifs at h
  cases hkind : request.kind with
  | load =>
    rw [hkind] at h
    cases h
    exact ⟨rfl, fun hstore => (by cases hstore)⟩
  | store =>
    rw [hkind] at h
    unfold AiScratchpad.read at h
    split_ifs at h
    cases h
    exact ⟨rfl, fun _ => rfl⟩

/-- The submission of the device is carried out. -/
def Done (timing : AiAcceleratorTiming) (device : AiAccelerator) : Prop :=
  ∃ active ram₀ loads stores run past, device.active = some active ∧
    device.log = submissionEvents active ram₀ loads stores run ++ past ∧
    Carried timing active ram₀ device.ram loads stores run

/-- What holds after `start_next_transfer` has said how it goes on. -/
structure Proceeds (timing : AiAcceleratorTiming) (progress : Progress) (device : AiAccelerator) :
    Prop where
  inv : Inv timing device
  active : device.active ≠ none
  ends : ∀ fault detail, progress = .ends fault detail →
    device.dma = none ∧ (fault = .none → Done timing device)

variable {progress : Progress} {entry : AiMemoryPlanEntry} {kind : AiDmaTransferKind}

theorem startTransfer_proceeds (h : Inv timing device) (hactive : device.active = some active)
    (hdma : device.dma = none)
    (hnext : ∀ transfer, requestOf active kind entry = some transfer.request →
      (kind = .store → transfer.buffer =
        device.pad.slice transfer.request.scratchpadOffset.toNat transfer.request.size.toNat) →
      Phase timing { device with dma := some transfer } active)
    (hstep : device.startTransfer timing active kind entry = .ok (progress, device'))
    (hfault : ∀ detail, progress ≠ .ends .none detail) : Proceeds timing progress device' := by
  have hsome : device.active ≠ none := by
    rw [hactive]
    exact some_ne_none active
  have hsame : ∀ {fault detail}, progress = .ends fault detail → device' = device →
      Proceeds timing progress device' := by
    rintro fault detail rfl rfl
    refine ⟨h, hsome, fun fault' detail' heq => ⟨hdma, fun hnone => ?_⟩⟩
    exact absurd (hnone ▸ heq) (hfault detail')
  unfold startTransfer at hstep
  cases hrequest : requestOf active kind entry with
  | none =>
    rw [hrequest] at hstep
    cases hstep
    exact hsame rfl rfl
  | some request =>
    rw [hrequest] at hstep
    dsimp only at hstep
    cases hstart : AiDmaEngine.start timing.dma.normalized device.pad device.dma request with
    | error stop =>
      rw [hstart] at hstep
      cases stop with
      | fault code error =>
        cases hstep
        exact hsame rfl rfl
      | thrown what => cases hstep
      | outOfBounds => cases hstep
    | ok transfer =>
      rw [hstart] at hstep
      cases hstep
      obtain ⟨hsameRequest, hbuffer⟩ := start_eq_ok hstart
      have hkind : request.kind = kind := (requestOf_fields hrequest).1
      have hphase := hnext transfer (hsameRequest ▸ hrequest) fun hstore => by
        rw [hsameRequest]
        exact hbuffer (hkind.trans hstore)
      refine ⟨⟨h.history, fun hnone => absurd hnone hsome, fun other hother => ?_⟩, hsome,
        fun _ _ heq => (by cases heq)⟩
      have hother' : device.active = some other := hother
      rw [hactive] at hother'
      obtain rfl := some.inj hother'
      exact ⟨(h.serving active hactive).1, hphase⟩

omit [HostFloat] in
theorem startTransfer_fault
    {detail : BitVec 32} (hdma : device.dma = none) :
    device.startTransfer timing active kind entry ≠ .ok (.ends .none detail, device') := by
  intro hstep
  unfold startTransfer at hstep
  cases hrequest : requestOf active kind entry with
  | none =>
    rw [hrequest] at hstep
    cases hstep
  | some request =>
    rw [hrequest, hdma] at hstep
    unfold AiDmaEngine.start AiScratchpad.read at hstep
    dsimp only at hstep
    by_cases hzero : request.size = 0
    · rw [if_neg (by simp), if_pos hzero] at hstep
      cases hstep
    rw [if_neg (by simp), if_neg hzero] at hstep
    by_cases hout : device.pad.contains request.scratchpadOffset request.size.toNat = false
    · rw [if_pos hout] at hstep
      cases hstep
    rw [if_neg hout] at hstep
    cases hkind : request.kind with
    | load =>
      rw [hkind] at hstep
      cases hstep
    | store =>
      rw [hkind] at hstep
      split_ifs at hstep <;> cases hstep

theorem startCompute_proceeds (h : Inv timing device) (hactive : device.active = some active)
    (hdma : device.dma = none) (hloaded : active.loadEntries.length ≤ active.nextLoadIndex)
    (hstart : active.computeStarted = false)
    (hstep : device.startCompute timing active = .ok (progress, device')) :
    Proceeds timing progress device' := by
  obtain ⟨hplan, hphase⟩ := h.serving active hactive
  cases hphase with
  | storing ram₀ loads stores run past hloads hload hstarted =>
    rw [hstart] at hstarted
    cases hstarted
  | loading ram₀ loads past hloads _ hstore hlog hram hpad _ =>
    rw [take_of_length_le hloaded] at hloads
    have hsome : device.active ≠ none := by
      rw [hactive]
      exact some_ne_none active
    unfold startCompute at hstep
    cases hexecute : active.package.execute timing.scheduler.normalized device.pad with
    | none =>
      rw [hexecute] at hstep
      cases hstep
    | some result =>
      rw [hexecute] at hstep
      cases result with
      | error stop =>
        cases stop with
        | fault code detail error =>
          cases hstep
          refine ⟨h, hsome, fun fault detail' heq => ⟨hdma, fun hnone => ?_⟩⟩
          obtain ⟨hcode, -⟩ := Progress.ends.inj heq
          rw [hnone] at hcode
          split_ifs at hcode with hnocode
          exact absurd hcode hnocode
        | thrown what => cases hstep
        | outOfBounds => cases hstep
      | ok run =>
        cases hstep
        have hpadEq := hpad
        rw [hpad] at hexecute
        have hlog' : (.computed device.pad run :: device.log : List AiEvent) =
            submissionEvents active ram₀ loads [] run ++ past := by
          rw [hlog, hpad]
          simp [submissionEvents]
        refine ⟨⟨h.history.cons fun token ram written heq => (by cases heq),
          fun hnone => (by cases hnone),
          fun other hother => ?_⟩, fun hnone => (by cases hnone), fun fault detail heq =>
            ⟨hdma, fun hnone => ?_⟩⟩
        · obtain rfl := some.inj hother
          refine ⟨⟨hplan.accepted, hplan.loads, hplan.stores⟩, ?_⟩
          refine .storing ram₀ loads [] run past hloads hloaded rfl hexecute ?_ hlog' hram rfl ?_
          · simp [hstore, AiActiveSubmissionState.Requests]
          intro transfer hsome'
          rw [show _ = device.dma from rfl, hdma] at hsome'
          cases hsome'
        · by_cases hidle : run.result.computeCycles = 0 ∧ run.result.stallCycles = 0
          · refine ⟨_, ram₀, loads, [], run, past, rfl, hlog',
              ⟨⟨hplan.accepted, hplan.loads, hplan.stores⟩, hloads, hexecute, fun hbusy => ?_⟩⟩
            exact absurd hidle hbusy
          · rw [if_neg hidle] at heq
            cases heq

theorem startNextTransfer_proceeds (h : Inv timing device) (hactive : device.active = some active)
    (hdma : device.dma = none)
    (hstep : device.startNextTransfer timing active = .ok (progress, device')) :
    Proceeds timing progress device' := by
  obtain ⟨hplan, hphase⟩ := h.serving active hactive
  have hsome : device.active ≠ none := by
    rw [hactive]
    exact some_ne_none active
  unfold startNextTransfer at hstep
  cases hload : active.loadEntries[active.nextLoadIndex]? with
  | some entry =>
    rw [hload] at hstep
    refine startTransfer_proceeds h hactive hdma (fun transfer hrequest _ => ?_) hstep
      fun detail heq => startTransfer_fault hdma (heq ▸ hstep)
    cases hphase with
    | loading ram₀ loads past hloads hstart hstore hlog hram hpad _ =>
      refine .loading ram₀ loads past hloads hstart hstore hlog hram hpad fun other hother => ?_
      obtain rfl := some.inj hother
      exact ⟨entry, hload, hrequest⟩
    | storing ram₀ loads stores run past hloads hloaded =>
      have hlt := (List.getElem?_eq_some_iff.1 hload).1
      omega
  | none =>
    rw [hload] at hstep
    have hloaded := List.getElem?_eq_none_iff.1 hload
    by_cases hstart : active.computeStarted = false
    · rw [if_pos hstart] at hstep
      exact startCompute_proceeds h hactive hdma hloaded hstart hstep
    rw [if_neg hstart] at hstep
    by_cases hcomplete : active.computeComplete = false
    · rw [if_pos hcomplete] at hstep
      cases hstep
      exact ⟨h, hsome, fun _ _ heq => (by cases heq)⟩
    rw [if_neg hcomplete] at hstep
    cases hphase with
    | loading ram₀ loads past hloads hnot => exact absurd hnot hstart
    | storing ram₀ loads stores run past hloads _ hstarted hrun hstores hlog hram hpad _ =>
      cases hstore : active.storeEntries[active.nextStoreIndex]? with
      | some entry =>
        rw [hstore] at hstep
        refine startTransfer_proceeds h hactive hdma (fun transfer hrequest hbuffer => ?_) hstep
          fun detail heq => startTransfer_fault hdma (heq ▸ hstep)
        refine .storing ram₀ loads stores run past hloads hloaded hstarted hrun hstores hlog hram
          hpad
          fun other hother => ?_
        obtain rfl := some.inj hother
        exact ⟨by simpa using hcomplete, entry, hstore, hrequest, hpad ▸ hbuffer rfl⟩
      | none =>
        rw [hstore] at hstep
        cases hstep
        rw [take_of_length_le (List.getElem?_eq_none_iff.1 hstore)] at hstores
        exact ⟨h, hsome, fun _ _ _ => ⟨hdma, fun _ => ⟨active, ram₀, loads, stores, run, past,
          hactive, hlog, ⟨hplan, hloads, hrun, fun _ => ⟨hstores, hram⟩⟩⟩⟩⟩

theorem serveActive_inv (h : Inv timing device) (hactive : device.active = some active)
    (hdma : device.dma = none)
    (hstep : device.serveActive timing active = .ok (ticked, device')) : Inv timing device' := by
  obtain ⟨hplan, hphase⟩ := h.serving active hactive
  have hcounted : Inv timing { device with active := some (countDown active).2 } := by
    refine ⟨h.history, fun hnone => (by cases hnone), fun other hother => ?_⟩
    obtain rfl := some.inj hother
    exact ⟨fromPlan_countDown hplan, hphase.countDown hdma⟩
  unfold serveActive at hstep
  rcases hcount : countDown active with ⟨waits, active'⟩
  rw [hcount] at hstep hcounted
  cases waits with
  | true =>
    cases hstep
    exact hcounted
  | false =>
    dsimp only at hstep
    cases hnext : startNextTransfer { device with active := some active' } timing active' with
    | error crash =>
      rw [hnext] at hstep
      cases hstep
    | ok result =>
      obtain ⟨progress, next⟩ := result
      rw [hnext] at hstep
      obtain ⟨hinv, hsome, hends⟩ := startNextTransfer_proceeds hcounted rfl hdma hnext
      cases progress with
      | goesOn =>
        cases hstep
        exact hinv
      | ends fault detail =>
        obtain ⟨hidle, hdone⟩ := hends fault detail rfl
        cases hstep
        refine inv_cleared ?_ ((completeDescriptor_spec _ _ _ _ _ _).1.trans hidle)
        by_cases hfault : fault = .none
        · subst hfault
          obtain ⟨served, ram₀, loads, stores, run, past, hserved, hlog, hcarried⟩ := hdone rfl
          rw [hserved]
          obtain ⟨-, -, hsame | hcompleted⟩ := completeDescriptor_spec next
            ((some served).getD active').descriptor .none detail
              ((some served).getD active').bytesMoved
            ((some served).getD active').retiredOps
          · rw [hsame]
            exact hinv.history
          rw [hcompleted]
          exact hinv.history.completed hlog hcarried _
        · exact completeDescriptor_history hinv.history hfault _ _ _

omit [HostFloat] in
theorem preparePackage_accepted {package : AiGraphPackage}
    (h : device.preparePackage descriptor = .ok package) : package.Accepted := by
  unfold preparePackage at h
  split at h
  · cases h
  next bytes hbytes =>
    split at h
    · cases h
    · cases h
    next parsed hparse =>
      split at h
      · split_ifs at h
        cases h
        exact ⟨bytes, _, hparse, .inl rfl⟩
      · unfold resolveShapes at h
        simp only [bind_eq_ok] at h
        obtain ⟨_, -, _, -, _, -, _, -, h⟩ := h
        split at h
        · cases h
        split at h
        · cases h
        split at h
        · cases h
        next shapes hshapes =>
          split at h
          · cases h
          next resolved hresolved =>
            cases h
            exact ⟨bytes, parsed, hparse, .inr ⟨shapes, hresolved⟩⟩
      · cases h

/-- A refusal names a fault. -/
def Refuses {α : Type} (x : Prepared α) : Prop := ∀ refusal, x = .error refusal → refusal.1 ≠ .none

section Refuses

variable {α β : Type} {fault : AiAccelFault} {detail : BitVec 32}

omit [HostFloat] in
theorem refuses_ok (a : α) : Refuses (.ok a) := fun _ h => (by cases h)

omit [HostFloat] in
theorem refuses_error (h : fault ≠ .none) : Refuses (.error (fault, detail) : Prepared α) := by
  intro refusal heq
  cases heq
  exact h

omit [HostFloat] in
theorem refuses_check {condition : Prop} [Decidable condition]
    (h : fault ≠ .none) : Refuses (check condition (fault, detail)) := by
  unfold check
  split_ifs
  · exact refuses_ok _
  · exact refuses_error h

omit [HostFloat] in
theorem Refuses.bind {x : Prepared α} {f : α → Prepared β} (hx : Refuses x)
    (hf : ∀ a, Refuses (f a)) : Refuses (x >>= f) := by
  cases hrun : x with
  | error refusal =>
    intro refusal' h
    cases h
    exact hx refusal hrun
  | ok a => exact hf a

end Refuses

omit [HostFloat] in
theorem graphPackageFault_ne (error : String) : graphPackageFault error ≠ .none := by
  unfold graphPackageFault
  split_ifs <;> decide

omit [HostFloat] in
theorem refuses_preparePackage (descriptor : AiSubmissionDescriptor) :
    Refuses (device.preparePackage descriptor) := by
  unfold preparePackage
  cases device.ram.dmaLoadBytes descriptor.graphPackageAddr descriptor.graphPackageBytes.toNat with
  | none => exact refuses_error (by decide)
  | some bytes =>
    dsimp only
    cases parseAiGraphPackage bytes with
    | error failure =>
      cases failure with
      | refused error => exact refuses_error (graphPackageFault_ne error)
      | outside => exact refuses_error (by decide)
    | ok package =>
      dsimp only
      cases package.shapeMode with
      | static =>
        split_ifs
        · exact refuses_ok _
        · exact refuses_error (by decide)
      | other code h => exact refuses_error (by decide)
      | dynamicBounded =>
        have hfault : AiAccelFault.invalidDescriptor ≠ .none := by decide
        refine (refuses_check hfault).bind fun _ => (refuses_check hfault).bind fun _ =>
          (refuses_check hfault).bind fun _ => (refuses_check hfault).bind fun _ => ?_
        cases addU64U32 descriptor.graphPackageAddr descriptor.runtimeShapeTableOffset with
        | none => exact refuses_error hfault
        | some addr =>
          dsimp only
          cases device.ram.dmaLoadBytes addr _ with
          | none => exact refuses_error (by decide)
          | some table =>
            dsimp only
            cases parseAiRuntimeShapeTable table package.dynamicTensors.length with
            | error failure => exact refuses_error hfault
            | ok shapes =>
              dsimp only
              cases package.resolveRuntimeShapes shapes with
              | error error => exact refuses_error (graphPackageFault_ne error)
              | ok resolved => exact refuses_ok _

omit [HostFloat] in
theorem refuses_resolveTensorBase (descriptor : AiSubmissionDescriptor) (role : AiTensorRole)
    (index : BitVec 16) : Refuses (device.resolveTensorBase descriptor role index) := by
  have hfault : AiAccelFault.invalidDescriptor ≠ .none := by decide
  refine (refuses_check hfault).bind fun _ => ?_
  cases addU64U32 _ _ with
  | none => exact refuses_error hfault
  | some addr =>
    dsimp only
    cases device.ram.dmaLoad addr 8 with
    | none => exact refuses_error (by decide)
    | some base => exact (refuses_check hfault).bind fun _ => refuses_ok _

omit [HostFloat] in
theorem refuses_resolveEntries (entries : List AiMemoryPlanEntry) (next : AiActiveSubmissionState) :
    Refuses (device.resolveEntries entries next) := by
  induction entries generalizing next with
  | nil => exact refuses_ok _
  | cons entry rest ih =>
    unfold resolveEntries
    cases next.package.tensor? entry.tensorIndex with
    | none => exact ih next
    | some tensor =>
      dsimp only
      split_ifs
      · exact ih next
      all_goals
        cases hbase : device.resolveTensorBase next.descriptor tensor.role entry.tensorIndex with
        | error refusal =>
          intro refusal' heq
          cases heq
          exact refuses_resolveTensorBase _ _ _ refusal hbase
        | ok base => exact ih _

omit [HostFloat] in
theorem resolveEntries_eq_ok {entries : List AiMemoryPlanEntry}
    {next last : AiActiveSubmissionState} (h : device.resolveEntries entries next = .ok last) :
    last.descriptor = next.descriptor ∧ last.package = next.package ∧
    last.loadEntries = next.loadEntries ++ entries.filter (fun entry =>
      (next.package.tensor? entry.tensorIndex).any fun tensor =>
        tensor.role ≠ .intermediate ∧ tensor.role ≠ .output) ∧
    last.storeEntries = next.storeEntries ++ entries.filter (fun entry =>
      (next.package.tensor? entry.tensorIndex).any fun tensor => tensor.role = .output) ∧
    (next.started = next → last.started = last) := by
  induction entries generalizing next with
  | nil =>
    cases h
    simp
  | cons entry rest ih =>
    unfold resolveEntries at h
    cases htensor : next.package.tensor? entry.tensorIndex with
    | none =>
      rw [htensor] at h
      obtain ⟨hdescriptor, hpackage, hloads, hstores, hstarted⟩ := ih h
      refine ⟨hdescriptor, hpackage, ?_, ?_, hstarted⟩
      · rw [hloads, filter_cons_of_neg (by simp [htensor])]
      · rw [hstores, filter_cons_of_neg (by simp [htensor])]
    | some tensor =>
      rw [htensor] at h
      dsimp only at h
      by_cases hintermediate : tensor.role = .intermediate
      · rw [if_pos hintermediate] at h
        obtain ⟨hdescriptor, hpackage, hloads, hstores, hstarted⟩ := ih h
        refine ⟨hdescriptor, hpackage, ?_, ?_, hstarted⟩
        · rw [hloads, filter_cons_of_neg (by simp [htensor, hintermediate])]
        · rw [hstores, filter_cons_of_neg (by simp [htensor, hintermediate])]
      rw [if_neg hintermediate] at h
      cases hbase : device.resolveTensorBase next.descriptor tensor.role entry.tensorIndex with
      | error fault =>
        rw [hbase] at h
        cases h
      | ok base =>
        rw [hbase] at h
        dsimp only at h
        by_cases houtput : tensor.role = .output
        · rw [if_pos houtput] at h
          obtain ⟨hdescriptor, hpackage, hloads, hstores, hstarted⟩ := ih h
          refine ⟨hdescriptor, hpackage, ?_, ?_, fun hfresh => hstarted ?_⟩
          · rw [hloads, filter_cons_of_neg (by simp [htensor, houtput])]
          · rw [hstores, filter_cons_of_pos (by simp [htensor, houtput])]
            simp
          · rw [← hfresh]
            rfl
        · rw [if_neg houtput] at h
          obtain ⟨hdescriptor, hpackage, hloads, hstores, hstarted⟩ := ih h
          refine ⟨hdescriptor, hpackage, ?_, ?_, fun hfresh => hstarted ?_⟩
          · rw [hloads, filter_cons_of_pos (by simp [htensor, hintermediate, houtput])]
            simp
          · rw [hstores, filter_cons_of_neg (by simp [htensor, houtput])]
          · rw [← hfresh]
            rfl

section

variable (h : Inv timing device)

include h

theorem beginSubmission_inv (hactive : device.active = none) :
    Inv timing device.beginSubmission.2 ∧ device.beginSubmission.2.dma = none := by
  have hdma := h.idle hactive
  have hkeep : ∀ {next : AiAccelerator}, History timing next.log → next.dma = none →
      next.active = none → Inv timing next ∧ next.dma = none := by
    intro next hhistory hidle hnone
    refine ⟨⟨hhistory, fun _ => hidle, fun other hother => ?_⟩, hidle⟩
    rw [hnone] at hother
    cases hother
  have hcomplete : ∀ {next : AiAccelerator} {descriptor : AiSubmissionDescriptor}
      {fault : AiAccelFault} {detail : BitVec 32}, History timing next.log → next.dma = none →
      next.active = none → fault ≠ .none →
      Inv timing (next.completeDescriptor descriptor fault detail 0 0).2 ∧
        (next.completeDescriptor descriptor fault detail 0 0).2.dma = none := by
    intro next descriptor fault detail hhistory hidle hnone hfault
    obtain ⟨hsameDma, hsameActive, -⟩ := completeDescriptor_spec next descriptor fault detail 0 0
    exact hkeep (completeDescriptor_history hhistory hfault _ _ _) (hsameDma.trans hidle)
      (hsameActive.trans hnone)
  unfold beginSubmission
  by_cases hbudget : device.pendingSubmissionBudget = 0
  · rw [if_pos hbudget]
    exact hkeep h.history hdma hactive
  rw [if_neg hbudget]
  by_cases hspace : device.queue.completionHasSpace = false
  · rw [if_pos hspace]
    exact hkeep h.history hdma hactive
  rw [if_neg hspace]
  dsimp only
  cases hread : device.queue.readNextSubmission device.ram with
  | none => exact hcomplete h.history hdma hactive (by decide)
  | some descriptor =>
    dsimp only
    have hhistory : History timing (.read descriptor device.ram :: device.log) :=
      h.history.cons fun token ram written heq => (by cases heq)
    by_cases hvalid : validateDescriptor descriptor = .none
    swap
    · rw [if_pos hvalid]
      exact hcomplete hhistory hdma hactive hvalid
    rw [if_neg (not_not.2 hvalid)]
    unfold prepareActiveSubmission
    cases hpackage : preparePackage _ descriptor with
    | error refusal =>
      exact hcomplete hhistory hdma hactive (refuses_preparePackage descriptor refusal hpackage)
    | ok package =>
      dsimp only
      cases hentries : resolveEntries _ package.memoryPlan (freshSubmission descriptor package) with
      | error refusal =>
        exact hcomplete hhistory hdma hactive (refuses_resolveEntries _ _ refusal hentries)
      | ok next =>
        obtain ⟨hdescriptor, hsame, hloads, hstores, hstarted⟩ := resolveEntries_eq_ok hentries
        have hfresh : next.started = next := hstarted rfl
        refine ⟨⟨hhistory.cons fun token ram written heq => (by cases heq),
          fun hnone => (by cases hnone),
          fun other hother => ?_⟩, hdma⟩
        obtain rfl := some.inj hother
        have hpackageEq : next.package = package := hsame
        refine ⟨⟨hpackageEq ▸ preparePackage_accepted hpackage, ?_, ?_⟩, ?_⟩
        · rw [hloads, hpackageEq]
          rfl
        · rw [hstores, hpackageEq]
          rfl
        have hindex : next.nextLoadIndex = 0 := by rw [← hfresh]; rfl
        refine .loading device.ram [] device.log ?_ (by rw [← hfresh]; rfl)
          (by rw [← hfresh]; rfl) ?_ rfl ?_ fun transfer hsome => ?_
        · simp [hindex, AiActiveSubmissionState.Requests]
        · rw [hfresh, show next.descriptor = descriptor from hdescriptor]
          rfl
        · rw [hpackageEq]
          rfl
        · rw [show _ = device.dma from rfl, hdma] at hsome
          cases hsome

end

/-- A property that the stages of a round keep, the later ones with no transfer under way. -/
structure RoundInvariant (timing : AiAcceleratorTiming) (I : AiAccelerator → Prop) : Prop where
  tick {device device' : AiAccelerator} {ticked : Ticked} (h : I device)
    (hstep : device.tickDma = .ok (ticked, device')) :
    I device' ∧ (ticked = .goesOn → device'.dma = none)
  serve {device device' : AiAccelerator} {active : AiActiveSubmissionState} {ticked : Ticked}
    (h : I device) (hactive : device.active = some active) (hdma : device.dma = none)
    (hstep : device.serveActive timing active = .ok (ticked, device')) : I device'
  submission {device : AiAccelerator} (h : I device) (hactive : device.active = none)
    (hdepth : device.queue.pendingDepth ≠ 0) :
    I device.beginSubmission.2 ∧ device.beginSubmission.2.dma = none
  congr {device device' : AiAccelerator} (h : I device) (hqueue : device'.queue = device.queue)
    (hlog : device'.log = device.log) (hram : device'.ram = device.ram)
    (hpad : device'.pad = device.pad) (hdma : device'.dma = device.dma)
    (hactive : device'.active = device.active) : I device'

namespace RoundInvariant

variable {I : AiAccelerator → Prop} (hround : RoundInvariant timing I)

include hround

theorem pumpRound (h : I device) {ticked : Ticked}
    (hstep : device.pumpRound timing = .ok (ticked, device')) : I device' := by
  unfold AiAccelerator.pumpRound at hstep
  cases htick : device.tickDma with
  | error crash =>
    rw [htick] at hstep
    cases hstep
  | ok result =>
    obtain ⟨first, next⟩ := result
    rw [htick] at hstep
    obtain ⟨hinv, hidle⟩ := hround.tick h htick
    cases first with
    | waits =>
      cases hstep
      exact hinv
    | again =>
      cases hstep
      exact hinv
    | goesOn =>
      dsimp only at hstep
      cases hactive : next.active with
      | some active =>
        rw [hactive] at hstep
        exact hround.serve hinv hactive (hidle rfl) hstep
      | none =>
        rw [hactive] at hstep
        by_cases hbudget : next.pendingSubmissionBudget = 0
        · rw [if_pos hbudget] at hstep
          cases hstep
          exact hinv
        rw [if_neg hbudget] at hstep
        by_cases hdepth : next.queue.pendingDepth = 0
        · rw [if_pos hdepth] at hstep
          cases hstep
          exact hround.congr hinv rfl rfl rfl rfl rfl hactive.symm
        rw [if_neg hdepth] at hstep
        obtain ⟨hbegun, hdma⟩ := hround.submission hinv hactive hdepth
        rcases hbegin : next.beginSubmission with ⟨began, last⟩
        rw [hbegin] at hstep hbegun hdma
        cases began with
        | false =>
          cases hstep
          exact hbegun
        | true =>
          dsimp only at hstep
          cases hserved : last.active with
          | none =>
            rw [hserved] at hstep
            cases hstep
            exact hbegun
          | some active =>
            rw [hserved] at hstep
            exact hround.serve hbegun hserved hdma hstep

theorem pumpRounds {rounds : ℕ} (h : I device)
    (hstep : pumpRounds timing rounds device = .ok device') : I device' := by
  induction rounds generalizing device with
  | zero => cases hstep
  | succ rounds ih =>
    unfold AiAccelerator.pumpRounds at hstep
    cases hnext : device.pumpRound timing with
    | error crash =>
      rw [hnext] at hstep
      cases hstep
    | ok result =>
      obtain ⟨ticked, next⟩ := result
      rw [hnext] at hstep
      have hkept := hround.pumpRound h hnext
      cases ticked with
      | waits =>
        cases hstep
        exact hkept
      | goesOn => exact ih hkept hstep
      | again => exact ih hkept hstep

theorem ringDoorbell (h : I device) {budget : BitVec 32}
    (hstep : device.ringDoorbell timing budget = .ok device') : I device' := by
  unfold AiAccelerator.ringDoorbell at hstep
  dsimp only at hstep
  by_cases hconfigured : device.queue.configured = false
  · rw [if_pos hconfigured] at hstep
    cases hstep
    exact hround.congr h rfl rfl rfl rfl rfl rfl
  rw [if_neg hconfigured] at hstep
  generalize (if (if budget = 0 then device.queue.pendingDepth else budget) ≤
      device.queue.pendingDepth then if budget = 0 then device.queue.pendingDepth else budget
    else device.queue.pendingDepth) = count at hstep
  by_cases hcount : count = 0
  · rw [if_pos hcount] at hstep
    cases hstep
    exact h
  · rw [if_neg hcount] at hstep
    refine hround.pumpRounds ?_ hstep
    exact hround.congr h rfl rfl rfl rfl rfl rfl

end RoundInvariant

theorem roundInvariant_inv : RoundInvariant timing (Inv timing) where
  tick h hstep := tickDma_inv h hstep
  serve h hactive hdma hstep := serveActive_inv h hactive hdma hstep
  submission h hactive _ := beginSubmission_inv h hactive
  congr h _ hlog hram hpad hdma hactive := h.congr hlog hram hpad hdma hactive

/-- The steps of the device and its guest. The guest changes memory between submissions. -/
inductive Step (timing : AiAcceleratorTiming) : AiAccelerator → AiAccelerator → Prop where
  | tick {device next : AiAccelerator} (h : device.pumpQueue timing = .ok next) :
    Step timing device next
  | doorbell {device next : AiAccelerator} (budget : BitVec 32)
      (h : device.ringDoorbell timing budget = .ok next) : Step timing device next
  | pointers (device : AiAccelerator) (submissionTail completionHead : BitVec 32) :
    Step timing device
      { device with queue := { device.queue with submissionTail, completionHead } }
  | memory (device : AiAccelerator) (ram : Ram) (h : device.active = none) :
    Step timing device { device with ram }

theorem Step.inv (hstep : Step timing device device') (h : Inv timing device) :
    Inv timing device' := by
  cases hstep with
  | tick hpump => exact roundInvariant_inv.pumpRounds h hpump
  | doorbell budget hring => exact roundInvariant_inv.ringDoorbell h hring
  | pointers submissionTail completionHead => exact h.congr rfl rfl rfl rfl rfl
  | memory ram hidle =>
    refine ⟨h.history, h.idle, fun active hactive => ?_⟩
    have hnone : device.active = some active := hactive
    rw [hidle] at hnone
    cases hnone

theorem run_inv (hrun : Relation.ReflTransGen (Step timing) device device')
    (h : Inv timing device) : Inv timing device' := by
  induction hrun with
  | refl => exact h
  | tail _ hstep ih => exact hstep.inv ih

end AiAccelerator

/-- An address is in the range of a request. -/
def AiDmaRequest.covers (request : AiDmaRequest) (a : BitVec 64) : Prop :=
  (a - request.systemAddr).toNat < request.size.toNat

variable {request : AiDmaRequest} {pad : AiScratchpad}

variable {a : BitVec 64} {ram : Ram}

omit [HostFloat] in
theorem storeBytes_of_covers (h : request.covers a) : ram.storeBytes request.systemAddr
        (pad.slice request.scratchpadOffset.toNat request.size.toNat) a =
      pad.bytes (request.scratchpadOffset.toNat + (a - request.systemAddr).toNat) := by
  have hlt : (a - request.systemAddr).toNat <
      (pad.slice request.scratchpadOffset.toNat request.size.toNat).length := by
    rw [length_slice]
    exact h
  unfold Ram.storeBytes
  rw [List.getElem?_eq_getElem hlt, getD_some]
  simp only [slice, getElem_map, getElem_range]

omit [HostFloat] in
theorem storeBytes_of_not_covers (h : ¬request.covers a) :
    ram.storeBytes request.systemAddr
        (pad.slice request.scratchpadOffset.toNat request.size.toNat) a = ram a := by
  have hge : (pad.slice request.scratchpadOffset.toNat request.size.toNat).length ≤
      (a - request.systemAddr).toNat := by
    rw [length_slice]
    exact Nat.le_of_not_lt h
  unfold Ram.storeBytes
  rw [List.getElem?_eq_none hge, getD_none]

omit [HostFloat] in
theorem storeAll_apply {stores before later : List AiDmaRequest}
    (hstores : stores = before ++ request :: later)
    (hcovers : request.covers a) (hlater : ∀ other ∈ later, ¬other.covers a) :
    storeAll pad stores ram a =
      pad.bytes (request.scratchpadOffset.toNat + (a - request.systemAddr).toNat) := by
  subst hstores
  induction later using reverseRecOn with
  | nil =>
    rw [storeAll_snoc]
    exact storeBytes_of_covers hcovers
  | append_singleton later last ih =>
    have hsplit : before ++ request :: (later ++ [last]) =
      (before ++ request :: later) ++ [last] := by
      simp
    rw [hsplit, storeAll_snoc, storeBytes_of_not_covers (hlater last (by simp))]
    exact ih fun other hother => hlater other (mem_append_left _ hother)

namespace AiAccelerator

variable (timing) (device : AiAccelerator)

/-- There is room for a completion in memory that devices can reach. -/
def CanComplete : Prop :=
  device.queue.completionHasSpace ∧
    Ram.dmaVisible device.queue.completionRecordAddr kAiCompletionEntryBytes

/-- A fault of a transfer, of the start of a step or of a descriptor completes its submission
with a fault. -/
structure ReportsFaults : Prop where
  dma : ∀ transfer active detail, device.dma = some transfer → device.active = some active →
    AiDmaEngine.tick device.pad device.ram transfer = .ok (.faulted detail) →
    ∃ ticked next, device.tickDma = .ok (ticked, next) ∧
      next.log = .completed active.descriptor.token .dma device.ram next.ram :: device.log
  step : ∀ active fault detail next, fault ≠ .none → (countDown active).1 = false →
    startNextTransfer { device with active := some (countDown active).2 } timing
      (countDown active).2 = .ok (.ends fault detail, next) →
    ∃ ticked next, device.serveActive timing active = .ok (ticked, next) ∧
      next.log = .completed active.descriptor.token fault device.ram next.ram :: device.log
  descriptor : ∀ descriptor, device.pendingSubmissionBudget ≠ 0 →
    device.queue.readNextSubmission device.ram = some descriptor →
    device.beginSubmission.1 = false →
    ∃ fault ≠ .none, device.beginSubmission.2.log =
      .completed descriptor.token fault device.ram device.beginSubmission.2.ram ::
        .read descriptor device.ram :: device.log

variable {timing device} {active : AiActiveSubmissionState} {fault : AiAccelFault}
  {detail : BitVec 32}

omit [HostFloat] in
theorem AiCompletionEntry.length_encode (entry : AiCompletionEntry) :
    entry.encode.length = kAiCompletionEntryBytes := by
  simp [AiCompletionEntry.encode, leBytes, kAiCompletionEntryBytes]

omit [HostFloat] in
theorem completeDescriptor_ok (h : device.CanComplete) (descriptor : AiSubmissionDescriptor)
    (fault : AiAccelFault) (detail : BitVec 32) (bytesMoved retiredOps : BitVec 64) :
    (device.completeDescriptor descriptor fault detail bytesMoved retiredOps).2.queue =
      device.queue.advance ∧
    ∃ entry : AiCompletionEntry, entry.token = descriptor.token ∧ entry.faultCode = fault ∧
      (device.completeDescriptor descriptor fault detail bytesMoved retiredOps).2.ram =
        device.ram.storeBytes device.queue.completionRecordAddr entry.encode ∧
      (device.completeDescriptor descriptor fault detail bytesMoved retiredOps).2.log =
        .completed descriptor.token fault device.ram
          (device.ram.storeBytes device.queue.completionRecordAddr entry.encode) :: device.log := by
  obtain ⟨hspace, hvisible⟩ := h
  have hwrite : ∀ entry : AiCompletionEntry, device.queue.writeNextCompletion device.ram entry =
      some (device.ram.storeBytes device.queue.completionRecordAddr entry.encode) := by
    intro entry
    have hlength : entry.encode.length = kAiCompletionEntryBytes :=
      AiCompletionEntry.length_encode entry
    unfold AiSubmissionQueue.writeNextCompletion Ram.dmaStoreBytes
    rw [if_pos hspace, hlength, if_pos hvisible]
  unfold completeDescriptor
  rw [if_neg (by simp [hspace])]
  dsimp only
  rw [hwrite]
  split_ifs <;> exact ⟨rfl, _, rfl, rfl, rfl, rfl⟩

omit [HostFloat] in
theorem completeDescriptor_written (h : device.CanComplete) {next : AiAccelerator}
    (hqueue : next.queue = device.queue) (hram : next.ram = device.ram)
    (descriptor : AiSubmissionDescriptor) (fault : AiAccelFault) (detail : BitVec 32)
    (bytesMoved retiredOps : BitVec 64) :
    (next.completeDescriptor descriptor fault detail bytesMoved retiredOps).2.log =
      .completed descriptor.token fault device.ram (next.completeDescriptor descriptor fault detail
        bytesMoved retiredOps).2.ram :: next.log := by
  have hnext : next.CanComplete := by
    unfold CanComplete
    rw [hqueue]
    exact h
  obtain ⟨-, entry, -, -, hwritten, hlog⟩ :=
    completeDescriptor_ok hnext descriptor fault detail bytesMoved retiredOps
  rw [hlog, hwritten, hram]

omit [HostFloat] in
theorem startTransfer_same {kind : AiDmaTransferKind}
    {entry : AiMemoryPlanEntry}
    (h : device.startTransfer timing active kind entry = .ok (.ends fault detail, device')) :
    device' = device := by
  unfold startTransfer at h
  cases hrequest : requestOf active kind entry with
  | none =>
    rw [hrequest] at h
    cases h
    rfl
  | some request =>
    rw [hrequest] at h
    dsimp only at h
    cases hstart : AiDmaEngine.start timing.dma.normalized device.pad device.dma request with
    | error stop =>
      rw [hstart] at h
      cases stop <;> cases h
      rfl
    | ok transfer =>
      rw [hstart] at h
      cases h

theorem startNextTransfer_ends
    (h : device.startNextTransfer timing active = .ok (.ends fault detail, device')) :
    device' = device ∨ fault = .none ∧ device'.dma = device.dma := by
  unfold startNextTransfer at h
  cases hload : active.loadEntries[active.nextLoadIndex]? with
  | some entry =>
    rw [hload] at h
    exact .inl (startTransfer_same h)
  | none =>
    rw [hload] at h
    by_cases hstart : active.computeStarted = false
    · rw [if_pos hstart] at h
      unfold startCompute at h
      cases hexecute : active.package.execute timing.scheduler.normalized device.pad with
      | none =>
        rw [hexecute] at h
        cases h
      | some result =>
        rw [hexecute] at h
        cases result with
        | error stop =>
          cases stop <;> cases h
          exact .inl rfl
        | ok run =>
          obtain ⟨hprogress, rfl⟩ := Prod.mk.inj (Except.ok.inj h)
          split_ifs at hprogress
          obtain ⟨hnone, -⟩ := Progress.ends.inj hprogress
          exact .inr ⟨hnone.symm, rfl⟩
    rw [if_neg hstart] at h
    by_cases hcomplete : active.computeComplete = false
    · rw [if_pos hcomplete] at h
      cases h
    rw [if_neg hcomplete] at h
    cases hstore : active.storeEntries[active.nextStoreIndex]? with
    | some entry =>
      rw [hstore] at h
      exact .inl (startTransfer_same h)
    | none =>
      rw [hstore] at h
      cases h
      exact .inl rfl

theorem startNextTransfer_same
    (hfault : fault ≠ .none)
    (h : device.startNextTransfer timing active = .ok (.ends fault detail, device')) :
    device' = device :=
  (startNextTransfer_ends h).resolve_right fun hends => hfault hends.1

omit [HostFloat] in
theorem countDown_descriptor (active : AiActiveSubmissionState) :
    (countDown active).2.descriptor = active.descriptor := by
  unfold countDown
  dsimp only
  split_ifs <;> rfl

omit [HostFloat] in
theorem beginSubmission_refused (h : device.CanComplete) {descriptor : AiSubmissionDescriptor}
    (hbudget : device.pendingSubmissionBudget ≠ 0)
    (hread : device.queue.readNextSubmission device.ram = some descriptor)
    (hrefused : device.beginSubmission.1 = false) :
    ∃ fault ≠ .none, device.beginSubmission.2.log =
      .completed descriptor.token fault device.ram device.beginSubmission.2.ram ::
        .read descriptor device.ram :: device.log := by
  revert hrefused
  unfold beginSubmission
  rw [if_neg hbudget, if_neg (by simp [h.1])]
  dsimp only
  rw [hread]
  dsimp only
  by_cases hvalid : validateDescriptor descriptor = .none
  swap
  · rw [if_pos hvalid]
    intro _
    refine ⟨_, hvalid, ?_⟩
    apply completeDescriptor_written h <;> rfl
  rw [if_neg (not_not.2 hvalid)]
  unfold prepareActiveSubmission
  cases hpackage : preparePackage _ descriptor with
  | error refusal =>
    intro _
    refine ⟨_, refuses_preparePackage descriptor refusal hpackage, ?_⟩
    apply completeDescriptor_written h <;> rfl
  | ok package =>
    dsimp only
    cases hentries : resolveEntries _ package.memoryPlan (freshSubmission descriptor package) with
    | error refusal =>
      intro _
      refine ⟨_, refuses_resolveEntries _ _ refusal hentries, ?_⟩
      apply completeDescriptor_written h <;> rfl
    | ok next => exact fun hfalse => (by cases hfalse)

theorem reportsFaults (h : device.CanComplete) : device.ReportsFaults timing where
  dma transfer active detail htransfer hactive htick := by
    unfold tickDma
    rw [htransfer, hactive]
    dsimp only
    rw [htick]
    refine ⟨_, _, rfl, ?_⟩
    apply completeDescriptor_written h <;> rfl
  step active fault detail next hfault hcount hnext := by
    obtain rfl := startNextTransfer_same hfault hnext
    unfold serveActive
    rcases hcounted : countDown active with ⟨waits, active'⟩
    rw [hcounted] at hcount hnext
    obtain rfl : waits = false := hcount
    dsimp only at hnext ⊢
    rw [hnext]
    refine ⟨_, _, rfl, ?_⟩
    have hsame : active'.descriptor = active.descriptor := by
      rw [← countDown_descriptor active, hcounted]
    rw [← hsame]
    apply completeDescriptor_written h <;> rfl
  descriptor descriptor hbudget hread hrefused := beginSubmission_refused h hbudget hread hrefused

end AiAccelerator

namespace AiAccelerator

variable {device device' : AiAccelerator}

/-- The device before its first submission. -/
structure Fresh (device : AiAccelerator) : Prop where
  active : device.active = none
  dma : device.dma = none
  log : device.log = []

theorem Fresh.inv (h : device.Fresh) : Inv timing device where
  history after token ram written rest hlog := by
    rw [h.log] at hlog
    simp at hlog
  idle _ := h.dma
  serving active hactive := by
    rw [h.active] at hactive
    cases hactive

/-- A completion without a fault ends a submission whose loads were done before its
operations, whose operations were each executed once, and whose outputs were stored after
them. Its output memory is the scratchpad that the operations left, apart from the bytes that
a later output covers. A submission that fails is completed with its fault. -/
theorem success_carriesOut (hfresh : device.Fresh)
    (hrun : Relation.ReflTransGen (Step timing) device device') :
    (∀ after token ram written rest,
      device'.log = after ++ .completed token .none ram written :: rest →
      ∃ active ram₀ loads stores run past,
        rest = submissionEvents active ram₀ loads stores run ++ past ∧
        token = active.descriptor.token ∧ active.FromPlan ∧
        active.Requests .load active.loadEntries loads ∧
        active.package.execute timing.scheduler.normalized
          (loadAll ram₀ loads (.configure active.package.scratchpadBudgetBytes)) = some (.ok run) ∧
        (run.result.opSummaries.map (·.opIndex)).Perm active.package.opIndices ∧
        (¬run.idle → active.Requests .store active.storeEntries stores ∧
          ∀ before request later, stores = before ++ request :: later → ∀ a, request.covers a →
            (∀ other ∈ later, ¬other.covers a) →
            ram a = run.pad.bytes
              (request.scratchpadOffset.toNat + (a - request.systemAddr).toNat))) ∧
      (device'.CanComplete → device'.ReportsFaults timing) := by
  have hinv : Inv timing device' := run_inv hrun hfresh.inv
  refine ⟨fun after token ram written rest hlog => ?_, reportsFaults⟩
  obtain ⟨active, ram₀, loads, stores, run, past, hcarried, htoken, hrest⟩ :=
    hinv.history after token ram written rest hlog
  refine ⟨active, ram₀, loads, stores, run, past, hrest, htoken, hcarried.plan, hcarried.loaded,
    hcarried.executed, ?_, fun hidle => ?_⟩
  · obtain ⟨hvalid, hcount⟩ := hcarried.plan.accepted.valid
    exact AiGraphPackage.execute_eq_ok hvalid hcount hcarried.executed
  obtain ⟨hstores, rfl⟩ := hcarried.stored hidle
  exact ⟨hstores, fun before request later hsplit a hcovers hlater =>
    storeAll_apply hsplit hcovers hlater⟩

end AiAccelerator

end

def AiAccelerator.drive [HostFloat] (timing : AiAcceleratorTiming) (device : AiAccelerator) :
    ℕ → DeviceRun AiAccelerator
  | 0 => device.ringDoorbell timing 0
  | n + 1 =>
    match drive timing device n with
    | .error crash => .error crash
    | .ok next => next.pumpQueue timing

theorem AiAccelerator.drive_run [HostFloat] {timing : AiAcceleratorTiming} {device next : AiAccelerator} {n : ℕ}
    (h : drive timing device n = .ok next) : Relation.ReflTransGen (Step timing) device next := by
  induction n generalizing next with
  | zero => exact .single (.doorbell 0 h)
  | succ n ih =>
    unfold drive at h
    cases hprev : drive timing device n with
    | error crash =>
      rw [hprev] at h
      cases h
    | ok prev =>
      rw [hprev] at h
      exact (ih hprev).tail (.tick h)

/-- Two operations, each from an input to an output of four bytes. -/
def reluPair : AiGraphPackage :=
  let tensor (role : AiTensorRole) : AiTensorMetadata :=
    { dtype := .int8, role, rank := 1, dims := axes 4 0 0 0, tileDims := axes 4 0 0 0 }
  let relu (input output : BitVec 16) : AiOpDescriptor :=
    { opcode := .eltwiseRelu, inputDtype := .int8, accumDtype := .int32, input0 := input,
      input1 := kAiInvalidTensorIndex, input2 := kAiInvalidTensorIndex, output,
      attrs := axes 0 0 0 0 }
  let plan (tensorIndex : BitVec 16) (offset : BitVec 32) : AiMemoryPlanEntry :=
    { tensorIndex, systemOffset := offset, scratchpadOffset := offset, byteSize := 4,
      scratchpadBytes := 4 }
  { shapeMode := .static
    trainingMode := .inference
    scratchpadBudgetBytes := 16
    tensors := [tensor .input, tensor .input, tensor .output, tensor .output]
    ops := [relu 0 2, relu 1 3]
    dependencies := []
    memoryPlan := [plan 0 0, plan 1 4, plan 2 8, plan 3 12]
    dynamicTensors := [] }

/-- Memory with one descriptor, the package, its tables and its inputs. Both outputs are at
the same address, since each is at its offset behind its base. -/
def sharedOutputMemory : Ram :=
  let word (value : ℕ) : List (BitVec 8) := leBytes 8 (BitVec.ofNat 64 value)
  let empty : Ram := fun _ => 0
  let descriptor := word 7 ++ word 0x80001000 ++
    leBytes 8 (BitVec.ofNat 64 reluPair.encoded.length) ++ word 0x80002000 ++ word 0x80002000
  ((((empty.storeBytes 0x80000000 descriptor).storeBytes 0x80001000
    reluPair.encoded).storeBytes 0x80002000
    (word 0x80003000 ++ word 0x80003000 ++ word 0x80004008 ++ word 0x80004004)).storeBytes
    0x80003000 [1, 1, 1, 1, 2, 2, 2, 2])

def sharedOutput : AiAccelerator where
  queue :=
    { submissionBase := 0x80000000, completionBase := 0x80000800, submissionSize := 4
      completionSize := 4, submissionHead := 0, submissionTail := 1, completionHead := 0
      completionTail := 0 }
  pad := .configure 0
  ram := sharedOutputMemory

def unitTiming : AiAcceleratorTiming := ⟨⟨0, 4⟩, ⟨4, 0⟩⟩

/-- A completion without a fault right after two transfers behind a computation, the first of
which is a store whose first byte is not the one in memory. -/
def endsOverwritten : List AiEvent → Bool
  | .completed token .none ram _ :: .transferred _ :: .transferred first :: .computed _ run :: _ =>
    decide (token = 7 ∧ first.kind = .store ∧
      ram first.systemAddr ≠ run.pad.bytes first.scratchpadOffset.toNat)
  | _ => false

theorem sharedOutput_drive : letI := HostFloat.silent
    ∃ last, AiAccelerator.drive unitTiming sharedOutput 8 = .ok last ∧
      endsOverwritten last.log := by
  have hends : Ends (@AiAccelerator.drive HostFloat.silent unitTiming sharedOutput 8)
      fun last => endsOverwritten last.log = true := by decide +kernel
  exact hends

theorem endsOverwritten_eq {log : List AiEvent} (h : endsOverwritten log) :
    ∃ ram written second first before run rest,
      log = .completed 7 .none ram written :: .transferred second :: .transferred first ::
        .computed before run :: rest ∧
      first.kind = .store ∧ ram first.systemAddr ≠ run.pad.bytes first.scratchpadOffset.toNat := by
  unfold endsOverwritten at h
  split at h
  · obtain ⟨rfl, hstore, hbyte⟩ := of_decide_eq_true h
    exact ⟨_, _, _, _, _, _, _, rfl, hstore, hbyte⟩
  · cases h

/-- The completion is without a fault, but memory does not hold the first output. -/
theorem sharedOutput_overwritten : letI := HostFloat.silent
    ∃ last ram written second first before run rest,
      Relation.ReflTransGen (AiAccelerator.Step unitTiming) sharedOutput last ∧
      last.log = .completed 7 .none ram written :: .transferred second :: .transferred first ::
        .computed before run :: rest ∧
      first.kind = .store ∧ ram first.systemAddr ≠ run.pad.bytes first.scratchpadOffset.toNat := by
  let _ := HostFloat.silent
  obtain ⟨last, hdrive, hends⟩ := sharedOutput_drive
  obtain ⟨ram, written, second, first, before, run, rest, hlog, hstore, hbyte⟩ :=
    endsOverwritten_eq hends
  exact ⟨last, ram, written, second, first, before, run, rest, AiAccelerator.drive_run hdrive,
    hlog, hstore,
    hbyte⟩

theorem sharedOutput_carriedOut : letI := HostFloat.silent
    ∃ (last : AiAccelerator) (ram written : Ram) (rest : List AiEvent),
      last.log = .completed 7 .none ram written :: rest ∧
      ∃ active ram₀ loads stores run past,
        rest = submissionEvents active ram₀ loads stores run ++ past ∧
        active.descriptor.token = 7 ∧ active.FromPlan ∧
        (run.result.opSummaries.map (·.opIndex)).Perm active.package.opIndices := by
  let _ := HostFloat.silent
  obtain ⟨last, hdrive, hends⟩ := sharedOutput_drive
  obtain ⟨ram, written, second, first, before, run, rest, hlog, -, -⟩ := endsOverwritten_eq hends
  obtain ⟨active, ram₀, loads, stores, run', past, hrest, htoken, hplan, -, -, hops, -⟩ :=
    (AiAccelerator.success_carriesOut ⟨rfl, rfl, rfl⟩ (AiAccelerator.drive_run hdrive)).1 [] 7 ram
      written _ hlog
  exact ⟨last, ram, written, _, hlog, active, ram₀, loads, stores, run', past, hrest, htoken.symm,
    hplan,
    hops⟩

end VisualCpu
