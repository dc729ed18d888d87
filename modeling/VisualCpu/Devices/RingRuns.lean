import VisualCpu.Devices.AcceleratorRuns

/-!
# The rings of the accelerator over a run

Every descriptor that the guest makes visible is read once, in the order of the ring, and
gets one completion with its token, in the same order, as long as the guest makes fewer than
2^32 descriptors visible. The counters of the rings are compared as numbers, so that the
device finds its ring empty once the tail has wrapped and the head has not.
-/

namespace VisualCpu

open List BitVec AiSubmissionQueue AiSubmissionDescriptor Nat

theorem AiSubmissionQueue.boundedDepth_eq {head tail : ℕ} {size : BitVec 32} (hle : head ≤ tail)
    (hsmall : tail < 2 ^ 32) (hfits : tail - head ≤ size.toNat) :
    boundedDepth (BitVec.ofNat 32 head) (BitVec.ofNat 32 tail) size =
      BitVec.ofNat 32 (tail - head) := by
  have hhead : (BitVec.ofNat 32 head).toNat = head := by
    rw [toNat_ofNat, mod_eq_of_lt (by omega)]
  have htail : (BitVec.ofNat 32 tail).toNat = tail := by
    rw [toNat_ofNat, mod_eq_of_lt hsmall]
  have hdiff : BitVec.ofNat 32 tail - BitVec.ofNat 32 head = BitVec.ofNat 32 (tail - head) := by
    apply eq_of_toNat_eq
    rw [toNat_sub, hhead, htail, toNat_ofNat]
    omega
  have hdepth : (BitVec.ofNat 32 (tail - head)).toNat = tail - head := by
    rw [toNat_ofNat, mod_eq_of_lt (by omega)]
  have hordered : ¬BitVec.ofNat 32 tail < BitVec.ofNat 32 head := by
    rw [lt_def, hhead, htail]
    omega
  unfold boundedDepth
  by_cases hsize : size = 0
  · subst hsize
    have hzero : tail - head = 0 := le_zero.1 hfits
    rw [if_pos (.inl rfl), hzero]
    rfl
  · rw [if_neg (not_or.2 ⟨hsize, hordered⟩), hdiff, if_pos]
    rw [le_def, hdepth]
    exact hfits

theorem AiSubmissionQueue.boundedDepth_of_wrapped {head tail size : BitVec 32} (h : tail < head) :
    boundedDepth head tail size = 0 := by
  unfold boundedDepth
  rw [if_pos (.inr h)]

def AiEvent.readToken : AiEvent → Option (BitVec 64)
  | .read descriptor _ => some descriptor.token
  | _ => none

def AiEvent.completedToken : AiEvent → Option (BitVec 64)
  | .completed token _ _ _ => some token
  | _ => none

/-- An event that is neither a read nor a completion. -/
def AiEvent.Silent (event : AiEvent) : Prop := event.readToken = none ∧ event.completedToken = none

def readTokens (log : List AiEvent) : List (BitVec 64) := log.filterMap AiEvent.readToken

/-- The tokens of the completions, the newest first. -/
def completedTokens (log : List AiEvent) : List (BitVec 64) := log.filterMap AiEvent.completedToken

/-- The address of the `n`-th record of a ring. -/
def ringSlot (base : BitVec 64) (size : BitVec 32) (bytes n : ℕ) : BitVec 64 :=
  base + BitVec.ofNat 64 (n % size.toNat * bytes)

/-- Every read is the next record of its ring after all records before it were completed,
and every completion is for the last record read and is the next record of its own ring. -/
def InOrder (queue : AiSubmissionQueue) : List AiEvent → Prop
  | [] => True
  | .read descriptor ram :: before =>
    InOrder queue before ∧ readTokens before = completedTokens before ∧
      descriptor = load ram (ringSlot queue.submissionBase
        queue.submissionSize kAiSubmissionDescriptorBytes (completedTokens before).length)
  | .completed token fault ram written :: before =>
    InOrder queue before ∧ readTokens before = token :: completedTokens before ∧
      ∃ entry : AiCompletionEntry, entry.token = token ∧ entry.faultCode = fault ∧
        written = ram.storeBytes (ringSlot queue.completionBase queue.completionSize
          kAiCompletionEntryBytes (completedTokens before).length) entry.encode
  | _ :: before => InOrder queue before

theorem ringSlot_eq {n : ℕ} (base : BitVec 64) (size : BitVec 32) (bytes : ℕ) (h : n < 2 ^ 32) :
    base + (BitVec.ofNat 32 n % size).setWidth 64 * BitVec.ofNat 64 bytes =
      ringSlot base size bytes n := by
  congr 1
  apply eq_of_toNat_eq
  have hslot : ((BitVec.ofNat 32 n % size).setWidth 64).toNat = n % size.toNat := by
    rw [toNat_setWidth, toNat_umod, toNat_ofNat, mod_eq_of_lt h, mod_eq_of_lt]
    exact lt_of_le_of_lt (mod_le _ _) (by omega)
  rw [toNat_mul, hslot, toNat_ofNat, toNat_ofNat, mul_mod_mod]

variable {events : List AiEvent}

theorem readTokens_silent (h : ∀ event ∈ events, event.Silent)
    (log : List AiEvent) : readTokens (events ++ log) = readTokens log := by
  have hnone : events.filterMap AiEvent.readToken = [] :=
    filterMap_eq_nil_iff.2 fun event hevent => (h event hevent).1
  simp [readTokens, hnone]

theorem completedTokens_silent (h : ∀ event ∈ events, event.Silent)
    (log : List AiEvent) : completedTokens (events ++ log) = completedTokens log := by
  have hnone : events.filterMap AiEvent.completedToken = [] :=
    filterMap_eq_nil_iff.2 fun event hevent => (h event hevent).2
  simp [completedTokens, hnone]

theorem InOrder.silent {queue : AiSubmissionQueue} {events log : List AiEvent}
    (h : ∀ event ∈ events, event.Silent) (horder : InOrder queue log) :
    InOrder queue (events ++ log) := by
  induction events with
  | nil => exact horder
  | cons event rest ih =>
    have hrest := ih fun other hother => h other (mem_cons_of_mem _ hother)
    have hsilent := h event mem_cons_self
    cases event with
    | read descriptor ram => cases hsilent.1
    | completed token fault ram written => cases hsilent.2
    | accepted active ram => exact hrest
    | transferred request => exact hrest
    | computed before run => exact hrest

/-- A configured pair of rings in memory that devices can reach. -/
structure AiSubmissionQueue.Reachable (queue : AiSubmissionQueue) : Prop where
  configured : queue.configured
  submissions : ∀ n, Ram.dmaVisible (ringSlot queue.submissionBase queue.submissionSize
    kAiSubmissionDescriptorBytes n) kAiSubmissionDescriptorBytes
  completions : ∀ n, Ram.dmaVisible (ringSlot queue.completionBase queue.completionSize
    kAiCompletionEntryBytes n) kAiCompletionEntryBytes

def AiSubmissionQueue.at (queue : AiSubmissionQueue) (visible completed consumed : ℕ) :
    AiSubmissionQueue :=
  { queue with
    submissionHead := BitVec.ofNat 32 completed
    submissionTail := BitVec.ofNat 32 visible
    completionHead := BitVec.ofNat 32 consumed
    completionTail := BitVec.ofNat 32 completed }

namespace AiAccelerator

variable {device device' : AiAccelerator} {queue : AiSubmissionQueue} {visible consumed : ℕ}
  {descriptor : AiSubmissionDescriptor}

def activeDescriptor (device : AiAccelerator) : Option AiSubmissionDescriptor :=
  device.active.map (·.descriptor)

/-- What holds between two events: the counters are the numbers of completions, of visible
and of consumed records, and the last record read is the active one. -/
structure RingInv (queue : AiSubmissionQueue) (visible consumed : ℕ) (device : AiAccelerator) :
    Prop where
  counters : device.queue = queue.at visible (completedTokens device.log).length consumed
  order : InOrder queue device.log
  consumed_le : consumed ≤ (completedTokens device.log).length
  completed_le : (completedTokens device.log).length ≤ visible
  pending_le : visible - (completedTokens device.log).length ≤ queue.submissionSize.toNat
  unread_le : (completedTokens device.log).length - consumed ≤ queue.completionSize.toNat
  idle : device.active = none → readTokens device.log = completedTokens device.log ∧
    device.dma = none
  serving : ∀ descriptor, device.activeDescriptor = some descriptor →
    readTokens device.log = descriptor.token :: completedTokens device.log ∧
      (completedTokens device.log).length < visible ∧
      (completedTokens device.log).length - consumed < queue.completionSize.toNat

/-- A step that neither reads a record nor completes one. -/
structure SameRings (device device' : AiAccelerator) : Prop where
  queue : device'.queue = device.queue
  log : ∃ events, device'.log = events ++ device.log ∧ ∀ event ∈ events, event.Silent
  active : device'.activeDescriptor = device.activeDescriptor
  idle : device'.active = none → device.dma = none → device'.dma = none

theorem SameRings.refl (device : AiAccelerator) : SameRings device device :=
  ⟨rfl, ⟨[], rfl, fun _ h => (by cases h)⟩, rfl, fun _ h => h⟩

theorem RingInv.same (h : RingInv queue visible consumed device)
    (hsame : SameRings device device') :
    RingInv queue visible consumed device' := by
  obtain ⟨events, hlog, hsilent⟩ := hsame.log
  have hreads : readTokens device'.log = readTokens device.log := by
    rw [hlog, readTokens_silent hsilent]
  have hcompleted : completedTokens device'.log = completedTokens device.log := by
    rw [hlog, completedTokens_silent hsilent]
  constructor
  · rw [hcompleted, hsame.queue]
    exact h.counters
  · rw [hlog]
    exact h.order.silent hsilent
  · rw [hcompleted]
    exact h.consumed_le
  · rw [hcompleted]
    exact h.completed_le
  · rw [hcompleted]
    exact h.pending_le
  · rw [hcompleted]
    exact h.unread_le
  · intro hnone
    have hactive : device.active = none := by
      have hdescriptor := hsame.active
      unfold activeDescriptor at hdescriptor
      rw [hnone] at hdescriptor
      exact Option.map_eq_none_iff.1 hdescriptor.symm
    rw [hreads, hcompleted]
    exact ⟨(h.idle hactive).1, hsame.idle hnone (h.idle hactive).2⟩
  · rw [hreads, hcompleted, hsame.active]
    exact h.serving

/-- A record was read and is not completed yet. -/
structure Pending (queue : AiSubmissionQueue) (visible consumed : ℕ) (device : AiAccelerator)
    (token : BitVec 64) : Prop where
  counters : device.queue = queue.at visible (completedTokens device.log).length consumed
  order : InOrder queue device.log
  reads : readTokens device.log = token :: completedTokens device.log
  consumed_le : consumed ≤ (completedTokens device.log).length
  completed_lt : (completedTokens device.log).length < visible
  pending_le : visible - (completedTokens device.log).length ≤ queue.submissionSize.toNat
  unread_lt : (completedTokens device.log).length - consumed < queue.completionSize.toNat

theorem RingInv.pending (h : RingInv queue visible consumed device)
    (hactive : device.activeDescriptor = some descriptor) :
    Pending queue visible consumed device descriptor.token := by
  obtain ⟨hreads, hlt, hspace⟩ := h.serving descriptor hactive
  exact ⟨h.counters, h.order, hreads, h.consumed_le, hlt, h.pending_le, hspace⟩

theorem at_configured (hreach : queue.Reachable) (completed : ℕ) :
    (queue.at visible completed consumed).submissionConfigured ∧
      (queue.at visible completed consumed).completionConfigured := by
  have hconfigured := hreach.configured
  exact Bool.and_eq_true_iff.1 hconfigured

theorem completionHasSpace_iff (hreach : queue.Reachable) {completed : ℕ}
    (hconsumed : consumed ≤ completed) (hsmall : completed < 2 ^ 32)
    (hunread : completed - consumed ≤ queue.completionSize.toNat) :
    (queue.at visible completed consumed).completionHasSpace ↔
      completed - consumed < queue.completionSize.toNat := by
  have hdepth : (queue.at visible completed consumed).completionDepth =
      BitVec.ofNat 32 (completed - consumed) :=
    boundedDepth_eq hconsumed hsmall hunread
  unfold completionHasSpace
  rw [(at_configured hreach completed).2, hdepth, Bool.true_and, decide_eq_true_iff, lt_def,
    toNat_ofNat, mod_eq_of_lt (by omega)]
  rfl

theorem Pending.canComplete {token : BitVec 64} (h : Pending queue visible consumed device token)
    (hreach : queue.Reachable) (hfew : visible < 2 ^ 32) :
    device.CanComplete ∧ device.queue.completionRecordAddr =
      ringSlot queue.completionBase queue.completionSize kAiCompletionEntryBytes
        (completedTokens device.log).length := by
  have hlt := h.completed_lt
  have haddr : device.queue.completionRecordAddr = ringSlot queue.completionBase
      queue.completionSize kAiCompletionEntryBytes (completedTokens device.log).length := by
    rw [h.counters]
    exact ringSlot_eq _ _ _ (by omega)
  refine ⟨⟨?_, ?_⟩, haddr⟩
  · rw [h.counters]
    exact (completionHasSpace_iff hreach h.consumed_le (by omega) (le_of_lt h.unread_lt)).2
      h.unread_lt
  · rw [haddr]
    exact hreach.completions _

theorem at_advance (completed : ℕ) :
    (queue.at visible completed consumed).advance = queue.at visible (completed + 1) consumed := by
  unfold AiSubmissionQueue.advance AiSubmissionQueue.at
  simp only [ofNat_add]
  rfl

theorem Pending.complete
    (h : Pending queue visible consumed device descriptor.token) (hreach : queue.Reachable)
    (hfew : visible < 2 ^ 32) {fault : AiAccelFault} {detail : BitVec 32}
    {bytesMoved retiredOps : BitVec 64}
    (hqueue : device'.queue =
      (device.completeDescriptor descriptor fault detail bytesMoved retiredOps).2.queue)
    (hlog : device'.log =
      (device.completeDescriptor descriptor fault detail bytesMoved retiredOps).2.log)
    (hactive : device'.active = none) (hdma : device'.dma = none) :
    RingInv queue visible consumed device' := by
  obtain ⟨hcan, haddr⟩ := h.canComplete hreach hfew
  obtain ⟨hadvance, entry, htoken, hfault, -, hcompleted⟩ :=
    completeDescriptor_ok hcan descriptor fault detail bytesMoved retiredOps
  rw [hcompleted] at hlog
  rw [hadvance, h.counters, at_advance] at hqueue
  have htokens : completedTokens device'.log = descriptor.token :: completedTokens device.log := by
    rw [hlog]
    rfl
  have hreads : readTokens device'.log = descriptor.token :: completedTokens device.log := by
    rw [hlog]
    exact h.reads
  have hlength : (completedTokens device'.log).length =
    (completedTokens device.log).length + 1 := by
    rw [htokens, length_cons]
  have hconsumed := h.consumed_le
  have hlt := h.completed_lt
  have hpending := h.pending_le
  have hunread := h.unread_lt
  refine ⟨by rw [hqueue, hlength], ?_, by omega, by omega, by omega, by omega,
    fun _ => ⟨by rw [hreads, htokens], hdma⟩, fun other hother => ?_⟩
  · rw [hlog]
    exact ⟨h.order, h.reads, entry, htoken, hfault, by rw [haddr]⟩
  unfold activeDescriptor at hother
  rw [hactive] at hother
  cases hother

theorem tickDma_rings (h : RingInv queue visible consumed device) (hreach : queue.Reachable)
    (hfew : visible < 2 ^ 32) {ticked : Ticked} (hstep : device.tickDma = .ok (ticked, device')) :
    RingInv queue visible consumed device' ∧ (ticked = .goesOn → device'.dma = none) := by
  unfold tickDma at hstep
  cases hdma : device.dma with
  | none =>
    rw [hdma] at hstep
    cases hstep
    exact ⟨h, fun _ => hdma⟩
  | some transfer =>
    rw [hdma] at hstep
    dsimp only at hstep
    cases hactive : device.active with
    | none =>
      rw [(h.idle hactive).2] at hdma
      cases hdma
    | some active =>
      have hpending : Pending queue visible consumed device active.descriptor.token :=
        h.pending (by simp [activeDescriptor, hactive])
      cases htick : AiDmaEngine.tick device.pad device.ram transfer with
      | error stop =>
        rw [htick] at hstep
        cases stop <;> cases hstep
      | ok result =>
        rw [htick, hactive] at hstep
        cases result with
        | waiting next =>
          cases hstep
          refine ⟨h.same ⟨rfl, ⟨[], rfl, fun _ hin => (by cases hin)⟩, ?_, fun hnone => ?_⟩,
            fun heq => (by cases heq)⟩
          · simp [activeDescriptor, hactive]
          · cases hnone
        | faulted detail =>
          cases hstep
          have hcleared : Pending queue visible consumed
              { device with dma := none, active := some active } active.descriptor.token :=
            ⟨hpending.counters, hpending.order, hpending.reads, hpending.consumed_le,
              hpending.completed_lt, hpending.pending_le, hpending.unread_lt⟩
          refine ⟨hcleared.complete hreach hfew rfl rfl rfl ?_, fun heq => ?_⟩
          · exact (completeDescriptor_spec ..).1
          · split_ifs at heq
        | done pad ram =>
          cases hstep
          refine ⟨h.same ⟨rfl, ⟨[.transferred transfer.request], rfl, ?_⟩, ?_, fun hnone => ?_⟩,
            fun _ => rfl⟩
          · intro event hin
            obtain rfl := mem_singleton.1 hin
            exact ⟨rfl, rfl⟩
          · simp only [activeDescriptor, hactive, Option.map_some]
            cases transfer.request.kind <;> rfl
          · cases hnone

section

variable [HostFloat] {timing : AiAcceleratorTiming} {active : AiActiveSubmissionState}

variable {progress : Progress}

omit [HostFloat] in
theorem startTransfer_rings {kind : AiDmaTransferKind} {entry : AiMemoryPlanEntry}
    (hactive : device.active = some active)
    (h : device.startTransfer timing active kind entry = .ok (progress, device')) :
    SameRings device device' := by
  unfold startTransfer at h
  cases hrequest : requestOf active kind entry with
  | none =>
    rw [hrequest] at h
    cases h
    exact .refl device
  | some request =>
    rw [hrequest] at h
    dsimp only at h
    cases hstart : AiDmaEngine.start timing.dma.normalized device.pad device.dma request with
    | error stop =>
      rw [hstart] at h
      cases stop <;> cases h
      exact .refl device
    | ok transfer =>
      rw [hstart] at h
      cases h
      refine ⟨rfl, ⟨[], rfl, fun _ hin => (by cases hin)⟩, rfl, fun hnone => ?_⟩
      rw [show _ = device.active from rfl, hactive] at hnone
      cases hnone

theorem startCompute_rings (hactive : device.active = some active)
    (h : device.startCompute timing active = .ok (progress, device')) :
    SameRings device device' := by
  unfold startCompute at h
  cases hexecute : active.package.execute timing.scheduler.normalized device.pad with
  | none =>
    rw [hexecute] at h
    cases h
  | some result =>
    rw [hexecute] at h
    cases result with
    | error stop =>
      cases stop <;> cases h
      exact .refl device
    | ok run =>
      cases h
      refine ⟨rfl, ⟨[.computed device.pad run], rfl, ?_⟩, ?_, fun hnone => ?_⟩
      · intro event hin
        obtain rfl := mem_singleton.1 hin
        exact ⟨rfl, rfl⟩
      · simp [activeDescriptor, hactive]
      · cases hnone

theorem startNextTransfer_rings (hactive : device.active = some active)
    (h : device.startNextTransfer timing active = .ok (progress, device')) :
    SameRings device device' := by
  unfold startNextTransfer at h
  cases hload : active.loadEntries[active.nextLoadIndex]? with
  | some entry =>
    rw [hload] at h
    exact startTransfer_rings hactive h
  | none =>
    rw [hload] at h
    by_cases hstart : active.computeStarted = false
    · rw [if_pos hstart] at h
      exact startCompute_rings hactive h
    rw [if_neg hstart] at h
    by_cases hcomplete : active.computeComplete = false
    · rw [if_pos hcomplete] at h
      cases h
      exact .refl device
    rw [if_neg hcomplete] at h
    cases hstore : active.storeEntries[active.nextStoreIndex]? with
    | some entry =>
      rw [hstore] at h
      exact startTransfer_rings hactive h
    | none =>
      rw [hstore] at h
      cases h
      exact .refl device

theorem serveActive_rings (h : RingInv queue visible consumed device) (hreach : queue.Reachable)
    (hfew : visible < 2 ^ 32) (hactive : device.active = some active) (hdma : device.dma = none)
    {ticked : Ticked} (hstep : device.serveActive timing active = .ok (ticked, device')) :
    RingInv queue visible consumed device' := by
  have hcounted : SameRings device { device with active := some (countDown active).2 } := by
    refine ⟨rfl, ⟨[], rfl, fun _ hin => (by cases hin)⟩, ?_, fun hnone => (by cases hnone)⟩
    simp [activeDescriptor, hactive, countDown_descriptor]
  unfold serveActive at hstep
  rcases hcount : countDown active with ⟨waits, active'⟩
  rw [hcount] at hstep hcounted
  cases waits with
  | true =>
    cases hstep
    exact h.same hcounted
  | false =>
    dsimp only at hstep
    cases hnext : startNextTransfer { device with active := some active' } timing active' with
    | error crash =>
      rw [hnext] at hstep
      cases hstep
    | ok result =>
      obtain ⟨progress, next⟩ := result
      rw [hnext] at hstep
      have hsame := startNextTransfer_rings rfl hnext
      have hinv := (h.same hcounted).same hsame
      cases progress with
      | goesOn =>
        cases hstep
        exact hinv
      | ends fault detail =>
        cases hstep
        have hserved : next.activeDescriptor = some active'.descriptor := hsame.active
        cases hnextActive : next.active with
        | none =>
          unfold activeDescriptor at hserved
          rw [hnextActive] at hserved
          cases hserved
        | some served =>
          have hpending := hinv.pending (show next.activeDescriptor = some served.descriptor by
            simp [activeDescriptor, hnextActive])
          refine hpending.complete hreach hfew rfl rfl rfl ?_
          rw [show _ = next.dma from (completeDescriptor_spec ..).1]
          rcases startNextTransfer_ends hnext with rfl | ⟨-, hkept⟩
          · exact hdma
          · exact hkept.trans hdma

omit [HostFloat] in
theorem pendingDepth_eq (h : RingInv queue visible consumed device) (hfew : visible < 2 ^ 32) :
    device.queue.pendingDepth =
      BitVec.ofNat 32 (visible - (completedTokens device.log).length) := by
  rw [h.counters]
  exact boundedDepth_eq h.completed_le hfew h.pending_le

omit [HostFloat] in
theorem readNextSubmission_eq (h : RingInv queue visible consumed device)
    (hreach : queue.Reachable) (hfew : visible < 2 ^ 32) (hdepth : device.queue.pendingDepth ≠ 0) :
    (completedTokens device.log).length < visible ∧
      device.queue.readNextSubmission device.ram = some (load device.ram
        (ringSlot queue.submissionBase queue.submissionSize kAiSubmissionDescriptorBytes
          (completedTokens device.log).length)) := by
  have hle := h.completed_le
  have hlt : (completedTokens device.log).length < visible := by
    rw [pendingDepth_eq h hfew] at hdepth
    by_contra hge
    rw [Nat.sub_eq_zero_of_le (Nat.le_of_not_lt hge)] at hdepth
    exact hdepth rfl
  have haddr : device.queue.submissionRecordAddr = ringSlot queue.submissionBase
      queue.submissionSize kAiSubmissionDescriptorBytes (completedTokens device.log).length := by
    rw [h.counters]
    exact ringSlot_eq _ _ _ (by omega)
  have hconfigured : device.queue.submissionConfigured := by
    rw [h.counters]
    exact (at_configured hreach _).1
  refine ⟨hlt, ?_⟩
  unfold readNextSubmission
  rw [haddr, if_pos ⟨hconfigured, hdepth, hreach.submissions _⟩]

variable {descriptor : AiSubmissionDescriptor}

omit [HostFloat] in
theorem Pending.accepted (h : Pending queue visible consumed device descriptor.token) {ram : Ram}
    (hqueue : device'.queue = device.queue)
    (hlog : device'.log = .accepted active ram :: device.log)
    (hactive : device'.activeDescriptor = some descriptor) :
    RingInv queue visible consumed device' := by
  have htokens : completedTokens device'.log = completedTokens device.log := by
    rw [hlog]
    rfl
  have hreads : readTokens device'.log = readTokens device.log := by
    rw [hlog]
    rfl
  refine ⟨by rw [hqueue, htokens, h.counters], ?_, ?_, ?_, ?_, ?_, fun hnone => ?_,
    fun other hother => ?_⟩
  · rw [hlog]
    exact h.order
  · rw [htokens]
    exact h.consumed_le
  · rw [htokens]
    exact le_of_lt h.completed_lt
  · rw [htokens]
    exact h.pending_le
  · rw [htokens]
    exact le_of_lt h.unread_lt
  · unfold activeDescriptor at hactive
    rw [hnone] at hactive
    cases hactive
  · rw [hactive] at hother
    obtain rfl := Option.some.inj hother
    rw [hreads, htokens]
    exact ⟨h.reads, h.completed_lt, h.unread_lt⟩

omit [HostFloat] in
theorem beginSubmission_rings (h : RingInv queue visible consumed device)
    (hreach : queue.Reachable) (hfew : visible < 2 ^ 32) (hactive : device.active = none)
    (hdepth : device.queue.pendingDepth ≠ 0) :
    RingInv queue visible consumed device.beginSubmission.2 ∧
      device.beginSubmission.2.dma = none := by
  obtain ⟨hreads, hdma⟩ := h.idle hactive
  obtain ⟨hlt, hread⟩ := readNextSubmission_eq h hreach hfew hdepth
  unfold beginSubmission
  by_cases hbudget : device.pendingSubmissionBudget = 0
  · rw [if_pos hbudget]
    exact ⟨h, hdma⟩
  rw [if_neg hbudget]
  by_cases hspace : device.queue.completionHasSpace = false
  · rw [if_pos hspace]
    exact ⟨h.same ⟨rfl, ⟨[], rfl, fun _ hin => (by cases hin)⟩, rfl, fun _ hidle => hidle⟩, hdma⟩
  rw [if_neg hspace]
  dsimp only
  rw [hread]
  dsimp only
  -- the device after the record is read, whatever its scratchpad is
  have hunread : (completedTokens device.log).length - consumed < queue.completionSize.toNat := by
    rw [h.counters, Bool.not_eq_false] at hspace
    exact (completionHasSpace_iff hreach h.consumed_le (by omega) h.unread_le).1 hspace
  have hpending : ∀ (next : AiAccelerator) (descriptor : AiSubmissionDescriptor),
      next.queue = device.queue → next.log = .read descriptor device.ram :: device.log →
      descriptor = load device.ram (ringSlot queue.submissionBase
        queue.submissionSize kAiSubmissionDescriptorBytes (completedTokens device.log).length) →
      Pending queue visible consumed next descriptor.token := by
    intro next descriptor hqueue hlog hdescriptor
    have htokens : completedTokens next.log = completedTokens device.log := by
      rw [hlog]
      rfl
    refine ⟨by rw [hqueue, htokens, h.counters], ?_, ?_, ?_, ?_, ?_, ?_⟩
    · rw [hlog]
      exact ⟨h.order, hreads, hdescriptor⟩
    · rw [htokens, hlog, ← hreads]
      rfl
    · rw [htokens]
      exact h.consumed_le
    · rw [htokens]
      exact hlt
    · rw [htokens]
      exact h.pending_le
    · rw [htokens]
      exact hunread
  generalize hdescriptor : load device.ram (ringSlot queue.submissionBase
    queue.submissionSize kAiSubmissionDescriptorBytes (completedTokens device.log).length) =
      descriptor at hpending
  have hcompleted : ∀ (next : AiAccelerator) (fault : AiAccelFault) (detail : BitVec 32),
      next.queue = device.queue → next.log = .read descriptor device.ram :: device.log →
      next.active = none → next.dma = none →
      RingInv queue visible consumed (next.completeDescriptor descriptor fault detail 0 0).2 ∧
        (next.completeDescriptor descriptor fault detail 0 0).2.dma = none := by
    intro next fault detail hqueue hlog hnone hidle
    obtain ⟨hsameDma, hsameActive, -⟩ := completeDescriptor_spec next descriptor fault detail 0 0
    have hdone := hsameDma.trans hidle
    exact ⟨(hpending next descriptor hqueue hlog rfl).complete hreach hfew rfl rfl
      (hsameActive.trans hnone) hdone, hdone⟩
  by_cases hvalid : validateDescriptor descriptor = .none
  swap
  · rw [if_pos hvalid]
    exact hcompleted _ _ _ rfl rfl hactive hdma
  rw [if_neg (not_not.2 hvalid)]
  unfold prepareActiveSubmission
  cases hpackage : preparePackage _ descriptor with
  | error refusal => exact hcompleted _ _ _ rfl rfl hactive hdma
  | ok package =>
    dsimp only
    cases hentries : resolveEntries _ package.memoryPlan (freshSubmission descriptor package) with
    | error refusal => exact hcompleted _ _ _ rfl rfl hactive hdma
    | ok next =>
      obtain ⟨hsame, -⟩ := resolveEntries_eq_ok hentries
      have hread' := hpending
        { device with
          pendingSubmissionBudget := device.pendingSubmissionBudget - 1
          log := .read descriptor device.ram :: device.log } descriptor rfl rfl rfl
      refine ⟨hread'.accepted rfl rfl ?_, hdma⟩
      simp only [activeDescriptor, Option.map_some]
      rw [hsame]
      rfl

theorem roundInvariant_rings (hreach : queue.Reachable) (hfew : visible < 2 ^ 32) :
    RoundInvariant timing (RingInv queue visible consumed) where
  tick h hstep := tickDma_rings h hreach hfew hstep
  serve h hactive hdma hstep := serveActive_rings h hreach hfew hactive hdma hstep
  submission h hactive hdepth := beginSubmission_rings h hreach hfew hactive hdepth
  congr h hqueue hlog _ _ hdma hactive :=
    h.same ⟨hqueue, ⟨[], hlog, fun _ hin => (by cases hin)⟩, by rw [activeDescriptor, hactive]; rfl,
      fun _ hidle => hdma.trans hidle⟩

/-- The device with its rings just set up. -/
structure RingStart (start : AiAccelerator) : Prop where
  counters : start.queue = start.queue.at 0 0 0
  reachable : start.queue.Reachable
  fresh : start.Fresh

/-- The guest makes some more submissions visible. -/
def submit (device : AiAccelerator) (n : BitVec 32) : AiAccelerator :=
  { device with queue := { device.queue with submissionTail := device.queue.submissionTail + n } }

/-- The guest consumes some more completions. -/
def consume (device : AiAccelerator) (n : BitVec 32) : AiAccelerator :=
  { device with queue := { device.queue with completionHead := device.queue.completionHead + n } }

/-- The number of records that are submitted and not completed. -/
def submitted (device : AiAccelerator) : BitVec 32 :=
  device.queue.submissionTail - device.queue.submissionHead

def unread (device : AiAccelerator) : BitVec 32 :=
  device.queue.completionTail - device.queue.completionHead

/-- The runs, with the numbers of records made visible and of completions consumed. -/
inductive RingRun (timing : AiAcceleratorTiming) (start : AiAccelerator) :
    ℕ → ℕ → AiAccelerator → Prop where
  | start : RingRun timing start 0 0 start
  | tick {visible consumed : ℕ} {device next : AiAccelerator}
      (hrun : RingRun timing start visible consumed device)
      (h : device.pumpQueue timing = .ok next) : RingRun timing start visible consumed next
  | doorbell {visible consumed : ℕ} {device next : AiAccelerator} (budget : BitVec 32)
      (hrun : RingRun timing start visible consumed device)
      (h : device.ringDoorbell timing budget = .ok next) :
      RingRun timing start visible consumed next
  | submit {visible consumed : ℕ} {device : AiAccelerator} (n : BitVec 32)
      (hrun : RingRun timing start visible consumed device)
      (h : n ≤ device.queue.submissionSize - device.submitted) :
      RingRun timing start (visible + n.toNat) consumed (device.submit n)
  | consume {visible consumed : ℕ} {device : AiAccelerator} (n : BitVec 32)
      (hrun : RingRun timing start visible consumed device) (h : n ≤ device.unread) :
      RingRun timing start visible (consumed + n.toNat) (device.consume n)
  | memory {visible consumed : ℕ} {device : AiAccelerator} (ram : Ram)
      (hrun : RingRun timing start visible consumed device) :
      RingRun timing start visible consumed { device with ram }

/-- The records are read once and in order, each is completed once and in order apart from the
active one, and the counters are their numbers. -/
structure Served (queue : AiSubmissionQueue) (visible consumed : ℕ) (device : AiAccelerator) :
    Prop where
  order : InOrder queue device.log
  reads : readTokens device.log =
    (device.activeDescriptor.map (·.token)).toList ++ completedTokens device.log
  head : device.queue.submissionHead = BitVec.ofNat 32 (completedTokens device.log).length
  tail : device.queue.submissionTail = BitVec.ofNat 32 visible
  completionHead : device.queue.completionHead = BitVec.ofNat 32 consumed
  completionTail : device.queue.completionTail = BitVec.ofNat 32 (completedTokens device.log).length
  reads_le : (readTokens device.log).length ≤ visible
  consumed_le : consumed ≤ (completedTokens device.log).length
  unread_le : (completedTokens device.log).length - consumed ≤ queue.completionSize.toNat
  pendingDepth : device.queue.pendingDepth = device.submitted

omit [HostFloat] in
theorem RingInv.submitted_eq (h : RingInv queue visible consumed device) :
    device.submitted = BitVec.ofNat 32 (visible - (completedTokens device.log).length) := by
  have hle := h.completed_le
  unfold submitted
  rw [h.counters]
  apply eq_of_toNat_eq
  simp only [AiSubmissionQueue.at, toNat_sub, toNat_ofNat]
  omega

omit [HostFloat] in
theorem RingInv.unread_eq (h : RingInv queue visible consumed device) :
    device.unread = BitVec.ofNat 32 ((completedTokens device.log).length - consumed) := by
  have hle := h.consumed_le
  unfold unread
  rw [h.counters]
  apply eq_of_toNat_eq
  simp only [AiSubmissionQueue.at, toNat_sub, toNat_ofNat]
  omega

omit [HostFloat] in
theorem RingInv.served (h : RingInv queue visible consumed device) (hfew : visible < 2 ^ 32) :
    device.Served queue visible consumed := by
  have hcounters := h.counters
  have hcompleted := h.completed_le
  have hreads : readTokens device.log =
      (device.activeDescriptor.map (·.token)).toList ++ completedTokens device.log := by
    cases hactive : device.activeDescriptor with
    | none =>
      have hnone : device.active = none := Option.map_eq_none_iff.1 hactive
      rw [(h.idle hnone).1]
      rfl
    | some descriptor =>
      rw [(h.serving descriptor hactive).1]
      rfl
  refine ⟨h.order, hreads, by rw [hcounters]; rfl, by rw [hcounters]; rfl, by rw [hcounters]; rfl,
    by rw [hcounters]; rfl, ?_, h.consumed_le, h.unread_le, ?_⟩
  · rw [hreads, length_append]
    cases hactive : device.activeDescriptor with
    | none => simpa using hcompleted
    | some descriptor =>
      have hlt := (h.serving descriptor hactive).2.1
      simp only [Option.map_some, Option.toList_some, length_singleton]
      omega
  · rw [pendingDepth_eq h hfew, h.submitted_eq]

variable {start : AiAccelerator} {n : BitVec 32}

omit [HostFloat] in
theorem RingStart.inv (h : start.RingStart) : RingInv start.queue 0 0 start := by
  have hlog := h.fresh.log
  refine ⟨?_, ?_, ?_, ?_, ?_, ?_, fun _ => ⟨?_, h.fresh.dma⟩, fun descriptor hsome => ?_⟩
  · rw [hlog]
    exact h.counters
  · rw [hlog]
    trivial
  · exact zero_le _
  · rw [hlog]
    exact le_rfl
  · omega
  · rw [hlog]
    exact zero_le _
  · rw [hlog]
    rfl
  · unfold activeDescriptor at hsome
    rw [h.fresh.active] at hsome
    cases hsome

omit [HostFloat] in
theorem RingInv.submit (h : RingInv queue visible consumed device)
    (hfree : n ≤ device.queue.submissionSize - device.submitted) :
    visible + n.toNat - (completedTokens device.log).length ≤ queue.submissionSize.toNat ∧
      RingInv queue (visible + n.toNat) consumed (device.submit n) := by
  have hcompleted := h.completed_le
  have hpending := h.pending_le
  have hsize : device.queue.submissionSize = queue.submissionSize := by
    rw [h.counters]
    rfl
  rw [hsize, h.submitted_eq, le_def, toNat_sub, toNat_ofNat] at hfree
  have hfits : visible + n.toNat - (completedTokens device.log).length ≤
      queue.submissionSize.toNat := by
    omega
  refine ⟨hfits, ⟨?_, h.order, h.consumed_le, ?_, hfits, h.unread_le, h.idle, ?_⟩⟩
  · have hcounters := h.counters
    simp only [AiAccelerator.submit]
    rw [hcounters]
    simp only [AiSubmissionQueue.at, ofNat_add, ofNat_toNat, setWidth_eq]
  · exact le_trans hcompleted (le_add_right _ _)
  · intro descriptor hactive
    obtain ⟨hreads, hlt, hspace⟩ := h.serving descriptor hactive
    exact ⟨hreads, lt_of_lt_of_le hlt (le_add_right _ _), hspace⟩

omit [HostFloat] in
theorem RingInv.consume (h : RingInv queue visible consumed device) (hunread : n ≤ device.unread) :
    RingInv queue visible (consumed + n.toNat) (device.consume n) := by
  have hconsumed := h.consumed_le
  have hcompleted := h.completed_le
  have hunreadLe := h.unread_le
  rw [h.unread_eq, le_def, toNat_ofNat, mod_eq_of_lt (by omega)] at hunread
  have hlog : (device.consume n).log = device.log := rfl
  refine ⟨?_, h.order, ?_, h.completed_le, h.pending_le, ?_, h.idle, ?_⟩
  · have hcounters := h.counters
    simp only [AiAccelerator.consume]
    rw [hcounters]
    simp only [AiSubmissionQueue.at, ofNat_add, ofNat_toNat, setWidth_eq]
  · rw [hlog]
    omega
  · rw [hlog]
    omega
  · intro descriptor hactive
    obtain ⟨hreads, hlt, hspace⟩ := h.serving descriptor hactive
    rw [hlog]
    exact ⟨hreads, hlt, by omega⟩

theorem RingRun.inv (hstart : start.RingStart)
    (hrun : RingRun timing start visible consumed device) (hfew : visible < 2 ^ 32) :
    RingInv start.queue visible consumed device := by
  induction hrun with
  | start => exact hstart.inv
  | tick _ h ih =>
    exact (roundInvariant_rings hstart.reachable hfew).pumpRounds (ih hfew) h
  | doorbell budget _ h ih =>
    exact (roundInvariant_rings hstart.reachable hfew).ringDoorbell (ih hfew) h
  | submit n _ h ih => exact ((ih (by omega)).submit h).2
  | consume n _ h ih => exact (ih hfew).consume h
  | memory ram _ ih =>
    exact (ih hfew).same ⟨rfl, ⟨[], rfl, fun _ hin => (by cases hin)⟩, rfl, fun _ hdma => hdma⟩

/-- In every run with fewer than 2^32 visible records all of them are served in order. With
the record that makes them 2^32 the ring looks empty, although it is not. -/
theorem ringRun_served (hstart : start.RingStart)
    (hrun : RingRun timing start visible consumed device) (hfew : visible < 2 ^ 32) :
    device.Served start.queue visible consumed ∧
      ∀ n ≤ device.queue.submissionSize - device.submitted, 2 ^ 32 ≤ visible + n.toNat →
        (device.submit n).queue.pendingDepth ≠ (device.submit n).submitted := by
  have hinv := hrun.inv hstart hfew
  refine ⟨hinv.served hfew, fun n hfree hmany => ?_⟩
  obtain ⟨hfits, hnext⟩ := hinv.submit hfree
  have hcompleted := hinv.completed_le
  have hsize : start.queue.submissionSize.toNat < 2 ^ 32 := start.queue.submissionSize.isLt
  have hdepth : (device.submit n).queue.pendingDepth = 0 := by
    rw [hnext.counters]
    refine boundedDepth_of_wrapped ?_
    have hlog : (device.submit n).log = device.log := rfl
    simp only [AiSubmissionQueue.at, hlog, lt_def, toNat_ofNat]
    omega
  have hsubmitted : (device.submit n).submitted ≠ 0 := by
    have hlog : (device.submit n).log = device.log := rfl
    rw [hnext.submitted_eq, hlog]
    intro hzero
    have hnat := congrArg BitVec.toNat hzero
    simp only [toNat_ofNat, ofNat_eq_ofNat] at hnat
    omega
  rw [hdepth]
  exact fun heq => hsubmitted heq.symm

omit [HostFloat] in
theorem completeDescriptor_budget (hbudget : device.pendingSubmissionBudget = 0)
    (descriptor : AiSubmissionDescriptor) (fault : AiAccelFault) (detail : BitVec 32)
    (bytesMoved retiredOps : BitVec 64) :
    (device.completeDescriptor descriptor fault detail bytesMoved
      retiredOps).2.pendingSubmissionBudget = 0 := by
  unfold completeDescriptor
  by_cases hspace : device.queue.completionHasSpace = false
  · rw [if_pos hspace]
  rw [if_neg hspace]
  dsimp only
  cases device.queue.writeNextCompletion device.ram _ with
  | none => rfl
  | some ram =>
    split_ifs
    · exact hbudget
    · exact hbudget

omit [HostFloat] in
theorem beginSubmission_invalid
    (hbudget : device.pendingSubmissionBudget = 1) (hcan : device.CanComplete)
    (hread : device.queue.readNextSubmission device.ram = some descriptor)
    (hinvalid : validateDescriptor descriptor ≠ .none) :
    device.beginSubmission.1 = false ∧ device.beginSubmission.2.active = device.active ∧
      device.beginSubmission.2.pendingSubmissionBudget = 0 := by
  unfold beginSubmission
  rw [if_neg (by rw [hbudget]; decide), if_neg (by simp [hcan.1])]
  dsimp only
  rw [hread]
  dsimp only
  rw [if_pos hinvalid]
  refine ⟨rfl, (completeDescriptor_spec ..).2.1, completeDescriptor_budget ?_ ..⟩
  rw [show _ = device.pendingSubmissionBudget - 1 from rfl, hbudget]
  rfl

theorem pumpQueue_invalid
    (hbudget : device.pendingSubmissionBudget = 1) (hactive : device.active = none)
    (hdma : device.dma = none) (hdepth : device.queue.pendingDepth = 1) (hcan : device.CanComplete)
    (hread : device.queue.readNextSubmission device.ram = some descriptor)
    (hinvalid : validateDescriptor descriptor ≠ .none) :
    ∃ next, device.pumpQueue timing = .ok next ∧ next.active = none ∧
      next.pendingSubmissionBudget = 0 ∧
      completedTokens next.log = descriptor.token :: completedTokens device.log := by
  have hone : (1 : BitVec 32) ≠ 0 := by decide
  obtain ⟨hfalse, hsame, hspent⟩ := beginSubmission_invalid hbudget hcan hread hinvalid
  obtain ⟨fault, -, hlog⟩ := beginSubmission_refused hcan (hbudget ▸ hone) hread hfalse
  refine ⟨device.beginSubmission.2, ?_, hsame.trans hactive, hspent, ?_⟩
  · have htick : device.tickDma = .ok (.goesOn, device) := by
      unfold tickDma
      rw [hdma]
    have hround : device.pumpRound timing = .ok (.waits, device.beginSubmission.2) := by
      unfold pumpRound
      rw [htick]
      dsimp only
      rw [hactive]
      rw [if_neg (by rw [hbudget]; exact hone), if_neg (by rw [hdepth]; exact hone)]
      rcases hbegin : device.beginSubmission with ⟨began, next⟩
      rw [hbegin] at hfalse hspent
      obtain rfl : began = false := hfalse
      dsimp only at hspent ⊢
      rw [if_pos hspent]
    unfold pumpQueue pumpRounds
    rw [hround]
  · rw [hlog]
    rfl

variable (timing) in
theorem ringDoorbell_invalid
    (hconfigured : device.queue.configured) (hactive : device.active = none)
    (hdma : device.dma = none) (hbudget : device.pendingSubmissionBudget = 0)
    (hdepth : device.queue.pendingDepth = 1) (hcan : device.CanComplete)
    (hread : device.queue.readNextSubmission device.ram = some descriptor)
    (hinvalid : validateDescriptor descriptor ≠ .none) :
    ∃ next, device.ringDoorbell timing 0 = .ok next ∧ next.active = none ∧
      next.pendingSubmissionBudget = 0 ∧
      completedTokens next.log = descriptor.token :: completedTokens device.log := by
  have hring : device.ringDoorbell timing 0 =
      pumpQueue { device with pendingSubmissionBudget := 1 } timing := by
    unfold ringDoorbell
    rw [if_neg (by simp [hconfigured]), hdepth, hbudget]
    rfl
  have harmed : CanComplete { device with pendingSubmissionBudget := 1 } := hcan
  rw [hring]
  exact pumpQueue_invalid rfl hactive hdma hdepth harmed hread hinvalid

end

/-- Rings of one record each, over memory that is zero. -/
def unitRings : AiAccelerator where
  queue :=
    { submissionBase := 0x80000000, completionBase := 0x80001000, submissionSize := 1
      completionSize := 1, submissionHead := 0, submissionTail := 0, completionHead := 0
      completionTail := 0 }
  pad := .configure 0
  ram _ := 0

theorem unitRings_start : unitRings.RingStart where
  counters := rfl
  reachable := by
    refine ⟨by decide, fun n => ?_, fun n => ?_⟩
    · have hslot : ringSlot unitRings.queue.submissionBase unitRings.queue.submissionSize
          kAiSubmissionDescriptorBytes n = 0x80000000 := by
        simp [ringSlot, unitRings, mod_one]
      rw [hslot]
      decide
    · have hslot : ringSlot unitRings.queue.completionBase unitRings.queue.completionSize
          kAiCompletionEntryBytes n = 0x80001000 := by
        simp [ringSlot, unitRings, mod_one]
      rw [hslot]
      decide
  fresh := ⟨rfl, rfl, rfl⟩

theorem load_zero (addr : BitVec 64) (size : ℕ) : Ram.load (fun _ => 0) addr size = 0 := by
  induction size generalizing addr with
  | zero => rfl
  | succ size ih =>
    unfold Ram.load
    rw [ih]
    rfl

theorem validateDescriptor_zero (addr : BitVec 64) :
    validateDescriptor (load (fun _ => 0) addr) = .invalidDescriptor := by
  unfold validateDescriptor
  rw [if_pos]
  left
  exact load_zero _ 8

theorem unitRings_round [HostFloat] {timing : AiAcceleratorTiming} {k : ℕ} (hk : k + 1 < 2 ^ 32)
    (hrun : RingRun timing unitRings k k device) (hactive : device.active = none)
    (hbudget : device.pendingSubmissionBudget = 0)
    (hdone : (completedTokens device.log).length = k) :
    ∃ next, RingRun timing unitRings (k + 1) (k + 1) next ∧ next.active = none ∧
      next.pendingSubmissionBudget = 0 ∧ (completedTokens next.log).length = k + 1 := by
  have hcleared := hrun.memory fun _ => 0
  have hinv := hrun.inv unitRings_start (by omega)
  have hfree : (1 : BitVec 32) ≤ device.queue.submissionSize - device.submitted := by
    rw [hinv.submitted_eq, hinv.counters, hdone, Nat.sub_self]
    exact (by decide : (1 : BitVec 32) ≤ unitRings.queue.submissionSize - BitVec.ofNat 32 0)
  have hready := hcleared.submit 1 hfree
  generalize hsubmitted : ({ device with ram := fun _ => 0 } : AiAccelerator).submit 1 =
    ready at hready
  have hlog : ready.log = device.log := by rw [← hsubmitted]; rfl
  have hram : ready.ram = fun _ => 0 := by rw [← hsubmitted]; rfl
  have hinv' : RingInv unitRings.queue (k + 1) k ready := hready.inv unitRings_start hk
  have hdepth : ready.queue.pendingDepth = 1 := by
    rw [pendingDepth_eq hinv' hk, hlog, hdone, Nat.add_sub_cancel_left]
    rfl
  obtain ⟨-, hread⟩ := readNextSubmission_eq hinv' unitRings_start.reachable hk
    (by rw [hdepth]; decide)
  have hinvalid : validateDescriptor (load ready.ram
      (ringSlot unitRings.queue.submissionBase unitRings.queue.submissionSize
        kAiSubmissionDescriptorBytes (completedTokens ready.log).length)) ≠ .none := by
    rw [hram, validateDescriptor_zero]
    decide
  have hcan : ready.CanComplete := by
    have hcount : (completedTokens ready.log).length = k := hlog ▸ hdone
    constructor
    · rw [hinv'.counters, hcount]
      refine (completionHasSpace_iff unitRings_start.reachable le_rfl (by omega) (by omega)).2 ?_
      rw [Nat.sub_self]
      decide
    have haddr : ready.queue.completionRecordAddr = ringSlot unitRings.queue.completionBase
        unitRings.queue.completionSize kAiCompletionEntryBytes k := by
      rw [hinv'.counters, hcount]
      exact ringSlot_eq _ _ _ (by omega)
    rw [haddr]
    exact unitRings_start.reachable.completions k
  obtain ⟨next, hring, hnone, hspent, htokens⟩ := ringDoorbell_invalid timing
    (by rw [hinv'.counters]; rfl) (by rw [← hsubmitted]; exact hactive)
    (hinv'.idle (by rw [← hsubmitted]; exact hactive)).2 (by rw [← hsubmitted]; exact hbudget)
    hdepth hcan hread hinvalid
  have hlength : (completedTokens next.log).length = k + 1 := by
    rw [htokens, length_cons, hlog, hdone]
  have hrung := hready.doorbell 0 hring
  have hinv'' : RingInv unitRings.queue (k + 1) k next := hrung.inv unitRings_start hk
  have hunread : (1 : BitVec 32) ≤ next.unread := by
    rw [hinv''.unread_eq, hlength, Nat.add_sub_cancel_left]
    decide
  exact ⟨next.consume 1, hrung.consume 1 hunread, hnone, hspent, hlength⟩

theorem unitRings_rounds [HostFloat] (timing : AiAcceleratorTiming) {k : ℕ} (hk : k < 2 ^ 32) :
    ∃ device, RingRun timing unitRings k k device ∧ device.active = none ∧
      device.pendingSubmissionBudget = 0 ∧ (completedTokens device.log).length = k := by
  induction k with
  | zero => exact ⟨unitRings, .start, rfl, rfl, rfl⟩
  | succ k ih =>
    obtain ⟨device, hrun, hactive, hbudget, hdone⟩ := ih (lt_of_succ_lt hk)
    exact unitRings_round hk hrun hactive hbudget hdone

theorem unitRings_served : letI := HostFloat.silent
    ∃ device, RingRun unitTiming unitRings 1 1 device ∧ device.Served unitRings.queue 1 1 := by
  let _ := HostFloat.silent
  obtain ⟨device, hrun, -⟩ := unitRings_rounds unitTiming (k := 1) (by decide)
  exact ⟨device, hrun, (ringRun_served unitRings_start hrun (by decide)).1⟩

/-- After 2^32 - 1 rounds one more record is visible, and the ring looks empty. -/
theorem unitRings_wraps :
    letI := HostFloat.silent
    unitRings.RingStart ∧ ∃ visible consumed device,
      RingRun unitTiming unitRings visible consumed device ∧ device.submitted = 1 ∧
        device.queue.pendingDepth = 0 := by
  let _ := HostFloat.silent
  obtain ⟨k, hk⟩ : ∃ k, k + 1 = 2 ^ 32 := ⟨2 ^ 32 - 1, Nat.sub_add_cancel Nat.one_le_two_pow⟩
  have hlt : k < 2 ^ 32 := by omega
  obtain ⟨device, hrun, -, -, hdone⟩ := unitRings_rounds unitTiming hlt
  have hinv := hrun.inv unitRings_start hlt
  have hfree : (1 : BitVec 32) ≤ device.queue.submissionSize - device.submitted := by
    rw [hinv.submitted_eq, hinv.counters, hdone, Nat.sub_self]
    exact (by decide : (1 : BitVec 32) ≤ unitRings.queue.submissionSize - BitVec.ofNat 32 0)
  obtain ⟨-, hlast⟩ := hinv.submit hfree
  have hlog : (device.submit 1).log = device.log := rfl
  refine ⟨unitRings_start, _, _, _, hrun.submit 1 hfree, ?_, ?_⟩
  · rw [hlast.submitted_eq, hlog, hdone, Nat.add_sub_cancel_left]
    rfl
  rw [hlast.counters]
  refine boundedDepth_of_wrapped ?_
  have hone : (1 : BitVec 32).toNat = 1 := rfl
  simp only [AiSubmissionQueue.at, hlog, hdone, hone, lt_def, toNat_ofNat]
  omega

end AiAccelerator

end VisualCpu
