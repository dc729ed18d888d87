import VisualCpu.Pipeline.Flight

/-!
# A cycle of the instructions in flight

Each point of a cycle has its invariant: the instructions in flight, the loads in the
queue, and how many completed entries can stand before the slot in the memory stage.
The last part is a matter of timing. One entry commits in every cycle that has a ready
head, so when the delay of a load is over, everything before it has committed.
-/

namespace VisualCpu

open List LoadStoreQueue Option

/-- The loads in the queue are older than the slots before the memory stage, and none
has to be replayed. -/
structure QueueFlight (s : PipelineState) (ex fetched : Option StageSlot) : Prop where
  next_pos : 0 < s.lsq.nextIndex
  index_lt : ∀ entry ∈ s.lsq.entries, 0 < entry.index ∧ entry.index < s.lsq.nextIndex
  loads : ∀ entry ∈ s.lsq.entries, entry.kind = .load →
    entry.loadState ≠ .replayRequired ∧ entry.sequenceId ≤ s.lastSequenceId ∧
      (∀ slot ∈ ex, entry.sequenceId < slot.sequenceId) ∧
      ∀ slot ∈ fetched, entry.sequenceId < slot.sequenceId
  held : ∀ slot ∈ ex, ∀ entry ∈ s.lsq.entries, entry.index = slot.lsqIndex →
    entry.sequenceId = slot.sequenceId

namespace QueueFlight

variable {s s' : PipelineState} {ex fetched : Option StageSlot}

theorem empty (hpos : 0 < s.lsq.nextIndex) (hentries : s.lsq.entries = []) :
    QueueFlight s ex fetched := by
  constructor <;> simp [hentries, hpos]

section

variable (h : QueueFlight s ex fetched)

include h

theorem inherit (hlsq : LoadStoreQueue.Inherits s.lsq s'.lsq)
    (hlast : s'.lastSequenceId = s.lastSequenceId) : QueueFlight s' ex fetched := by
  obtain ⟨hnext, hinherits⟩ := hlsq
  constructor
  · exact h.next_pos.trans_le hnext
  · intro entry hentry
    obtain ⟨old, hold, hsame⟩ := hinherits entry hentry
    have hlt := h.index_lt old hold
    rw [hsame.index]
    omega
  · intro entry hentry hkind
    obtain ⟨old, hold, hsame⟩ := hinherits entry hentry
    rw [hsame.loadState, hsame.sequenceId, hlast]
    exact h.loads old hold (hsame.kind.symm.trans hkind)
  · intro slot hslot entry hentry hindex
    obtain ⟨old, hold, hsame⟩ := hinherits entry hentry
    rw [hsame.sequenceId]
    exact h.held slot hslot old hold (hsame.index.symm.trans hindex)

theorem mono {ex' fetched' : Option StageSlot}
    (hex : ∀ slot ∈ ex', slot ∈ ex) (hfetched : ∀ slot ∈ fetched', slot ∈ fetched) :
    QueueFlight s ex' fetched' := by
  refine ⟨h.next_pos, h.index_lt, fun entry hentry hkind => ?_, fun slot hslot =>
    h.held slot (hex slot hslot)⟩
  obtain ⟨hreplay, hle, hbelow, hbelow'⟩ := h.loads entry hentry hkind
  exact ⟨hreplay, hle, fun slot hslot => hbelow slot (hex slot hslot),
    fun slot hslot => hbelow' slot (hfetched slot hslot)⟩

theorem no_replay : s.lsq.activeReplay.replayRequired = false := by
  unfold activeReplay
  cases hfind : s.lsq.entries.find? fun entry =>
      entry.kind == .load && entry.loadState == .replayRequired with
  | none => rfl
  | some entry =>
    have hmem := List.mem_of_find?_eq_some hfind
    have hprop := List.find?_some hfind
    rw [Bool.and_eq_true, beq_iff_eq, beq_iff_eq] at hprop
    exact absurd hprop.2 (h.loads entry hmem hprop.1).1

end

theorem resolve {slot : StageSlot} (h : QueueFlight s (some slot) fetched) (addr : BitVec 64)
    (info : LsqAddressInfo) :
    LoadStoreQueue.Inherits s.lsq (s.lsq.markAddressReady slot.lsqIndex addr info) := by
  apply inherits_markAddressReady
  intro entry hentry hindex e he hkind
  rw [h.held slot rfl entry hentry hindex]
  exact ((h.loads e he hkind).2.2.1 slot rfl).le

theorem enqueue (h : QueueFlight s ex fetched) (entry : LsqEntry)
    (hindex : entry.index = s.lsq.nextIndex)
    (hlsq : s'.lsq = ⟨s.lsq.entries ++ [entry], s.lsq.nextIndex + 1⟩)
    (hlast : s'.lastSequenceId = s.lastSequenceId)
    (hload : entry.kind = .load → entry.loadState ≠ .replayRequired ∧
      entry.sequenceId ≤ s.lastSequenceId)
    {ex' fetched' : Option StageSlot}
    (hbelow : ∀ e ∈ s'.lsq.entries, e.kind = .load →
      (∀ slot ∈ ex', e.sequenceId < slot.sequenceId) ∧
      ∀ slot ∈ fetched', e.sequenceId < slot.sequenceId)
    (hheld : ∀ slot ∈ ex', ∀ e ∈ s'.lsq.entries, e.index = slot.lsqIndex →
      e.sequenceId = slot.sequenceId) : QueueFlight s' ex' fetched' := by
  have hmem : ∀ e ∈ s'.lsq.entries, e ∈ s.lsq.entries ∨ e = entry := by
    intro e he
    rw [hlsq] at he
    simpa using he
  have hnext : s'.lsq.nextIndex = s.lsq.nextIndex + 1 := by rw [hlsq]
  have hpos := h.next_pos
  refine ⟨by omega, fun e he => ?_, fun e he hkind => ?_, hheld⟩
  · rw [hnext]
    rcases hmem e he with hold | rfl
    · have := h.index_lt e hold
      omega
    · omega
  · obtain ⟨hex, hfetched⟩ := hbelow e he hkind
    rw [hlast]
    rcases hmem e he with hold | rfl
    · obtain ⟨hreplay, hle, -⟩ := h.loads e hold hkind
      exact ⟨hreplay, hle, hex, hfetched⟩
    · exact ⟨(hload hkind).1, (hload hkind).2, hex, hfetched⟩

end QueueFlight

/-- The latches of the next cycle are empty. -/
structure NextEmpty (s : PipelineState) : Prop where
  ifId : s.nextIfId = none
  idEx : s.nextIdEx = none
  exMem : s.nextExMem = none
  memWb : s.nextMemWb = none
  redirect : s.redirectPending = false

/-- How many completed entries can stand around the memory stage between two cycles. -/
def BoundaryTiming (mem : Option StageSlot) (remaining : ℕ) (ahead between : List RobEntry) :
    Prop :=
  match mem with
  | none => ahead.length ≤ 3
  | some slot =>
    (remaining = 1 ∧ ahead.length ≤ 2 ∧ between = []) ∨
      (remaining = 0 ∧ ahead.length + between.length ≤ 2 ∧ between.length ≤ 1 ∧
        (slot.effects.mem.kind = .load → ahead.length ≤ 1))

/-- The same after writeback. A load whose delay is over is the head now. -/
def CommittedTiming (mem : Option StageSlot) (remaining : ℕ) (ahead between : List RobEntry) :
    Prop :=
  match mem with
  | none => ahead.length ≤ 2
  | some slot =>
    (remaining = 1 ∧ ahead.length ≤ 1 ∧ between = []) ∨
      (remaining = 0 ∧ ahead.length + between.length ≤ 1 ∧
        (slot.effects.mem.kind = .load → ahead = []))

variable {ahead between : List RobEntry} {mem : Option StageSlot}

theorem BoundaryTiming.pop {remaining : ℕ} {head : RobEntry}
    (h : BoundaryTiming mem remaining (head :: ahead) between) :
    CommittedTiming mem remaining ahead between := by
  cases mem with
  | none =>
    simp only [BoundaryTiming, CommittedTiming, length_cons] at h ⊢
    omega
  | some slot =>
    simp only [BoundaryTiming, CommittedTiming, length_cons] at h ⊢
    rcases h with ⟨hrem, hahead, hbetween⟩ | ⟨hrem, hsum, hbetween, hload⟩
    · exact .inl ⟨hrem, by omega, hbetween⟩
    refine .inr ⟨hrem, by omega, fun hkind => ?_⟩
    have := hload hkind
    exact length_eq_zero_iff.1 (by omega)

theorem BoundaryTiming.idle {remaining : ℕ} {between : List RobEntry}
    (h : BoundaryTiming mem remaining [] between) : CommittedTiming mem remaining [] between := by
  cases mem with
  | none => exact Nat.zero_le _
  | some slot =>
    rcases h with ⟨hrem, -, hbetween⟩ | ⟨hrem, -, hbetween, -⟩
    · exact .inl ⟨hrem, Nat.zero_le _, hbetween⟩
    · exact .inr ⟨hrem, by simpa using hbetween, fun _ => rfl⟩

/-- Between two cycles, and up to writeback. -/
structure AtWriteback (s : PipelineState) (ahead between : List RobEntry) : Prop where
  flight : Flight s s.exMem s.idEx s.ifId ahead between
  queue : QueueFlight s s.idEx s.ifId
  timing : BoundaryTiming s.exMem s.exMemCyclesRemaining ahead between

/-- Before the memory stage. -/
structure AtMemory (s : PipelineState) (ahead between : List RobEntry) : Prop where
  flight : Flight s s.exMem s.idEx s.ifId ahead between
  queue : QueueFlight s s.idEx s.ifId
  timing : CommittedTiming s.exMem s.exMemCyclesRemaining ahead between
  next : NextEmpty s

/-- Before the execute stage. A slot that stays in the memory stage has waited. -/
structure AtExecute (s : PipelineState) (ahead between : List RobEntry) : Prop where
  flight : Flight s s.nextExMem s.idEx s.ifId ahead between
  queue : QueueFlight s s.idEx s.ifId
  free : s.nextExMem = none → ahead.length ≤ 2
  waited : s.nextExMem ≠ none → s.nextExMemCyclesRemaining = 0 ∧ ahead.length ≤ 1 ∧ between = []
  ifId : s.nextIfId = none
  idEx : s.nextIdEx = none
  redirect : s.redirectPending = false

def decodable (s : PipelineState) : Option StageSlot := if s.redirectPending then none else s.ifId

/-- Before the decode stage. -/
structure AtDecode (s : PipelineState) (ahead between : List RobEntry) : Prop where
  flight : Flight s s.nextExMem s.nextIdEx (decodable s) ahead between
  queue : QueueFlight s s.nextIdEx (decodable s)
  timing : BoundaryTiming s.nextExMem s.nextExMemCyclesRemaining ahead between

theorem AtDecode.slots_fetched {s : PipelineState}
    (h : AtDecode s ahead between) (hredirect : s.redirectPending = false) :
    ∀ slot ∈ s.ifId, slot.Fetched := by
  intro slot hslot
  exact h.flight.fetched slot (by simp [decodable, hredirect, hslot])

/-- Before the fetch stage, and at the end of the cycle. -/
structure AtFetch (s : PipelineState) (ahead between : List RobEntry) : Prop where
  flight : Flight s s.nextExMem s.nextIdEx s.nextIfId ahead between
  queue : QueueFlight s s.nextIdEx s.nextIfId
  timing : BoundaryTiming s.nextExMem s.nextExMemCyclesRemaining ahead between

namespace Pipeline

variable {D : Type} [Devices D] {p : Pipeline D} {ahead between : List RobEntry}

omit [Devices D] in
theorem squash_atMemory (hpos : 0 < p.state.lsq.nextIndex) : AtMemory p.squash.state [] [] where
  flight := .empty rfl
  queue := .empty hpos rfl
  timing := Nat.zero_le _
  next := ⟨rfl, rfl, rfl, rfl, rfl⟩

variable {head : RobEntry}

theorem afterCommit_atMemory (h : AtWriteback p.state (head :: ahead) between)
    (hnext : NextEmpty p.state) (hretired : (p.commitResult head).retired) :
    AtMemory (p.afterCommit head).state ahead between where
  flight := h.flight.pop (by simp [afterCommit, hretired]) rfl
  queue := by
    refine h.queue.inherit ?_ rfl
    simp only [afterCommit, hretired, if_true, retiredLsq]
    split_ifs
    · exact inherits_retireEntry
    · exact .refl _
  timing := h.timing.pop
  next := ⟨hnext.ifId, hnext.idEx, hnext.exMem, hnext.memWb, hnext.redirect⟩

theorem commitResult_cases (head : RobEntry) : (p.commitResult head).Trapped ∨
      (p.commitResult head).Finished (commitEffects head.effects) :=
  p.cpu.applyCommitBoundary_result _

theorem commitResult_of_trap {trap : TrapRequest}
    (h : head.effects.trap = some trap) : (p.commitResult head).Trapped := by
  have hboundary : p.commitResult head = (p.cpu.trapResult head.pc trap false).1 := by
    have htrap : (commitEffects head.effects).trap = some trap := h
    unfold commitResult commitCpu Cpu.applyCommitBoundary
    simp only [htrap]
  rw [hboundary]
  exact p.cpu.trapResult_trapped _ _ _

theorem commit_retires (hcompleted : CompletedEntry head)
    (h : (p.commitResult head).trapTaken = false) : (p.commitResult head).retired := by
  have htrap : head.effects.trap = none := by
    by_contra hsome
    obtain ⟨trap, htrap⟩ := ne_none_iff_exists'.1 hsome
    rw [(commitResult_of_trap htrap).trapTaken] at h
    cases h
  rcases p.commitResult_cases head with htrapped | hfinished
  · rw [htrapped.trapTaken] at h
    cases h
  rw [hfinished.retired]
  exact hcompleted.retired htrap

theorem commit_of_noFlush (hcompleted : CompletedEntry head)
    (hflush : (p.commitResult head).trapFlush = false) :
    (p.commitResult head).retired ∧ (p.commitResult head).trapTaken = false ∧
      head.effects.trap = none := by
  have htaken : (p.commitResult head).trapTaken = false := by
    rcases p.commitResult_cases head with htrapped | hfinished
    · rw [htrapped.trapFlush] at hflush
      cases hflush
    · exact hfinished.trapTaken
  refine ⟨commit_retires hcompleted htaken, htaken, ?_⟩
  by_contra hsome
  obtain ⟨trap, htrap⟩ := ne_none_iff_exists'.1 hsome
  rw [(commitResult_of_trap htrap).trapTaken] at htaken
  cases htaken

theorem stepWb_atMemory (h : AtWriteback p.state ahead between) (hnext : NextEmpty p.state) :
    ∃ ahead' between', AtMemory p.stepWb.2.state ahead' between' := by
  cases p.stepWb_cases with
  | idle hidle heq =>
    rw [heq]
    obtain rfl := h.flight.ahead_nil hidle
    exact ⟨[], between, h.flight, h.queue, h.timing.idle, hnext⟩
  | commit head rest hentries hready heq =>
    obtain ⟨ahead', rfl, -⟩ := h.flight.head_ready hentries hready
    rw [heq, commitReadyHead_eq]
    cases hflush : (p.commitResult head).trapFlush with
    | true =>
      refine ⟨[], [], squash_atMemory ?_⟩
      have hpos := h.queue.next_pos
      simp only [afterCommit, retiredLsq]
      split_ifs
      · exact hpos.trans_le inherits_retireEntry.1
      · exact hpos
      · exact hpos
    | false =>
      have hretired := (commit_of_noFlush (h.flight.completed head (by simp)) hflush).1
      exact ⟨ahead', between, afterCommit_atMemory h hnext hretired⟩

theorem deliverPending_atMemory (h : AtMemory p.state ahead between) :
    ∃ ahead' between', AtMemory p.deliverPending.state ahead' between' := by
  cases p.deliverPending_cases with
  | fault pending hpending hcommitted hdrained heq =>
    rw [heq]
    have hqueue : QueueFlight p.state none none := h.queue.mono (by simp) (by simp)
    exact ⟨[], [], .empty hdrained.rob, hqueue.inherit (.refl _) rfl, Nat.zero_le _,
      ⟨rfl, rfl, rfl, rfl, rfl⟩⟩
  | interrupt cpu hmay hservice heq =>
    rw [heq]
    exact ⟨[], [], squash_atMemory h.queue.next_pos⟩
  | nothing heq =>
    rw [heq]
    exact ⟨ahead, between, h⟩

theorem stepMem_atExecute (h : AtMemory p.state ahead between) :
    ∃ ahead' between', AtExecute p.stepMem.state ahead' between' := by
  have hissued : ∀ slot ∈ p.state.exMem, slot.effects.trap = none := fun slot hslot =>
    (h.flight.issued slot hslot).trap
  rcases p.stepMem_cases hissued with ⟨hnone, heq⟩ | ⟨slot, hslot, hrem, heq⟩ |
    ⟨slot, hslot, hrem, heq⟩
  · rw [heq]
    have hflight := h.flight
    have htiming := h.timing
    rw [hnone] at hflight htiming
    rw [← h.next.exMem] at hflight
    exact ⟨ahead, between, hflight, h.queue, fun _ => htiming,
      fun hsome => absurd h.next.exMem hsome,
      h.next.ifId, h.next.idEx, h.next.redirect⟩
  · rw [heq]
    have hflight := h.flight
    have htiming := h.timing
    rw [hslot] at hflight htiming
    rcases htiming with ⟨hone, hahead, hbetween⟩ | ⟨hzero, -⟩
    · refine ⟨ahead, between, hflight.congr rfl rfl, h.queue.inherit (.refl _) rfl, ?_,
        fun _ => ⟨?_, hahead, hbetween⟩,
        h.next.ifId, h.next.idEx, h.next.redirect⟩
      · intro hnone
        cases hnone
      change p.state.exMemCyclesRemaining - 1 = 0
      omega
    · exact absurd hzero hrem
  · rw [heq]
    have hflight := h.flight
    have htiming := h.timing
    rw [hslot] at hflight htiming
    rcases htiming with ⟨hone, -⟩ | ⟨-, hsum, -⟩
    · omega
    have hdone : Flight (p.afterAccess slot (p.memOutcome slot)).state none _ _ _ _ :=
      hflight.completeMem (p.memOutcome_completes slot) rfl rfl
    rw [← h.next.exMem] at hdone
    refine ⟨_, [], hdone, h.queue.inherit (p.memOutcome_inherits slot) rfl, ?_, ?_, h.next.ifId,
      h.next.idEx, h.next.redirect⟩
    · intro _
      simp only [length_append, length_cons]
      omega
    · exact fun hsome => absurd h.next.exMem hsome

section Execute

variable [Fpu]

variable {slot : StageSlot} {effects : InsnEffects}

omit [Devices D] [Fpu] in
theorem afterExecution_timing (h : AtExecute p.state ahead between)
    (hslot : p.state.idEx = some slot)
    (hshape : EffectShape (decode slot.raw) effects) (hkind : effects.mem.kind = .none)
    {s' : PipelineState} (hrob : s'.rob = (p.afterExecution slot effects).state.rob)
    (hlast : s'.lastSequenceId = p.state.lastSequenceId) :
    ∃ ahead' between', Flight s' p.state.nextExMem none p.state.ifId ahead' between' ∧
      BoundaryTiming p.state.nextExMem p.state.nextExMemCyclesRemaining ahead' between' := by
  have hflight := h.flight
  rw [hslot] at hflight
  cases hmem : p.state.nextExMem with
  | none =>
    rw [hmem] at hflight
    refine ⟨_, _, hflight.completeEx_ahead hshape hkind hrob hlast, ?_⟩
    have hfree := h.free hmem
    simp only [BoundaryTiming, length_append, length_singleton]
    omega
  | some memSlot =>
    rw [hmem] at hflight
    obtain ⟨hrem, hahead, rfl⟩ := h.waited (by simp [hmem])
    refine ⟨_, _, hflight.completeEx_between hshape hkind hrob hlast, .inr ⟨hrem, ?_, ?_, ?_⟩⟩
    · simp only [nil_append, length_singleton]
      omega
    · simp
    · exact fun _ => hahead

omit [Devices D] [Fpu] in
theorem issued_atDecode (h : AtExecute p.state ahead between)
    (hslot : p.state.idEx = some slot) (hbusy : p.memoryPathBusy = false)
    (hshape : EffectShape (decode slot.raw) effects) (hkind : effects.mem.kind ≠ .none)
    {info : LsqAddressInfo} {cpu : Cpu D} {lsqIndex : ℕ} {lsq : LoadStoreQueue}
    (hhead : effects.mem.kind = .load → info.isKnownRam ∨ p.state.rob.isHead slot.robIndex)
    (hqueue : QueueFlight (p.issued slot effects info cpu lsqIndex lsq).state none p.state.ifId) :
    AtDecode (p.issued slot effects info cpu lsqIndex lsq).state ahead [] := by
  have hmem : p.state.nextExMem = none := by
    simp only [memoryPathBusy, Bool.or_eq_false_iff, isSome_eq_false_iff,
      isNone_iff_eq_none] at hbusy
    exact hbusy.2
  have hflight := h.flight
  rw [hslot, hmem] at hflight
  have hfree := h.free hmem
  have hdecoded := h.flight.decoded slot hslot
  have hdecodable : decodable (p.issued slot effects info cpu lsqIndex lsq).state =
    p.state.ifId := by
    simp [decodable, issued, h.redirect]
  have hex : (p.issued slot effects info cpu lsqIndex lsq).state.nextIdEx = none := h.idEx
  rw [← hdecodable, ← hex] at hqueue
  refine ⟨?_, hqueue, ?_⟩
  · rw [hdecodable, hex]
    exact hflight.issue rfl
      ⟨⟨hdecoded.insn, hdecoded.insnSize, hdecoded.noRd⟩, hshape, hkind⟩ rfl rfl
  change BoundaryTiming (some _) (if info.needsMemoryIssueDelay then 1 else 0) ahead []
  split_ifs with hdelay
  · exact .inl ⟨rfl, hfree, rfl⟩
  refine .inr ⟨rfl, by simpa using hfree, by simp, fun hload => ?_⟩
  -- without a delay the access is known to reach a device, so the load is the head
  have hnotRam : info.isKnownRam = false := by
    simp only [LsqAddressInfo.needsMemoryIssueDelay, Bool.or_eq_true, not_or,
      Bool.not_eq_true] at hdelay
    exact hdelay.1
  rcases hhead hload with hram | hishead
  · rw [hnotRam] at hram
    cases hram
  cases ahead with
  | nil => exact Nat.zero_le _
  | cons first rest =>
    have hnil := hflight.between_nil rfl
    have hentries : p.state.rob.entries = first :: (rest ++ [slot.pendingEntry]) := by
      simpa [hnil] using hflight.entries
    have hindex : first.index = slot.robIndex := by
      simpa [ReorderBuffer.isHead_cons hentries] using hishead
    have hsplit : p.state.rob.entries = (first :: rest) ++ slot.pendingEntry :: [] := by
      simpa using hentries
    exact absurd hindex (hflight.index_ne hsplit first (by simp))

omit [Fpu] in
theorem issuedLoad_queue {mem fetched : Option StageSlot}
    (hflight : Flight p.state mem (some slot) fetched ahead between)
    (hqueue : QueueFlight p.state (some slot) fetched) (effects : InsnEffects) :
    QueueFlight (p.issuedLoad slot effects).state none fetched := by
  have hlast := hflight.ex_le_last
  have hbelow : ∀ next ∈ fetched, slot.sequenceId < next.sequenceId := by
    rintro next rfl
    exact hflight.ex_lt_fetched
  unfold issuedLoad
  rcases p.accessInfo effects .load with ⟨info, cpu⟩
  by_cases hzero : slot.lsqIndex = 0
  · -- the load gets an entry, which is younger than every load in the queue
    have hnew : p.loadQueue slot effects = p.state.lsq.enqueueLoad slot.sequenceId effects.mem.rd
        effects.mem.size effects.mem.signExtend effects.mem.nonSpeculative := if_pos hzero
    rw [hnew]
    let entry : LsqEntry :=
      { index := p.state.lsq.nextIndex
        kind := .load
        sequenceId := slot.sequenceId
        rd := effects.mem.rd
        size := effects.mem.size
        signExtend := effects.mem.signExtend
        nonSpeculative := effects.mem.nonSpeculative }
    let lsq : LoadStoreQueue := ⟨p.state.lsq.entries ++ [entry], p.state.lsq.nextIndex + 1⟩
    have hmem : ∀ e ∈ lsq.entries, e ∈ p.state.lsq.entries ∨
        e.sequenceId = slot.sequenceId ∧ e.index = p.state.lsq.nextIndex := by
      intro e he
      rcases mem_append.1 he with hold | hone
      · exact .inl hold
      obtain rfl := mem_singleton.1 hone
      exact .inr ⟨rfl, rfl⟩
    have hentered : QueueFlight { p.state with lsq } none fetched := by
      apply hqueue.enqueue entry
      · rfl
      · rfl
      · rfl
      · exact fun _ => ⟨by simp [entry], hlast⟩
      · intro e he hkind
        refine ⟨by simp, fun next hnext => ?_⟩
        rcases hmem e he with hold | ⟨hid, -⟩
        · exact (hqueue.loads e hold hkind).2.2.2 next hnext
        rw [hid]
        exact hbelow next hnext
      · simp
    refine hentered.inherit (inherits_markAddressReady _ _ ?_) rfl
    intro entry hentry hindex e he hkind
    have hid : entry.sequenceId = slot.sequenceId := by
      rcases hmem entry hentry with hold | ⟨hid, -⟩
      · have := (hqueue.index_lt entry hold).2
        have hnext : entry.index = p.state.lsq.nextIndex := hindex
        omega
      · exact hid
    rw [hid]
    rcases hmem e he with hold | ⟨hid', -⟩
    · exact ((hqueue.loads e hold hkind).2.2.1 slot rfl).le
    · exact hid'.le
  · have hsame : p.loadQueue slot effects = (slot.lsqIndex, p.state.lsq) := if_neg hzero
    rw [hsame]
    have hrest : QueueFlight p.state none fetched := hqueue.mono (by simp) (fun _ h => h)
    exact hrest.inherit (hqueue.resolve _ _) rfl

omit [Fpu] in
theorem issuedStore_queue {fetched : Option StageSlot}
    (hqueue : QueueFlight p.state (some slot) fetched) (effects : InsnEffects) :
    QueueFlight (p.issuedStore slot effects).state none fetched := by
  have hrest : QueueFlight p.state none fetched := hqueue.mono (by simp) (fun _ h => h)
  refine hrest.inherit ?_ rfl
  unfold issuedStore issued
  split_ifs
  · exact (hqueue.resolve _ _).trans (inherits_markDataReady _)
  · exact .refl _

theorem stepEx_atDecode (h : AtExecute p.state ahead between) :
    ∃ ahead' between', AtDecode p.stepEx.state ahead' between' := by
  have hredirect := h.redirect
  have htiming : BoundaryTiming p.state.nextExMem p.state.nextExMemCyclesRemaining ahead
    between := by
    cases hmem : p.state.nextExMem with
    | none => exact (h.free hmem).trans (by omega)
    | some slot =>
      obtain ⟨hrem, hahead, rfl⟩ := h.waited (by simp [hmem])
      exact .inr ⟨hrem, by simpa using hahead.trans (by omega), by simp, fun _ => hahead⟩
  have hdecodable : decodable p.state = p.state.ifId := by simp [decodable, hredirect]
  have hheld : ∀ (cpu : Cpu D) (slot : StageSlot), p.state.idEx = some slot →
      AtDecode (({ p with cpu } : Pipeline D).holdInEx slot).state ahead between := by
    intro cpu slot hslot
    have hflight := h.flight
    have hqueue := h.queue
    rw [hslot] at hflight hqueue
    have hfetched : decodable (({ p with cpu } : Pipeline D).holdInEx slot).state = p.state.ifId :=
      hdecodable
    refine ⟨?_, ?_, htiming⟩
    · rw [hfetched]
      exact hflight.congr rfl rfl
    rw [hfetched]
    exact hqueue.inherit (.refl _) rfl
  rcases p.stepEx_cases with ⟨hnone, heq⟩ | ⟨slot, hslot, -, heq⟩ | ⟨slot, hslot, -, heq⟩
  · rw [heq]
    have hflight := h.flight
    have hqueue := h.queue
    rw [hnone] at hflight hqueue
    refine ⟨ahead, between, ?_, ?_, htiming⟩
    · rw [hdecodable, h.idEx]
      exact hflight
    rw [hdecodable, h.idEx]
    exact hqueue
  · rw [heq]
    exact ⟨ahead, between, hheld p.cpu slot hslot⟩
  · rw [heq]
    have hqueue := h.queue
    rw [hslot] at hqueue
    have hdecoded := h.flight.decoded slot hslot
    have hshape := p.slotEffects_shape slot (p.olderVectorDependency slot)
    rw [hdecoded.insn] at hshape
    have hempty : QueueFlight p.state none p.state.ifId := hqueue.mono (by simp) (by simp)
    cases p.executeSlot_cases slot (p.olderVectorDependency slot) with
    | done predictor hkind hpredicted heq =>
      rw [heq]
      obtain ⟨ahead', between', hflight, htiming'⟩ :=
        afterExecution_timing h hslot hshape hkind rfl rfl
      rw [← h.idEx, ← hdecodable] at hflight hempty
      exact ⟨ahead', between', hflight, hempty.inherit (.refl _) rfl, htiming'⟩
    | redirect predictor hkind hpredicted heq =>
      rw [heq]
      obtain ⟨ahead', between', hflight, htiming'⟩ :=
        afterExecution_timing h hslot hshape hkind rfl rfl
      have hrest : QueueFlight p.state none none := hempty.mono (by simp) (by simp)
      exact ⟨ahead', between', hflight.dropFetched.congr rfl rfl, hrest.inherit (.refl _) rfl,
        htiming'⟩
    | held cpu hregs hkind htrap heq =>
      rw [heq]
      exact ⟨ahead, between, hheld cpu slot hslot⟩
    | load hkind htrap hbusy hhead heq =>
      rw [heq]
      have hflight := h.flight
      rw [hslot] at hflight
      exact ⟨ahead, [], issued_atDecode h hslot hbusy hshape (by simp [hkind]) (fun _ => hhead)
        (issuedLoad_queue hflight hqueue _)⟩
    | store hkind htrap hbusy heq =>
      rw [heq]
      exact ⟨ahead, [], issued_atDecode h hslot hbusy hshape (by simp [hkind]) (by simp [hkind])
        (issuedStore_queue hqueue _)⟩

end Execute

omit [Devices D] in
theorem dispatchedSlot_decoded (fetched : StageSlot) : (p.dispatchedSlot fetched).Decoded where
  insn := rfl
  insnSize := rfl
  noRd := by
    intro hrd
    have hinsn : (decodeSlot p.state.renameMap fetched).insn = decode fetched.raw := rfl
    have hraw : (p.dispatchedSlot fetched).raw = fetched.raw := rfl
    rw [hraw] at hrd
    simp [dispatchedSlot, hinsn, hrd]

omit [Devices D] in
theorem dispatched_queue {fetched : StageSlot} (h : QueueFlight p.state none (some fetched)) :
    QueueFlight (p.dispatched fetched).state (some (p.dispatchedSlot fetched)) none := by
  have hbelow : ∀ e ∈ p.state.lsq.entries, e.kind = .load →
      e.sequenceId < (p.dispatchedSlot fetched).sequenceId := fun e he hkind =>
    (h.loads e he hkind).2.2.2 fetched rfl
  by_cases hstore : (describeMemory (decode fetched.raw)).valid ∧
      (describeMemory (decode fetched.raw)).kind = .store
  · have hlsq : (p.dispatched fetched).state.lsq = (p.state.lsq.enqueueStore fetched.sequenceId
        (describeMemory (decode fetched.raw)).size
        (describeMemory (decode fetched.raw)).nonSpeculative).2 := if_pos hstore
    have hindex : (p.dispatchedSlot fetched).lsqIndex = p.state.lsq.nextIndex := if_pos hstore
    let entry : LsqEntry :=
      { index := p.state.lsq.nextIndex
        kind := .store
        sequenceId := fetched.sequenceId
        size := (describeMemory (decode fetched.raw)).size
        nonSpeculative := (describeMemory (decode fetched.raw)).nonSpeculative }
    have hmem : ∀ e ∈ (p.dispatched fetched).state.lsq.entries,
        e ∈ p.state.lsq.entries ∨ e = entry := by
      intro e he
      rw [hlsq] at he
      rcases mem_append.1 he with hold | hone
      · exact .inl hold
      · exact .inr (mem_singleton.1 hone)
    apply h.enqueue entry
    · rfl
    · exact hlsq
    · rfl
    · intro hkind
      cases hkind
    · intro e he hkind
      rcases hmem e he with hold | rfl
      · refine ⟨?_, by simp⟩
        intro slot hslot
        rw [← mem_some_iff.1 hslot]
        exact hbelow e hold hkind
      · cases hkind
    · intro slot hslot e he hheld
      rw [← mem_some_iff.1 hslot] at hheld ⊢
      rcases hmem e he with hold | rfl
      · have := (h.index_lt e hold).2
        rw [hindex] at hheld
        omega
      · rfl
  · have hlsq : (p.dispatched fetched).state.lsq = p.state.lsq := if_neg hstore
    have hindex : (p.dispatchedSlot fetched).lsqIndex = 0 := if_neg hstore
    refine ⟨?_, ?_, ?_, ?_⟩
    · rw [hlsq]
      exact h.next_pos
    · rw [hlsq]
      exact h.index_lt
    · rw [hlsq]
      intro e he hkind
      obtain ⟨hreplay, hle, -, -⟩ := h.loads e he hkind
      refine ⟨hreplay, hle, ?_, by simp⟩
      intro slot hslot
      rw [← mem_some_iff.1 hslot]
      exact hbelow e he hkind
    · rw [hlsq]
      intro slot hslot e he hheld
      rw [← mem_some_iff.1 hslot, hindex] at hheld
      have := (h.index_lt e he).1
      omega

theorem stepId_atFetch (h : AtDecode p.state ahead between) :
    AtFetch p.stepId.state ahead between := by
  cases p.stepId_cases h.slots_fetched with
  | dropped hredirect heq =>
    have hnone : decodable p.state = none := by simp [decodable, hredirect]
    have hflight := h.flight
    have hqueue := h.queue
    rw [hnone] at hflight hqueue
    rw [heq]
    exact ⟨hflight.congr rfl rfl, hqueue.inherit (.refl _) rfl, h.timing⟩
  | waits cpu hregs hredirect heq =>
    have hsome : decodable p.state = p.state.ifId := by simp [decodable, hredirect]
    have hflight := h.flight
    have hqueue := h.queue
    rw [hsome] at hflight hqueue
    rw [heq]
    exact ⟨hflight.congr rfl rfl, hqueue.inherit (.refl _) rfl, h.timing⟩
  | dispatch fetched hslot hfree hredirect hready heq =>
    have hsome : decodable p.state = some fetched := by simp [decodable, hredirect, hslot]
    have hflight := h.flight
    have hqueue := h.queue
    rw [hsome, hfree] at hflight hqueue
    rw [heq]
    refine ⟨?_, dispatched_queue (hqueue.inherit (.refl _) rfl), h.timing⟩
    exact hflight.dispatch (dispatchedSlot_decoded fetched) rfl rfl rfl rfl

theorem stepIf_atFetch (h : AtFetch p.state ahead between) :
    AtFetch p.stepIf.state ahead between := by
  cases p.stepIf_cases with
  | idle hidle heq =>
    rw [heq]
    exact h
  | fault fault cpu hempty hnofault hfetch heq =>
    rw [heq]
    exact ⟨h.flight.congr rfl rfl, h.queue.inherit (.refl _) rfl, h.timing⟩
  | fetched raw cpu hempty hnofault hfetch heq =>
    have hflight := h.flight
    have hqueue := h.queue
    rw [hempty] at hflight hqueue
    rw [heq]
    refine ⟨hflight.fetch ⟨_, _, _, _, rfl⟩ rfl rfl rfl, ?_, h.timing⟩
    refine ⟨hqueue.next_pos, hqueue.index_lt, fun entry hentry hkind => ?_, hqueue.held⟩
    obtain ⟨hreplay, hle, hex, -⟩ := hqueue.loads entry hentry hkind
    refine ⟨hreplay, Nat.le_succ_of_le hle, hex, ?_⟩
    intro slot hslot
    rw [← mem_some_iff.1 hslot]
    exact Nat.lt_succ_of_le hle

theorem frontStages_atFetch [Fpu] (h : AtMemory p.state ahead between) :
    ∃ ahead' between', AtFetch p.frontStages.state ahead' between' := by
  obtain ⟨_, _, hexecute⟩ := stepMem_atExecute h
  obtain ⟨ahead', between', hdecode⟩ := stepEx_atDecode hexecute
  exact ⟨ahead', between', stepIf_atFetch (stepId_atFetch hdecode)⟩

omit [Devices D] in
theorem squash_atFetch (hpos : 0 < p.state.lsq.nextIndex) : AtFetch p.squash.state [] [] :=
  ⟨.empty rfl, .empty hpos rfl, Nat.zero_le _⟩

omit [Devices D] in
theorem endCycle_atWriteback (h : AtFetch p.state ahead between) :
    AtWriteback p.endCycle.state ahead between :=
  ⟨h.flight.congr rfl rfl, h.queue.inherit (.refl _) rfl, h.timing⟩

theorem beginCycle_atWriteback (h : AtWriteback p.state ahead between) :
    AtWriteback p.beginCycle.state ahead between ∧ NextEmpty p.beginCycle.state :=
  ⟨⟨h.flight.congr rfl rfl, h.queue.inherit (.refl _) rfl, h.timing⟩, ⟨rfl, rfl, rfl, rfl, rfl⟩⟩

/-- The state on which the stages before writeback run, unless the cycle ends early. -/
def atMemory (p : Pipeline D) : Option (Pipeline D) :=
  if p.tryReplayFlush.isSome then none
  else if p.stepWb.2.deferredInterrupt then none
  else some (if p.stepWb.1 then p.stepWb.2 else p.stepWb.2.deliverPending)

theorem step_eq [Fpu] (p : Pipeline D) : p.step =
    match p.beginCycle.atMemory with
    | some q => q.frontStages.endCycle
    | none =>
      if p.beginCycle.tryReplayFlush.isSome then p.beginCycle.squash.endCycle
      else p.beginCycle.stepWb.2.squash.endCycle := by
  unfold step atMemory runStages tryReplayFlush
  split_ifs <;> simp_all

theorem atMemory_spec (h : AtWriteback p.state ahead between) (hnext : NextEmpty p.state)
    {q : Pipeline D} (hq : p.atMemory = some q) : ∃ ahead' between',
      AtMemory q.state ahead' between' := by
  obtain ⟨ahead', between', hcommitted⟩ := stepWb_atMemory h hnext
  unfold atMemory at hq
  split_ifs at hq
  · rw [some.injEq] at hq
    subst hq
    exact ⟨ahead', between', hcommitted⟩
  · rw [some.injEq] at hq
    subst hq
    exact deliverPending_atMemory hcommitted

theorem step_atWriteback [Fpu] (h : AtWriteback p.state ahead between) :
    ∃ ahead' between', AtWriteback p.step.state ahead' between' := by
  obtain ⟨hbegin, hnext⟩ := beginCycle_atWriteback h
  rw [step_eq]
  cases hq : p.beginCycle.atMemory with
  | some q =>
    obtain ⟨_, _, hmemory⟩ := atMemory_spec hbegin hnext hq
    obtain ⟨ahead', between', hfetch⟩ := frontStages_atFetch hmemory
    exact ⟨ahead', between', endCycle_atWriteback hfetch⟩
  | none =>
    obtain ⟨_, _, hcommitted⟩ := stepWb_atMemory hbegin hnext
    split_ifs
    · exact ⟨[], [], endCycle_atWriteback (squash_atFetch hbegin.queue.next_pos)⟩
    · exact ⟨[], [], endCycle_atWriteback (squash_atFetch hcommitted.queue.next_pos)⟩

/-- The states of a pipeline between two cycles, from any processor and predictor. -/
inductive Reachable [Fpu] : Pipeline D → Prop
  | init (cpu : Cpu D) (predictor : BranchPredictor) : Reachable (init cpu predictor)
  | step {p : Pipeline D} (hreach : Reachable p) : Reachable p.step

theorem Reachable.atWriteback [Fpu] (h : Reachable p) :
    ∃ ahead between, AtWriteback p.state ahead between := by
  induction h with
  | init cpu predictor =>
    exact ⟨[], [], .empty rfl, .empty Nat.one_pos rfl, Nat.zero_le _⟩
  | step _ ih =>
    obtain ⟨ahead, between, hinv⟩ := ih
    exact step_atWriteback hinv

end Pipeline

end VisualCpu

/-!
## Invariants of a cycle

An invariant of the pipeline is given by its form at the points of a cycle. When each
stage takes it to the next point, it holds in every reachable state. The stages may use
the instructions in flight at their point.
-/

namespace VisualCpu.Pipeline

variable {D : Type} [Devices D] [Fpu] {p : Pipeline D}

theorem Reachable.tryReplayFlush_none (h : Reachable p) : p.beginCycle.tryReplayFlush = none := by
  obtain ⟨ahead, between, hinv⟩ := h.atWriteback
  have hreplay := (beginCycle_atWriteback hinv).1.queue.no_replay
  simp [tryReplayFlush, hreplay]

theorem Reachable.step_cases (h : Reachable p) :
    (p.beginCycle.stepWb.2.deferredInterrupt ∧ p.beginCycle.atMemory = none ∧
      p.step = p.beginCycle.stepWb.2.squash.endCycle) ∨
    (p.beginCycle.stepWb.2.deferredInterrupt = false ∧ p.beginCycle.stepWb.1 ∧
      p.beginCycle.atMemory = some p.beginCycle.stepWb.2 ∧
      p.step = p.beginCycle.stepWb.2.frontStages.endCycle) ∨
    (p.beginCycle.stepWb.2.deferredInterrupt = false ∧ p.beginCycle.stepWb.1 = false ∧
      p.beginCycle.atMemory = some p.beginCycle.stepWb.2.deliverPending ∧
      p.step = p.beginCycle.stepWb.2.deliverPending.frontStages.endCycle) := by
  have hreplay := h.tryReplayFlush_none
  rw [step_eq]
  unfold atMemory
  simp only [hreplay, Option.isSome_none, Bool.false_eq_true, if_false]
  cases hdeferred : p.beginCycle.stepWb.2.deferredInterrupt with
  | true => exact .inl ⟨rfl, rfl, rfl⟩
  | false =>
    cases hflushed : p.beginCycle.stepWb.1 with
    | true => exact .inr (.inl ⟨rfl, rfl, rfl, rfl⟩)
    | false => exact .inr (.inr ⟨rfl, rfl, rfl, rfl⟩)

/-- The rule for an invariant with its forms between two cycles and before the memory,
execute, decode and fetch stages; the last one also holds after the fetch stage. -/
structure CycleInvariant (boundary memory execute decode fetch : Pipeline D → Prop) : Prop where
  init : ∀ cpu predictor, boundary (init cpu predictor)
  begin : ∀ p, boundary p → boundary p.beginCycle
  writeback : ∀ p ahead between, AtWriteback p.state ahead between → boundary p → memory p.stepWb.2
  deferred : ∀ p ahead between, AtMemory p.state ahead between → memory p →
    p.deferredInterrupt → fetch p.squash
  deliver : ∀ p ahead between, AtMemory p.state ahead between → memory p → memory p.deliverPending
  stepMem : ∀ p ahead between, AtMemory p.state ahead between → memory p → execute p.stepMem
  stepEx : ∀ p ahead between, AtExecute p.state ahead between → execute p → decode p.stepEx
  stepId : ∀ p ahead between, AtDecode p.state ahead between → decode p → fetch p.stepId
  stepIf : ∀ p ahead between, AtFetch p.state ahead between → fetch p → fetch p.stepIf
  finish : ∀ p, fetch p → boundary p.endCycle

namespace CycleInvariant

variable {boundary memory execute decode fetch : Pipeline D → Prop} {p q : Pipeline D}

section

variable (inv : CycleInvariant boundary memory execute decode fetch) {ahead between : List RobEntry}

include inv

theorem frontStages
    (hflight : AtMemory q.state ahead between) (h : memory q) :
    fetch q.frontStages := by
  obtain ⟨ahead₁, between₁, hexecute⟩ := stepMem_atExecute hflight
  obtain ⟨ahead₂, between₂, hdecode⟩ := stepEx_atDecode hexecute
  have hfetch := stepId_atFetch hdecode
  apply inv.stepIf _ _ _ hfetch
  apply inv.stepId _ _ _ hdecode
  apply inv.stepEx _ _ _ hexecute
  exact inv.stepMem _ _ _ hflight h

theorem afterWriteback (hflight : AtWriteback p.state ahead between) (h : boundary p) :
    ∃ ahead' between', AtMemory p.beginCycle.stepWb.2.state ahead' between' ∧
      memory p.beginCycle.stepWb.2 := by
  obtain ⟨hbegin, hnext⟩ := beginCycle_atWriteback hflight
  obtain ⟨ahead', between', hmemory⟩ := stepWb_atMemory hbegin hnext
  exact ⟨ahead', between', hmemory, inv.writeback _ _ _ hbegin (inv.begin p h)⟩

theorem atMemory (hreach : Reachable p) (h : boundary p) (hq : p.beginCycle.atMemory = some q) :
    ∃ ahead between, AtMemory q.state ahead between ∧ memory q := by
  obtain ⟨_, _, hflight⟩ := hreach.atWriteback
  obtain ⟨ahead, between, hmemory, hinv⟩ := inv.afterWriteback hflight h
  rcases hreach.step_cases with ⟨-, hnone, -⟩ | ⟨-, -, hsome, -⟩ | ⟨-, -, hsome, -⟩
  · rw [hnone] at hq
    cases hq
  · obtain rfl := Option.some.inj (hsome.symm.trans hq)
    exact ⟨ahead, between, hmemory, hinv⟩
  · obtain rfl := Option.some.inj (hsome.symm.trans hq)
    obtain ⟨ahead', between', hmemory'⟩ := deliverPending_atMemory hmemory
    exact ⟨ahead', between', hmemory', inv.deliver _ _ _ hmemory hinv⟩

theorem step (hreach : Reachable p) (h : boundary p) : boundary p.step := by
  obtain ⟨_, _, hflight⟩ := hreach.atWriteback
  obtain ⟨_, _, hmemory, hinv⟩ := inv.afterWriteback hflight h
  rcases hreach.step_cases with ⟨hdeferred, -, heq⟩ | ⟨-, -, -, heq⟩ | ⟨-, -, -, heq⟩
  · rw [heq]
    exact inv.finish _ (inv.deferred _ _ _ hmemory hinv hdeferred)
  · rw [heq]
    exact inv.finish _ (inv.frontStages hmemory hinv)
  · obtain ⟨_, _, hmemory'⟩ := deliverPending_atMemory hmemory
    rw [heq]
    exact inv.finish _ (inv.frontStages hmemory' (inv.deliver _ _ _ hmemory hinv))

theorem reachable (h : Reachable p) : boundary p := by
  induction h with
  | init cpu predictor => exact inv.init cpu predictor
  | step hreach ih => exact inv.step hreach ih

end

end CycleInvariant

end VisualCpu.Pipeline
