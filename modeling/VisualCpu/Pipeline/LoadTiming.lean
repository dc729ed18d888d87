import VisualCpu.Pipeline.SequenceIds
import VisualCpu.Pipeline.StoreFlight

/-!
# When loads read memory

A load reads the address space when its delay is over. By then it is the head of the
reorder buffer, whatever the stages before it did: a RAM load has waited a cycle, a
device load was not issued before it was the head, and one entry commits per cycle.
In the next cycle the load commits.
-/

namespace VisualCpu

open List ReorderBuffer Option

/-- The word encodes a scalar load. -/
def DescribesLoad (raw : BitVec 32) : Prop :=
  (describeMemory (decode raw)).valid ∧ (describeMemory (decode raw)).kind = .load

/-- The entry of a load that has its value. -/
structure RobEntry.LoadDone (entry : RobEntry) : Prop where
  ready : entry.ready
  trap : entry.effects.trap = none
  load : DescribesLoad entry.raw

/-- Nothing older than the slot is in flight, and no older store is in the queue. -/
structure OldestInFlight (s : PipelineState) (slot : StageSlot) : Prop where
  head : ∃ rest, s.rob.entries = slot.pendingEntry :: rest
  ids : ∀ id ∈ inFlightIds s.rob s.ifId, slot.sequenceId ≤ id
  stores : ∀ entry ∈ s.lsq.entries, entry.kind = .store → slot.sequenceId ≤ entry.sequenceId

namespace Pipeline

variable {D : Type} [Devices D] {p q : Pipeline D} {ahead between : List RobEntry}
  {slot : StageSlot} {head : RobEntry}

/-- The load that the memory stage reads through the address space. -/
def performedLoad (p : Pipeline D) : Option StageSlot :=
  match p.state.exMem with
  | some slot =>
    if p.state.exMemCyclesRemaining = 0 ∧ slot.effects.mem.kind = .load ∧
        p.state.lsq.forwardableLoad slot.sequenceId slot.effects.mem.size slot.lsqAddressInfo =
          none then some slot
    else none
  | none => none

def cycleLoad (p : Pipeline D) : Option StageSlot := p.beginCycle.atMemory.bind performedLoad

def cycleCommit (p : Pipeline D) : Option (RobEntry × CommitBoundaryResult) :=
  (p.state.rob.peekHead.filter (·.ready)).map fun head => (head, p.beginCycle.commitResult head)

omit [Devices D] in
theorem performedLoad_eq_some (h : p.performedLoad = some slot) :
    p.state.exMem = some slot ∧ p.state.exMemCyclesRemaining = 0 ∧ slot.effects.mem.kind = .load ∧
      p.state.lsq.forwardableLoad slot.sequenceId slot.effects.mem.size slot.lsqAddressInfo =
        none := by
  unfold performedLoad at h
  split at h
  · split_ifs at h with hload
    obtain rfl := some.inj h
    exact ⟨by assumption, hload⟩
  · cases h

theorem performedLoad_value (h : p.performedLoad = some slot) :
    p.loadValue slot = p.cpu.loadResult slot.effects.mem.addr slot.effects.mem.size := by
  unfold loadValue
  rw [(performedLoad_eq_some h).2.2.2]

theorem stepMem_cpu (hflight : AtMemory p.state ahead between) (h : p.performedLoad = none) :
    p.stepMem.cpu = p.cpu := by
  have hissued : ∀ slot ∈ p.state.exMem, slot.effects.trap = none := fun slot hslot =>
    (hflight.flight.issued slot hslot).trap
  rcases p.stepMem_cases hissued with ⟨-, heq⟩ | ⟨slot, -, -, heq⟩ | ⟨slot, hslot, hrem, heq⟩
  · rw [heq]
  · rw [heq]
    rfl
  rw [heq]
  change (p.memOutcome slot).cpu = p.cpu
  unfold memOutcome
  cases hkind : slot.effects.mem.kind with
  | none => rfl
  | store => rfl
  | load =>
    cases hforward : p.state.lsq.forwardableLoad slot.sequenceId slot.effects.mem.size
        slot.lsqAddressInfo with
    | none =>
      exfalso
      simp [performedLoad, hslot, hrem, hkind, hforward] at h
    | some forwarded =>
      have hvalue : p.loadValue slot = (.ok forwarded.value, p.cpu) := by
        simp [loadValue, hforward]
      simp [hvalue, loadedOutcome]

omit [Devices D] in
theorem load_ahead_nil (hflight : AtMemory p.state ahead between)
    (hslot : p.state.exMem = some slot)
    (hrem : p.state.exMemCyclesRemaining = 0) (hkind : slot.effects.mem.kind = .load) :
    ahead = [] := by
  have htiming := hflight.timing
  rw [hslot] at htiming
  rcases htiming with ⟨hone, -, -⟩ | ⟨-, -, hload⟩
  · omega
  · exact hload hkind

omit [Devices D] in
theorem load_oldest (hflight : AtMemory p.state ahead between)
    (hstores : StoreFlight p.state p.state.exMem p.state.idEx) (hslot : p.state.exMem = some slot)
    (hrem : p.state.exMemCyclesRemaining = 0) (hkind : slot.effects.mem.kind = .load) :
    OldestInFlight p.state slot := by
  obtain rfl := load_ahead_nil hflight hslot hrem hkind
  have hslots := hflight.flight
  rw [hslot] at hslots hstores
  have hentries : p.state.rob.entries =
      slot.pendingEntry :: (between ++ pendingEntries p.state.idEx) := by
    simpa using hslots.entries
  refine ⟨⟨_, hentries⟩, ?_, hstores.le_of_head hslots⟩
  have horder := hslots.order
  unfold inFlightIds at horder ⊢
  rw [hentries, map_cons, List.cons_append, pairwise_cons] at horder
  rw [hentries, map_cons, List.cons_append]
  intro id hid
  rcases mem_cons.1 hid with rfl | hrest
  · exact le_rfl
  · exact (horder.1 id hrest).le

omit [Devices D] in
theorem load_performed (hflight : AtMemory p.state ahead between)
    (hstores : StoreFlight p.state p.state.exMem p.state.idEx) (hslot : p.state.exMem = some slot)
    (hrem : p.state.exMemCyclesRemaining = 0) (hkind : slot.effects.mem.kind = .load) :
    p.performedLoad = some slot := by
  have holdest := load_oldest hflight hstores hslot hrem hkind
  have hforward := LoadStoreQueue.forwardableLoad_none slot.lsqAddressInfo slot.sequenceId
    slot.effects.mem.size holdest.stores
  simp [performedLoad, hslot, hrem, hkind, hforward]

def accessedEntry (p : Pipeline D) (slot : StageSlot) : RobEntry :=
  readyEntry (p.memOutcome slot).effects slot.lsqIndex slot.pendingEntry

theorem stepMem_performed (hflight : AtMemory p.state ahead between)
    (h : p.performedLoad = some slot) :
    ∃ rest, p.stepMem.state.rob.entries = p.accessedEntry slot :: rest := by
  obtain ⟨hslot, hrem, hkind, -⟩ := performedLoad_eq_some h
  obtain rfl := load_ahead_nil hflight hslot hrem hkind
  have hslots := hflight.flight
  rw [hslot] at hslots
  have hentries : p.state.rob.entries =
      [] ++ slot.pendingEntry :: (between ++ pendingEntries p.state.idEx) := by
    simpa using hslots.entries
  have heq : p.stepMem = p.afterAccess slot (p.memOutcome slot) := by
    have htrap := (hslots.issued slot rfl).trap
    unfold stepMem
    rw [hslot]
    simp only [hrem, ne_eq, not_true_eq_false, if_false]
    exact p.memAccess_eq slot htrap
  exact ⟨_, by rw [heq]; exact hslots.markReady_entries hentries _ _⟩

section FrontStages

theorem peekHead_markReady {rob : ReorderBuffer} {index : ℕ} (hhead : rob.peekHead = some head)
    (hne : head.index ≠ index) (effects : InsnEffects) (lsqIndex : ℕ) :
    (rob.markReady index effects lsqIndex).peekHead = some head := by
  unfold peekHead markReady at *
  cases hentries : rob.entries with
  | nil => simp [hentries] at hhead
  | cons first rest =>
    rw [hentries] at hhead
    obtain rfl := some.inj hhead
    simp [markReadyIn, hne]

theorem Flight.eq_of_index {s : PipelineState} {mem ex fetched : Option StageSlot}
    (h : Flight s mem ex fetched ahead between) {e e' : RobEntry} (he : e ∈ s.rob.entries)
    (he' : e' ∈ s.rob.entries) (hindex : e.index = e'.index) : e = e' :=
  inj_on_of_nodup_map (h.indices.imp Nat.ne_of_lt) he he' hindex

theorem head_ne_ex {s : PipelineState} {mem fetched : Option StageSlot}
    (h : Flight s mem (some slot) fetched ahead between) (hhead : s.rob.peekHead = some head)
    (hready : head.ready) : head.index ≠ slot.robIndex := by
  intro hindex
  have hmem : head ∈ s.rob.entries := List.mem_of_head? hhead
  have heq := Flight.eq_of_index h hmem h.ex_mem hindex
  rw [heq] at hready
  cases hready

theorem stepEx_head [Fpu] (hflight : AtExecute p.state ahead between)
    (hhead : p.state.rob.peekHead = some head) (hready : head.ready) :
    p.stepEx.state.rob.peekHead = some head := by
  rcases p.stepEx_cases with ⟨-, heq⟩ | ⟨slot, -, -, heq⟩ | ⟨slot, hslot, -, heq⟩
  · rw [heq]
    exact hhead
  · rw [heq]
    exact hhead
  have hslots := hflight.flight
  rw [hslot] at hslots
  have hne := head_ne_ex hslots hhead hready
  rw [heq]
  cases p.executeSlot_cases slot (p.olderVectorDependency slot) with
  | done predictor hkind hpredicted heq =>
    rw [heq]
    exact peekHead_markReady hhead hne _ _
  | redirect predictor hkind hpredicted heq =>
    rw [heq]
    exact peekHead_markReady hhead hne _ _
  | held cpu hregs hkind htrap heq =>
    rw [heq]
    exact hhead
  | load hkind htrap hbusy hhead' heq =>
    rw [heq]
    exact hhead
  | store hkind htrap hbusy heq =>
    rw [heq]
    exact hhead

theorem stepId_head (hflight : AtDecode p.state ahead between)
    (hhead : p.state.rob.peekHead = some head) : p.stepId.state.rob.peekHead = some head := by
  cases p.stepId_cases hflight.slots_fetched with
  | dropped hredirect heq =>
    rw [heq]
    exact hhead
  | waits cpu hregs hredirect heq =>
    rw [heq]
    exact hhead
  | dispatch fetched hslot hfree hredirect hready heq =>
    rw [heq]
    unfold peekHead at *
    simp [dispatched, hhead]

theorem stepIf_rob : p.stepIf.state.rob = p.state.rob := by
  cases p.stepIf_cases with
  | idle hidle heq => rw [heq]
  | fault fault cpu hempty hnofault hfetch heq => rw [heq]
  | fetched raw cpu hempty hnofault hfetch heq => rw [heq]

variable {entry : RobEntry}

theorem stepEx_loadDone [Fpu] (hflight : AtExecute p.state ahead between)
    (hentry : entry ∈ p.stepEx.state.rob.entries) (hdone : entry.LoadDone) :
    entry ∈ p.state.rob.entries := by
  rcases p.stepEx_cases with ⟨-, heq⟩ | ⟨slot, -, -, heq⟩ | ⟨slot, hslot, -, heq⟩
  · rw [heq] at hentry
    exact hentry
  · rw [heq] at hentry
    exact hentry
  rw [heq] at hentry
  have hslots := hflight.flight
  rw [hslot] at hslots
  have hdecoded := hslots.decoded slot rfl
  have hmarked : (p.slotEffects slot (p.olderVectorDependency slot)).mem.kind = .none →
      entry ∈ (p.state.rob.markReady slot.robIndex
        (p.slotEffects slot (p.olderVectorDependency slot)) slot.lsqIndex).entries →
      entry ∈ p.state.rob.entries := by
    intro hkind hmem
    rcases mem_markReadyIn hmem with hold | ⟨old, hold, hindex, rfl⟩
    · exact hold
    -- only a load that makes its access is done
    exfalso
    obtain rfl := Flight.eq_of_index hslots hold hslots.ex_mem hindex
    have hload : DescribesLoad slot.raw := hdone.load
    have hdescribes := p.slotEffects_describes slot (p.olderVectorDependency slot)
      (by rw [hdecoded.insn]; exact hload.1) hdone.trap
    rw [hkind, hdecoded.insn, hload.2] at hdescribes
    cases hdescribes
  cases p.executeSlot_cases slot (p.olderVectorDependency slot) with
  | done predictor hkind hpredicted heq =>
    rw [heq] at hentry
    exact hmarked hkind hentry
  | redirect predictor hkind hpredicted heq =>
    rw [heq] at hentry
    exact hmarked hkind hentry
  | held cpu hregs hkind htrap heq =>
    rw [heq] at hentry
    exact hentry
  | load hkind htrap hbusy hhead' heq =>
    rw [heq] at hentry
    exact hentry
  | store hkind htrap hbusy heq =>
    rw [heq] at hentry
    exact hentry

theorem stepId_ready (hflight : AtDecode p.state ahead between)
    (hentry : entry ∈ p.stepId.state.rob.entries) (hready : entry.ready) :
    entry ∈ p.state.rob.entries := by
  cases p.stepId_cases hflight.slots_fetched with
  | dropped hredirect heq =>
    rw [heq] at hentry
    exact hentry
  | waits cpu hregs hredirect heq =>
    rw [heq] at hentry
    exact hentry
  | dispatch fetched hslot hfree hredirect hdispatch heq =>
    rw [heq] at hentry
    rcases mem_append.1 hentry with hold | hnew
    · exact hold
    rw [mem_singleton.1 hnew] at hready
    cases hready

theorem afterMem_head [Fpu] (hflight : AtExecute p.state ahead between)
    (hhead : p.state.rob.peekHead = some head) (hready : head.ready) :
    p.stepEx.stepId.stepIf.state.rob.peekHead = some head := by
  obtain ⟨_, _, hdecode⟩ := stepEx_atDecode hflight
  rw [stepIf_rob]
  exact stepId_head hdecode (stepEx_head hflight hhead hready)

theorem afterMem_loadDone [Fpu] (hflight : AtExecute p.state ahead between)
    (hentry : entry ∈ p.stepEx.stepId.stepIf.state.rob.entries) (hdone : entry.LoadDone) :
    entry ∈ p.state.rob.entries := by
  obtain ⟨_, _, hdecode⟩ := stepEx_atDecode hflight
  rw [stepIf_rob] at hentry
  exact stepEx_loadDone hflight (stepId_ready hdecode hentry hdone.ready) hdone

end FrontStages

section LoadDone

def NoLoadDone (p : Pipeline D) : Prop := ∀ entry ∈ p.state.rob.entries, ¬ entry.LoadDone

def LoadDoneIsHead (p : Pipeline D) : Prop :=
  ∀ entry ∈ p.state.rob.entries, entry.LoadDone → p.state.rob.peekHead = some entry

theorem stepWb_noLoadDone (hflight : AtWriteback p.state ahead between) (h : LoadDoneIsHead p) :
    NoLoadDone p.stepWb.2 := by
  intro entry hentry hdone
  cases p.stepWb_cases with
  | idle hidle heq =>
    rw [heq] at hentry
    have hready := hidle entry (h entry hentry hdone)
    rw [hdone.ready] at hready
    cases hready
  | commit head rest hentries hready heq =>
    rw [heq, commitReadyHead_eq] at hentry
    cases hflush : (p.commitResult head).trapFlush with
    | true =>
      rw [hflush] at hentry
      simp [squash, mapState, PipelineState.squash, PipelineState.flush,
        PipelineState.rollbackToCommittedState, ReorderBuffer.clear] at hentry
    | false =>
      rw [hflush] at hentry
      obtain ⟨ahead', rfl, -⟩ := hflight.flight.head_ready hentries hready
      obtain ⟨hretired, -, -⟩ := commit_of_noFlush (hflight.flight.completed head (by simp)) hflush
      have hrest : entry ∈ rest := by
        simpa [afterCommit, hretired, commitHead_of_ready hentries hready] using hentry
      have hmem : entry ∈ p.state.rob.entries := by
        rw [hentries]
        exact mem_cons_of_mem _ hrest
      have hhead := h entry hmem hdone
      have hindices := hflight.flight.indices
      rw [hentries, map_cons, pairwise_cons] at hindices
      have hlt := hindices.1 entry.index (mem_map_of_mem hrest)
      rw [peekHead, hentries] at hhead
      rw [some.inj hhead] at hlt
      exact lt_irrefl _ hlt

theorem deliverPending_noLoadDone (h : NoLoadDone p) : NoLoadDone p.deliverPending := by
  cases p.deliverPending_cases with
  | nothing heq =>
    rw [heq]
    exact h
  | interrupt cpu hmay hservice heq =>
    rw [heq]
    intro entry hentry
    cases hentry
  | fault pending hpending hcommitted hdrained heq =>
    rw [heq]
    exact h

theorem stepMem_loadDone (hflight : AtMemory p.state ahead between)
    (hstores : StoreFlight p.state p.state.exMem p.state.idEx) (h : NoLoadDone p) {entry : RobEntry}
    (hentry : entry ∈ p.stepMem.state.rob.entries) (hdone : entry.LoadDone) :
    ∃ slot, p.performedLoad = some slot ∧ entry = p.accessedEntry slot := by
  have hissued : ∀ slot ∈ p.state.exMem, slot.effects.trap = none := fun slot hslot =>
    (hflight.flight.issued slot hslot).trap
  rcases p.stepMem_cases hissued with ⟨-, heq⟩ | ⟨slot, -, -, heq⟩ | ⟨slot, hslot, hrem, heq⟩
  · rw [heq] at hentry
    exact absurd hdone (h entry hentry)
  · rw [heq] at hentry
    exact absurd hdone (h entry hentry)
  rw [heq] at hentry
  have hslots := hflight.flight
  rw [hslot] at hslots
  rcases mem_markReadyIn hentry with hold | ⟨old, hold, hindex, rfl⟩
  · exact absurd hdone (h entry hold)
  obtain rfl := Flight.eq_of_index hslots hold hslots.mem_mem hindex
  refine ⟨slot, ?_, rfl⟩
  have hload : DescribesLoad slot.raw := hdone.load
  have hslotIssued := hslots.issued slot rfl
  have hkind : slot.effects.mem.kind = .load := by
    obtain ⟨rs1v, rs2v, hvalid, hbuild⟩ := hslotIssued.shape.memory hslotIssued.kind
    rw [hbuild, ← hload.2]
    simp [buildMemoryEffects, hvalid]
  exact load_performed hflight hstores hslot hrem hkind

theorem loadDone_cycle [Fpu] : CycleInvariant (D := D)
    (fun p => StoreFlight p.state p.state.exMem p.state.idEx ∧ LoadDoneIsHead p)
    (fun p => StoreFlight p.state p.state.exMem p.state.idEx ∧ NoLoadDone p)
    (fun p => StoreFlight p.state p.state.nextExMem p.state.idEx ∧ LoadDoneIsHead p)
    (fun p => StoreFlight p.state p.state.nextExMem p.state.nextIdEx ∧ LoadDoneIsHead p)
    (fun p => StoreFlight p.state p.state.nextExMem p.state.nextIdEx ∧ LoadDoneIsHead p) where
  init cpu predictor := ⟨storeFlight_cycle.init cpu predictor, fun entry hentry => by cases hentry⟩
  begin p h := ⟨storeFlight_cycle.begin p h.1, h.2⟩
  writeback p _ _ hflight h :=
    ⟨storeFlight_cycle.writeback p _ _ hflight h.1, stepWb_noLoadDone hflight h.2⟩
  deferred p _ _ hflight h hdeferred :=
    ⟨storeFlight_cycle.deferred p _ _ hflight h.1 hdeferred, fun entry hentry => by cases hentry⟩
  deliver p _ _ hflight h :=
    ⟨storeFlight_cycle.deliver p _ _ hflight h.1, deliverPending_noLoadDone h.2⟩
  stepMem p _ _ hflight h := by
    refine ⟨storeFlight_cycle.stepMem p _ _ hflight h.1, fun entry hentry hdone => ?_⟩
    obtain ⟨slot, hperformed, rfl⟩ := stepMem_loadDone hflight h.1 h.2 hentry hdone
    obtain ⟨rest, hentries⟩ := stepMem_performed hflight hperformed
    simp [peekHead, hentries]
  stepEx p _ _ hflight h := by
    refine ⟨storeFlight_cycle.stepEx p _ _ hflight h.1, fun entry hentry hdone => ?_⟩
    exact stepEx_head hflight (h.2 entry (stepEx_loadDone hflight hentry hdone) hdone) hdone.ready
  stepId p _ _ hflight h := by
    refine ⟨storeFlight_cycle.stepId p _ _ hflight h.1, fun entry hentry hdone => ?_⟩
    exact stepId_head hflight (h.2 entry (stepId_ready hflight hentry hdone.ready) hdone)
  stepIf p _ _ hflight h := by
    refine ⟨storeFlight_cycle.stepIf p _ _ hflight h.1, ?_⟩
    unfold LoadDoneIsHead
    rw [stepIf_rob]
    exact h.2
  finish p h := ⟨storeFlight_cycle.finish p h.1, h.2⟩

theorem Reachable.atMemory_loads [Fpu] (hreach : Reachable p)
    (hq : p.beginCycle.atMemory = some q) :
    ∃ ahead between, AtMemory q.state ahead between ∧
      StoreFlight q.state q.state.exMem q.state.idEx ∧ NoLoadDone q :=
  loadDone_cycle.atMemory hreach (loadDone_cycle.reachable hreach) hq

end LoadDone

section Cycle

variable [Fpu]

theorem step_of_atMemory (hq : p.beginCycle.atMemory = some q) :
    p.step = q.frontStages.endCycle := by
  rw [step_eq, hq]

theorem Reachable.atMemory_of_rob (hreach : Reachable p) (h : p.step.state.rob.entries ≠ []) :
    ∃ q, p.beginCycle.atMemory = some q := by
  rcases hreach.step_cases with ⟨-, -, heq⟩ | ⟨-, -, hsome, -⟩ | ⟨-, -, hsome, -⟩
  · rw [heq] at h
    exact absurd rfl h
  · exact ⟨_, hsome⟩
  · exact ⟨_, hsome⟩

theorem Reachable.performed_head (hreach : Reachable p) (hq : p.beginCycle.atMemory = some q)
    (hload : q.performedLoad = some slot) :
    p.step.state.rob.peekHead = some (q.accessedEntry slot) := by
  obtain ⟨_, _, hflight, -, -⟩ := hreach.atMemory_loads hq
  obtain ⟨_, _, hexecute⟩ := stepMem_atExecute hflight
  obtain ⟨rest, hentries⟩ := stepMem_performed hflight hload
  rw [step_of_atMemory hq]
  apply afterMem_head hexecute
  · simp [peekHead, hentries]
  · rfl

omit [Fpu] in
theorem commitResult_accessed (hflight : AtMemory q.state ahead between)
    (hload : q.performedLoad = some slot) (p : Pipeline D) :
    (p.commitResult (q.accessedEntry slot)).retired ∨
      (p.commitResult (q.accessedEntry slot)).trapTaken ∧
        (q.accessedEntry slot).effects.trap ≠ none := by
  obtain ⟨hslot, -, hkind, -⟩ := performedLoad_eq_some hload
  have hissued := hflight.flight.issued slot hslot
  obtain ⟨rs1v, rs2v, hvalid, hbuild⟩ := hissued.shape.memory hissued.kind
  have hatomic : slot.effects.atomic.kind = .none ∧ slot.effects.vector.kind = .none ∧
      slot.effects.trap = none ∧ slot.effects.retired := by
    rw [hbuild]
    simp [buildMemoryEffects, hvalid]
  obtain ⟨hatomic, hvector, htrap, hretired⟩ := hatomic
  have heffects : (q.accessedEntry slot).effects = (q.memOutcome slot).effects := rfl
  have hcompletes := q.memOutcome_completes slot
  rw [← heffects] at hcompletes
  generalize hentry : q.accessedEntry slot = entry at hcompletes ⊢
  generalize heff : entry.effects = effects at hcompletes
  cases hcompletes with
  | same hne => exact absurd hkind hne
  | faulted hkind' fault =>
    have hsome : entry.effects.trap = some fault := by rw [heff]; rfl
    exact .inr ⟨(commitResult_of_trap hsome).trapTaken, by simp [faultedLoad]⟩
  | loaded hkind' fpValue intValue =>
    left
    have hplain : ∀ cpu : Cpu D, ∀ input : CommitBoundaryInput,
        input.effects = commitEffects (completeLoad slot.effects fpValue intValue) →
        (cpu.applyCommitBoundary input).1.retired := by
      intro cpu input hinput
      rw [Cpu.applyCommitBoundary_plain cpu input]
      · rw [(Cpu.finishCommit_finished cpu input _ _ _).retired, hinput]
        unfold commitEffects completeLoad
        cases slot.effects.mem.target <;> exact hretired
      all_goals
        rw [hinput]
        unfold commitEffects completeLoad
        cases slot.effects.mem.target <;> simp [htrap, hatomic, hvector]
    exact hplain _ _ (by rw [heff])

theorem Reachable.performed_commits (hreach : Reachable p) (hq : p.beginCycle.atMemory = some q)
    (hload : q.performedLoad = some slot) :
    ∃ head result, p.step.cycleCommit = some (head, result) ∧ head.sequenceId = slot.sequenceId ∧
      (result.retired ∨ result.trapTaken ∧ head.effects.trap ≠ none) := by
  obtain ⟨_, _, hflight, -, -⟩ := hreach.atMemory_loads hq
  refine ⟨q.accessedEntry slot, p.step.beginCycle.commitResult (q.accessedEntry slot), ?_, rfl,
    commitResult_accessed hflight hload _⟩
  unfold cycleCommit
  rw [hreach.performed_head hq hload]
  rfl

theorem Reachable.retired_performed (hreach : Reachable p) {result : CommitBoundaryResult}
    (hcommit : p.step.cycleCommit = some (head, result)) (hretired : result.retired)
    (hload : DescribesLoad head.raw) :
    ∃ slot, p.cycleLoad = some slot ∧ slot.sequenceId = head.sequenceId := by
  unfold cycleCommit at hcommit
  rw [map_eq_some_iff] at hcommit
  obtain ⟨entry, hentry, heq⟩ := hcommit
  obtain ⟨rfl, rfl⟩ := Prod.mk.inj heq
  obtain ⟨hhead, hready⟩ := filter_eq_some_iff.1 hentry
  have htrap : entry.effects.trap = none := by
    by_contra hsome
    obtain ⟨trap, htrap⟩ := ne_none_iff_exists'.1 hsome
    rw [(commitResult_of_trap htrap).retired] at hretired
    cases hretired
  have hmem : entry ∈ p.step.state.rob.entries := List.mem_of_head? hhead
  obtain ⟨q, hq⟩ := hreach.atMemory_of_rob (ne_nil_of_mem hmem)
  obtain ⟨_, _, hflight, hstores, hnone⟩ := hreach.atMemory_loads hq
  obtain ⟨_, _, hexecute⟩ := stepMem_atExecute hflight
  rw [step_of_atMemory hq] at hmem
  have hdone : entry.LoadDone := ⟨hready, htrap, hload⟩
  obtain ⟨slot, hperformed, rfl⟩ := stepMem_loadDone hflight hstores hnone
    (afterMem_loadDone hexecute hmem hdone) hdone
  exact ⟨slot, by simp [cycleLoad, hq, hperformed], rfl⟩

theorem Reachable.older_retired (hreach : Reachable p) (n : ℕ)
    (hq : (p.run n).beginCycle.atMemory = some q) (hload : q.performedLoad = some slot)
    (hslot : slot.sequenceId ∈ inFlightIds p.state.rob p.state.ifId) {id : ℕ}
    (hid : id ∈ robIds p.state) (hlt : id < slot.sequenceId) : RetiredIn q.state id := by
  obtain ⟨_, _, hinv⟩ := hreach.atWriteback
  obtain ⟨_, _, hflight, hstores, -⟩ := (hreach.run n).atMemory_loads hq
  obtain ⟨hmem, hrem, hkind, -⟩ := performedLoad_eq_some hload
  have holdest := load_oldest hflight hstores hmem hrem hkind
  have hadvances := (hreach.advances_run n).trans ((hreach.run n).advances_atMemory hq)
  obtain ⟨rest, hentries⟩ := holdest.head
  rcases hadvances.leave id hid with hstays | hretired | hnew
  · have := holdest.ids id (robIds_subset hstays)
    omega
  · exact hretired
  have hflies : slot.sequenceId ∈ inFlightIds q.state.rob q.state.ifId := by
    apply robIds_subset
    simp [robIds, hentries]
  have := hnew _ hflies
  have := (hinv.flight.order_le _ hslot).2
  omega

omit [Fpu] in
theorem stepWb_younger (hflight : AtWriteback p.state ahead between)
    (hhead : p.state.rob.peekHead = some head) (hready : head.ready) :
    ∀ id ∈ inFlightIds p.stepWb.2.state.rob p.stepWb.2.state.ifId, head.sequenceId < id := by
  cases p.stepWb_cases with
  | idle hidle heq =>
    rw [hidle head hhead] at hready
    cases hready
  | commit first rest hentries hready' heq =>
    have hfirst : first = head := by simpa [peekHead, hentries] using hhead
    subst hfirst
    have horder := hflight.flight.order
    unfold inFlightIds at horder
    rw [hentries, map_cons, List.cons_append, pairwise_cons] at horder
    rw [heq, commitReadyHead_eq]
    intro id hid
    cases hflush : (p.commitResult first).trapFlush with
    | true =>
      rw [hflush] at hid
      cases hid
    | false =>
      rw [hflush] at hid
      obtain ⟨ahead', rfl, -⟩ := hflight.flight.head_ready hentries hready'
      obtain ⟨hretired, -, -⟩ := commit_of_noFlush (hflight.flight.completed first (by simp)) hflush
      apply horder.1
      simpa [inFlightIds, afterCommit, hretired, commitHead_of_ready hentries hready'] using hid

theorem Reachable.advances_toMemory (hreach : Reachable p) (n : ℕ)
    (hq : (p.run n).beginCycle.atMemory = some q) :
    Advances p.beginCycle.stepWb.2.state q.state p.beginCycle.stepWb.2.state.ifId q.state.ifId := by
  cases n with
  | zero =>
    have hq' : p.beginCycle.atMemory = some q := hq
    rcases hreach.step_cases with ⟨-, hnone, -⟩ | ⟨-, -, hsome, -⟩ | ⟨-, -, hsome, -⟩
    · rw [hnone] at hq'
      cases hq'
    · obtain rfl := some.inj (hsome.symm.trans hq')
      exact .refl _ _
    · obtain rfl := some.inj (hsome.symm.trans hq')
      exact deliverPending_advances
  | succ n =>
    have hstep : Reachable p.step := .step hreach
    have hrun : p.run (n + 1) = p.step.run n := Function.iterate_succ_apply Pipeline.step n p
    rw [hrun] at hq
    exact hreach.advances_fromWriteback.trans
      ((hstep.advances_run n).trans ((hstep.run n).advances_atMemory hq))

theorem Reachable.performed_once (hreach : Reachable p) (hq : p.beginCycle.atMemory = some q)
    (hload : q.performedLoad = some slot) (n : ℕ) {slot' : StageSlot}
    (hlater : (p.step.run n).cycleLoad = some slot') : slot.sequenceId < slot'.sequenceId := by
  have hstep : Reachable p.step := .step hreach
  obtain ⟨q', hq', hload'⟩ := bind_eq_some_iff.1 hlater
  obtain ⟨_, _, hflight, hstores, -⟩ := (hstep.run n).atMemory_loads hq'
  obtain ⟨hmem, hrem, hkind, -⟩ := performedLoad_eq_some hload'
  obtain ⟨rest, hentries⟩ := (load_oldest hflight hstores hmem hrem hkind).head
  have hflies : slot'.sequenceId ∈ inFlightIds q'.state.rob q'.state.ifId := by
    apply robIds_subset
    simp [robIds, hentries]
  have hhead := hreach.performed_head hq hload
  obtain ⟨_, _, hinv⟩ := hstep.atWriteback
  have hbegin := (beginCycle_atWriteback hinv).1
  rcases (hstep.advances_toMemory n hq').appear _ hflies with hold | hnew
  · exact stepWb_younger hbegin hhead rfl _ hold
  have hid : slot.sequenceId ∈ inFlightIds p.step.state.rob p.step.state.ifId :=
    robIds_subset (mem_map.2 ⟨_, List.mem_of_head? hhead, rfl⟩)
  have hle := (hinv.flight.order_le _ hid).2
  have hlast := (stepWb_advances hbegin).last
  exact (hle.trans hlast).trans_lt hnew

/-- No data access is speculative. The processor changes in the memory stage only for a
performed load, and then the load is the head with everything older retired. The next
cycle commits it, so that no load is performed twice, and every load that retires has
been performed in the cycle before. -/
theorem Reachable.loads_not_speculative (hreach : Reachable p) :
    (∀ q, p.beginCycle.atMemory = some q → q.performedLoad = none → q.stepMem.cpu = q.cpu) ∧
    (∀ q slot, p.beginCycle.atMemory = some q → q.performedLoad = some slot →
      q.loadValue slot = q.cpu.loadResult slot.effects.mem.addr slot.effects.mem.size ∧
      OldestInFlight q.state slot ∧
      (∃ head result, p.step.cycleCommit = some (head, result) ∧ head.sequenceId = slot.sequenceId ∧
        (result.retired ∨ result.trapTaken ∧ head.effects.trap ≠ none)) ∧
      ∀ n slot', (p.step.run n).cycleLoad = some slot' → slot.sequenceId < slot'.sequenceId) ∧
    (∀ n q slot, (p.run n).beginCycle.atMemory = some q → q.performedLoad = some slot →
      slot.sequenceId ∈ inFlightIds p.state.rob p.state.ifId →
      ∀ id ∈ robIds p.state, id < slot.sequenceId → RetiredIn q.state id) ∧
    (∀ head result, p.step.cycleCommit = some (head, result) → result.retired →
      DescribesLoad head.raw → ∃ slot, p.cycleLoad = some slot ∧
        slot.sequenceId = head.sequenceId) := by
  refine ⟨?_, ?_, ?_, ?_⟩
  · intro q hq hnone
    obtain ⟨_, _, hflight, -, -⟩ := hreach.atMemory_loads hq
    exact stepMem_cpu hflight hnone
  · intro q slot hq hload
    obtain ⟨_, _, hflight, hstores, -⟩ := hreach.atMemory_loads hq
    obtain ⟨hslot, hrem, hkind, -⟩ := performedLoad_eq_some hload
    refine ⟨performedLoad_value hload, load_oldest hflight hstores hslot hrem hkind,
      hreach.performed_commits hq hload, ?_⟩
    intro n slot' hlater
    exact hreach.performed_once hq hload n hlater
  · intro n q slot hq hload hslot id hid hlt
    exact hreach.older_retired n hq hload hslot hid hlt
  · intro head result hcommit hretired hload
    exact hreach.retired_performed hcommit hretired hload

end Cycle

def loadProgram : List (BitVec 32) :=
  [0x00000097, -- auipc x1, 0
    0x0000B103] -- ld x2, 0(x1)

/-- The pipeline that runs the program, after some cycles. -/
def loadPipeline (n : ℕ) : Pipeline Unit :=
  letI := Fpu.silent
  (reset (Ram.ofWords memBase loadProgram) ()).run n

/-- The load of the program is performed in the sixth cycle and commits in the next. -/
theorem loadPipeline_commits : ∃ slot, (loadPipeline 5).cycleLoad = some slot ∧ ∃ head result,
      (loadPipeline 6).cycleCommit = some (head, result) ∧ head.sequenceId = slot.sequenceId ∧
        (result.retired ∨ result.trapTaken ∧ head.effects.trap ≠ none) := by
  let silent := Fpu.silent
  have hsome : (loadPipeline 5).cycleLoad.isSome := by decide +kernel
  obtain ⟨slot, hslot⟩ := isSome_iff_exists.1 hsome
  obtain ⟨q, hq, hload⟩ := bind_eq_some_iff.1 hslot
  have hreach : Reachable (loadPipeline 5) := Reachable.run (.init _ _) 5
  have hcommits := (hreach.loads_not_speculative.2.1 q slot hq hload).2.2.1
  have hstep : (loadPipeline 5).step = loadPipeline 6 := (run_succ _ 5).symm
  rw [hstep] at hcommits
  exact ⟨slot, hslot, hcommits⟩

end Pipeline

end VisualCpu
