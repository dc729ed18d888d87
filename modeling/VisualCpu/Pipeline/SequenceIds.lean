import VisualCpu.Pipeline.CycleFlight

/-!
# Sequence numbers over a run

What a part of a run does to the instructions in flight: those that appear are new,
and an entry leaves the reorder buffer only by retiring, or together with everything
that was fetched before.
-/

namespace VisualCpu

open List

/-- The trace says that the instruction retired without a trap. -/
def RetiredIn (s : PipelineState) (id : ℕ) : Prop :=
  ∃ entry ∈ s.retireTrace, entry.sequenceId = id ∧ entry.trap = false

def robIds (s : PipelineState) : List ℕ := s.rob.entries.map (·.sequenceId)

/-- From `s` with `fetched` to `s'` with `fetched'`, instructions enter and leave in order. -/
structure Advances (s s' : PipelineState) (fetched fetched' : Option StageSlot) : Prop where
  last : s.lastSequenceId ≤ s'.lastSequenceId
  trace : s.retireTrace <+: s'.retireTrace
  appear : ∀ id ∈ inFlightIds s'.rob fetched',
    id ∈ inFlightIds s.rob fetched ∨ s.lastSequenceId < id
  leave : ∀ id ∈ robIds s, id ∈ robIds s' ∨ RetiredIn s' id ∨
    ∀ later ∈ inFlightIds s'.rob fetched', s.lastSequenceId < later

theorem RetiredIn.mono {s s' : PipelineState} {id : ℕ} (h : RetiredIn s id)
    (htrace : s.retireTrace <+: s'.retireTrace) : RetiredIn s' id := by
  obtain ⟨entry, hentry, hrest⟩ := h
  exact ⟨entry, htrace.subset hentry, hrest⟩

theorem robIds_subset {s : PipelineState} {fetched : Option StageSlot} {id : ℕ}
    (h : id ∈ robIds s) :
    id ∈ inFlightIds s.rob fetched := mem_append_left _ h

namespace Advances

variable {s s' s'' : PipelineState} {fetched fetched' fetched'' : Option StageSlot}

theorem stay (hids : robIds s' = robIds s) (hlast : s'.lastSequenceId = s.lastSequenceId)
    (htrace : s'.retireTrace = s.retireTrace) (hfetched : ∀ slot ∈ fetched', slot ∈ fetched) :
    Advances s s' fetched fetched' := by
  refine ⟨hlast.ge, htrace ▸ prefix_rfl, fun id hid => ?_, fun id hid => .inl (hids ▸ hid)⟩
  rcases mem_append.1 hid with hrob | hslot
  · exact .inl (mem_append_left _ (by rw [← robIds, ← hids]; exact hrob))
  obtain ⟨slot, hsome, rfl⟩ : ∃ slot, fetched' = some slot ∧ slot.sequenceId = id := by
    simpa using hslot
  refine .inl (mem_append_right _ ?_)
  rw [Option.mem_def.1 (hfetched slot hsome)]
  simp

theorem refl (s : PipelineState) (fetched : Option StageSlot) : Advances s s fetched fetched :=
  stay rfl rfl rfl fun _ h => h

theorem clear (hlast : s.lastSequenceId ≤ s'.lastSequenceId)
    (htrace : s.retireTrace <+: s'.retireTrace) (hrob : s'.rob.entries = []) :
    Advances s s' fetched none := by
  refine ⟨hlast, htrace, ?_, fun id _ => .inr (.inr ?_)⟩
  · simp [inFlightIds, hrob]
  · simp [inFlightIds, hrob]

theorem trans (h : Advances s s' fetched fetched') (h' : Advances s' s'' fetched' fetched'') :
    Advances s s'' fetched fetched'' := by
  have hlast := h.last
  have hnew : (∀ later ∈ inFlightIds s'.rob fetched', s.lastSequenceId < later) →
      ∀ later ∈ inFlightIds s''.rob fetched'', s.lastSequenceId < later := by
    intro hall later hlater
    rcases h'.appear later hlater with hold | hlt
    · exact hall later hold
    · exact hlast.trans_lt hlt
  refine ⟨hlast.trans h'.last, h.trace.trans h'.trace, fun id hid => ?_, fun id hid => ?_⟩
  · rcases h'.appear id hid with hold | hlt
    · exact h.appear id hold
    · exact .inr (hlast.trans_lt hlt)
  rcases h.leave id hid with hstays | hretired | hall
  · rcases h'.leave id hstays with hstays' | hretired' | hall'
    · exact .inl hstays'
    · exact .inr (.inl hretired')
    · exact .inr (.inr fun later hlater => hlast.trans_lt (hall' later hlater))
  · exact .inr (.inl (hretired.mono h'.trace))
  · exact .inr (.inr (hnew hall))

end Advances

namespace Pipeline

variable {D : Type} [Devices D] {p : Pipeline D} {ahead between : List RobEntry}

theorem robIds_markReady (s : PipelineState) (index : ℕ) (effects : InsnEffects) (lsqIndex : ℕ) :
    (s.rob.markReady index effects lsqIndex).entries.map (·.sequenceId) = robIds s :=
  ReorderBuffer.map_markReadyIn _ _ _ _ (fun _ => rfl) _

theorem afterCommit_trace (head : RobEntry) :
    p.state.retireTrace <+: (p.afterCommit head).state.retireTrace := prefix_append _ _

theorem afterCommit_retiredIn {head : RobEntry} (hpos : 0 < head.sequenceId)
    (htaken : (p.commitResult head).trapTaken = false) :
    RetiredIn (p.afterCommit head).state head.sequenceId := by
  refine ⟨p.commitEntry head, ?_, rfl, htaken⟩
  refine mem_append_right _ ?_
  rw [if_neg (by omega)]
  simp

theorem stepWb_advances (h : AtWriteback p.state ahead between) :
    Advances p.state p.stepWb.2.state p.state.ifId p.stepWb.2.state.ifId := by
  cases p.stepWb_cases with
  | idle hidle heq =>
    rw [heq]
    exact .refl _ _
  | commit head rest hentries hready heq =>
    rw [heq, commitReadyHead_eq]
    cases hflush : (p.commitResult head).trapFlush with
    | true => exact .clear le_rfl (afterCommit_trace head) rfl
    | false =>
      obtain ⟨ahead', rfl, -⟩ := h.flight.head_ready hentries hready
      obtain ⟨hretired, htaken, -⟩ := commit_of_noFlush (h.flight.completed head (by simp)) hflush
      have hpop : (p.afterCommit head).state.rob.entries = rest := by
        simp only [afterCommit, hretired, if_true]
        rw [ReorderBuffer.commitHead_of_ready hentries hready]
      have hold : robIds p.state = head.sequenceId :: robIds (p.afterCommit head).state := by
        simp [robIds, hentries, hpop]
      refine ⟨le_rfl, afterCommit_trace head, fun id hid => .inl ?_, fun id hid => ?_⟩
      · change id ∈ robIds p.state ++ _
        rw [hold]
        exact mem_cons_of_mem _ hid
      rw [hold] at hid
      rcases mem_cons.1 hid with rfl | hrest
      · have hmem : head.sequenceId ∈ inFlightIds p.state.rob p.state.ifId := by
          apply robIds_subset
          rw [hold]
          exact mem_cons_self
        exact .inr (.inl (afterCommit_retiredIn (h.flight.order_le _ hmem).1 htaken))
      · exact .inl hrest

theorem deliverPending_advances :
    Advances p.state p.deliverPending.state p.state.ifId p.deliverPending.state.ifId := by
  cases p.deliverPending_cases with
  | nothing heq =>
    rw [heq]
    exact .refl _ _
  | interrupt cpu hmay hservice heq =>
    rw [heq]
    exact .clear le_rfl prefix_rfl rfl
  | fault pending hpending hcommitted hdrained heq =>
    rw [heq]
    exact .clear le_rfl prefix_rfl hdrained.rob

theorem stepMem_advances (h : AtMemory p.state ahead between) :
    Advances p.state p.stepMem.state p.state.ifId p.stepMem.state.ifId := by
  have hissued : ∀ slot ∈ p.state.exMem, slot.effects.trap = none := fun slot hslot =>
    (h.flight.issued slot hslot).trap
  rcases p.stepMem_cases hissued with ⟨-, heq⟩ | ⟨slot, -, -, heq⟩ | ⟨slot, -, -, heq⟩
  · rw [heq]
    exact .refl _ _
  · rw [heq]
    exact .stay rfl rfl rfl fun _ h => h
  · rw [heq]
    exact .stay (robIds_markReady _ _ _ _) rfl rfl fun _ h => h

theorem decodable_subset {s : PipelineState} : ∀ slot ∈ decodable s, slot ∈ s.ifId := by
  intro slot hslot
  unfold decodable at hslot
  split_ifs at hslot
  · cases hslot
  · exact hslot

theorem stepEx_advances [Fpu] :
    Advances p.state p.stepEx.state p.state.ifId (decodable p.stepEx.state) := by
  rcases p.stepEx_cases with ⟨-, heq⟩ | ⟨slot, -, -, heq⟩ | ⟨slot, -, -, heq⟩
  · rw [heq]
    exact .stay rfl rfl rfl decodable_subset
  · rw [heq]
    exact .stay rfl rfl rfl decodable_subset
  rw [heq]
  cases p.executeSlot_cases slot (p.olderVectorDependency slot) with
  | done predictor hkind hpredicted heq =>
    rw [heq]
    exact .stay (robIds_markReady _ _ _ _) rfl rfl decodable_subset
  | redirect predictor hkind hpredicted heq =>
    rw [heq]
    exact .stay (robIds_markReady _ _ _ _) rfl rfl decodable_subset
  | held cpu hregs hkind htrap heq =>
    rw [heq]
    exact .stay rfl rfl rfl decodable_subset
  | load hkind htrap hbusy hhead heq =>
    rw [heq]
    exact .stay rfl rfl rfl decodable_subset
  | store hkind htrap hbusy heq =>
    rw [heq]
    exact .stay rfl rfl rfl decodable_subset

theorem stepId_advances (h : AtDecode p.state ahead between) :
    Advances p.state p.stepId.state (decodable p.state) p.stepId.state.nextIfId := by
  cases p.stepId_cases h.slots_fetched with
  | dropped hredirect heq =>
    rw [heq]
    exact .stay rfl rfl rfl (by simp [mapState])
  | waits cpu hregs hredirect heq =>
    rw [heq]
    refine .stay rfl rfl rfl fun slot hslot => ?_
    have hsome : decodable p.state = p.state.ifId := by simp [decodable, hredirect]
    rw [hsome]
    exact hslot
  | dispatch fetched hslot hfree hredirect hready heq =>
    have hsome : decodable p.state = some fetched := by simp [decodable, hredirect, hslot]
    have hids : robIds p.stepId.state = robIds p.state ++ [fetched.sequenceId] := by
      rw [heq]
      simp [robIds, dispatched, dispatchedSlot, decodeSlot]
    have hnone : p.stepId.state.nextIfId = none := by rw [heq]; rfl
    have htrace : p.stepId.state.retireTrace = p.state.retireTrace := by rw [heq]; rfl
    have hlast : p.stepId.state.lastSequenceId = p.state.lastSequenceId := by rw [heq]; rfl
    rw [hnone, hsome]
    refine ⟨hlast.ge, htrace ▸ prefix_rfl, fun id hid => .inl ?_, fun id hid => .inl ?_⟩
    · change id ∈ robIds p.stepId.state ++ _ at hid
      rw [hids] at hid
      simpa [inFlightIds, robIds] using hid
    · rw [hids]
      exact mem_append_left _ hid

theorem stepIf_advances :
    Advances p.state p.stepIf.state p.state.nextIfId p.stepIf.state.nextIfId := by
  cases p.stepIf_cases with
  | idle hidle heq =>
    rw [heq]
    exact .refl _ _
  | fault fault cpu hempty hnofault hfetch heq =>
    rw [heq]
    exact .stay rfl rfl rfl fun _ h => h
  | fetched raw cpu hempty hnofault hfetch heq =>
    rw [heq, hempty]
    refine ⟨Nat.le_succ _, prefix_rfl, fun id hid => ?_, fun id hid => .inl hid⟩
    rcases mem_append.1 hid with hrob | hnew
    · exact .inl (mem_append_left _ hrob)
    obtain rfl : id = p.state.lastSequenceId + 1 := by simpa [fetchedSlot] using hnew
    exact .inr (Nat.lt_succ_self _)

theorem frontStages_advances [Fpu] (h : AtMemory p.state ahead between) :
    Advances p.state p.frontStages.state p.state.ifId p.frontStages.state.nextIfId := by
  obtain ⟨_, _, hexecute⟩ := stepMem_atExecute h
  obtain ⟨_, _, hdecode⟩ := stepEx_atDecode hexecute
  have hmem := (stepMem_advances h).trans stepEx_advances
  exact hmem.trans ((stepId_advances hdecode).trans stepIf_advances)

theorem Reachable.advances_atMemory [Fpu] {q : Pipeline D} (hreach : Reachable p)
    (hq : p.beginCycle.atMemory = some q) : Advances p.state q.state p.state.ifId q.state.ifId := by
  obtain ⟨_, _, hinv⟩ := hreach.atWriteback
  have hwriteback := stepWb_advances (beginCycle_atWriteback hinv).1
  have hbegin : Advances p.state p.beginCycle.state p.state.ifId p.beginCycle.state.ifId :=
    .stay rfl rfl rfl fun _ h => h
  rcases hreach.step_cases with ⟨-, hnone, -⟩ | ⟨-, -, hsome, -⟩ | ⟨-, -, hsome, -⟩
  · rw [hnone] at hq
    cases hq
  · obtain rfl := Option.some.inj (hsome.symm.trans hq)
    exact hbegin.trans hwriteback
  · obtain rfl := Option.some.inj (hsome.symm.trans hq)
    exact hbegin.trans (hwriteback.trans deliverPending_advances)

theorem Reachable.advances_fromWriteback [Fpu] (hreach : Reachable p) :
    Advances p.beginCycle.stepWb.2.state p.step.state p.beginCycle.stepWb.2.state.ifId
      p.step.state.ifId := by
  obtain ⟨_, _, hinv⟩ := hreach.atWriteback
  obtain ⟨hbegin, hnext⟩ := beginCycle_atWriteback hinv
  obtain ⟨_, _, hmemory⟩ := stepWb_atMemory hbegin hnext
  rcases hreach.step_cases with ⟨-, -, heq⟩ | ⟨-, -, -, heq⟩ | ⟨-, -, -, heq⟩
  · rw [heq]
    exact .clear le_rfl prefix_rfl rfl
  · rw [heq]
    exact (frontStages_advances hmemory).trans (.stay rfl rfl rfl fun _ h => h)
  · obtain ⟨_, _, hmemory'⟩ := deliverPending_atMemory hmemory
    rw [heq]
    exact deliverPending_advances.trans
      ((frontStages_advances hmemory').trans (.stay rfl rfl rfl fun _ h => h))

theorem Reachable.advances_step [Fpu] (hreach : Reachable p) :
    Advances p.state p.step.state p.state.ifId p.step.state.ifId := by
  obtain ⟨_, _, hinv⟩ := hreach.atWriteback
  have hwriteback := stepWb_advances (beginCycle_atWriteback hinv).1
  have hbegin : Advances p.state p.beginCycle.state p.state.ifId p.beginCycle.state.ifId :=
    .stay rfl rfl rfl fun _ h => h
  exact hbegin.trans (hwriteback.trans hreach.advances_fromWriteback)

/-- The state after `n` cycles. -/
def run [Fpu] (p : Pipeline D) (n : ℕ) : Pipeline D := step^[n] p

theorem run_succ [Fpu] (p : Pipeline D) (n : ℕ) : p.run (n + 1) = (p.run n).step :=
  Function.iterate_succ_apply' step n p

theorem Reachable.run [Fpu] (hreach : Reachable p) (n : ℕ) : Reachable (p.run n) := by
  induction n with
  | zero => exact hreach
  | succ n ih =>
    rw [run_succ]
    exact .step ih

theorem Reachable.advances_run [Fpu] (hreach : Reachable p) (n : ℕ) :
    Advances p.state (p.run n).state p.state.ifId (p.run n).state.ifId := by
  induction n with
  | zero => exact .refl _ _
  | succ n ih =>
    rw [run_succ]
    exact ih.trans (hreach.run n).advances_step

end Pipeline

end VisualCpu
