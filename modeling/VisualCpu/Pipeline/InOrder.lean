import VisualCpu.Pipeline.AtomicCommit
import VisualCpu.Pipeline.LoadTiming

/-!
# Runs of the pipeline

What holds in every state of a run: instructions stay in the order in which they were fetched, and
registers and stores belong to them.
-/

namespace VisualCpu.Pipeline

open List Option

variable {D : Type} [Devices D] [Fpu]

theorem Reachable.commits_later {p : Pipeline D} (hreach : Reachable p) {head head' : RobEntry}
    {result result' : CommitBoundaryResult} (hcommit : p.cycleCommit = some (head, result)) {n : ℕ}
    (hlater : (p.step.run n).cycleCommit = some (head', result')) :
    head.sequenceId < head'.sequenceId := by
  have hoccupies : ∀ {p : Pipeline D} {head : RobEntry} {result : CommitBoundaryResult},
      p.cycleCommit = some (head, result) → p.state.rob.peekHead = some head ∧ head.ready := by
    intro p head result h
    obtain ⟨entry, hentry, heq⟩ := map_eq_some_iff.1 h
    obtain ⟨rfl, -⟩ := Prod.mk.inj heq
    exact filter_eq_some_iff.1 hentry
  obtain ⟨hhead, hready⟩ := hoccupies hcommit
  obtain ⟨hhead', -⟩ := hoccupies hlater
  obtain ⟨_, _, hinv⟩ := hreach.atWriteback
  have hbegin := (beginCycle_atWriteback hinv).1
  have hid : head.sequenceId ∈ inFlightIds p.state.rob p.state.ifId :=
    robIds_subset (mem_map.2 ⟨_, List.mem_of_head? hhead, rfl⟩)
  have hadvances := hreach.advances_fromWriteback.trans ((Reachable.step hreach).advances_run n)
  have hid' : head'.sequenceId ∈ inFlightIds (p.step.run n).state.rob (p.step.run n).state.ifId :=
    robIds_subset (mem_map.2 ⟨_, List.mem_of_head? hhead', rfl⟩)
  rcases hadvances.appear _ hid' with hold | hnew
  · exact stepWb_younger hbegin hhead hready _ hold
  · have hlast := (stepWb_advances hbegin).last
    exact ((hinv.flight.order_le _ hid).2.trans hlast).trans_lt hnew

section Runs

variable (cpu : Cpu D) (predictor : BranchPredictor) (n : ℕ)

/-- Instructions reach the commit boundary in the order of fetching, each at most once. -/
theorem run_commitsInOrder :
    ((range n).filterMap fun cycle =>
      ((init cpu predictor).run cycle).cycleCommit.map (·.1.sequenceId)).Pairwise (· < ·) := by
  rw [pairwise_filterMap]
  refine pairwise_lt_range.imp fun {i j} hlt id hid id' hid' => ?_
  obtain ⟨⟨head, result⟩, hcommit, rfl⟩ := map_eq_some_iff.1 hid
  obtain ⟨⟨head', result'⟩, hcommit', rfl⟩ := map_eq_some_iff.1 hid'
  obtain ⟨k, rfl⟩ := Nat.exists_eq_add_of_lt hlt
  have hrun : (init cpu predictor).run (i + k + 1) = ((init cpu predictor).run i).step.run k := by
    unfold Pipeline.run
    rw [Nat.add_right_comm, Nat.add_comm, Function.iterate_add_apply, Function.iterate_succ_apply']
  rw [hrun] at hcommit'
  exact Reachable.commits_later (.run (.init cpu predictor) i) hcommit hcommit'

/-- The reorder buffer is what is completed, in the memory stage and in the execute stage, in the
order of fetching, and nothing is ever replayed. -/
theorem run_inOrder :
    (∃ ahead between, AtWriteback ((init cpu predictor).run n).state ahead between) ∧
      ((init cpu predictor).run n).beginCycle.tryReplayFlush = none :=
  have hreach : Reachable ((init cpu predictor).run n) := .run (.init cpu predictor) n
  ⟨hreach.atWriteback, hreach.tryReplayFlush_none⟩

/-- Each physical register has one owner, an architectural register, an instruction in flight or
the free list, and thirty-seven are enough. -/
theorem run_registersOwned : RenameFlight ((init cpu predictor).run n).state :=
  renameFlight_cycle.reachable (.run (.init cpu predictor) n)

/-- A store in the queue belongs to an instruction in flight. -/
theorem run_storesOwned : StoreFlight ((init cpu predictor).run n).state
    ((init cpu predictor).run n).state.exMem ((init cpu predictor).run n).state.idEx :=
  storeFlight_cycle.reachable (.run (.init cpu predictor) n)

end Runs

end VisualCpu.Pipeline
