import VisualCpu.Pipeline.RenameFlight
import VisualCpu.Pipeline.SequenceIds

/-!
# The result of an atomic instruction

The value of an atomic instruction exists only at the commit boundary. Writeback then
copies the destination of the reorder buffer entry over it, and nothing has written
that destination: the value is lost, and the destination stays pending for good.
-/

namespace VisualCpu

namespace Pipeline

variable {D : Type} [Devices D] {p : Pipeline D} {head : RobEntry}

/-- The destination of an entry by architectural number. -/
def destOf (head : RobEntry) : ℕ := (decode head.raw).rd

/-- The physical register that stands for the destination once the entry has retired. -/
def committedPhys (q : Pipeline D) (head : RobEntry) : ℕ :=
  q.state.renameMap.architecturalSource (Fin.ofNat 32 (destOf head))

def functionalAfter [Fpu] (p : Pipeline D) (head : RobEntry) : FunctionalBackend D :=
  FunctionalBackend.executeFetched ⟨p.cpu, []⟩ (p.cpu.setPc head.pc) head.raw

/-- Writeback leaves the value of an atomic instruction in its destination, where the
functional backend leaves it and where younger instructions find it. -/
structure AtomicReachesRd [Fpu] (p : Pipeline D) (head : RobEntry) : Prop where
  gpr : ∃ write, (p.cpu.applyAtomicRequest head.effects.atomic).1.rdWrite = some write ∧
    p.stepWb.2.cpu.core.readGpr (destOf head) = write.value ∧
    p.stepWb.2.state.physRegs.read (p.stepWb.2.committedPhys head) = write.value
  functional : p.stepWb.2.cpu.core.readGpr (destOf head) =
    (p.functionalAfter head).cpu.core.readGpr (destOf head)
  ready : p.stepWb.2.state.physRegs.isReady (p.stepWb.2.committedPhys head)

theorem writesRd_of_atomic {insn : Insn} (hopcode : insn.opcode = 0x2F) (hrd : insn.rd ≠ 0) :
    PipelineHazards.writesRd insn := by
  simp [PipelineHazards.writesRd, describeRegisters, describeRd, hopcode, hrd, isStandardFpLoad,
    isFmvDX, isFmvWX, isFmvD, isFnegD, isFsgnjAnyD, isFsgnjAnyS, isFarithS, isFarithD, isFminmax,
    isFsqrtS, isFsqrtD, isFusedS, isFusedD, isFcvtDFromInt, isFcvtSFromInt, isFcvtDS, isFcvtSD,
    isFmvXD, isFmvXW, isFcvtIntFromD, isFcvtIntFromS, isFcompareS, isFcompareD, isFclassS,
    isFclassD, isOpFp, isFsgnjD, isFsgnjnD, isFsgnjxD, isFsgnjS, isFsgnjnS, isFsgnjxS, isFaddS,
    isFsubS, isFmulS, isFdivS, isFaddD, isFsubD, isFmulD, isFdivD, isFmaxD, isFminD, isFmaxS,
    isFminS, isFmaddS, isFmsubS, isFnmsubS, isFnmaddS, isFmaddD, isFmsubD, isFnmsubD, isFnmaddD,
    isFcvtWD, isFcvtWuD, isFcvtLD, isFcvtLuD, isFcvtDW, isFcvtDWu, isFcvtDL, isFcvtDLu, isFcvtWS,
    isFcvtWuS, isFcvtLS, isFcvtLuS, isFcvtSW, isFcvtSWu, isFcvtSL, isFcvtSLu, isFeqS, isFltS,
    isFleS, isFeqD, isFltD, isFleD]

theorem CompletedEntry.effects_of_atomic (h : CompletedEntry head)
    (hopcode : (decode head.raw).opcode = 0x2F) (htrap : head.effects.trap = none) :
    head.effects = { atomic := head.effects.atomic } := by
  obtain ⟨computed, hshape, hcompletes⟩ := h.effects
  generalize head.effects = effects at htrap hcompletes ⊢
  have hload : computed.mem.kind ≠ .load := by
    intro hkind
    obtain ⟨_, _, hvalid, -⟩ := hshape.memory (by simp [hkind])
    simp [describeMemory, hopcode] at hvalid
  cases hcompletes with
  | same => exact hshape.ofAtomic hopcode htrap
  | loaded hkind => exact absurd hkind hload
  | faulted hkind => exact absurd hkind hload

theorem atomic_pending {ahead between : List RobEntry} (hflight : AtWriteback p.state ahead between)
    (hrename : RenameFlight p.state) (hhead : p.state.rob.peekHead = some head)
    (hready : head.ready) (hopcode : (decode head.raw).opcode = 0x2F)
    (hrd : destOf head ≠ 0) (hretired : (p.commitResult head).retired) :
    p.stepWb.2.state.physRegs.isReady (p.stepWb.2.committedPhys head) = false := by
  cases p.stepWb_cases with
  | idle hidle =>
    rw [hidle head hhead] at hready
    cases hready
  | commit first rest hentries hready' heq =>
    have hfirst : first = head := by simpa [ReorderBuffer.peekHead, hentries] using hhead
    subst hfirst
    obtain ⟨ahead', rfl, -⟩ := hflight.flight.head_ready hentries hready
    have htrap : first.effects.trap = none := by
      by_contra hsome
      obtain ⟨trap, htrap⟩ := Option.ne_none_iff_exists'.1 hsome
      rw [(commitResult_of_trap htrap).retired] at hretired
      cases hretired
    have heffects := CompletedEntry.effects_of_atomic (hflight.flight.completed first (by simp))
      hopcode htrap
    have hflush : (p.commitResult first).trapFlush = false := by
      rcases p.commitResult_cases first with htrapped | hfinished
      · rw [htrapped.retired] at hretired
        cases hretired
      rw [hfinished.trapFlush, heffects]
      rfl
    -- the entry has a destination of its own
    have hmem : first ∈ p.state.rob.entries := by simp [hentries]
    have hdest := hrename.dest first hmem
    have harch : first.archRd = destOf first := by
      rw [hdest.arch, if_pos (writesRd_of_atomic hopcode hrd)]
      rfl
    have hphys : first.physRd ≠ 0 := by
      rw [ne_eq, hdest.phys, harch]
      exact hrd
    have hpending := hrename.pending first hmem ⟨hphys, .inr hopcode⟩
    obtain ⟨hne, hfin⟩ := hdest.arch_ne_zero hphys
    have hmap : (p.afterCommit first).committedPhys first = first.physRd := by
      simp only [committedPhys, afterCommit, hretired, if_true, retiredMap]
      rw [if_pos ⟨hne, hphys⟩, ← harch]
      unfold RenameMap.commitDest RenameMap.architecturalSource
      rw [if_neg hfin]
      dsimp only
      split_ifs <;> simp
    rw [heq, commitReadyHead_eq, hflush]
    simp only [Bool.false_eq_true, if_false]
    rw [hmap]
    exact hpending

/-- An atomic instruction with a destination never reaches it. -/
theorem Reachable.atomic_lost [Fpu] (hreach : Reachable p)
    (hhead : p.state.rob.peekHead = some head)
    (hready : head.ready) (hopcode : (decode head.raw).opcode = 0x2F)
    (hrd : destOf head ≠ 0) (hretired : (p.beginCycle.commitResult head).retired) :
    ¬ p.beginCycle.AtomicReachesRd head := by
  intro hreaches
  obtain ⟨_, _, hinv⟩ := hreach.atWriteback
  have hrename := renameFlight_cycle.begin p (renameFlight_cycle.reachable hreach)
  have hpending := atomic_pending (beginCycle_atWriteback hinv).1 hrename hhead hready hopcode hrd
    hretired
  rw [hreaches.ready] at hpending
  cases hpending

/-- A load-reserved from the first word of the program. -/
def atomicProgram : List (BitVec 32) :=
  [0x00000097, -- auipc x1, 0
    0x1000B12F] -- lr.d x2, (x1)

/-- The pipeline that runs the program, after some cycles. -/
def atomicPipeline (n : ℕ) : Pipeline Unit :=
  letI := Fpu.silent
  (reset (Ram.ofWords memBase atomicProgram) ()).run n

theorem atomicPipeline_head : ∃ head, (atomicPipeline 4).state.rob.peekHead = some head ∧
    head.ready ∧ (decode head.raw).opcode = 0x2F ∧ destOf head = 2 ∧
    ((atomicPipeline 4).beginCycle.commitResult head).retired ∧
    (atomicPipeline 4).beginCycle.stepWb.2.state.physRegs.isReady
      ((atomicPipeline 4).beginCycle.stepWb.2.committedPhys head) = false := by
  have hsome : (atomicPipeline 4).state.rob.peekHead.isSome := by decide +kernel
  obtain ⟨head, hhead⟩ := Option.isSome_iff_exists.1 hsome
  have hall : ∀ head ∈ (atomicPipeline 4).state.rob.peekHead, head.ready ∧
      (decode head.raw).opcode = 0x2F ∧ destOf head = 2 ∧
      ((atomicPipeline 4).beginCycle.commitResult head).retired ∧
      (atomicPipeline 4).beginCycle.stepWb.2.state.physRegs.isReady
        ((atomicPipeline 4).beginCycle.stepWb.2.committedPhys head) = false := by
    decide +kernel
  exact ⟨head, hhead, hall head hhead⟩

/-- The load-reserved retires and its destination gets no value. -/
theorem loadReserved_lost : letI := Fpu.silent
    ∃ head, (atomicPipeline 4).state.rob.peekHead = some head ∧ head.ready ∧
      (decode head.raw).opcode = 0x2F ∧ destOf head ≠ 0 ∧
      ((atomicPipeline 4).beginCycle.commitResult head).retired ∧
      ¬ (atomicPipeline 4).beginCycle.AtomicReachesRd head := by
  let silent := Fpu.silent
  obtain ⟨head, hhead, hready, hopcode, hrd, hretired, hpending⟩ := atomicPipeline_head
  refine ⟨head, hhead, hready, hopcode, by simp [hrd], hretired, ?_⟩
  intro hreaches
  rw [hreaches.ready] at hpending
  cases hpending

/-- The result applies to the load-reserved of the program. -/
theorem atomic_lost_loadReserved : letI := Fpu.silent
    ∃ head, (atomicPipeline 4).state.rob.peekHead = some head ∧
      ¬ (atomicPipeline 4).beginCycle.AtomicReachesRd head := by
  let silent := Fpu.silent
  obtain ⟨head, hhead, hready, hopcode, hrd, hretired, -⟩ := atomicPipeline_head
  have hreach : Reachable (atomicPipeline 4) := Reachable.run (.init _ _) 4
  exact ⟨head, hhead, hreach.atomic_lost hhead hready hopcode (by simp [hrd]) hretired⟩

end Pipeline

end VisualCpu
