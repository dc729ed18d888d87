import VisualCpu.Pipeline.CycleFlight
import VisualCpu.Pipeline.RenameSafety

/-!
# Destinations in flight

The uncommitted destinations of the rename map are the ones of the reorder buffer, in
order. A destination is pending until its entry is ready. Nothing writes the
destination of an atomic instruction, so it stays pending even then.
-/

namespace VisualCpu

open List PipelineHazards

theorem rd_ne_zero_of_writesRd {insn : Insn} (h : writesRd insn) : insn.rd ≠ 0 := by
  intro hrd
  unfold writesRd describeRegisters describeRd at h
  simp only [hrd, bne_self_eq_false, Bool.false_and, Bool.false_eq_true, if_false, ne_eq,
    not_true_eq_false, and_false] at h
  split_ifs at h
  · cases h
  · cases h
  · split at h <;> cases h

/-- The register that an instruction renames, if it renames one. -/
theorem destination_ne_zero {raw : BitVec 32} (h : writesRd (decode raw)) :
    Fin.ofNat 32 (decode raw).rd ≠ 0 := by
  have hne := rd_ne_zero_of_writesRd h
  have hlt := (decode_bounded raw).rd
  intro hzero
  have hval := congrArg Fin.val hzero
  simp only [Fin.ofNat, Fin.val_zero, Nat.mod_eq_of_lt hlt] at hval
  exact hne hval

namespace PhysicalRegisterFile

variable (file : PhysicalRegisterFile) {phys other : ℕ}

theorem isReady_setPending (h : (file.setPending phys).isReady other) : file.isReady other := by
  unfold setPending isReady at *
  split_ifs at h
  · exact h
  by_cases heq : other = phys
  · subst heq
    simp at h
  · simpa [Function.update_of_ne heq] using h

theorem isReady_setPending_self (hne : phys ≠ 0) : (file.setPending phys).isReady phys = false := by
  simp [setPending, isReady, hne]

theorem isReady_write_of_ne (value : BitVec 64) (h : other ≠ phys) :
    (file.write phys value).isReady other = file.isReady other := by
  unfold write isReady
  split_ifs with hzero
  · subst hzero
    simp [Function.update_of_ne h]
  · simp [Function.update_of_ne h]

end PhysicalRegisterFile

def inFlightPhys (entries : List RobEntry) : List ℕ := (entries.map (·.physRd)).filter (· ≠ 0)

theorem inFlightPhys_append (entries rest : List RobEntry) :
    inFlightPhys (entries ++ rest) = inFlightPhys entries ++ inFlightPhys rest := by
  simp [inFlightPhys]

theorem length_inFlightPhys_le (entries : List RobEntry) :
    (inFlightPhys entries).length ≤ entries.length :=
  (length_filter_le _ _).trans_eq (length_map _)

/-- The destination of an entry is the one its encoding describes. -/
structure RobEntry.Destination (entry : RobEntry) : Prop where
  arch : entry.archRd = if writesRd (decode entry.raw) then (decode entry.raw).rd
    else 0
  phys : entry.physRd = 0 ↔ entry.archRd = 0

theorem RobEntry.Destination.arch_ne_zero {entry : RobEntry} (h : entry.Destination)
    (hne : entry.physRd ≠ 0) : entry.archRd ≠ 0 ∧ Fin.ofNat 32 entry.archRd ≠ 0 := by
  have harch : entry.archRd ≠ 0 := fun hzero => hne (h.phys.2 hzero)
  refine ⟨harch, ?_⟩
  rw [h.arch] at harch ⊢
  split_ifs at harch ⊢ with hwrites
  · exact destination_ne_zero hwrites
  · exact absurd rfl harch

/-- Nothing has written the destination of the entry. -/
def RobEntry.Unwritten (entry : RobEntry) : Prop :=
  entry.physRd ≠ 0 ∧ (entry.ready = false ∨ (decode entry.raw).opcode = 0x2F)

structure RenameFlight (s : PipelineState) : Prop where
  consistent : s.renameMap.Consistent (inFlightPhys s.rob.entries)
  bounded : s.renameMap.nextPhys ≤ 37
  dest : ∀ entry ∈ s.rob.entries, entry.Destination
  pending : ∀ entry ∈ s.rob.entries, entry.Unwritten → s.physRegs.isReady entry.physRd = false

theorem Flight.mem_markReady_cases {s : PipelineState} {mem ex fetched : Option StageSlot}
    {ahead between : List RobEntry} (h : Flight s mem ex fetched ahead between) {slot : StageSlot}
    (hslot : slot.pendingEntry ∈ s.rob.entries) {effects : InsnEffects} {lsqIndex : ℕ}
    {entry : RobEntry} (hentry : entry ∈ (s.rob.markReady slot.robIndex effects lsqIndex).entries) :
    entry = ReorderBuffer.readyEntry effects lsqIndex slot.pendingEntry ∨
      entry ∈ s.rob.entries ∧ entry ≠ slot.pendingEntry := by
  obtain ⟨before, after, hsplit⟩ := append_of_mem hslot
  have hnodup : s.rob.entries.Nodup := (List.Nodup.of_map _ (h.indices.imp Nat.ne_of_lt))
  have hentries := h.markReady_entries hsplit effects lsqIndex
  rw [StageSlot.pendingEntry_index] at hentries
  rw [hentries] at hentry
  rw [hsplit, nodup_append, nodup_cons] at hnodup
  rw [hsplit]
  rcases mem_append.1 hentry with hbefore | hafter
  · refine .inr ⟨mem_append_left _ hbefore, ?_⟩
    exact hnodup.2.2 entry hbefore slot.pendingEntry mem_cons_self
  rcases mem_cons.1 hafter with rfl | hafter
  · exact .inl rfl
  refine .inr ⟨mem_append_right _ (mem_cons_of_mem _ hafter), ?_⟩
  rintro rfl
  exact hnodup.2.1.1 hafter

namespace RenameFlight

variable {s s' : PipelineState} {mem ex fetched : Option StageSlot} {ahead between : List RobEntry}

theorem ofEmpty (hrob : s.rob.entries = []) (hconsistent : s.renameMap.Consistent [])
    (hbounded : s.renameMap.nextPhys ≤ 37) : RenameFlight s := by
  refine ⟨?_, hbounded, by simp [hrob], by simp [hrob]⟩
  rw [hrob]
  exact hconsistent

theorem congr (h : RenameFlight s) (hrob : s'.rob = s.rob) (hmap : s'.renameMap = s.renameMap)
    (hregs : s'.physRegs = s.physRegs) : RenameFlight s' := by
  obtain ⟨hconsistent, hbounded, hdest, hpending⟩ := h
  rw [← hrob, ← hmap] at hconsistent
  rw [← hmap] at hbounded
  rw [← hrob] at hdest hpending
  rw [← hregs] at hpending
  exact ⟨hconsistent, hbounded, hdest, hpending⟩

theorem rollback (h : RenameFlight s) (hrob : s'.rob.entries = [])
    (hmap : s'.renameMap = s.renameMap.rollback s.renameMap.committedCheckpoint) :
    RenameFlight s' := by
  have hbound := h.consistent.bound_le.trans h.bounded
  have hsmall : s.renameMap.committedBound < 2 ^ 32 := by omega
  apply ofEmpty hrob
  · rw [hmap]
    exact RenameMap.rollback_consistent h.consistent hsmall
  rw [hmap]
  exact (h.consistent.committedNextPhys_eq hsmall).le.trans hbound

theorem eq_of_phys (h : RenameFlight s) {entry entry' : RobEntry} (hentry : entry ∈ s.rob.entries)
    (hentry' : entry' ∈ s.rob.entries) (hphys : entry.physRd = entry'.physRd)
    (hne : entry.physRd ≠ 0) : entry = entry' := by
  have hnodup := (nodup_append.1 (nodup_append.1 h.consistent.nodup).2.1).1
  unfold inFlightPhys at hnodup
  rw [filter_map] at hnodup
  apply inj_on_of_nodup_map hnodup
  · exact mem_filter.2 ⟨hentry, by simpa using hne⟩
  · exact mem_filter.2 ⟨hentry', by simpa [← hphys] using hne⟩
  · exact hphys

theorem inFlightPhys_markReady (index : ℕ) (effects : InsnEffects) (lsqIndex : ℕ) :
    inFlightPhys (s.rob.markReady index effects lsqIndex).entries = inFlightPhys s.rob.entries := by
  unfold inFlightPhys ReorderBuffer.markReady
  rw [ReorderBuffer.map_markReadyIn]
  intro e
  rfl

theorem complete (h : RenameFlight s) (hflight : Flight s mem ex fetched ahead between)
    {slot : StageSlot} (hslot : slot.pendingEntry ∈ s.rob.entries) {effects : InsnEffects}
    {lsqIndex : ℕ} (hrob : s'.rob = s.rob.markReady slot.robIndex effects lsqIndex)
    (hmap : s'.renameMap = s.renameMap)
    (hregs : s'.physRegs = s.physRegs ∨ (decode slot.raw).opcode ≠ 0x2F ∧
      ∃ value, s'.physRegs = s.physRegs.write slot.rdPhys value) : RenameFlight s' := by
  refine ⟨?_, ?_, ?_, ?_⟩
  · rw [hrob, hmap, inFlightPhys_markReady]
    exact h.consistent
  · rw [hmap]
    exact h.bounded
  · intro entry hentry
    rw [hrob] at hentry
    rcases hflight.mem_markReady_cases hslot hentry with rfl | ⟨hold, -⟩
    · have hdest := h.dest _ hslot
      exact ⟨hdest.arch, hdest.phys⟩
    · exact h.dest entry hold
  · intro entry hentry hunwritten
    rw [hrob] at hentry
    rcases hflight.mem_markReady_cases hslot hentry with rfl | ⟨hold, hother⟩
    · obtain ⟨hne, hready | hopcode⟩ := hunwritten
      · cases hready
      rcases hregs with hregs | ⟨hnot, -⟩
      · have hold := h.pending slot.pendingEntry hslot ⟨hne, .inl rfl⟩
        rw [hregs]
        exact hold
      · exact absurd hopcode hnot
    · have hpending := h.pending entry hold hunwritten
      rcases hregs with hregs | ⟨-, value, hregs⟩
      · rw [hregs]
        exact hpending
      rw [hregs, PhysicalRegisterFile.isReady_write_of_ne]
      · exact hpending
      intro hphys
      exact hother (h.eq_of_phys hold hslot hphys hunwritten.1)

theorem retire {head : RobEntry} {rest : List RobEntry} (h : RenameFlight s)
    (hentries : s.rob.entries = head :: rest) (hrob : s'.rob.entries = rest)
    (hmap : s'.renameMap = Pipeline.retiredMap head s.renameMap)
    (hregs : s'.physRegs = s.physRegs) :
    RenameFlight s' := by
  have hconsistent := h.consistent
  have hdest := h.dest head (by simp [hentries])
  have hsub : ∀ entry ∈ rest, entry ∈ s.rob.entries := fun entry hentry => by
    rw [hentries]
    exact mem_cons_of_mem _ hentry
  rw [hentries] at hconsistent
  refine ⟨?_, ?_, ?_, ?_⟩
  · rw [hrob, hmap]
    unfold Pipeline.retiredMap
    by_cases hphys : head.physRd = 0
    · rw [if_neg (by simp [Pipeline.renames, hphys])]
      simpa [inFlightPhys, hphys] using hconsistent
    obtain ⟨hne, harch⟩ := hdest.arch_ne_zero hphys
    rw [if_pos ⟨hne, hphys⟩]
    have hcons : inFlightPhys (head :: rest) = head.physRd :: inFlightPhys rest := by
      simp [inFlightPhys, hphys]
    rw [hcons] at hconsistent
    exact hconsistent.commitDest harch
  · rw [hmap]
    unfold Pipeline.retiredMap
    split_ifs
    · rw [RenameMap.nextPhys_commitDest]
      exact h.bounded
    · exact h.bounded
  · rw [hrob]
    exact fun entry hentry => h.dest entry (hsub entry hentry)
  · rw [hrob, hregs]
    exact fun entry hentry => h.pending entry (hsub entry hentry)

theorem dispatch {entry : RobEntry} (h : RenameFlight s) (hlength : s.rob.entries.length ≤ 4)
    (hready : entry.ready = false) (hrob : s'.rob.entries = s.rob.entries ++ [entry])
    (harch : entry.archRd = if writesRd (decode entry.raw) then
      (decode entry.raw).rd else 0)
    (hdest : if writesRd (decode entry.raw) then
        entry.physRd = s.renameMap.nextDest ∧
          s'.renameMap = (s.renameMap.renameDest (Fin.ofNat 32 (decode entry.raw).rd)).2 ∧
          s'.physRegs = s.physRegs.setPending entry.physRd
      else entry.physRd = 0 ∧ s'.renameMap = s.renameMap ∧ s'.physRegs = s.physRegs) :
    RenameFlight s' := by
  have hmem : ∀ e ∈ s'.rob.entries, e ∈ s.rob.entries ∨ e = entry := by
    intro e he
    rw [hrob] at he
    simpa using he
  have hcount : (inFlightPhys s.rob.entries).length ≤ 4 :=
    (length_inFlightPhys_le _).trans hlength
  by_cases hwrites : writesRd (decode entry.raw)
  · rw [if_pos hwrites] at hdest harch
    obtain ⟨hphys, hmap, hregs⟩ := hdest
    have hdestination := destination_ne_zero hwrites
    have hfresh := h.consistent.nextDest_fresh
    rw [← hphys] at hfresh
    refine ⟨?_, ?_, ?_, ?_⟩
    · have hids : inFlightPhys s'.rob.entries =
          inFlightPhys s.rob.entries ++ [s.renameMap.nextDest] := by
        rw [hrob, inFlightPhys_append, ← hphys]
        simp [inFlightPhys, hfresh.2.2]
      rw [hids, hmap]
      exact h.consistent.renameDest hdestination (by omega)
    · rw [hmap]
      refine (h.consistent.nextPhys_renameDest_le hdestination).trans ?_
      have := h.bounded
      omega
    · intro e he
      rcases hmem e he with hold | rfl
      · exact h.dest e hold
      refine ⟨by rw [if_pos hwrites]; exact harch, ?_⟩
      rw [harch]
      exact ⟨fun hzero => absurd hzero hfresh.2.2,
        fun hzero => absurd hzero (rd_ne_zero_of_writesRd hwrites)⟩
    · intro e he hunwritten
      rw [hregs]
      rcases hmem e he with hold | rfl
      · have hpending := h.pending e hold hunwritten
        by_contra hready'
        rw [Bool.not_eq_false] at hready'
        rw [PhysicalRegisterFile.isReady_setPending _ hready'] at hpending
        cases hpending
      · exact PhysicalRegisterFile.isReady_setPending_self _ hfresh.2.2
  · rw [if_neg hwrites] at hdest harch
    obtain ⟨hphys, hmap, hregs⟩ := hdest
    refine ⟨?_, ?_, ?_, ?_⟩
    · have hids : inFlightPhys s'.rob.entries = inFlightPhys s.rob.entries := by
        rw [hrob, inFlightPhys_append]
        simp [inFlightPhys, hphys]
      rw [hids, hmap]
      exact h.consistent
    · rw [hmap]
      exact h.bounded
    · intro e he
      rcases hmem e he with hold | rfl
      · exact h.dest e hold
      · exact ⟨by rw [if_neg hwrites]; exact harch, by simp [hphys, harch]⟩
    · intro e he hunwritten
      rw [hregs]
      rcases hmem e he with hold | rfl
      · exact h.pending e hold hunwritten
      · exact absurd hphys hunwritten.1

end RenameFlight

namespace Pipeline

variable {D : Type} [Devices D] {p : Pipeline D} {ahead between : List RobEntry}

theorem stepWb_renameFlight (hflight : AtWriteback p.state ahead between)
    (h : RenameFlight p.state) : RenameFlight p.stepWb.2.state := by
  cases p.stepWb_cases with
  | idle hidle heq =>
    rw [heq]
    exact h
  | commit head rest hentries hready heq =>
    obtain ⟨ahead', rfl, -⟩ := hflight.flight.head_ready hentries hready
    rw [heq, commitReadyHead_eq]
    by_cases hretired : (p.commitResult head).retired
    · have hrest : RenameFlight (p.afterCommit head).state := by
        apply h.retire hentries
        · simp only [afterCommit, hretired, if_true]
          rw [ReorderBuffer.commitHead_of_ready hentries hready]
        · simp only [afterCommit, hretired, if_true]
        · rfl
      split_ifs
      · exact hrest.rollback rfl rfl
      · exact hrest
    · have hrest : RenameFlight (p.afterCommit head).state := by
        apply h.congr
        · exact if_neg hretired
        · exact if_neg hretired
        · rfl
      split_ifs
      · exact hrest.rollback rfl rfl
      · exact hrest

theorem deliverPending_renameFlight (h : RenameFlight p.state) :
    RenameFlight p.deliverPending.state := by
  cases p.deliverPending_cases with
  | nothing heq =>
    rw [heq]
    exact h
  | interrupt cpu hmay hservice heq =>
    rw [heq]
    exact h.rollback rfl rfl
  | fault pending hpending hcommitted hdrained heq =>
    rw [heq]
    exact h.congr rfl rfl rfl

theorem StageSlot.Issued.not_atomic {slot : StageSlot} (h : slot.Issued) :
    (decode slot.raw).opcode ≠ 0x2F := by
  obtain ⟨_, _, hvalid, -⟩ := h.shape.memory h.kind
  intro hopcode
  simp [describeMemory, hopcode] at hvalid

theorem stepMem_renameFlight (hflight : AtMemory p.state ahead between) (h : RenameFlight p.state) :
    RenameFlight p.stepMem.state := by
  have hissued : ∀ slot ∈ p.state.exMem, slot.effects.trap = none := fun slot hslot =>
    (hflight.flight.issued slot hslot).trap
  rcases p.stepMem_cases hissued with ⟨-, heq⟩ | ⟨slot, -, -, heq⟩ | ⟨slot, hslot, -, heq⟩
  · rw [heq]
    exact h
  · rw [heq]
    exact h.congr rfl rfl rfl
  have hslots := hflight.flight
  rw [hslot] at hslots
  have hnot := StageSlot.Issued.not_atomic (hslots.issued slot rfl)
  rw [heq]
  refine h.complete hslots hslots.mem_mem rfl rfl ?_
  change (p.memOutcome slot).physRegs = _ ∨ _ ∧ ∃ value, (p.memOutcome slot).physRegs = _
  unfold memOutcome
  cases slot.effects.mem.kind with
  | none => exact .inl rfl
  | store => exact .inl rfl
  | load =>
    rcases p.loadValue slot with ⟨fault | value, cpu⟩
    · exact .inl rfl
    simp only [loadedOutcome]
    split_ifs
    · exact .inr ⟨hnot, _, rfl⟩
    · exact .inl rfl

theorem stepEx_renameFlight [Fpu] (hflight : AtExecute p.state ahead between)
    (h : RenameFlight p.state) : RenameFlight p.stepEx.state := by
  rcases p.stepEx_cases with ⟨-, heq⟩ | ⟨slot, -, -, heq⟩ | ⟨slot, hslot, -, heq⟩
  · rw [heq]
    exact h
  · rw [heq]
    exact h.congr rfl rfl rfl
  rw [heq]
  have hslots := hflight.flight
  rw [hslot] at hslots
  have hshape := p.slotEffects_shape slot (p.olderVectorDependency slot)
  rw [(hslots.decoded slot rfl).insn] at hshape
  have hdone : RenameFlight
      (p.afterExecution slot (p.slotEffects slot (p.olderVectorDependency slot))).state := by
    refine h.complete hslots hslots.ex_mem rfl rfl ?_
    generalize p.slotEffects slot (p.olderVectorDependency slot) = effects at hshape ⊢
    unfold afterExecution
    cases hwrite : effects.rdWrite with
    | none => exact .inl rfl
    | some write =>
      split_ifs
      · refine .inr ⟨fun hopcode => ?_, _, rfl⟩
        -- an atomic instruction writes no register at execution
        cases htrap : effects.trap with
        | none =>
          rw [hshape.ofAtomic hopcode htrap] at hwrite
          cases hwrite
        | some trap =>
          rw [hshape.trapped trap htrap] at hwrite
          cases hwrite
      · exact .inl rfl
  cases p.executeSlot_cases slot (p.olderVectorDependency slot) with
  | done predictor hkind hpredicted heq =>
    rw [heq]
    exact hdone.congr rfl rfl rfl
  | redirect predictor hkind hpredicted heq =>
    rw [heq]
    exact hdone.congr rfl rfl rfl
  | held cpu hregs hkind htrap heq =>
    rw [heq]
    exact h.congr rfl rfl rfl
  | load hkind htrap hbusy hhead heq =>
    rw [heq]
    exact h.congr rfl rfl rfl
  | store hkind htrap hbusy heq =>
    rw [heq]
    exact h.congr rfl rfl rfl

theorem AtDecode.length_le {s : PipelineState} (h : AtDecode s ahead between)
    (hfree : s.nextIdEx = none) : s.rob.entries.length ≤ 4 := by
  have hentries := h.flight.entries
  have htiming := h.timing
  have hbetween := h.flight.between_nil
  rw [hentries, hfree]
  cases hmem : s.nextExMem with
  | none =>
    rw [hmem] at htiming
    have : ahead.length ≤ 3 := htiming
    simp [hbetween hmem]
    omega
  | some slot =>
    rw [hmem] at htiming
    rcases htiming with ⟨-, hahead, rfl⟩ | ⟨-, hsum, -⟩
    · simp
      omega
    simp
    omega

omit [Devices D] in
theorem dispatched_renameFlight {fetched : StageSlot} (h : RenameFlight p.state)
    (hlength : p.state.rob.entries.length ≤ 4) : RenameFlight (p.dispatched fetched).state := by
  have hraw : (p.dispatchedSlot fetched).pendingEntry.raw = fetched.raw := rfl
  have hinsn : (p.dispatchedSlot fetched).insn = decode fetched.raw := rfl
  apply h.dispatch hlength (StageSlot.pendingEntry_ready _)
  · rfl
  · rw [hraw, StageSlot.pendingEntry_archRd, hinsn]
  rw [hraw, StageSlot.pendingEntry_physRd]
  by_cases hwrites : writesRd (decode fetched.raw)
  · rw [if_pos hwrites]
    refine ⟨?_, if_pos hwrites, if_pos hwrites⟩
    exact (if_pos hwrites).trans (RenameMap.renameDest_phys (destination_ne_zero hwrites))
  · rw [if_neg hwrites]
    exact ⟨if_neg hwrites, if_neg hwrites, if_neg hwrites⟩

theorem stepId_renameFlight (hflight : AtDecode p.state ahead between) (h : RenameFlight p.state) :
    RenameFlight p.stepId.state := by
  cases p.stepId_cases hflight.slots_fetched with
  | dropped hredirect heq =>
    rw [heq]
    exact h.congr rfl rfl rfl
  | waits cpu hregs hredirect heq =>
    rw [heq]
    exact h.congr rfl rfl rfl
  | dispatch fetched hslot hfree hredirect hready heq =>
    rw [heq]
    exact dispatched_renameFlight h (AtDecode.length_le hflight hfree)

theorem stepIf_renameFlight (h : RenameFlight p.state) : RenameFlight p.stepIf.state := by
  cases p.stepIf_cases with
  | idle hidle heq =>
    rw [heq]
    exact h
  | fault fault cpu hempty hnofault hfetch heq =>
    rw [heq]
    exact h.congr rfl rfl rfl
  | fetched raw cpu hempty hnofault hfetch heq =>
    rw [heq]
    exact h.congr rfl rfl rfl

theorem renameFlight_cycle [Fpu] : CycleInvariant (D := D)
    (fun p => RenameFlight p.state) (fun p => RenameFlight p.state)
    (fun p => RenameFlight p.state) (fun p => RenameFlight p.state)
    (fun p => RenameFlight p.state) where
  init _ _ := .ofEmpty rfl RenameMap.init_consistent (by decide : 32 ≤ 37)
  begin _ h := h.congr rfl rfl rfl
  writeback _ _ _ hflight h := stepWb_renameFlight hflight h
  deferred _ _ _ _ h _ := h.rollback rfl rfl
  deliver _ _ _ _ h := deliverPending_renameFlight h
  stepMem _ _ _ hflight h := stepMem_renameFlight hflight h
  stepEx _ _ _ hflight h := stepEx_renameFlight hflight h
  stepId _ _ _ hflight h := stepId_renameFlight hflight h
  stepIf _ _ _ _ h := stepIf_renameFlight h
  finish _ h := h.congr rfl rfl rfl

end Pipeline

end VisualCpu
