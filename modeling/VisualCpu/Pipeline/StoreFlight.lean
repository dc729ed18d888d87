import VisualCpu.Pipeline.CycleFlight

/-!
# Stores in the queue

Every store in the load-store queue belongs to an instruction in flight: to the slot in
the execute stage, to the slot in the memory stage, or to a completed entry of the
reorder buffer. A store whose entry has completed without a trap is settled, so it
leaves the queue when its entry retires.
-/

namespace VisualCpu

open List LoadStoreQueue Option

/-- The word encodes a scalar store. -/
def DescribesStore (raw : BitVec 32) : Prop :=
  (describeMemory (decode raw)).valid ∧ (describeMemory (decode raw)).kind = .store

/-- Address, data and order are known. -/
def LsqEntry.Settled (entry : LsqEntry) : Prop :=
  entry.addressReady ∧ entry.dataReady ∧ entry.orderReady

theorem LoadStoreQueue.Later.settled {entry old : LsqEntry} (h : Later entry old)
    (hold : old.Settled) : entry.Settled :=
  ⟨h.addressReady hold.1, h.dataReady hold.2.1, h.orderReady hold.2.2⟩

/-- The instruction in flight that a store in the queue belongs to. -/
inductive StoreOwner (rob : List RobEntry) (mem ex : Option StageSlot) (entry : LsqEntry) : Prop
  | ex (slot : StageSlot) (hslot : ex = some slot) (hindex : slot.lsqIndex = entry.index)
      (hid : slot.sequenceId = entry.sequenceId)
  | mem (slot : StageSlot) (hslot : mem = some slot) (hindex : slot.lsqIndex = entry.index)
      (hid : slot.sequenceId = entry.sequenceId) (haddress : entry.addressReady)
      (hdata : entry.dataReady)
  | completed (owner : RobEntry) (hmem : owner ∈ rob) (hready : owner.ready)
      (hindex : owner.lsqIndex = entry.index) (hid : owner.sequenceId = entry.sequenceId)
      (hsettled : owner.effects.trap = none → entry.Settled)

/-- The stores in the queue when `mem` and `ex` are the current slots. -/
structure StoreFlight (s : PipelineState) (mem ex : Option StageSlot) : Prop where
  sorted : s.lsq.Sorted
  held : ∀ slot ∈ ex, slot.lsqIndex ≠ 0 → DescribesStore slot.raw
  owner : ∀ entry ∈ s.lsq.entries, entry.kind = .store → StoreOwner s.rob.entries mem ex entry

theorem Flight.markReady_mem {s : PipelineState} {mem ex fetched : Option StageSlot}
    {ahead between : List RobEntry} (h : Flight s mem ex fetched ahead between) {slot : StageSlot}
    (hslot : slot.pendingEntry ∈ s.rob.entries) (effects : InsnEffects) (lsqIndex : ℕ) :
    (∀ owner ∈ s.rob.entries, owner.ready →
      owner ∈ (s.rob.markReady slot.robIndex effects lsqIndex).entries) ∧
      ReorderBuffer.readyEntry effects lsqIndex slot.pendingEntry ∈
        (s.rob.markReady slot.robIndex effects lsqIndex).entries := by
  obtain ⟨before, after, hsplit⟩ := append_of_mem hslot
  have hentries := h.markReady_entries hsplit effects lsqIndex
  rw [StageSlot.pendingEntry_index] at hentries
  rw [hentries]
  refine ⟨fun owner howner hready => ?_, by simp⟩
  rw [hsplit] at howner
  rcases mem_append.1 howner with hbefore | hafter
  · exact mem_append_left _ hbefore
  rcases mem_cons.1 hafter with rfl | hafter
  · cases hready
  · exact mem_append_right _ (mem_cons_of_mem _ hafter)

namespace StoreOwner

variable {rob rob' : List RobEntry} {mem ex : Option StageSlot} {entry entry' : LsqEntry}

theorem later (h : StoreOwner rob mem ex entry) (hlater : LoadStoreQueue.Later entry' entry) :
    StoreOwner rob mem ex entry' := by
  cases h with
  | ex slot hslot hindex hid =>
    exact .ex slot hslot (hindex.trans hlater.index.symm) (hid.trans hlater.sequenceId.symm)
  | mem slot hslot hindex hid haddress hdata =>
    exact .mem slot hslot (hindex.trans hlater.index.symm) (hid.trans hlater.sequenceId.symm)
      (hlater.addressReady haddress) (hlater.dataReady hdata)
  | completed owner hmem hready hindex hid hsettled =>
    exact .completed owner hmem hready (hindex.trans hlater.index.symm)
      (hid.trans hlater.sequenceId.symm) fun htrap => hlater.settled (hsettled htrap)

theorem mono (h : StoreOwner rob mem ex entry)
    (hrob : ∀ owner ∈ rob, owner.ready → owner ∈ rob') : StoreOwner rob' mem ex entry := by
  cases h with
  | ex slot hslot hindex hid => exact .ex slot hslot hindex hid
  | mem slot hslot hindex hid haddress hdata =>
    exact .mem slot hslot hindex hid haddress hdata
  | completed owner hmem hready hindex hid hsettled =>
    exact .completed owner (hrob owner hmem hready) hready hindex hid hsettled

end StoreOwner

namespace StoreFlight

variable {s s' : PipelineState} {mem ex fetched : Option StageSlot} {ahead between : List RobEntry}

theorem empty (hentries : s.lsq.entries = []) (hex : ex = none) : StoreFlight s mem ex := by
  refine ⟨by simp [LoadStoreQueue.Sorted, hentries], by simp [hex], by simp [hentries]⟩

theorem frame (h : StoreFlight s mem ex) (hlsq : LoadStoreQueue.Inherits s.lsq s'.lsq)
    (hsorted : s'.lsq.Sorted)
    (hrob : ∀ owner ∈ s.rob.entries, owner.ready → owner ∈ s'.rob.entries) :
    StoreFlight s' mem ex := by
  refine ⟨hsorted, h.held, fun entry hentry hkind => ?_⟩
  obtain ⟨old, hold, hlater⟩ := hlsq.2 entry hentry
  exact ((h.owner old hold (hlater.kind.symm.trans hkind)).later hlater).mono hrob

theorem congr (h : StoreFlight s mem ex) (hlsq : s'.lsq = s.lsq) (hrob : s'.rob = s.rob) :
    StoreFlight s' mem ex := by
  refine h.frame ?_ ?_ ?_
  · rw [hlsq]
    exact .refl _
  · rw [hlsq]
    exact h.sorted
  · rw [hrob]
    exact fun owner howner _ => howner

variable {slot : StageSlot} {effects : InsnEffects}

theorem completeMem (h : StoreFlight s (some slot) ex)
    (hflight : Flight s (some slot) ex fetched ahead between)
    (hlsq : LoadStoreQueue.Inherits s.lsq s'.lsq) (hsorted : s'.lsq.Sorted)
    (horder : effects.trap = none → slot.lsqIndex ≠ 0 →
      ∀ entry ∈ s'.lsq.entries, entry.index = slot.lsqIndex → entry.orderReady)
    (hpos : ∀ entry ∈ s.lsq.entries, 0 < entry.index)
    (hrob : s'.rob = s.rob.markReady slot.robIndex effects slot.lsqIndex) :
    StoreFlight s' none ex := by
  obtain ⟨hkeep, hnew⟩ := hflight.markReady_mem hflight.mem_mem effects slot.lsqIndex
  rw [← hrob] at hkeep hnew
  have hframe := h.frame hlsq hsorted hkeep
  refine ⟨hsorted, h.held, fun entry hentry hkind => ?_⟩
  cases hframe.owner entry hentry hkind with
  | ex other hslot hindex hid => exact .ex other hslot hindex hid
  | completed owner hmem hready hindex hid hsettled =>
    exact .completed owner hmem hready hindex hid hsettled
  | mem other hslot hindex hid haddress hdata =>
    obtain rfl := some.inj hslot
    obtain ⟨old, hold, hlater⟩ := hlsq.2 entry hentry
    have hne : slot.lsqIndex ≠ 0 := by
      have := hpos old hold
      have := hlater.index
      omega
    refine .completed _ hnew rfl ?_ hid fun htrap => ⟨haddress, hdata, ?_⟩
    · exact (if_pos hne).trans hindex
    · exact horder htrap hne entry hentry hindex.symm

theorem completeEx (h : StoreFlight s mem (some slot))
    (hflight : Flight s mem (some slot) fetched ahead between)
    (htrapped : slot.lsqIndex ≠ 0 → effects.trap ≠ none)
    (hpos : ∀ entry ∈ s.lsq.entries, 0 < entry.index) (hlsq : s'.lsq = s.lsq)
    (hrob : s'.rob = s.rob.markReady slot.robIndex effects slot.lsqIndex) :
    StoreFlight s' mem none := by
  obtain ⟨hkeep, hnew⟩ := hflight.markReady_mem hflight.ex_mem effects slot.lsqIndex
  rw [← hrob] at hkeep hnew
  refine ⟨by rw [hlsq]; exact h.sorted, by simp, fun entry hentry hkind => ?_⟩
  rw [hlsq] at hentry
  cases (h.owner entry hentry hkind).mono hkeep with
  | mem other hslot hindex hid haddress hdata =>
    exact .mem other hslot hindex hid haddress hdata
  | completed owner hmem hready hindex hid hsettled =>
    exact .completed owner hmem hready hindex hid hsettled
  | ex other hslot hindex hid =>
    obtain rfl := some.inj hslot
    have hne : slot.lsqIndex ≠ 0 := by
      have := hpos entry hentry
      omega
    refine .completed _ hnew rfl ?_ hid fun htrap => absurd htrap (htrapped hne)
    exact (if_pos hne).trans hindex

theorem issue {slot slot' : StageSlot} (h : StoreFlight s none (some slot)) (hrob : s'.rob = s.rob)
    (hsorted : s'.lsq.Sorted) (hid' : slot'.sequenceId = slot.sequenceId)
    (hstores : ∀ entry ∈ s'.lsq.entries, entry.kind = .store →
      ∃ old ∈ s.lsq.entries, LoadStoreQueue.Later entry old)
    (hheld : ∀ entry ∈ s'.lsq.entries, entry.kind = .store → entry.index = slot.lsqIndex →
      slot'.lsqIndex = slot.lsqIndex ∧ entry.addressReady ∧ entry.dataReady) :
    StoreFlight s' (some slot') none := by
  refine ⟨hsorted, by simp, fun entry hentry hkind => ?_⟩
  obtain ⟨old, hold, hlater⟩ := hstores entry hentry hkind
  rw [hrob]
  cases (h.owner old hold (hlater.kind.symm.trans hkind)).later hlater with
  | mem other hslot => cases hslot
  | completed owner hmem hready hindex hid hsettled =>
    exact .completed owner hmem hready hindex hid hsettled
  | ex other hslot hindex hid =>
    obtain rfl := some.inj hslot
    obtain ⟨hsame, haddress, hdata⟩ := hheld entry hentry hkind hindex.symm
    exact .mem slot' rfl (hsame.trans hindex) (hid'.trans hid) haddress hdata

theorem le_of_head (h : StoreFlight s (some slot) ex)
    (hflight : Flight s (some slot) ex fetched [] between) :
    ∀ entry ∈ s.lsq.entries, entry.kind = .store → slot.sequenceId ≤ entry.sequenceId := by
  have hhead : s.rob.entries = slot.pendingEntry :: (between ++ pendingEntries ex) := by
    simpa using hflight.entries
  have horder := (pairwise_append.1 hflight.order).1
  rw [hhead, map_cons, pairwise_cons] at horder
  have hle : ∀ owner ∈ s.rob.entries, slot.sequenceId ≤ owner.sequenceId := by
    intro owner howner
    rw [hhead] at howner
    rcases mem_cons.1 howner with rfl | hrest
    · exact le_rfl
    · exact (horder.1 _ (mem_map_of_mem hrest)).le
  intro entry hentry hkind
  cases h.owner entry hentry hkind with
  | mem other hslot _ hid =>
    obtain rfl := some.inj hslot
    exact hid.le
  | completed owner hmem _ _ hid => exact hid ▸ hle owner hmem
  | ex other hslot _ hid =>
    subst hslot
    exact hid ▸ hle other.pendingEntry hflight.ex_mem

end StoreFlight

namespace Pipeline

variable {D : Type} [Devices D] {p : Pipeline D} {ahead between : List RobEntry}

theorem stepWb_storeFlight (hflight : AtWriteback p.state ahead between)
    (h : StoreFlight p.state p.state.exMem p.state.idEx) :
    StoreFlight p.stepWb.2.state p.stepWb.2.state.exMem p.stepWb.2.state.idEx := by
  cases p.stepWb_cases with
  | idle hidle heq =>
    rw [heq]
    exact h
  | commit head rest hentries hready heq =>
    obtain ⟨ahead', rfl, -⟩ := hflight.flight.head_ready hentries hready
    rw [heq, commitReadyHead_eq]
    cases hflush : (p.commitResult head).trapFlush with
    | true => exact .empty rfl rfl
    | false =>
      obtain ⟨hretired, -, htrap⟩ :=
        commit_of_noFlush (hflight.flight.completed head (by simp)) hflush
      have hpop : p.state.rob.commitHead.entries = rest := by
        rw [ReorderBuffer.commitHead_of_ready hentries hready]
      refine ⟨?_, h.held, fun entry hentry hkind => ?_⟩
      · simp only [Bool.false_eq_true, if_false, afterCommit, hretired, if_true, retiredLsq]
        split_ifs
        · exact h.sorted.retireEntry
        · exact h.sorted
      simp only [Bool.false_eq_true, if_false, afterCommit, hretired, if_true, retiredLsq]
        at hentry ⊢
      have hold : entry ∈ p.state.lsq.entries := by
        split_ifs at hentry
        · exact mem_of_mem_retireEntry hentry
        · exact hentry
      rw [hpop]
      cases h.owner entry hold hkind with
      | ex slot hslot hindex hid => exact .ex slot hslot hindex hid
      | mem slot hslot hindex hid haddress hdata =>
        exact .mem slot hslot hindex hid haddress hdata
      | completed owner hmem hownerReady hindex hid hsettled =>
        rw [hentries] at hmem
        rcases mem_cons.1 hmem with rfl | hrest
        · -- the store of the retired entry has left the queue
          have hpos := (hflight.queue.index_lt entry hold).1
          rw [if_pos (by omega), hindex] at hentry
          exact absurd rfl (h.sorted.retireEntry_removes hold (hsettled htrap) entry hentry)
        · exact .completed owner hrest hownerReady hindex hid hsettled

theorem deliverPending_storeFlight (h : StoreFlight p.state p.state.exMem p.state.idEx) :
    StoreFlight p.deliverPending.state p.deliverPending.state.exMem
      p.deliverPending.state.idEx := by
  cases p.deliverPending_cases with
  | nothing heq =>
    rw [heq]
    exact h
  | interrupt cpu hmay hservice heq =>
    rw [heq]
    exact .empty rfl rfl
  | fault pending hpending hcommitted hdrained heq =>
    rw [heq]
    refine ⟨h.sorted, ?_, fun entry hentry hkind => ?_⟩
    · intro slot hslot
      cases hslot
    -- nobody is left to own a store
    cases h.owner entry hentry hkind with
    | ex slot hslot => simp [hdrained.idEx] at hslot
    | mem slot hslot => simp [hdrained.exMem] at hslot
    | completed owner hmem => simp [hdrained.rob] at hmem

theorem memOutcome_sorted (slot : StageSlot) (h : p.state.lsq.Sorted) :
    (p.memOutcome slot).lsq.Sorted := by
  unfold memOutcome
  cases slot.effects.mem.kind with
  | none => exact h
  | store =>
    split_ifs
    · exact h.markOrderReady
    · exact h
  | load =>
    rcases p.loadValue slot with ⟨fault | value, cpu⟩
    · exact h
    simp only [loadedOutcome]
    split_ifs
    · exact (h.markDataReady _).markOrderReady
    · exact (h.markDataReady _).markOrderReady
    · exact h

theorem memOutcome_ordered {slot : StageSlot} (h : p.state.lsq.Sorted)
    (hkind : slot.effects.mem.kind ≠ .none) (htrap : (p.memOutcome slot).effects.trap = none)
    (hne : slot.lsqIndex ≠ 0) :
    ∀ entry ∈ (p.memOutcome slot).lsq.entries, entry.index = slot.lsqIndex → entry.orderReady := by
  intro entry hentry hindex
  unfold memOutcome at hentry htrap
  cases hmem : slot.effects.mem.kind with
  | none => exact absurd hmem hkind
  | store =>
    simp only [hmem, hne, ne_eq, not_false_eq_true, if_true] at hentry
    exact h.markOrderReady_ready hentry hindex
  | load =>
    simp only [hmem] at hentry htrap
    rcases hvalue : p.loadValue slot with ⟨fault | value, cpu⟩
    · rw [hvalue] at htrap
      cases htrap
    simp only [hvalue, loadedOutcome, hne, ne_eq, not_false_eq_true, if_true] at hentry
    exact (h.markDataReady _).markOrderReady_ready hentry hindex

theorem stepMem_storeFlight (hflight : AtMemory p.state ahead between)
    (h : StoreFlight p.state p.state.exMem p.state.idEx) :
    StoreFlight p.stepMem.state p.stepMem.state.nextExMem p.stepMem.state.idEx := by
  have hissued : ∀ slot ∈ p.state.exMem, slot.effects.trap = none := fun slot hslot =>
    (hflight.flight.issued slot hslot).trap
  rcases p.stepMem_cases hissued with ⟨hnone, heq⟩ | ⟨slot, hslot, -, heq⟩ | ⟨slot, hslot, -, heq⟩
  · rw [heq, hflight.next.exMem]
    rw [hnone] at h
    exact h
  · rw [heq]
    rw [hslot] at h
    exact h.congr rfl rfl
  have hslots := hflight.flight
  rw [hslot] at h hslots
  have hdone : StoreFlight (p.afterAccess slot (p.memOutcome slot)).state none p.state.idEx := by
    apply h.completeMem hslots
    · exact p.memOutcome_inherits slot
    · exact memOutcome_sorted slot h.sorted
    · exact memOutcome_ordered h.sorted (hslots.issued slot rfl).kind
    · exact fun entry hentry => (hflight.queue.index_lt entry hentry).1
    · rfl
  rw [← hflight.next.exMem] at hdone
  rw [heq]
  exact hdone

section Execute

variable [Fpu]

variable {slot : StageSlot}

theorem slotEffects_store (hdecoded : slot.Decoded)
    (hstore : DescribesStore slot.raw) (dependency : OlderVectorDependency)
    (htrap : (p.slotEffects slot dependency).trap = none) :
    (p.slotEffects slot dependency).mem.kind = .store := by
  rw [p.slotEffects_describes slot dependency (by rw [hdecoded.insn]; exact hstore.1) htrap,
    hdecoded.insn]
  exact hstore.2

omit [Fpu] in
theorem issuedLoad_storeFlight (h : StoreFlight p.state none (some slot))
    (hindex : ∀ entry ∈ p.state.lsq.entries, 0 < entry.index ∧ entry.index < p.state.lsq.nextIndex)
    (hzero : slot.lsqIndex = 0) (effects : InsnEffects) :
    StoreFlight (p.issuedLoad slot effects).state (p.issuedLoad slot effects).state.nextExMem
      none := by
  unfold issuedLoad
  rcases p.accessInfo effects .load with ⟨info, cpu⟩
  have hnew : p.loadQueue slot effects = p.state.lsq.enqueueLoad slot.sequenceId effects.mem.rd
      effects.mem.size effects.mem.signExtend effects.mem.nonSpeculative := if_pos hzero
  rw [hnew]
  have hstores : ∀ entry ∈ ((p.state.lsq.enqueueLoad slot.sequenceId effects.mem.rd
      effects.mem.size effects.mem.signExtend effects.mem.nonSpeculative).2.markAddressReady
        p.state.lsq.nextIndex effects.mem.addr info).entries, entry.kind = .store →
      ∃ old ∈ p.state.lsq.entries, LoadStoreQueue.Later entry old := by
    intro entry hentry hkind
    obtain ⟨old, hold, hlater⟩ := markAddressReady_store _ _ hentry hkind
    rcases mem_append.1 hold with hold | hone
    · exact ⟨old, hold, hlater⟩
    rw [mem_singleton.1 hone] at hlater
    rw [hlater.kind] at hkind
    cases hkind
  apply h.issue
  · rfl
  · apply LoadStoreQueue.Sorted.markAddressReady
    exact h.sorted.append (fun entry hentry => (hindex entry hentry).2) _ rfl
  · rfl
  · exact hstores
  · intro entry hentry hkind hsame
    obtain ⟨old, hold, hlater⟩ := hstores entry hentry hkind
    have := (hindex old hold).1
    have := hlater.index
    omega

omit [Fpu] in
theorem issuedStore_storeFlight (h : StoreFlight p.state none (some slot))
    (hpos : ∀ entry ∈ p.state.lsq.entries, 0 < entry.index) (effects : InsnEffects) :
    StoreFlight (p.issuedStore slot effects).state (p.issuedStore slot effects).state.nextExMem
      none := by
  unfold issuedStore
  rcases p.accessInfo effects .store with ⟨info, cpu⟩
  by_cases hzero : slot.lsqIndex = 0
  · apply h.issue
    · rfl
    · simp only [issued, hzero, ne_eq, not_true_eq_false, if_false]
      exact h.sorted
    · rfl
    · intro entry hentry _
      simp only [issued, hzero, ne_eq, not_true_eq_false, if_false] at hentry
      exact ⟨entry, hentry, .refl entry⟩
    · intro entry hentry _ hsame
      simp only [issued, hzero, ne_eq, not_true_eq_false, if_false] at hentry
      have := hpos entry hentry
      omega
  · simp only [hzero, ne_eq, not_false_eq_true, if_true]
    have hsorted : (p.state.lsq.markAddressReady slot.lsqIndex effects.mem.addr info).Sorted :=
      h.sorted.markAddressReady _ _
    apply h.issue
    · rfl
    · exact hsorted.markDataReady _
    · rfl
    · intro entry hentry hkind
      obtain ⟨mid, hmid, hlater⟩ := (inherits_markDataReady _).2 entry hentry
      obtain ⟨old, hold, hlater'⟩ := markAddressReady_store _ _ hmid
        (hlater.kind.symm.trans hkind)
      exact ⟨old, hold, hlater.trans hlater'⟩
    · intro entry hentry hkind hsame
      obtain ⟨mid, hmid, hlater⟩ := (inherits_markDataReady _).2 entry hentry
      refine ⟨rfl, hlater.addressReady ?_, ?_⟩
      · exact h.sorted.markAddressReady_ready _ _ hmid (hlater.index.symm.trans hsame)
      · exact hsorted.markDataReady_ready _ hentry hsame

theorem stepEx_storeFlight (hflight : AtExecute p.state ahead between)
    (h : StoreFlight p.state p.state.nextExMem p.state.idEx) :
    StoreFlight p.stepEx.state p.stepEx.state.nextExMem p.stepEx.state.nextIdEx := by
  have hheld : ∀ (cpu : Cpu D) (slot : StageSlot), p.state.idEx = some slot →
      StoreFlight (({ p with cpu } : Pipeline D).holdInEx slot).state p.state.nextExMem
        (some slot) := by
    intro cpu slot hslot
    rw [hslot] at h
    exact h.congr rfl rfl
  rcases p.stepEx_cases with ⟨hnone, heq⟩ | ⟨slot, hslot, -, heq⟩ | ⟨slot, hslot, -, heq⟩
  · rw [heq, hflight.idEx]
    rw [hnone] at h
    exact h
  · rw [heq]
    exact hheld p.cpu slot hslot
  rw [heq]
  have hdecoded := hflight.flight.decoded slot hslot
  have hpos : ∀ entry ∈ p.state.lsq.entries, 0 < entry.index := fun entry hentry =>
    (hflight.queue.index_lt entry hentry).1
  have hslots := hflight.flight
  have hstores := h
  rw [hslot] at hslots hstores
  have hdone : (p.slotEffects slot (p.olderVectorDependency slot)).mem.kind = .none →
      StoreFlight (p.afterExecution slot
        (p.slotEffects slot (p.olderVectorDependency slot))).state
        p.state.nextExMem none := by
    intro hkind
    apply hstores.completeEx hslots
    · intro hne htrap
      rw [slotEffects_store hdecoded (hstores.held slot rfl hne) _ htrap] at hkind
      cases hkind
    · exact hpos
    · rfl
    · rfl
  have hbusy : p.memoryPathBusy = false → p.state.nextExMem = none := by
    intro hbusy
    simp only [memoryPathBusy, Bool.or_eq_false_iff, isSome_eq_false_iff,
      isNone_iff_eq_none] at hbusy
    exact hbusy.2
  cases p.executeSlot_cases slot (p.olderVectorDependency slot) with
  | done predictor hkind hpredicted heq =>
    rw [heq]
    have hresult := hdone hkind
    rw [← hflight.idEx] at hresult
    exact hresult
  | redirect predictor hkind hpredicted heq =>
    rw [heq]
    exact (hdone hkind).congr rfl rfl
  | held cpu hregs hkind htrap heq =>
    rw [heq]
    exact hheld cpu slot hslot
  | load hkind htrap hfree hhead heq =>
    rw [hbusy hfree] at hstores
    have hzero : slot.lsqIndex = 0 := by
      by_contra hne
      rw [slotEffects_store hdecoded (hstores.held slot rfl hne) _ htrap] at hkind
      cases hkind
    have hresult := issuedLoad_storeFlight hstores hflight.queue.index_lt hzero
      (p.slotEffects slot (p.olderVectorDependency slot))
    rw [← hflight.idEx] at hresult
    rw [heq]
    exact hresult
  | store hkind htrap hfree heq =>
    rw [hbusy hfree] at hstores
    have hresult := issuedStore_storeFlight hstores hpos
      (p.slotEffects slot (p.olderVectorDependency slot))
    rw [← hflight.idEx] at hresult
    rw [heq]
    exact hresult

end Execute

omit [Devices D] in
theorem dispatched_storeFlight {fetched : StageSlot}
    (hindex : ∀ entry ∈ p.state.lsq.entries, entry.index < p.state.lsq.nextIndex)
    (h : StoreFlight p.state p.state.nextExMem none) :
    StoreFlight (p.dispatched fetched).state p.state.nextExMem
      (some (p.dispatchedSlot fetched)) := by
  have howner : ∀ entry ∈ p.state.lsq.entries, entry.kind = .store →
      StoreOwner (p.dispatched fetched).state.rob.entries p.state.nextExMem
        (some (p.dispatchedSlot fetched)) entry := by
    intro entry hentry hkind
    cases h.owner entry hentry hkind with
    | ex slot hslot => cases hslot
    | mem slot hslot hindex hid haddress hdata =>
      exact .mem slot hslot hindex hid haddress hdata
    | completed owner hmem hready hindex hid hsettled =>
      exact .completed owner (mem_append_left _ hmem) hready hindex hid hsettled
  by_cases hstore : DescribesStore fetched.raw
  · have hlsq : (p.dispatched fetched).state.lsq = (p.state.lsq.enqueueStore fetched.sequenceId
        (describeMemory (decode fetched.raw)).size
        (describeMemory (decode fetched.raw)).nonSpeculative).2 := if_pos hstore
    have hslotIndex : (p.dispatchedSlot fetched).lsqIndex = p.state.lsq.nextIndex := if_pos hstore
    refine ⟨?_, ?_, fun entry hentry hkind => ?_⟩
    · rw [hlsq]
      exact h.sorted.append hindex _ rfl
    · intro slot hslot _
      rw [← mem_some_iff.1 hslot]
      exact hstore
    · rw [hlsq] at hentry
      rcases mem_append.1 hentry with hold | hone
      · exact howner entry hold hkind
      obtain rfl := mem_singleton.1 hone
      exact .ex _ rfl hslotIndex rfl
  · have hlsq : (p.dispatched fetched).state.lsq = p.state.lsq := if_neg hstore
    have hslotIndex : (p.dispatchedSlot fetched).lsqIndex = 0 := if_neg hstore
    refine ⟨?_, ?_, fun entry hentry hkind => ?_⟩
    · rw [hlsq]
      exact h.sorted
    · intro slot hslot hne
      rw [← mem_some_iff.1 hslot] at hne
      exact absurd hslotIndex hne
    · rw [hlsq] at hentry
      exact howner entry hentry hkind

theorem stepId_storeFlight (hflight : AtDecode p.state ahead between)
    (h : StoreFlight p.state p.state.nextExMem p.state.nextIdEx) :
    StoreFlight p.stepId.state p.stepId.state.nextExMem p.stepId.state.nextIdEx := by
  cases p.stepId_cases hflight.slots_fetched with
  | dropped hredirect heq =>
    rw [heq]
    exact h.congr rfl rfl
  | waits cpu hregs hredirect heq =>
    rw [heq]
    exact h.congr rfl rfl
  | dispatch fetched hslot hfree hredirect hready heq =>
    rw [heq]
    rw [hfree] at h
    exact dispatched_storeFlight (fun entry hentry => (hflight.queue.index_lt entry hentry).2) h

theorem stepIf_storeFlight (h : StoreFlight p.state p.state.nextExMem p.state.nextIdEx) :
    StoreFlight p.stepIf.state p.stepIf.state.nextExMem p.stepIf.state.nextIdEx := by
  cases p.stepIf_cases with
  | idle hidle heq =>
    rw [heq]
    exact h
  | fault fault cpu hempty hnofault hfetch heq =>
    rw [heq]
    exact h.congr rfl rfl
  | fetched raw cpu hempty hnofault hfetch heq =>
    rw [heq]
    exact h.congr rfl rfl

theorem storeFlight_cycle [Fpu] : CycleInvariant (D := D)
    (fun p => StoreFlight p.state p.state.exMem p.state.idEx)
    (fun p => StoreFlight p.state p.state.exMem p.state.idEx)
    (fun p => StoreFlight p.state p.state.nextExMem p.state.idEx)
    (fun p => StoreFlight p.state p.state.nextExMem p.state.nextIdEx)
    (fun p => StoreFlight p.state p.state.nextExMem p.state.nextIdEx) where
  init _ _ := .empty rfl rfl
  begin _ h := h.congr rfl rfl
  writeback _ _ _ hflight h := stepWb_storeFlight hflight h
  deferred _ _ _ _ _ _ := .empty rfl rfl
  deliver _ _ _ _ h := deliverPending_storeFlight h
  stepMem _ _ _ hflight h := stepMem_storeFlight hflight h
  stepEx _ _ _ hflight h := stepEx_storeFlight hflight h
  stepId _ _ _ hflight h := stepId_storeFlight hflight h
  stepIf _ _ _ _ h := stepIf_storeFlight h
  finish _ h := h.congr rfl rfl

end Pipeline

end VisualCpu
