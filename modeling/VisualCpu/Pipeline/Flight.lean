import VisualCpu.Pipeline.StageCases

/-!
# Instructions in flight

The reorder buffer holds completed entries, then the entry of the slot in the memory
stage, then entries completed while it waits, then the entry of the slot in the
execute stage. `Flight` states this for the latches that are current at a point of
the cycle, and each stage takes it to the next point.
-/

namespace VisualCpu

open List ReorderBuffer

/-- Effects of an entry that has completed, from the effects computed at execution. -/
inductive Completes (computed : InsnEffects) : InsnEffects → Prop
  | same (hkind : computed.mem.kind ≠ .load) : Completes computed computed
  | loaded (hkind : computed.mem.kind = .load) (fpValue intValue : BitVec 64) :
      Completes computed (Pipeline.completeLoad computed fpValue intValue)
  | faulted (hkind : computed.mem.kind = .load) (fault : TrapRequest) :
      Completes computed (Pipeline.faultedLoad computed fault)

/-- A ready entry carries the effects of its instruction. -/
structure CompletedEntry (entry : RobEntry) : Prop where
  ready : entry.ready
  effects : ∃ computed, EffectShape (decode entry.raw) computed ∧ Completes computed entry.effects

theorem EffectShape.trap_of_access {insn : Insn} {effects : InsnEffects}
    (h : EffectShape insn effects) (hkind : effects.mem.kind ≠ .none) : effects.trap = none := by
  by_contra hsome
  obtain ⟨trap, htrap⟩ := Option.ne_none_iff_exists'.1 hsome
  rw [h.trapped trap htrap] at hkind
  exact hkind rfl

theorem CompletedEntry.retired {entry : RobEntry} (h : CompletedEntry entry)
    (htrap : entry.effects.trap = none) : entry.effects.retired := by
  obtain ⟨computed, hshape, hcompletes⟩ := h.effects
  generalize entry.effects = effects at htrap hcompletes ⊢
  cases hcompletes with
  | same => exact hshape.retired htrap
  | loaded hkind fpValue intValue =>
    have hretired := hshape.retired (hshape.trap_of_access (by simp [hkind]))
    unfold Pipeline.completeLoad
    cases computed.mem.target <;> exact hretired
  | faulted => simp [Pipeline.faultedLoad] at htrap

theorem Pipeline.memOutcome_completes {D : Type} [Devices D] (p : Pipeline D) (slot : StageSlot) :
    Completes slot.effects (p.memOutcome slot).effects := by
  unfold memOutcome
  cases hkind : slot.effects.mem.kind with
  | none => exact .same (by simp [hkind])
  | store => exact .same (by simp [hkind])
  | load =>
    rcases p.loadValue slot with ⟨fault | value, cpu⟩
    · exact .faulted hkind fault
    · exact .loaded hkind value _

/-- A slot after the decode stage. -/
structure StageSlot.Decoded (slot : StageSlot) : Prop where
  insn : slot.insn = decode slot.raw
  insnSize : slot.insnSize = instructionSize (decode slot.raw)
  noRd : PipelineHazards.writesRd (decode slot.raw) = false → slot.rdPhys = 0

/-- A slot in the memory stage: its effects are those of its instruction, with an access. -/
structure StageSlot.Issued (slot : StageSlot) : Prop extends slot.Decoded where
  shape : EffectShape (decode slot.raw) slot.effects
  kind : slot.effects.mem.kind ≠ .none

theorem StageSlot.Issued.trap {slot : StageSlot} (h : slot.Issued) : slot.effects.trap = none :=
  h.shape.trap_of_access h.kind

def pendingEntries (slot : Option StageSlot) : List RobEntry :=
  (slot.map StageSlot.pendingEntry).toList

@[simp] theorem pendingEntries_none : pendingEntries none = [] := rfl

@[simp] theorem pendingEntries_some (slot : StageSlot) :
    pendingEntries (some slot) = [slot.pendingEntry] := rfl

/-- The sequence numbers in flight, in program order. -/
def inFlightIds (rob : ReorderBuffer) (fetched : Option StageSlot) : List ℕ :=
  rob.entries.map (·.sequenceId) ++ (fetched.map (·.sequenceId)).toList

/-- The instructions in flight when `mem`, `ex` and `fetched` are the current slots. -/
structure Flight (s : PipelineState) (mem ex fetched : Option StageSlot)
    (ahead between : List RobEntry) : Prop where
  entries : s.rob.entries = ahead ++ pendingEntries mem ++ between ++ pendingEntries ex
  completed : ∀ entry ∈ ahead ++ between, CompletedEntry entry
  between_nil : mem = none → between = []
  indices : (s.rob.entries.map (·.index)).Pairwise (· < ·)
  index_lt : ∀ entry ∈ s.rob.entries, entry.index < s.rob.nextIndex
  order : (inFlightIds s.rob fetched).Pairwise (· < ·)
  order_le : ∀ id ∈ inFlightIds s.rob fetched, 0 < id ∧ id ≤ s.lastSequenceId
  fetched : ∀ slot ∈ fetched, slot.Fetched
  decoded : ∀ slot ∈ ex, slot.Decoded
  issued : ∀ slot ∈ mem, slot.Issued

namespace Flight

variable {s : PipelineState} {mem ex fetched : Option StageSlot} {ahead between : List RobEntry}

theorem empty (hentries : s.rob.entries = []) : Flight s none none none [] [] := by
  constructor <;> simp [hentries, inFlightIds]

variable {s' : PipelineState} {before after : List RobEntry} {entry : RobEntry}

section

variable (h : Flight s mem ex fetched ahead between)

include h

theorem congr (hrob : s'.rob = s.rob)
    (hlast : s'.lastSequenceId = s.lastSequenceId) : Flight s' mem ex fetched ahead between := by
  obtain ⟨hentries, hcompleted, hnil, hindices, hlt, horder, hle, hfetched, hdecoded, hissued⟩ := h
  rw [← hrob] at hentries hindices hlt horder hle
  rw [← hlast] at hle
  exact ⟨hentries, hcompleted, hnil, hindices, hlt, horder, hle, hfetched, hdecoded, hissued⟩

theorem dropFetched : Flight s mem ex none ahead between := by
  obtain ⟨hentries, hcompleted, hnil, hindices, hlt, horder, hle, -, hdecoded, hissued⟩ := h
  refine ⟨hentries, hcompleted, hnil, hindices, hlt, ?_, ?_, by simp, hdecoded, hissued⟩
  · simpa [inFlightIds] using (pairwise_append.1 horder).1
  intro id hid
  exact hle id (mem_append_left _ (by simpa [inFlightIds] using hid))

theorem head_ready {head : RobEntry}
    {rest : List RobEntry} (hentries : s.rob.entries = head :: rest) (hready : head.ready) :
    ∃ ahead', ahead = head :: ahead' ∧
      rest = ahead' ++ pendingEntries mem ++ between ++ pendingEntries ex := by
  have heq := h.entries
  rw [hentries] at heq
  cases ahead with
  | cons e ahead' =>
    simp only [List.cons_append, List.cons.injEq] at heq
    exact ⟨ahead', by rw [heq.1], by simpa using heq.2⟩
  | nil =>
    exfalso
    cases mem with
    | some slot =>
      simp only [pendingEntries_some, nil_append, List.cons_append, List.cons.injEq] at heq
      rw [heq.1] at hready
      cases hready
    | none =>
      rw [h.between_nil rfl] at heq
      cases ex with
      | none => simp at heq
      | some slot =>
        simp only [pendingEntries_none, pendingEntries_some, nil_append, List.cons.injEq] at heq
        rw [heq.1] at hready
        cases hready

theorem ahead_nil (hidle : ∀ head ∈ s.rob.peekHead, head.ready = false) : ahead = [] := by
  cases ahead with
  | nil => rfl
  | cons e ahead' =>
    have hpeek : s.rob.peekHead = some e := by
      simp [peekHead, h.entries]
    have hready := (h.completed e (by simp)).ready
    rw [hidle e (by simp [hpeek])] at hready
    cases hready

end

theorem pop {head : RobEntry} (h : Flight s mem ex fetched (head :: ahead) between)
    (hrob : s'.rob = s.rob.commitHead)
    (hlast : s'.lastSequenceId = s.lastSequenceId) : Flight s' mem ex fetched ahead between := by
  obtain ⟨hentries, hcompleted, hnil, hindices, hlt, horder, hle, hfetched, hdecoded, hissued⟩ := h
  have hready := (hcompleted head (by simp)).ready
  have hpop : s'.rob = { s.rob with
      entries := ahead ++ pendingEntries mem ++ between ++ pendingEntries ex } := by
    rw [hrob]
    exact commitHead_of_ready (by simpa using hentries) hready
  have hcons : s.rob.entries = head :: s'.rob.entries := by
    rw [hpop, hentries]
    simp
  rw [hcons, map_cons, pairwise_cons] at hindices
  simp only [inFlightIds, hcons, map_cons, List.cons_append, pairwise_cons] at horder hle
  refine ⟨by rw [hpop], fun e he => hcompleted e ?_, hnil, hindices.2, ?_, horder.2, ?_, hfetched,
    hdecoded, hissued⟩
  · exact mem_cons_of_mem _ he
  · intro e he
    have hnext : s'.rob.nextIndex = s.rob.nextIndex := by rw [hpop]
    rw [hnext]
    exact hlt e (by rw [hcons]; exact mem_cons_of_mem _ he)
  · intro id hid
    rw [hlast]
    exact hle id (mem_cons_of_mem _ hid)

theorem index_ne (h : Flight s mem ex fetched ahead between)
    (hentries : s.rob.entries = before ++ entry :: after) :
    ∀ e ∈ before, e.index ≠ entry.index := by
  intro e he
  have hindices := h.indices
  rw [hentries, map_append, pairwise_append] at hindices
  have hlt := hindices.2.2 e.index (mem_map_of_mem he) entry.index (by simp)
  omega

variable {slot : StageSlot}

theorem ex_mem (h : Flight s mem (some slot) fetched ahead between) :
    slot.pendingEntry ∈ s.rob.entries := by
  rw [h.entries]
  simp

theorem mem_mem (h : Flight s (some slot) ex fetched ahead between) :
    slot.pendingEntry ∈ s.rob.entries := by
  rw [h.entries]
  simp

theorem ex_lt_fetched {slot next : StageSlot}
    (h : Flight s mem (some slot) (some next) ahead between) :
    slot.sequenceId < next.sequenceId := by
  have hmem : slot.sequenceId ∈ s.rob.entries.map (·.sequenceId) :=
    mem_map.2 ⟨_, h.ex_mem, rfl⟩
  exact (pairwise_append.1 h.order).2.2 _ hmem _ (by simp)

theorem ex_le_last (h : Flight s mem (some slot) fetched ahead between) :
    slot.sequenceId ≤ s.lastSequenceId := by
  refine (h.order_le slot.sequenceId ?_).2
  exact mem_append_left _ (mem_map.2 ⟨_, h.ex_mem, rfl⟩)

theorem markReady_entries (h : Flight s mem ex fetched ahead between)
    (hentries : s.rob.entries = before ++ entry :: after) (effects : InsnEffects) (lsqIndex : ℕ) :
    (s.rob.markReady entry.index effects lsqIndex).entries =
      before ++ readyEntry effects lsqIndex entry :: after := by
  unfold markReady
  rw [hentries]
  exact markReadyIn_append effects lsqIndex rfl (h.index_ne hentries)

variable {effects : InsnEffects}

theorem markReady_frame (h : Flight s mem ex fetched ahead between)
    {index lsqIndex : ℕ} (hrob : s'.rob = s.rob.markReady index effects lsqIndex)
    (hlast : s'.lastSequenceId = s.lastSequenceId) :
    (s'.rob.entries.map (·.index)).Pairwise (· < ·) ∧
      (∀ entry ∈ s'.rob.entries, entry.index < s'.rob.nextIndex) ∧
      (inFlightIds s'.rob fetched).Pairwise (· < ·) ∧
      ∀ id ∈ inFlightIds s'.rob fetched, 0 < id ∧ id ≤ s'.lastSequenceId := by
  have hindex : s'.rob.entries.map (·.index) = s.rob.entries.map (·.index) := by
    rw [hrob]
    exact map_markReadyIn _ _ _ _ (fun _ => rfl) _
  have hids : inFlightIds s'.rob fetched = inFlightIds s.rob fetched := by
    unfold inFlightIds
    rw [hrob]
    congr 1
    exact map_markReadyIn _ _ _ _ (fun _ => rfl) _
  refine ⟨by rw [hindex]; exact h.indices, ?_, by rw [hids]; exact h.order, ?_⟩
  · intro entry hentry
    have hmem : entry.index ∈ s.rob.entries.map (·.index) := by
      rw [← hindex]
      exact mem_map_of_mem hentry
    obtain ⟨old, hold, heq⟩ := mem_map.1 hmem
    have hnext : s'.rob.nextIndex = s.rob.nextIndex := by rw [hrob]; rfl
    rw [hnext, ← heq]
    exact h.index_lt old hold
  · rw [hids, hlast]
    exact h.order_le

theorem completeMem (h : Flight s (some slot) ex fetched ahead between)
    (heffects : Completes slot.effects effects)
    (hrob : s'.rob = s.rob.markReady slot.robIndex effects slot.lsqIndex)
    (hlast : s'.lastSequenceId = s.lastSequenceId) :
    Flight s' none ex fetched
      (ahead ++ readyEntry effects slot.lsqIndex slot.pendingEntry :: between) [] := by
  obtain ⟨hindices, hlt, horder, hle⟩ := h.markReady_frame hrob hlast
  have hentries : s.rob.entries = ahead ++ slot.pendingEntry :: (between ++ pendingEntries ex) := by
    simpa using h.entries
  have hshape := (h.issued slot rfl).shape
  refine ⟨?_, ?_, fun _ => rfl, hindices, hlt, horder, hle, h.fetched, h.decoded, by simp⟩
  · rw [hrob]
    simpa using h.markReady_entries hentries effects slot.lsqIndex
  intro e he
  simp only [append_nil, mem_append, mem_cons] at he
  rcases he with he | rfl | he
  · exact h.completed e (mem_append_left _ he)
  · exact ⟨rfl, slot.effects, hshape, heffects⟩
  · exact h.completed e (mem_append_right _ he)

theorem completeEx_ahead (h : Flight s none (some slot) fetched ahead between)
    (hshape : EffectShape (decode slot.raw) effects) (hkind : effects.mem.kind = .none)
    (hrob : s'.rob = s.rob.markReady slot.robIndex effects slot.lsqIndex)
    (hlast : s'.lastSequenceId = s.lastSequenceId) :
    Flight s' none none fetched
      (ahead ++ [readyEntry effects slot.lsqIndex slot.pendingEntry]) [] := by
  obtain ⟨hindices, hlt, horder, hle⟩ := h.markReady_frame hrob hlast
  have hnil := h.between_nil rfl
  have hentries : s.rob.entries = ahead ++ slot.pendingEntry :: [] := by
    simpa [hnil] using h.entries
  refine ⟨?_, ?_, fun _ => rfl, hindices, hlt, horder, hle, h.fetched, by simp, by simp⟩
  · rw [hrob]
    simpa using h.markReady_entries hentries effects slot.lsqIndex
  intro e he
  simp only [append_nil, mem_append, mem_singleton] at he
  rcases he with he | rfl
  · exact h.completed e (mem_append_left _ he)
  · exact ⟨rfl, effects, hshape, .same (by simp [hkind])⟩

theorem completeEx_between {slot memSlot : StageSlot}
    (h : Flight s (some memSlot) (some slot) fetched ahead between)
    (hshape : EffectShape (decode slot.raw) effects) (hkind : effects.mem.kind = .none)
    (hrob : s'.rob = s.rob.markReady slot.robIndex effects slot.lsqIndex)
    (hlast : s'.lastSequenceId = s.lastSequenceId) :
    Flight s' (some memSlot) none fetched ahead
      (between ++ [readyEntry effects slot.lsqIndex slot.pendingEntry]) := by
  obtain ⟨hindices, hlt, horder, hle⟩ := h.markReady_frame hrob hlast
  have hentries : s.rob.entries =
      (ahead ++ pendingEntries (some memSlot) ++ between) ++ slot.pendingEntry :: [] := by
    simpa using h.entries
  refine ⟨?_, ?_, by simp, hindices, hlt, horder, hle, h.fetched, by simp, h.issued⟩
  · rw [hrob]
    simpa using h.markReady_entries hentries effects slot.lsqIndex
  intro e he
  simp only [mem_append, mem_singleton] at he
  rcases he with he | he | rfl
  · exact h.completed e (mem_append_left _ he)
  · exact h.completed e (mem_append_right _ he)
  · exact ⟨rfl, effects, hshape, .same (by simp [hkind])⟩

theorem issue {slot slot' : StageSlot} (h : Flight s none (some slot) fetched ahead between)
    (hentry : slot'.pendingEntry = slot.pendingEntry) (hissued : slot'.Issued)
    (hrob : s'.rob = s.rob) (hlast : s'.lastSequenceId = s.lastSequenceId) :
    Flight s' (some slot') none fetched ahead [] := by
  obtain ⟨hentries, hcompleted, hnil, hindices, hlt, horder, hle, hfetched, hdecoded, -⟩ :=
    h.congr hrob hlast
  refine ⟨?_, ?_, fun _ => rfl, hindices, hlt, horder, hle, hfetched, by simp, ?_⟩
  · simpa [hnil rfl, hentry] using hentries
  · intro e he
    exact hcompleted e (by simpa [hnil rfl] using he)
  · intro other hother
    obtain rfl : slot' = other := by simpa using hother
    exact hissued

theorem dispatch {slot slot' : StageSlot} (h : Flight s mem none (some slot) ahead between)
    (hdecoded : slot'.Decoded) (hid : slot'.sequenceId = slot.sequenceId)
    (hindex : slot'.robIndex = s.rob.nextIndex)
    (hrob : s'.rob = ⟨s.rob.entries ++ [slot'.pendingEntry], s.rob.nextIndex + 1⟩)
    (hlast : s'.lastSequenceId = s.lastSequenceId) :
    Flight s' mem (some slot') none ahead between := by
  have hids : inFlightIds s'.rob none = inFlightIds s.rob (some slot) := by
    rw [hrob]
    simp [inFlightIds, ← hid, StageSlot.pendingEntry, Pipeline.robEntryOf]
  have hentryIndex : slot'.pendingEntry.index = s.rob.nextIndex := hindex
  refine ⟨?_, h.completed, h.between_nil, ?_, ?_, by rw [hids]; exact h.order, ?_, by simp, ?_,
    h.issued⟩
  · rw [hrob, h.entries]
    simp
  · rw [hrob, map_append, pairwise_append]
    refine ⟨h.indices, by simp, ?_⟩
    intro a ha b hb
    obtain ⟨e, he, rfl⟩ := mem_map.1 ha
    obtain rfl : b = s.rob.nextIndex := by simpa [hindex] using hb
    exact h.index_lt e he
  · rw [hrob]
    intro e he
    rcases mem_append.1 he with he | he
    · exact Nat.lt_succ_of_lt (h.index_lt e he)
    obtain rfl : e = slot'.pendingEntry := by simpa using he
    rw [hentryIndex]
    exact Nat.lt_succ_self _
  · rw [hids, hlast]
    exact h.order_le
  · intro other hother
    obtain rfl : slot' = other := by simpa using hother
    exact hdecoded

theorem fetch (h : Flight s mem ex none ahead between)
    (hnew : slot.Fetched) (hid : slot.sequenceId = s.lastSequenceId + 1) (hrob : s'.rob = s.rob)
    (hlast : s'.lastSequenceId = s.lastSequenceId + 1) :
    Flight s' mem ex (some slot) ahead between := by
  have hids : inFlightIds s'.rob (some slot) =
    inFlightIds s.rob none ++ [s.lastSequenceId + 1] := by
    rw [hrob]
    simp [inFlightIds, hid]
  refine ⟨by rw [hrob]; exact h.entries, h.completed, h.between_nil, by rw [hrob]; exact h.indices,
    by rw [hrob]; exact h.index_lt, ?_, ?_, ?_, h.decoded, h.issued⟩
  · rw [hids, pairwise_append]
    refine ⟨h.order, by simp, ?_⟩
    intro a ha b hb
    have hle := (h.order_le a ha).2
    obtain rfl : b = s.lastSequenceId + 1 := by simpa using hb
    omega
  · rw [hids, hlast]
    intro id hid'
    rcases mem_append.1 hid' with hold | hnew'
    · have := h.order_le id hold
      omega
    obtain rfl : id = s.lastSequenceId + 1 := by simpa using hnew'
    omega
  · intro other hother
    obtain rfl : slot = other := by simpa using hother
    exact hnew

end Flight

end VisualCpu
