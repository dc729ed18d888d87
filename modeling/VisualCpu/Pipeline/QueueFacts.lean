import VisualCpu.Pipeline.Queues

/-!
# Facts about the queues

Marking an entry ready changes that entry alone, and the operations of the
load-store queue keep the identity of its entries. A replay is requested only for a
load younger than the store that resolves.
-/

namespace VisualCpu

open List LoadStoreQueue

section

-- `g` changes the first entry with `p`
variable {α : Type} {p : α → Prop} [DecidablePred p] {f : α → α} {g : List α → List α}
  (hnil : g [] = []) (hcons : ∀ a l, g (a :: l) = if p a then f a :: l else a :: g l)

include hnil hcons

theorem mem_first {e : α} {entries : List α} (h : e ∈ g entries) :
    e ∈ entries ∨ ∃ old ∈ entries, p old ∧ e = f old := by
  induction entries with
  | nil =>
    rw [hnil] at h
    cases h
  | cons old entries ih =>
    rw [hcons] at h
    split_ifs at h with hold
    · rcases mem_cons.1 h with rfl | hmem
      · exact .inr ⟨old, by simp, hold, rfl⟩
      · exact .inl (mem_cons_of_mem _ hmem)
    rcases mem_cons.1 h with rfl | hmem
    · exact .inl mem_cons_self
    rcases ih hmem with hold | ⟨old', hold', hrest⟩
    · exact .inl (mem_cons_of_mem _ hold)
    · exact .inr ⟨old', mem_cons_of_mem _ hold', hrest⟩

theorem map_first {β : Type} {key : α → β} (hkey : ∀ e, p e → key (f e) = key e)
    (entries : List α) : (g entries).map key = entries.map key := by
  induction entries with
  | nil => rw [hnil]
  | cons e entries ih =>
    rw [hcons]
    split_ifs with he
    · simp [hkey e he]
    · simp [ih]

end

namespace ReorderBuffer

theorem markReadyIn_append {before after : List RobEntry} {entry : RobEntry} {index : ℕ}
    (effects : InsnEffects) (lsqIndex : ℕ) (hindex : entry.index = index)
    (hbefore : ∀ e ∈ before, e.index ≠ index) :
    markReadyIn index effects lsqIndex (before ++ entry :: after) =
      before ++ readyEntry effects lsqIndex entry :: after := by
  induction before with
  | nil => simp [markReadyIn, hindex]
  | cons e before ih =>
    rw [forall_mem_cons] at hbefore
    simp [markReadyIn, hbefore.1, ih hbefore.2]

theorem map_markReadyIn {β : Type} (f : RobEntry → β) (index : ℕ) (effects : InsnEffects)
    (lsqIndex : ℕ) (hf : ∀ e, f (readyEntry effects lsqIndex e) = f e) (entries : List RobEntry) :
    (markReadyIn index effects lsqIndex entries).map f = entries.map f := by
  exact map_first rfl (fun _ _ => rfl) (fun e _ => hf e) entries

theorem mem_markReadyIn {index lsqIndex : ℕ} {effects : InsnEffects} {entries : List RobEntry}
    {e : RobEntry} (h : e ∈ markReadyIn index effects lsqIndex entries) :
    e ∈ entries ∨ ∃ old ∈ entries, old.index = index ∧ e = readyEntry effects lsqIndex old := by
  exact mem_first rfl (fun _ _ => rfl) h

section

variable {rob : ReorderBuffer} {head : RobEntry} {rest : List RobEntry}
  (hentries : rob.entries = head :: rest)

include hentries

theorem commitHead_of_ready (hready : head.ready) :
    rob.commitHead = { rob with entries := rest } := by
  simp [commitHead, hentries, hready]

theorem isHead_cons (index : ℕ) : rob.isHead index = (head.index == index) := by
  simp [isHead, peekHead, hentries]

end

end ReorderBuffer

namespace LoadStoreQueue

variable {lsq : LoadStoreQueue} {index : ℕ}

variable {e : LsqEntry} {f : LsqEntry → LsqEntry} {entries : List LsqEntry}

theorem mem_modifyFirst (h : e ∈ modifyFirst index f entries) :
    e ∈ entries ∨ ∃ old ∈ entries, old.index = index ∧ e = f old := by
  exact mem_first rfl (fun _ _ => rfl) h

/-- The same entry at a later time: no operation changes its identity or the replay
mark, and what is ready stays ready. -/
structure Later (e old : LsqEntry) : Prop where
  index : e.index = old.index
  kind : e.kind = old.kind
  sequenceId : e.sequenceId = old.sequenceId
  loadState : e.loadState = old.loadState
  addressReady : old.addressReady → e.addressReady
  dataReady : old.dataReady → e.dataReady
  orderReady : old.orderReady → e.orderReady

theorem Later.refl (e : LsqEntry) : Later e e := ⟨rfl, rfl, rfl, rfl, id, id, id⟩

theorem Later.trans {a b c : LsqEntry} (hab : Later a b) (hbc : Later b c) : Later a c :=
  ⟨hab.index.trans hbc.index, hab.kind.trans hbc.kind, hab.sequenceId.trans hbc.sequenceId,
    hab.loadState.trans hbc.loadState, hab.addressReady ∘ hbc.addressReady,
    hab.dataReady ∘ hbc.dataReady, hab.orderReady ∘ hbc.orderReady⟩

theorem later_setOrderReady (e : LsqEntry) : Later (setOrderReady e) e :=
  ⟨rfl, rfl, rfl, rfl, id, id, fun _ => rfl⟩

theorem later_setDataReady (value : BitVec 64) (e : LsqEntry) : Later (setDataReady value e) e :=
  ⟨rfl, rfl, rfl, rfl, id, fun _ => rfl, id⟩

/-- Every entry of `after` is an entry of `before`, up to its progress. -/
def Inherits (before after : LoadStoreQueue) : Prop :=
  before.nextIndex ≤ after.nextIndex ∧
    ∀ e ∈ after.entries, ∃ old ∈ before.entries, Later e old

theorem Inherits.refl (lsq : LoadStoreQueue) : Inherits lsq lsq :=
  ⟨le_rfl, fun e he => ⟨e, he, .refl e⟩⟩

theorem Inherits.trans {a b c : LoadStoreQueue} (hab : Inherits a b) (hbc : Inherits b c) :
    Inherits a c := by
  refine ⟨hab.1.trans hbc.1, fun e he => ?_⟩
  obtain ⟨mid, hmid, hsame⟩ := hbc.2 e he
  obtain ⟨old, hold, hsame'⟩ := hab.2 mid hmid
  exact ⟨old, hold, hsame.trans hsame'⟩

theorem Inherits.modifyFirst (hf : ∀ e, Later (f e) e) :
    Inherits lsq { lsq with entries := modifyFirst index f lsq.entries } := by
  refine ⟨le_rfl, fun e he => ?_⟩
  rcases mem_modifyFirst he with hold | ⟨old, hold, -, rfl⟩
  · exact ⟨e, hold, .refl e⟩
  · exact ⟨old, hold, hf old⟩

theorem inherits_markOrderReady : Inherits lsq (lsq.markOrderReady index) :=
  .modifyFirst later_setOrderReady

theorem inherits_markDataReady (value : BitVec 64) : Inherits lsq (lsq.markDataReady index value) :=
  .modifyFirst (later_setDataReady value)

theorem mem_of_mem_retireEntry (h : e ∈ (lsq.retireEntry index).entries) : e ∈ lsq.entries := by
  unfold retireEntry at h
  split at h
  · exact h
  split_ifs at h
  · exact h
  · exact mem_of_mem_eraseP h

theorem nextIndex_retireEntry : (lsq.retireEntry index).nextIndex = lsq.nextIndex := by
  unfold retireEntry
  split
  · rfl
  · split_ifs <;> rfl

theorem inherits_retireEntry : Inherits lsq (lsq.retireEntry index) :=
  ⟨nextIndex_retireEntry.ge, fun e he => ⟨e, mem_of_mem_retireEntry he, .refl e⟩⟩

theorem peek_mem {entry : LsqEntry} (h : lsq.peek index = some entry) :
    entry ∈ lsq.entries ∧ entry.index = index :=
  ⟨List.mem_of_find?_eq_some h, by simpa using List.find?_some h⟩

theorem replayIfViolated_of_older {store entry : LsqEntry}
    (h : entry.kind = .load → entry.sequenceId ≤ store.sequenceId) :
    replayIfViolated store entry = entry := by
  unfold replayIfViolated
  rw [if_neg]
  rintro ⟨hkind, hlt, -⟩
  exact absurd hlt (Nat.not_lt.2 (h hkind))

variable (info : LsqAddressInfo)

theorem modifyFirst_later (addr : BitVec 64) {entry : LsqEntry} (hentry : entry ∈ lsq.entries) :
    ∀ e ∈ modifyFirst index
      (fun _ => { entry with addressReady := true, address := addr, addressInfo := info })
      lsq.entries, ∃ old ∈ lsq.entries, Later e old := by
  intro e he
  rcases mem_modifyFirst he with hold | ⟨old, hold, -, rfl⟩
  · exact ⟨e, hold, .refl e⟩
  · exact ⟨entry, hentry, ⟨rfl, rfl, rfl, rfl, fun _ => rfl, id, id⟩⟩

theorem inherits_markAddressReady (addr : BitVec 64)
    (holder : ∀ entry ∈ lsq.entries, entry.index = index → ∀ e ∈ lsq.entries, e.kind = .load →
      e.sequenceId ≤ entry.sequenceId) :
    Inherits lsq (lsq.markAddressReady index addr info) := by
  unfold markAddressReady
  split
  case h_1 => exact .refl lsq
  case h_2 entry hpeek =>
    obtain ⟨hmem, hindex⟩ := peek_mem hpeek
    have hmodify := @modifyFirst_later lsq index info addr _ hmem
    split_ifs
    · refine ⟨le_rfl, fun e he => ?_⟩
      obtain ⟨mid, hmid, rfl⟩ := mem_map.1 he
      obtain ⟨old, hold, hsame⟩ := hmodify mid hmid
      rw [replayIfViolated_of_older]
      · exact ⟨old, hold, hsame⟩
      intro hkind
      have := holder entry hmem hindex old hold (hsame.kind.symm.trans hkind)
      rw [hsame.sequenceId]
      exact this
    · exact ⟨le_rfl, hmodify⟩

theorem markAddressReady_store (addr : BitVec 64)
    (he : e ∈ (lsq.markAddressReady index addr info).entries) (hkind : e.kind = .store) :
    ∃ old ∈ lsq.entries, Later e old := by
  unfold markAddressReady at he
  split at he
  case h_1 => exact ⟨e, he, .refl e⟩
  case h_2 entry hpeek =>
    obtain ⟨hmem, -⟩ := peek_mem hpeek
    have hmodify := @modifyFirst_later lsq index info addr _ hmem
    split_ifs at he
    · obtain ⟨mid, hmid, rfl⟩ := mem_map.1 he
      unfold replayIfViolated at hkind ⊢
      split_ifs at hkind ⊢ with hviolated
      · rw [hviolated.1] at hkind
        cases hkind
      · exact hmodify mid hmid
    · exact hmodify e he

/-- The indices of a queue with entries appended in order. -/
def Sorted (lsq : LoadStoreQueue) : Prop := (lsq.entries.map (·.index)).Pairwise (· < ·)

theorem map_index_modifyFirst (f : LsqEntry → LsqEntry)
    (hf : ∀ e, e.index = index → (f e).index = index) (entries : List LsqEntry) :
    (modifyFirst index f entries).map (·.index) = entries.map (·.index) := by
  exact map_first rfl (fun _ _ => rfl) (fun e h => (hf e h).trans h.symm) entries

theorem Sorted.eq_of_index (h : lsq.Sorted) {e e' : LsqEntry} (he : e ∈ lsq.entries)
    (he' : e' ∈ lsq.entries) (hindex : e.index = e'.index) : e = e' :=
  inj_on_of_nodup_map (h.imp Nat.ne_of_lt) he he' hindex

theorem Sorted.modifyFirst_of_index
    (h : (entries.map (·.index)).Pairwise (· < ·)) (he : e ∈ modifyFirst index f entries)
    (hindex : e.index = index) :
    ∃ old ∈ entries, old.index = index ∧ e = f old := by
  induction entries with
  | nil => simp [modifyFirst] at he
  | cons first rest ih =>
    rw [map_cons, pairwise_cons] at h
    unfold modifyFirst at he
    split_ifs at he with hfirst
    · rcases mem_cons.1 he with rfl | hrest
      · exact ⟨first, by simp, hfirst, rfl⟩
      have := h.1 e.index (mem_map_of_mem hrest)
      omega
    · rcases mem_cons.1 he with rfl | hrest
      · exact absurd hindex hfirst
      obtain ⟨old, hold, hresult⟩ := ih h.2 hrest
      exact ⟨old, mem_cons_of_mem _ hold, hresult⟩

theorem Sorted.markOrderReady (h : lsq.Sorted) : (lsq.markOrderReady index).Sorted := by
  unfold Sorted LoadStoreQueue.markOrderReady
  rw [map_index_modifyFirst setOrderReady fun _ hindex => hindex]
  exact h

theorem Sorted.markDataReady (h : lsq.Sorted) (value : BitVec 64) :
    (lsq.markDataReady index value).Sorted := by
  unfold Sorted LoadStoreQueue.markDataReady
  rw [map_index_modifyFirst (setDataReady value) fun _ hindex => hindex]
  exact h

theorem index_replayIfViolated (store e : LsqEntry) : (replayIfViolated store e).index =
    e.index := by
  unfold replayIfViolated
  split_ifs <;> rfl

section

variable (h : lsq.Sorted)

include h

namespace Sorted

theorem markAddressReady (addr : BitVec 64) (info : LsqAddressInfo) :
    (lsq.markAddressReady index addr info).Sorted := by
  unfold Sorted LoadStoreQueue.markAddressReady
  split
  case h_1 => exact h
  case h_2 entry hpeek =>
    obtain ⟨-, hindex⟩ := peek_mem hpeek
    have hmap := map_index_modifyFirst (fun _ =>
      { entry with addressReady := true, address := addr, addressInfo := info })
      (fun _ _ => hindex) lsq.entries
    split_ifs
    · rw [map_map]
      have hcomp : (fun e => e.index) ∘ replayIfViolated
          { entry with addressReady := true, address := addr, addressInfo := info } =
          fun e => e.index := by
        funext e
        exact index_replayIfViolated _ e
      rw [hcomp, hmap]
      exact h
    · rw [hmap]
      exact h

theorem append (hlt : ∀ e ∈ lsq.entries, e.index < lsq.nextIndex)
    (entry : LsqEntry) (hindex : entry.index = lsq.nextIndex) :
    Sorted ⟨lsq.entries ++ [entry], lsq.nextIndex + 1⟩ := by
  unfold Sorted
  rw [map_append, pairwise_append]
  refine ⟨h, by simp, ?_⟩
  intro a ha b hb
  obtain ⟨e, he, rfl⟩ := mem_map.1 ha
  obtain rfl : b = lsq.nextIndex := by simpa [hindex] using hb
  exact hlt e he

theorem retireEntry : (lsq.retireEntry index).Sorted := by
  unfold LoadStoreQueue.retireEntry
  split
  · exact h
  split_ifs
  · exact h
  · exact h.sublist (eraseP_sublist.map _)

theorem retireEntry_removes (he : e ∈ lsq.entries)
    (hready : e.addressReady ∧ e.dataReady ∧ e.orderReady) :
    ∀ e' ∈ (lsq.retireEntry e.index).entries, e'.index ≠ e.index := by
  have hpeek : lsq.peek e.index = some e := by
    cases hfind : lsq.peek e.index with
    | none =>
      have := List.find?_eq_none.1 hfind e he
      simp at this
    | some found =>
      obtain ⟨hmem, hindex⟩ := peek_mem hfind
      rw [h.eq_of_index hmem he hindex]
  intro e' he' hindex
  have hretired : (lsq.retireEntry e.index).entries = lsq.entries.eraseP (·.index == e.index) := by
    simp [LoadStoreQueue.retireEntry, hpeek, hready]
  rw [hretired] at he'
  have hfirst : (e.index == e.index) = true := by simp
  obtain ⟨old, before, after, hbefore, hold, hsplit, herase⟩ :=
    exists_of_eraseP (p := fun entry => entry.index == e.index) he hfirst
  rw [herase] at he'
  have hne : old.index = e.index := by simpa using hold
  unfold Sorted at h
  rw [hsplit, map_append, map_cons, pairwise_append, pairwise_cons] at h
  rcases mem_append.1 he' with hmem | hmem
  · have := h.2.2 e'.index (mem_map_of_mem hmem) old.index (by simp)
    omega
  have := h.2.1.1 e'.index (mem_map_of_mem hmem)
  omega

theorem markAddressReady_ready (addr : BitVec 64) (info : LsqAddressInfo)
    (he : e ∈ (lsq.markAddressReady index addr info).entries)
    (hindex : e.index = index) : e.addressReady := by
  unfold LoadStoreQueue.markAddressReady at he
  split at he
  case h_1 hpeek =>
    have := List.find?_eq_none.1 hpeek e he
    simp [hindex] at this
  case h_2 entry hpeek =>
    obtain ⟨-, hentry⟩ := peek_mem hpeek
    split_ifs at he
    · obtain ⟨mid, hmid, rfl⟩ := mem_map.1 he
      rw [index_replayIfViolated] at hindex
      obtain ⟨old, -, -, rfl⟩ := modifyFirst_of_index h hmid hindex
      unfold replayIfViolated
      split_ifs <;> rfl
    · obtain ⟨old, -, -, rfl⟩ := modifyFirst_of_index h he hindex
      rfl

theorem markDataReady_ready (value : BitVec 64)
    (he : e ∈ (lsq.markDataReady index value).entries) (hindex : e.index = index) :
    e.dataReady := by
  obtain ⟨old, -, -, rfl⟩ := modifyFirst_of_index h he hindex
  rfl

theorem markOrderReady_ready
    (he : e ∈ (lsq.markOrderReady index).entries) (hindex : e.index = index) :
    e.orderReady := by
  obtain ⟨old, -, -, rfl⟩ := modifyFirst_of_index h he hindex
  rfl

end Sorted

end

theorem forwardableLoad_none (sequenceId size : ℕ)
    (h : ∀ e ∈ lsq.entries, e.kind = .store → sequenceId ≤ e.sequenceId) :
    lsq.forwardableLoad sequenceId size info = none := by
  have hscan : ∀ (paddr : BitVec 64) (entries : List LsqEntry),
      (∀ e ∈ entries, e.kind = .store → sequenceId ≤ e.sequenceId) →
      forwardFrom sequenceId paddr size entries = none := by
    intro paddr entries
    induction entries with
    | nil => exact fun _ => rfl
    | cons e rest ih =>
      intro hall
      rw [forall_mem_cons] at hall
      unfold forwardFrom
      rw [if_pos]
      · exact ih hall.2
      by_cases hkind : e.kind = .store
      · exact .inr (hall.1 hkind)
      · exact .inl hkind
  unfold forwardableLoad
  split_ifs
  · rfl
  · exact hscan _ _ fun e he => h e (mem_reverse.1 he)

end LoadStoreQueue

end VisualCpu
