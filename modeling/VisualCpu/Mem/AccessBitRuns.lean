import VisualCpu.Mem.TlbRuns
import VisualCpu.TrapEntry

/-!
# The access bits in memory

The walker sets the accessed and dirty bits of leaf entries in memory. At the end
of a walk it writes back the entry that it has just read; on a hit it writes back
the copy in the translation buffer, which may have become older than the entry in
memory. A run of translations keeps the bits of memory exactly as long as no such
hit meets an entry whose dirty bit has been set through another mapping.
-/

namespace VisualCpu

open Pte Function

/-- One call of `translate_result`, with the registers that it consults. -/
structure Translation where
  ctx : AccessContext
  vaddr : BitVec 64
  type : AccessType
  updateAccessBits : Bool

namespace Translation

open AddressSpace

variable {D : Type} [Devices D] (t : Translation) (as : AddressSpace D)

def run : Except TrapRequest (BitVec 64) × AddressSpace D :=
  as.translate t.ctx t.vaddr t.type t.updateAccessBits

/-- The property holds of every translation of the list in the state it starts from. -/
def Along (P : Translation → AddressSpace D → Prop) : List Translation → AddressSpace D → Prop
  | [], _ => True
  | t :: ts, as => P t as ∧ Along P ts (t.run as).2

/-- The aligned words of RAM. -/
def ramWords : Set (BitVec 64) := {addr | Ram.contains addr 8 ∧ addr.toNat % 8 = 0}

theorem ramWords_tables : TableMemory ramWords where
  in_ram _ h := h.1
  aligned _ h := h.2

/-- The page tables that the translation walks lie in RAM. -/
def TablesInRam : Prop :=
  Walked t.ctx t.vaddr t.type →
    ReadsTables D ramWords as.bus.ram t.vaddr 3 (rootPpn t.ctx)

/-- The accessed and dirty bits are both set. -/
def Marked (pte : BitVec 64) : Prop := testMask pte Pte.a ∧ testMask pte Pte.d

/-- A store that has been translated with its access bits leaves them set in the
leaf entry of its walk. -/
def MarksLeaf : Prop :=
  Walked t.ctx t.vaddr t.type → t.type = .store → t.updateAccessBits →
    ∀ paddr, (t.run as).1 = .ok paddr →
      ∃ level addr, WalksTo ramWords as.bus.ram t.vaddr 3 (rootPpn t.ctx) level addr ∧
        Marked ((t.run as).2.bus.ram.load addr 8)

/-- The translation clears no bit of memory, and a store leaves its leaf marked. -/
def KeepsAccessBits : Prop :=
  (∀ a, Bits.Subset (as.bus.ram a) ((t.run as).2.bus.ram a)) ∧ t.MarksLeaf as

/-- A load or fetch that hits a copy with both access bits clear, of an entry whose
dirty bit is set in memory. -/
def StaleHit : Prop :=
  Walked t.ctx t.vaddr t.type ∧ t.updateAccessBits ∧ t.type ≠ .store ∧
    ∃ i, as.lookupTlb t.ctx.satp t.vaddr = some i ∧
      checkLeafPermissions t.ctx t.type (as.tlb i).pte ∧
      testMask (as.tlb i).pte Pte.a = false ∧ testMask (as.tlb i).pte Pte.d = false ∧
      testMask (as.bus.ram.load (as.tlb i).pteAddr 8) Pte.d

/-- What a translation does: it leaves buffer and memory alone, or installs the leaf of
a walk with or without its access bits, or brings the entry of a hit up to date. -/
inductive Outcome (r : Except TrapRequest (BitVec 64) × AddressSpace D) : Prop
  | quiet (hram : r.2.bus.ram = as.bus.ram) (htlb : r.2.tlb = as.tlb)
      (hfail : Walked t.ctx t.vaddr t.type → t.updateAccessBits →
        ∀ paddr, r.1 ≠ .ok paddr)
  | fill {level : ℕ} {addr : BitVec 64} (hupdate : t.updateAccessBits = false)
      (hwalk : WalksTo ramWords as.bus.ram t.vaddr 3 (rootPpn t.ctx) level addr)
      (hram : r.2.bus.ram = as.bus.ram)
      (htlb : r.2.tlb = Function.update as.tlb as.nextTlbVictim
        (leafEntry t.ctx t.vaddr addr (as.bus.ram.load addr 8) level))
  | walk {level : ℕ} {addr : BitVec 64} (hupdate : t.updateAccessBits)
      (hwalk : WalksTo ramWords as.bus.ram t.vaddr 3 (rootPpn t.ctx) level addr)
      (hram : r.2.bus.ram = (markAccess as.bus addr (as.bus.ram.load addr 8) t.type).ram)
      (htlb : r.2.tlb = Function.update as.tlb as.nextTlbVictim
        (leafEntry t.ctx t.vaddr addr
          (Pte.withAccessBits (as.bus.ram.load addr 8) t.type) level))
  | hit {i : Fin 32} (hwalked : Walked t.ctx t.vaddr t.type) (hupdate : t.updateAccessBits)
      (hlookup : as.lookupTlb t.ctx.satp t.vaddr = some i)
      (hperm : checkLeafPermissions t.ctx t.type (as.tlb i).pte)
      (hram : r.2.bus.ram = (markAccess as.bus (as.tlb i).pteAddr (as.tlb i).pte t.type).ram)
      (htlb : r.2.tlb = Function.update as.tlb i
        { as.tlb i with pte := Pte.withAccessBits (as.tlb i).pte t.type })

variable {t as} {i : Fin 32}

theorem finishLeaf_outcome {level : ℕ} {addr : BitVec 64}
    (hwalk : WalksTo ramWords as.bus.ram t.vaddr 3 (rootPpn t.ctx) level addr) :
    Outcome t as (as.afterRead.finishLeaf t.ctx t.vaddr t.type t.updateAccessBits level addr
      (as.bus.ram.load addr 8)) := by
  have hin := ramWords_tables.in_ram _ hwalk.mem
  have hbits := withAccessBits_same (as.bus.ram.load addr 8) t.type
  simp only [finishLeaf, updatePteAccessBits_ram as.afterRead.bus _ t.type hin]
  split_ifs with hperm hmis hupdate
  · exact .quiet rfl rfl fun _ _ _ h => (by cases h)
  · exact .quiet rfl rfl fun _ _ _ h => (by cases h)
  · refine .walk hupdate hwalk ?_ ?_
    · simp only [fillTlb, markAccess]
      split_ifs <;> rfl
    rw [← hbits.ppn]
    rfl
  · exact .fill (by simpa using hupdate) hwalk rfl rfl

theorem translateHit_outcome (hsound : TlbSound ramWords as)
    (hwalked : Walked t.ctx t.vaddr t.type) (hlookup : as.lookupTlb t.ctx.satp t.vaddr = some i) :
    Outcome t as (as.translateHit t.ctx i t.vaddr t.type t.updateAccessBits) := by
  have hentry := hsound i (lookupTlb_spec t.vaddr hlookup).1
  have hin := ramWords_tables.in_ram _ hentry.mem
  simp only [translateHit, updatePteAccessBits_ram as.bus _ t.type hin]
  split_ifs with hperm hupdate
  · exact .quiet rfl rfl fun _ _ _ h => (by cases h)
  · exact .quiet rfl rfl fun _ h => absurd h (by simpa using hupdate)
  · exact .hit hwalked (by simpa using hupdate) hlookup (by simpa using hperm) rfl rfl

theorem run_outcome (hsound : TlbSound ramWords as) (htables : t.TablesInRam as) :
    Outcome t as (t.run as) := by
  unfold run
  by_cases hwalked : Walked t.ctx t.vaddr t.type
  · rw [translate_of_walked as hwalked]
    cases hlookup : as.lookupTlb t.ctx.satp t.vaddr with
    | some i => exact translateHit_outcome hsound hwalked hlookup
    | none =>
      by_cases hleaf : ∃ level addr,
          WalksTo ramWords as.bus.ram t.vaddr 3 (rootPpn t.ctx) level addr
      · obtain ⟨level, addr, hwalk⟩ := hleaf
        have hrun := walkFrom_of_walksTo t.ctx t.vaddr t.type t.updateAccessBits ramWords_tables
          as hwalk
        simp only [walkPageTable]
        rw [← rootPpn, hrun]
        exact finishLeaf_outcome hwalk
      · obtain ⟨htlb, hram, fault, hfault⟩ := (walkFrom_cases t.ctx t.vaddr t.type
          t.updateAccessBits ramWords_tables as (htables hwalked)).resolve_left hleaf
        refine .quiet hram htlb fun _ _ paddr hok => ?_
        rw [walkPageTable, ← rootPpn, hfault] at hok
        cases hok
  · obtain ⟨result, hsame⟩ := translate_of_not_walked (D := D) hwalked t.updateAccessBits
    rw [hsame]
    exact .quiet rfl rfl fun h => absurd h hwalked

/-- Every valid entry of the buffer holds no bit that memory has lost. -/
def CopiesBelowMemory (as : AddressSpace D) : Prop :=
  ∀ i, (as.tlb i).valid → Bits.Subset (as.tlb i).pte (as.bus.ram.load (as.tlb i).pteAddr 8)

/-- What holds before every translation of a run that has lost no bit so far. -/
structure CopiesCurrent (as : AddressSpace D) : Prop where
  sound : TlbSound ramWords as
  below : CopiesBelowMemory as

variable (pte : BitVec 64) {type : AccessType} {bus : Bus D}

omit [Devices D] in
theorem subset_withAccessBits (type : AccessType) :
    Bits.Subset pte (withAccessBits pte type) := by
  unfold withAccessBits
  split_ifs
  · exact (Bits.subset_or_left _ _).trans (Bits.subset_or_left _ _)
  · exact Bits.subset_or_left _ _

omit [Devices D] in
/-- Bringing an entry up to date from a copy that covers the entry in memory. -/
theorem subset_markAccess {addr pte : BitVec 64}
    (h : withAccessBits pte type ≠ pte →
      Bits.Subset (bus.ram.load addr 8) (withAccessBits pte type)) (a : BitVec 64) :
    Bits.Subset (bus.ram a) ((markAccess bus addr pte type).ram a) := by
  unfold markAccess
  split_ifs with heq
  · exact .refl _
  · exact Ram.subset_store (h heq) a

theorem testMask_accessed : testMask pte a = pte.getLsbD 6 :=
  testMask_iff (k := 6) (by decide)

theorem testMask_dirty : testMask pte d = pte.getLsbD 7 :=
  testMask_iff (k := 7) (by decide)

theorem accessMask_getLsbD {i : ℕ} (h : accessMask.getLsbD i) : i = 6 ∨ i = 7 := by
  have hbits : ∀ i < 64, accessMask.getLsbD i → i = 6 ∨ i = 7 := by decide
  exact hbits i (BitVec.lt_of_getLsbD h) h

theorem withAccessBits_accessed (type : AccessType) : (withAccessBits pte type).getLsbD 6 := by
  unfold withAccessBits
  split_ifs <;> simp [a, d]

theorem withAccessBits_dirty (type : AccessType) :
    (withAccessBits pte type).getLsbD 7 = (decide (type = .store) || pte.getLsbD 7) := by
  unfold withAccessBits
  split_ifs with hstore <;> simp [a, d, hstore]

theorem withAccessBits_eq_self {pte : BitVec 64} (hstore : type ≠ .store)
    (ha : pte.getLsbD 6) : withAccessBits pte type = pte := by
  rw [withAccessBits, if_neg hstore]
  apply BitVec.eq_of_getLsbD_eq
  intro i _
  by_cases hi : i = 6
  · subst hi
    simp [ha]
  have hbit : a.getLsbD i = false := by
    rw [a, ← BitVec.twoPow_eq, BitVec.getLsbD_twoPow]
    simp [Ne.symm hi]
  simp [hbit]

theorem covers_of_not_stale {pte word : BitVec 64}
    (hsame : Pte.SameButAccess pte word) (hwrite : withAccessBits pte type ≠ pte)
    (hfresh : type ≠ .store → testMask pte a = false → testMask pte d = false →
      testMask word d = false) :
    Bits.Subset word (withAccessBits pte type) := by
  have hout := (hsame.symm.trans (withAccessBits_same pte type).symm)
  refine Bits.subset_of_masked hout fun i hi => ?_
  rw [BitVec.getLsbD_and, Bool.and_eq_true] at hi
  rcases accessMask_getLsbD hi.2 with rfl | rfl
  · exact withAccessBits_accessed pte type
  rw [withAccessBits_dirty, Bool.or_eq_true, decide_eq_true_eq]
  by_contra hclear
  obtain ⟨hstore, hdirty⟩ := not_or.1 hclear
  have haccessed : pte.getLsbD 6 ≠ true := fun ha =>
    hwrite (withAccessBits_eq_self hstore ha)
  have hword := hfresh hstore (by rw [testMask_accessed]; simpa using haccessed)
    (by rw [testMask_dirty]; simpa using hdirty)
  rw [testMask_dirty, hi.1] at hword
  cases hword

theorem tlbSound_run (hsound : TlbSound ramWords as) (htables : t.TablesInRam as) :
    TlbSound ramWords (t.run as).2 :=
  translate_sound t.ctx t.vaddr t.type t.updateAccessBits ramWords_tables hsound htables

omit [Devices D] in
theorem markAccess_load {addr pte : BitVec 64} (h : withAccessBits pte type ≠ pte) :
    (markAccess bus addr pte type).ram.load addr 8 = withAccessBits pte type := by
  rw [markAccess, if_neg h]
  exact Ram.load_store_eight _ _ _

theorem marked_of_subset {pte word : BitVec 64}
    (h : Bits.Subset (withAccessBits pte .store) word) :
    Marked word := by
  refine ⟨?_, ?_⟩
  · rw [testMask_accessed]
    exact h 6 (withAccessBits_accessed pte _)
  rw [testMask_dirty]
  refine h 7 ?_
  rw [withAccessBits_dirty]
  rfl

omit [Devices D] in
theorem subset_load_markAccess {addr pte : BitVec 64}
    (hbelow : Bits.Subset pte (bus.ram.load addr 8)) :
    Bits.Subset (withAccessBits pte type)
      ((markAccess bus addr pte type).ram.load addr 8) := by
  by_cases hwrite : withAccessBits pte type = pte
  · rw [markAccess, if_pos hwrite, hwrite]
    exact hbelow
  rw [markAccess_load hwrite]
  exact .refl _

theorem keeps_of_not_staleHit (h : CopiesCurrent as) (htables : t.TablesInRam as)
    (hfresh : ¬ t.StaleHit as) : t.KeepsAccessBits as := by
  cases run_outcome h.sound htables with
  | quiet hram htlb hfail =>
    refine ⟨fun a => ?_, fun hwalked _ hupdate paddr hok =>
      absurd hok (hfail hwalked hupdate paddr)⟩
    rw [hram]
    exact .refl _
  | fill hupdate hwalk hram htlb =>
    refine ⟨fun a => ?_, fun _ _ hupdate' => ?_⟩
    · rw [hram]
      exact .refl _
    rw [hupdate] at hupdate'
    cases hupdate'
  | @walk level addr hupdate hwalk hram htlb =>
    refine ⟨fun a => ?_, fun _ hstore _ _ _ => ⟨level, addr, hwalk, ?_⟩⟩
    · rw [hram]
      exact subset_markAccess (fun _ => subset_withAccessBits _ _) a
    rw [hram, hstore]
    exact marked_of_subset (subset_load_markAccess (.refl _))
  | @hit i hwalked hupdate hlookup hperm hram htlb =>
    obtain ⟨hvalid, hsatp, hpage⟩ := lookupTlb_spec t.vaddr hlookup
    have hentry := h.sound i hvalid
    refine ⟨fun a => ?_, fun _ hstore _ _ _ => ?_⟩
    · rw [hram]
      refine subset_markAccess (fun hwrite => ?_) a
      refine covers_of_not_stale hentry.pte_same hwrite fun hstore ha hd => ?_
      rw [← Bool.not_eq_true]
      intro hdirty
      exact hfresh ⟨hwalked, hupdate, hstore, i, hlookup, hperm, ha, hd, hdirty⟩
    · obtain ⟨level, hwalk, -, -⟩ := hentry.walk t.ctx t.vaddr hsatp hpage
      refine ⟨level, _, hwalk, ?_⟩
      rw [hram, hstore]
      exact marked_of_subset (subset_load_markAccess (h.below i hvalid))

theorem not_keeps_of_staleHit (hsound : TlbSound ramWords as) (hstale : t.StaleHit as) :
    ¬ t.KeepsAccessBits as := by
  obtain ⟨hwalked, hupdate, hstore, i, hlookup, hperm, ha, hd, hdirty⟩ := hstale
  intro hkeeps
  have hentry := hsound i (lookupTlb_spec t.vaddr hlookup).1
  have hin := ramWords_tables.in_ram _ hentry.mem
  have hram : (t.run as).2.bus.ram =
      (markAccess as.bus (as.tlb i).pteAddr (as.tlb i).pte t.type).ram := by
    rw [run, translate_of_walked as hwalked, hlookup]
    simp only [translateHit, updatePteAccessBits_ram as.bus _ t.type hin, hperm, hupdate]
    rfl
  rw [testMask_dirty] at hd hdirty
  have hwrite : withAccessBits (as.tlb i).pte t.type ≠ (as.tlb i).pte := by
    intro heq
    have haccessed := withAccessBits_accessed (as.tlb i).pte t.type
    rw [heq, ← testMask_accessed, ha] at haccessed
    cases haccessed
  have hsubset := Ram.load_subset hkeeps.1 (as.tlb i).pteAddr 8 7 hdirty
  rw [hram, markAccess_load hwrite, withAccessBits_dirty, hd] at hsubset
  simp [hstore] at hsubset

omit [Devices D] in
theorem CopiesBelowMemory.update {as as' : AddressSpace D} (h : CopiesBelowMemory as)
    (hkeeps : ∀ a, Bits.Subset (as.bus.ram a) (as'.bus.ram a)) {entry : TlbEntry}
    (htlb : as'.tlb = update as.tlb i entry)
    (hentry : Bits.Subset entry.pte (as'.bus.ram.load entry.pteAddr 8)) :
    CopiesBelowMemory as' := by
  intro j hj
  rw [htlb] at hj ⊢
  by_cases hji : j = i
  · subst hji
    rw [update_self]
    exact hentry
  · rw [update_of_ne hji] at hj ⊢
    exact (h j hj).trans (Ram.load_subset hkeeps _ 8)

theorem CopiesCurrent.run (h : CopiesCurrent as) (htables : t.TablesInRam as)
    (hkeeps : t.KeepsAccessBits as) : CopiesCurrent (t.run as).2 := by
  refine ⟨tlbSound_run h.sound htables, ?_⟩
  cases run_outcome h.sound htables with
  | quiet hram htlb hfail =>
    intro i hi
    rw [htlb] at hi ⊢
    rw [hram]
    exact h.below i hi
  | fill hupdate hwalk hram htlb =>
    refine h.below.update hkeeps.1 htlb ?_
    rw [hram]
    exact .refl _
  | walk hupdate hwalk hram htlb =>
    refine h.below.update hkeeps.1 htlb ?_
    rw [hram]
    exact subset_load_markAccess (.refl _)
  | @hit i hwalked hupdate hlookup hperm hram htlb =>
    refine h.below.update hkeeps.1 htlb ?_
    rw [hram]
    exact subset_load_markAccess (h.below i (lookupTlb_spec t.vaddr hlookup).1)

theorem keepsAccessBits_iff (h : CopiesCurrent as) (htables : t.TablesInRam as) :
    t.KeepsAccessBits as ↔ ¬ t.StaleHit as :=
  ⟨fun hkeeps hstale => not_keeps_of_staleHit h.sound hstale hkeeps,
    keeps_of_not_staleHit h htables⟩

theorem CopiesCurrent.along_iff (h : CopiesCurrent as) {ts : List Translation}
    (htables : Along TablesInRam ts as) :
    Along KeepsAccessBits ts as ↔ Along (fun t as => ¬ t.StaleHit as) ts as := by
  induction ts generalizing as with
  | nil => exact Iff.rfl
  | cons t ts ih =>
    have hstep := keepsAccessBits_iff h htables.1
    constructor
    · intro hkeeps
      have hnext := h.run htables.1 hkeeps.1
      exact ⟨hstep.1 hkeeps.1, (ih hnext htables.2).1 hkeeps.2⟩
    · intro hfresh
      have hkeeps := hstep.2 hfresh.1
      exact ⟨hkeeps, (ih (h.run htables.1 hkeeps) htables.2).2 hfresh.2⟩

/-- From an empty buffer, a run of translations keeps the access bits if and only if
none of them is a load or fetch that hits a stale copy. -/
theorem accessBits_kept_iff (as : AddressSpace D) (hempty : ∀ i, (as.tlb i).valid = false)
    (ts : List Translation) (htables : Along TablesInRam ts as) :
    Along KeepsAccessBits ts as ↔ Along (fun t as => ¬ t.StaleHit as) ts as := by
  have hnone : ∀ i, ¬ (as.tlb i).valid := by
    intro i hi
    rw [hempty i] at hi
    cases hi
  exact CopiesCurrent.along_iff ⟨fun i hi => absurd hi (hnone i), fun i hi => absurd hi (hnone i)⟩
    htables

/-- A root table at the base of RAM. Its entries 0 and 2 point to the table itself and
entry 1 is a leaf, so that the page of two megabytes has two virtual addresses. -/
def aliasSpace : AddressSpace Unit :=
  AddressSpace.reset (Ram.ofWords memBase [0x20000001, 0, 0x2000001F, 0, 0x20000001, 0]) ()

/-- A translation in user mode under the table of `aliasSpace`. -/
def aliasAccess (vaddr : BitVec 64) (type : AccessType) (updateAccessBits : Bool) : Translation :=
  ⟨gigapageContext, vaddr, type, updateAccessBits⟩

/-- Look the page up, store through its other address, then load. -/
def staleRun : List Translation :=
  [aliasAccess 0x200000 .load false, aliasAccess 0x80200000 .store true,
    aliasAccess 0x200000 .load true]

theorem staleRun_tables : Along TablesInRam staleRun aliasSpace := by
  refine ⟨fun _ => ?_, fun _ => ?_, fun _ => ?_, trivial⟩
  all_goals
    refine .inr ⟨⟨by decide, by decide⟩, fun _ => .inr ⟨⟨by decide, by decide⟩, fun hpointer => ?_⟩⟩
    exact absurd hpointer (by decide)

/-- The load clears the dirty bit that the store has set. -/
theorem staleRun_clearsDirty :
    (∀ i, (aliasSpace.tlb i).valid = false) ∧ Along TablesInRam staleRun aliasSpace ∧
      ¬ Along KeepsAccessBits staleRun aliasSpace := by
  refine ⟨fun _ => rfl, staleRun_tables, ?_⟩
  rintro ⟨-, -, ⟨hkeeps, -⟩, -⟩
  have hcleared := hkeeps (memBase + 8) 7 (by decide)
  revert hcleared
  decide

/-- A load and a store through the two addresses of the page. -/
def freshRun : List Translation :=
  [aliasAccess 0x200000 .load true, aliasAccess 0x80200000 .store true]

theorem accessBits_kept_freshRun : Along KeepsAccessBits freshRun aliasSpace := by
  have htables : Along TablesInRam freshRun aliasSpace := by
    refine ⟨fun _ => ?_, fun _ => ?_, trivial⟩
    all_goals
      refine .inr ⟨⟨by decide, by decide⟩,
        fun _ => .inr ⟨⟨by decide, by decide⟩, fun hpointer => ?_⟩⟩
      exact absurd hpointer (by decide)
  refine (accessBits_kept_iff aliasSpace (fun _ => rfl) freshRun htables).2 ⟨?_, ?_, trivial⟩
  · rintro ⟨-, -, -, i, hlookup, -⟩
    have hnone : aliasSpace.lookupTlb gigapageContext.satp 0x200000 = none := by decide
    exact Option.some_ne_none i (hlookup.symm.trans hnone)
  · rintro ⟨-, -, hstore, -⟩
    exact hstore rfl

end Translation

end VisualCpu
