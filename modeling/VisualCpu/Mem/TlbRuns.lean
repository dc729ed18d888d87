import VisualCpu.Pipeline.Backend
import VisualCpu.Mem.Sv39Walk
import VisualCpu.Mem.TlbInvariant

/-!
# Runs of the translation buffer

Translations under changing registers, writes elsewhere in memory and flushes, in
any order. Between two flushes the page tables are written by the walker only. In
every state of such a run the buffer is transparent.
-/

namespace VisualCpu.AddressSpace

variable {D : Type} [Devices D]

theorem walkFrom_result_congr (ctx : AccessContext) (vaddr : BitVec 64) (type : AccessType)
    (updateAccessBits : Bool) (levels : ℕ) (ppn : BitVec 64) {as as' : AddressSpace D}
    (hbus : as.bus = as'.bus) :
    (walkFrom ctx as vaddr type updateAccessBits levels ppn).1 =
      (walkFrom ctx as' vaddr type updateAccessBits levels ppn).1 := by
  induction levels generalizing as as' ppn with
  | zero => rfl
  | succ levels ih =>
    simp only [walkFrom, hbus]
    cases as'.bus.tryLoad ((ppn <<< 12) ||| (vpn vaddr levels <<< 3)) 8 with
    | mk read bus =>
      cases read with
      | none => rfl
      | some pte =>
        simp only [finishLeaf]
        split_ifs
        · rfl
        · rfl
        · rfl
        · rfl
        · cases updatePteAccessBits bus ((ppn <<< 12) ||| (vpn vaddr levels <<< 3)) pte type with
          | mk updated bus => cases updated <;> rfl
        · rfl
        · rfl
        · exact ih _ rfl

omit [Devices D] in
theorem lookupTlb_flushTlb (as : AddressSpace D) (satp vaddr : BitVec 64) :
    as.flushTlb.lookupTlb satp vaddr = none := by
  unfold lookupTlb
  rw [List.find?_eq_none]
  intro i _
  simp [entryMatches, flushTlb]

omit [Devices D] in
theorem tlbSound_flushTlb (tables : Set (BitVec 64)) (as : AddressSpace D) :
    TlbSound tables as.flushTlb := by
  intro i hi
  cases hi

/-- One step of the use of an address space. `tables` holds the words of RAM that
hold page tables since the last flush. -/
inductive TlbStep : Set (BitVec 64) × AddressSpace D → Set (BitVec 64) × AddressSpace D → Prop
  /-- A translation, under any registers, whose walk stays in the tables. -/
  | translate {tables : Set (BitVec 64)} {as : AddressSpace D} (ctx : AccessContext)
      (vaddr : BitVec 64) (type : AccessType) (updateAccessBits : Bool)
      (hreads : Walked ctx vaddr type → ReadsTables D tables as.bus.ram vaddr 3 (rootPpn ctx)) :
      TlbStep (tables, as) (tables, (as.translate ctx vaddr type updateAccessBits).2)
  /-- Any change of memory, devices and data cache that spares the page tables. -/
  | elsewhere {tables : Set (BitVec 64)} {as : AddressSpace D} (l1 : L1Cache) (bus : Bus D)
      (hspared : ∀ addr ∈ tables, bus.ram.load addr 8 = as.bus.ram.load addr 8) :
      TlbStep (tables, as) (tables, { as with l1, bus })
  /-- A flush, by `sfence.vma` or a write of `satp`, after which the page tables are
  those of any new content of memory. -/
  | flush {tables tables' : Set (BitVec 64)} {as : AddressSpace D} (bus : Bus D)
      (htables : TableMemory tables') :
      TlbStep (tables, as) (tables', ({ as with bus } : AddressSpace D).flushTlb)

/-- The states of a run that starts with an empty buffer. -/
inductive TlbRun : Set (BitVec 64) × AddressSpace D → Prop
  | init {tables : Set (BitVec 64)} {as : AddressSpace D} (htables : TableMemory tables)
      (hempty : ∀ i, (as.tlb i).valid = false) : TlbRun (tables, as)
  | step {s s' : Set (BitVec 64) × AddressSpace D} (hrun : TlbRun s) (hstep : TlbStep s s') :
      TlbRun s'

/-- What holds in every state of a run. -/
structure TlbInvariant (s : Set (BitVec 64) × AddressSpace D) : Prop where
  tables : TableMemory s.1
  sound : TlbSound s.1 s.2

theorem TlbInvariant.step {s s' : Set (BitVec 64) × AddressSpace D} (h : TlbInvariant s)
    (hstep : TlbStep s s') : TlbInvariant s' := by
  obtain ⟨htables, hsound⟩ := h
  cases hstep with
  | translate ctx vaddr type updateAccessBits hreads =>
    exact ⟨htables, translate_sound ctx vaddr type updateAccessBits htables hsound hreads⟩
  | elsewhere l1 bus hspared =>
    exact ⟨htables, hsound.mono (.of_eq hspared) rfl⟩
  | flush bus htables' => exact ⟨htables', tlbSound_flushTlb _ _⟩

theorem TlbRun.invariant {s : Set (BitVec 64) × AddressSpace D} (h : TlbRun s) :
    TlbInvariant s := by
  induction h with
  | init htables hempty =>
    refine ⟨htables, fun i hi => ?_⟩
    rw [hempty i] at hi
    cases hi
  | step _ hstep ih => exact ih.step hstep

/-- In every state of a run a translation returns what it returns with an empty
buffer; where it uses the page tables, this is the result of a walk from scratch. -/
theorem tlbRun_transparent {tables : Set (BitVec 64)} {as : AddressSpace D}
    (hrun : TlbRun (tables, as)) (ctx : AccessContext) (vaddr : BitVec 64) (type : AccessType)
    (updateAccessBits : Bool) :
    (as.translate ctx vaddr type updateAccessBits).1 =
        (as.flushTlb.translate ctx vaddr type updateAccessBits).1 ∧
      (Walked ctx vaddr type →
        (as.translate ctx vaddr type updateAccessBits).1 =
          (as.flushTlb.walkPageTable ctx vaddr type updateAccessBits).1) := by
  obtain ⟨htables, hsound⟩ := hrun.invariant
  have hscratch : (as.walkPageTable ctx vaddr type updateAccessBits).1 =
      (as.flushTlb.walkPageTable ctx vaddr type updateAccessBits).1 :=
    walkFrom_result_congr ctx vaddr type updateAccessBits 3 (rootPpn ctx) rfl
  by_cases hwalked : Walked ctx vaddr type
  · have hresult := translate_result ctx vaddr type updateAccessBits htables hsound hwalked
    have hflushed : as.flushTlb.translate ctx vaddr type updateAccessBits =
        as.flushTlb.walkPageTable ctx vaddr type updateAccessBits := by
      rw [translate_of_walked as.flushTlb hwalked, lookupTlb_flushTlb]
    rw [hflushed, hresult, hscratch]
    exact ⟨rfl, fun _ => rfl⟩
  · obtain ⟨result, hsame⟩ := translate_of_not_walked (D := D) hwalked updateAccessBits
    rw [hsame as, hsame as.flushTlb]
    exact ⟨rfl, fun h => absurd h hwalked⟩

/-- A root table at the base of RAM whose first entry maps a page of one gigabyte. -/
def gigapageSpace : AddressSpace Unit := AddressSpace.reset (Ram.ofWords memBase [0x200000DF]) ()

/-- User mode under the root table of `gigapageSpace`. -/
def gigapageContext : AccessContext := ⟨8#64 <<< 60 ||| 0x80000, 0, .user⟩

theorem gigapage_tables : TableMemory {memBase} where
  in_ram := by
    rintro addr rfl
    decide
  aligned := by
    rintro addr rfl
    decide

/-- A store through the entry that a load has installed. -/
theorem tlbRun_transparent_gigapage :
    ((gigapageSpace.translate gigapageContext 0x1234 .load false).2.translate
        gigapageContext 0x5678 .store true).1 =
      ((gigapageSpace.translate gigapageContext 0x1234 .load false).2.flushTlb.translate
        gigapageContext 0x5678 .store true).1 := by
  have hstart : TlbRun ({memBase}, gigapageSpace) := .init gigapage_tables fun _ => rfl
  have hreads : ReadsTables Unit {memBase} gigapageSpace.bus.ram 0x1234 3
      (rootPpn gigapageContext) := by
    refine .inr ⟨rfl, fun hpointer => ?_⟩
    exact absurd hpointer (by decide)
  have hrun := hstart.step (.translate gigapageContext 0x1234 .load false fun _ => hreads)
  exact (tlbRun_transparent hrun gigapageContext 0x5678 .store true).1

/-- Outside the canonical addresses a translation faults where a walk would not. -/
theorem walkPageTable_not_canonical :
    TlbRun ({memBase}, gigapageSpace) ∧
      (gigapageSpace.translate gigapageContext (1#64 <<< 40) .load false).1 =
        .error ⟨13, 1#64 <<< 40⟩ ∧
      (gigapageSpace.walkPageTable gigapageContext (1#64 <<< 40) .load false).1 =
        .ok 0x80000000 := by
  refine ⟨.init gigapage_tables fun _ => rfl, ?_, ?_⟩ <;> rfl

end VisualCpu.AddressSpace
