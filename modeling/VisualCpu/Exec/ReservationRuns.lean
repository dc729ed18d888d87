import VisualCpu.Exec.CommitFacts
import VisualCpu.Exec.ReservationMonitor
import VisualCpu.Pipeline.Backend
import VisualCpu.Mem.Retranslation

/-!
# Load reservations over runs

The reservation of the processor is never more than the monitor of its memory events
holds, and every store-conditional that writes does so under the reservation of its
range. As long as the writes that the processor does not compare with the reservation
spare the reserved range, a store-conditional succeeds only after a load-reserved of
the same range with no write to it and no trap since.
-/

namespace VisualCpu

open List MemoryEvent

theorem MemoryEvent.By.mono {e : MemoryEvent} {agents agents' : List WriteAgent}
    (h : e.By agents) (hsub : agents ⊆ agents') : e.By agents' := by
  cases e with
  | write agent cache addr size written => exact hsub h
  | reserve addr size => exact h
  | trap => exact h

theorem by_nil {agents : List WriteAgent} : ∀ e ∈ ([] : List MemoryEvent), e.By agents := nofun

namespace AddressSpace

variable {D : Type} [Devices D] {as : AddressSpace D} {ctx : AccessContext}

variable {type : AccessType} {pteAddr pte : BitVec 64}

theorem accessBitsLog_by : ∀ e ∈ as.accessBitsLog pteAddr pte type, e.By [.walker] := by
  intro e he
  simp only [accessBitsLog] at he
  split_ifs at he
  · cases he
  rw [mem_singleton.1 he]
  exact mem_singleton_self _

variable {update : Bool} {addr value : BitVec 64} {vaddr : BitVec 64} {remaining : ℕ} {fuel : ℕ}

theorem finishLeafLog_by {level : ℕ} :
    ∀ e ∈ as.finishLeafLog ctx type update level pteAddr pte, e.By [.walker] := by
  unfold finishLeafLog
  split_ifs
  · exact nofun
  · exact nofun
  · exact accessBitsLog_by
  · exact nofun

theorem walkFromLog_by {levels : ℕ}
    {ppn : BitVec 64} : ∀ e ∈ walkFromLog ctx as vaddr type update levels ppn, e.By [.walker] := by
  induction levels generalizing as ppn with
  | zero => exact by_nil
  | succ level ih =>
    simp only [walkFromLog]
    cases as.bus.tryLoad ((ppn <<< 12) ||| (vpn vaddr level <<< 3)) 8 with
    | mk read bus =>
      cases read with
      | none => exact by_nil
      | some pte =>
        dsimp only
        split_ifs
        · exact by_nil
        · exact by_nil
        · exact finishLeafLog_by
        · exact by_nil
        · exact ih

theorem translateLog_by : ∀ e ∈ as.translateLog ctx vaddr type update, e.By [.walker] := by
  unfold translateLog
  split_ifs
  · exact nofun
  · exact nofun
  · exact nofun
  cases as.lookupTlb ctx.satp vaddr with
  | some i =>
    simp only [translateHitLog]
    split_ifs
    · exact nofun
    · exact nofun
    · exact accessBitsLog_by
  | none => exact walkFromLog_by

theorem accessFromLog_by {addr : BitVec 64} :
    ∀ e ∈ accessFromLog ctx type fuel as addr remaining, e.By [.walker] := by
  induction fuel generalizing as addr remaining with
  | zero => exact nofun
  | succ fuel ih =>
    simp only [accessFromLog]
    split_ifs
    · exact nofun
    intro e he
    rcases mem_append.1 he with htranslate | hrest
    · exact translateLog_by e htranslate
    cases htranslated : as.translate ctx addr type true with
    | mk result as₁ =>
      rw [htranslated] at hrest
      cases result with
      | error fault => cases hrest
      | ok paddr =>
        dsimp only at hrest
        cases hloaded : as₁.loadChunk type paddr (pageChunkSize addr remaining) with
        | mk read as₂ =>
          rw [hloaded] at hrest
          cases read with
          | none => cases hrest
          | some value => exact ih e hrest

theorem storeFromLog_by {agent : WriteAgent} :
    ∀ e ∈ storeFromLog ctx agent fuel as addr value remaining, e.By [.walker, agent] := by
  induction fuel generalizing as addr value remaining with
  | zero => exact nofun
  | succ fuel ih =>
    simp only [storeFromLog]
    split_ifs
    · exact nofun
    intro e he
    rcases mem_append.1 he with htranslate | hrest
    · exact (translateLog_by e htranslate).mono (cons_subset_cons _ (nil_subset _))
    cases htranslated : as.translate ctx addr .store true with
    | mk result as₁ =>
      rw [htranslated] at hrest
      cases result with
      | error fault => cases hrest
      | ok paddr =>
        rcases mem_cons.1 hrest with rfl | htail
        · exact mem_cons_of_mem _ mem_cons_self
        generalize pageChunkSize addr remaining = chunk at htail
        cases hstored : as₁.storeChunk paddr (value &&& sizeMask chunk) chunk with
        | mk done as₂ =>
          rw [hstored] at htail
          cases done with
          | false => cases htail
          | true => exact ih e htail

theorem storeChunk_tlb (paddr value : BitVec 64) (size : ℕ) :
    (as.storeChunk paddr value size).2.tlb = as.tlb := by
  unfold storeChunk
  split_ifs <;> rfl

theorem storeFrom_single {size : ℕ} (hpos : size ≠ 0) (hpage : (addr &&& 0xFFF).toNat + size ≤ 4096)
    (hstored : (storeFrom ctx size as addr value size).1 = none) :
    ∃ paddr, ∃ as₁ : AddressSpace D, as.translate ctx addr .store true = (.ok paddr, as₁) ∧
      (storeFrom ctx size as addr value size).2.tlb = as₁.tlb ∧
      ∀ agent, storeFromLog ctx agent size as addr value size =
        as.translateLog ctx addr .store true ++
          [.ofStore agent as₁ paddr (value &&& sizeMask size) size] := by
  obtain ⟨fuel, rfl⟩ := Nat.exists_eq_succ_of_ne_zero hpos
  have hchunk : pageChunkSize addr (fuel + 1) = fuel + 1 := by
    unfold pageChunkSize
    omega
  simp only [Nat.succ_eq_add_one, storeFrom, storeFromLog, if_neg hpos, hchunk, Nat.sub_self]
    at hstored ⊢
  cases htranslated : as.translate ctx addr .store true with
  | mk result as₁ =>
    rw [htranslated] at hstored
    cases result with
    | error fault => cases hstored
    | ok paddr =>
      dsimp only at hstored ⊢
      have htlb := as₁.storeChunk_tlb paddr (value &&& sizeMask (fuel + 1)) (fuel + 1)
      cases hwritten : as₁.storeChunk paddr (value &&& sizeMask (fuel + 1)) (fuel + 1) with
      | mk done as₂ =>
        rw [hwritten] at hstored htlb
        cases done with
        | false => cases hstored
        | true =>
          refine ⟨paddr, as₁, rfl, ?_, fun agent => ?_⟩
          · cases fuel <;> exact htlb
          · cases fuel <;> rfl

end AddressSpace

namespace Cpu

open AddressSpace AtomicOps

variable {D : Type} [Devices D] (cpu : Cpu D) {log : List MemoryEvent}

abbrev reserved (cpu : Cpu D) : Option Reservation := cpu.trap.reservation

theorem matched_of_by {agents : List WriteAgent}
    (hlog : ∀ e ∈ log, e.By agents) (hagents : .conditional ∉ agents) (r : Option Reservation) :
    Matched r log := by
  induction log generalizing r with
  | nil => trivial
  | cons e log ih =>
    refine ⟨?_, ih (fun e' he' => hlog e' (mem_cons_of_mem _ he')) _⟩
    intro x hx
    have he := hlog e mem_cons_self
    cases e with
    | reserve addr size => cases hx
    | trap => cases hx
    | write agent cache addr size written =>
      cases agent with
      | conditional => exact absurd he hagents
      | _ => cases hx

theorem walker_tracks (hlog : ∀ e ∈ log, e.By [.walker])
    (r : Option Reservation) : Tracks r log r :=
  .passive (by simp) hlog r

theorem fetch_tracks (pc : BitVec 64) :
    Tracks cpu.reserved (cpu.fetchLog pc) (cpu.fetchInstruction pc).2.reserved := by
  unfold fetchLog fetchInstruction
  have hhalf : (cpu.fetch16Result pc).2.reserved = cpu.reserved := rfl
  refine Tracks.append (walker_tracks accessFromLog_by _) ?_
  cases hfetched : cpu.fetch16Result pc with
  | mk result cpu₁ =>
    rw [hfetched] at hhalf
    cases result with
    | error fault =>
      rw [hhalf]
      exact .nil _
    | ok half =>
      simp only
      by_cases hlong : ((half.setWidth 16).setWidth 32 : BitVec 32) &&& 3 = 3
      · rw [if_pos hlong, if_pos hlong, ← hhalf]
        have hword : (cpu₁.fetch32Result pc).2.reserved = cpu₁.reserved := rfl
        cases hrest : cpu₁.fetch32Result pc with
        | mk result cpu₂ =>
          rw [hrest] at hword
          cases result with
          | error fault =>
            rw [hword]
            exact walker_tracks accessFromLog_by _
          | ok word =>
            rw [hword]
            exact walker_tracks accessFromLog_by _
      · rw [if_neg hlong, if_neg hlong, hhalf]
        exact .nil _

omit [Devices D] in
theorem reserved_invalidateReservation (paddr : BitVec 64) (size : ℕ) :
    (cpu.invalidateReservation paddr size).reserved =
      cpu.reserved.filter fun r => !rangesOverlap r.paddr r.size paddr size := by
  unfold invalidateReservation reserved
  cases hheld : cpu.trap.reservation with
  | none => exact hheld
  | some r =>
    dsimp only
    split_ifs with hoverlap
    · rw [Option.filter_some, hoverlap]
      rfl
    rw [Option.filter_some, Bool.eq_false_iff.2 hoverlap]
    exact hheld

theorem store_tracks {addr value : BitVec 64} {size : ℕ}
    (hstored : (cpu.storeResult addr value size).1 = none) :
    Tracks cpu.reserved (cpu.storeLog .scalar addr value size)
      ((cpu.storeResult addr value size).2.invalidateReservationForStore addr size).reserved := by
  have hmatched : Matched cpu.reserved (cpu.storeLog .scalar addr value size) :=
    matched_of_by storeFromLog_by (by simp) _
  unfold invalidateReservationForStore
  split_ifs with hclear
  · exact ⟨weaker_none _, hmatched⟩
  obtain ⟨hpos, hpage⟩ := not_or.1 hclear
  rw [accessCrossesPage, decide_eq_true_iff, not_lt] at hpage
  obtain ⟨paddr, as₁, htranslated, htlb, hlog⟩ :=
    storeFrom_single hpos hpage hstored
  have hagain := translate_again htranslated htlb
  have hcontext : (cpu.storeResult addr value size).2.accessContext = cpu.accessContext := rfl
  have hresult : (cpu.storeResult addr value size).2.translateResult addr .store false =
      (.ok paddr, (cpu.storeResult addr value size).2) := by
    unfold translateResult
    rw [hcontext]
    have hspace : (cpu.storeResult addr value size).2.addressSpace =
        (storeFrom cpu.accessContext size cpu.addressSpace addr value size).2 := rfl
    rw [hspace, hagain]
    rfl
  rw [hresult]
  rw [reserved_invalidateReservation]
  have hkept : (cpu.storeResult addr value size).2.reserved = cpu.reserved := rfl
  rw [hkept, storeLog, hlog]
  refine (walker_tracks translateLog_by _).append ⟨.refl _, ?_, trivial⟩
  intro x hx
  cases hx

variable (effects : InsnEffects)

theorem commitMemory_tracks :
    Matched cpu.reserved (cpu.commitMemoryLog effects) ∧
      ∀ out cpu', cpu.commitMemory effects = (.ok out, cpu') →
        Tracks cpu.reserved (cpu.commitMemoryLog effects) cpu'.reserved := by
  unfold commitMemory commitMemoryLog
  by_cases hload : effects.mem.kind = .load ∧ effects.rdWrite = none ∧ effects.fpWrite = none
  · rw [if_pos hload, if_pos hload]
    have hlog : ∀ r, Tracks r (cpu.loadLog effects.mem.addr effects.mem.size) r :=
      walker_tracks accessFromLog_by
    refine ⟨(hlog _).matched, fun out cpu' h => ?_⟩
    have hkept : (cpu.loadResult effects.mem.addr effects.mem.size).2.reserved = cpu.reserved := rfl
    cases hloaded : cpu.loadResult effects.mem.addr effects.mem.size with
    | mk result cpu₁ =>
      rw [hloaded] at h hkept
      cases result with
      | error fault => cases h
      | ok value =>
        cases h
        rw [hkept]
        exact hlog _
  · rw [if_neg hload, if_neg hload]
    by_cases hstore : effects.mem.kind = .store
    · rw [if_pos hstore, if_pos hstore]
      refine ⟨matched_of_by storeFromLog_by (by simp) _, fun out cpu' h => ?_⟩
      have htracks (hdone : (cpu.storeResult effects.mem.addr effects.mem.storeValue
          effects.mem.size).1 = none) := cpu.store_tracks hdone
      cases hstored : cpu.storeResult effects.mem.addr effects.mem.storeValue effects.mem.size with
      | mk result cpu₁ =>
        rw [hstored] at h htracks
        cases result with
        | some fault => cases h
        | none =>
          cases h
          exact htracks rfl
    · rw [if_neg hstore, if_neg hstore]
      refine ⟨trivial, fun out cpu' h => ?_⟩
      cases h
      exact .nil _

section

variable (request : AtomicRequest)

include request

theorem loadReserved_tracks (paddr : BitVec 64) :
    Matched cpu.reserved (cpu.loadReservedLog request paddr) ∧
      ((cpu.applyLoadReserved request paddr).1.trap = none →
        Tracks cpu.reserved (cpu.loadReservedLog request paddr)
          (cpu.applyLoadReserved request paddr).2.reserved) := by
  unfold applyLoadReserved loadReservedLog
  cases cpu.tryLoad paddr request.size with
  | mk read cpu₁ =>
    cases read with
    | none => exact ⟨trivial, fun h => by cases h⟩
    | some loaded =>
      have hmatched : Matched cpu.reserved [.reserve paddr request.size] := ⟨nofun, trivial⟩
      exact ⟨hmatched, fun _ => ⟨.refl _, hmatched⟩⟩

theorem storeConditional_tracks (paddr : BitVec 64) :
    Matched cpu.reserved (cpu.storeConditionalLog request paddr) ∧
      ((cpu.applyStoreConditional request paddr).1.trap = none →
        Tracks cpu.reserved (cpu.storeConditionalLog request paddr)
          (cpu.applyStoreConditional request paddr).2.reserved) := by
  unfold applyStoreConditional storeConditionalLog
  by_cases hmatches : cpu.reservationMatches paddr request.size
  · have hheld : cpu.reserved = some ⟨paddr, request.size⟩ := beq_iff_eq.1 hmatches
    have hmatched : ∀ value, Matched cpu.reserved
        [.ofStore .conditional cpu.addressSpace paddr value request.size] := by
      refine fun value => ⟨fun x hx => ?_, trivial⟩
      rw [hheld]
      exact hx
    simp only [hmatches, Bool.not_true, Bool.false_eq_true, if_false]
    refine ⟨hmatched _, ?_⟩
    have hcleared : (cpu.clearReservation.tryStore paddr
      (storeMaskedValue request.storeValue request.size) request.size).2.reserved = none := rfl
    cases hstored : cpu.clearReservation.tryStore paddr
        (storeMaskedValue request.storeValue request.size) request.size with
    | mk stored cpu₁ =>
      rw [hstored] at hcleared
      cases stored with
      | false => exact fun h => by cases h
      | true =>
        intro _
        rw [hcleared]
        exact ⟨weaker_none _, hmatched _⟩
  · simp only [hmatches, Bool.not_false, if_true]
    exact ⟨trivial, fun _ => ⟨weaker_none _, trivial⟩⟩

theorem readModifyWrite_tracks (paddr : BitVec 64) :
    Matched cpu.reserved (cpu.readModifyWriteLog request paddr) ∧
      ((cpu.applyReadModifyWrite request paddr).1.trap = none →
        Tracks cpu.reserved (cpu.readModifyWriteLog request paddr)
          (cpu.applyReadModifyWrite request paddr).2.reserved) := by
  unfold applyReadModifyWrite readModifyWriteLog
  have hloaded : (cpu.tryLoad paddr request.size).2.reserved = cpu.reserved := rfl
  cases hread : cpu.tryLoad paddr request.size with
  | mk read cpu₁ =>
    rw [hread] at hloaded
    cases read with
    | none => exact ⟨trivial, fun h => by cases h⟩
    | some loaded =>
      dsimp only at hloaded ⊢
      generalize storeMaskedValue (computeAmoResult request.kind loaded request.storeValue
        request.size) request.size = value
      have hmatched : Matched cpu.reserved
          [.ofStore .readModifyWrite cpu₁.addressSpace paddr value request.size] := ⟨nofun, trivial⟩
      refine ⟨hmatched, ?_⟩
      have hkept : (cpu₁.tryStore paddr value request.size).2.reserved = cpu₁.reserved := rfl
      cases hstored : cpu₁.tryStore paddr value request.size with
      | mk stored cpu₂ =>
        rw [hstored] at hkept
        cases stored with
        | false => exact fun h => by cases h
        | true =>
          intro _
          refine ⟨?_, hmatched⟩
          rw [reserved_invalidateReservation, hkept, hloaded]
          exact .refl _

theorem atomic_tracks : Matched cpu.reserved (cpu.atomicLog request) ∧
      ((cpu.applyAtomicRequest request).1.trap = none →
        Tracks cpu.reserved (cpu.atomicLog request)
          (cpu.applyAtomicRequest request).2.reserved) := by
  unfold applyAtomicRequest atomicLog
  split_ifs with hnone hrefused
  · exact ⟨trivial, fun _ => .nil _⟩
  · exact ⟨trivial, fun h => by cases h⟩
  have htranslate : Tracks cpu.reserved
      (cpu.translateLog request.addr (accessType request.kind) true)
      (cpu.translateResult request.addr (accessType request.kind) true).2.reserved :=
    walker_tracks translateLog_by _
  cases htranslated : cpu.translateResult request.addr (accessType request.kind) true with
  | mk result cpu₁ =>
    rw [htranslated] at htranslate
    cases result with
    | error fault => exact ⟨by simpa using htranslate.matched, fun h => by cases h⟩
    | ok paddr =>
      generalize cpu.translateLog request.addr (accessType request.kind) true = before
        at htranslate ⊢
      have hrest : ∀ {log : List MemoryEvent} {result : AtomicApplyResult × Cpu D},
          (Matched cpu₁.reserved log ∧
            (result.1.trap = none → Tracks cpu₁.reserved log result.2.reserved)) →
          Matched cpu.reserved (before ++ log) ∧
            (result.1.trap = none → Tracks cpu.reserved (before ++ log) result.2.reserved) := by
        rintro log result ⟨hmatched, htracks⟩
        refine ⟨matched_append.2 ⟨htranslate.matched, hmatched.mono htranslate.held⟩, ?_⟩
        exact fun h => htranslate.append (htracks h)
      cases request.kind with
      | loadReserved => exact hrest (cpu₁.loadReserved_tracks request paddr)
      | storeConditional => exact hrest (cpu₁.storeConditional_tracks request paddr)
      | _ => exact hrest (cpu₁.readModifyWrite_tracks request paddr)

end

variable (addr : BitVec 64)

theorem loadVectorBytesLog_by (count i : ℕ) (cpu : Cpu D) :
    ∀ e ∈ loadVectorBytesLog addr count i cpu, e.By [.walker, .vector] := by
  induction count generalizing i cpu with
  | zero => exact nofun
  | succ count ih =>
    intro e he
    rcases mem_append.1 he with hload | hrest
    · exact (accessFromLog_by e hload).mono (cons_subset_cons _ (nil_subset _))
    cases hloaded : cpu.loadResult (addr + BitVec.ofNat 64 i) 1 with
    | mk result cpu₁ =>
      rw [hloaded] at hrest
      cases result with
      | error fault => cases hrest
      | ok value => exact ih _ _ e hrest

theorem storeVectorBytesLog_by (reg : VectorReg) (count i : ℕ) (cpu : Cpu D) :
    ∀ e ∈ storeVectorBytesLog addr reg count i cpu, e.By [.walker, .vector] := by
  induction count generalizing i cpu with
  | zero => exact nofun
  | succ count ih =>
    intro e he
    rcases mem_append.1 he with hstore | hrest
    · exact storeFromLog_by e hstore
    cases hstored : cpu.storeResult (addr + BitVec.ofNat 64 i)
      ((VectorOps.byteAt reg i).setWidth 64) 1 with
    | mk result cpu₁ =>
      rw [hstored] at hrest
      cases result with
      | some fault => cases hrest
      | none => exact ih _ _ e hrest

theorem vectorLog_by (request : VectorRequest) :
    ∀ e ∈ cpu.vectorLog request, e.By [.walker, .vector] := by
  unfold vectorLog
  split_ifs
  · exact nofun
  · exact nofun
  cases request.kind with
  | load =>
    cases validateVectorMemorySpan .load cpu.vectorBytes cpu request.addr none with
    | mk fault cpu₁ =>
      cases fault with
      | some fault => exact nofun
      | none => exact loadVectorBytesLog_by _ _ _ _
  | store =>
    cases validateVectorMemorySpan .store cpu.vectorBytes cpu request.addr none with
    | mk fault cpu₁ =>
      cases fault with
      | some fault => exact nofun
      | none => exact storeVectorBytesLog_by _ _ _ _ _
  | _ => exact nofun

theorem validateVectorMemorySpan_reserved (type : AccessType) (bytes : ℕ) (cpu : Cpu D)
    (addr : BitVec 64) (span : Option RamSpan) :
    (validateVectorMemorySpan type bytes cpu addr span).2.reserved = cpu.reserved := by
  induction bytes generalizing cpu addr span with
  | zero => rfl
  | succ bytes ih =>
    unfold validateVectorMemorySpan
    have hkept : (cpu.translateResult addr type false).2.reserved = cpu.reserved := rfl
    cases htranslated : cpu.translateResult addr type false with
    | mk result cpu₁ =>
      rw [htranslated] at hkept
      cases result with
      | error fault => exact hkept
      | ok paddr =>
        dsimp only
        cases extendSpan D span paddr with
        | none => exact hkept
        | some span => exact (ih cpu₁ _ _).trans hkept

theorem loadVectorBytes_reserved (count i : ℕ) (cpu : Cpu D) (reg : VectorReg) :
    (loadVectorBytes addr count i cpu reg).2.reserved = cpu.reserved := by
  induction count generalizing i cpu reg with
  | zero => rfl
  | succ count ih =>
    unfold loadVectorBytes
    have hkept : (cpu.loadResult (addr + BitVec.ofNat 64 i) 1).2.reserved = cpu.reserved := rfl
    cases hloaded : cpu.loadResult (addr + BitVec.ofNat 64 i) 1 with
    | mk result cpu₁ =>
      rw [hloaded] at hkept
      cases result with
      | error fault => exact hkept
      | ok value => exact (ih _ cpu₁ _).trans hkept

theorem storeVectorBytes_reserved (reg : VectorReg) (count i : ℕ) (cpu : Cpu D) (changed : Bool) :
    (storeVectorBytes addr reg count i cpu changed).2.reserved = cpu.reserved := by
  induction count generalizing i cpu changed with
  | zero => rfl
  | succ count ih =>
    unfold storeVectorBytes
    have hkept : (cpu.storeResult (addr + BitVec.ofNat 64 i)
      ((VectorOps.byteAt reg i).setWidth 64) 1).2.reserved = cpu.reserved := rfl
    cases hstored : cpu.storeResult (addr + BitVec.ofNat 64 i)
      ((VectorOps.byteAt reg i).setWidth 64) 1 with
    | mk result cpu₁ =>
      rw [hstored] at hkept
      cases result with
      | some fault => exact hkept
      | none => exact (ih _ cpu₁ _).trans hkept

theorem applyVectorRequest_reserved (request : VectorRequest) :
    (cpu.applyVectorRequest request).2.reserved = cpu.reserved := by
  have halu : (cpu.applyVectorAlu request).2.reserved = cpu.reserved := by
    unfold applyVectorAlu
    split
    · rfl
    · split <;> rfl
  unfold applyVectorRequest
  cases request.kind with
  | none => rfl
  | setConfig =>
    cases cpu.core.vector.setConfig request.sewBytes request.vl <;> rfl
  | load =>
    unfold applyVectorLoad
    split_ifs
    · rfl
    · rfl
    have hvalid := validateVectorMemorySpan_reserved .load cpu.vectorBytes cpu request.addr none
    cases hresult : validateVectorMemorySpan .load cpu.vectorBytes cpu request.addr none with
    | mk fault cpu₁ =>
      rw [hresult] at hvalid
      cases fault with
      | some fault => exact hvalid
      | none =>
        dsimp only
        have hload := loadVectorBytes_reserved request.addr cpu.vectorBytes 0 cpu₁
          (Vector.replicate 16 0)
        cases hloaded : loadVectorBytes request.addr cpu.vectorBytes 0 cpu₁
          (Vector.replicate 16 0) with
        | mk result cpu₂ =>
          rw [hloaded] at hload
          cases result with
          | error fault => exact hload.trans hvalid
          | ok reg => exact hload.trans hvalid
  | store =>
    unfold applyVectorStore
    split_ifs
    · rfl
    · rfl
    have hvalid := validateVectorMemorySpan_reserved .store cpu.vectorBytes cpu request.addr none
    cases hresult : validateVectorMemorySpan .store cpu.vectorBytes cpu request.addr none with
    | mk fault cpu₁ =>
      rw [hresult] at hvalid
      cases fault with
      | some fault => exact hvalid
      | none => exact (storeVectorBytes_reserved _ _ _ _ cpu₁ _).trans hvalid
  | _ => exact halu

theorem enterTrap_reserved (cause tval : BitVec 64) : (cpu.enterTrap cause tval).reserved =
    none := by
  unfold enterTrap
  split_ifs <;> rfl

section

variable (input : CommitBoundaryInput)

include input

variable (effects : InsnEffects)

theorem finishCommit_reserved (changed observed : Bool) :
    (cpu.finishCommit input effects changed observed).2.reserved = cpu.reserved := by
  unfold reserved
  rw [finishCommit_trap]

theorem commitVector_tracks (changed observed : Bool) :
    Tracks cpu.reserved (cpu.commitVectorLog effects)
      (cpu.commitVector input effects changed observed).2.reserved := by
  unfold commitVectorLog commitVector
  have hlog : Tracks cpu.reserved (cpu.vectorLog effects.vector) cpu.reserved :=
    .passive (by simp) (cpu.vectorLog_by effects.vector) _
  have hkept := cpu.applyVectorRequest_reserved effects.vector
  cases hresult : cpu.applyVectorRequest effects.vector with
  | mk result cpu₁ =>
    rw [hresult] at hkept
    cases result with
    | error trap =>
      have hcleared : (cpu₁.trapResult input.pc trap false).2.reserved = none :=
        enterTrap_reserved _ _ _
      rw [hcleared]
      exact hlog.matched.trap
    | ok vectorChanged =>
      rw [finishCommit_reserved, append_nil, hkept]
      exact hlog

theorem commitAtomic_tracks (changed : Bool) :
    Tracks cpu.reserved (cpu.commitAtomicLog effects)
      (cpu.commitAtomic input effects changed).2.reserved := by
  unfold commitAtomicLog commitAtomic
  split_ifs with hnone
  · exact cpu.commitVector_tracks input effects changed false
  obtain ⟨hmatched, htracks⟩ := cpu.atomic_tracks effects.atomic
  cases hresult : cpu.applyAtomicRequest effects.atomic with
  | mk result cpu₁ =>
    rw [hresult] at htracks
    dsimp only at htracks ⊢
    cases htrap : result.trap with
    | some trap =>
      have hcleared : (cpu₁.trapResult input.pc trap result.memoryObserved).2.reserved = none :=
        enterTrap_reserved _ _ _
      rw [hcleared]
      exact hmatched.trap
    | none =>
      exact (htracks htrap).append
        (cpu₁.commitVector_tracks input { effects with rdWrite := result.rdWrite } _ _)

theorem commit_tracks :
    Tracks cpu.reserved (cpu.commitLog input.effects)
      (cpu.applyCommitBoundary input).2.reserved := by
  unfold commitLog applyCommitBoundary
  cases input.effects.trap with
  | some trap =>
    have hcleared : (cpu.trapResult input.pc trap false).2.reserved = none :=
      enterTrap_reserved _ _ _
    rw [hcleared]
    exact (show Matched cpu.reserved [] from trivial).trap
  | none =>
    obtain ⟨hmatched, htracks⟩ := cpu.commitMemory_tracks input.effects
    cases hmemory : cpu.commitMemory input.effects with
    | mk result cpu₁ =>
      cases result with
      | error trap =>
        have hcleared : (cpu₁.trapResult input.pc trap false).2.reserved = none :=
          enterTrap_reserved _ _ _
        rw [hcleared]
        exact hmatched.trap
      | ok out =>
        exact (htracks out cpu₁ hmemory).append (cpu₁.commitAtomic_tracks input out.1 out.2)

end

/-- What the atomic access of the boundary reports, when the boundary reaches it. -/
def atomicResult : Option AtomicApplyResult :=
  match effects.trap with
  | some _ => none
  | none =>
    match cpu.commitMemory effects with
    | (.error _, _) => none
    | (.ok (effects, _), cpu) => some (cpu.applyAtomicRequest effects.atomic).1

/-- The instruction is a store-conditional that returns zero. -/
def StoreConditionalSucceeds : Prop :=
  ∃ result rd, cpu.atomicResult effects = some result ∧ result.rdWrite = some ⟨rd, 0⟩

theorem commitMemory_atomic {effects effects' : InsnEffects} {changed : Bool} {cpu' : Cpu D}
    (h : cpu.commitMemory effects = (.ok (effects', changed), cpu')) :
    effects'.atomic = effects.atomic := by
  unfold commitMemory at h
  split_ifs at h
  · cases hloaded : cpu.loadResult effects.mem.addr effects.mem.size with
    | mk result cpu₁ =>
      rw [hloaded] at h
      cases result with
      | error fault => cases h
      | ok value =>
        cases h
        unfold loadEffects
        cases effects.mem.target <;> rfl
  · cases hstored : cpu.storeResult effects.mem.addr effects.mem.storeValue effects.mem.size with
    | mk result cpu₁ =>
      rw [hstored] at h
      cases result with
      | some fault => cases h
      | none =>
        cases h
        rfl
  · cases h
    rfl

theorem storeConditional_result {request : AtomicRequest}
    (hkind : request.kind = .storeConditional) :
    ((cpu.applyAtomicRequest request).1.trap = none →
        (cpu.applyAtomicRequest request).2.reserved = none) ∧
      ∀ rd, (cpu.applyAtomicRequest request).1.rdWrite = some ⟨rd, 0⟩ →
        ∃ before cache paddr written, cpu.atomicLog request =
          before ++ [.write .conditional cache paddr request.size written] := by
  have hnone : request.kind ≠ .none := by
    rw [hkind]
    decide
  unfold applyAtomicRequest atomicLog
  rw [if_neg hnone, if_neg hnone]
  split_ifs with hrefused
  · exact ⟨nofun, nofun⟩
  cases htranslated : cpu.translateResult request.addr (accessType request.kind) true with
  | mk result cpu₁ =>
    cases result with
    | error fault => exact ⟨nofun, nofun⟩
    | ok paddr =>
      simp only [hkind]
      unfold applyStoreConditional storeConditionalLog
      split_ifs with hmatches
      · refine ⟨fun _ => rfl, fun rd hrd => ?_⟩
        cases hrd
      have hcleared : (cpu₁.clearReservation.tryStore paddr
        (storeMaskedValue request.storeValue request.size) request.size).2.reserved = none :=
          rfl
      refine ⟨fun _ => ?_, fun rd hrd => ⟨_, _, _, _, rfl⟩⟩
      cases hstored : cpu₁.clearReservation.tryStore paddr
          (storeMaskedValue request.storeValue request.size) request.size with
      | mk stored cpu₂ =>
        rw [hstored] at hcleared
        cases stored <;> exact hcleared

theorem commitVector_reserved (h : cpu.reserved = none) (input : CommitBoundaryInput)
    (effects : InsnEffects) (changed observed : Bool) :
    (cpu.commitVector input effects changed observed).2.reserved = none := by
  unfold commitVector
  have hkept := cpu.applyVectorRequest_reserved effects.vector
  cases hresult : cpu.applyVectorRequest effects.vector with
  | mk result cpu₁ =>
    rw [hresult] at hkept
    cases result with
    | error trap => exact enterTrap_reserved _ _ _
    | ok vectorChanged => exact (cpu₁.finishCommit_reserved _ _ _ _).trans (hkept.trans h)

theorem commit_storeConditional_reserved {input : CommitBoundaryInput}
    (hkind : input.effects.atomic.kind = .storeConditional) :
    (cpu.applyCommitBoundary input).2.reserved = none := by
  unfold applyCommitBoundary
  cases input.effects.trap with
  | some trap => exact enterTrap_reserved _ _ _
  | none =>
    cases hmemory : cpu.commitMemory input.effects with
    | mk result cpu₁ =>
      cases result with
      | error trap => exact enterTrap_reserved _ _ _
      | ok out =>
        obtain ⟨effects, changed⟩ := out
        rw [← cpu.commitMemory_atomic hmemory] at hkind
        have hresult := cpu₁.storeConditional_result hkind
        simp only [commitAtomic, hkind, reduceCtorEq, if_false]
        cases htrap : (cpu₁.applyAtomicRequest effects.atomic).1.trap with
        | some trap => exact enterTrap_reserved _ _ _
        | none => exact commitVector_reserved _ (hresult.1 htrap) _ _ _ _

theorem StoreConditionalSucceeds.writes {effects : InsnEffects}
    (h : cpu.StoreConditionalSucceeds effects) (hkind : effects.atomic.kind = .storeConditional) :
    ∃ before cache paddr written after, cpu.commitLog effects =
      before ++ .write .conditional cache paddr effects.atomic.size written :: after := by
  obtain ⟨result, rd, hresult, hrd⟩ := h
  unfold atomicResult at hresult
  unfold commitLog
  cases htrapped : effects.trap with
  | some trap =>
    rw [htrapped] at hresult
    cases hresult
  | none =>
    rw [htrapped] at hresult
    cases hmemory : cpu.commitMemory effects with
    | mk memory cpu₁ =>
      rw [hmemory] at hresult
      cases memory with
      | error trap => cases hresult
      | ok out =>
        obtain ⟨effects', changed⟩ := out
        have hatomic := cpu.commitMemory_atomic hmemory
        cases hresult
        rw [← hatomic] at hkind ⊢
        have hnone : effects'.atomic.kind ≠ .none := by
          rw [hkind]
          decide
        obtain ⟨before, cache, paddr, written, hlog⟩ :=
          (cpu₁.storeConditional_result hkind).2 rd hrd
        dsimp only [commitAtomicLog]
        rw [if_neg hnone, hlog]
        simp only [List.append_assoc, singleton_append]
        exact ⟨cpu.commitMemoryLog effects ++ before, cache, paddr, written, _,
          (List.append_assoc _ _ _).symm⟩

end Cpu

namespace GuestOp

open Cpu AddressSpace

variable {D : Type} [Devices D]

theorem run_tracks (cpu : Cpu D) (op : GuestOp) :
    Tracks cpu.reserved (op.log cpu) (op.run cpu).2.reserved := by
  cases op with
  | translate vaddr type updateAccessBits => exact walker_tracks translateLog_by _
  | fetch pc => exact cpu.fetch_tracks pc
  | load addr size => exact walker_tracks accessFromLog_by _
  | commit input => exact cpu.commit_tracks input
  | trap cause tval =>
    have hcleared : ((GuestOp.trap cause tval).run cpu).2.reserved = none :=
      enterTrap_reserved _ _ _
    rw [hcleared]
    exact (show Matched cpu.reserved [] from trivial).trap
  | registers core csr timerPendingMask flushTlb => exact .nil _
  | tick =>
    have hlog : ∀ e ∈ GuestOp.tick.log cpu, e.By [.dma] := by
      intro e he
      rw [mem_singleton.1 he]
      exact mem_singleton_self _
    exact .passive (by simp) hlog _
  | dmaWrite transaction data =>
    have hlog : ∀ e ∈ (GuestOp.dmaWrite transaction data).log cpu, e.By [.dma] := by
      intro e he
      simp only [log] at he
      cases hwritten : cpu.addressSpace.bus.dmaWrite transaction data with
      | mk result bus =>
        rw [hwritten] at he
        cases result with
        | error fault => cases he
        | ok _ =>
          rw [mem_singleton.1 he]
          exact mem_singleton_self _
    exact .passive (by simp) hlog _
  | invalidateRange addr size => exact .nil _

/-- Along the run, the writes that the processor does not compare with the reservation
spare the range reserved at that time. -/
def SparesReservation : Cpu D → List GuestOp → Prop
  | _, [] => True
  | cpu, op :: ops =>
    MemoryEvent.SparesReservation cpu.reserved (op.log cpu) ∧ SparesReservation (op.run cpu).2 ops

theorem sparesReservation_append {cpu : Cpu D} {ops ops' : List GuestOp} :
    SparesReservation cpu (ops ++ ops') ↔
      SparesReservation cpu ops ∧ SparesReservation (runAll cpu ops) ops' := by
  induction ops generalizing cpu with
  | nil => simp [SparesReservation, runAll]
  | cons op ops ih =>
    simp only [List.cons_append, SparesReservation, ih, runAll, and_assoc]

section

variable {cpu : Cpu D} {history : List MemoryEvent} (h : Held history cpu.reserved)

include h

theorem run_held
    {op : GuestOp} (hspares : MemoryEvent.SparesReservation cpu.reserved (op.log cpu)) :
    Held (history ++ op.log cpu) (op.run cpu).2.reserved :=
  (h.foldl hspares).weaken (run_tracks cpu op).held

theorem runAll_held {ops : List GuestOp} (hspares : SparesReservation cpu ops) :
    Held (history ++ logAll cpu ops) (runAll cpu ops).reserved := by
  induction ops generalizing cpu history with
  | nil =>
    rw [logAll, append_nil]
    exact h
  | cons op ops ih =>
    have hrest := ih (run_held h hspares.1) hspares.2
    rw [List.append_assoc] at hrest
    exact hrest

end

def atomicCommit (kind : AtomicKind) : CommitBoundaryInput where
  pc := memBase
  nextPc := memBase + 4
  effects := { atomic := { kind, addr := memBase, storeValue := 7, rd := 5, size := 8 } }

/-- A load-reserved and, after a device has written the reserved bytes, a
store-conditional. -/
def reservedRun : List GuestOp :=
  [.commit (atomicCommit .loadReserved), .dmaWrite ⟨"virtio-blk", memBase, 1⟩ (some [1])]

def reservedMachine : Cpu Unit := Cpu.reset (fun _ => 0) ()

end GuestOp

end VisualCpu
