import VisualCpu.Mem.RamFacts
import VisualCpu.Pipeline.QueueFacts

/-!
# Forwarding and blocking of the load/store queue

The abstract side is RAM with the older stores of the queue applied in program order. A store
has a place for each of its bytes; the queue knows the places only of a store with a RAM span.
-/

namespace VisualCpu

open List Option Ram Nat

/-- Where the bytes of a store go in RAM; `none` for a byte that changes no RAM. -/
abbrev Placement := LsqEntry → ℕ → Option (BitVec 64)

namespace LoadStoreQueue

/-- The places agree with what a resolved store knows about its address. -/
structure Placed (place : Placement) (e : LsqEntry) : Prop where
  ram : ∀ paddr, e.addressInfo.paddr = some paddr → e.addressInfo.isKnownRam →
    contains paddr e.size ∧ ∀ k < e.size, place e k = some (paddr + BitVec.ofNat 64 k)
  outside : e.addressInfo.paddr.isSome → e.addressInfo.isKnownRam = false →
    ∀ k < e.size, place e k = none

/-- A store that precedes a load in program order. -/
def OlderStore (sequenceId : ℕ) (e : LsqEntry) : Prop :=
  e.kind = .store ∧ e.sequenceId < sequenceId

instance (sequenceId : ℕ) (e : LsqEntry) : Decidable (OlderStore sequenceId e) :=
  inferInstanceAs (Decidable (_ ∧ _))

def applyBytes (place : Placement) (e : LsqEntry) (ram : Ram) : ℕ → Ram
  | 0 => ram
  | k + 1 =>
    match place e k with
    | none => applyBytes place e ram k
    | some a => Function.update (applyBytes place e ram k) a (byteOf e.data k)

def applyOlder (place : Placement) (sequenceId : ℕ) (ram : Ram) (e : LsqEntry) : Ram :=
  if OlderStore sequenceId e then applyBytes place e ram e.size else ram

def applyStores (lsq : LoadStoreQueue) (place : Placement) (sequenceId : ℕ) (ram : Ram) : Ram :=
  lsq.entries.foldl (applyOlder place sequenceId) ram

/-- A store changes a byte of a span. -/
def Touches (place : Placement) (e : LsqEntry) (paddr : BitVec 64) (size : ℕ) : Prop :=
  ∃ k < e.size, ∃ i < size, place e k = some (paddr + BitVec.ofNat 64 i)

/-- A store changes every byte of a span. -/
def Covers (place : Placement) (e : LsqEntry) (paddr : BitVec 64) (size : ℕ) : Prop :=
  ∀ i < size, ∃ k < e.size, place e k = some (paddr + BitVec.ofNat 64 i)

/-- The older stores that touch the span are released, and the youngest of them has no value
for the load: it does not cover the span, or it is marked as device access, or it or an older
store after it is not ready. -/
structure Released (lsq : LoadStoreQueue) (place : Placement) (sequenceId : ℕ)
    (paddr : BitVec 64) (size : ℕ) : Prop where
  ready : ∀ e ∈ lsq.entries, OlderStore sequenceId e → Touches place e paddr size → e.orderReady
  youngest : ∀ front e later, lsq.entries = front ++ e :: later → OlderStore sequenceId e →
    Touches place e paddr size →
    (∀ e' ∈ later, OlderStore sequenceId e' → ¬ Touches place e' paddr size) →
      ¬ Covers place e paddr size ∨ e.mmio ∨
        ∃ e' ∈ e :: later, OlderStore sequenceId e' ∧ ¬ (e'.dataReady ∧ e'.orderReady)

section Spans

variable {addr : BitVec 64}

theorem contains_bounds {size : ℕ} (h : contains addr size) :
    0 < size ∧ addr.toNat + size ≤ memBase.toNat + memSize := by
  simp only [Ram.contains, decide_eq_true_eq] at h
  omega

theorem end_toNat {size : ℕ} (h : contains addr size) :
    (addr + BitVec.ofNat 64 size).toNat = addr.toNat + size := by
  have hbounds := (contains_bounds h).2
  have hmem : memBase.toNat + memSize < 2 ^ 64 := by decide
  rw [BitVec.toNat_add, BitVec.toNat_ofNat, mod_eq_of_lt (a := size) (by omega),
    mod_eq_of_lt (by omega)]

theorem byte_toNat {size i : ℕ} (h : contains addr size) (hi : i < size) :
    (addr + BitVec.ofNat 64 i).toNat = addr.toNat + i := by
  have hbounds := (contains_bounds h).2
  have hmem : memBase.toNat + memSize < 2 ^ 64 := by decide
  rw [BitVec.toNat_add, BitVec.toNat_ofNat, mod_eq_of_lt (a := i) (by omega),
    mod_eq_of_lt (by omega)]

theorem rangesOverlap_iff {p q : BitVec 64} {n m : ℕ} (hp : contains p n) (hq : contains q m) :
    rangesOverlap p n q m ↔ p.toNat < q.toNat + m ∧ q.toNat < p.toNat + n := by
  rw [rangesOverlap, decide_eq_true_eq, BitVec.lt_def, BitVec.lt_def, end_toNat hp, end_toNat hq]

variable {place : Placement} {e : LsqEntry} {paddr : BitVec 64} {size : ℕ}

variable {ram : Ram} {a : BitVec 64}

theorem applyBytes_untouched {n : ℕ}
    (h : ∀ k < n, place e k ≠ some a) : applyBytes place e ram n a = ram a := by
  induction n with
  | zero => rfl
  | succ n ih =>
    have hrest := ih fun k hk => h k (lt_succ_of_lt hk)
    rw [applyBytes]
    cases hplace : place e n with
    | none => exact hrest
    | some b =>
      have hne : a ≠ b := fun heq => h n (lt_succ_self n) (heq ▸ hplace)
      exact (Function.update_of_ne hne _ _).trans hrest

theorem applyBytes_placed {n k : ℕ} (hk : k < n)
    (hplace : place e k = some a) (honce : ∀ j < n, place e j = some a → j = k) :
    applyBytes place e ram n a = byteOf e.data k := by
  induction n with
  | zero => omega
  | succ n ih =>
    by_cases hlast : k = n
    · subst hlast
      rw [applyBytes, hplace]
      exact Function.update_self _ _ _
    have hrest := ih (by omega) fun j hj => honce j (lt_succ_of_lt hj)
    rw [applyBytes]
    cases hn : place e n with
    | none => exact hrest
    | some b =>
      have hne : a ≠ b := fun heq => by
        have := honce n (lt_succ_self n) (heq ▸ hn)
        omega
      exact (Function.update_of_ne hne _ _).trans hrest

theorem applyBytes_load (h : ¬ Touches place e paddr size) :
    load (applyBytes place e ram e.size) paddr size = ram.load paddr size :=
  load_congr fun i hi => applyBytes_untouched fun k hk hplace => h ⟨k, hk, i, hi, hplace⟩

variable {storePaddr : BitVec 64}

theorem touches_iff (hplaced : Placed place e)
    (hstore : e.addressInfo.paddr = some storePaddr) (hram : e.addressInfo.isKnownRam)
    (hspan : contains paddr size) :
    Touches place e paddr size ↔ sameTranslatedSpan e paddr size := by
  obtain ⟨hcontains, hbytes⟩ := hplaced.ram storePaddr hstore hram
  rw [sameTranslatedSpan, hram, Bool.true_and, hstore, getD_some, rangesOverlap_iff hcontains hspan]
  constructor
  · rintro ⟨k, hk, i, hi, hplace⟩
    rw [hbytes k hk, some.injEq] at hplace
    have hsame := congrArg BitVec.toNat hplace
    rw [byte_toNat hcontains hk, byte_toNat hspan hi] at hsame
    omega
  · rintro ⟨hleft, hright⟩
    have hstorePos := (contains_bounds hcontains).1
    have hloadPos := (contains_bounds hspan).1
    obtain ⟨k, i, hk, hi, hsum⟩ : ∃ k i, k < e.size ∧ i < size ∧
        storePaddr.toNat + k = paddr.toNat + i := by
      rcases le_total storePaddr.toNat paddr.toNat with hle | hle
      · exact ⟨paddr.toNat - storePaddr.toNat, 0, by omega, hloadPos, by omega⟩
      · exact ⟨0, storePaddr.toNat - paddr.toNat, hstorePos, by omega, by omega⟩
    refine ⟨k, hk, i, hi, ?_⟩
    rw [hbytes k hk, some.injEq]
    apply BitVec.eq_of_toNat_eq
    rw [byte_toNat hcontains hk, byte_toNat hspan hi, hsum]

theorem covers_iff (hplaced : Placed place e)
    (hstore : e.addressInfo.paddr = some storePaddr) (hram : e.addressInfo.isKnownRam)
    (hspan : contains paddr size) :
    Covers place e paddr size ↔ storePaddr ≤ paddr ∧
      paddr + BitVec.ofNat 64 size ≤ storePaddr + BitVec.ofNat 64 e.size := by
  obtain ⟨hcontains, hbytes⟩ := hplaced.ram storePaddr hstore hram
  have hloadPos := (contains_bounds hspan).1
  rw [BitVec.le_def, BitVec.le_def, end_toNat hcontains, end_toNat hspan]
  have hplace : ∀ k i, k < e.size → i < size →
      (place e k = some (paddr + BitVec.ofNat 64 i) ↔ storePaddr.toNat + k = paddr.toNat + i) := by
    intro k i hk hi
    rw [hbytes k hk, some.injEq, ← BitVec.toNat_inj, byte_toNat hcontains hk, byte_toNat hspan hi]
  constructor
  · intro hcovers
    obtain ⟨k, hk, hfirst⟩ := hcovers 0 hloadPos
    obtain ⟨l, hl, hlast⟩ := hcovers (size - 1) (by omega)
    rw [hplace k 0 hk hloadPos] at hfirst
    rw [hplace l (size - 1) hl (by omega)] at hlast
    omega
  · rintro ⟨hleft, hright⟩ i hi
    refine ⟨paddr.toNat - storePaddr.toNat + i, by omega, ?_⟩
    rw [hplace _ i (by omega) hi]
    omega

theorem sizeMask_getLsbD (n : ℕ) {j : ℕ} (hj : j < 64) :
    (sizeMask n).getLsbD j = decide (j < 8 * n) := by
  rw [sizeMask]
  split
  · rw [BitVec.getLsbD_allOnes, decide_eq_true hj, decide_eq_true (by omega)]
  have hmasks : ∀ n < 8, ∀ j < 64, ((1#64 <<< (8 * n)) - 1).getLsbD j = decide (j < 8 * n) := by
    decide
  exact hmasks n (by omega) j hj

theorem applyBytes_covering (hplaced : Placed place e)
    (hstore : e.addressInfo.paddr = some storePaddr) (hram : e.addressInfo.isKnownRam)
    (hspan : contains paddr size) (hcovers : storePaddr ≤ paddr ∧
      paddr + BitVec.ofNat 64 size ≤ storePaddr + BitVec.ofNat 64 e.size) :
    load (applyBytes place e ram e.size) paddr size =
      (e.data >>> (8 * (paddr - storePaddr).toNat)) &&& sizeMask size := by
  obtain ⟨hcontains, hbytes⟩ := hplaced.ram storePaddr hstore hram
  obtain ⟨hleft, hright⟩ := hcovers
  rw [BitVec.le_def] at hleft hright
  rw [end_toNat hcontains, end_toNat hspan] at hright
  have hoff : (paddr - storePaddr).toNat = paddr.toNat - storePaddr.toNat :=
    BitVec.toNat_sub_of_le (BitVec.le_def.2 hleft)
  have hbyte : ∀ i < size, applyBytes place e ram e.size (paddr + BitVec.ofNat 64 i) =
      byteOf e.data ((paddr - storePaddr).toNat + i) := by
    intro i hi
    have hat : ∀ k < e.size, place e k = some (paddr + BitVec.ofNat 64 i) ↔
        storePaddr.toNat + k = paddr.toNat + i := by
      intro k hk
      rw [hbytes k hk, some.injEq, ← BitVec.toNat_inj, byte_toNat hcontains hk, byte_toNat hspan hi]
    have hk : (paddr - storePaddr).toNat + i < e.size := by omega
    apply applyBytes_placed hk
    · rw [hat _ hk]
      omega
    intro j hj hplace
    rw [hat j hj] at hplace
    omega
  apply BitVec.eq_of_getLsbD_eq
  intro j hj
  rw [load_getLsbD, BitVec.getLsbD_and, BitVec.getLsbD_ushiftRight, sizeMask_getLsbD size hj]
  by_cases hin : j < 8 * size
  · have hdiv : j / 8 < size := by omega
    rw [hbyte _ hdiv, byteOf_getLsbD, decide_eq_true hj, decide_eq_true hdiv,
      decide_eq_true hin, decide_eq_true (mod_lt j (by decide)), Bool.and_true, Bool.true_and,
      Bool.true_and, Bool.and_true]
    congr 1
    omega
  · have hdiv : ¬ j / 8 < size := by omega
    rw [decide_eq_false hdiv, decide_eq_false hin, Bool.and_false, Bool.and_false, Bool.false_and]

end Spans

section Queue

variable {lsq : LoadStoreQueue} {place : Placement} {sequenceId size : ℕ} {addr paddr : BitVec 64}
  {info : LsqAddressInfo} {result : LsqForwardResult} {entries : List LsqEntry} {e : LsqEntry}

theorem untouched_of_unmatched (hplaced : Placed place e)
    (hcrossing : e.addressInfo.paddr = none → ¬ Touches place e paddr size)
    (hspan : contains paddr size) (hmatch : sameTranslatedSpan e paddr size = false) :
    ¬ Touches place e paddr size := by
  cases hstore : e.addressInfo.paddr with
  | none => exact hcrossing hstore
  | some storePaddr =>
    by_cases hram : e.addressInfo.isKnownRam
    · rw [touches_iff hplaced hstore hram hspan, hmatch]
      exact Bool.false_ne_true
    rintro ⟨k, hk, i, -, hplace⟩
    have hnone := hplaced.outside (by rw [hstore]; rfl) (Bool.eq_false_of_not_eq_true hram) k hk
    rw [hnone] at hplace
    cases hplace

theorem forwardFrom_value (ram : Ram)
    (hplaced : ∀ e ∈ entries, e.kind = .store → e.addressReady → Placed place e)
    (hcrossing : ∀ e ∈ entries, OlderStore sequenceId e → e.addressInfo.paddr = none →
      ¬ Touches place e paddr size)
    (hspan : contains paddr size) (h : forwardFrom sequenceId paddr size entries = some result) :
    result.value = load
      (entries.foldr (fun e ram => applyOlder place sequenceId ram e) ram) paddr size := by
  induction entries with
  | nil => cases h
  | cons e rest ih =>
    have hrest := ih (fun e' he' => hplaced e' (mem_cons_of_mem _ he'))
      (fun e' he' => hcrossing e' (mem_cons_of_mem _ he'))
    rw [foldr_cons, applyOlder]
    rw [forwardFrom] at h
    by_cases holder : OlderStore sequenceId e
    · have hskip : ¬ (e.kind ≠ .store ∨ sequenceId ≤ e.sequenceId) := by
        rw [not_or, not_not, Nat.not_le]
        exact holder
      rw [if_neg hskip] at h
      rw [if_pos holder]
      split at h
      · cases h
      rename_i hready
      have haddress : e.addressReady := by
        simp only [Bool.or_eq_true, Bool.not_eq_true', not_or, Bool.not_eq_false] at hready
        exact hready.1.1
      have hplacedE := hplaced e mem_cons_self holder.1 haddress
      cases hmatch : sameTranslatedSpan e paddr size with
      | false =>
        rw [if_pos (by rw [hmatch]; rfl)] at h
        rw [applyBytes_load (untouched_of_unmatched hplacedE
          (hcrossing e mem_cons_self holder) hspan hmatch)]
        exact hrest h
      | true =>
        rw [if_neg (by rw [hmatch]; exact Bool.false_ne_true)] at h
        have hram : e.addressInfo.isKnownRam := by
          rw [sameTranslatedSpan, Bool.and_eq_true] at hmatch
          exact hmatch.1
        obtain ⟨storePaddr, hstore⟩ : ∃ storePaddr, e.addressInfo.paddr = some storePaddr := by
          simp only [LsqAddressInfo.isKnownRam, Bool.and_eq_true] at hram
          exact isSome_iff_exists.1 hram.1.2
        split at h
        · cases h
        dsimp only at h
        rw [hstore, getD_some] at h
        split at h
        · rename_i hcovers
          cases h
          exact (applyBytes_covering hplacedE hstore hram hspan hcovers).symm
        · cases h
    · have hskip : e.kind ≠ .store ∨ sequenceId ≤ e.sequenceId := by
        by_cases hkind : e.kind = .store
        · exact .inr (Nat.le_of_not_lt fun hlt => holder ⟨hkind, hlt⟩)
        · exact .inl hkind
      rw [if_pos hskip] at h
      rw [if_neg holder]
      exact hrest h

theorem forwardableLoad_value (ram : Ram) (hpaddr : info.paddr = some paddr)
    (hplaced : ∀ e ∈ lsq.entries, e.kind = .store → e.addressReady → Placed place e)
    (hcrossing : ∀ e ∈ lsq.entries, OlderStore sequenceId e → e.addressInfo.paddr = none →
      ¬ Touches place e paddr size)
    (hspan : contains paddr size) (h : lsq.forwardableLoad sequenceId size info = some result) :
    result.value = (lsq.applyStores place sequenceId ram).load paddr size := by
  rw [forwardableLoad] at h
  split at h
  · cases h
  rw [hpaddr, getD_some] at h
  have hvalue := forwardFrom_value ram
    (fun e he => hplaced e (mem_reverse.1 he))
    (fun e he => hcrossing e (mem_reverse.1 he)) hspan h
  rw [foldr_reverse] at hvalue
  exact hvalue

/-- The overlap test of `classify_load`: by physical address where both are known. -/
def overlapsLoad (addr : BitVec 64) (size : ℕ) (info : LsqAddressInfo) (entry : LsqEntry) : Bool :=
  match info.paddr, entry.addressInfo.paddr with
  | some paddr, some _ => sameTranslatedSpan entry paddr size
  | _, _ => rangesOverlap entry.address entry.size addr size

theorem blockingStatus_cons (entry : LsqEntry) (rest : List LsqEntry) :
    blockingStatus sequenceId addr size info (entry :: rest) =
      if entry.kind ≠ .store ∨ sequenceId ≤ entry.sequenceId then
        blockingStatus sequenceId addr size info rest
      else if !entry.addressReady then ⟨.blockedByUnresolvedStore, sequenceId, entry.sequenceId⟩
      else if !entry.orderReady && overlapsLoad addr size info entry then
        ⟨.blockedByOverlappingStore, sequenceId, entry.sequenceId⟩
      else blockingStatus sequenceId addr size info rest := rfl

theorem blockingStatus_none
    (h : (blockingStatus sequenceId addr size info entries).state = .none) :
    ∀ e ∈ entries, OlderStore sequenceId e → e.addressReady ∧
      (e.orderReady ∨ (∀ p, info.paddr = some p → e.addressInfo.paddr.isSome →
        sameTranslatedSpan e p size = false)) := by
  induction entries with
  | nil => exact fun _ he => absurd he not_mem_nil
  | cons first rest ih =>
    rw [blockingStatus_cons] at h
    intro e he holder
    split at h
    · rename_i hskip
      rcases mem_cons.1 he with rfl | hrest
      · rcases hskip with hkind | hlater
        · exact absurd holder.1 hkind
        · exact absurd holder.2 (not_lt.2 hlater)
      · exact ih h e hrest holder
    split at h
    · cases h
    rename_i haddress
    split at h
    · cases h
    rename_i hpass
    rcases mem_cons.1 he with rfl | hrest
    · refine ⟨by simpa using haddress, ?_⟩
      by_cases horder : e.orderReady
      · exact .inl horder
      right
      intro p hp hsome
      obtain ⟨q, hq⟩ := isSome_iff_exists.1 hsome
      rw [overlapsLoad, hp, hq, Bool.eq_false_of_not_eq_true horder] at hpass
      simpa using hpass
    · exact ih h e hrest holder

theorem classifyLoad_ready (hpaddr : info.paddr = some paddr)
    (hplaced : ∀ e ∈ lsq.entries, e.kind = .store → e.addressReady → Placed place e)
    (hcrossing : ∀ e ∈ lsq.entries, OlderStore sequenceId e → e.addressInfo.paddr = none →
      ¬ Touches place e paddr size)
    (hspan : contains paddr size) (h : (lsq.classifyLoad sequenceId addr size info).state = .none) :
    ∀ e ∈ lsq.entries, OlderStore sequenceId e → e.addressReady ∧
      (Touches place e paddr size → e.orderReady) := by
  rw [classifyLoad] at h
  split at h
  · cases h
  intro e he holder
  obtain ⟨haddress, horder⟩ := blockingStatus_none h e he holder
  refine ⟨haddress, fun htouches => ?_⟩
  rcases horder with hready | hmatch
  · exact hready
  exfalso
  have hplacedE := hplaced e he holder.1 haddress
  cases hstore : e.addressInfo.paddr with
  | none => exact hcrossing e he holder hstore htouches
  | some storePaddr =>
    exact untouched_of_unmatched hplacedE (hcrossing e he holder) hspan
      (hmatch paddr hpaddr (by rw [hstore]; rfl)) htouches

theorem forwardFrom_some {later earlier : List LsqEntry}
    (hlater : ∀ e' ∈ later, OlderStore sequenceId e' → e'.addressReady ∧ e'.dataReady ∧
      e'.orderReady ∧ sameTranslatedSpan e' paddr size = false)
    (holder : OlderStore sequenceId e) (hready : e.addressReady ∧ e.dataReady ∧ e.orderReady)
    (hmatch : sameTranslatedSpan e paddr size) (hmmio : e.mmio = false)
    (hcovers : e.addressInfo.paddr.getD 0 ≤ paddr ∧ paddr + BitVec.ofNat 64 size ≤
      e.addressInfo.paddr.getD 0 + BitVec.ofNat 64 e.size) :
    forwardFrom sequenceId paddr size (later ++ e :: earlier) ≠ none := by
  induction later with
  | nil =>
    have hskip : ¬ (e.kind ≠ .store ∨ sequenceId ≤ e.sequenceId) := by
      rw [not_or, not_not, Nat.not_le]
      exact holder
    have hram : e.addressInfo.isKnownRam := by
      rw [sameTranslatedSpan, Bool.and_eq_true] at hmatch
      exact hmatch.1
    rw [nil_append, forwardFrom, if_neg hskip, hready.1, hready.2.1, hready.2.2, hmatch, hmmio,
      hram]
    rw [if_pos hcovers]
    simp
  | cons first rest ih =>
    have hrest := ih fun e' he' => hlater e' (mem_cons_of_mem _ he')
    rw [cons_append, forwardFrom]
    by_cases hfirst : OlderStore sequenceId first
    · obtain ⟨haddress, hdata, horder, hfar⟩ := hlater first mem_cons_self hfirst
      have hskip : ¬ (first.kind ≠ .store ∨ sequenceId ≤ first.sequenceId) := by
        rw [not_or, not_not, Nat.not_le]
        exact hfirst
      rw [if_neg hskip, haddress, hdata, horder, hfar]
      exact hrest
    · have hskip : first.kind ≠ .store ∨ sequenceId ≤ first.sequenceId := by
        by_cases hkind : first.kind = .store
        · exact .inr (Nat.le_of_not_lt fun hlt => hfirst ⟨hkind, hlt⟩)
        · exact .inl hkind
      rw [if_pos hskip]
      exact hrest

theorem unforwarded_released (hpaddr : info.paddr = some paddr) (hram : info.isKnownRam)
    (hplaced : ∀ e ∈ lsq.entries, e.kind = .store → e.addressReady → Placed place e)
    (hcrossing : ∀ e ∈ lsq.entries, OlderStore sequenceId e → e.addressInfo.paddr = none →
      ¬ Touches place e paddr size)
    (hspan : contains paddr size)
    (hblock : (lsq.classifyLoad sequenceId addr size info).state = .none)
    (hnone : lsq.forwardableLoad sequenceId size info = none) :
    Released lsq place sequenceId paddr size := by
  have hready := classifyLoad_ready hpaddr hplaced hcrossing hspan hblock
  refine ⟨fun e he holder => (hready e he holder).2, ?_⟩
  intro front e later hentries holder htouches hlater
  by_contra hsound
  rw [not_or, not_or, not_not, Bool.not_eq_true] at hsound
  obtain ⟨hcovers, hmmio, hunready⟩ := hsound
  have hall : ∀ e' ∈ e :: later, OlderStore sequenceId e' → e'.dataReady ∧ e'.orderReady := by
    intro e' he' holder'
    by_contra hmissing
    exact hunready ⟨e', he', holder', hmissing⟩
  have hmem : ∀ e' ∈ e :: later, e' ∈ lsq.entries := by
    intro e' he'
    rw [hentries]
    exact mem_append_right _ he'
  have he := hmem e mem_cons_self
  have haddress := (hready e he holder).1
  have hplacedE := hplaced e he holder.1 haddress
  obtain ⟨storePaddr, hstore⟩ : ∃ storePaddr, e.addressInfo.paddr = some storePaddr := by
    cases hstore : e.addressInfo.paddr with
    | none => exact absurd htouches (hcrossing e he holder hstore)
    | some storePaddr => exact ⟨storePaddr, rfl⟩
  have hmatch : sameTranslatedSpan e paddr size := by
    by_contra hmatch
    exact untouched_of_unmatched hplacedE (hcrossing e he holder) hspan
      (Bool.eq_false_of_not_eq_true hmatch) htouches
  have hstoreRam : e.addressInfo.isKnownRam := by
    rw [sameTranslatedSpan, Bool.and_eq_true] at hmatch
    exact hmatch.1
  rw [covers_iff hplacedE hstore hstoreRam hspan] at hcovers
  rw [forwardableLoad, hram, hpaddr, getD_some, hentries, reverse_append,
    reverse_cons, append_assoc, singleton_append] at hnone
  refine forwardFrom_some ?_ holder ⟨haddress, hall e mem_cons_self holder⟩ hmatch hmmio
    (by rw [hstore, getD_some]; exact hcovers) hnone
  intro e' he' holder'
  have hin := mem_cons_of_mem e (mem_reverse.1 he')
  obtain ⟨haddress', -⟩ := hready e' (hmem e' hin) holder'
  obtain ⟨hdata', horder'⟩ := hall e' hin holder'
  refine ⟨haddress', hdata', horder', ?_⟩
  have hplaced' := hplaced e' (hmem e' hin) holder'.1 haddress'
  have hfar := hlater e' (mem_reverse.1 he') holder'
  by_contra hmatch'
  rw [Bool.not_eq_false] at hmatch'
  have hram' : e'.addressInfo.isKnownRam := by
    rw [sameTranslatedSpan, Bool.and_eq_true] at hmatch'
    exact hmatch'.1
  obtain ⟨p', hp'⟩ : ∃ p', e'.addressInfo.paddr = some p' := by
    simp only [LsqAddressInfo.isKnownRam, Bool.and_eq_true] at hram'
    exact isSome_iff_exists.1 hram'.1.2
  exact hfar ((touches_iff hplaced' hp' hram' hspan).2 hmatch')

end Queue

/-- Forwarding and blocking are sound where every older store that touches the span of the load
has a single physical address. -/
theorem forwarding_sound (lsq : LoadStoreQueue) (place : Placement) (sequenceId size : ℕ)
    (addr paddr : BitVec 64) (info : LsqAddressInfo) (ram : Ram)
    (hpaddr : info.paddr = some paddr) (hram : info.isKnownRam) (hspan : contains paddr size)
    (hplaced : ∀ e ∈ lsq.entries, e.kind = .store → e.addressReady → Placed place e)
    (hcrossing : ∀ e ∈ lsq.entries, OlderStore sequenceId e → e.addressInfo.paddr = none →
      ¬ Touches place e paddr size) :
    (∀ result, lsq.forwardableLoad sequenceId size info = some result →
      result.value = (lsq.applyStores place sequenceId ram).load paddr size) ∧
    ((lsq.classifyLoad sequenceId addr size info).state = .none →
      lsq.forwardableLoad sequenceId size info = none → Released lsq place sequenceId paddr size) :=
  ⟨fun _ => forwardableLoad_value ram hpaddr hplaced hcrossing hspan,
    unforwarded_released hpaddr hram hplaced hcrossing hspan⟩

section Runs

def ramInfo (paddr : BitVec 64) : LsqAddressInfo := { paddr := some paddr, region := some .ram }

def crossingInfo : LsqAddressInfo := { crossesPage := true }

def readyStore (lsq : LoadStoreQueue) (sequenceId size : ℕ) (addr : BitVec 64)
    (info : LsqAddressInfo) (data : BitVec 64) : LoadStoreQueue :=
  let (index, lsq) := lsq.enqueueStore sequenceId size false
  ((lsq.markAddressReady index addr info).markDataReady index data).markOrderReady index

def crossingQueue : LoadStoreQueue :=
  readyStore (readyStore empty 1 8 0x1ff8 (ramInfo 0x80000ff8) 0x1111111111111111)
    2 4 0x1ffe crossingInfo 0x22222222

/-- The second page of the crossing store lies elsewhere. -/
def crossingPlace : Placement := fun e k =>
  if e.size = 8 then some (0x80000ff8 + BitVec.ofNat 64 k)
  else some (if k < 2 then 0x80000ffe + BitVec.ofNat 64 k else 0x80005000 + BitVec.ofNat 64 (k - 2))

def byteQueue : LoadStoreQueue := readyStore empty 1 1 0x1000 (ramInfo 0x80001000) 0x55

def bytePlace : Placement := fun _ k => some (0x80001000 + BitVec.ofNat 64 k)

/-- The doubleword is forwarded although the crossing store changed its upper bytes, and a word
load over the byte store is neither blocked nor given a value. -/
theorem forwarding_crossing_partial :
    (crossingQueue.forwardableLoad 3 8 (ramInfo 0x80000ff8) = some ⟨0x1111111111111111, 1⟩ ∧
      (crossingQueue.applyStores crossingPlace 3 (fun _ => 0)).load 0x80000ff8 8 =
        0x2222111111111111) ∧
    (byteQueue.classifyLoad 2 0x1000 4 (ramInfo 0x80001000)).state = .none ∧
      byteQueue.forwardableLoad 2 4 (ramInfo 0x80001000) = none ∧
        ∃ e ∈ byteQueue.entries, OlderStore 2 e ∧ Touches bytePlace e 0x80001000 4 := by
  refine ⟨⟨by decide, by decide⟩, by decide, by decide,
    byteQueue.entries.head (by decide), by decide, by decide, 0,
    by decide, 0, by decide, by decide⟩

theorem byteQueue_sound :
    (∀ result, byteQueue.forwardableLoad 2 1 (ramInfo 0x80001000) = some result →
      result.value = (byteQueue.applyStores bytePlace 2 (fun _ => 0)).load 0x80001000 1) ∧
    ((byteQueue.classifyLoad 2 0x1000 1 (ramInfo 0x80001000)).state = .none →
      byteQueue.forwardableLoad 2 1 (ramInfo 0x80001000) = none →
        Released byteQueue bytePlace 2 0x80001000 1) := by
  have honly : ∀ e ∈ byteQueue.entries, e.addressInfo = ramInfo 0x80001000 ∧ e.size = 1 := by
    decide
  apply forwarding_sound byteQueue bytePlace 2 1 0x1000 0x80001000 (ramInfo 0x80001000) _ rfl rfl
    (by decide)
  · intro e he _ _
    obtain ⟨hinfo, hsize⟩ := honly e he
    constructor
    · intro paddr hpaddr _
      rw [hinfo] at hpaddr
      obtain rfl := some.inj hpaddr
      exact ⟨by rw [hsize]; decide, fun _ _ => rfl⟩
    · intro _ hram
      rw [hinfo] at hram
      cases hram
  · intro e he _ hnone
    rw [(honly e he).1] at hnone
    cases hnone

end Runs

end LoadStoreQueue

end VisualCpu
