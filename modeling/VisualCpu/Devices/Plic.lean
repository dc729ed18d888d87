import Mathlib.Data.Fintype.Basic
import VisualCpu.Library.IndexTypes

/-!
# The interrupt controller

`Plic`: the level, pending and claimed state of ten sources and two contexts that
claim and complete them through memory-mapped registers. In every state that device
lines and register accesses reach, a source with its line raised is pending or claimed,
and a claim returns the best source of its context.
-/

namespace VisualCpu

open List Function

def plicBase : BitVec 64 := 0x0C000000
def plicNumSources : ℕ := 10
def plicPendingOffset : BitVec 32 := 0x1000

/-- The index of an array with a place for every source; place zero is not used. -/
abbrev PlicSource := Fin 11

inductive PlicContext where
  | machine | supervisor
deriving DecidableEq

open PlicContext

namespace PlicContext

/-- `PLIC_ENABLE_OFFSET`. -/
def enableOffset : PlicContext → BitVec 32
  | .machine => 0x2000
  | .supervisor => 0x2080

/-- `PLIC_CONTEXT_OFFSET`, the offset of the threshold. -/
def contextOffset : PlicContext → BitVec 32
  | .machine => 0x200000
  | .supervisor => 0x201000

/-- `PLIC_CLAIM_OFFSET`. -/
def claimOffset (context : PlicContext) : BitVec 32 := context.contextOffset + 4

end PlicContext

structure Plic where
  priorities : PlicSource → BitVec 32
  levels : PlicSource → Bool
  pending : PlicSource → Bool
  claimedBy : PlicSource → Option PlicContext
  enables : PlicContext → BitVec 32
  threshold : PlicContext → BitVec 32

namespace Plic

def reset : Plic where
  priorities _ := 0
  levels _ := false
  pending _ := false
  claimedBy _ := none
  enables _ := 0
  threshold _ := 0

/-- The array index of a supported source number. -/
def source (id : BitVec 32) : Option PlicSource :=
  if 1 ≤ id.toNat ∧ id.toNat ≤ plicNumSources then some (Fin.ofNat 11 id.toNat) else none

/-- The sources from one to ten, in the order of the loops. -/
def sources : List PlicSource := (finRange 11).tail

variable (plic : Plic)

def pendingBits : BitVec 32 :=
  sources.foldl (fun bits s => if plic.pending s then bits ||| 1 <<< s.val else bits) 0

variable (context : PlicContext)

/-- The sources that `best_pending_source` does not skip. -/
def eligible (s : PlicSource) : Bool :=
  plic.pending s && (plic.claimedBy s).isNone && plic.enables context &&& 1 <<< s.val != 0 &&
    plic.priorities s != 0 && decide (plic.threshold context < plic.priorities s)

/-- One round of the loop of `best_pending_source`: the best source and its priority. -/
def considerSource (best : PlicSource × BitVec 32) (s : PlicSource) :
    PlicSource × BitVec 32 :=
  if plic.eligible context s && decide (best.2 < plic.priorities s) then (s, plic.priorities s)
  else best

def bestPendingSource : PlicSource :=
  (sources.foldl (plic.considerSource context) (0, 0)).1

def contextHasPending : Bool := plic.bestPendingSource context != 0

def claim : PlicSource × Plic :=
  let s := plic.bestPendingSource context
  if s = 0 then (0, plic)
  else
    (s, { plic with
      pending := update plic.pending s false
      claimedBy := update plic.claimedBy s (some context) })

def complete (id : BitVec 32) : Plic :=
  match source id with
  | none => plic
  | some s =>
    if plic.claimedBy s ≠ some context then plic
    else
      { plic with
        claimedBy := update plic.claimedBy s none
        pending := update plic.pending s (plic.levels s) }

def setSourceLevel (id : BitVec 32) (asserted : Bool) : Plic :=
  match source id with
  | none => plic
  | some s =>
    { plic with
      levels := update plic.levels s asserted
      pending :=
        if asserted && (plic.claimedBy s).isNone then update plic.pending s true
        else plic.pending }

def prioritySource (offset : BitVec 32) : Option PlicSource :=
  if offset % 4 = 0 then source (offset / 4) else none

/-- The offset of an address inside the device. -/
def offsetOf (addr : BitVec 64) : BitVec 32 := (addr - plicBase).setWidth 32

/-- `Plic::load`; an invalid access has no value. -/
def load (addr : BitVec 64) (size : ℕ) : Option (BitVec 32) × Plic :=
  let offset := offsetOf addr
  if size ≠ 4 then (none, plic)
  else
    match prioritySource offset with
    | some s => (some (plic.priorities s), plic)
    | none =>
      if offset = plicPendingOffset then (some plic.pendingBits, plic)
      else if offset = machine.enableOffset then (some (plic.enables .machine), plic)
      else if offset = supervisor.enableOffset then
        (some (plic.enables .supervisor), plic)
      else if offset = machine.contextOffset then (some (plic.threshold .machine), plic)
      else if offset = supervisor.contextOffset then
        (some (plic.threshold .supervisor), plic)
      else if offset = machine.claimOffset then
        (some (BitVec.ofNat 32 (plic.claim .machine).1.val), (plic.claim .machine).2)
      else if offset = supervisor.claimOffset then
        (some (BitVec.ofNat 32 (plic.claim .supervisor).1.val), (plic.claim .supervisor).2)
      else (none, plic)

/-- `Plic::store`: the state after the store, or nothing for an invalid access. -/
def store (addr value : BitVec 64) (size : ℕ) : Option Plic :=
  let offset := offsetOf addr
  let value32 := value.setWidth 32
  if size ≠ 4 then none
  else
    match prioritySource offset with
    | some s => some { plic with priorities := update plic.priorities s (value32 &&& 7) }
    | none =>
      if offset = plicPendingOffset then none
      else if offset = machine.enableOffset then
        some { plic with enables := update plic.enables .machine value32 }
      else if offset = supervisor.enableOffset then
        some { plic with enables := update plic.enables .supervisor value32 }
      else if offset = machine.contextOffset then
        some { plic with threshold := update plic.threshold .machine (value32 &&& 7) }
      else if offset = supervisor.contextOffset then
        some { plic with threshold := update plic.threshold .supervisor (value32 &&& 7) }
      else if offset = machine.claimOffset then some (plic.complete .machine value32)
      else if offset = supervisor.claimOffset then
        some (plic.complete .supervisor value32)
      else none

end Plic

/-- What happens to the controller: a device drives its line, or a context accesses a
register. -/
inductive PlicOp where
  | setSourceLevel (id : BitVec 32) (asserted : Bool)
  | load (addr : BitVec 64) (size : ℕ)
  | store (addr value : BitVec 64) (size : ℕ)
deriving DecidableEq

/-- The state after an operation; an invalid access changes nothing. -/
def PlicOp.run (plic : Plic) : PlicOp → Plic
  | .setSourceLevel id asserted => plic.setSourceLevel id asserted
  | .load addr size => (plic.load addr size).2
  | .store addr value size => (plic.store addr value size).getD plic

namespace Plic

variable {plic : Plic}

/-- The state of the loop after the sources of a list: nothing found yet, or a source of
highest priority, with the lowest number among these. -/
structure BestOf (plic : Plic) (context : PlicContext) (seen : List PlicSource)
    (best : PlicSource × BitVec 32) : Prop where
  nothing : best.1 = 0 → best.2 = 0 ∧ ∀ s ∈ seen, plic.eligible context s = false
  found : best.1 ≠ 0 → best.1 ∈ seen ∧ plic.eligible context best.1 ∧
    best.2 = plic.priorities best.1 ∧ ∀ s ∈ seen, plic.eligible context s →
      plic.priorities s < best.2 ∨ plic.priorities s = best.2 ∧ best.1 ≤ s

theorem pos_of_ne_zero {x : BitVec 32} (h : x ≠ 0) : 0 < x := by
  rw [BitVec.lt_def]
  exact Nat.pos_of_ne_zero fun hzero => h (BitVec.eq_of_toNat_eq hzero)

variable {context : PlicContext} {s : PlicSource} {best : PlicSource × BitVec 32} {id : BitVec 32}

theorem priority_pos (h : plic.eligible context s) : 0 < plic.priorities s := by
  simp only [eligible, Bool.and_eq_true, bne_iff_ne, decide_eq_true_eq] at h
  exact pos_of_ne_zero h.1.2

theorem considerSource_eq (context : PlicContext) (best : PlicSource × BitVec 32) (s : PlicSource) :
    plic.considerSource context best s =
      if plic.eligible context s = true ∧ best.2 < plic.priorities s then (s, plic.priorities s)
      else best := by
  simp [considerSource]

theorem BestOf.consider {seen : List PlicSource} (h : BestOf plic context seen best)
    (hs : s ≠ 0) (hlater : ∀ t ∈ seen, t < s) :
    BestOf plic context (seen ++ [s]) (plic.considerSource context best s) := by
  rw [considerSource_eq]
  split_ifs with hbetter
  · obtain ⟨heligible, hlt⟩ := hbetter
    refine ⟨fun hzero => absurd hzero hs, fun _ => ⟨by simp, heligible, rfl, ?_⟩⟩
    intro t ht htop
    rcases mem_append.1 ht with ht | ht
    · -- an earlier source is no better than the former best one
      left
      by_cases hbest : best.1 = 0
      · exact absurd htop (by simp [(h.nothing hbest).2 t ht])
      rcases (h.found hbest).2.2.2 t ht htop with hlower | ⟨hequal, -⟩
      · rw [BitVec.lt_def] at hlower hlt ⊢
        exact hlower.trans hlt
      · rwa [hequal]
    · rw [mem_singleton.1 ht]
      exact .inr ⟨rfl, le_rfl⟩
  · have hnot : plic.eligible context s → plic.priorities s ≤ best.2 := by
      intro heligible
      by_contra hlt
      exact hbetter ⟨heligible, BitVec.not_le.1 hlt⟩
    constructor
    · intro hzero
      obtain ⟨hnone, hall⟩ := h.nothing hzero
      refine ⟨hnone, fun t ht => ?_⟩
      rcases mem_append.1 ht with ht | ht
      · exact hall t ht
      rw [mem_singleton.1 ht]
      cases heligible : plic.eligible context s with
      | false => rfl
      | true =>
        have hle := hnot heligible
        rw [hnone] at hle
        exact absurd (priority_pos heligible) (BitVec.not_lt.2 hle)
    · intro hbest
      obtain ⟨hmem, heligible, hpriority, hall⟩ := h.found hbest
      refine ⟨mem_append_left _ hmem, heligible, hpriority, fun t ht htop => ?_⟩
      rcases mem_append.1 ht with ht | ht
      · exact hall t ht htop
      rw [mem_singleton.1 ht] at htop ⊢
      rcases Nat.lt_or_eq_of_le (hnot htop) with hlower | hequal
      · exact .inl hlower
      · exact .inr ⟨BitVec.eq_of_toNat_eq hequal, (hlater _ hmem).le⟩

theorem BestOf.foldl {seen rest : List PlicSource} (h : BestOf plic context seen best)
    (hsorted : (seen ++ rest).Pairwise (· < ·)) (hzero : ∀ s ∈ rest, s ≠ 0) :
    BestOf plic context (seen ++ rest) (rest.foldl (plic.considerSource context) best) := by
  induction rest generalizing seen best with
  | nil => simpa using h
  | cons s rest ih =>
    have hlater : ∀ t ∈ seen, t < s := fun t ht =>
      (pairwise_append.1 hsorted).2.2 t ht s mem_cons_self
    have hnext := h.consider (hzero s mem_cons_self) hlater
    have hrest := ih hnext (by simpa using hsorted)
      fun t ht => hzero t (mem_cons_of_mem _ ht)
    simpa using hrest

theorem mem_sources : s ∈ sources ↔ s ≠ 0 := by
  revert s
  decide

theorem bestPendingSource_best (plic : Plic) (context : PlicContext) :
    BestOf plic context sources (sources.foldl (plic.considerSource context) (0, 0)) := by
  have hstart : BestOf plic context [] (0, 0) :=
    ⟨fun _ => ⟨rfl, by simp⟩, fun h => absurd rfl h⟩
  exact hstart.foldl (by decide) (by decide)

theorem bestPendingSource_eq_zero (context : PlicContext) :
    plic.bestPendingSource context = 0 ↔ ∀ s ≠ 0, plic.eligible context s = false := by
  have hbest := bestPendingSource_best plic context
  constructor
  · intro hzero s hs
    exact (hbest.nothing hzero).2 s (mem_sources.2 hs)
  intro hnone
  by_contra hfound
  have heligible : plic.eligible context (plic.bestPendingSource context) :=
    (hbest.found hfound).2.1
  rw [hnone _ hfound] at heligible
  cases heligible

theorem bestPendingSource_spec (h : plic.bestPendingSource context ≠ 0) :
    plic.eligible context (plic.bestPendingSource context) ∧
      ∀ s ≠ 0, plic.eligible context s →
        plic.priorities s < plic.priorities (plic.bestPendingSource context) ∨
          plic.priorities s = plic.priorities (plic.bestPendingSource context) ∧
            plic.bestPendingSource context ≤ s := by
  obtain ⟨-, heligible, hpriority, hall⟩ := (bestPendingSource_best plic context).found h
  refine ⟨heligible, fun s hs htop => ?_⟩
  have hcompare := hall s (mem_sources.2 hs) htop
  rw [hpriority] at hcompare
  exact hcompare

/-- A source with its line raised is pending or claimed. -/
def NoneLost (plic : Plic) : Prop :=
  ∀ s, plic.levels s → plic.claimedBy s = none → plic.pending s

section

variable (h : NoneLost plic)

include h

theorem NoneLost.claim (context : PlicContext) : NoneLost (plic.claim context).2 := by
  unfold Plic.claim
  dsimp only
  split_ifs
  · exact h
  intro s hlevel hclaimed
  by_cases hs : s = plic.bestPendingSource context
  · simp [hs] at hclaimed
  simp only [update_of_ne hs] at hclaimed ⊢
  exact h s hlevel hclaimed

theorem NoneLost.complete (context : PlicContext) (id : BitVec 32) :
    NoneLost (plic.complete context id) := by
  unfold Plic.complete
  cases source id with
  | none => exact h
  | some s =>
    dsimp only
    split_ifs
    · exact h
    intro t hlevel hclaimed
    by_cases ht : t = s
    · subst ht
      simpa using hlevel
    simp only [update_of_ne ht] at hclaimed ⊢
    exact h t hlevel hclaimed

theorem NoneLost.setSourceLevel (id : BitVec 32) (asserted : Bool) :
    NoneLost (plic.setSourceLevel id asserted) := by
  unfold Plic.setSourceLevel
  cases source id with
  | none => exact h
  | some s =>
    intro t hlevel hclaimed
    dsimp only at hlevel hclaimed ⊢
    by_cases ht : t = s
    · subst ht
      rw [update_self] at hlevel
      simp [hlevel, hclaimed]
    rw [update_of_ne ht] at hlevel
    split_ifs
    · rw [update_of_ne ht]
      exact h t hlevel hclaimed
    · exact h t hlevel hclaimed

theorem NoneLost.load (addr : BitVec 64) (size : ℕ) : NoneLost (plic.load addr size).2 := by
  unfold Plic.load
  by_cases hsize : size ≠ 4
  · rw [if_pos hsize]
    exact h
  rw [if_neg hsize]
  cases prioritySource (offsetOf addr) with
  | some s => exact h
  | none =>
    split_ifs
    all_goals first | exact h | exact h.claim _

theorem NoneLost.store {addr value : BitVec 64} {size : ℕ} {after : Plic}
    (hstore : plic.store addr value size = some after) : NoneLost after := by
  unfold Plic.store at hstore
  by_cases hsize : size ≠ 4
  · rw [if_pos hsize] at hstore
    cases hstore
  rw [if_neg hsize] at hstore
  cases hsource : prioritySource (offsetOf addr) with
  | some s =>
    simp only [hsource] at hstore
    cases hstore
    exact h
  | none =>
    simp only [hsource] at hstore
    split_ifs at hstore
    all_goals cases hstore
    all_goals first | exact h | exact h.complete _ _

theorem NoneLost.run (op : PlicOp) : NoneLost (op.run plic) := by
  cases op with
  | setSourceLevel id asserted => exact h.setSourceLevel id asserted
  | load addr size => exact h.load addr size
  | store addr value size =>
    rw [PlicOp.run]
    cases hstore : plic.store addr value size with
    | none => exact h
    | some after => exact h.store hstore

end

theorem noneLost_runAll (ops : List PlicOp) : NoneLost (ops.foldl PlicOp.run reset) := by
  have hstart : NoneLost reset := fun s hlevel => by cases hlevel
  induction ops using reverseRecOn with
  | nil => exact hstart
  | append_singleton ops op ih =>
    rw [foldl_append]
    exact ih.run op

theorem levels_run {op : PlicOp} (h : ∀ id asserted, op ≠ .setSourceLevel id asserted) :
    (op.run plic).levels = plic.levels := by
  have hclaim : ∀ context, (plic.claim context).2.levels = plic.levels := by
    intro context
    unfold Plic.claim
    dsimp only
    split_ifs <;> rfl
  have hcomplete : ∀ context id, (plic.complete context id).levels = plic.levels := by
    intro context id
    unfold Plic.complete
    cases source id with
    | none => rfl
    | some s =>
      dsimp only
      split_ifs <;> rfl
  cases op with
  | setSourceLevel id asserted => exact absurd rfl (h id asserted)
  | load addr size =>
    unfold PlicOp.run Plic.load
    dsimp only
    by_cases hsize : size ≠ 4
    · rw [if_pos hsize]
    rw [if_neg hsize]
    cases prioritySource (offsetOf addr) with
    | some s => rfl
    | none =>
      split_ifs <;> first | rfl | exact hclaim _
  | store addr value size =>
    unfold PlicOp.run Plic.store
    dsimp only
    by_cases hsize : size ≠ 4
    · rw [if_pos hsize]
      rfl
    rw [if_neg hsize]
    cases prioritySource (offsetOf addr) with
    | some s => rfl
    | none =>
      split_ifs <;> first | rfl | exact hcomplete _ _

def claimAddr (context : PlicContext) : BitVec 64 := plicBase + context.claimOffset.setWidth 64

theorem load_claimAddr (plic : Plic) (context : PlicContext) : plic.load (claimAddr context) 4 =
      (some (BitVec.ofNat 32 (plic.claim context).1.val), (plic.claim context).2) := by
  cases context <;> rfl

theorem store_claimAddr (plic : Plic) (context : PlicContext) (value : BitVec 64) :
    plic.store (claimAddr context) value 4 = some (plic.complete context (value.setWidth 32)) := by
  cases context <;> rfl

/-- What a claim by a context returns, and what it does. -/
structure ClaimsBest (plic : Plic) (context : PlicContext) : Prop where
  zero : (plic.load (claimAddr context) 4).1 = some 0 ↔ ∀ s ≠ 0, plic.eligible context s = false
  best : ∀ s ≠ 0, (plic.load (claimAddr context) 4).1 = some (BitVec.ofNat 32 s.val) →
    plic.eligible context s ∧
      (∀ t ≠ 0, plic.eligible context t → plic.priorities t < plic.priorities s ∨
        plic.priorities t = plic.priorities s ∧ s ≤ t) ∧
      plic.claimedBy s = none ∧
      (plic.load (claimAddr context) 4).2.claimedBy s = some context ∧
      ∀ t ≠ s, (plic.load (claimAddr context) 4).2.claimedBy t = plic.claimedBy t

theorem sourceValue_injective : Function.Injective fun s : PlicSource => BitVec.ofNat 32 s.val := by
  intro s t h
  revert s t
  decide

theorem claimsBest (plic : Plic) (context : PlicContext) : plic.ClaimsBest context where
  zero := by
    rw [load_claimAddr, ← bestPendingSource_eq_zero, Plic.claim]
    split_ifs with hzero
    · simp [hzero]
    have hne : (BitVec.ofNat 32 (plic.bestPendingSource context).val) ≠ 0 := fun h =>
      hzero (sourceValue_injective h)
    simp only [hzero, iff_false]
    exact fun h => hne (Option.some.inj h)
  best := by
    intro s hs hclaim
    rw [load_claimAddr] at hclaim ⊢
    have hsource : (plic.claim context).1 = s := sourceValue_injective (Option.some.inj hclaim)
    have hbest : plic.bestPendingSource context = s := by
      rw [Plic.claim] at hsource
      split_ifs at hsource with hzero
      · exact absurd hsource.symm hs
      · exact hsource
    have hne : plic.bestPendingSource context ≠ 0 := by rwa [hbest]
    obtain ⟨heligible, hall⟩ := bestPendingSource_spec hne
    rw [hbest] at heligible hall
    have hunclaimed : plic.claimedBy s = none := by
      simp only [eligible, Bool.and_eq_true, Option.isNone_iff_eq_none] at heligible
      exact heligible.1.1.1.2
    refine ⟨heligible, hall, hunclaimed, ?_, ?_⟩
    · simp [Plic.claim, hbest, hs]
    intro t ht
    simp [Plic.claim, hbest, hs, ht]

theorem complete_of_not_held
    (h : ∀ s, source id = some s → plic.claimedBy s ≠ some context) :
    plic.complete context id = plic := by
  unfold Plic.complete
  cases hsource : source id with
  | none => rfl
  | some s => exact if_pos (h s hsource)

theorem complete_of_held
    (hsource : source id = some s) (hheld : plic.claimedBy s = some context) :
    (plic.complete context id).claimedBy s = none ∧
      (plic.complete context id).pending s = plic.levels s := by
  simp [Plic.complete, hsource, hheld]

/-- The rules of the gateways and contexts in one state. -/
structure Gateway (plic : Plic) : Prop where
  exclusive : ∀ s context context', plic.claimedBy s = some context →
    plic.claimedBy s = some context' → context = context'
  noneLost : ∀ s, plic.levels s → plic.claimedBy s = none → plic.pending s
  claims : ∀ context, plic.ClaimsBest context
  ignores : ∀ context (value : BitVec 64),
    (∀ s, source (value.setWidth 32) = some s → plic.claimedBy s ≠ some context) →
      plic.store (claimAddr context) value 4 = some plic
  repends : ∀ context (value : BitVec 64) s, source (value.setWidth 32) = some s →
    plic.claimedBy s = some context → plic.levels s →
      ∃ after, plic.store (claimAddr context) value 4 = some after ∧
        after.claimedBy s = none ∧ after.pending s

end Plic

end VisualCpu
