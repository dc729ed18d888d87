import VisualCpu.Mem.Bus
import VisualCpu.Library.Lru

/-!
# The shadow cache

`ExecutionProfile` counts for each region what a cache of 64 lines would do, with the lines in the
order of their last use and a map from each line to its place there. Of `record_memory` only the
shadow cache is kept.
-/

namespace VisualCpu

open List

structure MemoryRegion (Label : Type) where
  kind : PhysicalRegionKind
  (cacheable dmaVisible hasSideEffect supportsBurst : Bool)
  label : Label
deriving DecidableEq

abbrev MemoryKey := MemoryRegion String

structure MemoryObservation where
  region : MemoryRegion (Option String)
  (valid fault paddrValid : Bool)
  (paddr bytes : BitVec 64)

inductive ShadowCounter where
  | lineAccesses | hits | misses | evictions | bypasses
deriving DecidableEq

abbrev ShadowCacheStats := ShadowCounter → ℕ

abbrev ShadowRegions := List (MemoryKey × ShadowCacheStats)

/-- The lines that were touched, with the regions that touched them. -/
abbrev Touches := List (MemoryKey × BitVec 64)

structure ShadowCacheLine where
  line : BitVec 64
  key : MemoryKey
  lruPosition : ℕ

/-- A node of the list has a number, which is what an iterator points to. -/
structure ShadowCache where
  regions : ShadowRegions := []
  lru : List (ℕ × BitVec 64) := []
  lines : List ShadowCacheLine := []
  summary : ShadowCacheStats := fun _ => 0
  nextNode : ℕ := 0

namespace MemoryObservation

variable (o : MemoryObservation)

def key : MemoryKey :=
  { o.region with label := o.region.label.getD "unmapped" }

/-- The loop of `record_shadow_cache`, with the wrap of its last line. -/
def touchedLines : List (BitVec 64) :=
  let startLine := o.paddr.toNat / 64
  let endLine := (o.paddr + o.bytes - 1).toNat / 64
  (range' startLine (endLine + 1 - startLine)).map fun line => BitVec.ofNat 64 (line * 64)

end MemoryObservation

def ShadowCounter.bump (c : ShadowCounter) (stats : ShadowCacheStats) : ShadowCacheStats :=
  Function.update stats c (stats c + 1)

/-- The entry of a key is made when it is first counted: one that is missing reads as zeros. -/
def countRegion (c : ShadowCounter) (key : MemoryKey) : ShadowRegions → ShadowRegions
  | [] => [(key, c.bump fun _ => 0)]
  | (other, stats) :: rest =>
    if other = key then (other, c.bump stats) :: rest
    else (other, stats) :: countRegion c key rest

namespace ShadowCache

variable (cache : ShadowCache)

/-- Counts for the region and in the summary. -/
def count (c : ShadowCounter) (key : MemoryKey) : ShadowCache :=
  { cache with regions := countRegion c key cache.regions, summary := c.bump cache.summary }

def evictLru : ShadowCache :=
  match cache.lru.getLast? with
  | none => cache
  | some node =>
    match cache.lines.find? (·.line == node.2) with
    | none => { cache with lru := cache.lru.dropLast }
    | some entry =>
      { cache.count .evictions entry.key with
        lines := cache.lines.eraseP (·.line == node.2)
        lru := cache.lru.dropLast }

/-- `splice` to the front. -/
def spliceFront (position : ℕ) : List (ℕ × BitVec 64) :=
  match cache.lru.find? (·.1 == position) with
  | none => cache.lru
  | some node => node :: cache.lru.eraseP (·.1 == position)

def touchLine (key : MemoryKey) (line : BitVec 64) : ShadowCache :=
  match cache.lines.find? (·.line == line) with
  | some entry =>
    let lru := cache.spliceFront entry.lruPosition
    { cache.count .hits key with
      lru := lru
      lines := cache.lines.map fun other =>
        if other.line = line then
          { other with lruPosition := (lru.head?.map Prod.fst).getD other.lruPosition }
        else other }
  | none =>
    let missed := cache.count .misses key
    let room := if 64 ≤ missed.lines.length then missed.evictLru else missed
    { room with
      lru := (room.nextNode, line) :: room.lru
      lines := ⟨line, key, room.nextNode⟩ :: room.lines
      nextNode := room.nextNode + 1 }

/-- A turn of the loop. -/
def access (key : MemoryKey) (line : BitVec 64) : ShadowCache :=
  (cache.touchLine key line).count .lineAccesses key

def recordShadowCache (o : MemoryObservation) : ShadowCache :=
  if !o.paddrValid || o.fault || !o.region.cacheable then cache.count .bypasses o.key
  else o.touchedLines.foldl (fun cache line => cache.access o.key line) cache

def recordMemory (o : MemoryObservation) : ShadowCache :=
  if !o.valid || o.bytes == 0 then cache else cache.recordShadowCache o

def run (observations : List MemoryObservation) : ShadowCache :=
  observations.foldl recordMemory {}

end ShadowCache

/-- The lines that an observation touches, with its region. -/
def MemoryObservation.touches (o : MemoryObservation) : Touches :=
  if !o.valid || o.bytes == 0 || (!o.paddrValid || o.fault || !o.region.cacheable) then []
  else o.touchedLines.map fun line => (o.key, line)

/-- The most recently touched distinct lines that fit, for touches newest first. -/
def recentLines (touched : Touches) : List (BitVec 64) :=
  (Lru.recent (touched.map Prod.snd)).take 64

/-- Everything, or the part of one region. -/
def InScope (scope : Option MemoryKey) (key : MemoryKey) : Bool := scope.all (· = key)

/-- How often one of the most recent lines was touched. -/
def lruHits (scope : Option MemoryKey) : Touches → ℕ
  | [] => 0
  | touch :: touched =>
    lruHits scope touched + if InScope scope touch.1 ∧ touch.2 ∈ recentLines touched then 1 else 0

namespace ShadowCache

def regionStat (key : MemoryKey) (c : ShadowCounter) : ShadowRegions → ℕ
  | [] => 0
  | (other, stats) :: rest => if other = key then stats c else regionStat key c rest

variable (cache : ShadowCache)

/-- A counter of the summary or of a region. -/
def stat (scope : Option MemoryKey) (c : ShadowCounter) : ℕ :=
  scope.elim (cache.summary c) fun key => regionStat key c cache.regions

def total (c : ShadowCounter) : ℕ := (cache.regions.map (·.2 c)).sum

/-- The resident lines, by the region that inserted them. -/
def resident (scope : Option MemoryKey) : ℕ := cache.lines.countP (InScope scope ·.key)

/-- List and map hold the same lines, each at its place. -/
structure Placed (lru : List (ℕ × BitVec 64)) (lines : List ShadowCacheLine) (nextNode : ℕ)
    (recent : List (BitVec 64)) : Prop where
  recency : lru.map Prod.snd = recent
  positions : (lru.map Prod.fst).Nodup
  fresh : ∀ node ∈ lru, node.1 < nextNode
  linked : (lines.map fun entry => (entry.lruPosition, entry.line)).Perm lru

/-- The counters after some touches, newest first. -/
structure Balanced (cache : ShadowCache) (touched : Touches) : Prop where
  lineAccesses : ∀ scope, cache.stat scope .lineAccesses = touched.countP (InScope scope ·.1)
  hits : ∀ scope, cache.stat scope .hits = lruHits scope touched
  lookups : ∀ scope, cache.stat scope .hits + cache.stat scope .misses =
    cache.stat scope .lineAccesses
  kept : ∀ scope, cache.stat scope .evictions + cache.resident scope = cache.stat scope .misses
  totals : ∀ c, cache.summary c = cache.total c

structure Exact (cache : ShadowCache) (touched : Touches) : Prop where
  placed : Placed cache.lru cache.lines cache.nextNode (recentLines touched)
  balanced : Balanced cache touched

variable (c c' : ShadowCounter)

theorem bump_apply (stats : ShadowCacheStats) :
    c.bump stats c' = stats c' + if c' = c then 1 else 0 := by
  unfold ShadowCounter.bump
  by_cases hc : c' = c
  · simp [hc]
  · simp [hc]

theorem regionStat_count (key other : MemoryKey)
    (regions : ShadowRegions) : regionStat other c' (countRegion c key regions) =
      regionStat other c' regions + if other = key ∧ c' = c then 1 else 0 := by
  induction regions with
  | nil => grind [countRegion, regionStat, bump_apply]
  | cons entry rest ih => grind [countRegion, regionStat, bump_apply]

theorem sum_count (key : MemoryKey) (regions : ShadowRegions) :
    ((countRegion c key regions).map (·.2 c')).sum =
      (regions.map (·.2 c')).sum + if c' = c then 1 else 0 := by
  induction regions with
  | nil => grind [countRegion, bump_apply]
  | cons entry rest ih => grind [countRegion, bump_apply]

theorem stat_count (key : MemoryKey) (scope : Option MemoryKey) :
    (cache.count c key).stat scope c' =
      cache.stat scope c' + if InScope scope key ∧ c' = c then 1 else 0 := by
  cases scope with
  | none => simp [stat, count, InScope, bump_apply]
  | some other =>
    refine (regionStat_count c c' key other _).trans ?_
    grind [InScope, stat]

theorem totals_count (h : ∀ c, cache.summary c = cache.total c) (c : ShadowCounter)
    (key : MemoryKey) (c' : ShadowCounter) :
    (cache.count c key).summary c' = (cache.count c key).total c' := by
  have htotal : (cache.count c key).total c' = cache.total c' + if c' = c then 1 else 0 :=
    sum_count c c' key _
  rw [htotal, ← h c']
  exact bump_apply c c' cache.summary

variable {cache} {recent : List (BitVec 64)} {key : MemoryKey} {line : BitVec 64}
  {touched : Touches}

theorem recentLines_cons : recentLines ((key, line) :: touched) =
    line :: if line ∈ recentLines touched then (recentLines touched).erase line
      else if 64 ≤ (recentLines touched).length then (recentLines touched).dropLast
      else recentLines touched :=
  Lru.take_recent_cons 63 line _

theorem nodup_recentLines : (recentLines touched).Nodup :=
  (Lru.recent_nodup _).sublist (take_sublist _ _)

/-- A node is where its number is found. -/
theorem splice_node {before after : List (ℕ × BitVec 64)} {node : ℕ × BitVec 64}
    (h : ((before ++ node :: after).map Prod.fst).Nodup) :
    (before ++ node :: after).find? (·.1 == node.1) = some node ∧
      (before ++ node :: after).eraseP (·.1 == node.1) = before ++ after := by
  have hbefore : ∀ other ∈ before, ¬(other.1 == node.1) = true := by
    intro other hother heq
    rw [map_append, map_cons, nodup_append] at h
    exact h.2.2 _ (mem_map_of_mem hother) _ mem_cons_self (by simpa using heq)
  constructor
  · rw [find?_append, find?_eq_none.2 hbefore, find?_cons_of_pos (by simp)]
    rfl
  · rw [eraseP_append_right _ hbefore, eraseP_cons_of_pos (by simp)]

section

variable (h : Placed cache.lru cache.lines cache.nextNode recent) {entry : ShadowCacheLine}

include h

theorem Placed.entry_unique
    (hrecent : recent.Nodup) (hentry : entry ∈ cache.lines)
    {node : ℕ × BitVec 64} (hnode : node ∈ cache.lru) (hline : entry.line = node.2) :
    entry.lruPosition = node.1 := by
  have hplace := h.linked.subset (mem_map_of_mem hentry)
  rw [← h.recency] at hrecent
  exact congrArg Prod.fst (inj_on_of_nodup_map hrecent hplace hnode hline)

theorem Placed.hit
    (hrecent : recent.Nodup) (hfind : cache.lines.find? (·.line == line) = some entry) :
    line ∈ recent ∧ (cache.lines.map fun other =>
        if other.line = line then
          { other with lruPosition :=
              ((cache.spliceFront entry.lruPosition).head?.map Prod.fst).getD other.lruPosition }
        else other) = cache.lines ∧
      Placed (cache.spliceFront entry.lruPosition) cache.lines cache.nextNode
        (line :: recent.erase line) := by
  have hentry := mem_of_find?_eq_some hfind
  obtain rfl : entry.line = line := by simpa using find?_some hfind
  have hnode := h.linked.subset (mem_map_of_mem hentry)
  obtain ⟨before, after, hlru⟩ := append_of_mem hnode
  have hpositions := h.positions
  rw [hlru] at hpositions
  obtain ⟨hfound, herased⟩ := splice_node hpositions
  have hsplice : cache.spliceFront entry.lruPosition =
      (entry.lruPosition, entry.line) :: (before ++ after) := by
    unfold spliceFront
    rw [hlru, hfound, herased]
  have hperm : ((entry.lruPosition, entry.line) :: (before ++ after)).Perm cache.lru := by
    rw [hlru]
    exact perm_middle.symm
  have hlines := h.recency
  rw [hlru, map_append, map_cons] at hlines
  subst hlines
  have hout : entry.line ∉ before.map Prod.snd := fun hin =>
    (nodup_append.1 hrecent).2.2 _ hin _ mem_cons_self rfl
  refine ⟨by simp, ?_, ?_, ?_, ?_, ?_⟩
  · rw [hsplice]
    refine (map_congr_left fun other hother => ?_).trans (map_id _)
    split
    · rename_i hsame
      have hplace := h.entry_unique hrecent hother hnode hsame
      cases other
      cases hplace
      rfl
    · rfl
  · simp [hsplice, erase_append_right _ hout]
  · rw [hsplice]
    exact (hperm.map _).nodup_iff.2 h.positions
  · rw [hsplice]
    exact fun node hmem => h.fresh node (hperm.subset hmem)
  · rw [hsplice]
    exact h.linked.trans hperm.symm

theorem Placed.evict
    (hrecent : recent.Nodup) (hne : recent ≠ []) :
    ∃ before entry after, cache.lines = before ++ entry :: after ∧
      cache.evictLru = { cache.count .evictions entry.key with
        lines := before ++ after
        lru := cache.lru.dropLast } ∧
      Placed cache.lru.dropLast (before ++ after) cache.nextNode recent.dropLast := by
  have hlines := h.recency
  rcases eq_nil_or_concat cache.lru with hempty | ⟨front, node, hlru⟩
  · rw [hempty] at hlines
    exact absurd hlines.symm hne
  rw [concat_eq_append] at hlru
  have hnode : node ∈ cache.lru := by simp [hlru]
  obtain ⟨found, hmem, heq⟩ := mem_map.1 (h.linked.symm.subset hnode)
  obtain ⟨entry, before, after, hbefore, hentry, hsplit, herased⟩ :=
    exists_of_eraseP (p := (·.line == node.2)) hmem (by simp [← heq])
  have hline : entry.line = node.2 := by simpa using hentry
  have hplace : (entry.lruPosition, entry.line) = node :=
    Prod.ext (h.entry_unique hrecent (by simp [hsplit]) hnode hline) hline
  have hevict : cache.evictLru = { cache.count .evictions entry.key with
      lines := before ++ after
      lru := cache.lru.dropLast } := by
    have hfind : cache.lines.find? (·.line == node.2) = some entry := by
      rw [hsplit, find?_append, find?_eq_none.2 hbefore]
      simp [hline]
    unfold evictLru
    rw [hlru, getLast?_concat]
    dsimp only
    rw [hfind, herased]
  refine ⟨before, entry, after, hsplit, hevict, ?_, ?_,
    fun other hother => h.fresh other (dropLast_subset _ hother), ?_⟩
  · exact (map_dropLast).trans (congrArg dropLast hlines)
  · exact h.positions.sublist ((dropLast_sublist _).map _)
  · have hlinked := h.linked
    rw [hsplit, map_append, map_cons, hplace, hlru] at hlinked
    have hperm := (perm_middle.symm.trans hlinked).trans (perm_append_singleton _ _)
    simpa [hlru] using hperm.cons_inv

end

theorem Placed.insert {lru : List (ℕ × BitVec 64)} {lines : List ShadowCacheLine} {n : ℕ}
    (h : Placed lru lines n recent) (key : MemoryKey) (line : BitVec 64) :
    Placed ((n, line) :: lru) (⟨line, key, n⟩ :: lines) (n + 1) (line :: recent) := by
  refine ⟨congrArg (line :: ·) h.recency, nodup_cons.2 ⟨fun hin => ?_, h.positions⟩,
    fun node hmem => ?_, h.linked.cons _⟩
  · obtain ⟨node, hnode, heq⟩ := mem_map.1 hin
    exact absurd heq (h.fresh node hnode).ne
  · rcases mem_cons.1 hmem with rfl | hmem
    · exact Nat.lt_succ_self _
    · exact Nat.lt_succ_of_lt (h.fresh node hmem)

theorem Placed.not_mem (h : Placed cache.lru cache.lines cache.nextNode recent)
    (hfind : cache.lines.find? (·.line == line) = none) : line ∉ recent := by
  rw [← h.recency]
  intro hin
  obtain ⟨node, hnode, rfl⟩ := mem_map.1 hin
  obtain ⟨entry, hentry, rfl⟩ := mem_map.1 (h.linked.symm.subset hnode)
  exact find?_eq_none.1 hfind entry hentry (by simp)

/-- An access counts itself, a hit or a miss, and what is evicted. -/
theorem Balanced.access (h : Balanced cache touched) {cache' : ShadowCache} (hit : Bool)
    (evicted : Option MemoryKey) (hhit : hit = true ↔ line ∈ recentLines touched)
    (hstat : ∀ scope c, cache'.stat scope c = cache.stat scope c +
      (if InScope scope key ∧ c = (if hit then .hits else .misses) then 1 else 0) +
      (if evicted.any (InScope scope) ∧ c = .evictions then 1 else 0) +
      if InScope scope key ∧ c = .lineAccesses then 1 else 0)
    (hresident : ∀ scope, cache'.resident scope + (if evicted.any (InScope scope) then 1 else 0) =
      cache.resident scope + if InScope scope key ∧ hit = false then 1 else 0)
    (htotals : ∀ c, cache'.summary c = cache'.total c) :
    Balanced cache' ((key, line) :: touched) := by
  refine ⟨fun scope => ?_, fun scope => ?_, fun scope => ?_, fun scope => ?_, htotals⟩
  · have := h.lineAccesses scope
    grind
  · have := h.hits scope
    grind [lruHits]
  · have := h.lookups scope
    grind
  · have := h.kept scope
    grind

variable (h : Exact cache touched)

include h

theorem Exact.access (key : MemoryKey) (line : BitVec 64) :
    Exact (cache.access key line) ((key, line) :: touched) := by
  obtain ⟨hplaced, hbalanced⟩ := h
  unfold ShadowCache.access touchLine
  cases hfind : cache.lines.find? (·.line == line) with
  | some entry =>
    obtain ⟨hin, hlines, hnew⟩ := hplaced.hit nodup_recentLines hfind
    dsimp only
    rw [hlines]
    refine ⟨?_, hbalanced.access true none (by simp [hin]) (fun scope c => ?_) (fun scope => ?_)
      fun c => ?_⟩
    · rw [recentLines_cons, if_pos hin]
      exact hnew
    · exact (stat_count _ _ _ _ _).trans (congrArg (· + _) (stat_count cache _ _ _ _))
    · simp; rfl
    · exact totals_count _ (totals_count _ hbalanced.totals _ _) _ _ c
  | none =>
    have hout := hplaced.not_mem hfind
    have hlength : cache.lines.length = (recentLines touched).length := by
      rw [← hplaced.recency, length_map, ← hplaced.linked.length_eq, length_map]
    have hrecent := @recentLines_cons key line touched
    rw [if_neg hout, ← hlength] at hrecent
    dsimp only
    by_cases hfull : 64 ≤ cache.lines.length
    · rw [if_pos (show 64 ≤ (cache.count .misses key).lines.length from hfull)]
      rw [if_pos hfull] at hrecent
      obtain ⟨before, entry, after, hsplit, hevict, hroom⟩ := @Placed.evict
        (cache.count .misses key) _ hplaced nodup_recentLines fun hnil => by
          rw [hlength, hnil] at hfull
          cases hfull
      have hlines : cache.lines = before ++ entry :: after := hsplit
      rw [hevict]
      refine ⟨hrecent ▸ hroom.insert key line, hbalanced.access false (some entry.key)
        (by simp [hout]) (fun scope c => ?_) (fun scope => ?_) fun c => ?_⟩
      · exact (stat_count _ _ _ _ _).trans (congrArg (· + _) ((stat_count _ _ _ _ _).trans
          (congrArg (· + _) (stat_count cache _ _ _ _))))
      · simp only [resident, count, hlines, countP_cons, countP_append]
        grind
      · exact totals_count _ (totals_count _ (totals_count _ hbalanced.totals _ _) _ _) _ _ c
    · rw [if_neg (show ¬64 ≤ (cache.count .misses key).lines.length from hfull)]
      rw [if_neg hfull] at hrecent
      refine ⟨hrecent ▸ hplaced.insert key line, hbalanced.access false none (by simp [hout])
        (fun scope c => ?_) (fun scope => ?_) fun c => ?_⟩
      · exact (stat_count _ _ _ _ _).trans (congrArg (· + _) (stat_count cache _ _ _ _))
      · simp only [resident, count, countP_cons]
        grind
      · exact totals_count _ (totals_count _ hbalanced.totals _ _) _ _ c

theorem Exact.foldl (key : MemoryKey) (lines : List (BitVec 64)) :
    Exact (lines.foldl (fun cache line => cache.access key line) cache)
      ((lines.map fun line => (key, line)).reverse ++ touched) := by
  induction lines generalizing cache touched with
  | nil => exact h
  | cons line lines ih =>
    have hrest := ih (h.access key line)
    simpa using hrest

theorem Exact.bypass (key : MemoryKey) : Exact (cache.count .bypasses key) touched := by
  obtain ⟨hplaced, hbalanced⟩ := h
  refine ⟨hplaced, fun scope => ?_, fun scope => ?_, fun scope => ?_, fun scope => ?_,
    totals_count cache hbalanced.totals _ _⟩
  all_goals simp only [stat_count]
  · simpa using hbalanced.lineAccesses scope
  · simpa using hbalanced.hits scope
  · simpa using hbalanced.lookups scope
  · simpa [resident, count] using hbalanced.kept scope

theorem Exact.recordMemory (o : MemoryObservation) :
    Exact (cache.recordMemory o) (o.touches.reverse ++ touched) := by
  unfold ShadowCache.recordMemory recordShadowCache MemoryObservation.touches
  cases (!o.valid || o.bytes == 0) with
  | true => exact h
  | false =>
    cases (!o.paddrValid || o.fault || !o.region.cacheable) with
    | true => exact h.bypass o.key
    | false => exact h.foldl o.key o.touchedLines

theorem Exact.run (observations : List MemoryObservation) :
    Exact (observations.foldl ShadowCache.recordMemory cache)
      ((observations.flatMap (·.touches)).reverse ++ touched) := by
  induction observations generalizing cache touched with
  | nil => exact h
  | cons o observations ih =>
    have hrest := ih (h.recordMemory o)
    simpa using hrest

end ShadowCache

namespace MemoryObservation

variable (o : MemoryObservation)

/-- Its bytes are counted, and do not run past the end of the addresses. -/
def Counted : Prop :=
  o.valid = true ∧ o.bytes ≠ 0 ∧ o.paddrValid = true ∧ o.fault = false ∧ o.region.cacheable = true ∧
    o.paddr.toNat + o.bytes.toNat ≤ 2 ^ 64

/-- Exactly the lines that the bytes overlap, in ascending order. -/
structure Overlaps (lines : List (BitVec 64)) : Prop where
  ascending : lines.Pairwise (· < ·)
  overlap : ∀ line, line ∈ lines ↔ line.toNat % 64 = 0 ∧ ∃ byte, o.paddr.toNat ≤ byte ∧
    byte < o.paddr.toNat + o.bytes.toNat ∧ line.toNat ≤ byte ∧ byte < line.toNat + 64

theorem Counted.overlaps {o : MemoryObservation} (h : o.Counted) :
    o.Overlaps (o.touches.map Prod.snd) := by
  obtain ⟨hvalid, hbytes, hpaddr, hfault, hcacheable, hend⟩ := h
  have hpos : 0 < o.bytes.toNat := by bv_omega
  have hlast : (o.paddr + o.bytes - 1).toNat = o.paddr.toNat + o.bytes.toNat - 1 := by bv_omega
  have htouches : o.touches.map Prod.snd = o.touchedLines := by
    have hsome : (o.bytes == 0) = false := beq_false_of_ne hbytes
    unfold touches
    rw [hvalid, hsome, hpaddr, hfault, hcacheable, if_neg (by decide), map_map]
    exact map_id _
  rw [htouches]
  unfold touchedLines
  dsimp only
  rw [hlast]
  have hline : ∀ index, index * 64 < 2 ^ 64 → (BitVec.ofNat 64 (index * 64)).toNat = index * 64 :=
    fun index hlt => by rw [BitVec.toNat_ofNat, Nat.mod_eq_of_lt hlt]
  refine ⟨pairwise_map.2 ?_, fun line => ?_⟩
  · refine (@pairwise_lt_range' _ _ 1 (by decide)).imp_of_mem fun ha hb hlt => ?_
    have hrange := mem_range'_1.1 hb
    rw [BitVec.lt_def, hline _ (by omega), hline _ (by omega)]
    omega
  rw [mem_map]
  constructor
  · rintro ⟨index, hmem, rfl⟩
    have hrange := mem_range'_1.1 hmem
    rw [hline index (by omega)]
    exact ⟨by omega, max o.paddr.toNat (index * 64), by omega, by omega, by omega, by omega⟩
  · rintro ⟨haligned, byte, hlow, hhigh, hfirst, hafter⟩
    refine ⟨line.toNat / 64, mem_range'_1.2 ⟨by omega, by omega⟩, BitVec.eq_of_toNat_eq ?_⟩
    rw [hline _ (by omega)]
    omega

end MemoryObservation

namespace ShadowCache

/-- What is to hold after some observations. -/
structure Sound (observations : List MemoryObservation) : Prop where
  exact : Exact (run observations) (observations.flatMap (·.touches)).reverse
  distinct : ((run observations).lines.map (·.line)).Nodup
  capacity : (run observations).lines.length ≤ 64
  overlaps : ∀ o : MemoryObservation, o.Counted → o.Overlaps (o.touches.map Prod.snd)

/-- A cacheable access of one byte without a fault, whose physical address is not valid. -/
def unplaced : MemoryObservation :=
  ⟨⟨.ram, true, false, false, false, none⟩, true, false, false, 0, 1⟩

end ShadowCache
end VisualCpu
