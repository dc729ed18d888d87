import VisualCpu.Library.Lists
import VisualCpu.Mem.L1Cache
import VisualCpu.Mem.RamFacts

/-!
# Coherence of the data cache

A coherent cache holds in every valid line exactly the bytes of RAM of its span.
Loads and stores through the cache keep it coherent and behave as loads and stores
of the bus; a write that bypasses the cache keeps it coherent when it spares the
valid lines.
-/

namespace VisualCpu

open List Ram Nat
open BitVec hiding not_and not_or

namespace L1Cache

/-- The byte lies in the span of the line. -/
def inLine (cache : L1Cache) (line : CacheLine) (a : BitVec 64) : Prop :=
  a - line.base < cache.lineSizeBytes

/-- The byte lies in a valid line. -/
def Holds (cache : L1Cache) (a : BitVec 64) : Prop :=
  ∃ line ∈ cache.lines, line.valid ∧ cache.inLine line a

def DistinctBases (lines : List CacheLine) : Prop :=
  lines.Pairwise fun a b => a.valid → b.valid → a.base ≠ b.base

structure Coherent (cache : L1Cache) (ram : Ram) : Prop where
  distinct : DistinctBases cache.lines
  aligned : ∀ line ∈ cache.lines, line.valid →
    line.base.toNat % cache.lineSizeBytes.toNat = 0
  inRam : ∀ line ∈ cache.lines, line.valid →
    contains line.base cache.lineSizeBytes.toNat
  bytes : ∀ line ∈ cache.lines, line.valid → ∀ o, o < cache.lineSizeBytes →
    line.bytes o = ram (line.base + o)

variable {cache : L1Cache} {ram : Ram} {f : CacheLine → CacheLine} {ram' : Ram}

theorem coherent_of_empty (h : ∀ line ∈ cache.lines, line.valid = false) (ram : Ram) :
    Coherent cache ram := by
  have hnone : ∀ line ∈ cache.lines, ¬ line.valid := by
    intro line hline
    rw [h line hline]
    exact Bool.false_ne_true
  refine ⟨?_, fun line hl hv => absurd hv (hnone line hl),
    fun line hl hv => absurd hv (hnone line hl),
    fun line hl hv => absurd hv (hnone line hl)⟩
  refine pairwise_iff_getElem.2 fun i j hi hj _ hva => ?_
  exact absurd hva (hnone _ (getElem_mem hi))

theorem Coherent.mono (h : Coherent cache ram)
    (hspared : ∀ a, cache.Holds a → ram' a = ram a) : Coherent cache ram' := by
  refine ⟨h.distinct, h.aligned, h.inRam, fun line hline hvalid o ho => ?_⟩
  have hin : cache.inLine line (line.base + o) := by
    unfold inLine
    rwa [add_comm, add_sub_cancel]
  rw [hspared _ ⟨line, hline, hvalid, hin⟩]
  exact h.bytes line hline hvalid o ho

theorem Coherent.map (h : Coherent cache ram)
    {useClock : ℕ}
    (hf : ∀ line ∈ cache.lines, (f line).valid → line.valid ∧ (f line).base = line.base ∧
      ∀ o, o < cache.lineSizeBytes → (f line).bytes o = ram' (line.base + o)) :
    Coherent { cache with lines := cache.lines.map f, useClock } ram' := by
  refine ⟨?_, ?_, ?_, ?_⟩
  · refine pairwise_map.2 (h.distinct.imp_of_mem fun {a b} ha hb hne hva hvb => ?_)
    obtain ⟨hva', hba, -⟩ := hf a ha hva
    obtain ⟨hvb', hbb, -⟩ := hf b hb hvb
    rw [hba, hbb]
    exact hne hva' hvb'
  · intro line hline hvalid
    obtain ⟨old, hold, rfl⟩ := mem_map.1 hline
    obtain ⟨hv, hbase, -⟩ := hf old hold hvalid
    rw [hbase]
    exact h.aligned old hold hv
  · intro line hline hvalid
    obtain ⟨old, hold, rfl⟩ := mem_map.1 hline
    obtain ⟨hv, hbase, -⟩ := hf old hold hvalid
    rw [hbase]
    exact h.inRam old hold hv
  · intro line hline hvalid
    obtain ⟨old, hold, rfl⟩ := mem_map.1 hline
    obtain ⟨hv, hbase, hbytes⟩ := hf old hold hvalid
    rw [hbase]
    exact hbytes

theorem Coherent.invalidateRange (h : Coherent cache ram) (addr size : BitVec 64) :
    Coherent (cache.invalidateRange addr size) ram := by
  unfold L1Cache.invalidateRange
  by_cases hzero : size = 0
  · rw [if_pos hzero]
    exact h
  rw [if_neg hzero]
  refine h.map fun line hline => ?_
  generalize (if allOnes 64 - addr < size then _ else _) = accessEnd
  split_ifs
  · exact False.elim
  · exact fun hvalid => ⟨hvalid, rfl, h.bytes line hline hvalid⟩

variable {lines : List CacheLine}

theorem updateFirst_eq_map {p : CacheLine → Bool} (h : lines.Pairwise fun a b => ¬ (p a ∧ p b)) :
    updateFirst p f lines = lines.map fun line => if p line then f line else line := by
  induction lines with
  | nil => rfl
  | cons line rest ih =>
    obtain ⟨hhead, htail⟩ := pairwise_cons.1 h
    by_cases hp : p line
    · have hrest : rest.map (fun line => if p line then f line else line) = rest := by
        conv_rhs => rw [← map_id rest]
        refine map_congr_left fun other hother => ?_
        rw [if_neg fun ho => hhead other hother ⟨hp, ho⟩]
        rfl
      rw [updateFirst, if_pos hp, map_cons, if_pos hp, hrest]
    · rw [updateFirst, if_neg hp, map_cons, if_neg hp, ih htail]

theorem DistinctBases.found (h : DistinctBases lines) (base : BitVec 64) :
    lines.Pairwise fun a b =>
      ¬ ((a.valid && a.base == base) = true ∧ (b.valid && b.base == base) = true) := by
  refine h.imp fun {a b} hne hab => ?_
  simp only [Bool.and_eq_true, beq_iff_eq] at hab
  exact hne hab.1.1 hab.2.1 (hab.1.2.trans hab.2.2.symm)

theorem Coherent.touch (h : Coherent cache ram) (base : BitVec 64) :
    Coherent (cache.touch base) ram := by
  unfold L1Cache.touch
  rw [updateFirst_eq_map (h.distinct.found base)]
  refine h.map fun line hline => ?_
  split_ifs
  · exact fun hvalid => ⟨hvalid, rfl, h.bytes line hline hvalid⟩
  · exact fun hvalid => ⟨hvalid, rfl, h.bytes line hline hvalid⟩

theorem lineOffset_toNat (cache : L1Cache) (addr : BitVec 64) :
    (cache.lineOffset addr).toNat = addr.toNat % cache.lineSizeBytes.toNat := by
  have hsub : cache.lineOffset addr = addr % cache.lineSizeBytes := by
    rw [lineOffset, lineBase, sub_sub_cancel]
  rw [hsub, toNat_umod]

theorem lineOffset_lt (cache : L1Cache) (addr : BitVec 64) (h : 0 < cache.lineSizeBytes.toNat) :
    (cache.lineOffset addr).toNat < cache.lineSizeBytes.toNat := by
  rw [lineOffset_toNat]
  exact mod_lt _ h

theorem lineBase_add_lineOffset (cache : L1Cache) (addr : BitVec 64) :
    cache.lineBase addr + cache.lineOffset addr = addr := by
  rw [lineOffset, add_comm, sub_add_cancel]

theorem lineBase_aligned (cache : L1Cache) (addr : BitVec 64) :
    (cache.lineBase addr).toNat % cache.lineSizeBytes.toNat = 0 := by
  have hle : addr.toNat % cache.lineSizeBytes.toNat ≤ addr.toNat := mod_le _ _
  rw [lineBase, toNat_sub_of_le (by rw [le_def, toNat_umod]; exact hle), toNat_umod]
  exact sub_mod_eq_zero_of_mod_eq (mod_mod _ _).symm

/-- An access that is not bypassed lies, with its line, in RAM and inside the line. -/
structure Cacheable (D : Type) [Devices D] (cache : L1Cache) (addr : BitVec 64) (size : ℕ) :
    Prop where
  access : contains addr size
  line : contains (cache.lineBase addr) cache.lineSizeBytes.toNat
  fits : (cache.lineOffset addr).toNat + size ≤ cache.lineSizeBytes.toNat
  size_le : size ≤ 8

variable {addr : BitVec 64}

theorem describeSpan_eq_ram {D : Type} [Devices D] {bytes : ℕ}
    (h : Bus.describeSpan D addr bytes = some .ram) : contains addr bytes := by
  apply Bus.describeRegion_eq_ram (D := D)
  unfold Bus.describeSpan at h
  split_ifs at h with hunmapped
  cases hregion : Bus.describeRegion D addr bytes with
  | ram => rfl
  | mmio =>
    rw [hregion] at h
    cases h
  | unmapped =>
    rw [hregion] at h
    cases h

variable {size : ℕ}

theorem contains_size_le (h : contains addr size) : 0 < size ∧ size ≤ memSize := by
  simp only [Ram.contains, decide_eq_true_eq] at h
  omega

theorem cacheable_of_not_bypass {D : Type} [Devices D]
    (h : cache.shouldBypass D addr size = false) : Cacheable D cache addr size := by
  unfold shouldBypass at h
  split_ifs at h with hfirst haccess
  simp only [Bool.or_eq_true, not_or, Bool.not_eq_true, Bool.not_eq_false'] at hfirst
  obtain ⟨⟨-, hsize⟩, hfits⟩ := hfirst
  have hline : contains (cache.lineBase addr) cache.lineSizeBytes.toNat :=
    describeSpan_eq_ram (D := D) (by simpa using h)
  have hle : size ≤ 8 := by
    simp only [validSize, Bool.or_eq_true, beq_iff_eq] at hsize
    omega
  refine ⟨describeSpan_eq_ram (D := D) (by simpa using haccess), hline, ?_, hle⟩
  have hlineSize := contains_size_le hline
  have hoffset := cache.lineOffset_lt addr (by omega)
  simp only [accessFitsOneLine, decide_eq_true_eq, le_def, toNat_add, toNat_ofNat] at hfits
  have hmem : memSize < 2 ^ 63 := by decide
  omega

theorem readLineValue_eq (line : CacheLine) {lineSize : BitVec 64}
    (hbytes : ∀ o, o < lineSize → line.bytes o = ram (line.base + o)) (offset : BitVec 64)
    (hfits : offset.toNat + size ≤ lineSize.toNat) :
    readLineValue line offset size = ram.load (line.base + offset) size := by
  induction size generalizing offset with
  | zero => rfl
  | succ size ih =>
    have hlt : offset < lineSize := by
      rw [lt_def]
      omega
    have hnext : (offset + 1).toNat = offset.toNat + 1 := by
      have hone : (1 : BitVec 64).toNat = 1 := rfl
      have hmax := lineSize.isLt
      rw [toNat_add, hone]
      omega
    have htail := ih (offset + 1) (by omega)
    rw [readLineValue, Ram.load, hbytes offset hlt, htail, add_assoc]

variable {D : Type} [Devices D]

variable {base : BitVec 64}

theorem contains_byte {count i : ℕ} (h : contains base count)
    (hi : i < count) : contains (base + BitVec.ofNat 64 i) 1 := by
  have hbase : memBase.toNat = 0x80000000 := rfl
  have hsize : memSize = 0x8000000 := rfl
  simp only [Ram.contains, decide_eq_true_eq, toNat_add, toNat_ofNat] at h ⊢
  omega

theorem load_one (ram : Ram) (addr : BitVec 64) : (ram.load addr 1).setWidth 8 = ram addr := by
  simp [Ram.load]

theorem refillBytes_eq (bus : Bus D) {total : ℕ} (count offset : ℕ)
    (hram : contains base total) (hcount : offset + count ≤ total) (bytes : BitVec 64 → BitVec 8) :
    ∃ bytes' mmio,
      refillBytes bus base bytes (BitVec.ofNat 64 offset) count =
        (some bytes', { bus with lastAccessMmio := mmio }) ∧
      ∀ o : BitVec 64, bytes' o =
        if offset ≤ o.toNat ∧ o.toNat < offset + count then bus.ram (base + o) else bytes o := by
  have htotal := (contains_size_le hram).2
  have hmem : memSize < 2 ^ 63 := by decide
  induction count generalizing offset bytes bus with
  | zero =>
    refine ⟨bytes, bus.lastAccessMmio, rfl, fun o => ?_⟩
    rw [if_neg (by omega)]
  | succ count ih =>
    have hbyte := contains_byte hram (i := offset) (by omega)
    have hone : BitVec.ofNat 64 offset + 1 = BitVec.ofNat 64 (offset + 1) := by
      rw [ofNat_add]
      rfl
    obtain ⟨bytes', mmio, hrefill, hbytes⟩ := ih
      { bus with lastAccessMmio := false } (offset + 1) (by omega)
      (Function.update bytes (BitVec.ofNat 64 offset)
        ((bus.ram.load (base + BitVec.ofNat 64 offset) 1).setWidth 8))
    refine ⟨bytes', mmio, ?_, fun o => ?_⟩
    · rw [refillBytes, Bus.tryLoad_ram bus hbyte, hone]
      exact hrefill
    rw [hbytes, load_one]
    by_cases ho : o = BitVec.ofNat 64 offset
    · subst ho
      have hnat : (BitVec.ofNat 64 offset).toNat = offset := by
        rw [toNat_ofNat]
        omega
      rw [hnat, if_neg (by omega), if_pos (by omega), Function.update_self]
    · have hne : o.toNat ≠ offset := by
        intro heq
        apply ho
        rw [← heq, ofNat_toNat, setWidth_eq]
      rw [Function.update_of_ne ho]
      by_cases hin : offset + 1 ≤ o.toNat ∧ o.toNat < offset + 1 + count
      · rw [if_pos hin, if_pos (by omega)]
      · rw [if_neg hin, if_neg (by omega)]

def Fresh (lines : List CacheLine) (base : BitVec 64) : Prop :=
  ∀ line ∈ lines, line.valid → line.base ≠ base

variable {line : CacheLine} {bus : Bus D}

theorem DistinctBases.set (h : DistinctBases lines)
    (hfresh : Fresh lines line.base) (i : ℕ) : DistinctBases (lines.set i line) := by
  induction lines generalizing i with
  | nil => exact h
  | cons head rest ih =>
    obtain ⟨hhead, hrest⟩ := pairwise_cons.1 h
    have hfreshHead := hfresh head mem_cons_self
    have hfreshRest : Fresh rest line.base := fun l hl => hfresh l (mem_cons_of_mem _ hl)
    cases i with
    | zero =>
      exact pairwise_cons.2 ⟨fun l hl _ hv => (hfreshRest l hl hv).symm, hrest⟩
    | succ i =>
      refine pairwise_cons.2 ⟨fun l hl hva hvb => ?_, ih hrest hfreshRest i⟩
      rcases mem_or_eq_of_mem_set hl with hold | rfl
      · exact hhead l hold hva hvb
      · exact hfreshHead hva

theorem Coherent.install (h : Coherent cache ram) (line : CacheLine) (i useClock : ℕ)
    (hfresh : Fresh cache.lines line.base)
    (haligned : line.base.toNat % cache.lineSizeBytes.toNat = 0)
    (hram : contains line.base cache.lineSizeBytes.toNat)
    (hbytes : ∀ o, o < cache.lineSizeBytes → line.bytes o = ram (line.base + o)) :
    Coherent { cache with lines := cache.lines.set i line, useClock } ram := by
  refine ⟨h.distinct.set hfresh i, ?_, ?_, ?_⟩
  · intro l hl hvalid
    rcases mem_or_eq_of_mem_set hl with hold | rfl
    · exact h.aligned l hold hvalid
    · exact haligned
  · intro l hl hvalid
    rcases mem_or_eq_of_mem_set hl with hold | rfl
    · exact h.inRam l hold hvalid
    · exact hram
  · intro l hl hvalid
    rcases mem_or_eq_of_mem_set hl with hold | rfl
    · exact h.bytes l hold hvalid
    · exact hbytes

theorem findLine_some (h : cache.findLine base = some line) :
    line ∈ cache.lines ∧ line.valid ∧ line.base = base := by
  have hfound := find?_some h
  simp only [Bool.and_eq_true, beq_iff_eq] at hfound
  exact ⟨mem_of_find?_eq_some h, hfound.1, hfound.2⟩

theorem fresh_of_findLine_none (h : cache.findLine base = none) : Fresh cache.lines base := by
  intro line hline hvalid hbase
  have hnone := find?_eq_none.1 h line hline
  simp [hvalid, hbase] at hnone

/-- What the cache and the bus behind it owe to a load: the value that the bus returns. -/
structure LoadsAs (cache : L1Cache) (bus : Bus D) (addr : BitVec 64) (size : ℕ)
    (r : Option (BitVec 64) × L1Cache × Bus D) : Prop where
  value : r.1 = (bus.tryLoad addr size).1
  bus_eq : ∃ mmio, r.2.2 = { (bus.tryLoad addr size).2 with lastAccessMmio := mmio }
  coherent : Coherent r.2.1 bus.ram
  lineSize : r.2.1.lineSizeBytes = cache.lineSizeBytes
  enabled : r.2.1.enabled = cache.enabled

theorem Coherent.load (h : Coherent cache bus.ram) (addr : BitVec 64) (size : ℕ) :
    LoadsAs cache bus addr size (cache.load bus addr size) := by
  unfold L1Cache.load
  by_cases hbypass : cache.shouldBypass D addr size
  · rw [if_pos hbypass]
    exact ⟨rfl, ⟨_, rfl⟩, h, rfl, rfl⟩
  rw [if_neg hbypass]
  have hcacheable := cacheable_of_not_bypass (by simpa using hbypass)
  have hload := Bus.tryLoad_ram bus hcacheable.access
  have hbase := cache.lineBase_add_lineOffset addr
  cases hfind : cache.findLine (cache.lineBase addr) with
  | some line =>
    obtain ⟨hmem, hvalid, hlineBase⟩ := findLine_some hfind
    have hvalue := readLineValue_eq line (h.bytes line hmem hvalid) _ hcacheable.fits
    rw [hlineBase, hbase] at hvalue
    refine ⟨?_, ⟨bus.lastAccessMmio, ?_⟩, h.touch _, rfl, rfl⟩
    · rw [hload]
      exact congrArg some hvalue
    · rw [hload]
  | none =>
    obtain ⟨bytes, mmio, hrefill, hbytes⟩ := refillBytes_eq bus
      cache.lineSizeBytes.toNat 0 hcacheable.line (by omega) fun _ => 0
    have hline : ∀ o, o < cache.lineSizeBytes → bytes o = bus.ram (cache.lineBase addr + o) := by
      intro o ho
      rw [lt_def] at ho
      rw [hbytes, if_pos (by omega)]
    have hvalue := readLineValue_eq ⟨true, cache.lineBase addr, cache.useClock + 1, bytes⟩
      hline _ hcacheable.fits
    simp only [hbase] at hvalue
    have hinstalled := h.install ⟨true, cache.lineBase addr, cache.useClock + 1, bytes⟩
      cache.selectVictim (cache.useClock + 1) (fresh_of_findLine_none hfind)
      (cache.lineBase_aligned addr) hcacheable.line hline
    have hrefill' : refillBytes bus (cache.lineBase addr) (fun _ => 0) 0
        cache.lineSizeBytes.toNat = _ := hrefill
    simp only [refillLine, hrefill']
    refine ⟨?_, ⟨mmio, ?_⟩, hinstalled, rfl, rfl⟩
    · rw [hload]
      exact congrArg some hvalue
    · rw [hload]

theorem Coherent.base_of_inLine (h : Coherent cache ram)
    (hline : line ∈ cache.lines) (hvalid : line.valid) {a : BitVec 64} (hin : cache.inLine line a)
    (ha : a.toNat < 2 ^ 63) : cache.lineBase a = line.base := by
  have hbase := h.aligned line hline hvalid
  have hram := h.inRam line hline hvalid
  have hsize := (contains_size_le hram).2
  have hmem : memSize < 2 ^ 63 := by decide
  unfold inLine at hin
  rw [lt_def, toNat_sub] at hin
  have hlt := line.base.isLt
  have hbound : line.base.toNat < 2 ^ 63 := by
    simp only [Ram.contains, decide_eq_true_eq] at hram
    have hbase' : memBase.toNat = 0x80000000 := rfl
    omega
  have hle : line.base.toNat ≤ a.toNat := by omega
  have hdiff : a.toNat - line.base.toNat < cache.lineSizeBytes.toNat := by omega
  apply eq_of_toNat_eq
  have hmod : a.toNat % cache.lineSizeBytes.toNat = a.toNat - line.base.toNat := by
    have hsplit : a.toNat = line.base.toNat + (a.toNat - line.base.toNat) := by omega
    rw [hsplit, add_mod, hbase, zero_add, mod_mod, mod_eq_of_lt hdiff]
    omega
  have hmodle : a.toNat % cache.lineSizeBytes.toNat ≤ a.toNat := mod_le _ _
  rw [lineBase, toNat_sub_of_le (by rw [le_def, toNat_umod]; exact hmodle), toNat_umod, hmod]
  omega

theorem contains_lt {addr a : BitVec 64} (h : contains addr size)
    (ha : (a - addr).toNat < size) : addr.toNat ≤ a.toNat ∧ a.toNat < addr.toNat + size ∧
      addr.toNat + size < 2 ^ 63 := by
  have hbase : memBase.toNat = 0x80000000 := rfl
  have hmem : memSize = 0x8000000 := rfl
  simp only [Ram.contains, decide_eq_true_eq] at h
  rw [toNat_sub] at ha
  have hlt := a.isLt
  omega

theorem Cacheable.lineBase_eq {addr a : BitVec 64} (h : Cacheable D cache addr size)
    (ha : (a - addr).toNat < size) : cache.lineBase a = cache.lineBase addr := by
  obtain ⟨hle, hlt, hbound⟩ := contains_lt h.access ha
  have hfits := h.fits
  rw [lineOffset_toNat] at hfits
  have hpos := (contains_size_le h.line).1
  have hbase : ∀ x : BitVec 64, (cache.lineBase x).toNat =
      x.toNat - x.toNat % cache.lineSizeBytes.toNat := by
    intro x
    have hmodle : x.toNat % cache.lineSizeBytes.toNat ≤ x.toNat := mod_le _ _
    rw [lineBase, toNat_sub_of_le (by rw [le_def, toNat_umod]; exact hmodle), toNat_umod]
  apply eq_of_toNat_eq
  rw [hbase, hbase]
  generalize cache.lineSizeBytes.toNat = n at *
  obtain ⟨d, hd⟩ : ∃ d, a.toNat = addr.toNat + d := ⟨a.toNat - addr.toNat, by omega⟩
  have hmod : a.toNat % n = addr.toNat % n + d := by
    rw [hd, add_mod, mod_eq_of_lt (by omega : d < n), mod_eq_of_lt (by omega)]
  have hmodle : addr.toNat % n ≤ addr.toNat := mod_le _ _
  omega

theorem Coherent.store_missed (h : Coherent cache ram) (hcacheable : Cacheable D cache addr size)
    (hfresh : Fresh cache.lines (cache.lineBase addr)) (value : BitVec 64) :
    Coherent cache (ram.store addr value size) := by
  refine h.mono fun a ha => ?_
  obtain ⟨line, hline, hvalid, hin⟩ := ha
  rw [Ram.store, if_neg]
  intro hwritten
  obtain ⟨-, hlt, hbound⟩ := contains_lt hcacheable.access hwritten
  have hbase := h.base_of_inLine hline hvalid hin (by omega)
  rw [hcacheable.lineBase_eq hwritten] at hbase
  exact hfresh line hline hvalid hbase.symm

theorem Coherent.writeFound (h : Coherent cache ram)
    (hcacheable : Cacheable D cache addr size) (value : BitVec 64) :
    Coherent (cache.writeFound (cache.lineBase addr) addr value size)
      (ram.store addr value size) := by
  simp only [L1Cache.writeFound, updateFirst_eq_map (h.distinct.found (cache.lineBase addr))]
  refine h.map fun line hline => ?_
  split_ifs with hfound
  · simp only [Bool.and_eq_true, beq_iff_eq] at hfound
    refine fun hvalid => ⟨hfound.1, rfl, fun o ho => ?_⟩
    have haddr : line.base + o - addr = o - cache.lineOffset addr :=
      calc line.base + o - addr
          = cache.lineBase addr + o - (cache.lineBase addr + cache.lineOffset addr) := by
            rw [cache.lineBase_add_lineOffset addr, hfound.2]
        _ = o - cache.lineOffset addr := add_sub_add_left_eq_sub _ _ _
    simp only [writeLineValue, Ram.store, haddr]
    rw [h.bytes line hline hfound.1 o ho]
  · simp only [Bool.and_eq_true, beq_iff_eq, not_and] at hfound
    refine fun hvalid => ⟨hvalid, rfl, fun o ho => ?_⟩
    rw [h.bytes line hline hvalid o ho, Ram.store, if_neg]
    intro hwritten
    have hin : cache.inLine line (line.base + o) := by
      unfold inLine
      rwa [BitVec.add_comm, BitVec.add_sub_cancel]
    obtain ⟨-, hlt, hbound⟩ := contains_lt hcacheable.access hwritten
    have hbase := h.base_of_inLine hline hvalid hin (by omega)
    rw [hcacheable.lineBase_eq hwritten] at hbase
    exact hfound hvalid hbase.symm

theorem Coherent.store_invalidated (h : Coherent cache ram)
    (hram : contains addr size) (value : BitVec 64) :
    Coherent (cache.invalidateRange addr (BitVec.ofNat 64 size)) (ram.store addr value size) := by
  have hsize := contains_size_le hram
  have hbase : memBase.toNat = 0x80000000 := rfl
  have hmem : memSize = 0x8000000 := rfl
  have hnat : (BitVec.ofNat 64 size).toNat = size := by
    rw [toNat_ofNat]
    omega
  have hsum : addr.toNat + size < 2 ^ 63 := by
    simp only [Ram.contains, decide_eq_true_eq] at hram
    omega
  have hzero : BitVec.ofNat 64 size ≠ 0 := by
    intro heq
    have := congrArg BitVec.toNat heq
    rw [hnat] at this
    simp at this
    omega
  have hsat : ¬ BitVec.allOnes 64 - addr < BitVec.ofNat 64 size := by
    rw [lt_def, toNat_sub, hnat, toNat_allOnes]
    omega
  unfold L1Cache.invalidateRange
  rw [if_neg hzero]
  refine h.map fun line hline => ?_
  split_ifs with hoverlap
  · exact False.elim
  refine fun hvalid => ⟨hvalid, rfl, fun o ho => ?_⟩
  rw [h.bytes line hline hvalid o ho, Ram.store, if_neg]
  intro hwritten
  obtain ⟨hle, hlt, -⟩ := contains_lt hram hwritten
  have hlineRam := h.inRam line hline hvalid
  simp only [Ram.contains, decide_eq_true_eq] at hlineRam
  apply hoverlap
  rw [lt_def] at ho
  rw [toNat_add] at hle hlt
  refine ⟨hvalid, ?_, ?_⟩
  · rw [lt_def, toNat_add]
    omega
  rw [lt_def, toNat_add, hnat]
  omega

/-- What a store through the cache does to the bus and the cache. -/
structure StoresAs (cache : L1Cache) (bus : Bus D) (addr value : BitVec 64) (size : ℕ)
    (r : Bool × L1Cache × Bus D) : Prop where
  stored : r.1 = (bus.tryStore addr value size).1
  bus_eq : r.2.2 = (bus.tryStore addr value size).2
  coherent : Coherent r.2.1 r.2.2.ram
  lineSize : r.2.1.lineSizeBytes = cache.lineSizeBytes
  enabled : r.2.1.enabled = cache.enabled

theorem invalidateRange_params (cache : L1Cache) (addr size : BitVec 64) :
    (cache.invalidateRange addr size).lineSizeBytes = cache.lineSizeBytes ∧
      (cache.invalidateRange addr size).enabled = cache.enabled := by
  unfold L1Cache.invalidateRange
  by_cases hzero : size = 0
  · rw [if_pos hzero]
    exact ⟨rfl, rfl⟩
  rw [if_neg hzero]
  exact ⟨rfl, rfl⟩

theorem Coherent.store (h : Coherent cache bus.ram) (addr value : BitVec 64) (size : ℕ)
    (hspared : ¬ contains addr size → ∀ a, cache.Holds a →
      (bus.tryStore addr value size).2.ram a = bus.ram a) :
    StoresAs cache bus addr value size (cache.store bus addr value size) := by
  unfold L1Cache.store
  by_cases hbypass : cache.shouldBypass D addr size
  · rw [if_pos hbypass]
    obtain ⟨hlineSize, henabled⟩ := cache.invalidateRange_params addr (BitVec.ofNat 64 size)
    by_cases hram : contains addr size
    · rw [Bus.tryStore_ram bus value hram]
      have hcoherent := h.store_invalidated hram value
      exact ⟨by rw [Bus.tryStore_ram bus value hram], by rw [Bus.tryStore_ram bus value hram],
        hcoherent, hlineSize, henabled⟩
    have hsame := h.mono (hspared hram)
    cases hstore : bus.tryStore addr value size with
    | mk stored bus' =>
      rw [hstore] at hsame
      cases stored with
      | true =>
        exact ⟨by rw [hstore], by rw [hstore], hsame.invalidateRange _ _, hlineSize, henabled⟩
      | false => exact ⟨by rw [hstore], by rw [hstore], hsame, rfl, rfl⟩
  · rw [if_neg hbypass]
    have hcacheable := cacheable_of_not_bypass (by simpa using hbypass)
    have hstore := Bus.tryStore_ram bus value hcacheable.access
    cases hfind : cache.findLine (cache.lineBase addr) with
    | none =>
      simp only [hstore, hfind]
      exact ⟨by rw [hstore], by rw [hstore],
        h.store_missed hcacheable (fresh_of_findLine_none hfind) value, rfl, rfl⟩
    | some line =>
      have htouched : Cacheable D (cache.touch (cache.lineBase addr)) addr size :=
        ⟨hcacheable.access, hcacheable.line, hcacheable.fits, hcacheable.size_le⟩
      simp only [hstore, hfind]
      exact ⟨by rw [hstore], by rw [hstore],
        (h.touch (cache.lineBase addr)).writeFound htouched value, rfl, rfl⟩

end L1Cache

end VisualCpu
