import VisualCpu.Mem.Bus

/-!
# The optional level-one data cache

A write-through cache of whole lines with least-recently-used replacement. It
serves only scalar data accesses to RAM; other accesses bypass it. The hit
statistics are not modelled, nothing reads them back.
-/

namespace VisualCpu

structure CacheLine where
  valid : Bool
  base : BitVec 64
  lastUsed : ℕ
  /-- The bytes of the line by offset. -/
  bytes : BitVec 64 → BitVec 8

structure L1Cache where
  enabled : Bool
  lineSizeBytes : BitVec 64
  lines : List CacheLine
  useClock : ℕ

namespace L1Cache

/-- The cache of a machine that never enables it. -/
def disabled : L1Cache := ⟨false, 64, [], 0⟩

variable (cache : L1Cache)

def validSize (size : ℕ) : Bool := size == 1 || size == 2 || size == 4 || size == 8

def lineBase (addr : BitVec 64) : BitVec 64 := addr - addr % cache.lineSizeBytes

def lineOffset (addr : BitVec 64) : BitVec 64 := addr - cache.lineBase addr

def accessFitsOneLine (addr : BitVec 64) (size : ℕ) : Bool :=
  decide (cache.lineOffset addr + BitVec.ofNat 64 size ≤ cache.lineSizeBytes)

/-- Accesses that go straight to the bus. -/
def shouldBypass (D : Type) [Devices D] (addr : BitVec 64) (size : ℕ) : Bool :=
  if !cache.enabled || cache.lines.isEmpty || !validSize size || !cache.accessFitsOneLine addr size
  then true
  else if Bus.describeSpan D addr size ≠ some .ram then true
  else Bus.describeSpan D (cache.lineBase addr) cache.lineSizeBytes.toNat != some .ram

def findLine (base : BitVec 64) : Option CacheLine :=
  cache.lines.find? fun line => line.valid && line.base == base

/-- Replace the first line that satisfies `p`. -/
def updateFirst (p : CacheLine → Bool) (f : CacheLine → CacheLine) :
    List CacheLine → List CacheLine
  | [] => []
  | line :: rest => if p line then f line :: rest else line :: updateFirst p f rest

/-- Advance the use clock and stamp the line with the given base. -/
def touch (base : BitVec 64) : L1Cache :=
  { cache with
    useClock := cache.useClock + 1
    lines := updateFirst (fun line => line.valid && line.base == base)
      (fun line => { line with lastUsed := cache.useClock + 1 }) cache.lines }

def readLineValue (line : CacheLine) (offset : BitVec 64) : ℕ → BitVec 64
  | 0 => 0
  | size + 1 =>
    (line.bytes offset).setWidth 64 ||| readLineValue line (offset + 1) size <<< 8

def writeLineValue (line : CacheLine) (offset value : BitVec 64) (size : ℕ) : CacheLine :=
  { line with bytes := fun o =>
      if (o - offset).toNat < size then Ram.byteOf value (o - offset).toNat else line.bytes o }

/-- Index of the line to evict: an invalid one, else the least recently used. -/
def selectVictim : ℕ :=
  match cache.lines.findIdx? (fun line => !line.valid) with
  | some i => i
  | none =>
    (cache.lines.zipIdx.foldl
      (fun best next => if next.1.lastUsed < best.1.lastUsed then next else best)
      ((cache.lines.headD ⟨false, 0, 0, fun _ => 0⟩), 0)).2

variable {D : Type} [Devices D]

def refillBytes (bus : Bus D) (base : BitVec 64) (bytes : BitVec 64 → BitVec 8)
    (offset : BitVec 64) :
    ℕ → Option (BitVec 64 → BitVec 8) × Bus D
  | 0 => (some bytes, bus)
  | count + 1 =>
    match bus.tryLoad (base + offset) 1 with
    | (some byte, bus) =>
      refillBytes bus base (Function.update bytes offset (byte.setWidth 8)) (offset + 1) count
    | (none, bus) => (none, bus)

/-- Fetch a line into the victim's place; a failed read leaves the victim invalid. -/
def refillLine (bus : Bus D) (base : BitVec 64) : Option CacheLine × L1Cache × Bus D :=
  let victim := cache.selectVictim
  match refillBytes bus base (fun _ => 0) 0 cache.lineSizeBytes.toNat with
  | (some bytes, bus) =>
    let line := ⟨true, base, cache.useClock + 1, bytes⟩
    (some line,
      { cache with useClock := cache.useClock + 1, lines := cache.lines.set victim line }, bus)
  | (none, bus) =>
    (none, { cache with lines := cache.lines.modify victim ({ · with valid := false, base }) }, bus)

/-- `SimpleL1DataCache::load`. -/
def load (bus : Bus D) (addr : BitVec 64) (size : ℕ) : Option (BitVec 64) × L1Cache × Bus D :=
  if cache.shouldBypass D addr size then
    let (value, bus) := bus.tryLoad addr size
    (value, cache, bus)
  else
    match cache.findLine (cache.lineBase addr) with
    | some line =>
      (some (readLineValue line (cache.lineOffset addr) size), cache.touch (cache.lineBase addr),
        bus)
    | none =>
      match cache.refillLine bus (cache.lineBase addr) with
      | (some line, cache', bus) =>
        (some (readLineValue line (cache.lineOffset addr) size), cache', bus)
      | (none, cache', bus) => (none, cache', bus)

/-- `SimpleL1DataCache::invalidate_range`. -/
def invalidateRange (addr size : BitVec 64) : L1Cache :=
  if size = 0 then cache
  else
    let accessEnd := if BitVec.allOnes 64 - addr < size then BitVec.allOnes 64 else addr + size
    { cache with lines := cache.lines.map fun line =>
        if line.valid ∧ addr < line.base + cache.lineSizeBytes ∧ line.base < accessEnd then
          { line with valid := false }
        else line }

/-- Update the bytes of the line found at `base`. -/
def writeFound (base addr value : BitVec 64) (size : ℕ) : L1Cache :=
  let found := fun line : CacheLine => line.valid && line.base == base
  let write := fun line => writeLineValue line (cache.lineOffset addr) value size
  { cache with lines := updateFirst found write cache.lines }

/-- `SimpleL1DataCache::store`. -/
def store (bus : Bus D) (addr value : BitVec 64) (size : ℕ) : Bool × L1Cache × Bus D :=
  if cache.shouldBypass D addr size then
    match bus.tryStore addr value size with
    | (true, bus) => (true, cache.invalidateRange addr (BitVec.ofNat 64 size), bus)
    | (false, bus) => (false, cache, bus)
  else
    match bus.tryStore addr value size with
    | (false, bus) => (false, cache, bus)
    | (true, bus) =>
      let base := cache.lineBase addr
      match cache.findLine base with
      | none => (true, cache, bus)
      | some _ => (true, (cache.touch base).writeFound base addr value size, bus)

end L1Cache

end VisualCpu
