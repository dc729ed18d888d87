import VisualCpu.Arch.CoreState

/-!
# Physical memory and the bus

RAM is modelled byte by byte. The memory-mapped devices are a parameter: a type
of device states with the operations of `Device`, where the address ranges are
fixed and loads, stores and ticks may change the state (stores and ticks may
also write RAM, as DMA does). The bus keeps one bit of `last_access`, the only
part of it that the processor reads back.
-/

namespace VisualCpu

def memBase : BitVec 64 := 0x80000000
def memSize : ℕ := 128 * 1024 * 1024

structure PlatformEvents where
  timerInterruptPending : Bool := false
  machineExternalInterruptPending : Bool := false
  supervisorExternalInterruptPending : Bool := false
deriving DecidableEq

/-- RAM contents by physical address; only the bytes inside RAM are meaningful. -/
abbrev Ram := BitVec 64 → BitVec 8

namespace Ram

/-- `Device::contains` for the RAM range. -/
def contains (addr : BitVec 64) (size : ℕ) : Bool :=
  decide (0 < size ∧ memBase.toNat ≤ addr.toNat ∧ addr.toNat - memBase.toNat < memSize ∧
    size ≤ memSize - (addr.toNat - memBase.toNat))

/-- Little-endian value of the `size` bytes from `addr`. -/
def load (ram : Ram) (addr : BitVec 64) : ℕ → BitVec 64
  | 0 => 0
  | size + 1 => (ram addr).setWidth 64 ||| load ram (addr + 1) size <<< 8

/-- Byte `i` of a little-endian value. -/
def byteOf (value : BitVec 64) (i : ℕ) : BitVec 8 := (value >>> (8 * i)).setWidth 8

/-- RAM after writing the low `size` bytes of `value` at `addr`. -/
def store (ram : Ram) (addr value : BitVec 64) (size : ℕ) : Ram := fun a =>
  if (a - addr).toNat < size then byteOf value (a - addr).toNat else ram a

def storeBytes (ram : Ram) (addr : BitVec 64) (bytes : List (BitVec 8)) : Ram := fun a =>
  bytes[(a - addr).toNat]?.getD (ram a)

end Ram

/-- The request of a transfer that a device makes on its own. -/
structure DmaTransaction where
  initiator : String
  addr : BitVec 64
  size : ℕ

inductive DmaFault where
  | invalidArguments | unmapped | spanCrossesRegionBoundary | sideEffectRegion
deriving DecidableEq

/-- The memory-mapped devices attached to the bus, with states in `D`. -/
class Devices (D : Type) where
  /-- Some device maps the whole range of `size` bytes from the address. -/
  contains : BitVec 64 → ℕ → Bool
  /-- A load returns no value when the device rejects the access. -/
  load : D → BitVec 64 → ℕ → Option (BitVec 64) × D
  store : D → Ram → BitVec 64 → BitVec 64 → ℕ → Bool × D × Ram
  tick : D → Ram → PlatformEvents × D × Ram
  peekEvents : D → PlatformEvents
  /-- The time register of the timer device, when one is attached. -/
  mtime : D → Option (BitVec 64)

/-- A bus with nothing but RAM. -/
instance : Devices Unit where
  contains _ _ := false
  load d _ _ := (none, d)
  store d ram _ _ _ := (false, d, ram)
  tick d ram := ({}, d, ram)
  peekEvents _ := {}
  mtime _ := none

inductive PhysicalRegionKind where
  | ram | mmio | unmapped
deriving DecidableEq

structure Bus (D : Type) where
  ram : Ram
  devices : D
  /-- The last access succeeded in reaching a memory-mapped device. -/
  lastAccessMmio : Bool

namespace Bus

variable {D : Type} [Devices D] (bus : Bus D)

/-- `Bus::describe_region(addr, size).kind`. -/
def describeRegion (D : Type) [Devices D] (addr : BitVec 64) (size : ℕ) : PhysicalRegionKind :=
  if Ram.contains addr size then .ram
  else if 0 < size ∧ Devices.contains D addr size then .mmio
  else .unmapped

/-- `Bus::describe_span(addr, bytes)`: the region of a span inside one device. -/
def describeSpan (D : Type) [Devices D] (addr : BitVec 64) (bytes : ℕ) :
    Option PhysicalRegionKind :=
  if describeRegion D addr 1 = .unmapped then none
  else
    match describeRegion D addr bytes with
    | .unmapped => none
    | kind => some kind

/-- `Bus::try_load_observed`. -/
def tryLoad (addr : BitVec 64) (size : ℕ) : Option (BitVec 64) × Bus D :=
  match describeRegion D addr size with
  | .ram => (some (bus.ram.load addr size), { bus with lastAccessMmio := false })
  | .mmio =>
    let (value, devices) := Devices.load bus.devices addr size
    (value, { bus with devices, lastAccessMmio := true })
  | .unmapped => (none, { bus with lastAccessMmio := false })

/-- `Bus::try_store_observed`. -/
def tryStore (addr value : BitVec 64) (size : ℕ) : Bool × Bus D :=
  match describeRegion D addr size with
  | .ram => (true, { bus with ram := bus.ram.store addr value size, lastAccessMmio := false })
  | .mmio =>
    let (stored, devices, ram) := Devices.store bus.devices bus.ram addr value size
    (stored, { ram, devices, lastAccessMmio := true })
  | .unmapped => (false, { bus with lastAccessMmio := false })

/-- `Bus::dma_write`: a device writes bytes to RAM; every other span is refused. -/
def dmaWrite (transaction : DmaTransaction) (data : Option (List (BitVec 8))) :
    Except DmaFault Unit × Bus D :=
  if transaction.initiator = "" then (.error .invalidArguments, bus)
  else if transaction.size = 0 then (.ok (), bus)
  else
    match data with
    | none => (.error .invalidArguments, bus)
    | some bytes =>
      match describeSpan D transaction.addr transaction.size with
      | none =>
        (.error (if describeRegion D transaction.addr 1 = .unmapped then .unmapped
          else .spanCrossesRegionBoundary), bus)
      | some .ram =>
        (.ok (), { bus with ram :=
          bus.ram.storeBytes transaction.addr (bytes.take transaction.size) })
      | some _ => (.error .sideEffectRegion, bus)

def tick : PlatformEvents × Bus D :=
  let (events, devices, ram) := Devices.tick bus.devices bus.ram
  (events, { bus with devices, ram })

def peekEvents : PlatformEvents := Devices.peekEvents bus.devices

def mtime : Option (BitVec 64) := Devices.mtime bus.devices

end Bus

end VisualCpu
