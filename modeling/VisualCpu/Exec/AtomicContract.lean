import VisualCpu.Exec.VectorOps

/-!
# Atomic memory instructions

Load-reserved, store-conditional and the read-modify-write operations. An
atomic is applied at the commit boundary: the value for `rd` exists only then.
-/

namespace VisualCpu

namespace AtomicOps

/-- The operation selected by `funct5`, or `none` for an unused code. -/
def decodeAtomicKind (insn : Insn) : AtomicKind :=
  match insn.funct5 with
  | 0x02 => .loadReserved
  | 0x03 => .storeConditional
  | 0x01 => .swap
  | 0x00 => .add
  | 0x04 => .xor
  | 0x0C => .and
  | 0x08 => .or
  | 0x10 => .min
  | 0x14 => .max
  | 0x18 => .minUnsigned
  | 0x1C => .maxUnsigned
  | _ => .none

def loadResultValue (value : BitVec 64) (size : ℕ) : BitVec 64 :=
  if size = 4 then (value.setWidth 32).signExtend 64 else value

def storeMaskedValue (value : BitVec 64) (size : ℕ) : BitVec 64 :=
  if size = 4 then (value.setWidth 32).setWidth 64 else value

/-- The value stored by a read-modify-write operation of width `w`. -/
def combine {w : ℕ} (kind : AtomicKind) (loaded operand : BitVec w) : BitVec w :=
  match kind with
  | .swap => operand
  | .add => loaded + operand
  | .xor => loaded ^^^ operand
  | .and => loaded &&& operand
  | .or => loaded ||| operand
  | .min => if loaded.slt operand then loaded else operand
  | .max => if operand.slt loaded then loaded else operand
  | .minUnsigned => if loaded.ult operand then loaded else operand
  | .maxUnsigned => if operand.ult loaded then loaded else operand
  | .none | .loadReserved | .storeConditional => loaded

def computeAmoResult (kind : AtomicKind) (loaded operand : BitVec 64) (size : ℕ) : BitVec 64 :=
  if size = 4 then (combine kind (loaded.setWidth 32) (operand.setWidth 32)).setWidth 64
  else combine kind loaded operand

def isMisaligned (addr : BitVec 64) (size : ℕ) : Bool :=
  if size = 4 then addr &&& 0x3 != 0 else addr &&& 0x7 != 0

def accessCrossesPage (addr : BitVec 64) (size : ℕ) : Bool :=
  decide (4096 < (addr &&& 0xFFF).toNat + size)

def accessType (kind : AtomicKind) : AccessType :=
  if kind = .loadReserved then .load else .store

end AtomicOps

open AtomicOps in
def buildAtomicEffects (insn : Insn) (rs1v rs2v : BitVec 64) : InsnEffects :=
  let kind := decodeAtomicKind insn
  if kind = .none then illegalInstructionEffect insn.raw
  else if insn.funct3 ≠ 2 ∧ insn.funct3 ≠ 3 then illegalInstructionEffect insn.raw
  else if kind = .loadReserved ∧ insn.rs2 ≠ 0 then illegalInstructionEffect insn.raw
  else
    { atomic :=
        { kind, addr := rs1v, storeValue := rs2v, rd := insn.rd
          size := if insn.funct3 = 2 then 4 else 8
          aq := insn.aq != 0
          rl := insn.rl != 0 } }

/-- What `apply_atomic_request` reports beside the trap it may ask for. -/
structure AtomicApplyResult where
  trap : Option TrapRequest := none
  rdWrite : Option RegWrite := none
  platformStateChanged : Bool := false
  memoryObserved : Bool := false

namespace Cpu

open AtomicOps

variable {D : Type} [Devices D] (cpu : Cpu D)

/-- `invalidate_reservation_for_store`: a store clears an overlapping
reservation; one that cannot be placed in physical memory clears any. -/
def invalidateReservationForStore (addr : BitVec 64) (size : ℕ) : Cpu D :=
  if size = 0 ∨ accessCrossesPage addr size then cpu.clearReservation
  else
    match cpu.translateResult addr .store false with
    | (.ok paddr, cpu) => cpu.invalidateReservation paddr size
    | (.error _, cpu) => cpu.clearReservation

variable (request : AtomicRequest)

def applyLoadReserved (paddr : BitVec 64) : AtomicApplyResult × Cpu D :=
  match cpu.tryLoad paddr request.size with
  | (none, cpu) =>
    ({ trap := some (AccessType.load.accessFault request.addr) }, cpu)
  | (some loaded, cpu) =>
    ({ rdWrite := some ⟨request.rd, loadResultValue loaded request.size⟩
       platformStateChanged := cpu.addressSpace.bus.lastAccessMmio
       memoryObserved := true }, cpu.setReservation paddr request.size)

def applyStoreConditional (paddr : BitVec 64) :
    AtomicApplyResult × Cpu D :=
  if !cpu.reservationMatches paddr request.size then
    ({ rdWrite := some ⟨request.rd, 1⟩ }, cpu.clearReservation)
  else
    match cpu.clearReservation.tryStore paddr (storeMaskedValue request.storeValue request.size)
        request.size with
    | (false, cpu) =>
      ({ trap := some (AccessType.store.accessFault request.addr) }, cpu)
    | (true, cpu) =>
      ({ rdWrite := some ⟨request.rd, 0⟩
         platformStateChanged := cpu.addressSpace.bus.lastAccessMmio
         memoryObserved := true }, cpu)

def applyReadModifyWrite (paddr : BitVec 64) :
    AtomicApplyResult × Cpu D :=
  match cpu.tryLoad paddr request.size with
  | (none, cpu) =>
    ({ trap := some (AccessType.store.accessFault request.addr) }, cpu)
  | (some loaded, cpu) =>
    let loadChanged := cpu.addressSpace.bus.lastAccessMmio
    let stored := computeAmoResult request.kind loaded request.storeValue request.size
    match cpu.tryStore paddr (storeMaskedValue stored request.size) request.size with
    | (false, cpu) =>
      ({ trap := some (AccessType.store.accessFault request.addr)
         platformStateChanged := loadChanged }, cpu)
    | (true, cpu) =>
      ({ rdWrite := some ⟨request.rd, loadResultValue loaded request.size⟩
         platformStateChanged := loadChanged || cpu.addressSpace.bus.lastAccessMmio
         memoryObserved := true }, cpu.invalidateReservation paddr request.size)

def applyAtomicRequest : AtomicApplyResult × Cpu D :=
  if request.kind = .none then ({}, cpu)
  else if (request.size ≠ 4 ∧ request.size ≠ 8) ∨ isMisaligned request.addr request.size then
    ({ trap := some ((accessType request.kind).accessFault request.addr) }, cpu)
  else
    match cpu.translateResult request.addr (accessType request.kind) true with
    | (.error fault, cpu) => ({ trap := some fault }, cpu)
    | (.ok paddr, cpu) =>
      match request.kind with
      | .loadReserved => cpu.applyLoadReserved request paddr
      | .storeConditional => cpu.applyStoreConditional request paddr
      | _ => cpu.applyReadModifyWrite request paddr

end Cpu

end VisualCpu
