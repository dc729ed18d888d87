import VisualCpu.Exec.Semantics
import VisualCpu.Mem.WriteLog

/-!
# Operations of the machine and their writes

Both backends drive the processor through a few operations: translations, fetches
and loads, the commit boundary, traps, and the platform tick. Devices write memory
by themselves in between. `GuestOp` lists these operations, `GuestOp.run` carries
one out and `GuestOp.log` gives the writes that it makes.
-/

namespace VisualCpu

namespace Cpu

open AtomicOps

variable {D : Type} [Devices D] (cpu : Cpu D)

def translateLog (vaddr : BitVec 64) (type : AccessType) (updateAccessBits : Bool) :
    List MemoryEvent :=
  cpu.addressSpace.translateLog cpu.accessContext vaddr type updateAccessBits

def loadLog (addr : BitVec 64) (size : ℕ) : List MemoryEvent :=
  AddressSpace.accessFromLog cpu.accessContext .load size cpu.addressSpace addr size

def storeLog (agent : WriteAgent) (addr value : BitVec 64) (size : ℕ) : List MemoryEvent :=
  AddressSpace.storeFromLog cpu.accessContext agent size cpu.addressSpace addr value size

def fetchPartLog (pc : BitVec 64) (size : ℕ) : List MemoryEvent :=
  AddressSpace.accessFromLog cpu.accessContext .instruction size cpu.addressSpace pc size

/-- The writes of `fetchInstruction`. -/
def fetchLog (pc : BitVec 64) : List MemoryEvent :=
  cpu.fetchPartLog pc 2 ++
    match cpu.fetch16Result pc with
    | (.error _, _) => []
    | (.ok half, cpu) =>
      if ((half.setWidth 16).setWidth 32 : BitVec 32) &&& 3 = 3 then cpu.fetchPartLog pc 4 else []

def loadVectorBytesLog (addr : BitVec 64) : ℕ → ℕ → Cpu D → List MemoryEvent
  | 0, _, _ => []
  | count + 1, i, cpu =>
    cpu.loadLog (addr + BitVec.ofNat 64 i) 1 ++
      match cpu.loadResult (addr + BitVec.ofNat 64 i) 1 with
      | (.error _, _) => []
      | (.ok _, cpu) => loadVectorBytesLog addr count (i + 1) cpu

def storeVectorBytesLog (addr : BitVec 64) (reg : VectorReg) : ℕ → ℕ → Cpu D → List MemoryEvent
  | 0, _, _ => []
  | count + 1, i, cpu =>
    cpu.storeLog .vector (addr + BitVec.ofNat 64 i) ((VectorOps.byteAt reg i).setWidth 64) 1 ++
      match cpu.storeResult (addr + BitVec.ofNat 64 i) ((VectorOps.byteAt reg i).setWidth 64) 1 with
      | (some _, _) => []
      | (none, cpu) => storeVectorBytesLog addr reg count (i + 1) cpu

/-- The writes of `apply_vector_request`; the validation of a span writes nothing. -/
def vectorLog (request : VectorRequest) : List MemoryEvent :=
  if !VectorState.isValidConfig cpu.core.vector.sewBytes cpu.core.vector.vl true then []
  else if cpu.core.vector.vl = 0 then []
  else
    match request.kind with
    | .load =>
      match validateVectorMemorySpan .load cpu.vectorBytes cpu request.addr none with
      | (some _, _) => []
      | (none, cpu') => loadVectorBytesLog request.addr cpu.vectorBytes 0 cpu'
    | .store =>
      match validateVectorMemorySpan .store cpu.vectorBytes cpu request.addr none with
      | (some _, _) => []
      | (none, cpu') =>
        storeVectorBytesLog request.addr (cpu.core.vector.readReg request.vs2)
          cpu.vectorBytes 0 cpu'
    | _ => []

variable (request : AtomicRequest)

def loadReservedLog (paddr : BitVec 64) : List MemoryEvent :=
  match cpu.tryLoad paddr request.size with
  | (none, _) => []
  | (some _, _) => [.reserve paddr request.size]

def storeConditionalLog (paddr : BitVec 64) : List MemoryEvent :=
  if !cpu.reservationMatches paddr request.size then []
  else
    [.ofStore .conditional cpu.addressSpace paddr
      (storeMaskedValue request.storeValue request.size) request.size]

def readModifyWriteLog (paddr : BitVec 64) : List MemoryEvent :=
  match cpu.tryLoad paddr request.size with
  | (none, _) => []
  | (some loaded, cpu) =>
    let stored := computeAmoResult request.kind loaded request.storeValue request.size
    [.ofStore .readModifyWrite cpu.addressSpace paddr (storeMaskedValue stored request.size)
      request.size]

/-- The writes of `apply_atomic_request`. -/
def atomicLog : List MemoryEvent :=
  if request.kind = .none then []
  else if (request.size ≠ 4 ∧ request.size ≠ 8) ∨ isMisaligned request.addr request.size then []
  else
    cpu.translateLog request.addr (accessType request.kind) true ++
      match cpu.translateResult request.addr (accessType request.kind) true with
      | (.error _, _) => []
      | (.ok paddr, cpu) =>
        match request.kind with
        | .loadReserved => cpu.loadReservedLog request paddr
        | .storeConditional => cpu.storeConditionalLog request paddr
        | _ => cpu.readModifyWriteLog request paddr

variable (effects : InsnEffects)

/-- The writes of the scalar access at the commit boundary. -/
def commitMemoryLog : List MemoryEvent :=
  if effects.mem.kind = .load ∧ effects.rdWrite = none ∧ effects.fpWrite = none then
    cpu.loadLog effects.mem.addr effects.mem.size
  else if effects.mem.kind = .store then
    cpu.storeLog .scalar effects.mem.addr effects.mem.storeValue effects.mem.size
  else []

def commitVectorLog : List MemoryEvent :=
  cpu.vectorLog effects.vector ++
    match cpu.applyVectorRequest effects.vector with
    | (.error _, _) => [.trap]
    | (.ok _, _) => []

def commitAtomicLog : List MemoryEvent :=
  if effects.atomic.kind = .none then cpu.commitVectorLog effects
  else
    cpu.atomicLog effects.atomic ++
      let (result, cpu) := cpu.applyAtomicRequest effects.atomic
      match result.trap with
      | some _ => [.trap]
      | none => cpu.commitVectorLog effects

/-- The writes of `apply_commit_boundary`, and its trap. -/
def commitLog : List MemoryEvent :=
  match effects.trap with
  | some _ => [.trap]
  | none =>
    cpu.commitMemoryLog effects ++
      match cpu.commitMemory effects with
      | (.error _, _) => [.trap]
      | (.ok (effects, _), cpu) => cpu.commitAtomicLog effects

end Cpu

/-- One operation of a backend, a device or the host on the processor. -/
inductive GuestOp where
  | translate (vaddr : BitVec 64) (type : AccessType) (updateAccessBits : Bool)
  | fetch (pc : BitVec 64)
  | load (addr : BitVec 64) (size : ℕ)
  | commit (input : CommitBoundaryInput)
  | trap (cause tval : BitVec 64)
  /-- Everything else an instruction or a backend does to the registers. -/
  | registers (core : CoreState) (csr : CsrFile) (timerPendingMask : BitVec 64) (flushTlb : Bool)
  | tick
  | dmaWrite (transaction : DmaTransaction) (data : Option (List (BitVec 8)))
  | invalidateRange (addr size : BitVec 64)

/-- What an operation returns to its caller. -/
inductive GuestResult where
  | none
  | access (result : Except TrapRequest (BitVec 64))
  | fetched (result : Except TrapRequest (BitVec 32))
  | committed (retired trapTaken : Bool) (nextPc : BitVec 64)
  | transferred (result : Except DmaFault Unit)
  | events (events : PlatformEvents)

namespace GuestOp

variable {D : Type} [Devices D]

def setRegisters (cpu : Cpu D) (core : CoreState) (csr : CsrFile) (timerPendingMask : BitVec 64)
    (flushTlb : Bool) : Cpu D where
  core := core
  csr := csr
  trap := { cpu.trap with timerPendingMask }
  addressSpace := if flushTlb then cpu.addressSpace.flushTlb else cpu.addressSpace

def setBus (cpu : Cpu D) (bus : Bus D) : Cpu D :=
  { cpu with addressSpace := { cpu.addressSpace with bus } }

def run (cpu : Cpu D) : GuestOp → GuestResult × Cpu D
  | translate vaddr type updateAccessBits =>
    let (result, cpu) := cpu.translateResult vaddr type updateAccessBits
    (.access result, cpu)
  | fetch pc =>
    let (result, cpu) := cpu.fetchInstruction pc
    (.fetched result, cpu)
  | load addr size =>
    let (result, cpu) := cpu.loadResult addr size
    (.access result, cpu)
  | commit input =>
    let (result, cpu) := cpu.applyCommitBoundary input
    (.committed result.retired result.trapTaken result.nextPc, cpu)
  | trap cause tval => (.none, cpu.enterTrap cause tval)
  | registers core csr timerPendingMask flushTlb =>
    (.none, setRegisters cpu core csr timerPendingMask flushTlb)
  | tick =>
    let (events, cpu) := cpu.tickBus
    (.events events, cpu)
  | dmaWrite transaction data =>
    let (result, bus) := cpu.addressSpace.bus.dmaWrite transaction data
    (.transferred result, setBus cpu bus)
  | invalidateRange addr size =>
    (.none, { cpu with addressSpace :=
      { cpu.addressSpace with l1 := cpu.addressSpace.l1.invalidateRange addr size } })

/-- The writes of an operation in the order they are made. -/
def log (cpu : Cpu D) : GuestOp → List MemoryEvent
  | translate vaddr type updateAccessBits => cpu.translateLog vaddr type updateAccessBits
  | fetch pc => cpu.fetchLog pc
  | load addr size => cpu.loadLog addr size
  | commit input => cpu.commitLog input.effects
  | trap _ _ => [.trap]
  | registers _ _ _ _ => []
  | tick =>
    [.write .dma cpu.addressSpace.l1 0 0 {a | cpu.tickBus.2.addressSpace.bus.ram a ≠
      cpu.addressSpace.bus.ram a}]
  | dmaWrite transaction data =>
    match cpu.addressSpace.bus.dmaWrite transaction data with
    | (.ok _, _) =>
      [.write .dma cpu.addressSpace.l1 transaction.addr transaction.size
        (MemoryEvent.span transaction.addr transaction.size)]
    | (.error _, _) => []
  | invalidateRange _ _ => []

/-- The state after a list of operations. -/
def runAll : Cpu D → List GuestOp → Cpu D
  | cpu, [] => cpu
  | cpu, op :: ops => runAll (op.run cpu).2 ops

/-- The results of a list of operations. -/
def results : Cpu D → List GuestOp → List GuestResult
  | _, [] => []
  | cpu, op :: ops => (op.run cpu).1 :: results (op.run cpu).2 ops

/-- The writes of a list of operations. -/
def logAll : Cpu D → List GuestOp → List MemoryEvent
  | _, [] => []
  | cpu, op :: ops => op.log cpu ++ logAll (op.run cpu).2 ops

end GuestOp

end VisualCpu
