import VisualCpu.Mem.Bus
import VisualCpu.Isa.Describe

/-!
# Reorder buffer, load-store queue and physical registers

The in-order bookkeeping of the pipeline. A physical register that was never
written reads as zero and not ready, which is what the growing array of
`physical_register_file.cpp` returns beyond its end. Index zero stands for "no
entry" in the load-store queue, as in the source.
-/

namespace VisualCpu

structure PhysicalRegister where
  value : BitVec 64
  ready : Bool
deriving DecidableEq

structure PhysicalRegisterFile where
  entries : ℕ → PhysicalRegister

namespace PhysicalRegisterFile

def reset : PhysicalRegisterFile := ⟨fun phys => ⟨0, decide (phys < 32)⟩⟩

variable (file : PhysicalRegisterFile)

def read (phys : ℕ) : BitVec 64 := (file.entries phys).value

def isReady (phys : ℕ) : Bool := (file.entries phys).ready

def setPending (phys : ℕ) : PhysicalRegisterFile :=
  if phys = 0 then file
  else ⟨Function.update file.entries phys { file.entries phys with ready := false }⟩

def write (phys : ℕ) (value : BitVec 64) : PhysicalRegisterFile :=
  if phys = 0 then ⟨Function.update file.entries 0 ⟨0, true⟩⟩
  else ⟨Function.update file.entries phys ⟨value, true⟩⟩

end PhysicalRegisterFile

structure RobEntry where
  (index sequenceId : ℕ)
  pc : BitVec 64
  raw : BitVec 32
  insnSize : BitVec 64
  (archRd physRd : ℕ)
  lsqIndex : ℕ := 0
  ready : Bool := false
  effects : InsnEffects := {}
deriving DecidableEq

/-- What an older vector instruction in flight means for a younger one. -/
structure OlderVectorDependency where
  blocks : Bool := false
  vs1 : Option VectorReg := none
  vs2 : Option VectorReg := none

structure ReorderBuffer where
  entries : List RobEntry
  nextIndex : ℕ

namespace ReorderBuffer

def empty : ReorderBuffer := ⟨[], 1⟩

/-- A word whose instruction uses the vector registers. -/
def isVectorRaw (raw : BitVec 32) : Bool :=
  let insn := { decode raw with raw }
  if (describeMemory insn).valid then false else isVectorOpcode insn.opcode

def writesFpDestination (insn : Insn) : Bool := describeRd insn == .fpr

variable (rob : ReorderBuffer)

/-- Append an entry under a fresh index, which is returned. -/
def allocate (entry : ℕ → RobEntry) : ℕ × ReorderBuffer :=
  (rob.nextIndex, ⟨rob.entries ++ [entry rob.nextIndex], rob.nextIndex + 1⟩)

/-- The fields that `mark_ready` sets; a zero queue index keeps the old one. -/
def readyEntry (effects : InsnEffects) (lsqIndex : ℕ) (entry : RobEntry) : RobEntry :=
  { entry with
    ready := true
    effects
    lsqIndex := if lsqIndex ≠ 0 then lsqIndex else entry.lsqIndex }

def markReadyIn (index : ℕ) (effects : InsnEffects) (lsqIndex : ℕ) : List RobEntry → List RobEntry
  | [] => []
  | entry :: rest =>
    if entry.index = index then readyEntry effects lsqIndex entry :: rest
    else entry :: markReadyIn index effects lsqIndex rest

def markReady (index : ℕ) (effects : InsnEffects) (lsqIndex : ℕ) : ReorderBuffer :=
  { rob with entries := markReadyIn index effects lsqIndex rob.entries }

def peekHead : Option RobEntry := rob.entries.head?

def isHead (index : ℕ) : Bool :=
  match rob.peekHead with
  | some head => head.index == index
  | none => false

def hasOlderFpPending (sequenceId : ℕ) (sources : List ℕ) : Bool :=
  rob.entries.any fun entry =>
    let insn := { decode entry.raw with raw := entry.raw }
    decide (entry.sequenceId < sequenceId) && writesFpDestination insn && sources.contains insn.rd

/-- The scan of `inspect_older_vector_dependencies` over the remaining entries. -/
def inspectFrom (sequenceId vs1 vs2 : ℕ) :
    List RobEntry → OlderVectorDependency → OlderVectorDependency
  | [], dependency => dependency
  | entry :: rest, dependency =>
    let insn := { decode entry.raw with raw := entry.raw }
    if sequenceId ≤ entry.sequenceId ∨ !isVectorRaw entry.raw then
      inspectFrom sequenceId vs1 vs2 rest dependency
    else if isSerializingVectorInsn insn then { dependency with blocks := true }
    else if !isNonMemoryVectorAluInsn insn ∨ (insn.rd ≠ vs1 ∧ insn.rd ≠ vs2) then
      inspectFrom sequenceId vs1 vs2 rest dependency
    else
      match entry.ready, entry.effects.vector.result with
      | true, some result =>
        inspectFrom sequenceId vs1 vs2 rest
          { dependency with
            vs1 := if insn.rd = vs1 then some result else dependency.vs1
            vs2 := if insn.rd = vs2 then some result else dependency.vs2 }
      | _, _ => { dependency with blocks := true }

def inspectOlderVectorDependencies (sequenceId vs1 vs2 : ℕ) : OlderVectorDependency :=
  inspectFrom sequenceId vs1 vs2 rob.entries {}

def commitHead : ReorderBuffer :=
  match rob.entries with
  | head :: rest => if head.ready then { rob with entries := rest } else rob
  | [] => rob

def clear : ReorderBuffer := { rob with entries := [] }

end ReorderBuffer

inductive LsqEntryKind where
  | load | store
deriving DecidableEq

inductive LsqLoadState where
  | none | blockedByUnresolvedStore | blockedByOverlappingStore | replayRequired
deriving DecidableEq

/-- What is known about the physical address of a queue entry. -/
structure LsqAddressInfo where
  translationFault : Bool := false
  crossesPage : Bool := false
  paddr : Option (BitVec 64) := Option.none
  /-- The region of the whole span, when it lies in one region. -/
  region : Option PhysicalRegionKind := Option.none
deriving DecidableEq

namespace LsqAddressInfo

variable (info : LsqAddressInfo)

def isKnownRam : Bool :=
  !info.translationFault && !info.crossesPage && info.paddr.isSome && info.region == some .ram

def isKnownMmio : Bool :=
  !info.translationFault && !info.crossesPage && info.paddr.isSome && info.region == some .mmio

/-- RAM accesses and accesses that are not known to be device accesses wait a cycle. -/
def needsMemoryIssueDelay : Bool := info.isKnownRam || !info.isKnownMmio

end LsqAddressInfo

structure LsqEntry where
  index : ℕ
  kind : LsqEntryKind
  sequenceId : ℕ
  rd : ℕ := 0
  size : ℕ
  orderReady : Bool := false
  addressReady : Bool := false
  address : BitVec 64 := 0
  addressInfo : LsqAddressInfo := {}
  dataReady : Bool := false
  data : BitVec 64 := 0
  signExtend : Bool := false
  mmio : Bool := false
  nonSpeculative : Bool := false
  loadState : LsqLoadState := .none
  violatingStoreSequenceId : ℕ := 0
deriving DecidableEq

structure LsqLoadStatus where
  state : LsqLoadState := .none
  loadSequenceId : ℕ := 0
  storeSequenceId : ℕ := 0
deriving DecidableEq

def LsqLoadStatus.blocksIssue (status : LsqLoadStatus) : Bool :=
  status.state == .blockedByUnresolvedStore || status.state == .blockedByOverlappingStore

def LsqLoadStatus.replayRequired (status : LsqLoadStatus) : Bool := status.state == .replayRequired

structure LsqForwardResult where
  value : BitVec 64
  storeSequenceId : ℕ
deriving DecidableEq

structure LoadStoreQueue where
  entries : List LsqEntry
  nextIndex : ℕ

namespace LoadStoreQueue

def empty : LoadStoreQueue := ⟨[], 1⟩

def rangesOverlap (lhsAddr : BitVec 64) (lhsSize : ℕ) (rhsAddr : BitVec 64) (rhsSize : ℕ) : Bool :=
  decide (lhsAddr < rhsAddr + BitVec.ofNat 64 rhsSize ∧ rhsAddr < lhsAddr + BitVec.ofNat 64 lhsSize)

def sizeMask (size : ℕ) : BitVec 64 :=
  if 8 ≤ size then BitVec.allOnes 64 else (1#64 <<< (8 * size)) - 1

/-- The entry lies in RAM and overlaps the given physical span. -/
def sameTranslatedSpan (entry : LsqEntry) (paddr : BitVec 64) (size : ℕ) : Bool :=
  entry.addressInfo.isKnownRam &&
    rangesOverlap (entry.addressInfo.paddr.getD 0) entry.size paddr size

variable (lsq : LoadStoreQueue)

/-- Append an entry under a fresh index, which is returned. -/
def enqueue (entry : ℕ → LsqEntry) : ℕ × LoadStoreQueue :=
  (lsq.nextIndex, ⟨lsq.entries ++ [entry lsq.nextIndex], lsq.nextIndex + 1⟩)

def enqueueLoad (sequenceId rd size : ℕ) (signExtend nonSpeculative : Bool) :
    ℕ × LoadStoreQueue :=
  lsq.enqueue fun index =>
    { index, kind := .load, sequenceId, rd, size, signExtend, nonSpeculative }

def enqueueStore (sequenceId size : ℕ) (nonSpeculative : Bool) : ℕ × LoadStoreQueue :=
  lsq.enqueue fun index => { index, kind := .store, sequenceId, size, nonSpeculative }

/-- Apply `f` to the first entry with the given index. -/
def modifyFirst (index : ℕ) (f : LsqEntry → LsqEntry) : List LsqEntry → List LsqEntry
  | [] => []
  | entry :: rest =>
    if entry.index = index then f entry :: rest else entry :: modifyFirst index f rest

variable (index : ℕ)

def peek : Option LsqEntry := lsq.entries.find? (·.index == index)

def setOrderReady (entry : LsqEntry) : LsqEntry := { entry with orderReady := true }

def setDataReady (value : BitVec 64) (entry : LsqEntry) : LsqEntry :=
  { entry with dataReady := true, data := value }

def markOrderReady : LoadStoreQueue :=
  { lsq with entries := modifyFirst index setOrderReady lsq.entries }

def markDataReady (value : BitVec 64) : LoadStoreQueue :=
  { lsq with entries := modifyFirst index (setDataReady value) lsq.entries }

/-- A younger load that already executed and overlaps a resolved store must replay. -/
def replayIfViolated (store entry : LsqEntry) : LsqEntry :=
  if entry.kind = .load ∧ store.sequenceId < entry.sequenceId ∧ entry.addressReady ∧
      entry.orderReady ∧ rangesOverlap store.address store.size entry.address entry.size then
    { entry with loadState := .replayRequired, violatingStoreSequenceId := store.sequenceId }
  else entry

def markAddressReady (addr : BitVec 64) (info : LsqAddressInfo) : LoadStoreQueue :=
  match lsq.peek index with
  | none => lsq
  | some entry =>
    let resolved := { entry with addressReady := true, address := addr, addressInfo := info }
    let entries := modifyFirst index (fun _ => resolved) lsq.entries
    if entry.kind = .store then { lsq with entries := entries.map (replayIfViolated resolved) }
    else { lsq with entries }

def blockingStatus (sequenceId : ℕ) (addr : BitVec 64) (size : ℕ) (info : LsqAddressInfo) :
    List LsqEntry → LsqLoadStatus
  | [] => {}
  | entry :: rest =>
    if entry.kind ≠ .store ∨ sequenceId ≤ entry.sequenceId then
      blockingStatus sequenceId addr size info rest
    else if !entry.addressReady then ⟨.blockedByUnresolvedStore, sequenceId, entry.sequenceId⟩
    else
      let overlaps :=
        match info.paddr, entry.addressInfo.paddr with
        | some paddr, some _ => sameTranslatedSpan entry paddr size
        | _, _ => rangesOverlap entry.address entry.size addr size
      if !entry.orderReady && overlaps then
        ⟨.blockedByOverlappingStore, sequenceId, entry.sequenceId⟩
      else blockingStatus sequenceId addr size info rest

def classifyLoad (sequenceId : ℕ) (addr : BitVec 64) (size : ℕ) (info : LsqAddressInfo) :
    LsqLoadStatus :=
  match lsq.entries.find? fun entry =>
      entry.kind == .load && entry.sequenceId == sequenceId && entry.loadState ==
        .replayRequired with
  | some entry => ⟨.replayRequired, sequenceId, entry.violatingStoreSequenceId⟩
  | none => blockingStatus sequenceId addr size info lsq.entries

/-- The scan of `forwardable_load`, from the youngest entry. -/
def forwardFrom (sequenceId : ℕ) (paddr : BitVec 64) (size : ℕ) :
    List LsqEntry → Option LsqForwardResult
  | [] => none
  | entry :: rest =>
    if entry.kind ≠ .store ∨ sequenceId ≤ entry.sequenceId then
      forwardFrom sequenceId paddr size rest
    else if !entry.addressReady || !entry.dataReady || !entry.orderReady then none
    else if !sameTranslatedSpan entry paddr size then forwardFrom sequenceId paddr size rest
    else if entry.mmio || !entry.addressInfo.isKnownRam then none
    else
      let storePaddr := entry.addressInfo.paddr.getD 0
      if storePaddr ≤ paddr ∧
          paddr + BitVec.ofNat 64 size ≤ storePaddr + BitVec.ofNat 64 entry.size then
        some ⟨(entry.data >>> (8 * (paddr - storePaddr).toNat)) &&& sizeMask size,
          entry.sequenceId⟩
      else none

def forwardableLoad (sequenceId : ℕ) (size : ℕ) (info : LsqAddressInfo) :
    Option LsqForwardResult :=
  if !info.isKnownRam then none
  else forwardFrom sequenceId (info.paddr.getD 0) size lsq.entries.reverse

def activeReplay : LsqLoadStatus :=
  match lsq.entries.find? fun entry =>
      entry.kind == .load && entry.loadState == .replayRequired with
  | some entry => ⟨.replayRequired, entry.sequenceId, entry.violatingStoreSequenceId⟩
  | none => {}

/-- Remove an entry whose address, data and order are all settled. -/
def retireEntry : LoadStoreQueue :=
  match lsq.peek index with
  | none => lsq
  | some entry =>
    if !entry.addressReady || !entry.dataReady || !entry.orderReady then lsq
    else { lsq with entries := lsq.entries.eraseP (·.index == index) }

def clear : LoadStoreQueue := { lsq with entries := [] }

end LoadStoreQueue

end VisualCpu
