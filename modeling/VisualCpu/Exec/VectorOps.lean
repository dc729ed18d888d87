import VisualCpu.Cpu

/-!
# The V-lite vector extension

Requests built from the encoding, the arithmetic on register bytes, and the
application of a request at the commit boundary, following `vector_ops.cpp`.
-/

namespace VisualCpu

namespace VectorOps

/-- The byte at an index that the configuration keeps below sixteen. -/
def byteAt (reg : VectorReg) (i : ℕ) : BitVec 8 := reg[i]?.getD 0

/-- Little-endian element of `sewBytes` bytes. -/
def loadElement (reg : VectorReg) (offset : ℕ) : ℕ → BitVec 64
  | 0 => 0
  | sewBytes + 1 =>
    (byteAt reg offset).setWidth 64 ||| loadElement reg (offset + 1) sewBytes <<< 8

def storeElement (reg : VectorReg) (offset sewBytes : ℕ) (value : BitVec 64) : VectorReg :=
  (List.range sewBytes).foldl
    (fun reg i => reg.setIfInBounds (offset + i) (Ram.byteOf value i)) reg

def elementMask (sewBytes : ℕ) : BitVec 64 :=
  if 8 ≤ sewBytes then BitVec.allOnes 64 else (1#64 <<< (8 * sewBytes)) - 1

def signExtendElement (value : BitVec 64) (sewBytes : ℕ) : BitVec 64 :=
  if 8 ≤ sewBytes then value
  else (value <<< (64 - 8 * sewBytes)).sshiftRight (64 - 8 * sewBytes)

def isNonMemoryVectorAlu (request : VectorRequest) : Bool :=
  match request.kind with
  | .add | .mul | .max | .dot => true
  | _ => false

/-- `sew_code + 1`, as an eight-bit value. -/
def decodeSewBytes (sewCode : ℕ) : ℕ := sewCode + 1

def laneValue (kind : VectorKind) (sewBytes : ℕ) (a b : BitVec 64) : BitVec 64 :=
  let mask := elementMask sewBytes
  match kind with
  | .add => (a + b) &&& mask
  | .mul => (a * b) &&& mask
  | _ =>
    (if (signExtendElement a sewBytes).slt (signExtendElement b sewBytes) then b else a) &&& mask

/-- The dot product of the signed lanes, modulo `2 ^ 64`. -/
def dotProduct (lhs rhs : VectorReg) (sewBytes vl : ℕ) : BitVec 64 :=
  (List.range vl).foldl
    (fun sum lane =>
      sum + signExtendElement (loadElement lhs (lane * sewBytes) sewBytes) sewBytes *
        signExtendElement (loadElement rhs (lane * sewBytes) sewBytes) sewBytes) 0

/-- `compute_vector_alu_result`; nothing means an illegal-instruction trap. -/
def computeVectorAluResult (vector : VectorState) (request : VectorRequest) : Option VectorReg :=
  if !isNonMemoryVectorAlu request then none
  else if !VectorState.isValidConfig vector.sewBytes vector.vl true then none
  else
    let lhs := vector.readReg request.vs1
    let rhs := vector.readReg request.vs2
    let sewBytes := vector.sewBytes
    let zero : VectorReg := Vector.replicate 16 0
    if request.kind = .dot then some (storeElement zero 0 8 (dotProduct lhs rhs sewBytes vector.vl))
    else
      some ((List.range vector.vl).foldl
        (fun result lane =>
          let offset := lane * sewBytes
          storeElement result offset sewBytes (laneValue request.kind sewBytes
            (loadElement lhs offset sewBytes) (loadElement rhs offset sewBytes))) zero)

end VectorOps

def buildVectorConfig (insn : Insn) : InsnEffects :=
  let sewBytes := VectorOps.decodeSewBytes (insn.funct7 &&& 0x7)
  let vl := insn.rs2 + 1
  if insn.funct7 >>> 3 ≠ 0x8 then illegalInstructionEffect insn.raw
  else if !VectorState.isValidConfig sewBytes vl false then illegalInstructionEffect insn.raw
  else { vector := { kind := .setConfig, sewBytes, vl } }

/-- The operation of a vector arithmetic encoding. -/
def vectorAluKind (funct7 : ℕ) : Option VectorKind :=
  match funct7 with
  | 0x00 => some .add
  | 0x20 => some .mul
  | 0x21 => some .max
  | 0x22 => some .dot
  | _ => none

def buildVectorEffects (insn : Insn) (rs1v : BitVec 64) : InsnEffects :=
  match insn.opcode with
  | 0x57 =>
    if insn.funct3 = 7 then buildVectorConfig insn
    else if insn.funct3 ≠ 0 then illegalInstructionEffect insn.raw
    else
      match vectorAluKind insn.funct7 with
      | none => illegalInstructionEffect insn.raw
      | some kind =>
        { vector := { kind, vd := insn.rd, vs1 := insn.rs1, vs2 := insn.rs2 } }
  | 0x07 =>
    if insn.funct3 ≠ 0 then illegalInstructionEffect insn.raw
    else { vector := { kind := .load, vd := insn.rd, addr := rs1v + insn.imm } }
  | 0x27 =>
    if insn.funct3 ≠ 0 then illegalInstructionEffect insn.raw
    else { vector := { kind := .store, vs2 := insn.rs2, addr := rs1v + insn.imm } }
  | _ => illegalInstructionEffect insn.raw

def illegalVectorTrap : TrapRequest := ⟨causeIllegalInsn, 0⟩

namespace Cpu

variable {D : Type} [Devices D]

def isRamSpan (D : Type) [Devices D] (addr : BitVec 64) (bytes : ℕ) : Bool :=
  Bus.describeSpan D addr bytes == some .ram

/-- The physically contiguous run that the validation is extending. -/
structure RamSpan where
  paddr : BitVec 64
  bytes : ℕ
  previous : BitVec 64

def extendSpan (D : Type) [Devices D] (span : Option RamSpan) (paddr : BitVec 64) :
    Option RamSpan :=
  match span with
  | none => if isRamSpan D paddr 1 then some ⟨paddr, 1, paddr⟩ else none
  | some span =>
    if paddr = span.previous + 1 ∧ isRamSpan D span.paddr (span.bytes + 1) then
      some ⟨span.paddr, span.bytes + 1, paddr⟩
    else if isRamSpan D paddr 1 then some ⟨paddr, 1, paddr⟩
    else none

/-- `validate_vector_memory_span`: every byte translates and lies in RAM. -/
def validateVectorMemorySpan (type : AccessType) :
    ℕ → Cpu D → BitVec 64 → Option RamSpan → Option TrapRequest × Cpu D
  | 0, cpu, _, _ => (none, cpu)
  | bytes + 1, cpu, addr, span =>
    match cpu.translateResult addr type false with
    | (.error fault, cpu) => (some fault, cpu)
    | (.ok paddr, cpu) =>
      match extendSpan D span paddr with
      | none => (some (type.accessFault addr), cpu)
      | some span => validateVectorMemorySpan type bytes cpu (addr + 1) (some span)

/-- Load the bytes of a vector register one by one. -/
def loadVectorBytes (addr : BitVec 64) : ℕ → ℕ → Cpu D → VectorReg →
    Except TrapRequest VectorReg × Cpu D
  | 0, _, cpu, reg => (.ok reg, cpu)
  | count + 1, i, cpu, reg =>
    match cpu.loadResult (addr + BitVec.ofNat 64 i) 1 with
    | (.error fault, cpu) => (.error fault, cpu)
    | (.ok value, cpu) =>
      loadVectorBytes addr count (i + 1) cpu (reg.setIfInBounds i (value.setWidth 8))

/-- Store the bytes of a vector register one by one; the flag records whether
some byte reached a memory-mapped device. -/
def storeVectorBytes (addr : BitVec 64) (reg : VectorReg) : ℕ → ℕ → Cpu D → Bool →
    Except TrapRequest Bool × Cpu D
  | 0, _, cpu, changed => (.ok changed, cpu)
  | count + 1, i, cpu, changed =>
    match cpu.storeResult (addr + BitVec.ofNat 64 i) ((VectorOps.byteAt reg i).setWidth 64) 1 with
    | (some fault, cpu) => (.error fault, cpu)
    | (none, cpu) =>
      storeVectorBytes addr reg count (i + 1) cpu (changed || cpu.addressSpace.bus.lastAccessMmio)

def setVector (cpu : Cpu D) (vector : VectorState) : Cpu D := cpu.mapCore ({ · with vector })

variable (cpu : Cpu D)

/-- The number of bytes moved by a vector access in the current configuration. -/
def vectorBytes : ℕ := cpu.core.vector.vl * cpu.core.vector.sewBytes

variable (request : VectorRequest)

def applyVectorLoad : Except TrapRequest Bool × Cpu D :=
  if !VectorState.isValidConfig cpu.core.vector.sewBytes cpu.core.vector.vl true then
    (.error illegalVectorTrap, cpu)
  else if cpu.core.vector.vl = 0 then (.ok false, cpu)
  else
    match validateVectorMemorySpan .load cpu.vectorBytes cpu request.addr none with
    | (some fault, cpu) => (.error fault, cpu)
    | (none, cpu') =>
      match loadVectorBytes request.addr cpu.vectorBytes 0 cpu' (Vector.replicate 16 0) with
      | (.error fault, cpu) => (.error fault, cpu)
      | (.ok reg, cpu) => (.ok false, cpu.setVector (cpu.core.vector.writeReg request.vd reg))

def applyVectorStore : Except TrapRequest Bool × Cpu D :=
  if !VectorState.isValidConfig cpu.core.vector.sewBytes cpu.core.vector.vl true then
    (.error illegalVectorTrap, cpu)
  else if cpu.core.vector.vl = 0 then (.ok false, cpu)
  else
    match validateVectorMemorySpan .store cpu.vectorBytes cpu request.addr none with
    | (some fault, cpu) => (.error fault, cpu)
    | (none, cpu') =>
      storeVectorBytes request.addr (cpu.core.vector.readReg request.vs2)
        cpu.vectorBytes 0 cpu' false

/-- Write the result computed at execution, or compute it now. -/
def applyVectorAlu : Except TrapRequest Bool × Cpu D :=
  match request.result with
  | some reg => (.ok false, cpu.setVector (cpu.core.vector.writeReg request.vd reg))
  | none =>
    match VectorOps.computeVectorAluResult cpu.core.vector request with
    | none => (.error illegalVectorTrap, cpu)
    | some reg => (.ok false, cpu.setVector (cpu.core.vector.writeReg request.vd reg))

/-- `apply_vector_request`: whether a memory-mapped device was written, or the
trap to deliver. -/
def applyVectorRequest : Except TrapRequest Bool × Cpu D :=
  match request.kind with
  | .none => (.ok false, cpu)
  | .setConfig =>
    match cpu.core.vector.setConfig request.sewBytes request.vl with
    | none => (.error illegalVectorTrap, cpu)
    | some vector => (.ok false, cpu.setVector vector)
  | .load => cpu.applyVectorLoad request
  | .store => cpu.applyVectorStore request
  | .add | .mul | .max | .dot => cpu.applyVectorAlu request

end Cpu

end VisualCpu
