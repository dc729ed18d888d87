import VisualCpu.Exec.Functional

/-!
# Planning a translation block

`plan_dbt_block` walks the instructions of a block in the current state and stops
at the first one that the translated code may not contain. Every instruction is
executed for its effects only: the walk fetches, so it can set accessed bits and
fill the translation buffer, but it commits nothing.
-/

namespace VisualCpu

inductive DbtBoundaryKind where
  | none | fetchFault | unsupported | memoryLoad | memoryStore | atomic | vector | csrWrite
  | trap | halt | tlbFlush | trapReturn | controlFlow | notRetired | fallback
deriving DecidableEq

inductive DbtHelperKind where
  | none | memoryLoad | memoryStore | csrWrite | atomic | vector
deriving DecidableEq

/-- An instruction of the block that the translator may inline. -/
structure DbtDryRunIrOp where
  pc : BitVec 64
  raw : BitVec 32
  (size nextPc : BitVec 64)
  rdWrite : Option ℕ
deriving DecidableEq

/-- Where a part of the block lies in physical memory. -/
structure DbtCodePhysicalSpan where
  (valid requiresGlobalInvalidation : Bool)
  (vaddr paddr : BitVec 64)
  size : ℕ
  satp : BitVec 64
  region : PhysicalRegionKind
deriving DecidableEq

/-- The access of an instruction that the runtime has to carry out itself. -/
structure DbtHelperPlan where
  required : Bool := false
  kind : DbtHelperKind := .none
  pc : BitVec 64 := 0
  raw : BitVec 32 := 0
  rd : ℕ := 0
  addr : BitVec 64 := 0
  size : ℕ := 0
  signExtend : Bool := false
  commitAtBoundary : Bool := false
  nonSpeculative : Bool := false
  csrAddr : BitVec 12 := 0
  value : BitVec 64 := 0
  atomicOp : AtomicKind := .none
  atomicAq : Bool := false
  atomicRl : Bool := false
  vectorOp : VectorKind := .none
  vectorVs1 : ℕ := 0
  vectorVs2 : ℕ := 0
  vectorSewBytes : ℕ := 0
  vectorVl : ℕ := 0
deriving DecidableEq

structure DbtBlockPlan where
  ok : Bool
  (startPc endPc : BitVec 64)
  inlineableInstructions : ℕ
  fallbackPc : BitVec 64 := 0
  fallbackRaw : BitVec 32 := 0
  fallbackReason : String := ""
  boundaryKind : String := ""
  boundary : DbtBoundaryKind := .none
  helperPlan : DbtHelperPlan := {}
  codeSpans : List DbtCodePhysicalSpan
  dryRunIr : List DbtDryRunIrOp

namespace InsnEffects

variable (effects : InsnEffects)

def requiresHelper : Bool :=
  effects.mem.kind != .none || effects.atomic.kind != .none || effects.vector.kind != .none ||
    effects.csrWrite.isSome

def requiresFallback : Bool :=
  effects.control.redirectPc.isSome || effects.control.halt || effects.control.flushTlb ||
    effects.control.trapReturn != .none

/-- `helper_boundary_kind` and `helper_boundary_enum`. -/
def helperBoundary : String × DbtBoundaryKind :=
  match effects.mem.kind with
  | .load => ("memory-load", .memoryLoad)
  | .store => ("memory-store", .memoryStore)
  | .none =>
    if effects.atomic.kind ≠ .none then ("atomic", .atomic)
    else if effects.vector.kind ≠ .none then ("vector", .vector)
    else if effects.csrWrite.isSome then ("csr-write", .csrWrite)
    else ("helper", .fallback)

def helperKind : DbtHelperKind :=
  match effects.mem.kind with
  | .load => .memoryLoad
  | .store => .memoryStore
  | .none =>
    if effects.csrWrite.isSome then .csrWrite
    else if effects.atomic.kind ≠ .none then .atomic
    else if effects.vector.kind ≠ .none then .vector
    else .none

/-- `fallback_boundary_kind` and `fallback_boundary_enum`. -/
def fallbackBoundary : String × DbtBoundaryKind :=
  if effects.trap.isSome then ("trap", .trap)
  else if effects.control.flushTlb then ("tlb-flush", .tlbFlush)
  else if effects.control.trapReturn ≠ .none then ("trap-return", .trapReturn)
  else if effects.control.halt then ("halt", .halt)
  else if effects.control.redirectPc.isSome then ("control-flow", .controlFlow)
  else if !effects.retired then ("not-retired", .notRetired)
  else ("fallback", .fallback)

/-- `make_helper_plan`. -/
def makeHelperPlan (pc : BitVec 64) (insn : Insn) : DbtHelperPlan :=
  let helper : DbtHelperPlan :=
    { required := true, kind := effects.helperKind, pc, raw := insn.raw }
  if effects.mem.kind ≠ .none then
    { helper with
      rd := effects.mem.rd
      addr := effects.mem.addr
      size := effects.mem.size
      signExtend := effects.mem.signExtend
      commitAtBoundary := effects.mem.commitAtBoundary
      nonSpeculative := effects.mem.nonSpeculative
      value := effects.mem.storeValue }
  else
    match effects.csrWrite with
    | some write =>
      { helper with
        rd := (effects.rdWrite.map RegWrite.rd).getD 0
        csrAddr := write.addr
        value := write.value }
    | none =>
      if effects.atomic.kind ≠ .none then
        { helper with
          rd := effects.atomic.rd
          addr := effects.atomic.addr
          size := effects.atomic.size
          commitAtBoundary := effects.atomic.commitAtBoundary
          nonSpeculative := effects.atomic.nonSpeculative
          value := effects.atomic.storeValue
          atomicOp := effects.atomic.kind
          atomicAq := effects.atomic.aq
          atomicRl := effects.atomic.rl }
      else if effects.vector.kind ≠ .none then
        { helper with
          rd := effects.vector.vd
          addr := effects.vector.addr
          size := effects.vector.sewBytes
          vectorOp := effects.vector.kind
          vectorVs1 := effects.vector.vs1
          vectorVs2 := effects.vector.vs2
          vectorSewBytes := effects.vector.sewBytes
          vectorVl := effects.vector.vl }
      else { helper with required := false }

end InsnEffects

def isControlFlowInstruction (insn : Insn) : Bool :=
  insn.opcode == 0x63 || insn.opcode == 0x67 || insn.opcode == 0x6F

/-- The reason why an instruction ends the planning of a block. -/
structure DbtPlanStop where
  raw : BitVec 32
  (fallbackReason boundaryKind : String)
  boundary : DbtBoundaryKind
  helperPlan : DbtHelperPlan := {}

variable {D : Type} [Devices D]

/-- The span of an instruction that cannot be located: every store invalidates it. -/
def Cpu.unreliableCodeSpan (satp vaddr : BitVec 64) (size : ℕ) : DbtCodePhysicalSpan where
  valid := false
  requiresGlobalInvalidation := true
  vaddr := vaddr
  paddr := 0
  size := size
  satp := satp
  region := .unmapped

/-- The loop of `append_code_physical_spans`, one page in a round. A part that
cannot be located ends it with the unreliable span of the whole instruction. -/
def Cpu.codeSpansFrom (satp : BitVec 64) (unreliable : DbtCodePhysicalSpan) :
    ℕ → Cpu D → BitVec 64 → ℕ → List DbtCodePhysicalSpan × Cpu D
  | 0, cpu, _, _ => ([], cpu)
  | fuel + 1, cpu, vaddr, remaining =>
    if remaining = 0 then ([], cpu)
    else
      let chunk := AddressSpace.pageChunkSize vaddr remaining
      match cpu.translateResult vaddr .instruction false with
      | (.error _, cpu) => ([unreliable], cpu)
      | (.ok paddr, cpu) =>
        match Bus.describeSpan D paddr chunk with
        | none => ([unreliable], cpu)
        | some region =>
          let (rest, cpu) := codeSpansFrom satp unreliable fuel cpu
            (vaddr + BitVec.ofNat 64 chunk) (remaining - chunk)
          (⟨true, false, vaddr, paddr, chunk, satp, region⟩ :: rest, cpu)

def Cpu.codePhysicalSpans (cpu : Cpu D) (pc : BitVec 64) (size : ℕ) :
    List DbtCodePhysicalSpan × Cpu D :=
  let satp := cpu.readCsr Csr.satp
  codeSpansFrom satp (unreliableCodeSpan satp pc size) size cpu pc size

variable [Fpu]

def planInstruction (cpu : Cpu D) (pc : BitVec 64) (insn : Insn) :
    Except DbtPlanStop DbtDryRunIrOp :=
  if !supports insn then .error ⟨insn.raw, "fallback-required", "unsupported", .unsupported, {}⟩
  else if isControlFlowInstruction insn then
    .error ⟨insn.raw, "fallback-required", "control-flow", .controlFlow, {}⟩
  else
    let effects := execute insn cpu (coreInputs insn cpu.core)
    if effects.trap.isSome || !effects.retired || effects.requiresFallback then
      .error ⟨insn.raw, "fallback-required", effects.fallbackBoundary.1,
        effects.fallbackBoundary.2, {}⟩
    else if effects.requiresHelper then
      .error ⟨insn.raw, "helper-required", effects.helperBoundary.1, effects.helperBoundary.2,
        effects.makeHelperPlan pc insn⟩
    else .ok ⟨pc, insn.raw, instructionSize insn, pc + instructionSize insn,
      effects.rdWrite.map RegWrite.rd⟩

/-- `plan_fallback`. -/
def planFallback (startPc endPc pc : BitVec 64) (stop : DbtPlanStop)
    (codeSpans : List DbtCodePhysicalSpan) (dryRunIr : List DbtDryRunIrOp) : DbtBlockPlan where
  ok := false
  startPc := startPc
  endPc := endPc
  inlineableInstructions := dryRunIr.length
  fallbackPc := pc
  fallbackRaw := stop.raw
  fallbackReason := stop.fallbackReason
  boundaryKind := stop.boundaryKind
  boundary := stop.boundary
  helperPlan := stop.helperPlan
  codeSpans := codeSpans
  dryRunIr := dryRunIr

/-- The loop of `plan_dbt_block`, one instruction in a round; nothing when the rounds
run out, as a block that wraps around the address space never ends. -/
def planFrom (startPc endPc : BitVec 64) : ℕ → Cpu D → BitVec 64 → List DbtCodePhysicalSpan →
    List DbtDryRunIrOp → Option (DbtBlockPlan × Cpu D)
  | 0, _, _, _, _ => none
  | fuel + 1, cpu, pc, codeSpans, dryRunIr =>
    if !pc.ule endPc then
      some ({ ok := true, startPc, endPc, inlineableInstructions := dryRunIr.length,
              codeSpans, dryRunIr }, cpu)
    else
      match cpu.fetchInstruction pc with
      | (.error _, cpu) =>
        some (planFallback startPc endPc pc ⟨0, "fetch-fault", "fetch-fault", .fetchFault, {}⟩
          codeSpans dryRunIr, cpu)
      | (.ok raw, cpu) =>
        let insn := FunctionalBackend.decodeFetched raw
        let (spans, cpu) := cpu.codePhysicalSpans pc (instructionSize insn).toNat
        match planInstruction cpu pc insn with
        | .error stop =>
          some (planFallback startPc endPc pc stop (codeSpans ++ spans) dryRunIr, cpu)
        | .ok op =>
          planFrom startPc endPc fuel cpu (pc + instructionSize insn) (codeSpans ++ spans)
            (dryRunIr ++ [op])

/-- `plan_dbt_block`, with a bound on the instructions it may walk. -/
def planDbtBlock (fuel : ℕ) (cpu : Cpu D) (startPc endPc : BitVec 64) :
    Option (DbtBlockPlan × Cpu D) :=
  planFrom startPc endPc fuel cpu startPc [] []

end VisualCpu
