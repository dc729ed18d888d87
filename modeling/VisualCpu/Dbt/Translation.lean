import VisualCpu.Dbt.IrLowering
import VisualCpu.Exec.CommitFacts
import VisualCpu.Exec.OpcodeSemantics
import VisualCpu.Interrupts

/-!
# Translated blocks and the interpreter

A translation unit computes what the functional backend computes on the
instructions it was made from. The operations of a plan follow each other from its
first pc; an instruction and the word it came from write the same value to the same
register; and so do the unit and a run of the backend that fetches the planned words.
-/

namespace VisualCpu

open List DbtTranslator IntegerOps DbtIr Option Function BitVec Prod Nat

section Instruction

variable {insn : Insn} {opcode : DbtIrOpcode} {imm : BitVec 64}

def irInstruction (insn : Insn) (opcode : DbtIrOpcode) (imm pc : BitVec 64) : DbtIrInstruction :=
  { opcode, pc, raw := insn.raw, rd := insn.rd, rs1 := insn.rs1, rs2 := insn.rs2, imm }

theorem shiftAmount_ofNat {n : ℕ} (h : n < 64) :
    ((BitVec.ofNat 64 n).setWidth 8 &&& 63).toNat = n := by
  have hmask : n &&& 63 = n % 64 := and_two_pow_sub_one_eq_mod n 6
  simp [hmask, mod_eq_of_lt h, mod_eq_of_lt (show n < 256 by omega)]

theorem shiftAmountWord_ofNat {n : ℕ} (h : n < 32) :
    ((BitVec.ofNat 64 n).setWidth 8 &&& 31).toNat = n := by
  have hmask : n &&& 31 = n % 32 := and_two_pow_sub_one_eq_mod n 5
  simp [hmask, mod_eq_of_lt h, mod_eq_of_lt (show n < 256 by omega)]

theorem shamt_lt {rs2 : ℕ} (h : rs2 < 32) (funct7 : ℕ) : rs2 ||| ((funct7 &&& 1) <<< 5) < 64 := by
  have hbit : (funct7 &&& 1) <<< 5 < 2 ^ 6 := by
    rw [Nat.and_one_is_mod, Nat.shiftLeft_eq]
    omega
  exact Nat.or_lt_two_pow (n := 6) (by omega) hbit

/-- The value that the intermediate instruction writes, from the operands of the
decoded instruction. -/
def irValue (insn : Insn) (opcode : DbtIrOpcode) (imm pc : BitVec 64)
    (gpr : Fin 32 → BitVec 64) : BitVec 64 :=
  value (irInstruction insn opcode imm pc) gpr

variable {gpr : Fin 32 → BitVec 64} (pc : BitVec 64)

theorem opImm_eq (hbounded : insn.Bounded) (hzero : gpr 0 = 0)
    (h : translateOpImm insn = some (opcode, imm)) :
    opImm insn (gpr (Fin.ofNat 32 insn.rs1)) = some (irValue insn opcode imm pc gpr) := by
  have hshamt := shiftAmount_ofNat (shamt_lt hbounded.rs2 insn.funct7)
  unfold translateOpImm at h
  unfold opImm isValidShiftImmediateEncoding
  split at h
  case h_3 hfunct3 | h_4 hfunct3 | h_5 hfunct3 | h_7 hfunct3 | h_8 hfunct3 =>
    obtain ⟨rfl, rfl⟩ := mk.inj (some.inj h)
    simp [hfunct3, irValue, irInstruction, value]
  next hfunct3 =>
    obtain ⟨rfl, rfl⟩ := mk.inj (some.inj h)
    by_cases hrs1 : insn.rs1 = 0
    · simp [hfunct3, hrs1, hzero, irValue, irInstruction, value]
    · simp [hfunct3, hrs1, irValue, irInstruction, value]
  next hfunct3 =>
    split_ifs at h with hvalid
    obtain ⟨rfl, rfl⟩ := mk.inj (some.inj h)
    simp only [hfunct3, hvalid, hshamt, irValue, irInstruction, value]
    rfl
  next hfunct3 =>
    have hkind : insn.funct7 &&& 0x20 = (insn.funct7 &&& 0x7E) &&& 0x20 :=
      (Nat.and_assoc insn.funct7 0x7E 0x20).symm
    split_ifs at h with hlogical harithmetic
    · obtain ⟨rfl, rfl⟩ := mk.inj (some.inj h)
      simp only [hfunct3, hlogical, hkind, hshamt, irValue, irInstruction, value]
      rfl
    · obtain ⟨rfl, rfl⟩ := mk.inj (some.inj h)
      simp only [hfunct3, harithmetic, hkind, hshamt, irValue, irInstruction, value]
      rfl
  next => cases h

theorem opImmWord_eq (hbounded : insn.Bounded) (h : translateOpImmWord insn = some (opcode, imm)) :
    opImmWord insn (gpr (Fin.ofNat 32 insn.rs1)) = some (irValue insn opcode imm pc gpr) := by
  have hshamt := shiftAmountWord_ofNat hbounded.rs2
  unfold translateOpImmWord at h
  unfold opImmWord isValidShiftWordImmediateEncoding
  split at h
  next hfunct3 =>
    obtain ⟨rfl, rfl⟩ := mk.inj (some.inj h)
    simp [hfunct3, irValue, irInstruction, value]
  next hfunct3 =>
    split_ifs at h with hvalid
    obtain ⟨rfl, rfl⟩ := mk.inj (some.inj h)
    simp only [hfunct3, hvalid, hshamt, irValue, irInstruction, value]
    rfl
  next hfunct3 =>
    split_ifs at h with hlogical harithmetic
    · obtain ⟨rfl, rfl⟩ := mk.inj (some.inj h)
      simp only [hfunct3, hlogical, hshamt, irValue, irInstruction, value]
      rfl
    · obtain ⟨rfl, rfl⟩ := mk.inj (some.inj h)
      simp only [hfunct3, harithmetic, hshamt, irValue, irInstruction, value]
      rfl
  next => cases h

theorem translateFunct7_cases {plain : DbtIrOpcode} {variant : Option DbtIrOpcode}
    (h : translateFunct7 insn plain variant = some opcode) :
    insn.funct7 = 0x00 ∧ opcode = plain ∨ insn.funct7 = 0x20 ∧ variant = some opcode := by
  unfold translateFunct7 at h
  split_ifs at h with hplain hvariant
  · exact .inl ⟨hplain, (some.inj h).symm⟩
  · exact .inr ⟨hvariant, h⟩

theorem opReg_eq (h : translateOpReg insn = some opcode) :
    opReg insn (gpr (Fin.ofNat 32 insn.rs1)) (gpr (Fin.ofNat 32 insn.rs2)) =
      some (irValue insn opcode imm pc gpr) := by
  unfold translateOpReg at h
  unfold opReg isValidIntegerRegEncoding
  split at h <;> rename_i hfunct3 <;> try cases h
  all_goals
    rcases translateFunct7_cases h with ⟨hfunct7, rfl⟩ | ⟨hfunct7, hvariant⟩
    · simp [hfunct3, hfunct7, irValue, irInstruction, value]
    · cases hvariant <;> simp [hfunct3, hfunct7, irValue, irInstruction, value]

theorem opRegWord_eq (h : translateOpRegWord insn = some opcode) :
    opRegWord insn (gpr (Fin.ofNat 32 insn.rs1)) (gpr (Fin.ofNat 32 insn.rs2)) =
      some (irValue insn opcode imm pc gpr) := by
  unfold translateOpRegWord at h
  unfold opRegWord isValidIntegerWordRegEncoding
  split at h <;> rename_i hfunct3 <;> try cases h
  all_goals
    rcases translateFunct7_cases h with ⟨hfunct7, rfl⟩ | ⟨hfunct7, hvariant⟩
    · simp [hfunct3, hfunct7, irValue, irInstruction, value]
    · cases hvariant <;> simp [hfunct3, hfunct7, irValue, irInstruction, value]

theorem translateOpcode_mem (h : translateOpcode insn = some (opcode, imm)) :
    insn.opcode ∈ [0x37, 0x17, 0x13, 0x1B, 0x33, 0x3B, 0x0F] := by
  unfold translateOpcode at h
  split at h <;> first | cases h; done | simp [*]

theorem translateOpcode_ne_fallthrough (h : translateOpcode insn = some (opcode, imm)) :
    opcode ≠ .fallthrough := by
  rintro rfl
  unfold translateOpcode translateOpImm translateOpImmWord translateOpReg translateOpRegWord
    translateFunct7 at h
  grind

theorem buildIntegerEffects_eq (hbounded : insn.Bounded) (hzero : gpr 0 = 0)
    (h : translateOpcode insn = some (opcode, imm)) :
    buildIntegerEffects insn (gpr (Fin.ofNat 32 insn.rs1)) (gpr (Fin.ofNat 32 insn.rs2)) pc =
      setRd insn.rd (irValue insn opcode imm pc gpr) := by
  unfold translateOpcode at h
  unfold buildIntegerEffects
  split at h
  case h_1 hopcode | h_2 hopcode =>
    obtain ⟨rfl, rfl⟩ := mk.inj (some.inj h)
    simp [hopcode, irValue, irInstruction, value]
  next hopcode =>
    simp only [hopcode, writeRdOrIllegal]
    rw [opImm_eq pc hbounded hzero h]
  next hopcode =>
    simp only [hopcode, writeRdOrIllegal]
    rw [opImmWord_eq pc hbounded h]
  next hopcode =>
    obtain ⟨_, hreg, heq⟩ := map_eq_some_iff.1 h
    obtain ⟨rfl, rfl⟩ := mk.inj heq
    simp only [hopcode, writeRdOrIllegal]
    rw [opReg_eq pc hreg]
  next hopcode =>
    obtain ⟨_, hreg, heq⟩ := map_eq_some_iff.1 h
    obtain ⟨rfl, rfl⟩ := mk.inj heq
    simp only [hopcode, writeRdOrIllegal]
    rw [opRegWord_eq pc hreg]
  next => cases h

end Instruction

theorem writeGpr_gpr (core : CoreState) {rd : ℕ} (hrd : rd < 32) (hzero : core.gpr 0 = 0)
    (value : BitVec 64) : (core.writeGpr rd value).gpr = writeGpr core.gpr rd value := by
  have hfin : Fin.ofNat 32 rd = 0 ↔ rd = 0 := by
    rw [Fin.ext_iff]
    simp [mod_eq_of_lt hrd]
  unfold CoreState.writeGpr writeGpr
  by_cases h : rd = 0
  · simp [h, ← hzero]
  have hne : Fin.ofNat 32 rd ≠ 0 := fun heq => h (hfin.1 heq)
  rw [if_pos hne, if_pos ⟨h, hrd⟩]
  have hkept : (0 : BitVec 64) = update core.gpr (Fin.ofNat 32 rd) value 0 := by
    rw [update_of_ne hne.symm, hzero]
  exact (update_eq_self_iff.2 hkept).symm

theorem writeGpr_eq (core : CoreState) (rd : ℕ) (value : BitVec 64) :
    core.writeGpr rd value = { core with gpr := (core.writeGpr rd value).gpr } := by
  unfold CoreState.writeGpr
  split_ifs <;> rfl

/-- The operations follow each other in memory from a pc on. -/
def FollowFrom : BitVec 64 → List DbtDryRunIrOp → Prop
  | _, [] => True
  | pc, op :: ops =>
    op.pc = pc ∧ op.nextPc = pc + instructionSize (FunctionalBackend.decodeFetched op.raw) ∧
      FollowFrom op.nextPc ops

section Plan

variable {D : Type} [Devices D] [Fpu] {pc : BitVec 64}

theorem planInstruction_ok {cpu : Cpu D} {insn : Insn} {op : DbtDryRunIrOp}
    (h : planInstruction cpu pc insn = .ok op) :
    op.pc = pc ∧ op.raw = insn.raw ∧ op.nextPc = pc + instructionSize insn := by
  unfold planInstruction at h
  dsimp only at h
  split_ifs at h
  cases h
  exact ⟨rfl, rfl, rfl⟩

theorem planFrom_follows {startPc endPc : BitVec 64} {fuel : ℕ} {cpu after : Cpu D}
    {spans : List DbtCodePhysicalSpan} {ops : List DbtDryRunIrOp}
    {plan : DbtBlockPlan} (h : planFrom startPc endPc fuel cpu pc spans ops = some (plan, after)) :
    plan.startPc = startPc ∧ ∃ more, plan.dryRunIr = ops ++ more ∧ FollowFrom pc more := by
  induction fuel generalizing cpu pc spans ops with
  | zero => cases h
  | succ fuel ih =>
    rw [planFrom] at h
    split_ifs at h
    · cases h
      exact ⟨rfl, [], (append_nil ops).symm, trivial⟩
    rcases hfetch : cpu.fetchInstruction pc with ⟨fault | raw, fetched⟩
    · rw [hfetch] at h
      cases h
      exact ⟨rfl, [], (append_nil ops).symm, trivial⟩
    rw [hfetch] at h
    simp only at h
    rcases hplan : planInstruction (fetched.codePhysicalSpans pc
      (instructionSize (FunctionalBackend.decodeFetched raw)).toNat).2 pc
      (FunctionalBackend.decodeFetched raw) with stop | op
    · rw [hplan] at h
      cases h
      exact ⟨rfl, [], (append_nil ops).symm, trivial⟩
    rw [hplan] at h
    obtain ⟨hstart, more, hmore, hfollow⟩ := ih h
    obtain ⟨hpc, hraw, hnext⟩ := planInstruction_ok hplan
    refine ⟨hstart, op :: more, by simp [hmore], hpc, ?_, hnext ▸ hfollow⟩
    rw [hnext, hraw]
    rfl

end Plan

variable {instructions : List DbtIrInstruction} {ops : List DbtDryRunIrOp}

theorem translateOps_ok
    (h : translateOps ops = .ok instructions) :
    List.Forall₂ (fun op instruction => translateIntegerOp op = some instruction) ops
      instructions := by
  induction ops generalizing instructions with
  | nil =>
    cases h
    exact .nil
  | cons op ops ih =>
    rw [translateOps] at h
    cases hop : translateIntegerOp op with
    | none =>
      rw [hop] at h
      cases h
    | some instruction =>
      rw [hop] at h
      cases hops : translateOps ops with
      | error stop =>
        rw [hops] at h
        cases h
      | ok rest =>
        rw [hops] at h
        cases h
        exact .cons hop (ih hops)

theorem translateIntegerOp_ne_fallthrough {op : DbtDryRunIrOp} {instruction : DbtIrInstruction}
    (h : translateIntegerOp op = some instruction) : instruction.opcode ≠ .fallthrough := by
  obtain ⟨_, hopcode, rfl⟩ := map_eq_some_iff.1 h
  exact translateOpcode_ne_fallthrough hopcode

theorem foldl_retired
    (h : List.Forall₂ (fun op instruction => translateIntegerOp op = some instruction) ops
      instructions) (result : DbtIrEvaluationResult) :
    (instructions.foldl evaluateInstruction result).retiredInstructions =
      result.retiredInstructions + BitVec.ofNat 64 ops.length := by
  induction h generalizing result with
  | nil => simp
  | cons hop hrest ih =>
    rw [foldl_cons, ih, evaluateInstruction,
      if_neg (translateIntegerOp_ne_fallthrough hop), length_cons, Nat.add_comm,
      ofNat_add, ← add_assoc]
    rfl

theorem foldl_nextPc (instructions : List DbtIrInstruction) (result : DbtIrEvaluationResult) :
    (instructions.foldl evaluateInstruction result).nextPc =
      ((instructions.getLast?.map DbtIrInstruction.nextPc).getD result.nextPc) := by
  induction instructions using reverseRecOn with
  | nil => rfl
  | append_singleton instructions last ih =>
    rw [foldl_append, List.getLast?_concat]
    simp only [foldl_cons, foldl_nil, evaluateInstruction]
    split_ifs <;> rfl

theorem makeFallthrough_eq (plan : DbtBlockPlan) (instructions : List DbtIrInstruction) :
    (makeFallthrough plan instructions).opcode = .fallthrough ∧
      (makeFallthrough plan instructions).nextPc =
        (instructions.getLast?.map DbtIrInstruction.nextPc).getD plan.startPc := by
  unfold makeFallthrough
  cases instructions.getLast? <;> exact ⟨rfl, rfl⟩

theorem evaluateDbtIrUnit_translated {plan : DbtBlockPlan} (hunit : (translateDbtBlock plan).ok)
    (input : DbtIrEvaluationInput) (hpc : input.pc = plan.startPc) :
    ∃ instructions, List.Forall₂ (fun op instruction => translateIntegerOp op = some instruction)
        plan.dryRunIr instructions ∧
      evaluateDbtIrUnit (translateDbtBlock plan) input =
        let start : DbtIrEvaluationResult :=
          { ok := true, gpr := update input.gpr 0 0, nextPc := input.pc }
        let result := instructions.foldl evaluateInstruction start
        { result with gpr := update result.gpr 0 0 } := by
  unfold translateDbtBlock at hunit ⊢
  split_ifs at hunit ⊢
  · cases hunit
  cases hops : translateOps plan.dryRunIr with
  | error op =>
    rw [hops] at hunit
    cases hunit
  | ok instructions =>
    refine ⟨instructions, translateOps_ok hops, ?_⟩
    have hlast := foldl_nextPc instructions
      { ok := true, gpr := update input.gpr 0 0, nextPc := input.pc }
    obtain ⟨hopcode, hnext⟩ := makeFallthrough_eq plan instructions
    rw [← hpc, ← hlast] at hnext
    simp only [evaluateDbtIrUnit, foldl_append, foldl_cons, foldl_nil]
    rw [evaluateInstruction, if_pos hopcode, hnext]
    rfl

namespace FunctionalBackend

section

variable {D : Type} [Devices D] [Fpu] {backend : FunctionalBackend D} {op : DbtDryRunIrOp}
  {instruction : DbtIrInstruction} {result : DbtIrEvaluationResult} {instret : BitVec 64}

theorem buildEffects_translated (cpu : Cpu D) (h : translateIntegerOp op = some instruction)
    (hpc : cpu.core.pc = op.pc) (hzero : cpu.core.gpr 0 = 0) :
    instruction.rd < 32 ∧ instruction.opcode ≠ .fallthrough ∧ instruction.nextPc = op.nextPc ∧
      buildEffects cpu (decodeFetched op.raw) =
        setRd instruction.rd (value instruction cpu.core.gpr) := by
  obtain ⟨⟨opcode, imm⟩, hopcode, rfl⟩ := map_eq_some_iff.1 h
  have hbounded : (decodeFetched op.raw).Bounded := by
    obtain ⟨hrd, hrs1, hrs2, hrs3⟩ := decode_bounded op.raw
    exact ⟨hrd, hrs1, hrs2, hrs3⟩
  have hmem := translateOpcode_mem hopcode
  have hsupports : supports (decodeFetched op.raw) := by
    simp only [mem_cons, not_mem_nil, or_false] at hmem
    rcases hmem with h | h | h | h | h | h | h <;> simp [supports, h]
  refine ⟨hbounded.rd, translateOpcode_ne_fallthrough hopcode, rfl, ?_⟩
  unfold buildEffects
  rw [hsupports, execute_integer hmem, hpc]
  exact buildIntegerEffects_eq op.pc hbounded hzero hopcode

/-- What a step does to the core when it executes a translated operation. -/
def afterInstruction (core : CoreState) (instruction : DbtIrInstruction) : CoreState :=
  { core with
    gpr := writeGpr core.gpr instruction.rd (value instruction core.gpr)
    pc := instruction.nextPc
    instret := core.instret + 1
    cycle := core.cycle + 1 }

omit [Fpu] in
theorem finishCommit_setRd (cpu : Cpu D) (input : CommitBoundaryInput) (rd : ℕ)
    (value : BitVec 64) : (cpu.finishCommit input (setRd rd value) false false).2.core =
      ((cpu.core.writeGpr rd value).setPc input.nextPc).advanceInstret := rfl

theorem step_translated (h : translateIntegerOp op = some instruction)
    (hpc : backend.cpu.core.pc = op.pc) (hzero : backend.cpu.core.gpr 0 = 0)
    (hnext : op.nextPc = op.pc + instructionSize (decodeFetched op.raw))
    (hquiet : backend.ticked.servicePendingInterrupts = none)
    (hfetch : (backend.ticked.fetchInstruction op.pc).1 = .ok op.raw) :
    backend.step.cpu.core = afterInstruction backend.cpu.core instruction := by
  have hready : backend.aboutToExecute = backend.ticked := by
    rw [aboutToExecute_eq, hquiet, getD_none]
  rcases hfetched : backend.ticked.fetchInstruction op.pc with ⟨result, cpu⟩
  rw [hfetched] at hfetch
  cases hfetch
  have hsame := backend.ticked.fetchInstruction_sameRegisters op.pc
  rw [hfetched] at hsame
  have hcore : cpu.core = backend.cpu.core := hsame.core.trans backend.ticked_core
  have hat : backend.aboutToExecute.fetchInstruction backend.aboutToExecute.core.pc =
      (.ok op.raw, cpu) := by rw [hready, backend.ticked_core, hpc, hfetched]
  obtain ⟨hrd, -, hnextPc, heffects⟩ := buildEffects_translated cpu h (hcore ▸ hpc)
    (hcore ▸ hzero)
  rw [backend.step_of_fetched hat, executeFetched_core]
  have hinput : (fetchedInput cpu op.raw).effects =
      setRd instruction.rd (value instruction cpu.core.gpr) := heffects
  have hnextPc' : (fetchedInput cpu op.raw).nextPc = instruction.nextPc := by
    rw [hnextPc, hnext, ← hpc, ← hcore]
    rfl
  rw [Cpu.applyCommitBoundary_plain cpu _ (by rw [hinput]; rfl) (by rw [hinput]; rfl)
    (by rw [hinput]; rfl) (by rw [hinput]; rfl), hinput, finishCommit_setRd, hnextPc', hcore,
    writeGpr_eq, writeGpr_gpr _ hrd hzero]
  rfl

/-- The first steps of the backend take no interrupt. -/
def Uninterrupted (backend : FunctionalBackend D) (n : ℕ) : Prop :=
  ∀ k < n, (step^[k] backend).ticked.servicePendingInterrupts = none

/-- When the steps come to fetch, every operation is still in memory as it was planned:
a device has not written over it. -/
def KeepsCode (backend : FunctionalBackend D) (ops : List DbtDryRunIrOp) : Prop :=
  ∀ k (hk : k < ops.length),
    ((step^[k] backend).ticked.fetchInstruction ops[k].pc).1 = .ok ops[k].raw

theorem Uninterrupted.tail {n : ℕ} (h : backend.Uninterrupted (n + 1)) :
    backend.step.Uninterrupted n := fun k hk => h (k + 1) (succ_lt_succ hk)

theorem KeepsCode.tail {ops : List DbtDryRunIrOp} (h : backend.KeepsCode (op :: ops)) :
    backend.step.KeepsCode ops := fun k hk => h (k + 1) (succ_lt_succ hk)

/-- The interpreter and the evaluator are at the same point of a block. -/
structure Agrees (instret : BitVec 64) (core : CoreState) (result : DbtIrEvaluationResult) :
    Prop where
  ok : result.ok
  gpr : core.gpr = result.gpr
  zero : core.gpr 0 = 0
  pc : core.pc = result.nextPc
  instret : core.instret = instret + result.retiredInstructions

omit [Fpu] in
theorem Agrees.evaluateInstruction {core : CoreState} (h : Agrees instret core result)
    (hopcode : instruction.opcode ≠ .fallthrough) :
    Agrees instret (afterInstruction core instruction)
      (evaluateInstruction result instruction) := by
  unfold DbtIr.evaluateInstruction
  rw [if_neg hopcode]
  constructor
  · exact h.ok
  · exact congrArg (fun gpr => writeGpr gpr instruction.rd (value instruction gpr))
      h.gpr
  · exact writeGpr_zero core.gpr instruction.rd (value instruction core.gpr)
  · rfl
  · exact (congrArg (· + 1) h.instret).trans (add_assoc _ _ _)

theorem run_agrees {ops : List DbtDryRunIrOp} {instructions : List DbtIrInstruction}
    (hops : List.Forall₂ (fun op instruction => translateIntegerOp op = some instruction) ops
      instructions)
    (h : Agrees instret backend.cpu.core result) (hfollow : FollowFrom backend.cpu.core.pc ops)
    (hquiet : backend.Uninterrupted ops.length) (hcode : backend.KeepsCode ops) :
    Agrees instret (step^[ops.length] backend).cpu.core
      (instructions.foldl evaluateInstruction result) := by
  induction hops generalizing backend result with
  | nil => exact h
  | @cons op instruction ops instructions hop hrest ih =>
    obtain ⟨hpc, hnext, hfollow⟩ := hfollow
    have hstep := step_translated hop hpc.symm h.zero (hpc ▸ hnext) (hquiet 0 (by simp))
      (hcode 0 (by simp))
    obtain ⟨-, hopcode, hnextPc, -⟩ := buildEffects_translated backend.cpu hop hpc.symm
      h.zero
    have hagrees := h.evaluateInstruction hopcode
    rw [← hstep] at hagrees
    refine ih hagrees ?_ hquiet.tail hcode.tail
    rw [hstep]
    change FollowFrom instruction.nextPc ops
    rw [hnextPc]
    exact hfollow

/-- Running the unit of a block, when planning and translation succeed, gives what the
backend reaches by executing the planned instructions: the registers, the pc and the
number of instructions retired. -/
theorem evaluateDbtIrUnit_refines {fuel : ℕ} {cpu after : Cpu D} {startPc endPc : BitVec 64}
    {plan : DbtBlockPlan} (hplan : planDbtBlock fuel cpu startPc endPc = some (plan, after))
    (hunit : (translateDbtBlock plan).ok) (hpc : cpu.core.pc = startPc)
    (hzero : cpu.core.gpr 0 = 0) (hsame : cpu.SameRegisters backend.cpu)
    (hquiet : backend.Uninterrupted plan.dryRunIr.length)
    (hcode : backend.KeepsCode plan.dryRunIr) :
    let result := evaluateDbtIrUnit (translateDbtBlock plan) ⟨cpu.core.gpr, cpu.core.pc⟩
    let reached := (step^[plan.dryRunIr.length] backend).cpu.core
    result.ok ∧ result.gpr = reached.gpr ∧ result.nextPc = reached.pc ∧
      result.retiredInstructions = BitVec.ofNat 64 plan.dryRunIr.length ∧
      reached.instret = backend.cpu.core.instret + result.retiredInstructions := by
  obtain ⟨hstart, more, hmore, hfollow⟩ := planFrom_follows hplan
  rw [nil_append] at hmore
  rw [← hmore] at hfollow
  obtain ⟨instructions, hops, heval⟩ := evaluateDbtIrUnit_translated hunit
    ⟨cpu.core.gpr, cpu.core.pc⟩ (hpc.trans hstart.symm)
  have hkept : update cpu.core.gpr 0 0 = cpu.core.gpr :=
    update_eq_self_iff.2 hzero.symm
  have hagrees : Agrees backend.cpu.core.instret backend.cpu.core
      { ok := true, gpr := cpu.core.gpr, nextPc := cpu.core.pc } := by
    rw [hsame.core]
    exact ⟨rfl, rfl, hzero, rfl, (add_zero _).symm⟩
  have hrun := run_agrees hops hagrees (by rwa [hsame.core, hpc]) hquiet hcode
  have hretired := foldl_retired hops { ok := true, gpr := cpu.core.gpr, nextPc := cpu.core.pc }
  rw [heval]
  dsimp only
  rw [hkept]
  refine ⟨hrun.ok, ?_, hrun.pc.symm, ?_, hrun.instret⟩
  · rw [← hrun.gpr]
    exact update_eq_self_iff.2 hrun.zero.symm
  rw [hretired]
  exact zero_add _

end

/-- Two compressed instructions and a full one. -/
def mixedBlockProgram : List (BitVec 32) :=
  [0x05054515, -- c.li a0, 5; c.addi a0, 1
    0x00150593] -- addi a1, a0, 1

def mixedBlockMachine : FunctionalBackend Unit := reset (Ram.ofWords memBase mixedBlockProgram) ()

theorem mixedBlock_refines :
    letI := Fpu.silent
    ∃ plan after, planDbtBlock 4 mixedBlockMachine.cpu memBase (memBase + 4) = some (plan, after) ∧
      let result := evaluateDbtIrUnit (translateDbtBlock plan)
        ⟨mixedBlockMachine.cpu.core.gpr, mixedBlockMachine.cpu.core.pc⟩
      let reached := (step^[plan.dryRunIr.length] mixedBlockMachine).cpu.core
      result.ok ∧ result.gpr = reached.gpr ∧ result.nextPc = reached.pc ∧
        result.retiredInstructions = BitVec.ofNat 64 plan.dryRunIr.length ∧
        reached.instret = mixedBlockMachine.cpu.core.instret + result.retiredInstructions := by
  let := Fpu.silent
  have hsome : (planDbtBlock 4 mixedBlockMachine.cpu memBase (memBase + 4)).isSome := by
    decide
  obtain ⟨⟨plan, after⟩, hplan⟩ := isSome_iff_exists.1 hsome
  have hruns : ∀ planned ∈ planDbtBlock 4 mixedBlockMachine.cpu memBase (memBase + 4),
      (translateDbtBlock planned.1).ok ∧ mixedBlockMachine.Uninterrupted planned.1.dryRunIr.length ∧
        mixedBlockMachine.KeepsCode planned.1.dryRunIr := by
    unfold Uninterrupted KeepsCode
    decide
  obtain ⟨hunit, hquiet, hcode⟩ := hruns _ hplan
  exact ⟨plan, after, hplan, evaluateDbtIrUnit_refines hplan hunit rfl rfl (.refl _) hquiet hcode⟩

end FunctionalBackend

/-- A transfer of the DMA engine to RAM, which lands when its cycles have passed. -/
structure DmaStore where
  remainingCycles : ℕ
  systemAddr : BitVec 64
  buffer : List (BitVec 8)

/-- A bus with a DMA engine that has at most one store in progress. -/
instance : Devices (Option DmaStore) where
  contains _ _ := false
  load d _ _ := (none, d)
  store d ram _ _ _ := (false, d, ram)
  tick
    | none, ram => ({}, none, ram)
    | some active, ram =>
      if active.remainingCycles ≤ 1 then ({}, none, ram.storeBytes active.systemAddr active.buffer)
      else ({}, some { active with remainingCycles := active.remainingCycles - 1 }, ram)
  peekEvents _ := {}
  mtime _ := none

namespace FunctionalBackend

/-- A block whose second instruction a DMA store is about to replace. -/
def overwrittenBlockProgram : List (BitVec 32) :=
  [0x00100093, -- addi x1, x0, 1
    0x00100113] -- addi x2, x0, 1

def overwrittenBlockMachine : FunctionalBackend (Option DmaStore) :=
  reset (Ram.ofWords memBase overwrittenBlockProgram)
    (some ⟨2, memBase + 4, [0x13, 0x01, 0x20, 0x00]⟩) -- addi x2, x0, 2

/-- The unit still adds one where the interpreter, without an interrupt, adds two. -/
theorem overwrittenBlock_differs :
    letI := Fpu.silent
    ∃ plan after,
      planDbtBlock 4 overwrittenBlockMachine.cpu memBase (memBase + 4) = some (plan, after) ∧
      plan.ok ∧ (translateDbtBlock plan).ok ∧ plan.dryRunIr.length = 2 ∧
      overwrittenBlockMachine.cpu.core.pc = memBase ∧
      overwrittenBlockMachine.Uninterrupted 2 ∧
      (evaluateDbtIrUnit (translateDbtBlock plan)
        ⟨overwrittenBlockMachine.cpu.core.gpr, memBase⟩).gpr 2 = 1 ∧
      (step^[2] overwrittenBlockMachine).cpu.core.gpr 2 = 2 := by
  let := Fpu.silent
  have hsome : (planDbtBlock 4 overwrittenBlockMachine.cpu memBase (memBase + 4)).isSome := by
    decide
  obtain ⟨⟨plan, after⟩, hplan⟩ := isSome_iff_exists.1 hsome
  have hruns : ∀ planned ∈ planDbtBlock 4 overwrittenBlockMachine.cpu memBase (memBase + 4),
      planned.1.ok ∧ (translateDbtBlock planned.1).ok ∧ planned.1.dryRunIr.length = 2 ∧
        (evaluateDbtIrUnit (translateDbtBlock planned.1)
          ⟨overwrittenBlockMachine.cpu.core.gpr, memBase⟩).gpr 2 = 1 := by
    decide
  obtain ⟨hok, hunit, hlength, hevaluated⟩ := hruns _ hplan
  refine ⟨plan, after, hplan, hok, hunit, hlength, rfl, ?_, hevaluated, by decide⟩
  unfold Uninterrupted
  decide

end FunctionalBackend

end VisualCpu
