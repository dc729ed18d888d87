import VisualCpu.Dbt.HostCode
import VisualCpu.Dbt.Translation

/-!
# Host blocks and the evaluator

A block that was emitted for a unit and called from the host program changes the
register array as the evaluator does, returns the evaluator's pc and leaves the rest
of the memory and the saved registers alone. The differential check of such a block
succeeds.
-/

namespace VisualCpu

open List Function X86 DbtHostEmitter DbtIrLowering DbtIr Machine

section Array

variable {ram : Ram} {base : BitVec 64} {gpr : Fin 32 → BitVec 64}

theorem arrayOffset_ne {i j : ℕ} (hi : i < 256) (hj : j < 256) (hne : i ≠ j) :
    base + BitVec.ofNat 64 i ≠ base + BitVec.ofNat 64 j := by
  intro h
  have hoffset := congrArg BitVec.toNat ((BitVec.add_right_inj _).1 h)
  rw [BitVec.toNat_ofNat, BitVec.toNat_ofNat] at hoffset
  omega

theorem slot_byte (i : Fin 32) (k : ℕ) :
    base + BitVec.ofNat 64 (8 * i.val) + BitVec.ofNat 64 k =
      base + BitVec.ofNat 64 (8 * i.val + k) := by
  rw [BitVec.add_assoc, ← BitVec.ofNat_add]

theorem slots_disjoint {i j : Fin 32} (h : i ≠ j) :
    Ram.Disjoint (base + BitVec.ofNat 64 (8 * i.val)) 8 (base + BitVec.ofNat 64 (8 * j.val)) 8 := by
  intro k hk l hl
  have hval : i.val ≠ j.val := fun heq => h (Fin.ext heq)
  rw [slot_byte, slot_byte]
  exact arrayOffset_ne (by omega) (by omega) (by omega)

theorem DbtHostEmitter.HoldsGpr.store (h : HoldsGpr ram base gpr) (i : Fin 32) (value : BitVec 64) :
    HoldsGpr (ram.store (base + BitVec.ofNat 64 (8 * i.val)) value 8) base
      (update gpr i value) := by
  intro j
  by_cases hj : j = i
  · rw [hj, update_self, Ram.load_store_eight]
  · rw [update_of_ne hj, Ram.load_store_disjoint _ (slots_disjoint hj), h j]

theorem DbtHostEmitter.HoldsGpr.loadGprs (h : HoldsGpr ram base gpr) : ram.loadGprs base = gpr :=
  funext h

theorem holdsGpr_storeGprs : HoldsGpr (ram.storeGprs base gpr) base gpr := by
  intro i
  apply BitVec.eq_of_getLsbD_eq
  intro k hk
  have hoffset : (base + BitVec.ofNat 64 (8 * i.val + k / 8) - base).toNat = 8 * i.val + k / 8 :=
    Ram.offset_eq base (by omega)
  have hslot : (8 * i.val + k / 8) / 8 = i.val := by omega
  have hbyte : (8 * i.val + k / 8) % 8 = k / 8 := by omega
  have hbit : 8 * (k / 8) + k % 8 = k := by omega
  rw [Ram.load_getLsbD, slot_byte]
  simp only [Ram.storeGprs, hoffset]
  rw [if_pos (by omega), hslot, hbyte, Fin.ofNat_val_eq_self, Ram.byteOf_getLsbD, hbit]
  simp [hk, show k / 8 < 8 by omega, Nat.mod_lt k (show 0 < 8 by decide)]

end Array

/-- Store to a slot of the array in `rdi`. -/
def X86.Machine.storeSlot (m : Machine) (i : Fin 32) (value : BitVec 64) : Machine :=
  { m with ram := m.ram.store (m.reg rdi + BitVec.ofNat 64 (8 * i.val)) value 8 }

/-- Only the scratch registers and the register array may change. -/
structure X86.Machine.Preserves (m m' : Machine) : Prop where
  reg : ∀ r, r ≠ rax → r ≠ rcx → m'.reg r = m.reg r
  ram : ∀ a, (∀ k < 256, a ≠ m.reg rdi + BitVec.ofNat 64 k) → m'.ram a = m.ram a

namespace X86.Machine.Preserves

variable {m m' m'' : Machine}

theorem rdi_eq (h : m.Preserves m') : m'.reg rdi = m.reg rdi := h.reg rdi (by decide) (by decide)

theorem trans (h : m.Preserves m') (h' : m'.Preserves m'') : m.Preserves m'' where
  reg r hrax hrcx := (h'.reg r hrax hrcx).trans (h.reg r hrax hrcx)
  ram a ha := (h'.ram a (by rwa [h.rdi_eq])).trans (h.ram a ha)

theorem scratch (m : Machine) (lhs rhs : BitVec 64) (flags : Option Flags) :
    m.Preserves (scratch m lhs rhs flags) where
  reg _ hrax hrcx := scratch_reg m lhs rhs flags hrax hrcx
  ram _ _ := rfl

theorem storeSlot (m : Machine) (i : Fin 32) (value : BitVec 64) :
    m.Preserves (m.storeSlot i value) where
  reg _ _ _ := rfl
  ram a ha := by
    refine Ram.store_of_not_mem _ fun j hj => ?_
    rw [slot_byte]
    exact ha _ (by omega)

end X86.Machine.Preserves

section Instruction

variable {m : Machine} {gpr : Fin 32 → BitVec 64} {code : List (BitVec 8)}

theorem runs_storeRaxToGpr (reg : ℕ) : Runs (emitStoreRaxToGpr reg) m
    (m.storeSlot (Fin.ofNat 32 reg) (m.reg rax)) := by
  refine .instr (by simp [emitStoreRaxToGpr]) (fun rest => decode_storeRaxToGpr rest reg)
    (by simp) ?_
  rw [exec, write, address_gprOffset]
  rfl

theorem runs_zeroX0 : Runs emitZeroX0 m (m.storeSlot 0 0) := by
  refine .instr (by simp [emitZeroX0]) decode_zeroX0 (by simp) ?_
  simp [exec, write, address, Width.bytes, storeSlot]

/-- A register number below 32 is written by the evaluator and by the code alike. -/
theorem writeGpr_eq_update {rd : ℕ} (hrd : rd < 32) (hzero : gpr 0 = 0) (value : BitVec 64) :
    writeGpr gpr rd value =
      if rd ≠ 0 then update gpr (Fin.ofNat 32 rd) value else gpr := by
  unfold writeGpr
  by_cases h : rd = 0
  · simp [h, ← hzero]
  have hne : (0 : Fin 32) ≠ Fin.ofNat 32 rd := by
    intro heq
    have hval := congrArg Fin.val heq
    simp only [Fin.ofNat, Nat.mod_eq_of_lt hrd] at hval
    exact h hval.symm
  have hzero' : update gpr (Fin.ofNat 32 rd) value 0 = 0 := by
    rw [update_of_ne hne, hzero]
  simp only [h, hrd, ne_eq, not_false_eq_true, and_self, if_true]
  rw [← hzero', update_eq_self]

theorem runs_emitCompute {instruction : DbtIrInstruction} (hrd : instruction.rd < 32)
    (hopcode : instruction.opcode ≠ .fallthrough)
    (hvalid : validOperation (lowerIrInstruction instruction))
    (hcode : emitCompute (lowerIrInstruction instruction) = some code)
    (hgpr : HoldsGpr m.ram (m.reg rdi) gpr) (hzero : gpr 0 = 0) :
    ∃ m', Runs code m m' ∧ m.Preserves m' ∧ HoldsGpr m'.ram (m'.reg rdi)
      (writeGpr gpr instruction.rd (value instruction gpr)) := by
  obtain ⟨codeValue, hvalue, rfl⟩ := Option.map_eq_some_iff.1 hcode
  obtain ⟨rhs, flags, hruns⟩ := computes_emitValue hvalid hvalue hgpr
  rw [loweredValue_lowerIrInstruction hopcode] at hruns
  have hscratch := Machine.Preserves.scratch m (value instruction gpr) rhs flags
  have hholds : HoldsGpr (scratch m (value instruction gpr) rhs flags).ram
      ((scratch m (value instruction gpr) rhs flags).reg rdi) gpr := by
    rw [hscratch.rdi_eq]
    exact hgpr
  have hfields : (lowerIrInstruction instruction).rd = instruction.rd ∧
      (lowerIrInstruction instruction).writesGpr = (instruction.rd != 0) := by
    unfold lowerIrInstruction
    cases h : instruction.opcode with
    | fallthrough => exact absurd h hopcode
    | _ => exact ⟨rfl, rfl⟩
  rw [hfields.1, hfields.2, writeGpr_eq_update hrd hzero]
  by_cases hzeroRd : instruction.rd = 0
  · refine ⟨_, ?_, hscratch, ?_⟩
    · simpa [hzeroRd] using hruns
    · simpa [hzeroRd] using hholds
  have hstore := hruns.append (runs_storeRaxToGpr instruction.rd)
  rw [scratch_rax] at hstore
  have hholds' := hholds.store (Fin.ofNat 32 instruction.rd) (value instruction gpr)
  rw [if_pos hzeroRd]
  refine ⟨_, ?_, hscratch.trans (.storeSlot _ _ _), hholds'⟩
  simpa only [bne_iff_ne, ne_eq, hzeroRd, not_false_eq_true, if_true] using hstore

end Instruction

/-- The code runs to its return from a machine that was `m'` before it. -/
def X86.Returns (code : List (BitVec 8)) (m m' : Machine) : Prop :=
  ∀ rest fuel, code.length ≤ fuel →
    run fuel (code ++ rest) m =
      some (m'.ram.load (m'.reg rsp) 8, m'.setReg rsp (m'.reg rsp + 8))

theorem X86.Runs.returns {code code' : List (BitVec 8)} {m m' m'' : Machine}
    (h : Runs code m m') (h' : Returns code' m' m'') : Returns (code ++ code') m m'' := by
  intro rest fuel hfuel
  rw [length_append] at hfuel
  obtain ⟨k, hk, hrun⟩ := h (code' ++ rest)
  have hsplit : fuel = fuel - k + k := by omega
  rw [List.append_assoc, hsplit, hrun]
  exact h' rest (fuel - k) (by omega)

variable {code : List (BitVec 8)}

theorem X86.Returns.append {m m' : Machine} (h : Returns code m m')
    (code' : List (BitVec 8)) : Returns (code ++ code') m m' := by
  intro rest fuel hfuel
  rw [length_append] at hfuel
  rw [List.append_assoc]
  exact h (code' ++ rest) fuel (by omega)

theorem returns_ret (m : Machine) : Returns [0xC3] m m := by
  intro rest fuel hfuel
  obtain ⟨fuel, rfl⟩ : ∃ n, fuel = n + 1 := ⟨fuel - 1, by simp at hfuel; omega⟩
  have hdecode : X86.decode ([0xC3] ++ rest) = some (.ret, rest) := rfl
  rw [run, hdecode]

/-- The numbers name registers, as those of a decoded instruction do. -/
structure DbtIrInstruction.Bounded (instruction : DbtIrInstruction) : Prop where
  rd : instruction.rd < 32
  rs1 : instruction.rs1 < 32
  rs2 : instruction.rs2 < 32

theorem lowerIrInstruction_opcode (instruction : DbtIrInstruction) :
    (lowerIrInstruction instruction).opcode =
        (if instruction.opcode = .fallthrough then .fallthrough else .compute) ∧
      (lowerIrInstruction instruction).nextPc = instruction.nextPc := by
  unfold lowerIrInstruction
  cases h : instruction.opcode <;> exact ⟨rfl, rfl⟩

variable {result : DbtIrEvaluationResult}

theorem returns_emitInstructions {instructions : List DbtIrInstruction} {m : Machine}
    (hbounded : ∀ instruction ∈ instructions, instruction.Bounded)
    (hvalid : validateFrom false (instructions.map lowerIrInstruction) = none)
    (hcode : emitInstructions (instructions.map lowerIrInstruction) = some code)
    (hgpr : HoldsGpr m.ram (m.reg rdi) result.gpr) (hzero : result.gpr 0 = 0) :
    ∃ m', Returns code m m' ∧ m.Preserves m' ∧
      HoldsGpr m'.ram (m'.reg rdi) (instructions.foldl evaluateInstruction result).gpr ∧
      m'.reg rax = (instructions.foldl evaluateInstruction result).nextPc ∧
      (instructions.foldl evaluateInstruction result).retiredInstructions + 1 =
        result.retiredInstructions + BitVec.ofNat 64 instructions.length := by
  induction instructions generalizing m code result with
  | nil => simp [validateFrom] at hvalid
  | cons instruction instructions ih =>
    rw [map_cons] at hvalid hcode
    obtain ⟨codeHead, hhead, hcode⟩ := Option.bind_eq_some_iff.1 hcode
    obtain ⟨codeTail, htail, hcode⟩ := Option.bind_eq_some_iff.1 hcode
    cases hcode
    obtain ⟨hopcode, hnext⟩ := lowerIrInstruction_opcode instruction
    simp only [validateFrom, hopcode] at hvalid
    simp only [emitInstruction, hopcode] at hhead
    by_cases hfall : instruction.opcode = .fallthrough
    · -- the fallthrough is the last instruction and returns
      simp only [hfall, if_true] at hvalid hhead
      cases instructions with
      | cons => simp [validateFrom] at hvalid
      | nil =>
        rw [hnext] at hhead
        cases hhead
        refine ⟨scratch m instruction.nextPc (m.reg rcx) m.flags, ?_, .scratch m _ _ _, ?_⟩
        · have hmove : Runs (emitMovRaxImm instruction.nextPc)
              (scratch m (m.reg rax) (m.reg rcx) m.flags) _ := runs_movRaxImm instruction.nextPc
          rw [scratch_self] at hmove
          exact (hmove.returns (returns_ret _)).append codeTail
        · simp only [foldl_cons, foldl_nil, evaluateInstruction, hfall, if_true,
            scratch_rax, scratch_ram, length_singleton]
          rw [scratch_reg m _ _ _ (by decide) (by decide)]
          exact ⟨hgpr, trivial, rfl⟩
    · simp only [hfall, if_false] at hvalid hhead
      split_ifs at hvalid with hoperation
      obtain ⟨m', hruns, hpreserves, hgpr'⟩ := runs_emitCompute
        (hbounded instruction mem_cons_self).rd hfall hoperation hhead hgpr hzero
      have hstep : evaluateInstruction result instruction =
          { result with
            gpr := writeGpr result.gpr instruction.rd
              (value instruction result.gpr)
            nextPc := instruction.nextPc
            retiredInstructions := result.retiredInstructions + 1 } := by
        rw [evaluateInstruction, if_neg hfall]
      have hzero' : (evaluateInstruction result instruction).gpr 0 = 0 := by
        simp only [hstep, writeGpr_zero]
      obtain ⟨m'', hreturns, hpreserves', hgpr'', hrax, hretired⟩ :=
        ih (fun i hi => hbounded i (mem_cons_of_mem _ hi)) hvalid htail
          (by rw [hstep]; exact hgpr') hzero'
      refine ⟨m'', hruns.returns hreturns, hpreserves.trans hpreserves', hgpr'', hrax, ?_⟩
      rw [foldl_cons, hretired, hstep, length_cons, BitVec.ofNat_add, BitVec.add_assoc,
        BitVec.add_comm 1]
      rfl

theorem foldl_gpr_zero (hzero : result.gpr 0 = 0) (instructions : List DbtIrInstruction) :
    (instructions.foldl evaluateInstruction result).gpr 0 = 0 := by
  induction instructions generalizing result with
  | nil => exact hzero
  | cons instruction instructions ih =>
    apply ih
    unfold evaluateInstruction
    split_ifs
    · exact hzero
    · simp only [writeGpr_zero]

theorem foldl_ok (result : DbtIrEvaluationResult) (instructions : List DbtIrInstruction) :
    (instructions.foldl evaluateInstruction result).ok = result.ok := by
  induction instructions generalizing result with
  | nil => rfl
  | cons instruction instructions ih =>
    rw [foldl_cons, ih, evaluateInstruction]
    split_ifs <;> rfl

theorem X86.Machine.setReg_of_ne (m : Machine) {r r' : Reg} (h : r ≠ r') (value : BitVec 64) :
    (m.setReg r' value).reg r = m.reg r := by
  simp [setReg, h]

namespace HostFrame

variable (frame : HostFrame) (gpr : Fin 32 → BitVec 64) (pc : BitVec 64)

theorem enter_rdi : (frame.enter gpr pc).reg rdi = frame.array := by
  simp [enter]

theorem enter_rsp : (frame.enter gpr pc).reg rsp = frame.machine.reg rsp - 8 := by
  simp only [enter]
  rw [update_of_ne (by decide), update_of_ne (by decide), update_self]

theorem enter_calleeSaved {r : Reg} (h : r ∈ calleeSaved) :
    (frame.enter gpr pc).reg r = frame.machine.reg r := by
  have hne : ∀ r ∈ calleeSaved, r ≠ rdi ∧ r ≠ rsi ∧ r ≠ rsp := by decide
  obtain ⟨hrdi, hrsi, hrsp⟩ := hne r h
  simp only [enter]
  rw [update_of_ne hrdi, update_of_ne hrsi, update_of_ne hrsp]

theorem enter_holdsGpr : HoldsGpr (frame.enter gpr pc).ram frame.array gpr := by
  intro i
  have hslot : Ram.Disjoint (frame.array + BitVec.ofNat 64 (8 * i.val)) 8
      (frame.machine.reg rsp - 8) 8 := by
    intro k hk j hj
    rw [slot_byte]
    exact (frame.apart j hj _ (by omega)).symm
  rw [enter, Ram.load_store_disjoint _ hslot]
  exact holdsGpr_storeGprs i

theorem call_eq {code : List (BitVec 8)} {m : Machine}
    (hreturns : Returns code (frame.enter gpr pc) m)
    (hpreserves : (frame.enter gpr pc).Preserves m) :
    frame.call code gpr pc = some (m.setReg rsp (frame.machine.reg rsp)) := by
  have hrsp : m.reg rsp = frame.machine.reg rsp - 8 :=
    (hpreserves.reg rsp (by decide) (by decide)).trans (frame.enter_rsp gpr pc)
  have hstack : m.ram.load (frame.machine.reg rsp - 8) 8 = frame.returnAddress := by
    have hsame : m.ram.load (frame.machine.reg rsp - 8) 8 =
        (frame.enter gpr pc).ram.load (frame.machine.reg rsp - 8) 8 := by
      apply Ram.load_congr
      intro i hi
      apply hpreserves.ram
      intro k hk
      rw [enter_rdi]
      exact frame.apart i hi k hk
    rw [hsame, enter, Ram.load_store_eight]
  have hrun := hreturns [] code.length le_rfl
  rw [append_nil, hrsp, hstack, BitVec.sub_add_cancel] at hrun
  rw [call, hrun, Option.bind_some]
  exact if_pos rfl

end HostFrame

/-- A called block agrees with the evaluator: it returns to the host program with the
evaluator's pc and registers, changes no other memory and no saved register, and passes
the differential check. -/
structure HostBlockAgrees (executable : DbtHostExecutable) (unit : DbtTranslationUnit)
    (frame : HostFrame) (gpr : Fin 32 → BitVec 64) (pc : BitVec 64) : Prop where
  call : ∃ m, frame.call executable.code gpr pc = some m ∧
    m.reg rax = (evaluateDbtIrUnit unit ⟨gpr, pc⟩).nextPc ∧
    m.ram.loadGprs frame.array = (evaluateDbtIrUnit unit ⟨gpr, pc⟩).gpr ∧
    (∀ a, (∀ k < 256, a ≠ frame.array + BitVec.ofNat 64 k) →
      m.ram a = (frame.enter gpr pc).ram a) ∧
    m.reg rsp = frame.machine.reg rsp ∧ ∀ r ∈ calleeSaved, m.reg r = frame.machine.reg r
  matched : ∀ {D : Type} (cpu : Cpu D), ∃ result cpu',
    executeWithGuardrail frame cpu unit executable gpr pc = some (result, cpu') ∧
      result.differentialMatched

section Emitted

variable {hostError : List (BitVec 8) → Option String} {unit : DbtTranslationUnit}

theorem emitDbtHostBlock_ok (h : (emitDbtHostBlock hostError (lowerDbtIrUnit unit)).ok) :
    unit.ok ∧ validateFrom false (unit.instructions.map lowerIrInstruction) = none ∧
      ∃ code, emitInstructions (unit.instructions.map lowerIrInstruction) = some code ∧
        (emitDbtHostBlock hostError (lowerDbtIrUnit unit)).code = emitZeroX0 ++ code := by
  unfold emitDbtHostBlock lowerDbtIrUnit at h ⊢
  by_cases hok : unit.ok
  · simp only [hok, Bool.not_true, Bool.false_eq_true, if_false] at h ⊢
    cases hvalid : validateFrom false (unit.instructions.map lowerIrInstruction) with
    | some rejection => simp [hvalid, rejectEmission] at h
    | none =>
      simp only [hvalid, emitCode] at h ⊢
      cases hcode : emitInstructions (unit.instructions.map lowerIrInstruction) with
      | none => simp [hcode, rejectEmission] at h
      | some code =>
        simp only [hcode, Option.map_some] at h ⊢
        cases herror : hostError (emitZeroX0 ++ code) with
        | some error => simp [herror] at h
        | none => exact ⟨trivial, trivial, code, rfl, rfl⟩
  · simp [hok] at h

section

variable (hbounded : ∀ instruction ∈ unit.instructions, instruction.Bounded)

include hbounded

variable (h : (emitDbtHostBlock hostError (lowerDbtIrUnit unit)).ok)

include h

theorem emitted_call
 (frame : HostFrame)
    (gpr : Fin 32 → BitVec 64) (pc : BitVec 64) :
    ∃ m, frame.call (emitDbtHostBlock hostError (lowerDbtIrUnit unit)).code gpr pc =
        some (m.setReg rsp (frame.machine.reg rsp)) ∧
      (frame.enter gpr pc).Preserves m ∧
      m.reg rax = (evaluateDbtIrUnit unit ⟨gpr, pc⟩).nextPc ∧
      m.ram.loadGprs frame.array = (evaluateDbtIrUnit unit ⟨gpr, pc⟩).gpr ∧
      (evaluateDbtIrUnit unit ⟨gpr, pc⟩).retiredInstructions + 1 =
        BitVec.ofNat 64 unit.instructions.length := by
  obtain ⟨hok, hvalid, code, hcode, hexecutable⟩ := emitDbtHostBlock_ok h
  have hentry : HoldsGpr (frame.enter gpr pc).ram ((frame.enter gpr pc).reg rdi) gpr := by
    rw [HostFrame.enter_rdi]
    exact frame.enter_holdsGpr gpr pc
  let start : DbtIrEvaluationResult :=
    { ok := true, gpr := update gpr 0 0, nextPc := pc }
  have hstartZero : start.gpr 0 = 0 := by simp [start]
  have hstart : HoldsGpr ((frame.enter gpr pc).storeSlot 0 0).ram
      (((frame.enter gpr pc).storeSlot 0 0).reg rdi) start.gpr := hentry.store 0 0
  obtain ⟨m, hreturns, hpreserves, hgpr, hrax, hretired⟩ := returns_emitInstructions hbounded hvalid
    hcode hstart hstartZero
  have hpreserves' := (Machine.Preserves.storeSlot _ 0 0).trans hpreserves
  have hzero : (unit.instructions.foldl evaluateInstruction start).gpr 0 = 0 :=
    foldl_gpr_zero hstartZero _
  have heval : evaluateDbtIrUnit unit ⟨gpr, pc⟩ =
      unit.instructions.foldl evaluateInstruction start := by
    have hgprZero : update (unit.instructions.foldl evaluateInstruction start).gpr
        0 0 = (unit.instructions.foldl evaluateInstruction start).gpr := by
      rw [← hzero, update_eq_self]
    simp only [evaluateDbtIrUnit, hok, Bool.not_true, Bool.false_eq_true, if_false]
    rw [hgprZero]
  rw [heval]
  refine ⟨m, ?_, hpreserves', hrax, ?_, ?_⟩
  · rw [hexecutable]
    exact frame.call_eq gpr pc (runs_zeroX0.returns hreturns) hpreserves'
  · rw [hpreserves'.rdi_eq, HostFrame.enter_rdi] at hgpr
    exact hgpr.loadGprs
  · simpa [start] using hretired

theorem emitted_matched {D : Type}
 (frame : HostFrame)
    (cpu : Cpu D) (gpr : Fin 32 → BitVec 64) (pc : BitVec 64) :
    executeWithGuardrail frame cpu unit (emitDbtHostBlock hostError (lowerDbtIrUnit unit)) gpr pc =
      some (
        { ok := true, differentialChecked := true, differentialMatched := true
          nextPc := (evaluateDbtIrUnit unit ⟨gpr, pc⟩).nextPc
          irExpectedRetiredCount := (evaluateDbtIrUnit unit ⟨gpr, pc⟩).retiredInstructions },
        cpu.mapCore fun core =>
          ((core.commitGprs (evaluateDbtIrUnit unit ⟨gpr, pc⟩).gpr).setPc
            (evaluateDbtIrUnit unit ⟨gpr, pc⟩).nextPc).advanceInstretBy
              (evaluateDbtIrUnit unit ⟨gpr, pc⟩).retiredInstructions) := by
  obtain ⟨hok, -⟩ := emitDbtHostBlock_ok h
  obtain ⟨m, hcall, -, hrax, hgpr, hretired⟩ := emitted_call hbounded h frame gpr pc
  have hevalOk : (evaluateDbtIrUnit unit ⟨gpr, pc⟩).ok := by
    simp only [evaluateDbtIrUnit, hok, Bool.not_true, Bool.false_eq_true, if_false, foldl_ok]
  have hzero : update (evaluateDbtIrUnit unit ⟨gpr, pc⟩).gpr 0 0 =
      (evaluateDbtIrUnit unit ⟨gpr, pc⟩).gpr := by
    simp [evaluateDbtIrUnit, hok]
  have hexecute : executeDbtHostBlock frame (emitDbtHostBlock hostError (lowerDbtIrUnit unit))
      gpr pc = some ((evaluateDbtIrUnit unit ⟨gpr, pc⟩).nextPc,
        (evaluateDbtIrUnit unit ⟨gpr, pc⟩).gpr) := by
    have hreg : (m.setReg rsp (frame.machine.reg rsp)).reg rax = m.reg rax :=
      m.setReg_of_ne (by decide) _
    simp only [executeDbtHostBlock, h, hcall, Option.map_some, hreg, hrax]
    rw [← hgpr]
    rfl
  simp only [executeWithGuardrail, hevalOk, hexecute, hzero, hretired, Option.map_some]
  simp

end

/-- An emitted block agrees with the evaluator in every call. -/
theorem emitDbtHostBlock_agrees
    (hbounded : ∀ instruction ∈ unit.instructions, instruction.Bounded)
    (h : (emitDbtHostBlock hostError (lowerDbtIrUnit unit)).ok) (frame : HostFrame)
    (gpr : Fin 32 → BitVec 64) (pc : BitVec 64) :
    HostBlockAgrees (emitDbtHostBlock hostError (lowerDbtIrUnit unit)) unit frame gpr pc where
  call := by
    obtain ⟨m, hcall, hpreserves, hrax, hgpr, -⟩ := emitted_call hbounded h frame gpr pc
    refine ⟨_, hcall, ?_, hgpr, ?_, ?_, ?_⟩
    · rw [m.setReg_of_ne (by decide), hrax]
    · intro a ha
      exact hpreserves.ram a (by rwa [HostFrame.enter_rdi])
    · simp [Machine.setReg]
    · intro r hr
      have hne : ∀ r ∈ calleeSaved, r ≠ rsp ∧ r ≠ rax ∧ r ≠ rcx := by decide
      obtain ⟨hrsp, hrax, hrcx⟩ := hne r hr
      rw [m.setReg_of_ne hrsp, hpreserves.reg r hrax hrcx, frame.enter_calleeSaved gpr pc hr]
  matched cpu := ⟨_, _, emitted_matched hbounded h frame cpu gpr pc, rfl⟩

end Emitted

/-- A host program with the array away from its stack. -/
def sampleFrame : HostFrame where
  machine := ⟨fun _ => 0x10000, fun _ => 0, none⟩
  array := 0x20000
  returnAddress := 0x400000
  apart := by
    intro i hi j hj h
    have hval := congrArg BitVec.toNat h
    simp at hval
    omega

/-- A comparison and a word shift. -/
def sampleUnit : DbtTranslationUnit where
  ok := true
  startPc := 0x80000000
  endPc := 0x80000004
  codeSpans := []
  instructions :=
    [{ opcode := .setLessThanRegImm, pc := 0x80000000, rd := 5, rs1 := 6, imm := -1,
       nextPc := 0x80000004 },
     { opcode := .shiftLeftRegRegWord, pc := 0x80000004, rd := 7, rs1 := 6, rs2 := 5,
       nextPc := 0x80000008 },
     { opcode := .fallthrough, pc := 0x80000004, nextPc := 0x80000008 }]

theorem sampleUnit_agrees : HostBlockAgrees
    (emitDbtHostBlock (fun _ => none) (lowerDbtIrUnit sampleUnit)) sampleUnit sampleFrame
    (fun i => BitVec.ofNat 64 (3 * i.val)) 0x80000000 := by
  refine emitDbtHostBlock_agrees ?_ (by decide) _ _ _
  have hnumbers : ∀ instruction ∈ sampleUnit.instructions,
      instruction.rd < 32 ∧ instruction.rs1 < 32 ∧ instruction.rs2 < 32 := by decide
  intro instruction hmem
  obtain ⟨hrd, hrs1, hrs2⟩ := hnumbers instruction hmem
  exact ⟨hrd, hrs1, hrs2⟩

/-- A unit with a register number that no instruction has. -/
def aliasedUnit : DbtTranslationUnit where
  ok := true
  startPc := 0x80000000
  endPc := 0x80000000
  codeSpans := []
  instructions :=
    [{ opcode := .writeRegImm, pc := 0x80000000, rd := 33, imm := 5, nextPc := 0x80000004 },
     { opcode := .fallthrough, pc := 0x80000000, nextPc := 0x80000004 }]

/-- The emitted code stores to `x1`, where the evaluator writes nothing. -/
theorem aliasedUnit_differs :
    (emitDbtHostBlock (fun _ => none) (lowerDbtIrUnit aliasedUnit)).ok = true ∧
      ¬ HostBlockAgrees (emitDbtHostBlock (fun _ => none) (lowerDbtIrUnit aliasedUnit)) aliasedUnit
        sampleFrame (fun _ => 0) 0x80000000 := by
  refine ⟨by decide, fun h => ?_⟩
  obtain ⟨m, hcall, -, hgpr, -⟩ := h.call
  have hhost : ∀ m ∈ sampleFrame.call
      (emitDbtHostBlock (fun _ => none) (lowerDbtIrUnit aliasedUnit)).code (fun _ => 0) 0x80000000,
      m.ram.loadGprs sampleFrame.array 1 = 5 := by decide
  have hevaluated : (evaluateDbtIrUnit aliasedUnit ⟨fun _ => 0, 0x80000000⟩).gpr 1 = 0 := by
    decide
  have hslot := congrFun hgpr 1
  rw [hhost m hcall, hevaluated] at hslot
  exact absurd hslot (by decide)

namespace FunctionalBackend

open DbtTranslator Option

theorem translated_bounded {ops : List DbtDryRunIrOp} {instructions : List DbtIrInstruction}
    (h : Forall₂ (fun op instruction => translateIntegerOp op = some instruction) ops instructions) :
    ∀ instruction ∈ instructions, instruction.Bounded := by
  induction h with
  | nil => simp
  | @cons op instruction _ _ hop _ ih =>
    obtain ⟨_, -, rfl⟩ := map_eq_some_iff.1 hop
    obtain ⟨hrd, hrs1, hrs2, -⟩ := decode_bounded op.raw
    exact forall_mem_cons.2 ⟨⟨hrd, hrs1, hrs2⟩, ih⟩

theorem translateDbtBlock_bounded {plan : DbtBlockPlan} (h : (translateDbtBlock plan).ok) :
    ∀ instruction ∈ (translateDbtBlock plan).instructions, instruction.Bounded := by
  unfold translateDbtBlock at h ⊢
  split_ifs at h ⊢
  · cases h
  cases hops : translateOps plan.dryRunIr with
  | error op =>
    rw [hops] at h
    cases h
  | ok instructions =>
    refine forall_mem_append.2 ⟨translated_bounded (translateOps_ok hops), ?_⟩
    unfold makeFallthrough
    cases instructions.getLast? <;>
      exact forall_mem_singleton.2 ⟨Nat.zero_lt_succ _, Nat.zero_lt_succ _, Nat.zero_lt_succ _⟩

variable {D : Type} [Devices D] [Fpu] {fuel : ℕ} {backend : FunctionalBackend D} {after : Cpu D}
  {endPc : BitVec 64} {plan : DbtBlockPlan}

/-- A block that was planned, translated, lowered and emitted, and is called with the guest's
registers, brings the guest where the backend comes by executing its instructions. -/
theorem hostBlock_refines (hostError : List (BitVec 8) → Option String) (frame : HostFrame)
    (hplan : planDbtBlock fuel backend.cpu backend.cpu.core.pc endPc = some (plan, after))
    (hemit : (emitDbtHostBlock hostError (lowerDbtIrUnit (translateDbtBlock plan))).ok)
    (hzero : backend.cpu.core.gpr 0 = 0) (hquiet : backend.Uninterrupted plan.dryRunIr.length)
    (hcode : backend.KeepsCode plan.dryRunIr) :
    ∃ result cpu', executeWithGuardrail frame backend.cpu (translateDbtBlock plan)
        (emitDbtHostBlock hostError (lowerDbtIrUnit (translateDbtBlock plan)))
        backend.cpu.core.gpr backend.cpu.core.pc = some (result, cpu') ∧ result.ok ∧
      let reached := (step^[plan.dryRunIr.length] backend).cpu.core
      cpu'.core.gpr = reached.gpr ∧ cpu'.core.pc = reached.pc ∧
        cpu'.core.instret = reached.instret := by
  have hunit := (emitDbtHostBlock_ok hemit).1
  refine ⟨_, _, emitted_matched (translateDbtBlock_bounded hunit) hemit frame _ _ _, rfl, ?_⟩
  obtain ⟨hstart, more, hmore, hfollow⟩ := planFrom_follows hplan
  rw [nil_append] at hmore
  obtain ⟨instructions, hops, heval⟩ := evaluateDbtIrUnit_translated hunit
    ⟨backend.cpu.core.gpr, backend.cpu.core.pc⟩ hstart.symm
  have hkept : update backend.cpu.core.gpr 0 0 = backend.cpu.core.gpr :=
    update_eq_self_iff.2 hzero.symm
  have hagrees : Agrees backend.cpu.core.instret backend.cpu.core
      { ok := true, gpr := update backend.cpu.core.gpr 0 0, nextPc := backend.cpu.core.pc } :=
    ⟨rfl, hkept.symm, hzero, rfl, (add_zero _).symm⟩
  have hrun := run_agrees hops hagrees (hmore ▸ hfollow) hquiet hcode
  rw [heval]
  refine ⟨?_, hrun.pc.symm, hrun.instret.symm⟩
  change update (update (instructions.foldl evaluateInstruction _).gpr 0 0) 0
    (backend.cpu.core.gpr 0) = _
  rw [update_idem, hzero, ← hrun.gpr]
  exact update_eq_self_iff.2 hrun.zero.symm

omit [Fpu] in
theorem mixedBlock_hostBlock :
    letI := Fpu.silent
    ∃ plan after result cpu', planDbtBlock 4 mixedBlockMachine.cpu memBase (memBase + 4) =
        some (plan, after) ∧
      executeWithGuardrail sampleFrame mixedBlockMachine.cpu (translateDbtBlock plan)
        (emitDbtHostBlock (fun _ => none) (lowerDbtIrUnit (translateDbtBlock plan)))
        mixedBlockMachine.cpu.core.gpr memBase = some (result, cpu') ∧ result.ok := by
  let := Fpu.silent
  have hsome : (planDbtBlock 4 mixedBlockMachine.cpu memBase (memBase + 4)).isSome := by
    decide
  obtain ⟨⟨plan, after⟩, hplan⟩ := isSome_iff_exists.1 hsome
  have hruns : ∀ planned ∈ planDbtBlock 4 mixedBlockMachine.cpu memBase (memBase + 4),
      (emitDbtHostBlock (fun _ => none) (lowerDbtIrUnit (translateDbtBlock planned.1))).ok ∧
        mixedBlockMachine.Uninterrupted planned.1.dryRunIr.length ∧
        mixedBlockMachine.KeepsCode planned.1.dryRunIr := by
    unfold Uninterrupted KeepsCode
    decide
  obtain ⟨hemit, hquiet, hcode⟩ := hruns _ hplan
  obtain ⟨result, cpu', hexecute, hok, -⟩ :=
    hostBlock_refines (fun _ => none) sampleFrame hplan hemit rfl hquiet hcode
  exact ⟨plan, after, result, cpu', hplan, hexecute, hok⟩

end FunctionalBackend

end VisualCpu
