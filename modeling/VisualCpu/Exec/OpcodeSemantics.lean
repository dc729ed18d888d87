import VisualCpu.Exec.Semantics

/-!
# Semantics by opcode

What the semantics does with the operands from the registers, for the groups of opcodes
outside the floating-point arithmetic.
-/

namespace VisualCpu

open List SystemOps

variable {insn : Insn}

def floatingOpcodes : List ℕ := [0x53, 0x43, 0x47, 0x4B, 0x4F]

section

variable (h : insn.opcode ∉ floatingOpcodes)

include h

theorem isOpFp_of_not_mem (funct7 : ℕ) : isOpFp insn funct7 = false := by
  have hne : insn.opcode ≠ 0x53 := fun heq => h (by simp [heq, floatingOpcodes])
  simp [isOpFp, hne]

theorem fused_of_not_mem : isFusedS insn = false ∧ isFusedD insn = false := by
  simp only [floatingOpcodes, mem_cons, not_mem_nil, or_false, not_or] at h
  simp [isFusedS, isFusedD, isFmaddS, isFmsubS, isFnmsubS, isFnmaddS, isFmaddD, isFmsubD,
    isFnmsubD, isFnmaddD, h]

theorem floatingRs1FromFpr_of_not_mem : floatingRs1FromFpr insn = false := by
  simp [floatingRs1FromFpr, isFmvXD, isFmvXW, isFmvD, isFnegD, isFsgnjAnyD, isFsgnjD, isFsgnjnD,
    isFsgnjxD, isFsgnjAnyS, isFsgnjS, isFsgnjnS, isFsgnjxS, isFarithS, isFaddS, isFsubS, isFmulS,
    isFdivS, isFarithD, isFaddD, isFsubD, isFmulD, isFdivD, isFminmax, isFmaxD, isFminD, isFmaxS,
    isFminS, isFsqrtS, isFsqrtD, isFcvtIntFromD, isFcvtWD, isFcvtWuD, isFcvtLD, isFcvtLuD,
    isFcvtIntFromS, isFcvtWS, isFcvtWuS, isFcvtLS, isFcvtLuS, isFcvtDS, isFcvtSD, isFclassS,
    isFclassD, isFcompareS, isFeqS, isFltS, isFleS, isFcompareD, isFeqD, isFltD, isFleD,
    isOpFp_of_not_mem h, fused_of_not_mem h]

theorem floatingRs2FromFpr_of_not_mem : floatingRs2FromFpr insn = isStandardFpStore insn := by
  simp [floatingRs2FromFpr, isFmvD, isFnegD, isFsgnjAnyD, isFsgnjD, isFsgnjnD, isFsgnjxD,
    isFsgnjAnyS, isFsgnjS, isFsgnjnS, isFsgnjxS, isFarithS, isFaddS, isFsubS, isFmulS, isFdivS,
    isFarithD, isFaddD, isFsubD, isFmulD, isFdivD, isFminmax, isFmaxD, isFminD, isFmaxS, isFminS,
    isFcompareS, isFeqS, isFltS, isFleS, isFcompareD, isFeqD, isFltD, isFleD,
    isOpFp_of_not_mem h, fused_of_not_mem h]

/-- Outside the floating-point arithmetic only the data of a store can come from a
floating-point register. -/
theorem coreInputs_of_not_mem (core : CoreState) : coreInputs insn core =
      { pc := core.pc
        rs1v := core.readGpr insn.rs1
        rs2v :=
          if isStandardFpStore insn then core.readFpr insn.rs2 else core.readGpr insn.rs2 } := by
  have hrs1 : describeRs1 insn ≠ .fpr := by
    unfold describeRs1
    rw [floatingRs1FromFpr_of_not_mem h]
    simp only [Bool.false_eq_true, if_false]
    split
    · nofun
    · split <;> (try split_ifs) <;> nofun
  have hrs2 : describeRs2 insn = .fpr ↔ isStandardFpStore insn := by
    unfold describeRs2
    rw [floatingRs2FromFpr_of_not_mem h]
    cases isStandardFpStore insn with
    | true => simp
    | false =>
      simp only [Bool.false_eq_true, if_false, iff_false]
      split <;> (try split_ifs) <;> nofun
  have hrs3 : floatingRs3FromFpr insn = false := by
    simp [floatingRs3FromFpr, fused_of_not_mem h]
  simp [coreInputs, hrs1, hrs2, hrs3]

end

variable {D : Type} [Devices D] [Fpu] {cpu : Cpu D}

theorem execute_integer (h : insn.opcode ∈ [0x37, 0x17, 0x13, 0x1B, 0x33, 0x3B, 0x0F]) :
    execute insn cpu (coreInputs insn cpu.core) =
      buildIntegerEffects insn (cpu.core.readGpr insn.rs1) (cpu.core.readGpr insn.rs2)
        cpu.core.pc := by
  simp only [mem_cons, not_mem_nil, or_false] at h
  have hfloating : insn.opcode ∉ floatingOpcodes := by
    rcases h with h | h | h | h | h | h | h <;> simp [h, floatingOpcodes]
  rcases h with h | h | h | h | h | h | h <;>
    simp [execute, requiresEnabledFloatingState, isStandardFpLoad, isStandardFpStore,
      isFloatingCsrAccess, coreInputs_of_not_mem hfloating, h]

theorem execute_controlFlow (h : insn.opcode ∈ [0x6F, 0x67, 0x63]) :
    execute insn cpu (coreInputs insn cpu.core) =
      buildControlFlowEffects insn (cpu.core.readGpr insn.rs1) (cpu.core.readGpr insn.rs2)
        cpu.core.pc := by
  simp only [mem_cons, not_mem_nil, or_false] at h
  have hfloating : insn.opcode ∉ floatingOpcodes := by
    rcases h with h | h | h <;> simp [h, floatingOpcodes]
  rcases h with h | h | h <;>
    simp [execute, requiresEnabledFloatingState, isStandardFpLoad, isStandardFpStore,
      isFloatingCsrAccess, coreInputs_of_not_mem hfloating, h]

theorem execute_memory (h : insn.opcode ∈ [0x03, 0x23]) :
    execute insn cpu (coreInputs insn cpu.core) =
      buildMemoryEffects insn (cpu.core.readGpr insn.rs1) (cpu.core.readGpr insn.rs2) := by
  simp only [mem_cons, not_mem_nil, or_false] at h
  have hfloating : insn.opcode ∉ floatingOpcodes := by
    rcases h with h | h <;> simp [h, floatingOpcodes]
  rcases h with h | h <;>
    simp [execute, requiresEnabledFloatingState, isStandardFpLoad, isStandardFpStore,
      isFloatingCsrAccess, coreInputs_of_not_mem hfloating, h]

/-- The floating-point unit is switched off. -/
abbrev Cpu.FloatingOff (cpu : Cpu D) : Prop :=
  cpu.readCsr Csr.mstatus &&& Mstatus.fsMask = Mstatus.fsOff

theorem execute_floatLoad (h : isStandardFpLoad insn) :
    execute insn cpu (coreInputs insn cpu.core) =
      if cpu.FloatingOff then illegalInstructionEffect insn.raw
      else buildMemoryEffects insn (cpu.core.readGpr insn.rs1) (cpu.core.readGpr insn.rs2) := by
  have hopcode : insn.opcode = 0x07 := by
    simp only [isStandardFpLoad, Bool.and_eq_true, beq_iff_eq] at h
    exact h.1
  have hstore : isStandardFpStore insn = false := by simp [isStandardFpStore, hopcode]
  have hfloating : insn.opcode ∉ floatingOpcodes := by simp [hopcode, floatingOpcodes]
  have hinputs := coreInputs_of_not_mem hfloating cpu.core
  simp [execute, requiresEnabledFloatingState, hopcode, h, hinputs, hstore, Cpu.FloatingOff]

theorem execute_floatStore (h : isStandardFpStore insn) :
    execute insn cpu (coreInputs insn cpu.core) =
      if cpu.FloatingOff then illegalInstructionEffect insn.raw
      else buildMemoryEffects insn (cpu.core.readGpr insn.rs1) (cpu.core.readFpr insn.rs2) := by
  have hopcode : insn.opcode = 0x27 := by
    simp only [isStandardFpStore, Bool.and_eq_true, beq_iff_eq] at h
    exact h.1
  have hfloating : insn.opcode ∉ floatingOpcodes := by simp [hopcode, floatingOpcodes]
  have hinputs := coreInputs_of_not_mem hfloating cpu.core
  simp [execute, requiresEnabledFloatingState, hopcode, h, hinputs, Cpu.FloatingOff]

theorem execute_floating (h : insn.opcode ∈ floatingOpcodes) (inputs : SemanticInputs) :
    execute insn cpu inputs =
      if cpu.FloatingOff then illegalInstructionEffect insn.raw
      else FloatingOps.buildFloatingEffects insn inputs.rs1v inputs.rs2v inputs.rs3v
        (cpu.readCsr Csr.fcsr) := by
  simp only [floatingOpcodes, mem_cons, not_mem_nil, or_false] at h
  rcases h with h | h | h | h | h <;>
    simp only [execute, requiresEnabledFloatingState, h, beq_self_eq_true, Bool.true_or,
      Bool.or_true, true_and]

theorem execute_ebreak (h : isEbreak insn) :
    execute insn cpu (coreInputs insn cpu.core) =
      { trap := some ⟨causeBreakpoint, cpu.core.pc⟩, retired := false } := by
  have hfields := h
  simp only [isEbreak, Bool.and_eq_true, beq_iff_eq] at hfields
  obtain ⟨⟨⟨⟨hopcode, hfunct3⟩, -⟩, -⟩, himm⟩ := hfields
  have hecall : isEcall insn = false := by simp [isEcall, himm]
  have hfloating : insn.opcode ∉ floatingOpcodes := by simp [hopcode, floatingOpcodes]
  have hinputs := coreInputs_of_not_mem hfloating cpu.core
  simp [execute, requiresEnabledFloatingState, isStandardFpLoad, isStandardFpStore,
    isFloatingCsrAccess, hopcode, hfunct3, buildSystemEffects,
    privilegedEffects, hecall, h, hinputs]

end VisualCpu
