import VisualCpu.Exec.Semantics

/-!
# The shape of effects

What the effect record of any instruction can contain: a trap comes alone (vector
arithmetic that traps keeps its request), a memory request is exactly the one that
the encoding describes, and redirects, atomic requests and system controls come from
their own opcodes only.
-/

namespace VisualCpu

open SystemOps

def trapEffect (trap : TrapRequest) : InsnEffects := { trap := some trap, retired := false }

/-- What holds of the effects of every instruction. -/
structure EffectShape (insn : Insn) (effects : InsnEffects) : Prop where
  trapped : ∀ trap, effects.trap = some trap →
    effects = { trapEffect trap with vector := effects.vector }
  retired : effects.trap = none → effects.retired
  memory : effects.mem.kind ≠ .none → ∃ rs1v rs2v, (describeMemory insn).valid ∧
    effects = buildMemoryEffects insn rs1v rs2v
  redirect : effects.control.redirectPc ≠ none → isControlFlowOpcode insn.opcode
  rd : ∀ write, effects.rdWrite = some write → write.rd = insn.rd
  atomic : effects.atomic.kind ≠ .none → insn.opcode = 0x2F
  ofAtomic : insn.opcode = 0x2F → effects.trap = none → effects = { atomic := effects.atomic }
  vector : effects.vector.kind ≠ .none → effects.trap = none →
    effects = { vector := effects.vector }
  system : effects.control.trapReturn ≠ .none ∨ effects.control.halt ∨
    effects.control.flushTlb → insn.opcode = 0x73

namespace EffectShape

variable {insn : Insn}

theorem ofTrap (trap : TrapRequest) : EffectShape insn (trapEffect trap) := by
  constructor <;> simp [trapEffect]

theorem illegal : EffectShape insn (illegalInstructionEffect insn.raw) := ofTrap _

theorem ofRd (value : BitVec 64) (hopcode : insn.opcode ≠ 0x2F) :
    EffectShape insn (setRd insn.rd value) := by
  constructor <;> simp [setRd, hopcode]

theorem ofNothing (hopcode : insn.opcode ≠ 0x2F) : EffectShape insn {} := by
  constructor <;> simp [hopcode]

theorem ofVector (request : VectorRequest) (hopcode : insn.opcode ≠ 0x2F) :
    EffectShape insn { vector := request } := by
  constructor <;> simp [hopcode]

theorem ofSystem (control : ControlEffect) (hopcode : insn.opcode = 0x73)
    (hredirect : control.redirectPc = none) : EffectShape insn { control } := by
  constructor <;> simp [hopcode, hredirect]

theorem writeRdOrIllegal (value : Option (BitVec 64)) (hopcode : insn.opcode ≠ 0x2F) :
    EffectShape insn (VisualCpu.writeRdOrIllegal insn value) := by
  cases value with
  | none => exact illegal
  | some value => exact ofRd value hopcode

theorem buildIntegerEffects (rs1v rs2v pc : BitVec 64) (hopcode : insn.opcode ≠ 0x2F) :
    EffectShape insn (VisualCpu.buildIntegerEffects insn rs1v rs2v pc) := by
  unfold VisualCpu.buildIntegerEffects
  split
  · exact ofRd _ hopcode
  · exact ofRd _ hopcode
  · exact writeRdOrIllegal _ hopcode
  · exact writeRdOrIllegal _ hopcode
  · exact writeRdOrIllegal _ hopcode
  · exact writeRdOrIllegal _ hopcode
  · exact ofNothing hopcode
  · exact illegal

theorem jumpEffect (pc target : BitVec 64) (hopcode : insn.opcode ≠ 0x2F)
    (hflow : isControlFlowOpcode insn.opcode) :
    EffectShape insn (VisualCpu.jumpEffect insn pc target) := by
  unfold VisualCpu.jumpEffect
  split_ifs
  · exact ofTrap _
  · constructor <;> simp [setRd, hopcode, hflow]

theorem buildControlFlowEffects (rs1v rs2v pc : BitVec 64) (hopcode : insn.opcode ≠ 0x2F) :
    EffectShape insn (VisualCpu.buildControlFlowEffects insn rs1v rs2v pc) := by
  unfold VisualCpu.buildControlFlowEffects
  split
  case h_1 h => exact jumpEffect _ _ hopcode (by simp [isControlFlowOpcode, h])
  case h_2 h => exact jumpEffect _ _ hopcode (by simp [isControlFlowOpcode, h])
  case h_3 h =>
    have hflow : isControlFlowOpcode insn.opcode := by simp [isControlFlowOpcode, h]
    split
    · exact illegal
    · exact ofNothing hopcode
    split_ifs
    · exact ofTrap _
    · constructor <;> simp [hopcode, hflow]
  case h_4 => exact illegal

theorem buildMemoryEffects (rs1v rs2v : BitVec 64) (hopcode : insn.opcode ≠ 0x2F) :
    EffectShape insn (VisualCpu.buildMemoryEffects insn rs1v rs2v) := by
  cases hvalid : (describeMemory insn).valid with
  | false =>
    have heq : VisualCpu.buildMemoryEffects insn rs1v rs2v = illegalInstructionEffect insn.raw := by
      simp [VisualCpu.buildMemoryEffects, hvalid]
    rw [heq]
    exact illegal
  | true =>
    constructor
    case memory => exact fun _ => ⟨rs1v, rs2v, hvalid, rfl⟩
    all_goals simp [VisualCpu.buildMemoryEffects, hvalid, hopcode]

theorem buildAtomicEffects (rs1v rs2v : BitVec 64) (hopcode : insn.opcode = 0x2F) :
    EffectShape insn (VisualCpu.buildAtomicEffects insn rs1v rs2v) := by
  unfold VisualCpu.buildAtomicEffects
  simp only
  split_ifs
  · exact illegal
  · exact illegal
  · exact illegal
  · constructor <;> simp [hopcode]
  · constructor <;> simp [hopcode]

theorem buildVectorEffects (rs1v : BitVec 64) (hopcode : insn.opcode ≠ 0x2F) :
    EffectShape insn (VisualCpu.buildVectorEffects insn rs1v) := by
  unfold VisualCpu.buildVectorEffects
  split
  · split_ifs
    · unfold buildVectorConfig
      simp only
      split_ifs
      · exact illegal
      · exact illegal
      · exact ofVector _ hopcode
    · exact illegal
    · cases vectorAluKind insn.funct7 with
      | none => exact illegal
      | some kind => exact ofVector _ hopcode
  · split_ifs
    · exact illegal
    · exact ofVector _ hopcode
  · split_ifs
    · exact illegal
    · exact ofVector _ hopcode
  · exact illegal

section System

variable {D : Type} [Devices D] (cpu : Cpu D) (inputs : SemanticInputs)

omit [Devices D] in
theorem unlessUser {effects : InsnEffects} (h : EffectShape insn effects) :
    EffectShape insn (unlessUser cpu insn effects) := by
  unfold SystemOps.unlessUser
  split_ifs
  · exact illegal
  · exact h

theorem csrEffects (source : BitVec 64) (hopcode : insn.opcode = 0x73) :
    EffectShape insn (csrEffects cpu insn inputs source) := by
  have hne : insn.opcode ≠ 0x2F := by rw [hopcode]; decide
  unfold SystemOps.csrEffects
  simp only
  split_ifs
  · exact illegal
  · constructor <;> simp [setRd, hopcode]
  · exact ofRd _ hne

omit [Devices D] in
theorem ecallEffects (hopcode : insn.opcode = 0x73) :
    EffectShape insn (ecallEffects cpu inputs) := by
  unfold SystemOps.ecallEffects
  simp only
  split_ifs
  · exact ofSystem _ hopcode rfl
  · exact ofTrap _

omit [Devices D] in
theorem privilegedEffects (hopcode : insn.opcode = 0x73) :
    EffectShape insn (privilegedEffects cpu insn inputs) := by
  have hne : insn.opcode ≠ 0x2F := by rw [hopcode]; decide
  unfold SystemOps.privilegedEffects
  split_ifs
  · exact ecallEffects cpu inputs hopcode
  · exact ofTrap _
  · exact illegal
  · exact ofSystem _ hopcode rfl
  · exact unlessUser cpu (ofSystem _ hopcode rfl)
  · exact unlessUser cpu (ofSystem _ hopcode rfl)
  · exact unlessUser cpu (ofNothing hne)
  · exact illegal

theorem buildSystemEffects (hopcode : insn.opcode = 0x73) :
    EffectShape insn (buildSystemEffects cpu insn inputs) := by
  unfold SystemOps.buildSystemEffects
  split
  · exact privilegedEffects cpu inputs hopcode
  all_goals first | exact csrEffects cpu inputs _ hopcode | exact illegal

variable [Fpu]

omit [Devices D] in
theorem buildFloatingEffects (rs1v rs2v rs3v fcsr : BitVec 64) (hopcode : insn.opcode ≠ 0x2F) :
    EffectShape insn (FloatingOps.buildFloatingEffects insn rs1v rs2v rs3v fcsr) := by
  unfold FloatingOps.buildFloatingEffects
  split
  · unfold FloatingOps.outcomeEffects
    constructor <;> simp [hopcode]
  · exact illegal

end System

end EffectShape

theorem execute_shape {D : Type} [Devices D] [Fpu] (insn : Insn) (cpu : Cpu D)
    (inputs : SemanticInputs) : EffectShape insn (execute insn cpu inputs) := by
  unfold execute
  by_cases hoff : requiresEnabledFloatingState insn ∧
      cpu.readCsr Csr.mstatus &&& Mstatus.fsMask = Mstatus.fsOff
  · rw [if_pos hoff]
    exact .illegal
  rw [if_neg hoff]
  have hsplit : ∀ b : Bool, insn.opcode ≠ 0x2F → EffectShape insn
      (if b then buildMemoryEffects insn inputs.rs1v inputs.rs2v
        else buildVectorEffects insn inputs.rs1v) := by
    intro b hne
    cases b
    · exact .buildVectorEffects _ hne
    · exact .buildMemoryEffects _ _ hne
  split
  all_goals first
    | exact .buildIntegerEffects _ _ _ (by simp [*])
    | exact .buildControlFlowEffects _ _ _ (by simp [*])
    | exact .buildMemoryEffects _ _ (by simp [*])
    | exact .buildAtomicEffects _ _ (by simp [*])
    | exact .buildFloatingEffects _ _ _ _ (by simp [*])
    | exact .buildVectorEffects _ (by simp [*])
    | exact .buildSystemEffects _ _ (by simp [*])
    | exact hsplit _ (by simp [*])
    | exact .illegal

theorem execute_describes {D : Type} [Devices D] [Fpu] (insn : Insn) (cpu : Cpu D)
    (inputs : SemanticInputs) (hvalid : (describeMemory insn).valid)
    (htrap : (execute insn cpu inputs).trap = none) :
    (execute insn cpu inputs).mem.kind = (describeMemory insn).kind := by
  have hbuild : (buildMemoryEffects insn inputs.rs1v inputs.rs2v).mem.kind =
      (describeMemory insn).kind := by
    simp [buildMemoryEffects, hvalid]
  unfold execute at htrap ⊢
  by_cases hoff : requiresEnabledFloatingState insn ∧
      cpu.readCsr Csr.mstatus &&& Mstatus.fsMask = Mstatus.fsOff
  · rw [if_pos hoff] at htrap
    cases htrap
  rw [if_neg hoff] at htrap ⊢
  by_cases hopcode : insn.opcode = 0x03 ∨ insn.opcode = 0x23
  · rcases hopcode with hopcode | hopcode <;> simp only [hopcode, hbuild]
  rw [not_or] at hopcode
  unfold describeMemory at hvalid
  split at hvalid
  case h_1 h => exact absurd h hopcode.1
  case h_2 h =>
    by_cases hfp : isStandardFpLoad insn
    · simp only [h, hfp, Bool.true_or, if_true, hbuild]
    · simp [hfp] at hvalid
  case h_3 h => exact absurd h hopcode.2
  case h_4 h =>
    by_cases hfp : isStandardFpStore insn
    · simp only [h, hfp, Bool.or_true, if_true, hbuild]
    · simp [hfp] at hvalid
  case h_5 => cases hvalid

end VisualCpu
