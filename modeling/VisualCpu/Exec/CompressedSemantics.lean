import VisualCpu.Exec.OpcodeSemantics
import VisualCpu.Isa.Compressed
import VisualCpu.Pipeline.Backend

/-!
# Compressed instructions and their expansions

The decoder turns a 16-bit encoding directly into instruction fields. The effects are
those of the expansion, except for the link and the reported word, for all encodings but
two kinds that the decoder rejects: `c.fldsp` to `f0` and the hints of `c.lui`.
-/

namespace VisualCpu

open BitVec IntegerOps

namespace Rvc

/-- The effects of a 32-bit word as its 16-bit encoding reports them: a link two bytes
after the pc, and the encoding itself in an illegal-instruction trap. -/
def asCompressed (c : BitVec 16) (pc : BitVec 64) (effects : InsnEffects) : InsnEffects :=
  { effects with
    rdWrite :=
      if effects.control.redirectPc.isSome then
        effects.rdWrite.map fun write => ⟨write.rd, pc + 2⟩
      else effects.rdWrite
    trap := effects.trap.map fun trap =>
      if trap.cause = causeIllegalInsn then ⟨trap.cause, c.setWidth 64⟩ else trap }

section

variable {c : BitVec 16} {pc : BitVec 64}

theorem asCompressed_illegal (raw : BitVec 32) :
    asCompressed c pc (illegalInstructionEffect raw) =
      illegalInstructionEffect (c.setWidth 32) := by
  have hraw : (c.setWidth 32).setWidth 64 = c.setWidth 64 := by
    apply eq_of_toNat_eq
    have := c.isLt
    simp only [toNat_setWidth]
    omega
  simp [asCompressed, illegalInstructionEffect, hraw]

theorem asCompressed_setRd (rd : ℕ) (value : BitVec 64) :
    asCompressed c pc (setRd rd value) = setRd rd value := rfl

theorem asCompressed_of_plain {effects : InsnEffects} (htrap : effects.trap = none)
    (hredirect : effects.control.redirectPc = none) : asCompressed c pc effects = effects := by
  cases effects
  simp_all [asCompressed]

end

/-- The decoded encoding `insn` of `c` stands for the instruction `insn'` of four bytes:
the fields that its operation looks at are the same. -/
structure Compresses (c : BitVec 16) (insn insn' : Insn) : Prop where
  raw : insn.raw = c.setWidth 32
  size : insn.size = 2
  size' : insn'.size = 4
  opcode : insn'.opcode = insn.opcode

/-- The kinds of operations, with the fields that each looks at. -/
inductive SameFields (insn insn' : Insn) : Prop
  | immediate (hopcode : insn.opcode = 0x13 ∨ insn.opcode = 0x1B)
      (hkind : insn.funct3 ≠ 1 ∧ insn.funct3 ≠ 5) (hrd : insn'.rd = insn.rd)
      (hfunct3 : insn'.funct3 = insn.funct3) (hrs1 : insn'.rs1 = insn.rs1)
      (himm : insn'.imm = insn.imm)
  | shift (hopcode : insn.opcode = 0x13) (hkind : insn.funct3 = 1 ∨ insn.funct3 = 5)
      (hrd : insn'.rd = insn.rd) (hfunct3 : insn'.funct3 = insn.funct3)
      (hrs1 : insn'.rs1 = insn.rs1) (hrs2 : insn'.rs2 = insn.rs2)
      (hfunct7 : insn'.funct7 = insn.funct7)
  | register (hopcode : insn.opcode = 0x33 ∨ insn.opcode = 0x3B) (hrd : insn'.rd = insn.rd)
      (hfunct3 : insn'.funct3 = insn.funct3) (hrs1 : insn'.rs1 = insn.rs1)
      (hrs2 : insn'.rs2 = insn.rs2) (hfunct7 : insn'.funct7 = insn.funct7)
  | upper (hopcode : insn.opcode = 0x37) (hrd : insn'.rd = insn.rd) (himm : insn'.imm = insn.imm)
  | jump (hopcode : insn.opcode = 0x6F) (hrd : insn'.rd = insn.rd) (himm : insn'.imm = insn.imm)
  | jumpRegister (hopcode : insn.opcode = 0x67) (hrd : insn'.rd = insn.rd)
      (hrs1 : insn'.rs1 = insn.rs1) (himm : insn'.imm = insn.imm)
  | branch (hopcode : insn.opcode = 0x63) (hfunct3 : insn'.funct3 = insn.funct3)
      (hrs1 : insn'.rs1 = insn.rs1) (hrs2 : insn'.rs2 = insn.rs2) (himm : insn'.imm = insn.imm)
  | load (hopcode : insn.opcode = 0x03 ∨ isStandardFpLoad insn) (hrd : insn'.rd = insn.rd)
      (hfunct3 : insn'.funct3 = insn.funct3) (hrs1 : insn'.rs1 = insn.rs1)
      (himm : insn'.imm = insn.imm)
  | store (hopcode : insn.opcode = 0x23 ∨ isStandardFpStore insn)
      (hfunct3 : insn'.funct3 = insn.funct3) (hrs1 : insn'.rs1 = insn.rs1)
      (hrs2 : insn'.rs2 = insn.rs2) (himm : insn'.imm = insn.imm)
  | ebreak (hebreak : SystemOps.isEbreak insn) (hebreak' : SystemOps.isEbreak insn')

section

variable {c : BitVec 16} {insn insn' : Insn} {pc : BitVec 64}

theorem Compresses.illegal (h : Compresses c insn insn') :
    illegalInstructionEffect insn.raw = asCompressed c pc (illegalInstructionEffect insn'.raw) := by
  rw [h.raw, asCompressed_illegal]

theorem Compresses.writeRdOrIllegal (h : Compresses c insn insn') (hrd : insn'.rd = insn.rd)
    {value value' : Option (BitVec 64)} (hvalue : value' = value) :
    VisualCpu.writeRdOrIllegal insn value =
      asCompressed c pc (VisualCpu.writeRdOrIllegal insn' value') := by
  subst hvalue
  cases value' with
  | none => exact h.illegal
  | some value =>
    change setRd insn.rd value = asCompressed c pc (setRd insn'.rd value)
    rw [hrd, asCompressed_setRd]

/-- An access described by the encoding has the same descriptor in both. -/
theorem describeMemory_congr (hopcode : insn'.opcode = insn.opcode)
    (hfunct3 : insn'.funct3 = insn.funct3) : describeMemory insn' = describeMemory insn := by
  simp [describeMemory, isStandardFpLoad, isStandardFpStore, hopcode, hfunct3]

theorem describeMemory_kind_load (h : insn.opcode = 0x03 ∨ isStandardFpLoad insn) :
    (describeMemory insn).kind ≠ .store := by
  rcases h with h | h
  · unfold describeMemory
    simp only [h]
    split <;> nofun
  have hopcode : insn.opcode = 0x07 := by
    simp only [isStandardFpLoad, Bool.and_eq_true, beq_iff_eq] at h
    exact h.1
  simp [describeMemory, hopcode, h, loadDescriptor]

theorem describeMemory_kind_store (h : insn.opcode = 0x23 ∨ isStandardFpStore insn) :
    (describeMemory insn).kind ≠ .load := by
  rcases h with h | h
  · unfold describeMemory
    simp only [h]
    split <;> nofun
  have hopcode : insn.opcode = 0x27 := by
    simp only [isStandardFpStore, Bool.and_eq_true, beq_iff_eq] at h
    exact h.1
  simp [describeMemory, hopcode, h, storeDescriptor]

theorem Compresses.buildMemoryEffects (h : Compresses c insn insn') {rs1v rs2v rs2v' : BitVec 64}
    (hfunct3 : insn'.funct3 = insn.funct3) (himm : insn'.imm = insn.imm)
    (hload : (describeMemory insn).kind = .load → insn'.rd = insn.rd)
    (hstore : (describeMemory insn).kind = .store → rs2v' = rs2v) :
    VisualCpu.buildMemoryEffects insn rs1v rs2v =
      asCompressed c pc (VisualCpu.buildMemoryEffects insn' rs1v rs2v') := by
  unfold VisualCpu.buildMemoryEffects
  dsimp only
  rw [describeMemory_congr h.opcode hfunct3, himm]
  cases hvalid : (describeMemory insn).valid with
  | false => exact h.illegal
  | true =>
    rw [asCompressed_of_plain rfl rfl]
    cases hkind : (describeMemory insn).kind with
    | none => rfl
    | load => simp [hload hkind]
    | store => simp [hstore hkind]

theorem Compresses.jumpEffect (h : Compresses c insn insn') (hrd : insn'.rd = insn.rd)
    (target : BitVec 64) :
    VisualCpu.jumpEffect insn pc target =
      asCompressed c pc (VisualCpu.jumpEffect insn' pc target) := by
  unfold VisualCpu.jumpEffect
  split_ifs
  · rfl
  have hsize : instructionSize insn = 2 := by
    unfold instructionSize
    rw [h.size]
    rfl
  rw [hrd, hsize]
  rfl

end

section

variable {c : BitVec 16} {insn insn' : Insn} {D : Type} [Devices D] [Fpu] {cpu : Cpu D}

theorem Compresses.execute (h : Compresses c insn insn') (hfields : SameFields insn insn') :
    execute insn cpu (coreInputs insn cpu.core) =
      asCompressed c cpu.core.pc (VisualCpu.execute insn' cpu (coreInputs insn' cpu.core)) := by
  have hopcode' := h.opcode
  cases hfields with
  | immediate hopcode hkind hrd hfunct3 hrs1 himm =>
    rcases hopcode with hopcode | hopcode
    · rw [hopcode] at hopcode'
      rw [execute_integer (by simp [hopcode]), execute_integer (by simp [hopcode']), hrs1]
      simp only [buildIntegerEffects, hopcode, hopcode']
      apply h.writeRdOrIllegal hrd
      unfold opImm
      rw [hfunct3, himm]
      split <;> first | rfl | exact absurd ‹_› hkind.1 | exact absurd ‹_› hkind.2
    · rw [hopcode] at hopcode'
      rw [execute_integer (by simp [hopcode]), execute_integer (by simp [hopcode']), hrs1]
      simp only [buildIntegerEffects, hopcode, hopcode']
      apply h.writeRdOrIllegal hrd
      unfold opImmWord
      rw [hfunct3, himm]
      split <;> first | rfl | exact absurd ‹_› hkind.1 | exact absurd ‹_› hkind.2
  | shift hopcode hkind hrd hfunct3 hrs1 hrs2 hfunct7 =>
    rw [hopcode] at hopcode'
    rw [execute_integer (by simp [hopcode]), execute_integer (by simp [hopcode']), hrs1]
    simp only [buildIntegerEffects, hopcode, hopcode']
    apply h.writeRdOrIllegal hrd
    rcases hkind with hkind | hkind <;>
      simp [opImm, isValidShiftImmediateEncoding, hfunct3, hkind, hrs2, hfunct7]
  | register hopcode hrd hfunct3 hrs1 hrs2 hfunct7 =>
    rcases hopcode with hopcode | hopcode
    · rw [hopcode] at hopcode'
      rw [execute_integer (by simp [hopcode]), execute_integer (by simp [hopcode']), hrs1, hrs2]
      simp only [buildIntegerEffects, hopcode, hopcode']
      apply h.writeRdOrIllegal hrd
      simp [opReg, opMulDiv, hfunct3, hfunct7]
    · rw [hopcode] at hopcode'
      rw [execute_integer (by simp [hopcode]), execute_integer (by simp [hopcode']), hrs1, hrs2]
      simp only [buildIntegerEffects, hopcode, hopcode']
      apply h.writeRdOrIllegal hrd
      simp [opRegWord, opMulDivWord, hfunct3, hfunct7]
  | upper hopcode hrd himm =>
    rw [hopcode] at hopcode'
    rw [execute_integer (by simp [hopcode]), execute_integer (by simp [hopcode'])]
    simp only [buildIntegerEffects, hopcode, hopcode', hrd, himm]
    rfl
  | jump hopcode hrd himm =>
    rw [hopcode] at hopcode'
    rw [execute_controlFlow (by simp [hopcode]), execute_controlFlow (by simp [hopcode'])]
    simp only [buildControlFlowEffects, hopcode, hopcode', himm]
    exact h.jumpEffect hrd _
  | jumpRegister hopcode hrd hrs1 himm =>
    rw [hopcode] at hopcode'
    rw [execute_controlFlow (by simp [hopcode]), execute_controlFlow (by simp [hopcode'])]
    simp only [buildControlFlowEffects, hopcode, hopcode', himm, hrs1]
    exact h.jumpEffect hrd _
  | branch hopcode hfunct3 hrs1 hrs2 himm =>
    rw [hopcode] at hopcode'
    rw [execute_controlFlow (by simp [hopcode]), execute_controlFlow (by simp [hopcode'])]
    simp only [buildControlFlowEffects, hopcode, hopcode', hfunct3, hrs1, hrs2, himm]
    split
    · exact h.illegal
    · rfl
    · split_ifs <;> rfl
  | load hopcode hrd hfunct3 hrs1 himm =>
    have hkind := describeMemory_kind_load hopcode
    have hmemory : ∀ rs2v rs2v', VisualCpu.buildMemoryEffects insn (cpu.core.readGpr insn.rs1)
      rs2v =
        asCompressed c cpu.core.pc
          (VisualCpu.buildMemoryEffects insn' (cpu.core.readGpr insn.rs1) rs2v') :=
            fun rs2v rs2v' =>
      h.buildMemoryEffects hfunct3 himm (fun _ => hrd) (fun hstore => absurd hstore hkind)
    rcases hopcode with hopcode | hopcode
    · rw [hopcode] at hopcode'
      rw [execute_memory (by simp [hopcode]), execute_memory (by simp [hopcode']), hrs1]
      exact hmemory _ _
    have hload' : isStandardFpLoad insn' := by
      rw [← hopcode]
      simp [isStandardFpLoad, hopcode', hfunct3]
    rw [execute_floatLoad hopcode, execute_floatLoad hload', hrs1]
    split_ifs
    · exact h.illegal
    · exact hmemory _ _
  | store hopcode hfunct3 hrs1 hrs2 himm =>
    have hkind := describeMemory_kind_store hopcode
    have hmemory : ∀ rs2v, VisualCpu.buildMemoryEffects insn (cpu.core.readGpr insn.rs1) rs2v =
        asCompressed c cpu.core.pc
          (VisualCpu.buildMemoryEffects insn' (cpu.core.readGpr insn.rs1) rs2v) := fun rs2v =>
      h.buildMemoryEffects hfunct3 himm (fun hload => absurd hload hkind) (fun _ => rfl)
    rcases hopcode with hopcode | hopcode
    · rw [hopcode] at hopcode'
      rw [execute_memory (by simp [hopcode]), execute_memory (by simp [hopcode']), hrs1, hrs2]
      exact hmemory _
    have hstore' : isStandardFpStore insn' := by
      rw [← hopcode]
      simp [isStandardFpStore, hopcode', hfunct3]
    rw [execute_floatStore hopcode, execute_floatStore hstore', hrs1, hrs2]
    split_ifs
    · exact h.illegal
    · exact hmemory _
  | ebreak hebreak hebreak' =>
    rw [execute_ebreak hebreak, execute_ebreak hebreak']
    rfl

end

open Decode

/-- The encoding is decoded to an instruction with the meaning of the word. -/
structure Expands (c : BitVec 16) (insn : Insn) (raw : BitVec 32) : Prop where
  compresses : Compresses c insn (decode raw)
  fields : SameFields insn (decode raw)

theorem Expands.of_decode {c : BitVec 16} {insn : Insn} {raw : BitVec 32}
    (hdecode : decode raw = decodeStandard raw) (hcompresses : Compresses c insn (decodeStandard raw))
    (hfields : SameFields insn (decodeStandard raw)) : Expands c insn raw := by
  rw [← hdecode] at hcompresses hfields
  exact ⟨hcompresses, hfields⟩

section Formats

variable (c : BitVec 16) (rd rs1 rs2 : BitVec 5) (funct3 : BitVec 3) (funct7 : BitVec 7)
  (imm : BitVec 12) {opcode : BitVec 7}

theorem immediate_expands (hopcode : opcode = 0x13 ∨ opcode = 0x1B)
    (hkind : funct3.toNat ≠ 1 ∧ funct3.toNat ≠ 5) :
    Expands c (setIInsn c rd.toNat funct3.toNat rs1.toNat (imm.signExtend 64) opcode.toNat)
      (iType imm rs1 funct3 rd opcode) := by
  refine .of_decode (decode_word _ _ _ _ _ _ (by rcases hopcode with rfl | rfl <;> rfl))
    ⟨rfl, rfl, rfl, word_opcode ..⟩ ?_
  apply SameFields.immediate
  · rcases hopcode with rfl | rfl
    · exact .inl rfl
    · exact .inr rfl
  · exact hkind
  · exact word_rd ..
  · exact word_funct3 ..
  · exact word_rs1 ..
  · exact iType_imm _ _ _ _ _ (by rcases hopcode with rfl | rfl <;> decide)

theorem load_expands (hopcode : opcode = 0x03 ∨ opcode = 0x07 ∧ funct3 = 3) :
    Expands c (setIInsn c rd.toNat funct3.toNat rs1.toNat (imm.signExtend 64) opcode.toNat)
      (iType imm rs1 funct3 rd opcode) := by
  refine .of_decode (decode_word _ _ _ _ _ _ (by rcases hopcode with rfl | ⟨rfl, -⟩ <;> rfl))
    ⟨rfl, rfl, rfl, word_opcode ..⟩ ?_
  apply SameFields.load
  · rcases hopcode with rfl | ⟨rfl, rfl⟩
    · exact .inl rfl
    · exact .inr rfl
  · exact word_rd ..
  · exact word_funct3 ..
  · exact word_rs1 ..
  · exact iType_imm _ _ _ _ _ (by rcases hopcode with rfl | ⟨rfl, -⟩ <;> decide)

theorem jumpRegister_expands :
    Expands c (setIInsn c rd.toNat 0 rs1.toNat (imm.signExtend 64) 0x67)
      (iType imm rs1 0 rd 0x67) := by
  refine .of_decode (decode_word _ _ _ _ _ _ rfl) ⟨rfl, rfl, rfl, word_opcode ..⟩ ?_
  exact .jumpRegister rfl (word_rd ..) (word_rs1 ..) (iType_imm _ _ _ _ _ (by decide))

theorem store_expands (hopcode : opcode = 0x23 ∨ opcode = 0x27 ∧ funct3 = 3) :
    Expands c (setSInsn c funct3.toNat rs1.toNat rs2.toNat (imm.signExtend 64) opcode.toNat)
      (sType imm rs2 rs1 funct3 opcode) := by
  refine .of_decode (decode_word _ _ _ _ _ _ (by rcases hopcode with rfl | ⟨rfl, -⟩ <;> rfl))
    ⟨rfl, rfl, rfl, word_opcode ..⟩ ?_
  apply SameFields.store
  · rcases hopcode with rfl | ⟨rfl, rfl⟩
    · exact .inl rfl
    · exact .inr rfl
  · exact word_funct3 ..
  · exact word_rs1 ..
  · exact word_rs2 ..
  · exact sType_imm _ _ _ _ _ (by rcases hopcode with rfl | ⟨rfl, -⟩ <;> simp)

theorem register_expands (hopcode : opcode = 0x33 ∨ opcode = 0x3B) :
    Expands c (setRInsn c rd.toNat funct3.toNat rs1.toNat rs2.toNat funct7.toNat opcode.toNat)
      (word funct7 rs2 rs1 funct3 rd opcode) := by
  refine .of_decode (decode_word _ _ _ _ _ _ (by rcases hopcode with rfl | rfl <;> rfl))
    ⟨rfl, rfl, rfl, word_opcode ..⟩ ?_
  apply SameFields.register
  · rcases hopcode with rfl | rfl
    · exact .inl rfl
    · exact .inr rfl
  · exact word_rd ..
  · exact word_funct3 ..
  · exact word_rs1 ..
  · exact word_rs2 ..
  · exact word_funct7 ..

theorem branch_expands (offset : BitVec 13) (hlow : offset.getLsbD 0 = false) :
    Expands c (setBInsn c funct3.toNat rs1.toNat rs2.toNat (offset.signExtend 64))
      (bType offset rs2 rs1 funct3) := by
  refine .of_decode (decode_word _ _ _ _ _ _ rfl) ⟨rfl, rfl, rfl, word_opcode ..⟩ ?_
  exact .branch rfl (word_funct3 ..) (word_rs1 ..) (word_rs2 ..) (bType_imm _ _ _ _ hlow)

theorem jump_expands (offset : BitVec 21) (hlow : offset.getLsbD 0 = false) :
    Expands c (setJInsn c rd.toNat (offset.signExtend 64)) (jType offset rd) := by
  refine .of_decode (decode_word _ _ _ _ _ _ rfl) ⟨rfl, rfl, rfl, word_opcode ..⟩ ?_
  exact .jump rfl (word_rd ..) (jType_imm _ _ hlow)

theorem upper_expands (upper : BitVec 20) :
    Expands c (setUInsn c rd.toNat ((upper ++ 0#12 : BitVec 32).signExtend 64) 0x37)
      (uType upper rd 0x37) := by
  refine .of_decode (decode_word _ _ _ _ _ _ rfl) ⟨rfl, rfl, rfl, word_opcode ..⟩ ?_
  exact .upper rfl (word_rd ..) (uType_imm _ _)

theorem shift_expands (shamt high : BitVec 6) (hfunct3 : funct3 = 1 ∨ funct3 = 5) :
    Expands c
      (setShiftIInsn c rd.toNat funct3.toNat rs1.toNat shamt.toNat
        (2 * high.toNat + shamt.toNat / 32))
      (iType (high ++ shamt) rs1 funct3 rd 0x13) := by
  have happend : (high ++ shamt).toNat = high.toNat * 64 + shamt.toNat := by
    rw [toNat_append, ← Nat.shiftLeft_add_eq_or_of_lt shamt.isLt, Nat.shiftLeft_eq]
  have hlow : ((high ++ shamt).extractLsb' 0 5).toNat = shamt.toNat % 32 := by
    rw [extractLsb'_toNat, happend, Nat.shiftRight_zero]
    omega
  have hhigh : ((high ++ shamt).extractLsb' 5 7).toNat = 2 * high.toNat + shamt.toNat / 32 := by
    have := high.isLt
    have := shamt.isLt
    rw [extractLsb'_toNat, happend, Nat.shiftRight_eq_div_pow]
    omega
  refine .of_decode (decode_word _ _ _ _ _ _ rfl) ⟨rfl, rfl, rfl, word_opcode ..⟩ ?_
  apply SameFields.shift
  · rfl
  · rcases hfunct3 with rfl | rfl
    · exact .inl rfl
    · exact .inr rfl
  · exact word_rd ..
  · exact word_funct3 ..
  · exact word_rs1 ..
  · exact (word_rs2 ..).trans hlow
  · exact (word_funct7 ..).trans hhigh

theorem ebreak_expands : Expands c (setSystemInsn c 1) (iType 1 0 0 0 0x73) :=
  ⟨⟨rfl, rfl, rfl, rfl⟩, .ebreak rfl rfl⟩

end Formats

/-- The instruction has the meaning of the expansion, or is none of the machine. -/
def Meets (c : BitVec 16) (insn : Insn) : Option (BitVec 32) → Prop
  | some raw => Expands c insn raw
  | none => insn = clearInsn (c.setWidth 32) 2

section Quadrants

variable (c : BitVec 16)

theorem decodeQuadrant0_meets : Meets c (decodeQuadrant0 c) (expandQuadrant0 c) := by
  have hlt := field_lt c 13 3
  have hoffsetD := signExtend_of_lt (offsetD c) (by decide)
  have hoffsetW := signExtend_of_lt (offsetW c) (by decide)
  unfold decodeQuadrant0 expandQuadrant0
  simp only [offsetD_eq, offsetW_eq, addi4spnImm_eq, compressedReg_eq, ← hoffsetD, ← hoffsetW]
  generalize field c 13 3 = funct3 at hlt
  interval_cases funct3 <;> simp only
  case «0» =>
    by_cases hzero : addi4spnImm c = 0
    · rw [if_pos hzero, if_neg ((setWidth_ne_zero_iff _ (by decide)).not.2 (not_not.2 hzero))]
      rfl
    rw [if_neg hzero, if_pos ((setWidth_ne_zero_iff _ (by decide)).2 hzero),
      ← signExtend_of_lt _ (by decide)]
    exact immediate_expands c _ 2 0 _ (.inl rfl) (by decide)
  case «1» => exact load_expands c _ _ 3 _ (.inr ⟨rfl, rfl⟩)
  case «2» => exact load_expands c _ _ 2 _ (.inl rfl)
  case «3» => exact load_expands c _ _ 3 _ (.inl rfl)
  case «4» => rfl
  case «5» => exact store_expands c _ _ 3 _ (.inr ⟨rfl, rfl⟩)
  case «6» => exact store_expands c _ _ 2 _ (.inl rfl)
  case «7» => exact store_expands c _ _ 3 _ (.inl rfl)

theorem decodeQuadrant1Arith_meets : Meets c (decodeQuadrant1Arith c) (expandArith c) := by
  have hlt := field_lt c 12 1
  have hlt' := field_lt c 5 2
  unfold decodeQuadrant1Arith expandArith
  simp only [compressedReg_eq]
  generalize field c 12 1 = bit at hlt
  generalize field c 5 2 = kind at hlt'
  interval_cases bit <;> interval_cases kind <;> simp only [if_true, one_ne_zero, if_false]
  case «0».«0» => exact register_expands c _ _ _ 0 0x20 (.inl rfl)
  case «0».«1» => exact register_expands c _ _ _ 4 0 (.inl rfl)
  case «0».«2» => exact register_expands c _ _ _ 6 0 (.inl rfl)
  case «0».«3» => exact register_expands c _ _ _ 7 0 (.inl rfl)
  case «1».«0» => exact register_expands c _ _ _ 0 0x20 (.inr rfl)
  case «1».«1» => exact register_expands c _ _ _ 0 0 (.inr rfl)
  case «1».«2» => rfl
  case «1».«3» => rfl

theorem upperImmediate_eq :
    (((imm6 c).signExtend 20 ++ 0#12 : BitVec 32).signExtend 64) = ciImmediate c <<< 12 := by
  rw [ciImmediate_eq]
  generalize imm6 c = x
  revert x
  decide

theorem upperImmediate_ne_zero : ciImmediate c <<< 12 ≠ 0 ↔ imm6 c ≠ 0 := by
  rw [ciImmediate_eq]
  generalize imm6 c = x
  revert x
  decide

theorem register_eq_iff (shift : ℕ) {n : ℕ} (hn : n < 32) :
    c.extractLsb' shift 5 = BitVec.ofNat 5 n ↔ field c shift 5 = n := by
  rw [← toNat_inj, toNat_ofNat, Nat.mod_eq_of_lt hn, field]

theorem signExtend_signExtend {n : ℕ} (x : BitVec n) {m : ℕ} (hn : n ≤ m) (hm : m ≤ 64) :
    (x.signExtend m).signExtend 64 = x.signExtend 64 := by
  apply eq_of_toInt_eq
  rw [toInt_signExtend_of_le hm, toInt_signExtend_of_le hn, toInt_signExtend_of_le (hn.trans hm)]

theorem zeroHigh_eq (n : ℕ) : 2 * (0 : BitVec 6).toNat + n = n := by
  simp

/-- A hint of `c.lui`: it names the register zero. -/
def LuiHint (c : BitVec 16) : Prop :=
  field c 0 2 = 1 ∧ field c 13 3 = 3 ∧ field c 7 5 = 0 ∧ imm6 c ≠ 0

/-- A `c.fldsp` that loads `f0`. -/
def FldspZero (c : BitVec 16) : Prop := field c 0 2 = 2 ∧ field c 13 3 = 1 ∧ field c 7 5 = 0

theorem decodeQuadrant1_meets (h : ¬ (field c 13 3 = 3 ∧ field c 7 5 = 0 ∧ imm6 c ≠ 0)) :
    Meets c (decodeQuadrant1 c) (expandQuadrant1 c) := by
  have hlt := field_lt c 13 3
  have himm6 := signExtend_signExtend (imm6 c) (m := 12) (by decide) (by decide)
  have hjump := signExtend_signExtend (jumpOffset c) (m := 21) (by decide) (by decide)
  have hbranch := signExtend_signExtend (branchOffset c) (m := 13) (by decide) (by decide)
  have hsp := signExtend_signExtend (addi16spImm c) (m := 12) (by decide) (by decide)
  have hzero : c.extractLsb' 7 5 = 0 ↔ field c 7 5 = 0 := register_eq_iff c 7 (by decide)
  have htwo : c.extractLsb' 7 5 = 2 ↔ field c 7 5 = 2 := register_eq_iff c 7 (by decide)
  unfold decodeQuadrant1 expandQuadrant1
  simp only [jumpOffset_eq, branchOffset_eq, addi16spImm_eq, compressedReg_eq, ciShamt_eq]
  rw [signExtend_setWidth _ (by decide) (by decide), signExtend_setWidth _ (by decide) (by decide),
    signExtend_setWidth _ (by decide) (by decide), ← hjump, ← hbranch, ← hsp]
  generalize hfunct3 : field c 13 3 = funct3 at hlt h
  interval_cases funct3 <;> simp only
  case «0» =>
    rw [ciImmediate_eq, ← himm6]
    exact immediate_expands c _ _ 0 _ (.inl rfl) (by decide)
  case «1» =>
    rw [ciImmediate_eq, ← himm6]
    by_cases hrd : field c 7 5 = 0
    · rw [if_neg (not_not.2 hrd), if_pos (hzero.2 hrd)]
      rfl
    rw [if_pos hrd, if_neg (hzero.not.2 hrd)]
    exact immediate_expands c _ _ 0 _ (.inr rfl) (by decide)
  case «2» =>
    rw [ciImmediate_eq, ← himm6]
    exact immediate_expands c _ 0 0 _ (.inl rfl) (by decide)
  case «3» =>
    by_cases hrd : field c 7 5 = 2
    · rw [if_pos hrd, if_pos (htwo.2 hrd)]
      by_cases himm : addi16spImm c = 0
      · rw [if_neg ((setWidth_ne_zero_iff _ (by decide)).not.2 (not_not.2 himm)), if_pos himm]
        rfl
      rw [if_pos ((setWidth_ne_zero_iff _ (by decide)).2 himm), if_neg himm]
      exact immediate_expands c 2 2 0 _ (.inl rfl) (by decide)
    · rw [if_neg hrd, if_neg (htwo.not.2 hrd)]
      by_cases himm : imm6 c = 0
      · rw [if_pos himm, if_neg ((upperImmediate_ne_zero c).not.2 (not_not.2 himm)), ite_self]
        rfl
      have hne : field c 7 5 ≠ 0 := fun hzero => h ⟨rfl, hzero, himm⟩
      rw [if_neg himm, if_pos hne, if_pos ((upperImmediate_ne_zero c).2 himm), ← upperImmediate_eq]
      exact upper_expands c _ _
  case «4» =>
    have hlt' := field_lt c 10 2
    generalize field c 10 2 = kind at hlt'
    interval_cases kind <;> simp only
    case «0» =>
      have hshift := shift_expands c (shortReg c 7) (shortReg c 7) 5 (imm6 c) 0 (.inr rfl)
      rw [zeroHigh_eq] at hshift
      exact hshift
    case «1» =>
      exact shift_expands c (shortReg c 7) (shortReg c 7) 5 (imm6 c) 0x10 (.inr rfl)
    case «2» =>
      rw [ciImmediate_eq, ← himm6]
      exact immediate_expands c _ _ 7 _ (.inl rfl) (by decide)
    case «3» => exact decodeQuadrant1Arith_meets c
  case «5» => exact jump_expands c 0 _ (jumpOffset_low c)
  case «6» => exact branch_expands c _ 0 0 _ (branchOffset_low c)
  case «7» => exact branch_expands c _ 0 1 _ (branchOffset_low c)

theorem decodeQuadrant2_meets (h : ¬ (field c 13 3 = 1 ∧ field c 7 5 = 0)) :
    Meets c (decodeQuadrant2 c) (expandQuadrant2 c) := by
  have hlt := field_lt c 13 3
  have hloadD := signExtend_of_lt (loadSpD c) (by decide)
  have hloadW := signExtend_of_lt (loadSpW c) (by decide)
  have hstoreD := signExtend_of_lt (storeSpD c) (by decide)
  have hstoreW := signExtend_of_lt (storeSpW c) (by decide)
  have hzero : c.extractLsb' 7 5 = 0 ↔ field c 7 5 = 0 := register_eq_iff c 7 (by decide)
  have hzero' : c.extractLsb' 2 5 = 0 ↔ field c 2 5 = 0 := register_eq_iff c 2 (by decide)
  unfold decodeQuadrant2 expandQuadrant2
  simp only [loadSpD_eq, loadSpW_eq, storeSpD_eq, storeSpW_eq, ciShamt_eq, ← hloadD, ← hloadW,
    ← hstoreD, ← hstoreW]
  generalize hfunct3 : field c 13 3 = funct3 at hlt h
  interval_cases funct3 <;> simp only
  case «0» =>
    have hshift := shift_expands c (c.extractLsb' 7 5) (c.extractLsb' 7 5) 1 (imm6 c) 0 (.inl rfl)
    rw [zeroHigh_eq] at hshift
    exact hshift
  case «1» =>
    have hrd : field c 7 5 ≠ 0 := fun hrd => h ⟨rfl, hrd⟩
    rw [if_neg hrd]
    exact load_expands c _ 2 3 _ (.inr ⟨rfl, rfl⟩)
  case «2» =>
    by_cases hrd : field c 7 5 = 0
    · rw [if_pos hrd, if_pos (hzero.2 hrd)]
      rfl
    rw [if_neg hrd, if_neg (hzero.not.2 hrd)]
    exact load_expands c _ 2 2 _ (.inl rfl)
  case «3» =>
    by_cases hrd : field c 7 5 = 0
    · rw [if_pos hrd, if_pos (hzero.2 hrd)]
      rfl
    rw [if_neg hrd, if_neg (hzero.not.2 hrd)]
    exact load_expands c _ 2 3 _ (.inl rfl)
  case «4» =>
    simp only [hzero, hzero']
    by_cases hbit : field c 12 1 = 0
    · rw [if_pos hbit, if_pos hbit]
      by_cases hrs2 : field c 2 5 = 0
      · rw [if_pos hrs2, if_pos hrs2]
        by_cases hrd : field c 7 5 = 0
        · rw [if_neg (not_not.2 hrd), if_pos hrd]
          rfl
        rw [if_pos hrd, if_neg hrd]
        exact jumpRegister_expands c 0 _ 0
      · rw [if_neg hrs2, if_neg hrs2]
        exact register_expands c _ 0 _ 0 0 (.inl rfl)
    · rw [if_neg hbit, if_neg hbit]
      by_cases hrs2 : field c 2 5 = 0
      · rw [if_pos hrs2, if_pos hrs2]
        by_cases hrd : field c 7 5 = 0
        · rw [if_pos hrd, if_pos hrd]
          exact ebreak_expands c
        rw [if_neg hrd, if_neg hrd]
        exact jumpRegister_expands c 1 _ 0
      · rw [if_neg hrs2, if_neg hrs2]
        exact register_expands c _ _ _ 0 0 (.inl rfl)
  case «5» => exact store_expands c 2 _ 3 _ (.inr ⟨rfl, rfl⟩)
  case «6» => exact store_expands c 2 _ 2 _ (.inl rfl)
  case «7» => exact store_expands c 2 _ 3 _ (.inl rfl)

/-- Outside the two kinds every encoding is decoded as its expansion prescribes. -/
theorem decodeCompressed_meets (hhint : ¬ LuiHint c) (hfldsp : ¬ FldspZero c) :
    Meets c (decodeCompressed c) (expand c) := by
  have hlt := field_lt c 0 2
  unfold decodeCompressed expand
  generalize hquadrant : field c 0 2 = quadrant at hlt
  interval_cases quadrant
  case «0» => exact decodeQuadrant0_meets c
  case «1» => exact decodeQuadrant1_meets c fun h => hhint ⟨hquadrant, h⟩
  case «2» => exact decodeQuadrant2_meets c fun h => hfldsp ⟨hquadrant, h⟩
  case «3» => rfl

theorem decode_low (hlow : field c 0 2 ≠ 3) : decode (c.setWidth 32) = decodeCompressed c := by
  have hfield : field (c.setWidth 32) 0 2 = field c 0 2 := by
    simp only [field, extractLsb'_toNat, Nat.shiftRight_zero, toNat_setWidth]
    have := c.isLt
    omega
  have hwidth : (c.setWidth 32).setWidth 16 = c := by
    apply eq_of_toNat_eq
    have := c.isLt
    simp only [toNat_setWidth]
    omega
  rw [decode, hfield, if_pos hlow, hwidth]

end Quadrants

section

variable {c : BitVec 16} {D : Type} [Devices D] [Fpu] {cpu : Cpu D} {insn : Insn}

/-- The decoded encoding has the effects of its expansion, or is an illegal instruction
when it has none. -/
def MeansExpansion (c : BitVec 16) (cpu : Cpu D) : Prop :=
  let insn := decode (c.setWidth 32)
  insn.size = 2 ∧
    match expand c with
    | some raw =>
      execute insn cpu (coreInputs insn cpu.core) =
        asCompressed c cpu.core.pc
          (execute (decode raw) cpu (coreInputs (decode raw) cpu.core))
    | none => execute insn cpu (coreInputs insn cpu.core) = illegalInstructionEffect (c.setWidth 32)

theorem execute_clearInsn (raw : BitVec 32) (size : ℕ) (inputs : SemanticInputs) :
    execute (clearInsn raw size) cpu inputs = illegalInstructionEffect raw := by
  unfold execute
  split_ifs <;> rfl

theorem meansExpansion_of_meets (hlow : field c 0 2 ≠ 3)
    (h : Meets c (decodeCompressed c) (expand c)) : MeansExpansion c cpu := by
  refine ⟨by rw [decode_low c hlow]; exact decodeCompressed_size c, ?_⟩
  rw [decode_low c hlow]
  cases hexpand : expand c with
  | none =>
    rw [hexpand] at h
    have hclear : decodeCompressed c = clearInsn (c.setWidth 32) 2 := h
    simp only [hclear]
    exact execute_clearInsn _ _ _
  | some raw =>
    rw [hexpand] at h
    exact h.compresses.execute h.fields

omit [Devices D] [Fpu] in
theorem decodeCompressed_luiHint (h : LuiHint c) :
    decodeCompressed c = clearInsn (c.setWidth 32) 2 := by
  obtain ⟨hlow, hfunct3, hrd, -⟩ := h
  simp [decodeCompressed, hlow, decodeQuadrant1, hfunct3, hrd]

omit [Devices D] [Fpu] in
theorem decodeCompressed_fldspZero (h : FldspZero c) :
    decodeCompressed c = clearInsn (c.setWidth 32) 2 := by
  obtain ⟨hlow, hfunct3, hrd⟩ := h
  simp [decodeCompressed, hlow, decodeQuadrant2, hfunct3, hrd]

theorem execute_upper_trap (hopcode : insn.opcode = 0x37) :
    (execute insn cpu (coreInputs insn cpu.core)).trap = none := by
  rw [execute_integer (by rw [hopcode]; decide)]
  simp only [buildIntegerEffects, hopcode]
  rfl

theorem execute_doubleLoad_trap (hopcode : insn.opcode = 0x07) (hfunct3 : insn.funct3 = 3) :
    (execute insn cpu (coreInputs insn cpu.core)).trap =
      if cpu.FloatingOff then some ⟨causeIllegalInsn, insn.raw.setWidth 64⟩ else none := by
  have hload : isStandardFpLoad insn := by simp [isStandardFpLoad, hopcode, hfunct3]
  have hvalid : (describeMemory insn).valid := by
    simp [describeMemory, hopcode, hload, loadDescriptor]
  rw [execute_floatLoad hload]
  split_ifs
  · rfl
  · simp [buildMemoryEffects, hvalid]

omit [Devices D] [Fpu] in
theorem expand_luiHint (h : LuiHint c) :
    expand c = some (uType ((imm6 c).signExtend 20) (c.extractLsb' 7 5) 0x37) := by
  obtain ⟨hlow, hfunct3, hrd, himm⟩ := h
  have htwo : c.extractLsb' 7 5 ≠ 2 := by
    intro heq
    rw [(register_eq_iff c 7 (n := 2) (by decide)).1 heq] at hrd
    cases hrd
  simp only [expand, hlow, expandQuadrant1, hfunct3, if_neg htwo, if_neg himm]

omit [Devices D] [Fpu] in
theorem expand_fldspZero (h : FldspZero c) :
    expand c = some (iType ((loadSpD c).setWidth 12) 2 3 (c.extractLsb' 7 5) 0x07) := by
  obtain ⟨hlow, hfunct3, -⟩ := h
  simp only [expand, hlow, expandQuadrant2, hfunct3]

theorem meansExpansion_of_clearInsn (hlow : field c 0 2 ≠ 3)
    (hclear : decodeCompressed c = clearInsn (c.setWidth 32) 2) {raw : BitVec 32}
    (hexpand : expand c = some raw) :
    MeansExpansion c cpu ↔ illegalInstructionEffect (c.setWidth 32) =
      asCompressed c cpu.core.pc
        (execute (decode raw) cpu (coreInputs (decode raw) cpu.core)) := by
  unfold MeansExpansion
  rw [decode_low c hlow, hclear, hexpand]
  exact and_iff_right rfl

theorem luiHint_not_meansExpansion (h : LuiHint c) : ¬ MeansExpansion c cpu := by
  have hlow : field c 0 2 ≠ 3 := by
    rw [h.1]
    decide
  rw [meansExpansion_of_clearInsn hlow (decodeCompressed_luiHint h) (expand_luiHint h)]
  intro heq
  have htrap := congrArg InsnEffects.trap heq
  simp only [asCompressed, execute_upper_trap (upper_expands c _ _).compresses.opcode] at htrap
  cases htrap

theorem fldspZero_meansExpansion_iff (h : FldspZero c) :
    MeansExpansion c cpu ↔ cpu.FloatingOff := by
  have hlow : field c 0 2 ≠ 3 := by
    rw [h.1]
    decide
  generalize hraw : iType ((loadSpD c).setWidth 12) 2 3 (c.extractLsb' 7 5) 0x07 = raw
  have hexpand : expand c = some raw := (expand_fldspZero h).trans (congrArg some hraw)
  have hdecode : decode raw = decodeStandard raw := by
    rw [← hraw]
    exact decode_word _ _ _ _ _ _ rfl
  have hopcode : (decode raw).opcode = 0x07 := by
    rw [hdecode, ← hraw]
    exact word_opcode ..
  have hfunct3 : (decode raw).funct3 = 3 := by
    rw [hdecode, ← hraw]
    exact word_funct3 ..
  have htrap : (execute (decode raw) cpu (coreInputs (decode raw) cpu.core)).trap =
      if cpu.FloatingOff then some ⟨causeIllegalInsn, (decode raw).raw.setWidth 64⟩ else none :=
    execute_doubleLoad_trap hopcode hfunct3
  have hload : isStandardFpLoad (decode raw) := by
    simp [isStandardFpLoad, hopcode, hfunct3]
  rw [meansExpansion_of_clearInsn hlow (decodeCompressed_fldspZero h) hexpand]
  constructor
  · intro heq
    by_contra hon
    have heq' := congrArg InsnEffects.trap heq
    simp only [asCompressed, htrap, if_neg hon] at heq'
    cases heq'
  · intro hoff
    rw [execute_floatLoad hload, if_pos hoff, asCompressed_illegal]

/-- The encodings mean their expansions exactly outside these two kinds. -/
theorem meansExpansion_iff (hlow : field c 0 2 ≠ 3) :
    MeansExpansion c cpu ↔ ¬ LuiHint c ∧ ¬ (FldspZero c ∧ ¬ cpu.FloatingOff) := by
  constructor
  · intro h
    exact ⟨fun hhint => luiHint_not_meansExpansion hhint h,
      fun hfldsp => hfldsp.2 ((fldspZero_meansExpansion_iff hfldsp.1).1 h)⟩
  rintro ⟨hhint, hfldsp⟩
  by_cases hzero : FldspZero c
  · rw [fldspZero_meansExpansion_iff hzero]
    exact not_not.1 fun hon => hfldsp ⟨hzero, hon⟩
  · exact meansExpansion_of_meets hlow (decodeCompressed_meets c hhint hzero)

end

def floatingMachine : Cpu Unit :=
  (Cpu.reset (Ram.ofWords memBase []) ()).writeCsr Csr.mstatus Mstatus.fsDirty

/-- The encoding of `c.fldsp ft0, 0(sp)`. -/
def fldspWord : BitVec 16 := 0x2002

theorem fldspWord_meansExpansion_iff :
    letI := Fpu.silent
    field fldspWord 0 2 ≠ 3 ∧ (MeansExpansion fldspWord floatingMachine ↔
      ¬ LuiHint fldspWord ∧ ¬ (FldspZero fldspWord ∧ ¬ floatingMachine.FloatingOff)) := by
  let := Fpu.silent
  have hlow : field fldspWord 0 2 ≠ 3 := by decide
  exact ⟨hlow, meansExpansion_iff hlow⟩

/-- The load to `f0` is decoded as an illegal instruction. -/
theorem fldspWord_rejected :
    letI := Fpu.silent
    field fldspWord 0 2 ≠ 3 ∧ ¬ MeansExpansion fldspWord floatingMachine := by
  let := Fpu.silent
  have hfldsp : FldspZero fldspWord := by
    unfold FldspZero
    decide
  have hon : ¬ floatingMachine.FloatingOff := by decide
  refine ⟨by decide, ?_⟩
  rw [fldspZero_meansExpansion_iff hfldsp]
  exact hon

end Rvc

end VisualCpu
