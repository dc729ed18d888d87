import VisualCpu.Interrupts
import VisualCpu.Exec.CommitFacts
import VisualCpu.Exec.OpcodeSemantics

/-!
# Boxed single-precision results

A single-precision value in a floating-point register is boxed: the upper half of the
register is all ones. The arithmetic results, the conversions and the move from an
integer register are boxed wherever they are computed. Sign injection and the minimum
and maximum with one NaN pass an operand on as it is, and a load writes zeros.
-/

namespace VisualCpu

open BitVec hiding and_self

/-- The upper half of the register is all ones. -/
def Boxed (value : BitVec 64) : Prop := value.extractLsb' 32 32 = allOnes 32

instance (value : BitVec 64) : Decidable (Boxed value) := inferInstanceAs (Decidable (_ = _))

theorem boxed_iff (value : BitVec 64) : Boxed value ↔ ∀ i, 32 ≤ i → i < 64 → value.getLsbD i := by
  constructor
  · intro h i hlow hhigh
    have hbit := congrArg (·.getLsbD (i - 32)) h
    have hlt : i - 32 < 32 := by omega
    have hadd : 32 + (i - 32) = i := by omega
    simp only [getLsbD_extractLsb', getLsbD_allOnes, hlt, hadd, decide_true, Bool.true_and] at hbit
    exact hbit
  · intro h
    apply eq_of_getLsbD_eq
    intro i hi
    rw [getLsbD_extractLsb', getLsbD_allOnes, h (32 + i) (by omega) (by omega), Bool.and_true]

theorem not_boxed_of_lt {value : BitVec 64} (h : value.toNat < 2 ^ 32) : ¬ Boxed value := by
  intro hboxed
  have hnat := congrArg BitVec.toNat hboxed
  rw [extractLsb'_toNat, Nat.shiftRight_eq_div_pow, toNat_allOnes] at hnat
  omega

namespace AddressSpace

theorem and_sizeMask_lt (value : BitVec 64) (size : ℕ) (h : size ≤ 8) :
    (value &&& sizeMask size).toNat < 2 ^ (8 * size) := by
  unfold sizeMask
  split_ifs with hsize
  · have : size = 8 := by omega
    subst this
    exact isLt _
  have hmask : ((1#64 <<< (8 * size)) - 1).toNat = 2 ^ (8 * size) - 1 := by
    have hlt : 2 ^ (8 * size) < 2 ^ 64 := Nat.pow_lt_pow_right (by decide) (by omega)
    have hpos : 0 < 2 ^ (8 * size) := Nat.two_pow_pos _
    have hone : (1 : BitVec 64).toNat = 1 := rfl
    rw [toNat_sub, toNat_shiftLeft, toNat_ofNat, Nat.shiftLeft_eq, hone]
    omega
  have hle := Nat.and_le_right (n := value.toNat) (m := 2 ^ (8 * size) - 1)
  have hpos : 0 < 2 ^ (8 * size) := Nat.two_pow_pos _
  rw [toNat_and, hmask]
  omega

section

variable {D : Type} [Devices D] (ctx : AccessContext) {addr value : BitVec 64} {as : AddressSpace D}

theorem accessFrom_lt (type : AccessType) {fuel : ℕ}
    {remaining shift : ℕ} {result : BitVec 64} (hvalue : value.toNat < 2 ^ shift)
    (hsize : shift + 8 * remaining ≤ 64)
    (h : (accessFrom ctx type fuel as addr remaining shift value).1 = .ok result) :
    result.toNat < 2 ^ (shift + 8 * remaining) := by
  induction fuel generalizing as addr value remaining shift with
  | zero =>
    cases h
    exact lt_of_lt_of_le hvalue (Nat.pow_le_pow_right (by decide) (by omega))
  | succ fuel ih =>
    unfold accessFrom at h
    split_ifs at h with hremaining
    · cases h
      exact lt_of_lt_of_le hvalue (Nat.pow_le_pow_right (by decide) (by omega))
    have hchunk : pageChunkSize addr remaining ≤ remaining := min_le_left _ _
    generalize pageChunkSize addr remaining = chunk at h hchunk
    rcases htranslate : as.translate ctx addr type true with ⟨fault | paddr, as₁⟩ <;>
      rw [htranslate] at h
    · cases h
    dsimp only at h
    rcases hload : as₁.loadChunk type paddr chunk with ⟨_ | chunkValue, as₂⟩ <;>
      rw [hload] at h
    · cases h
    have hpart := and_sizeMask_lt chunkValue chunk (by omega)
    have hjoined : (value ||| (chunkValue &&& sizeMask chunk) <<< shift).toNat <
        2 ^ (shift + 8 * chunk) := by
      rw [toNat_or, toNat_shiftLeft, Nat.shiftLeft_eq]
      apply Nat.or_lt_two_pow
      · exact lt_of_lt_of_le hvalue (Nat.pow_le_pow_right (by decide) (by omega))
      apply lt_of_le_of_lt (Nat.mod_le _ _)
      rw [Nat.add_comm, Nat.pow_add]
      exact Nat.mul_lt_mul_of_pos_right hpart (Nat.two_pow_pos _)
    have hrest := ih hjoined (by omega) h
    rwa [show shift + 8 * chunk + 8 * (remaining - chunk) = shift + 8 * remaining by omega]
      at hrest

theorem loadResult_lt {size : ℕ} (hsize : size ≤ 8)
    (h : (as.loadResult ctx addr size).1 = .ok value) : value.toNat < 2 ^ (8 * size) := by
  have hzero : (0 : BitVec 64).toNat < 2 ^ 0 := by decide
  have hlt := accessFrom_lt ctx .load hzero (by omega) h
  rwa [Nat.zero_add] at hlt

end

end AddressSpace

namespace FloatingOps

theorem boxed_or (value : BitVec 64) : Boxed (0xFFFFFFFF00000000 ||| value) := by
  rw [boxed_iff]
  intro i hlow hhigh
  have hmask : ∀ j, 32 ≤ j → j < 64 → (0xFFFFFFFF00000000 : BitVec 64).getLsbD j := by
    decide
  rw [getLsbD_or, hmask i hlow hhigh]
  rfl

theorem boxSingleResult_boxed (value : BitVec 32) : Boxed (boxSingleResult value) := boxed_or _

theorem boxed_congr {a b : BitVec 64} (h : ∀ i, 32 ≤ i → i < 64 → a.getLsbD i = b.getLsbD i) :
    Boxed a ↔ Boxed b := by
  rw [boxed_iff, boxed_iff]
  constructor
  · intro ha i hlow hhigh
    rw [← h i hlow hhigh]
    exact ha i hlow hhigh
  · intro hb i hlow hhigh
    rw [h i hlow hhigh]
    exact hb i hlow hhigh

theorem signInject_boxed {funct3 : ℕ} {rs1v rs2v value : BitVec 64}
    (h : signInject funct3 signBitS rs1v rs2v = some value) : Boxed value ↔ Boxed rs1v := by
  have hsign : ∀ j, 32 ≤ j → j < 64 → signBitS.getLsbD j = false := by decide
  apply boxed_congr
  intro i hlow hhigh
  unfold signInject at h
  split at h <;> cases h <;>
    simp only [getLsbD_or, getLsbD_and, getLsbD_not, getLsbD_xor,
      hsign i hlow hhigh, hhigh, Bool.and_false, Bool.or_false, Bool.xor_false, Bool.not_false,
      Bool.and_true, decide_true]

/-- One of the operands is a NaN and the other is not boxed. -/
def PassesUnboxed (rs1v rs2v : BitVec 64) : Prop :=
  isSingleNanBits rs1v ∧ isSingleNanBits rs2v = false ∧ ¬ Boxed rs2v ∨
    isSingleNanBits rs1v = false ∧ isSingleNanBits rs2v ∧ ¬ Boxed rs1v

theorem minmaxSingleResultBits_boxed [Fpu] (max : Bool) (rs1v rs2v : BitVec 64) :
    Boxed (minmaxSingleResultBits max rs1v rs2v).1 ↔ ¬ PassesUnboxed rs1v rs2v := by
  have hcanonical : Boxed canonicalSingleNanBits := by decide
  unfold minmaxSingleResultBits PassesUnboxed
  cases h1 : isSingleNanBits rs1v <;> cases h2 : isSingleNanBits rs2v <;>
    simp [boxSingleResult_boxed, hcanonical]

variable {insn : Insn}

/-- `flw`, in its 32-bit encoding. -/
def isFlw (insn : Insn) : Bool := isStandardFpLoad insn && insn.funct3 == 2

def isFminmaxS (insn : Insn) : Bool := isFminS insn || isFmaxS insn

/-- The result is boxed by the operation itself, whatever the operands. -/
def isBoxing (insn : Insn) : Bool :=
  isFmvWX insn || isFarithS insn || isFsqrtS insn || isFusedS insn || isFcvtSFromInt insn ||
    isFcvtSD insn

/-- The instructions whose result is single-precision. -/
def writesSingle (insn : Insn) : Bool :=
  isFlw insn || isBoxing insn || isFsgnjAnyS insn || isFminmaxS insn

/-- The result is a single-precision value in its box. -/
structure BoxesResult (insn : Insn) (rs1v rs2v : BitVec 64) : Prop where
  notLoad : isFlw insn = false
  signInjection : isFsgnjAnyS insn → Boxed rs1v
  minmax : isFminmaxS insn → ¬ PassesUnboxed rs1v rs2v

section Outcome

variable [Fpu] {frm : ℕ} {rs1v rs2v rs3v : BitVec 64} {outcome : FloatingOutcome}

omit [Fpu] in
theorem boxed_of_toFprS {mode : Option RoundingMode} {f : RoundingMode → BitVec 32 × FloatFlags}
    (h : mode.map (fun rm => toFprS (f rm)) = some outcome) :
    outcome.toFpr ∧ Boxed outcome.value := by
  obtain ⟨rm, -, rfl⟩ := Option.map_eq_some_iff.1 h
  exact ⟨rfl, boxSingleResult_boxed _⟩

theorem floatingOutcome_opFp (hopcode : insn.opcode = 0x53) :
    floatingOutcome insn frm rs1v rs2v rs3v = opFpOutcome insn frm rs1v rs2v := by
  simp [floatingOutcome, isFusedS, isFusedD, isFmaddS, isFmsubS, isFnmsubS, isFnmaddS, isFmaddD,
    isFmsubD, isFnmsubD, isFnmaddD, hopcode]

omit [Fpu] in
theorem isBoxing_cases (h : isBoxing insn) : isFusedS insn ∨ insn.opcode = 0x53 ∧
      (insn.funct7 = 0x78 ∨ insn.funct7 = 0x00 ∨ insn.funct7 = 0x04 ∨ insn.funct7 = 0x08 ∨
        insn.funct7 = 0x0C ∨ insn.funct7 = 0x2C ∨ insn.funct7 = 0x68 ∨ insn.funct7 = 0x20) := by
  cases hfused : isFusedS insn with
  | true => exact .inl rfl
  | false =>
    right
    simp only [isBoxing, isFmvWX, isFarithS, isFaddS, isFsubS, isFmulS, isFdivS, isFsqrtS, hfused,
      isFcvtSFromInt, isFcvtSW, isFcvtSWu, isFcvtSL, isFcvtSLu, isFcvtSD, isOpFp, Bool.or_eq_true,
      Bool.and_eq_true, beq_iff_eq, Bool.false_eq_true, or_false] at h
    omega

theorem isBoxing_boxed (hboxing : isBoxing insn)
    (h : floatingOutcome insn frm rs1v rs2v rs3v = some outcome) :
    outcome.toFpr ∧ Boxed outcome.value := by
  rcases isBoxing_cases hboxing with hfused | ⟨hopcode, hfunct7⟩
  · rw [floatingOutcome, if_pos hfused] at h
    exact boxed_of_toFprS h
  rw [floatingOutcome_opFp hopcode] at h
  unfold opFpOutcome at h
  rcases hfunct7 with hf | hf | hf | hf | hf | hf | hf | hf <;> simp only [hf] at h
  · split_ifs at h
    cases h
    exact ⟨rfl, boxed_or _⟩
  · exact boxed_of_toFprS h
  · exact boxed_of_toFprS h
  · exact boxed_of_toFprS h
  · exact boxed_of_toFprS h
  · split_ifs at h
    exact boxed_of_toFprS h
  · obtain ⟨format, -, hmode⟩ := Option.bind_eq_some_iff.1 h
    exact boxed_of_toFprS hmode
  · split_ifs at h
    exact boxed_of_toFprS h

omit [Fpu] in
theorem isFsgnjAnyS_cases (h : isFsgnjAnyS insn) : insn.opcode = 0x53 ∧ insn.funct7 = 0x10 := by
  simp only [isFsgnjAnyS, isFsgnjS, isFsgnjnS, isFsgnjxS, isOpFp, Bool.or_eq_true, Bool.and_eq_true,
    beq_iff_eq] at h
  omega

omit [Fpu] in
theorem isFminmaxS_cases (h : isFminmaxS insn) :
    insn.opcode = 0x53 ∧ insn.funct7 = 0x14 ∧ (insn.funct3 = 0 ∨ insn.funct3 = 1) := by
  simp only [isFminmaxS, isFminS, isFmaxS, isOpFp, Bool.or_eq_true, Bool.and_eq_true,
    beq_iff_eq] at h
  omega

omit [Fpu] in
theorem isBoxing_boxesResult (hboxing : isBoxing insn) (hload : isFlw insn = false) :
    BoxesResult insn rs1v rs2v := by
  have hfused : isFusedS insn → insn.opcode ≠ 0x53 := by
    intro hfused hopcode
    simp [isFusedS, isFmaddS, isFmsubS, isFnmsubS, isFnmaddS, hopcode] at hfused
  have hcases := isBoxing_cases hboxing
  constructor
  · exact hload
  · intro hsign
    obtain ⟨hopcode, hfunct7⟩ := isFsgnjAnyS_cases hsign
    rcases hcases with h | ⟨-, h⟩
    · exact absurd hopcode (hfused h)
    · omega
  · intro hminmax
    obtain ⟨hopcode, hfunct7, -⟩ := isFminmaxS_cases hminmax
    rcases hcases with h | ⟨-, h⟩
    · exact absurd hopcode (hfused h)
    · omega

theorem floatingOutcome_boxed_iff (hwrites : writesSingle insn) (hload : isFlw insn = false)
    (h : floatingOutcome insn frm rs1v rs2v rs3v = some outcome) :
    outcome.toFpr ∧ (Boxed outcome.value ↔ BoxesResult insn rs1v rs2v) := by
  by_cases hboxing : isBoxing insn
  · obtain ⟨hfpr, hboxed⟩ := isBoxing_boxed hboxing h
    exact ⟨hfpr, iff_of_true hboxed (isBoxing_boxesResult hboxing hload)⟩
  by_cases hsign : isFsgnjAnyS insn
  · obtain ⟨hopcode, hfunct7⟩ := isFsgnjAnyS_cases hsign
    have hminmax : ¬ isFminmaxS insn := by
      intro hminmax
      have := (isFminmaxS_cases hminmax).2.1
      omega
    rw [floatingOutcome_opFp hopcode] at h
    unfold opFpOutcome at h
    simp only [hfunct7] at h
    obtain ⟨value, hvalue, rfl⟩ := Option.map_eq_some_iff.1 h
    refine ⟨rfl, ?_⟩
    change Boxed value ↔ _
    rw [signInject_boxed hvalue]
    exact ⟨fun hboxed => ⟨hload, fun _ => hboxed, fun hmm => absurd hmm hminmax⟩,
      fun hboxes => hboxes.signInjection hsign⟩
  · have hminmax : isFminmaxS insn := by
      simpa [writesSingle, hload, hboxing, hsign] using hwrites
    obtain ⟨hopcode, hfunct7, hfunct3⟩ := isFminmaxS_cases hminmax
    rw [floatingOutcome_opFp hopcode] at h
    unfold opFpOutcome at h
    simp only [hfunct7, minmaxOutcome] at h
    have hvalue : ∃ max, outcome = toFprD (minmaxSingleResultBits max rs1v rs2v) := by
      rcases hfunct3 with hf | hf <;> simp only [hf, Option.some.injEq] at h
      · exact ⟨false, h.symm⟩
      · exact ⟨true, h.symm⟩
    obtain ⟨max, rfl⟩ := hvalue
    refine ⟨rfl, ?_⟩
    change Boxed (minmaxSingleResultBits max rs1v rs2v).1 ↔ _
    rw [minmaxSingleResultBits_boxed]
    exact ⟨fun hboxed => ⟨hload, fun hs => absurd hs hsign, fun _ => hboxed⟩,
      fun hboxes => hboxes.minmax hminmax⟩

end Outcome

end FloatingOps

namespace Cpu

variable {D : Type} [Devices D] (cpu : Cpu D) (input : CommitBoundaryInput)

theorem trap_eq_none_of_not_taken (h : (cpu.applyCommitBoundary input).1.trapTaken = false) :
    input.effects.trap = none := by
  cases htrap : input.effects.trap with
  | none => rfl
  | some trap =>
    rw [applyCommitBoundary, htrap] at h
    cases h

theorem applyCommitBoundary_floatLoad (htaken : (cpu.applyCommitBoundary input).1.trapTaken = false)
    (hkind : input.effects.mem.kind = .load) (htarget : input.effects.mem.target = .float)
    (hrd : input.effects.rdWrite = none) (hfp : input.effects.fpWrite = none)
    (hatomic : input.effects.atomic.kind = .none) (hvector : input.effects.vector.kind = .none) :
    ∃ value, (cpu.loadResult input.effects.mem.addr input.effects.mem.size).1 = .ok value ∧
      (cpu.applyCommitBoundary input).2.core.fpr =
        afterFpWrite cpu.core.fpr (some ⟨input.effects.mem.rd, value⟩) := by
  have htrap := cpu.trap_eq_none_of_not_taken input htaken
  have hcore : (cpu.loadResult input.effects.mem.addr input.effects.mem.size).2.core = cpu.core :=
    rfl
  unfold applyCommitBoundary commitMemory at htaken ⊢
  rw [htrap] at htaken ⊢
  simp only [hkind, hrd, hfp, and_self, if_true] at htaken ⊢
  rcases hload : cpu.loadResult input.effects.mem.addr input.effects.mem.size with
    ⟨fault | value, loaded⟩
  · rw [hload] at htaken
    cases htaken
  rw [hload] at hcore
  refine ⟨value, rfl, ?_⟩
  have heffects : loadEffects input.effects value =
      { input.effects with fpWrite := some ⟨input.effects.mem.rd, value⟩ } := by
    simp only [loadEffects, htarget]
  have hrequest : loaded.applyVectorRequest input.effects.vector = (.ok false, loaded) := by
    simp [applyVectorRequest, hvector]
  simp only [heffects, commitAtomic, hatomic, if_true, commitVector, hrequest]
  rw [finishCommit_fpr, ← hcore]

end Cpu

open FloatingOps

section

variable {D : Type} [Devices D] [Fpu] {cpu : Cpu D} {insn : Insn}

omit [Fpu] in
theorem readFpr_after {fpr : Fin 32 → BitVec 64} {core : CoreState} {rd : ℕ} {value : BitVec 64}
    (h : core.fpr = Cpu.afterFpWrite fpr (some ⟨rd, value⟩)) : core.readFpr rd = value := by
  rw [CoreState.readFpr, h]
  exact Function.update_self _ _ _

theorem buildEffects_floatLoad (hload : isStandardFpLoad insn)
    (htrap : (buildEffects cpu insn).trap = none) :
    buildEffects cpu insn =
      { mem :=
          { kind := .load
            target := .float
            addr := cpu.core.readGpr insn.rs1 + insn.imm
            rd := insn.rd
            size := if insn.funct3 = 3 then 8 else 4 }
        floatingStateTouched := true } := by
  have hopcode : insn.opcode = 0x07 := by
    simp only [isStandardFpLoad, Bool.and_eq_true, beq_iff_eq] at hload
    exact hload.1
  have hsupports : supports insn := by simp only [supports, hopcode]
  unfold buildEffects at htrap ⊢
  rw [hsupports] at htrap ⊢
  rw [execute_floatLoad hload] at htrap ⊢
  by_cases hoff : cpu.FloatingOff
  · rw [if_pos hoff] at htrap
    cases htrap
  rw [if_neg hoff]
  simp [buildMemoryEffects, describeMemory, hopcode, hload, loadDescriptor]

variable {pc nextPc : BitVec 64}

theorem boundary_floatLoad (hload : isStandardFpLoad insn)
    (htaken : (cpu.applyCommitBoundary ⟨pc, nextPc, buildEffects cpu insn⟩).1.trapTaken = false) :
    ∃ value, (cpu.loadResult (cpu.core.readGpr insn.rs1 + insn.imm)
        (if insn.funct3 = 3 then 8 else 4)).1 = .ok value ∧
      (cpu.applyCommitBoundary ⟨pc, nextPc, buildEffects cpu insn⟩).2.core.readFpr insn.rd =
        value := by
  have htrap := cpu.trap_eq_none_of_not_taken _ htaken
  rw [buildEffects_floatLoad hload htrap] at htaken ⊢
  obtain ⟨value, hvalue, hfpr⟩ :=
    cpu.applyCommitBoundary_floatLoad _ htaken rfl rfl rfl rfl rfl rfl
  exact ⟨value, hvalue, readFpr_after hfpr⟩

theorem boundary_flw (hflw : isFlw insn)
    (htaken : (cpu.applyCommitBoundary ⟨pc, nextPc, buildEffects cpu insn⟩).1.trapTaken = false) :
    ¬ Boxed ((cpu.applyCommitBoundary ⟨pc, nextPc, buildEffects cpu insn⟩).2.core.readFpr
      insn.rd) := by
  simp only [isFlw, Bool.and_eq_true, beq_iff_eq] at hflw
  obtain ⟨value, hvalue, hread⟩ := boundary_floatLoad hflw.1 htaken
  rw [hflw.2, if_neg (by decide)] at hvalue
  rw [hread]
  exact not_boxed_of_lt (AddressSpace.loadResult_lt cpu.accessContext (by decide) hvalue)

omit [Fpu] [Devices D] in
theorem writesSingle_opcode (hwrites : writesSingle insn) (hflw : isFlw insn = false) :
    insn.opcode ∈ floatingOpcodes := by
  simp only [writesSingle, hflw, Bool.false_or, Bool.or_eq_true] at hwrites
  rcases hwrites with (hboxing | hsign) | hminmax
  · rcases isBoxing_cases hboxing with hfused | ⟨hopcode, -⟩
    · simp only [isFusedS, isFmaddS, isFmsubS, isFnmsubS, isFnmaddS, Bool.or_eq_true,
        Bool.and_eq_true, beq_iff_eq] at hfused
      simp only [floatingOpcodes, List.mem_cons, List.not_mem_nil, or_false]
      omega
    · simp [floatingOpcodes, hopcode]
  · simp [floatingOpcodes, (isFsgnjAnyS_cases hsign).1]
  · simp [floatingOpcodes, (isFminmaxS_cases hminmax).1]

omit [Fpu] [Devices D] in
/-- Sign injection and the minimum take both operands from floating-point registers. -/
theorem boxesResult_inputs (core : CoreState) :
    BoxesResult insn (coreInputs insn core).rs1v (coreInputs insn core).rs2v ↔
      BoxesResult insn (core.readFpr insn.rs1) (core.readFpr insn.rs2) := by
  have hfpr : isFsgnjAnyS insn ∨ isFminmaxS insn →
      (coreInputs insn core).rs1v = core.readFpr insn.rs1 ∧
        (coreInputs insn core).rs2v = core.readFpr insn.rs2 := by
    intro h
    have hrs1 : floatingRs1FromFpr insn := by
      rcases h with h | h
      · simp [floatingRs1FromFpr, h]
      have hminmax : isFminmax insn := by
        simp only [isFminmaxS, Bool.or_eq_true] at h
        rcases h with h | h <;> simp [isFminmax, h]
      simp [floatingRs1FromFpr, hminmax]
    have hrs2 : floatingRs2FromFpr insn := by
      rcases h with h | h
      · simp [floatingRs2FromFpr, h]
      have hminmax : isFminmax insn := by
        simp only [isFminmaxS, Bool.or_eq_true] at h
        rcases h with h | h <;> simp [isFminmax, h]
      simp [floatingRs2FromFpr, hminmax]
    simp [coreInputs, describeRs1, describeRs2, hrs1, hrs2]
  constructor
  · intro hboxes
    refine ⟨hboxes.notLoad, fun hsign => ?_, fun hminmax => ?_⟩
    · rw [← (hfpr (.inl hsign)).1]
      exact hboxes.signInjection hsign
    rw [← (hfpr (.inr hminmax)).1, ← (hfpr (.inr hminmax)).2]
    exact hboxes.minmax hminmax
  · intro hboxes
    refine ⟨hboxes.notLoad, fun hsign => ?_, fun hminmax => ?_⟩
    · rw [(hfpr (.inl hsign)).1]
      exact hboxes.signInjection hsign
    rw [(hfpr (.inr hminmax)).1, (hfpr (.inr hminmax)).2]
    exact hboxes.minmax hminmax

theorem boundary_arithmetic (hwrites : writesSingle insn) (hflw : isFlw insn = false)
    (htaken : (cpu.applyCommitBoundary ⟨pc, nextPc, buildEffects cpu insn⟩).1.trapTaken = false) :
    Boxed ((cpu.applyCommitBoundary ⟨pc, nextPc, buildEffects cpu insn⟩).2.core.readFpr insn.rd) ↔
      BoxesResult insn (cpu.core.readFpr insn.rs1) (cpu.core.readFpr insn.rs2) := by
  have htrap := cpu.trap_eq_none_of_not_taken _ htaken
  have hopcode := writesSingle_opcode hwrites hflw
  have hsupports : supports insn := by
    simp only [floatingOpcodes, List.mem_cons, List.not_mem_nil, or_false] at hopcode
    rcases hopcode with h | h | h | h | h <;> simp only [supports, h]
  have heffects : ∃ outcome, floatingOutcome insn (frmOf (cpu.readCsr Csr.fcsr))
      (coreInputs insn cpu.core).rs1v (coreInputs insn cpu.core).rs2v
      (coreInputs insn cpu.core).rs3v = some outcome ∧
      buildEffects cpu insn = outcomeEffects insn (cpu.readCsr Csr.fcsr) outcome := by
    unfold buildEffects at htrap ⊢
    rw [hsupports] at htrap ⊢
    simp only [Bool.not_true, Bool.false_eq_true, if_false] at htrap ⊢
    rw [execute_floating hopcode] at htrap ⊢
    split_ifs at htrap ⊢
    · cases htrap
    unfold buildFloatingEffects at htrap ⊢
    cases houtcome : floatingOutcome insn (frmOf (cpu.readCsr Csr.fcsr))
      (coreInputs insn cpu.core).rs1v (coreInputs insn cpu.core).rs2v
      (coreInputs insn cpu.core).rs3v with
    | none =>
      rw [houtcome] at htrap
      cases htrap
    | some outcome => exact ⟨outcome, rfl, rfl⟩
  obtain ⟨outcome, houtcome, hbuild⟩ := heffects
  obtain ⟨hfpr, hboxed⟩ := floatingOutcome_boxed_iff hwrites hflw houtcome
  have hwrite : (outcomeEffects insn (cpu.readCsr Csr.fcsr) outcome).fpWrite =
      some ⟨insn.rd, outcome.value⟩ := by
    simp [outcomeEffects, hfpr]
  rw [hbuild, cpu.applyCommitBoundary_plain _ rfl rfl rfl rfl,
    readFpr_after ((Cpu.finishCommit_fpr _ _ _ _ _).trans (congrArg _ hwrite)), hboxed,
    boxesResult_inputs]

theorem boundary_boxed_iff (hwrites : writesSingle insn)
    (htaken : (cpu.applyCommitBoundary ⟨pc, nextPc, buildEffects cpu insn⟩).1.trapTaken = false) :
    Boxed ((cpu.applyCommitBoundary ⟨pc, nextPc, buildEffects cpu insn⟩).2.core.readFpr insn.rd) ↔
      BoxesResult insn (cpu.core.readFpr insn.rs1) (cpu.core.readFpr insn.rs2) := by
  cases hflw : isFlw insn with
  | true =>
    apply iff_of_false (boundary_flw hflw htaken)
    intro hboxes
    rw [hboxes.notLoad] at hflw
    cases hflw
  | false => exact boundary_arithmetic hwrites hflw htaken

end

namespace FunctionalBackend

section

variable {D : Type} [Devices D] [Fpu] (backend : FunctionalBackend D) {raw : BitVec 32}

/-- The step fetches the word and executes it to its end. -/
def Completes (raw : BitVec 32) : Prop :=
  ∃ cpu, backend.aboutToExecute.fetchInstruction backend.aboutToExecute.core.pc = (.ok raw, cpu) ∧
    (cpu.applyCommitBoundary (fetchedInput cpu raw)).1.trapTaken = false

theorem completes_of_fetch {fetched : Except TrapRequest (BitVec 32) × Cpu D}
    (h : backend.aboutToExecute.fetchInstruction backend.aboutToExecute.core.pc = fetched)
    (hraw : fetched.1 = .ok raw)
    (htaken : (fetched.2.applyCommitBoundary (fetchedInput fetched.2 raw)).1.trapTaken = false) :
    backend.Completes raw :=
  ⟨fetched.2, h.trans (Prod.ext hraw rfl), htaken⟩

/-- A single-precision instruction that the step completes leaves its result boxed. -/
def LeavesBoxed : Prop :=
  ∀ raw, backend.Completes raw → writesSingle (decodeFetched raw) →
    Boxed (backend.step.cpu.core.readFpr (decodeFetched raw).rd)

/-- The single-precision instruction that the step completes is no load and passes on no
unboxed operand. -/
def PassesBoxed : Prop :=
  ∀ raw, backend.Completes raw → writesSingle (decodeFetched raw) →
    BoxesResult (decodeFetched raw)
      (backend.aboutToExecute.core.readFpr (decodeFetched raw).rs1)
      (backend.aboutToExecute.core.readFpr (decodeFetched raw).rs2)

theorem step_boxed_iff (hcompletes : backend.Completes raw)
    (hwrites : writesSingle (decodeFetched raw)) :
    Boxed (backend.step.cpu.core.readFpr (decodeFetched raw).rd) ↔
      BoxesResult (decodeFetched raw)
        (backend.aboutToExecute.core.readFpr (decodeFetched raw).rs1)
        (backend.aboutToExecute.core.readFpr (decodeFetched raw).rs2) := by
  obtain ⟨cpu, hfetch, htaken⟩ := hcompletes
  have hsame := backend.aboutToExecute.fetchInstruction_sameRegisters
    backend.aboutToExecute.core.pc
  rw [hfetch] at hsame
  have hcore : cpu.core = backend.aboutToExecute.core := hsame.core
  have hafter : backend.step.cpu.core.fpr =
      (cpu.applyCommitBoundary (fetchedInput cpu raw)).2.core.fpr := by
    rw [backend.step_of_fetched hfetch]
    exact (congrArg CoreState.fpr (executeFetched_core _ cpu raw)).trans rfl
  have hread : backend.step.cpu.core.readFpr (decodeFetched raw).rd =
      (cpu.applyCommitBoundary (fetchedInput cpu raw)).2.core.readFpr (decodeFetched raw).rd :=
    congrFun hafter _
  rw [hread, ← hcore]
  exact boundary_boxed_iff hwrites htaken

end

def loadSingleProgram : List (BitVec 32) :=
  [0x000062B7, -- lui t0, 6
    0x3002A073, -- csrs mstatus, t0
    0x00000317, -- auipc t1, 0
    0x00032007] -- flw ft0, 0(t1)

/-- The state of that program when the load is fetched. -/
def loadSingleMachine : FunctionalBackend Unit :=
  letI := Fpu.silent
  step^[3] (reset (Ram.ofWords memBase loadSingleProgram) ())

end FunctionalBackend

end VisualCpu
