import VisualCpu.Interrupts
import VisualCpu.Exec.EffectFacts
import VisualCpu.Exec.CommitFacts

/-!
# The alignment of the pc

Every target that the hardware computes is even: fall-through, branches, jumps and
trap vectors. A trap return takes its target from `mepc` or `sepc` as software left
it there. The pc of a run stays even exactly as long as no return finds an odd one.
-/

namespace VisualCpu

open SystemOps

theorem even_add {a b : BitVec 64} (ha : Even a.toNat) (hb : Even b.toNat) :
    Even (a + b).toNat := by
  rw [Nat.even_iff] at *
  rw [BitVec.toNat_add]
  omega

theorem even_iff_getLsbD (v : BitVec 64) : Even v.toNat ↔ v.getLsbD 0 = false := by
  rw [Nat.even_iff, BitVec.getLsbD, Nat.testBit_zero, decide_eq_false_iff_not]
  omega

theorem isInstructionAligned_iff (v : BitVec 64) : isInstructionAligned v ↔ Even v.toNat := by
  have hone : (1 : BitVec 64).toNat = 1 := rfl
  have hand : v &&& 1 = 0 ↔ v.toNat % 2 = 0 := by
    rw [← BitVec.toNat_inj, BitVec.toNat_and, hone, Nat.and_one_is_mod]
    rfl
  rw [Nat.even_iff, isInstructionAligned, beq_iff_eq, hand]

theorem even_and_not {v m : BitVec 64} (hm : m.getLsbD 0) : Even (v &&& ~~~m).toNat := by
  rw [even_iff_getLsbD]
  simp [hm]

theorem instructionSize_even (raw : BitVec 32) : Even (instructionSize (decode raw)).toNat := by
  unfold instructionSize
  rw [decode_size]
  split_ifs <;> decide

theorem trapVectorBase_even (tvec cause : BitVec 64) : Even (trapVectorBase tvec cause).toNat := by
  have hbase : Even (tvec &&& ~~~3).toNat := even_and_not (by decide)
  unfold trapVectorBase
  split_ifs
  · apply even_add hbase
    have hfour : (4 : BitVec 64).toNat = 4 := rfl
    rw [Nat.even_iff, BitVec.toNat_mul, hfour]
    omega
  · exact hbase

theorem jumpEffect_even {insn : Insn} {pc target redirect : BitVec 64}
    (h : (jumpEffect insn pc target).control.redirectPc = some redirect) : Even redirect.toNat := by
  unfold jumpEffect at h
  split_ifs at h with haligned
  · cases h
  cases h
  rw [← isInstructionAligned_iff]
  simpa using haligned

theorem buildControlFlowEffects_even {insn : Insn} {rs1v rs2v pc redirect : BitVec 64}
    (h : (buildControlFlowEffects insn rs1v rs2v pc).control.redirectPc = some redirect) :
    Even redirect.toNat := by
  unfold buildControlFlowEffects at h
  split at h
  · exact jumpEffect_even h
  · exact jumpEffect_even h
  · split at h
    · cases h
    · cases h
    split_ifs at h with haligned
    · cases h
    cases h
    rw [← isInstructionAligned_iff]
    simpa using haligned
  · cases h

section

variable {D : Type} [Devices D] [Fpu] {cpu : Cpu D} {insn : Insn}

variable {inputs : SemanticInputs} {kind : TrapReturnKind} {redirect : BitVec 64} {raw : BitVec 32}

theorem execute_redirect_even
    (h : (execute insn cpu inputs).control.redirectPc = some redirect) : Even redirect.toNat := by
  have hflow : isControlFlowOpcode insn.opcode :=
    (execute_shape insn cpu inputs).redirect (by rw [h]; exact Option.some_ne_none _)
  unfold execute at h
  by_cases hoff : requiresEnabledFloatingState insn ∧
      cpu.readCsr Csr.mstatus &&& Mstatus.fsMask = Mstatus.fsOff
  · rw [if_pos hoff] at h
    cases h
  rw [if_neg hoff] at h
  have hopcode : insn.opcode = 0x63 ∨ insn.opcode = 0x67 ∨ insn.opcode = 0x6F := by
    simpa [isControlFlowOpcode, or_assoc] using hflow
  rcases hopcode with hopcode | hopcode | hopcode <;> simp only [hopcode] at h <;>
    exact buildControlFlowEffects_even h

theorem buildEffects_redirect_even
    (h : (buildEffects cpu insn).control.redirectPc = some redirect) : Even redirect.toNat := by
  unfold buildEffects at h
  split_ifs at h
  · cases h
  · exact execute_redirect_even h

/-- The encodings of the two trap returns. -/
def mretWord : BitVec 32 := 0x30200073
def sretWord : BitVec 32 := 0x10200073

def returnEffect (trapReturn : TrapReturnKind) : InsnEffects := { control := { trapReturn } }

/-- The word returns from a trap when executed in this state. -/
inductive Returns (cpu : Cpu D) (raw : BitVec 32) : TrapReturnKind → Prop
  | mret (hraw : raw = mretWord) (hmode : cpu.core.privilegeMode = .machine) : Returns cpu raw .mret
  | sret (hraw : raw = sretWord) (hmode : cpu.core.privilegeMode ≠ .user) : Returns cpu raw .sret

omit [Devices D] [Fpu] in
theorem Returns.of_core {cpu' : Cpu D}
    (h : Returns cpu raw kind) (hcore : cpu'.core = cpu.core) : Returns cpu' raw kind := by
  cases h with
  | mret hraw hmode => exact .mret hraw (hcore ▸ hmode)
  | sret hraw hmode => exact .sret hraw (hcore ▸ hmode)

omit [Devices D] [Fpu] in
theorem privilegedEffects_returns
    (h : (privilegedEffects cpu insn inputs).control.trapReturn ≠ .none) :
    ∃ kind, Returns cpu insn.raw kind ∧ privilegedEffects cpu insn inputs = returnEffect kind := by
  unfold privilegedEffects unlessUser at h ⊢
  split_ifs at h ⊢ with hecall hebreak hmret hmode hsret huser
  · unfold ecallEffects at h
    simp only at h
    split_ifs at h
    · exact absurd rfl h
    · exact absurd rfl h
  · exact absurd rfl h
  · exact absurd rfl h
  · exact ⟨.mret, .mret hmret (not_not.1 hmode), rfl⟩
  · exact absurd rfl h
  · exact ⟨.sret, .sret hsret huser, rfl⟩
  all_goals exact absurd rfl h

omit [Fpu] in
theorem csrEffects_trapReturn (source : BitVec 64) :
    (csrEffects cpu insn inputs source).control.trapReturn = .none := by
  unfold csrEffects
  simp only
  split_ifs <;> rfl

theorem buildEffects_returns (h : (buildEffects cpu insn).control.trapReturn ≠ .none) :
    ∃ kind, Returns cpu insn.raw kind ∧ buildEffects cpu insn = returnEffect kind := by
  unfold buildEffects at h ⊢
  split_ifs at h ⊢
  · exact absurd rfl h
  have hopcode : insn.opcode = 0x73 := (execute_shape insn cpu _).system (.inl h)
  unfold execute at h ⊢
  by_cases hoff : requiresEnabledFloatingState insn ∧
      cpu.readCsr Csr.mstatus &&& Mstatus.fsMask = Mstatus.fsOff
  · rw [if_pos hoff] at h
    exact absurd rfl h
  rw [if_neg hoff] at h ⊢
  simp only [hopcode] at h ⊢
  unfold buildSystemEffects at h ⊢
  split at h
  · exact privilegedEffects_returns h
  all_goals first | exact absurd (csrEffects_trapReturn _) h | exact absurd rfl h

theorem buildEffects_of_returns
    (h : Returns cpu raw kind) :
    buildEffects cpu (FunctionalBackend.decodeFetched raw) = returnEffect kind := by
  cases h with
  | mret hraw hmode =>
    subst hraw
    have hprivileged : buildEffects cpu (FunctionalBackend.decodeFetched mretWord) =
        if cpu.core.privilegeMode ≠ .machine then illegalInstructionEffect mretWord
        else returnEffect .mret := rfl
    rw [hprivileged, if_neg (not_not.2 hmode)]
  | sret hraw hmode =>
    subst hraw
    have hprivileged : buildEffects cpu (FunctionalBackend.decodeFetched sretWord) =
        if cpu.core.privilegeMode = .user then illegalInstructionEffect sretWord
        else returnEffect .sret := rfl
    rw [hprivileged, if_neg hmode]

end

namespace Cpu

variable {D : Type} [Devices D] (cpu : Cpu D) {kind : TrapReturnKind}

def returnCsr : TrapReturnKind → BitVec 12
  | .sret => Csr.sepc
  | _ => Csr.mepc

theorem readCsr_returnCsr {cpu cpu' : Cpu D} (h : cpu.SameRegisters cpu') :
    cpu'.readCsr (returnCsr kind) = cpu.readCsr (returnCsr kind) := by
  obtain ⟨addressSpace, rfl⟩ := h
  cases kind <;> rfl

theorem applyCommitBoundary_returns (input : CommitBoundaryInput) {raw : BitVec 32}
    (hreturns : Returns cpu raw kind) (h : input.effects = returnEffect kind) :
    (cpu.applyCommitBoundary input).2.core.pc = cpu.readCsr (returnCsr kind) := by
  rw [cpu.applyCommitBoundary_plain input (by rw [h]; rfl) (by rw [h]; rfl) (by rw [h]; rfl)
    (by rw [h]; rfl), h]
  cases hreturns <;> rfl

theorem enterTrap_even (cause tval : BitVec 64) :
    Even (cpu.enterTrap cause tval).core.pc.toNat := by
  rw [enterTrap_core]
  exact trapVectorBase_even _ _

theorem applyCommitBoundary_even (input : CommitBoundaryInput) (hnext : Even input.nextPc.toNat)
    (hredirect : ∀ target, input.effects.control.redirectPc = some target → Even target.toNat)
    (hreturn : input.effects.control.trapReturn = .none) :
    Even (cpu.applyCommitBoundary input).2.core.pc.toNat := by
  cases cpu.applyCommitBoundary_outcome input with
  | trapped accessed haccessed trap observed heq =>
    rw [heq]
    exact enterTrap_even _ _ _
  | finished accessed haccessed filled hfilled changed observed heq =>
    obtain ⟨rdWrite, fpWrite, rfl⟩ := hfilled
    have hpc := accessed.finishCommit_pc input
      { input.effects with
        rdWrite
        fpWrite } changed observed hreturn
    rw [heq, hpc]
    cases h : input.effects.control.redirectPc with
    | none => exact hnext
    | some target => exact hredirect target h

end Cpu

namespace FunctionalBackend

section

variable {D : Type} [Devices D] [Fpu] (backend : FunctionalBackend D)

/-- The step executes a trap return while the register with its target is odd. -/
def OddReturn : Prop :=
  ∃ raw kind, (backend.aboutToExecute.fetchInstruction backend.aboutToExecute.core.pc).1 = .ok raw ∧
    Returns backend.aboutToExecute raw kind ∧
    ¬ Even (backend.aboutToExecute.readCsr (Cpu.returnCsr kind)).toNat

omit [Fpu] in
theorem aboutToExecute_even (h : Even backend.cpu.core.pc.toNat) :
    Even backend.aboutToExecute.core.pc.toNat := by
  rw [aboutToExecute_eq]
  cases hservice : backend.ticked.servicePendingInterrupts with
  | none =>
    rw [Option.getD_none, backend.ticked_core]
    exact h
  | some taken =>
    obtain ⟨i, -, -, rfl⟩ := backend.ticked.servicePendingInterrupts_eq_some hservice
    exact Cpu.enterTrap_even _ _ _

theorem executeFetched_even_iff {cpu : Cpu D} (raw : BitVec 32) (h : Even cpu.core.pc.toNat) :
    Even (backend.executeFetched cpu raw).cpu.core.pc.toNat ↔
      ∀ kind, Returns cpu raw kind → Even (cpu.readCsr (Cpu.returnCsr kind)).toNat := by
  have hpc : (backend.executeFetched cpu raw).cpu.core.pc =
      (cpu.applyCommitBoundary (fetchedInput cpu raw)).2.core.pc :=
    (congrArg CoreState.pc (backend.executeFetched_core cpu raw)).trans rfl
  rw [hpc]
  by_cases hreturn : (fetchedInput cpu raw).effects.control.trapReturn = .none
  · have hnever : ∀ kind, ¬ Returns cpu raw kind := by
      intro kind hreturns
      have heffects : (fetchedInput cpu raw).effects = returnEffect kind :=
        buildEffects_of_returns hreturns
      rw [heffects] at hreturn
      cases hreturns <;> cases hreturn
    have heven := cpu.applyCommitBoundary_even (fetchedInput cpu raw)
      (even_add h (instructionSize_even raw)) (fun _ => buildEffects_redirect_even) hreturn
    exact ⟨fun _ kind hreturns => absurd hreturns (hnever kind), fun _ => heven⟩
  · obtain ⟨kind, hreturns, heffects⟩ := buildEffects_returns hreturn
    rw [cpu.applyCommitBoundary_returns _ hreturns heffects]
    constructor
    · intro heven kind' hreturns'
      have heq : returnEffect kind' = returnEffect kind :=
        (buildEffects_of_returns hreturns').symm.trans heffects
      have hkind : kind' = kind := congrArg (fun e => e.control.trapReturn) heq
      rw [hkind]
      exact heven
    · intro hall
      exact hall kind hreturns

theorem step_even_iff (h : Even backend.cpu.core.pc.toNat) :
    Even backend.step.cpu.core.pc.toNat ↔ ¬ backend.OddReturn := by
  have heven := backend.aboutToExecute_even h
  have hsame := backend.aboutToExecute.fetchInstruction_sameRegisters
    backend.aboutToExecute.core.pc
  unfold OddReturn
  rcases hfetch : backend.aboutToExecute.fetchInstruction backend.aboutToExecute.core.pc with
    ⟨fault | raw, cpu⟩
  · have htrap : Even (cpu.enterException fault).core.pc.toNat := Cpu.enterTrap_even _ _ _
    rw [backend.step_of_fault hfetch]
    exact iff_of_true htrap (by rintro ⟨raw, kind, hraw, -⟩; cases hraw)
  rw [hfetch] at hsame
  rw [backend.step_of_fetched hfetch, executeFetched_even_iff _ raw (hsame.core ▸ heven)]
  constructor
  · rintro hall ⟨raw', kind, hraw, hreturns, hodd⟩
    cases hraw
    rw [← Cpu.readCsr_returnCsr hsame] at hodd
    exact hodd (hall kind (hreturns.of_core hsame.core))
  · intro hnot kind hreturns
    by_contra hodd
    rw [Cpu.readCsr_returnCsr hsame] at hodd
    exact hnot ⟨raw, kind, rfl, hreturns.of_core hsame.core.symm, hodd⟩

/-- From an even pc, the pc of a run stays even, and every instruction is fetched from
an even address, exactly as long as no trap return finds an odd target. -/
theorem run_pc_even_iff (h : Even backend.cpu.core.pc.toNat) :
    (∀ n, Even (step^[n] backend).cpu.core.pc.toNat ∧
      Even (step^[n] backend).aboutToExecute.core.pc.toNat) ↔
      ∀ n, ¬ (step^[n] backend).OddReturn := by
  constructor
  · intro heven n
    rw [← step_even_iff _ (heven n).1, ← Function.iterate_succ_apply' step n backend]
    exact (heven (n + 1)).1
  intro hnever
  have heven : ∀ n, Even (step^[n] backend).cpu.core.pc.toNat := by
    intro n
    induction n with
    | zero => exact h
    | succ n ih =>
      rw [Function.iterate_succ_apply' step n backend, step_even_iff _ ih]
      exact hnever n
  exact fun n => ⟨heven n, aboutToExecute_even _ (heven n)⟩

end

def oddReturnProgram : List (BitVec 32) :=
  [0x3410D073, -- csrwi mepc, 1
    0x30200073] -- mret

/-- The machine that is about to run this program. -/
def oddReturnMachine : FunctionalBackend Unit := reset (Ram.ofWords memBase oddReturnProgram) ()

theorem oddReturnMachine_even_iff :
    letI := Fpu.silent
    (∀ n, Even (step^[n] oddReturnMachine).cpu.core.pc.toNat ∧
      Even (step^[n] oddReturnMachine).aboutToExecute.core.pc.toNat) ↔
      ∀ n, ¬ (step^[n] oddReturnMachine).OddReturn :=
  let := Fpu.silent
  run_pc_even_iff oddReturnMachine (by decide)

/-- The second step leaves the pc at an odd address. -/
theorem oddReturnMachine_odd :
    letI := Fpu.silent
    Even oddReturnMachine.cpu.core.pc.toNat ∧
      ¬ ∀ n, Even (step^[n] oddReturnMachine).cpu.core.pc.toNat := by
  let := Fpu.silent
  constructor
  · decide
  intro heven
  have hodd := heven 2
  revert hodd
  decide

end FunctionalBackend

end VisualCpu
