import VisualCpu.Exec.CommitFacts
import VisualCpu.Exec.EffectFacts
import VisualCpu.TrapEntry

/-!
# CSR writes of instructions

The CSR write of an instruction is that of a CSR instruction, or the flags of a
floating-point operation. The commit boundary carries it out; a trap writes only the
status word and the registers of its level.
-/

namespace VisualCpu

namespace SystemOps

/-- The register that a CSR instruction names. -/
def csrAddress (insn : Insn) : BitVec 12 := (Decode.field64 insn.raw 20 12).setWidth 12

def csrSource (insn : Insn) (inputs : SemanticInputs) : BitVec 64 :=
  match insn.funct3 with
  | 1 | 2 | 3 => inputs.rs1v
  | _ => BitVec.ofNat 64 insn.rs1

variable {D : Type} [Devices D] {cpu : Cpu D} {insn : Insn} {inputs : SemanticInputs}
  {write : CsrWrite}

/-- The write is the one of a CSR instruction that is allowed to make it. -/
structure WritesCsr (cpu : Cpu D) (insn : Insn) (inputs : SemanticInputs) (write : CsrWrite) :
    Prop where
  opcode : insn.opcode = 0x73
  writes : csrInstructionWrites insn
  allowed : csrAccessAllowed cpu write.addr true
  addr : write.addr = csrAddress insn
  value : write.value = csrResult insn.funct3 (inputs.csrv.getD (cpu.readCsr write.addr))
    (csrSource insn inputs)

theorem csrEffects_csrWrite {source : BitVec 64} (hopcode : insn.opcode = 0x73)
    (hsource : source = csrSource insn inputs)
    (h : (csrEffects cpu insn inputs source).csrWrite = some write) :
    WritesCsr cpu insn inputs write := by
  unfold csrEffects at h
  by_cases hallowed : csrAccessAllowed cpu (csrAddress insn) (csrInstructionWrites insn)
  · rw [if_neg (by simpa [csrAddress] using hallowed)] at h
    by_cases hwrites : csrInstructionWrites insn
    · rw [if_pos hwrites] at h
      rw [hwrites] at hallowed
      cases h
      exact ⟨hopcode, hwrites, hallowed, rfl, by rw [hsource]⟩
    · rw [if_neg hwrites] at h
      cases h
  · rw [if_pos (by simpa [csrAddress] using hallowed)] at h
    cases h

omit [Devices D] in
theorem unlessUser_csrWrite {effects : InsnEffects} (h : effects.csrWrite = none) :
    (unlessUser cpu insn effects).csrWrite = none := by
  unfold unlessUser
  split_ifs
  · rfl
  · exact h

omit [Devices D] in
theorem privilegedEffects_csrWrite : (privilegedEffects cpu insn inputs).csrWrite = none := by
  unfold privilegedEffects
  split_ifs
  · unfold ecallEffects
    dsimp only
    split_ifs <;> rfl
  · rfl
  · rfl
  · rfl
  · exact unlessUser_csrWrite rfl
  · exact unlessUser_csrWrite rfl
  · exact unlessUser_csrWrite rfl
  · rfl

theorem buildSystemEffects_csrWrite (hopcode : insn.opcode = 0x73)
    (h : (buildSystemEffects cpu insn inputs).csrWrite = some write) :
    WritesCsr cpu insn inputs write := by
  unfold buildSystemEffects at h
  split at h
  · rw [privilegedEffects_csrWrite] at h
    cases h
  all_goals first
    | cases h
    | exact csrEffects_csrWrite hopcode (by simp [csrSource, *]) h

end SystemOps

section Builders

variable (insn : Insn) (rs1v rs2v rs3v pc : BitVec 64)

theorem writeRdOrIllegal_csrWrite (value : Option (BitVec 64)) :
    (writeRdOrIllegal insn value).csrWrite = none := by
  cases value <;> rfl

theorem buildIntegerEffects_csrWrite : (buildIntegerEffects insn rs1v rs2v pc).csrWrite = none := by
  unfold buildIntegerEffects
  split
  all_goals first | rfl | exact writeRdOrIllegal_csrWrite _ _

theorem buildControlFlowEffects_csrWrite :
    (buildControlFlowEffects insn rs1v rs2v pc).csrWrite = none := by
  have hjump : ∀ target, (jumpEffect insn pc target).csrWrite = none := by
    intro target
    unfold jumpEffect
    split_ifs <;> rfl
  unfold buildControlFlowEffects
  split
  · exact hjump _
  · exact hjump _
  · split
    · rfl
    · rfl
    · split_ifs <;> rfl
  · rfl

theorem buildMemoryEffects_csrWrite : (buildMemoryEffects insn rs1v rs2v).csrWrite = none := by
  unfold buildMemoryEffects
  dsimp only
  split_ifs <;> rfl

theorem buildAtomicEffects_csrWrite : (buildAtomicEffects insn rs1v rs2v).csrWrite = none := by
  unfold buildAtomicEffects
  dsimp only
  split_ifs <;> rfl

theorem buildVectorEffects_csrWrite : (buildVectorEffects insn rs1v).csrWrite = none := by
  unfold buildVectorEffects
  split
  · split_ifs
    · unfold buildVectorConfig
      dsimp only
      split_ifs <;> rfl
    · rfl
    · cases vectorAluKind insn.funct7 <;> rfl
  · split_ifs <;> rfl
  · split_ifs <;> rfl
  · rfl

theorem buildFloatingEffects_csrWrite [Fpu] {fcsr : BitVec 64} {write : CsrWrite}
    (h : (FloatingOps.buildFloatingEffects insn rs1v rs2v rs3v fcsr).csrWrite = some write) :
    write.addr = Csr.fcsr := by
  unfold FloatingOps.buildFloatingEffects at h
  split at h
  · unfold FloatingOps.outcomeEffects at h
    dsimp only at h
    split_ifs at h
    · cases h
      rfl
  · cases h

end Builders

open SystemOps in
theorem execute_csrWrite {D : Type} [Devices D] [Fpu] {insn : Insn} {cpu : Cpu D}
    {inputs : SemanticInputs} {write : CsrWrite}
    (h : (execute insn cpu inputs).csrWrite = some write) :
    write.addr = Csr.fcsr ∨ WritesCsr cpu insn inputs write := by
  unfold execute at h
  by_cases hoff : requiresEnabledFloatingState insn ∧
      cpu.readCsr Csr.mstatus &&& Mstatus.fsMask = Mstatus.fsOff
  · rw [if_pos hoff] at h
    cases h
  rw [if_neg hoff] at h
  have hsplit : ∀ b : Bool, (if b then buildMemoryEffects insn inputs.rs1v inputs.rs2v
      else buildVectorEffects insn inputs.rs1v).csrWrite = none := by
    intro b
    cases b
    · exact buildVectorEffects_csrWrite _ _
    · exact buildMemoryEffects_csrWrite _ _ _
  split at h
  all_goals first
    | exact .inr (buildSystemEffects_csrWrite (by assumption) h)
    | exact .inl (buildFloatingEffects_csrWrite _ _ _ _ h)
    | exact absurd (h.symm.trans (hsplit _)) nofun
    | simp [buildIntegerEffects_csrWrite, buildControlFlowEffects_csrWrite,
        buildMemoryEffects_csrWrite, buildAtomicEffects_csrWrite, buildVectorEffects_csrWrite,
        illegalInstructionEffect] at h

theorem buildEffects_csrWrite {D : Type} [Devices D] [Fpu] {insn : Insn} {cpu : Cpu D}
    {write : CsrWrite} (h : (buildEffects cpu insn).csrWrite = some write) :
    write.addr = Csr.fcsr ∨ SystemOps.WritesCsr cpu insn (coreInputs insn cpu.core) write := by
  unfold buildEffects at h
  split_ifs at h
  · cases h
  · exact execute_csrWrite h

namespace CsrFile

/-- The register array after an optional write. -/
def afterWrite (regs : BitVec 12 → BitVec 64) : Option CsrWrite → BitVec 12 → BitVec 64
  | some write => writeRegs regs write.addr write.value
  | none => regs

theorem write_regs (csr : CsrFile) (addr : BitVec 12) (value : BitVec 64) (core : CoreState) :
    (csr.write addr value core).1.regs = writeRegs csr.regs addr value := by
  unfold write
  split_ifs with hcycle hinstret
  · rw [hcycle]
    rfl
  · rw [hinstret]
    rfl
  · rfl

/-- The register that a write stores to: its own, the one that it is a view of, or a
counter. -/
inductive StoresTo (addr target : BitVec 12) : Prop
  | own (h : target = addr)
  | view (h : target = Csr.mstatus ∨ target = Csr.fcsr ∨ target = Csr.mie)
  | pending (hview : addr = Csr.sip) (h : target = Csr.mip)
  | counter (h : isMhpmcounter target)

variable {regs : BitVec 12 → BitVec 64} {value stored : BitVec 64} {addr target : BitVec 12}

theorem writeFields_storesTo (h : writeFields regs addr value = some (target, stored)) :
    StoresTo addr target := by
  unfold writeFields at h
  split_ifs at h with hsstatus hfflags hfrm hfcsr hmstatus hsatp hmode
  all_goals
    rw [Option.some.injEq, Prod.mk.injEq] at h
    obtain ⟨rfl, -⟩ := h
  · exact .view (.inl rfl)
  · exact .view (.inr (.inl rfl))
  · exact .view (.inr (.inl rfl))
  · exact .own hfcsr.symm
  · exact .own hmstatus.symm
  · exact .own hsatp.symm
  · exact .own hsatp.symm

theorem writeMasked_storesTo (h : writeMasked regs addr value = some (target, stored)) :
    StoresTo addr target := by
  unfold writeMasked at h
  split_ifs at h with hmedeleg hmideleg hmie hmip hmenvcfg hsie hsip
  all_goals
    rw [Option.some.injEq, Prod.mk.injEq] at h
    obtain ⟨rfl, -⟩ := h
  · exact .own hmedeleg.symm
  · exact .own hmideleg.symm
  · exact .own hmie.symm
  · exact .own hmip.symm
  · exact .own hmenvcfg.symm
  · exact .view (.inr (.inr rfl))
  · exact .pending hsip rfl

theorem writeTarget_storesTo (h : writeTarget regs addr value = some (target, stored)) :
    StoresTo addr target := by
  unfold writeTarget at h
  split at h
  · cases h
  cases hfields : writeFields regs addr value with
  | some t =>
    rw [hfields] at h
    exact writeFields_storesTo (hfields.trans h)
  | none =>
    cases hmasked : writeMasked regs addr value with
    | some t =>
      rw [hfields, hmasked] at h
      exact writeMasked_storesTo (hmasked.trans h)
    | none =>
      simp only [hfields, hmasked] at h
      split at h
      · next hshadow =>
        rw [Option.some.injEq, Prod.mk.injEq] at h
        obtain ⟨rfl, -⟩ := h
        exact .counter (isMhpmcounter_hpmShadowToMachine hshadow)
      · rw [Option.some.injEq, Prod.mk.injEq] at h
        exact .own h.1.symm

theorem writeRegs_of_not_storesTo {addr r : BitVec 12}
    {value : BitVec 64} (h : ¬ StoresTo addr r) : writeRegs regs addr value r = regs r := by
  unfold writeRegs
  cases hwrite : writeTarget regs addr value with
  | none => rfl
  | some t =>
    obtain ⟨target, stored⟩ := t
    apply Function.update_of_ne
    rintro rfl
    exact h (writeTarget_storesTo hwrite)

end CsrFile

namespace Cpu

variable {D : Type} [Devices D] (cpu : Cpu D) {addr : BitVec 12}

omit [Devices D] in
theorem writeCsr_regs (addr : BitVec 12) (value : BitVec 64) :
    (cpu.writeCsr addr value).csr.regs = CsrFile.writeRegs cpu.csr.regs addr value :=
  CsrFile.write_regs _ _ _ _

theorem finishCommit_regs (input : CommitBoundaryInput) (effects : InsnEffects)
    (changed observed : Bool) (haddr : addr ≠ Csr.mstatus) :
    (cpu.finishCommit input effects changed observed).2.csr.regs addr =
      CsrFile.afterWrite cpu.csr.regs effects.csrWrite addr := by
  have hstatus : ∀ (c : Cpu D) value, (c.writeCsr Csr.mstatus value).csr.regs addr =
      c.csr.regs addr := by
    intro c value
    rw [writeCsr_regs]
    exact Function.update_of_ne haddr _ _
  have hregisters : (cpu.commitRegisters effects).csr.regs addr =
      CsrFile.afterWrite cpu.csr.regs effects.csrWrite addr := by
    have hdirty : ∀ c : Cpu D, c.markFloatingStateDirty.csr.regs addr = c.csr.regs addr :=
      fun c => hstatus c _
    unfold commitRegisters CsrFile.afterWrite
    cases effects.csrWrite with
    | none =>
      cases effects.rdWrite <;> cases effects.fpWrite <;> dsimp only <;> split_ifs <;>
        first | rfl | exact hdirty _
    | some write =>
      dsimp only
      rw [← writeCsr_regs]
      cases effects.rdWrite <;> cases effects.fpWrite <;> dsimp only <;> split_ifs <;>
        first | rfl | exact hdirty _
  unfold finishCommit
  rw [← hregisters]
  generalize cpu.commitRegisters effects = cpu₁
  have hpc : (cpu₁.commitPc effects.control input.nextPc).csr.regs addr = cpu₁.csr.regs addr := by
    unfold commitPc
    cases effects.control.trapReturn with
    | none => rfl
    | mret => exact hstatus _ _
    | sret => exact hstatus _ _
  rw [← hpc]
  split_ifs <;> rfl

/-- The registers that a trap may write. -/
def trapCsrs : List (BitVec 12) :=
  [Csr.mstatus, Csr.sepc, Csr.scause, Csr.stval, Csr.mepc, Csr.mcause, Csr.mtval]

theorem enterTrap_regs_of_not_mem (cause tval : BitVec 64)
    (haddr : addr ∉ trapCsrs) : (cpu.enterTrap cause tval).csr.regs addr = cpu.csr.regs addr := by
  simp only [trapCsrs, List.mem_cons, List.not_mem_nil, or_false, not_or] at haddr
  obtain ⟨hstatus, hsepc, hscause, hstval, hmepc, hmcause, hmtval⟩ := haddr
  apply cpu.enterTrap_regs cause tval hstatus
  · cases cpu.trapLevel cause
    · exact hmepc
    · exact hsepc
    · exact hmepc
  · cases cpu.trapLevel cause
    · exact hmcause
    · exact hscause
    · exact hmcause
  · cases cpu.trapLevel cause
    · exact hmtval
    · exact hstval
    · exact hmtval

theorem applyCommitBoundary_regs (input : CommitBoundaryInput) (haddr : addr ∉ trapCsrs) :
    (cpu.applyCommitBoundary input).2.csr.regs addr = cpu.csr.regs addr ∨
      (cpu.applyCommitBoundary input).2.csr.regs addr =
        CsrFile.afterWrite cpu.csr.regs input.effects.csrWrite addr := by
  cases cpu.applyCommitBoundary_outcome input with
  | trapped accessed haccessed trap observed heq =>
    left
    obtain ⟨vector, reservation, addressSpace, rfl⟩ := haccessed
    rw [heq]
    exact enterTrap_regs_of_not_mem _ _ _ haddr
  | finished accessed haccessed filled hfilled changed observed heq =>
    right
    obtain ⟨vector, reservation, addressSpace, rfl⟩ := haccessed
    obtain ⟨rdWrite, fpWrite, rfl⟩ := hfilled
    rw [heq]
    apply finishCommit_regs
    rintro rfl
    exact haddr List.mem_cons_self

end Cpu

end VisualCpu
