import VisualCpu.Trap

/-!
# Memory operations of the processor

The address space holds references to the registers that decide an access; here
its operations are run in the context of the current processor state.
-/

namespace VisualCpu.Cpu

variable {D : Type} [Devices D] (cpu : Cpu D)

/-- `AddressSpace::translate_result` in the current context. -/
def translateResult (vaddr : BitVec 64) (type : AccessType) (updateAccessBits : Bool) :
    Except TrapRequest (BitVec 64) × Cpu D :=
  let result := cpu.addressSpace.translate cpu.accessContext vaddr type updateAccessBits
  (result.1, { cpu with addressSpace := result.2 })

variable (pc : BitVec 64)

def fetch16Result : Except TrapRequest (BitVec 64) × Cpu D :=
  let result := cpu.addressSpace.fetch16Result cpu.accessContext pc
  (result.1, { cpu with addressSpace := result.2 })

def fetch32Result : Except TrapRequest (BitVec 64) × Cpu D :=
  let result := cpu.addressSpace.fetch32Result cpu.accessContext pc
  (result.1, { cpu with addressSpace := result.2 })

def loadResult (addr : BitVec 64) (size : ℕ) : Except TrapRequest (BitVec 64) × Cpu D :=
  let result := cpu.addressSpace.loadResult cpu.accessContext addr size
  (result.1, { cpu with addressSpace := result.2 })

def storeResult (addr value : BitVec 64) (size : ℕ) : Option TrapRequest × Cpu D :=
  let result := cpu.addressSpace.storeResult cpu.accessContext addr value size
  (result.1, { cpu with addressSpace := result.2 })

/-- `Bus::try_load_observed` on the processor's bus. -/
def tryLoad (paddr : BitVec 64) (size : ℕ) : Option (BitVec 64) × Cpu D :=
  let result := cpu.addressSpace.bus.tryLoad paddr size
  (result.1, { cpu with addressSpace := { cpu.addressSpace with bus := result.2 } })

/-- `Bus::try_store_observed` on the processor's bus. -/
def tryStore (paddr value : BitVec 64) (size : ℕ) : Bool × Cpu D :=
  let result := cpu.addressSpace.bus.tryStore paddr value size
  (result.1, { cpu with addressSpace := { cpu.addressSpace with bus := result.2 } })

/-- Fetch the instruction at `pc`: a first half, and the whole word when the
half announces a 32-bit encoding. -/
def fetchInstruction : Except TrapRequest (BitVec 32) × Cpu D :=
  match cpu.fetch16Result pc with
  | (.error fault, cpu) => (.error fault, cpu)
  | (.ok half, cpu) =>
    let raw : BitVec 32 := (half.setWidth 16).setWidth 32
    if raw &&& 3 = 3 then
      match cpu.fetch32Result pc with
      | (.error fault, cpu) => (.error fault, cpu)
      | (.ok word, cpu) => (.ok (word.setWidth 32), cpu)
    else (.ok raw, cpu)

/-- The two processors differ in the address space only. -/
def SameRegisters (cpu cpu' : Cpu D) : Prop :=
  ∃ addressSpace, cpu' = { cpu with addressSpace }

omit [Devices D] in
theorem SameRegisters.refl (cpu : Cpu D) : cpu.SameRegisters cpu := ⟨cpu.addressSpace, rfl⟩

omit [Devices D] in
theorem SameRegisters.core {cpu cpu' : Cpu D} (h : cpu.SameRegisters cpu') :
    cpu'.core = cpu.core := by
  obtain ⟨_, rfl⟩ := h
  rfl

omit [Devices D] in
theorem SameRegisters.trans {a b c : Cpu D} (hab : a.SameRegisters b)
    (hbc : b.SameRegisters c) : a.SameRegisters c := by
  obtain ⟨_, rfl⟩ := hab
  obtain ⟨_, rfl⟩ := hbc
  exact ⟨_, rfl⟩

/-- The second processor is the first, perhaps after a translation that left the
access bits of the page tables alone. -/
def Probed (cpu cpu' : Cpu D) : Prop :=
  cpu' = cpu ∨ ∃ addr type, cpu' = (cpu.translateResult addr type false).2

theorem Probed.refl (cpu : Cpu D) : cpu.Probed cpu := .inl rfl

theorem Probed.sameRegisters {cpu cpu' : Cpu D} (h : cpu.Probed cpu') : cpu.SameRegisters cpu' := by
  rcases h with rfl | ⟨addr, type, rfl⟩
  · exact .refl _
  · exact ⟨_, rfl⟩

theorem fetchInstruction_sameRegisters : cpu.SameRegisters (cpu.fetchInstruction pc).2 := by
  unfold fetchInstruction
  cases h : cpu.fetch16Result pc with
  | mk result half =>
    have hhalf : cpu.SameRegisters half := ⟨_, (congrArg Prod.snd h).symm⟩
    cases result with
    | error fault => exact hhalf
    | ok value =>
      simp only
      split_ifs
      · cases h32 : half.fetch32Result pc with
        | mk result word =>
          have hword : half.SameRegisters word := ⟨_, (congrArg Prod.snd h32).symm⟩
          cases result <;> exact hhalf.trans hword
      · exact hhalf

end VisualCpu.Cpu
