import VisualCpu.Dbt.HostEmitter

/-!
# Emitted code and the evaluator

What the emitted bytes do on the host. Every piece of code decodes to the instruction
it was written for, the code of an operation leaves its value in `rax` and changes no
memory, and the code of a unit changes the register array as the evaluator does.
-/

open BitVec Function Option

namespace VisualCpu.X86

/-- The code takes the machine from `m` to `m'` and goes on with what follows it. -/
def Runs (code : List (BitVec 8)) (m m' : Machine) : Prop :=
  ∀ rest, ∃ k ≤ code.length, ∀ fuel, run (fuel + k) (code ++ rest) m = run fuel rest m'

variable {code code' : List (BitVec 8)} {m m' m'' : Machine}

theorem Runs.append (h : Runs code m m') (h' : Runs code' m' m'') : Runs (code ++ code') m m'' := by
  intro rest
  obtain ⟨k, hk, hrun⟩ := h (code' ++ rest)
  obtain ⟨k', hk', hrun'⟩ := h' rest
  refine ⟨k' + k, by simp only [List.length_append]; omega, fun fuel => ?_⟩
  rw [List.append_assoc, ← Nat.add_assoc, hrun, hrun']

theorem Runs.instr {instr : Instr} (hlength : 0 < code.length)
    (hdecode : ∀ rest, decode (code ++ rest) = some (instr, rest)) (hret : instr ≠ .ret)
    (hexec : m.exec instr = some m') : Runs code m m' := by
  intro rest
  refine ⟨1, hlength, fun fuel => ?_⟩
  rw [run, hdecode]
  cases instr with
  | ret => exact absurd rfl hret
  | _ => simp only [hexec, bind_some]

end VisualCpu.X86

namespace VisualCpu.DbtHostEmitter

open X86

theorem joinByte (x : BitVec 64) : (x.setWidth 8).setWidth 64 ||| (x >>> 8) <<< 8 = x := by
  apply eq_of_getLsbD_eq
  intro i hi
  simp only [getLsbD_or, getLsbD_setWidth, getLsbD_shiftLeft,
    getLsbD_ushiftRight, hi, decide_true, Bool.true_and]
  by_cases h : i < 8
  · simp [h]
  · simp [h, show 8 + (i - 8) = i by omega]

theorem takeImm_emitU64 (value : BitVec 64) (rest : List (BitVec 8)) :
    takeImm 8 (emitU64 value ++ rest) = some (value, rest) := by
  have hjoin : ∀ n, ((value >>> n).setWidth 8).setWidth 64 ||| (value >>> (n + 8)) <<< 8 =
      value >>> n := fun n => by rw [shiftRight_add, joinByte]
  have hlast : ((value >>> 56).setWidth 8).setWidth 64 ||| (0 : BitVec 64) <<< 8 =
      value >>> 56 := by
    have hzero : value >>> (56 + 8) = 0 := ushiftRight_eq_zero le_rfl
    rw [← hzero, hjoin 56]
  have hfirst : (value.setWidth 8).setWidth 64 ||| (value >>> 8) <<< 8 = value := joinByte value
  simp only [emitU64, List.cons_append, List.nil_append, takeImm, map_some, hlast,
    hjoin 48, hjoin 40, hjoin 32, hjoin 24, hjoin 16, hjoin 8, hfirst]

theorem takeImm_emitU32 (value : BitVec 32) (rest : List (BitVec 8)) :
    takeImm 4 (emitU32 value ++ rest) = some (value.setWidth 64, rest) := by
  have hbyte : ∀ n : ℕ, (value >>> n).setWidth 8 = (value.setWidth 64 >>> n).setWidth 8 := by
    intro n
    apply eq_of_getLsbD_eq
    intro i hi
    by_cases h : n + i < 64
    · simp [h]
    · simp [getLsbD_of_ge value (n + i) (by omega)]
  have hjoin : ∀ n : ℕ, ((value >>> n).setWidth 8).setWidth 64 |||
      (value.setWidth 64 >>> (n + 8)) <<< 8 = value.setWidth 64 >>> n := fun n => by
    rw [hbyte, shiftRight_add, joinByte]
  have hlast : ((value >>> 24).setWidth 8).setWidth 64 ||| (0 : BitVec 64) <<< 8 =
      value.setWidth 64 >>> 24 := by
    have hzero : value.setWidth 64 >>> (24 + 8) = 0 := by
      apply eq_of_getLsbD_eq
      intro i hi
      simp
    rw [← hzero, hjoin 24]
  have hfirst : (value.setWidth 8).setWidth 64 ||| (value.setWidth 64 >>> 8) <<< 8 =
      value.setWidth 64 := hjoin 0
  simp only [emitU32, List.cons_append, List.nil_append, takeImm, map_some, hlast,
    hjoin 16, hjoin 8, hfirst]

section Decoding

variable (rest : List (BitVec 8))

theorem decodeModRm_mem (rex : Rex) {modRm : BitVec 8} (disp : BitVec 32)
    (hmod : modRm >>> 6 = 2) (hrm : modRm &&& 7 ≠ 4) :
    decodeModRm rex (modRm :: (emitU32 disp ++ rest)) =
      some ((modRm >>> 3) &&& 7, .mem (regOf rex.b (modRm &&& 7)) disp, rest) := by
  unfold decodeModRm
  dsimp only
  rw [hmod, if_neg (by decide), if_pos ⟨rfl, hrm⟩, takeImm_emitU32]
  simp

theorem decode_mem {opcode modRm : BitVec 8} (disp : BitVec 32) (hret : opcode ≠ 0xC3)
    (himm : opcode >>> 3 ≠ 0x17) (htwo : opcode ≠ 0x0F) (hmod : modRm >>> 6 = 2)
    (hrm : modRm &&& 7 ≠ 4) :
    X86.decode (0x48 :: opcode :: modRm :: (emitU32 disp ++ rest)) =
      decodeOneByte ⟨true, false, false⟩ opcode ((modRm >>> 3) &&& 7)
        (.mem (regOf false (modRm &&& 7)) disp) rest := by
  have hrex : decodeRex (0x48 :: opcode :: modRm :: (emitU32 disp ++ rest)) =
      (⟨true, false, false⟩, opcode :: modRm :: (emitU32 disp ++ rest)) := rfl
  rw [X86.decode, hrex]
  dsimp only
  rw [if_neg hret, if_neg (fun h => himm h.1), if_neg htwo, decodeModRm_mem rest _ disp hmod hrm]
  rfl

theorem decode_loadGprToRax (reg : ℕ) : X86.decode (emitLoadGprToRax reg ++ rest) =
    some (.load .qword rax (.mem rdi (gprOffset reg)), rest) :=
  (decode_mem rest (gprOffset reg) (by decide) (by decide) (by decide) (by decide)
    (by decide)).trans rfl

theorem decode_loadGprToRcx (reg : ℕ) : X86.decode (emitLoadGprToRcx reg ++ rest) =
    some (.load .qword rcx (.mem rdi (gprOffset reg)), rest) :=
  (decode_mem rest (gprOffset reg) (by decide) (by decide) (by decide) (by decide)
    (by decide)).trans rfl

theorem decode_storeRaxToGpr (reg : ℕ) : X86.decode (emitStoreRaxToGpr reg ++ rest) =
    some (.store .qword (.mem rdi (gprOffset reg)) rax, rest) :=
  (decode_mem rest (gprOffset reg) (by decide) (by decide) (by decide) (by decide)
    (by decide)).trans rfl

theorem decode_zeroX0 : X86.decode (emitZeroX0 ++ rest) =
    some (.storeImm .qword (.mem rdi 0) 0, rest) :=
  (decode_mem (emitU32 0 ++ rest) 0 (by decide) (by decide) (by decide) (by decide)
    (by decide)).trans rfl

variable (value : BitVec 64)

theorem decode_moveImm {opcode : BitVec 8} (himm : opcode >>> 3 = 0x17)
    (hret : opcode ≠ 0xC3) : X86.decode (0x48 :: opcode :: (emitU64 value ++ rest)) =
      some (.moveImm (regOf false opcode) value, rest) := by
  have hrex : decodeRex (0x48 :: opcode :: (emitU64 value ++ rest)) =
      (⟨true, false, false⟩, opcode :: (emitU64 value ++ rest)) := rfl
  rw [X86.decode, hrex]
  dsimp only
  rw [if_neg hret, if_pos ⟨himm, rfl⟩, takeImm_emitU64]
  rfl

theorem decode_movRaxImm : X86.decode (emitMovRaxImm value ++ rest) =
    some (.moveImm rax value, rest) := decode_moveImm rest value (by decide) (by decide)

theorem decode_movRcxImm : X86.decode (emitMovRcxImm value ++ rest) =
    some (.moveImm rcx value, rest) := decode_moveImm rest value (by decide) (by decide)

def hostAlu : DbtLoweredAluOp → AluOp
  | .sub => .sub
  | .xor => .xor
  | .or => .or
  | .and => .and
  | _ => .add

def hostShift : DbtLoweredAluOp → ShiftOp
  | .shiftRightLogical => .shr
  | .shiftRightArithmetic => .sar
  | _ => .shl

theorem decode_alu32 {op : DbtLoweredAluOp} (h : isBinaryAlu op) :
    X86.decode (emitAlu32EaxEcx op ++ rest) =
      some (.alu (hostAlu op) .dword (.reg rax) rcx, rest) := by
  cases op <;> first | rfl | cases h

theorem decode_alu64 {op : DbtLoweredAluOp} (h : isBinaryAlu op) :
    X86.decode (emitAlu64RaxRcx op ++ rest) =
      some (.alu (hostAlu op) .qword (.reg rax) rcx, rest) := by
  cases op <;> first | rfl | cases h

variable (op : DbtLoweredAluOp)

theorem decode_shiftCl32 : X86.decode (emitShiftEaxCl op ++ rest) =
    some (.shift (hostShift op) .dword (.reg rax) .cl, rest) := by
  cases op <;> rfl

theorem decode_shiftCl64 : X86.decode (emitShiftRaxCl op ++ rest) =
    some (.shift (hostShift op) .qword (.reg rax) .cl, rest) := by
  cases op <;> rfl

theorem decode_movsxd : X86.decode (emitMovsxdRaxEax ++ rest) =
    some (.signExtend rax (.reg rax), rest) := rfl

theorem decode_cmp : X86.decode (emitCmpRaxRcx ++ rest) =
    some (.alu .cmp .qword (.reg rax) rcx, rest) := rfl

theorem decode_setcc (unsignedCompare : Bool) :
    X86.decode ([0x0F, if unsignedCompare then 0x92 else 0x9C, 0xC0] ++ rest) =
      some (.setCondition (if unsignedCompare then 2 else 12) rax, rest) := by
  cases unsignedCompare <;> rfl

theorem decode_movzx : X86.decode ([0x0F, 0xB6, 0xC0] ++ rest) =
    some (.zeroExtendByte rax rax, rest) := rfl

variable (amount : BitVec 8)

theorem takeImm_one : takeImm 1 (amount :: rest) = some (amount.setWidth 64, rest) := by
  simp [takeImm]

theorem decode_shiftImm32 : X86.decode (emitShiftEaxImm op amount ++ rest) =
      some (.shift (hostShift op) .dword (.reg rax) (.imm amount), rest) := by
  cases op <;>
    simp [X86.decode, decodeRex, decodeModRm, decodeOneByte, aluOpOf, shiftOpOf, takeImm_one,
      regOf, rax, Rex.width, Rex.none, hostShift, emitShiftEaxImm, shiftModRm]

theorem decode_shiftImm64 : X86.decode (emitShiftRaxImm op amount ++ rest) =
      some (.shift (hostShift op) .qword (.reg rax) (.imm amount), rest) := by
  cases op <;>
    simp [X86.decode, decodeRex, decodeModRm, decodeOneByte, aluOpOf, shiftOpOf, takeImm_one,
      regOf, rax, Rex.width, hostShift, emitShiftRaxImm, emitShiftEaxImm, shiftModRm]

end Decoding

def scratch (m : Machine) (lhs rhs : BitVec 64) (flags : Option Flags) : Machine :=
  { m with
    reg := update (update m.reg rcx rhs) rax lhs
    flags }

section Execution

variable (m : Machine) (lhs rhs : BitVec 64) (flags : Option Flags)

@[simp] theorem scratch_rax : (scratch m lhs rhs flags).reg rax = lhs := by simp [scratch]

@[simp] theorem scratch_rcx : (scratch m lhs rhs flags).reg rcx = rhs := by
  simp only [scratch]
  rw [update_of_ne (by decide), update_self]

theorem scratch_reg {r : Reg} (hrax : r ≠ rax) (hrcx : r ≠ rcx) :
    (scratch m lhs rhs flags).reg r = m.reg r := by
  simp only [scratch]
  rw [update_of_ne hrax, update_of_ne hrcx]

@[simp] theorem scratch_ram : (scratch m lhs rhs flags).ram = m.ram := rfl

theorem scratch_self : scratch m (m.reg rax) (m.reg rcx) m.flags = m := by
  simp [scratch]

@[simp] theorem scratch_setRax (value : BitVec 64) :
    (scratch m lhs rhs flags).setReg rax value = scratch m value rhs flags := by
  simp [scratch, Machine.setReg]

@[simp] theorem scratch_setRcx (value : BitVec 64) :
    (scratch m lhs rhs flags).setReg rcx value = scratch m lhs value flags := by
  unfold scratch Machine.setReg
  rw [update_comm (by decide), update_idem]

theorem address_gprOffset (reg : ℕ) : m.address rdi (gprOffset reg) =
    m.reg rdi + BitVec.ofNat 64 (8 * (Fin.ofNat 32 reg).val) := by
  have hoffset : ∀ i : Fin 32, (BitVec.ofNat 32 (i.val * 8)).signExtend 64 =
      BitVec.ofNat 64 (8 * i.val) := by decide
  exact congrArg (m.reg rdi + ·) (hoffset (Fin.ofNat 32 reg))

end Execution

/-- The array at an address holds the integer registers. -/
def HoldsGpr (ram : Ram) (base : BitVec 64) (gpr : Fin 32 → BitVec 64) : Prop :=
  ∀ i : Fin 32, ram.load (base + BitVec.ofNat 64 (8 * i.val)) 8 = gpr i

/-- The code leaves a value in `rax` and uses only the two scratch registers. -/
def Computes (code : List (BitVec 8)) (m : Machine) (value : BitVec 64) : Prop :=
  ∃ rhs flags, Runs code m (scratch m value rhs flags)

section Operations

variable {m : Machine} {lhs rhs : BitVec 64} {flags : Option Flags} {gpr : Fin 32 → BitVec 64}

theorem runs_loadGprToRax (h : HoldsGpr m.ram (m.reg rdi) gpr) (reg : ℕ) :
    Runs (emitLoadGprToRax reg) (scratch m lhs rhs flags)
      (scratch m (gpr (Fin.ofNat 32 reg)) rhs flags) := by
  refine .instr (by simp [emitLoadGprToRax]) (fun rest => decode_loadGprToRax rest reg) (by simp) ?_
  simp only [Machine.exec, Machine.read, Width.bytes]
  rw [address_gprOffset, scratch_reg _ _ _ _ (by decide) (by decide), scratch_ram, h,
    scratch_setRax]

theorem runs_loadGprToRcx (h : HoldsGpr m.ram (m.reg rdi) gpr) (reg : ℕ) :
    Runs (emitLoadGprToRcx reg) (scratch m lhs rhs flags)
      (scratch m lhs (gpr (Fin.ofNat 32 reg)) flags) := by
  refine .instr (by simp [emitLoadGprToRcx]) (fun rest => decode_loadGprToRcx rest reg) (by simp) ?_
  simp only [Machine.exec, Machine.read, Width.bytes]
  rw [address_gprOffset, scratch_reg _ _ _ _ (by decide) (by decide), scratch_ram, h,
    scratch_setRcx]

theorem runs_movRaxImm (value : BitVec 64) : Runs (emitMovRaxImm value) (scratch m lhs rhs flags)
    (scratch m value rhs flags) :=
  .instr (by simp [emitMovRaxImm]) (fun rest => decode_movRaxImm rest value) (by simp)
    (by simp [Machine.exec])

theorem runs_movRcxImm (value : BitVec 64) : Runs (emitMovRcxImm value) (scratch m lhs rhs flags)
    (scratch m lhs value flags) :=
  .instr (by simp [emitMovRcxImm]) (fun rest => decode_movRcxImm rest value) (by simp)
    (by simp [Machine.exec])

def aluValue {n : ℕ} (op : DbtLoweredAluOp) (lhs rhs : BitVec n) : BitVec n :=
  match op with
  | .sub => lhs - rhs
  | .xor => lhs ^^^ rhs
  | .or => lhs ||| rhs
  | .and => lhs &&& rhs
  | _ => lhs + rhs

variable (op : DbtLoweredAluOp)

theorem hostAlu_apply {n : ℕ} (lhs rhs : BitVec n) :
    ((hostAlu op).apply lhs rhs).1 = some (aluValue op lhs rhs) := by
  cases op <;> rfl

@[simp] theorem setWidth_widened (x : BitVec 32) : (x.setWidth 64).setWidth 32 = x := by simp

theorem exec_alu64 : (scratch m lhs rhs flags).exec (.alu (hostAlu op) .qword (.reg rax) rcx) =
      some (scratch m (aluValue op lhs rhs) rhs (some ((hostAlu op).apply lhs rhs).2)) := by
  simp only [Machine.exec, Width.alu, Machine.read, Width.truncate, scratch_rax, scratch_rcx,
    hostAlu_apply, Machine.write, scratch_setRax]
  rfl

theorem exec_alu32 : (scratch m lhs rhs flags).exec (.alu (hostAlu op) .dword (.reg rax) rcx) =
      some (scratch m ((aluValue op (lhs.setWidth 32) (rhs.setWidth 32)).setWidth 64) rhs
        (some ((hostAlu op).apply (lhs.setWidth 32) (rhs.setWidth 32)).2)) := by
  simp only [Machine.exec, Width.alu, Machine.read, Width.truncate, scratch_rax, scratch_rcx,
    hostAlu_apply, Machine.write, scratch_setRax, setWidth_widened, map_some]
  rfl

theorem runs_alu64 {op : DbtLoweredAluOp} (h : isBinaryAlu op) :
    ∃ flags', Runs (emitAlu64RaxRcx op) (scratch m lhs rhs flags)
      (scratch m (aluValue op lhs rhs) rhs flags') :=
  ⟨_, .instr (by simp [emitAlu64RaxRcx]) (fun rest => decode_alu64 rest h) (by simp)
    (exec_alu64 op)⟩

theorem runs_movsxd : Runs emitMovsxdRaxEax (scratch m lhs rhs flags)
    (scratch m ((lhs.setWidth 32).signExtend 64) rhs flags) := by
  refine .instr (by simp [emitMovsxdRaxEax]) decode_movsxd (by simp) ?_
  simp only [Machine.exec, Machine.read, Width.truncate, scratch_rax, scratch_setRax,
    setWidth_widened]

theorem runs_alu32 {op : DbtLoweredAluOp} (h : isBinaryAlu op) :
    ∃ flags', Runs (emitAlu32EaxEcx op ++ emitMovsxdRaxEax) (scratch m lhs rhs flags)
      (scratch m ((aluValue op (lhs.setWidth 32) (rhs.setWidth 32)).signExtend 64) rhs flags') := by
  have hlength : 0 < (emitAlu32EaxEcx op).length := by
    cases op <;> first | decide | cases h
  have hexec : (scratch m lhs rhs flags).exec _ = some _ := exec_alu32 op
  have halu := Runs.instr hlength (fun rest => decode_alu32 rest h) (by simp) hexec
  have hextend := halu.append runs_movsxd
  rw [setWidth_widened] at hextend
  exact ⟨_, hextend⟩

theorem shift_rax (op : ShiftOp) (width : Width) (amount : ℕ) :
    ∃ flags', (if amount = 0 then
        some ((scratch m lhs rhs flags).write width (.reg rax)
          ((scratch m lhs rhs flags).read width (.reg rax)))
      else some { (scratch m lhs rhs flags).write width (.reg rax)
        (width.shift op ((scratch m lhs rhs flags).read width (.reg rax)) amount) with
          flags := none }) =
      some (scratch m (width.shift op lhs amount) rhs flags') := by
  split_ifs with hamount
  · refine ⟨flags, ?_⟩
    rw [hamount]
    cases width <;> cases op <;>
      simp [Machine.read, Machine.write, Width.truncate, Width.shift, ShiftOp.apply]
  · refine ⟨none, ?_⟩
    cases width <;>
      simp [Machine.read, Machine.write, Width.truncate, Width.shift] <;> rfl

theorem exec_shiftImm (op : ShiftOp) (width : Width) (count : BitVec 8) :
    ∃ flags', (scratch m lhs rhs flags).exec (.shift op width (.reg rax) (.imm count)) =
      some (scratch m (width.shift op lhs (count &&& width.countMask).toNat) rhs flags') :=
  shift_rax op width _

theorem exec_shiftCl (op : ShiftOp) (width : Width) :
    ∃ flags', (scratch m lhs rhs flags).exec (.shift op width (.reg rax) .cl) =
      some (scratch m (width.shift op lhs (rhs.setWidth 8 &&& width.countMask).toNat) rhs
        flags') := by
  exact shift_rax op width _

theorem shiftWord {code : List (BitVec 8)} {op : ShiftOp} {amount : ℕ} {flags' : Option Flags}
    (h : Runs code (scratch m lhs rhs flags)
      (scratch m (Width.dword.shift op lhs amount) rhs flags')) :
    Runs (code ++ emitMovsxdRaxEax) (scratch m lhs rhs flags)
      (scratch m ((op.apply (lhs.setWidth 32) amount).signExtend 64) rhs flags') := by
  have hextend := h.append runs_movsxd
  rwa [Width.shift, setWidth_widened] at hextend

theorem subFlags_slt (a b : BitVec 64) :
    ((AluOp.subFlags a b).sf != (AluOp.subFlags a b).of) = a.slt b := by
  by_cases h : a.ssubOverflow b
  · -- operands of different signs, and the sign of the difference is that of `b`
    rw [ssubOverflow_eq] at h
    simp only [AluOp.subFlags, slt_eq_decide]
    simp only [msb_eq_toInt] at h ⊢
    by_cases ha : a.toInt < 0 <;> by_cases hb : b.toInt < 0 <;> simp [ha, hb] at h ⊢ <;> omega
  · have hsub : (a - b).toInt = a.toInt - b.toInt := toInt_sub_of_not_ssubOverflow h
    rw [ssubOverflow_eq] at h
    simp only [AluOp.subFlags, slt_eq_decide]
    simp only [msb_eq_toInt, hsub] at h ⊢
    by_cases ha : a.toInt < 0 <;> by_cases hb : b.toInt < 0 <;> simp [ha, hb] at h ⊢ <;> omega

theorem runs_cmp : Runs emitCmpRaxRcx (scratch m lhs rhs flags)
    (scratch m lhs rhs (some (AluOp.subFlags lhs rhs))) := by
  refine .instr (by simp [emitCmpRaxRcx]) decode_cmp (by simp) ?_
  simp only [Machine.exec, Width.alu, Machine.read, Width.truncate, scratch_rax, scratch_rcx,
    AluOp.apply]
  rfl

theorem conditionHolds_subFlags (unsignedCompare : Bool) :
    conditionHolds (if unsignedCompare then 2 else 12) (AluOp.subFlags lhs rhs) =
      some (if unsignedCompare then lhs.ult rhs else lhs.slt rhs) := by
  cases unsignedCompare with
  | true => simp [conditionHolds, AluOp.subFlags]
  | false => simp [conditionHolds, ← subFlags_slt]

theorem boolValue_lowByte (x : BitVec 64) (b : Bool) :
    ((x &&& ~~~0xFF) ||| if b then 1 else 0) &&& 0xFF = boolValue b := by
  have hclear : (x &&& ~~~0xFF) &&& 0xFF = 0 := by
    rw [BitVec.and_assoc, show (~~~0xFF &&& 0xFF : BitVec 64) = 0 by decide]
    simp
  cases b with
  | false => simpa [boolValue] using hclear
  | true =>
    have hsplit : ((x &&& ~~~0xFF) ||| 1) &&& 0xFF =
        ((x &&& ~~~0xFF) &&& 0xFF) ||| (1 &&& 0xFF) := by
      apply eq_of_getLsbD_eq
      intro i hi
      simp only [getLsbD_and, getLsbD_or, Bool.and_or_distrib_right]
    simp only [if_true, boolValue]
    rw [hsplit, hclear]
    decide

theorem runs_setLessThan (unsignedCompare : Bool) :
    ∃ flags', Runs (emitCmpRaxRcx ++ emitSetccToRax unsignedCompare) (scratch m lhs rhs flags)
      (scratch m (boolValue (if unsignedCompare then lhs.ult rhs else lhs.slt rhs)) rhs
        flags') := by
  generalize hholds : (if unsignedCompare then lhs.ult rhs else lhs.slt rhs) = holds
  have hset : Runs [0x0F, if unsignedCompare then 0x92 else 0x9C, 0xC0]
      (scratch m lhs rhs (some (AluOp.subFlags lhs rhs)))
      (scratch m ((lhs &&& ~~~0xFF) ||| if holds then 1 else 0) rhs
        (some (AluOp.subFlags lhs rhs))) := by
    refine .instr (by simp) (fun rest => decode_setcc rest unsignedCompare) (by simp) ?_
    have hflags : (scratch m lhs rhs (some (AluOp.subFlags lhs rhs))).flags =
        some (AluOp.subFlags lhs rhs) := rfl
    rw [Machine.exec, hflags, bind_some, conditionHolds_subFlags, hholds, map_some,
      scratch_rax, scratch_setRax]
  have hextend : Runs [0x0F, 0xB6, 0xC0]
      (scratch m ((lhs &&& ~~~0xFF) ||| if holds then 1 else 0) rhs
        (some (AluOp.subFlags lhs rhs)))
      (scratch m (boolValue holds) rhs (some (AluOp.subFlags lhs rhs))) := by
    refine .instr (by simp) decode_movzx (by simp) ?_
    rw [Machine.exec, scratch_rax, boolValue_lowByte, scratch_setRax]
  exact ⟨_, runs_cmp.append (hset.append hextend)⟩

end Operations

def operandValue (instruction : DbtLoweredInstruction) (gpr : Fin 32 → BitVec 64) (reg : ℕ) :
    DbtLoweredOperandKind → BitVec 64
  | .gpr => gpr (Fin.ofNat 32 reg)
  | .immediate => instruction.imm
  | .pc => instruction.pc
  | .none => 0

def loweredValue (instruction : DbtLoweredInstruction) (gpr : Fin 32 → BitVec 64) : BitVec 64 :=
  let op := instruction.alu
  let lhs := operandValue instruction gpr instruction.rs1 instruction.lhsKind
  let rhs := operandValue instruction gpr instruction.rs2 instruction.rhsKind
  if op = .move then lhs
  else if isBinaryAlu op then
    match instruction.width with
    | .word => (aluValue op (lhs.setWidth 32) (rhs.setWidth 32)).signExtend 64
    | .xlen => aluValue op lhs rhs
  else if isShift op then
    match instruction.width with
    | .word => ((hostShift op).apply (lhs.setWidth 32) (rhs.toNat % 32)).signExtend 64
    | .xlen => (hostShift op).apply lhs (rhs.toNat % 64)
  else boolValue (if op == .setLessThanUnsigned then lhs.ult rhs else lhs.slt rhs)

theorem and_mask_toNat (x : BitVec 64) : (x &&& 31).toNat = x.toNat % 32 ∧
    (x &&& 63).toNat = x.toNat % 64 :=
  ⟨Nat.and_two_pow_sub_one_eq_mod x.toNat 5, Nat.and_two_pow_sub_one_eq_mod x.toNat 6⟩

theorem countMask_toNat (x : BitVec 64) :
    (x.setWidth 8 &&& Width.dword.countMask).toNat = x.toNat % 32 ∧
      (x.setWidth 8 &&& Width.qword.countMask).toNat = x.toNat % 64 := by
  have hbyte : (x.setWidth 8).toNat = x.toNat % 256 := by simp
  constructor
  · rw [← Nat.mod_mod_of_dvd x.toNat (show 32 ∣ 256 by decide), ← hbyte]
    exact Nat.and_two_pow_sub_one_eq_mod _ 5
  rw [← Nat.mod_mod_of_dvd x.toNat (show 64 ∣ 256 by decide), ← hbyte]
  exact Nat.and_two_pow_sub_one_eq_mod _ 6

section Values

variable {m : Machine} {lhs rhs : BitVec 64} {flags : Option Flags} {gpr : Fin 32 → BitVec 64}
  {instruction : DbtLoweredInstruction} {code code' : List (BitVec 8)}

section

variable (hgpr : HoldsGpr m.ram (m.reg rdi) gpr)

include hgpr

theorem runs_operandToRax {kind : DbtLoweredOperandKind}
    (hcode : emitOperandToRax instruction kind = some code) :
    Runs code (scratch m lhs rhs flags)
      (scratch m (operandValue instruction gpr instruction.rs1 kind) rhs flags) := by
  cases kind with
  | none => cases hcode
  | gpr =>
    cases hcode
    exact runs_loadGprToRax hgpr _
  | immediate =>
    cases hcode
    exact runs_movRaxImm _
  | pc =>
    cases hcode
    exact runs_movRaxImm _

theorem runs_rhsToRcx (hcode : emitRhsToRcx instruction = some code) :
    Runs code (scratch m lhs rhs flags)
      (scratch m lhs (operandValue instruction gpr instruction.rs2 instruction.rhsKind) flags) := by
  unfold emitRhsToRcx at hcode
  cases hkind : instruction.rhsKind with
  | none => simp [hkind] at hcode
  | gpr =>
    rw [hkind] at hcode
    cases hcode
    exact runs_loadGprToRcx hgpr _
  | immediate =>
    rw [hkind] at hcode
    cases hcode
    exact runs_movRcxImm _
  | pc =>
    rw [hkind] at hcode
    cases hcode
    exact runs_movRcxImm _

theorem runs_operands (hlhs : emitOperandToRax instruction instruction.lhsKind = some code)
    (hrhs : emitRhsToRcx instruction = some code') :
    Runs (code ++ code') m
      (scratch m (operandValue instruction gpr instruction.rs1 instruction.lhsKind)
        (operandValue instruction gpr instruction.rs2 instruction.rhsKind) m.flags) := by
  have hload : Runs code (scratch m (m.reg rax) (m.reg rcx) m.flags) _ :=
    runs_operandToRax hgpr hlhs
  rw [scratch_self] at hload
  exact hload.append (runs_rhsToRcx hgpr hrhs)

end

variable (op : DbtLoweredAluOp)

theorem runs_shiftRaxImm (imm : BitVec 64) :
    ∃ flags', Runs (emitShiftRaxImm op ((imm &&& 63).setWidth 8)) (scratch m lhs rhs flags)
      (scratch m ((hostShift op).apply lhs (imm.toNat % 64)) rhs flags') := by
  obtain ⟨flags', hexec⟩ := exec_shiftImm (m := m) (hostShift op) .qword ((imm &&& 63).setWidth 8)
  rw [(countMask_toNat _).2, (and_mask_toNat _).2, Nat.mod_mod] at hexec
  exact ⟨flags', .instr (by simp [emitShiftRaxImm])
    (fun rest => decode_shiftImm64 rest op _) (by simp) hexec⟩

theorem runs_shiftEaxImm (imm : BitVec 64) :
    ∃ flags', Runs (emitShiftEaxImm op ((imm &&& 31).setWidth 8) ++ emitMovsxdRaxEax)
      (scratch m lhs rhs flags)
      (scratch m (((hostShift op).apply (lhs.setWidth 32) (imm.toNat % 32)).signExtend 64) rhs
        flags') := by
  obtain ⟨flags', hexec⟩ := exec_shiftImm (m := m) (hostShift op) .dword ((imm &&& 31).setWidth 8)
  rw [(countMask_toNat _).1, (and_mask_toNat _).1, Nat.mod_mod] at hexec
  exact ⟨flags', shiftWord (.instr (by simp [emitShiftEaxImm])
    (fun rest => decode_shiftImm32 rest op _) (by simp) hexec)⟩

theorem runs_shiftRaxCl : ∃ flags', Runs (emitShiftRaxCl op) (scratch m lhs rhs flags)
      (scratch m ((hostShift op).apply lhs (rhs.toNat % 64)) rhs flags') := by
  obtain ⟨flags', hexec⟩ := exec_shiftCl (m := m) (hostShift op) .qword
  rw [(countMask_toNat _).2] at hexec
  exact ⟨flags', .instr (by simp [emitShiftRaxCl])
    (fun rest => decode_shiftCl64 rest op) (by simp) hexec⟩

theorem runs_shiftEaxCl :
    ∃ flags', Runs (emitShiftEaxCl op ++ emitMovsxdRaxEax) (scratch m lhs rhs flags)
      (scratch m (((hostShift op).apply (lhs.setWidth 32) (rhs.toNat % 32)).signExtend 64) rhs
        flags') := by
  obtain ⟨flags', hexec⟩ := exec_shiftCl (m := m) (hostShift op) .dword
  rw [(countMask_toNat _).1] at hexec
  exact ⟨flags', shiftWord (.instr (by simp [emitShiftEaxCl])
    (fun rest => decode_shiftCl32 rest op) (by simp) hexec)⟩

theorem Computes.of_operands {value : BitVec 64} {codeOp : List (BitVec 8)}
    (hgpr : HoldsGpr m.ram (m.reg rdi) gpr)
    (hlhs : emitOperandToRax instruction instruction.lhsKind = some code)
    (hrhs : emitRhsToRcx instruction = some code')
    (hop : ∃ flags', Runs codeOp
      (scratch m (operandValue instruction gpr instruction.rs1 instruction.lhsKind)
        (operandValue instruction gpr instruction.rs2 instruction.rhsKind) m.flags)
      (scratch m value (operandValue instruction gpr instruction.rs2 instruction.rhsKind)
        flags')) :
    Computes (code ++ code' ++ codeOp) m value := by
  obtain ⟨flags', hop⟩ := hop
  exact ⟨_, flags', (runs_operands hgpr hlhs hrhs).append hop⟩

theorem computes_binary (halu : isBinaryAlu instruction.alu)
    (hcode : emitValue instruction = some code) (hgpr : HoldsGpr m.ram (m.reg rdi) gpr) :
    Computes code m (loweredValue instruction gpr) := by
  have hmove : instruction.alu ≠ .move := by
    intro h
    rw [h] at halu
    cases halu
  simp only [emitValue, hmove, halu, if_true, if_false] at hcode
  simp only [loweredValue, hmove, halu, if_true, if_false]
  obtain ⟨lhs, hlhs, hcode⟩ := bind_eq_some_iff.1 hcode
  obtain ⟨rhs, hrhs, hcode⟩ := bind_eq_some_iff.1 hcode
  cases hwidth : instruction.width with
  | word =>
    rw [hwidth] at hcode
    cases hcode
    rw [List.append_assoc]
    exact .of_operands hgpr hlhs hrhs (runs_alu32 halu)
  | xlen =>
    rw [hwidth] at hcode
    cases hcode
    exact .of_operands hgpr hlhs hrhs (runs_alu64 halu)

theorem computes_shift (halu : isShift instruction.alu)
    (hvalid : validOperation instruction) (hcode : emitValue instruction = some code)
    (hgpr : HoldsGpr m.ram (m.reg rdi) gpr) : Computes code m (loweredValue instruction gpr) := by
  have hmove : instruction.alu ≠ .move := by
    intro h
    rw [h] at halu
    cases halu
  have hbinary : isBinaryAlu instruction.alu = false := by
    revert halu
    cases instruction.alu <;> decide
  have hless : isSetLessThan instruction.alu = false := by
    revert halu
    cases instruction.alu <;> decide
  simp only [emitValue, hmove, hbinary, halu, if_true, if_false, Bool.false_eq_true] at hcode
  simp only [loweredValue, hmove, hbinary, halu, if_true, if_false, Bool.false_eq_true]
  obtain ⟨lhs, hlhs, hcode⟩ := bind_eq_some_iff.1 hcode
  by_cases hkind : instruction.rhsKind = .immediate
  · have hload : Runs lhs (scratch m (m.reg rax) (m.reg rcx) m.flags) _ :=
      runs_operandToRax hgpr hlhs
    rw [scratch_self] at hload
    simp only [hkind, if_true] at hcode
    simp only [hkind, operandValue]
    cases hwidth : instruction.width with
    | word =>
      rw [hwidth] at hcode
      cases hcode
      obtain ⟨flags', hshift⟩ := runs_shiftEaxImm instruction.alu instruction.imm
      rw [List.append_assoc]
      exact ⟨_, flags', hload.append hshift⟩
    | xlen =>
      rw [hwidth] at hcode
      cases hcode
      obtain ⟨flags', hshift⟩ := runs_shiftRaxImm instruction.alu instruction.imm
      exact ⟨_, flags', hload.append hshift⟩
  · -- validation leaves only a register, whose code exists
    have hgprKind : instruction.rhsKind = .gpr := by
      simp only [validOperation, hmove, hbinary, hless, halu, Bool.or_false, if_true, if_false,
        Bool.false_eq_true] at hvalid
      simpa [hkind] using (Bool.and_eq_true_iff.1 hvalid).2
    have hrhs : emitRhsToRcx instruction = some (emitLoadGprToRcx instruction.rs2) := by
      rw [emitRhsToRcx, hgprKind]
    simp only [hkind, if_false, hrhs, getD_some] at hcode
    cases hwidth : instruction.width with
    | word =>
      rw [hwidth] at hcode
      cases hcode
      rw [List.append_assoc]
      exact .of_operands hgpr hlhs hrhs (runs_shiftEaxCl _)
    | xlen =>
      rw [hwidth] at hcode
      cases hcode
      exact .of_operands hgpr hlhs hrhs (runs_shiftRaxCl _)

theorem computes_setLessThan (halu : isSetLessThan instruction.alu)
    (hcode : emitValue instruction = some code) (hgpr : HoldsGpr m.ram (m.reg rdi) gpr) :
    Computes code m (loweredValue instruction gpr) := by
  have hclass : instruction.alu ≠ .move ∧ isBinaryAlu instruction.alu = false ∧
      isShift instruction.alu = false := by
    revert halu
    cases instruction.alu <;> decide
  simp only [emitValue, hclass, halu, if_true, if_false, Bool.false_eq_true] at hcode
  simp only [loweredValue, hclass, if_false, Bool.false_eq_true]
  obtain ⟨lhs, hlhs, hcode⟩ := bind_eq_some_iff.1 hcode
  obtain ⟨rhs, hrhs, hcode⟩ := bind_eq_some_iff.1 hcode
  cases hcode
  rw [List.append_assoc]
  exact .of_operands hgpr hlhs hrhs (runs_setLessThan _)

theorem computes_emitValue (hvalid : validOperation instruction)
    (hcode : emitValue instruction = some code) (hgpr : HoldsGpr m.ram (m.reg rdi) gpr) :
    Computes code m (loweredValue instruction gpr) := by
  by_cases hmove : instruction.alu = .move
  · simp only [emitValue, hmove, if_true] at hcode
    simp only [loweredValue, hmove, if_true]
    have hload : Runs code (scratch m (m.reg rax) (m.reg rcx) m.flags) _ :=
      runs_operandToRax hgpr hcode
    rw [scratch_self] at hload
    exact ⟨_, _, hload⟩
  by_cases hbinary : isBinaryAlu instruction.alu
  · exact computes_binary hbinary hcode hgpr
  by_cases hshift : isShift instruction.alu
  · exact computes_shift hshift hvalid hcode hgpr
  by_cases hless : isSetLessThan instruction.alu
  · exact computes_setLessThan hless hcode hgpr
  · simp [validOperation, hmove, hbinary, hshift, hless] at hvalid

end Values

theorem loweredValue_lowerIrInstruction {instruction : DbtIrInstruction}
    (hopcode : instruction.opcode ≠ .fallthrough) (gpr : Fin 32 → BitVec 64) :
    loweredValue (DbtIrLowering.lowerIrInstruction instruction) gpr =
      DbtIr.value instruction gpr := by
  have hmask := and_mask_toNat
  have hcount := countMask_toNat
  simp only [Width.countMask] at hcount
  have hadd : ∀ x y : BitVec 64, (x + y).setWidth 32 = x.setWidth 32 + y.setWidth 32 :=
    fun x y => setWidth_add x y (by decide)
  have hsub : ∀ x y : BitVec 64, (x - y).setWidth 32 = x.setWidth 32 - y.setWidth 32 := by
    intro x y
    rw [BitVec.sub_eq_add_neg, hadd, setWidth_neg_of_le (by decide), BitVec.sub_eq_add_neg]
  cases h : instruction.opcode with
  | fallthrough => exact absurd h hopcode
  | _ =>
    simp only [DbtIrLowering.lowerIrInstruction, h, loweredValue, DbtIr.value,
      DbtIrLowering.lowerMove, DbtIrLowering.lowerBinary, DbtIrLowering.baseCompute,
      operandValue, isBinaryAlu, isShift, hostShift, ShiftOp.apply, aluValue, (hmask _).1,
      (hmask _).2, (hcount _).1, (hcount _).2, reduceCtorEq, if_true, if_false,
      signExtendWord, hadd, hsub, Bool.false_eq_true]
    try rfl

end VisualCpu.DbtHostEmitter
