import VisualCpu.Exec.ScalarOps
import VisualCpu.Arch.CsrFile

/-!
# Floating-point instructions

The host's floating-point unit is a parameter: it maps operand bits and a
rounding mode to result bits and accrued flags. Everything around it follows
`floating_ops.cpp`: which encodings are valid, how the rounding mode is
resolved, NaN handling of comparisons and of minimum and maximum, boxing of
single-precision results, and the `fcsr` value computed at execution.
-/

namespace VisualCpu

inductive RoundingMode where
  | rne | rtz | rdn | rup | rmm
deriving DecidableEq

inductive FloatBinary where
  | add | sub | mul | div
deriving DecidableEq

inductive FloatTernary where
  | madd | msub | nmsub | nmadd
deriving DecidableEq

inductive FloatCompare where
  | eq | lt | le
deriving DecidableEq

/-- The integer type of a conversion, from the `rs2` field. -/
inductive IntFormat where
  | w | wu | l | lu
deriving DecidableEq

/-- Accrued exception flags in `fcsr` order: NX, UF, OF, DZ, NV from bit zero. -/
abbrev FloatFlags := BitVec 5

def flagNv : FloatFlags := 0x10

/-- The host floating-point operations on raw bits. -/
class Fpu where
  binaryS : FloatBinary → RoundingMode → BitVec 32 → BitVec 32 → BitVec 32 × FloatFlags
  binaryD : FloatBinary → RoundingMode → BitVec 64 → BitVec 64 → BitVec 64 × FloatFlags
  ternaryS : FloatTernary → RoundingMode → BitVec 32 → BitVec 32 → BitVec 32 →
    BitVec 32 × FloatFlags
  ternaryD : FloatTernary → RoundingMode → BitVec 64 → BitVec 64 → BitVec 64 →
    BitVec 64 × FloatFlags
  sqrtS : RoundingMode → BitVec 32 → BitVec 32 × FloatFlags
  sqrtD : RoundingMode → BitVec 64 → BitVec 64 × FloatFlags
  compareS : FloatCompare → BitVec 32 → BitVec 32 → Bool
  compareD : FloatCompare → BitVec 64 → BitVec 64 → Bool
  /-- Maximum for `true`, minimum for `false`; the operands are not NaN. -/
  minmaxS : Bool → BitVec 32 → BitVec 32 → BitVec 32
  minmaxD : Bool → BitVec 64 → BitVec 64 → BitVec 64
  intToS : IntFormat → RoundingMode → BitVec 64 → BitVec 32 × FloatFlags
  intToD : IntFormat → RoundingMode → BitVec 64 → BitVec 64 × FloatFlags
  sToInt : IntFormat → RoundingMode → BitVec 32 → BitVec 64 × FloatFlags
  dToInt : IntFormat → RoundingMode → BitVec 64 → BitVec 64 × FloatFlags
  dToS : RoundingMode → BitVec 64 → BitVec 32 × FloatFlags
  sToD : BitVec 32 → BitVec 64
  classifyS : BitVec 32 → BitVec 64
  classifyD : BitVec 64 → BitVec 64

/-- The register a floating-point instruction writes, and the flags it raises. -/
structure FloatingOutcome where
  toFpr : Bool
  value : BitVec 64
  flags : FloatFlags := 0
deriving DecidableEq

namespace FloatingOps

def boxSingleResult (value : BitVec 32) : BitVec 64 := 0xFFFFFFFF00000000 ||| value.setWidth 64

variable (bits : BitVec 64)

def single : BitVec 32 := bits.setWidth 32

def isSingleNanBits : Bool :=
  single bits &&& 0x7F800000 == 0x7F800000 && single bits &&& 0x007FFFFF != 0

def isDoubleNanBits : Bool :=
  bits &&& 0x7FF0000000000000 == 0x7FF0000000000000 && bits &&& 0x000FFFFFFFFFFFFF != 0

def isSingleSignalingNanBits : Bool :=
  isSingleNanBits bits && single bits &&& 0x00400000 == 0

def isDoubleSignalingNanBits : Bool :=
  isDoubleNanBits bits && bits &&& 0x0008000000000000 == 0

def canonicalSingleNanBits : BitVec 64 := 0xFFFFFFFF7FC00000

def canonicalDoubleNanBits : BitVec 64 := 0x7FF8000000000000

def roundingModeOf (rm : ℕ) : Option RoundingMode :=
  match rm with
  | 0 => some .rne
  | 1 => some .rtz
  | 2 => some .rdn
  | 3 => some .rup
  | 4 => some .rmm
  | _ => none

/-- `resolve_rounding_mode`: the code seven selects the mode in `fcsr`. -/
def resolveRoundingMode (insn : Insn) (frm : ℕ) : Option RoundingMode :=
  if insn.funct3 = 7 then roundingModeOf frm else roundingModeOf insn.funct3

def toFprS (result : BitVec 32 × FloatFlags) : FloatingOutcome :=
  { toFpr := true, value := boxSingleResult result.1, flags := result.2 }

def toFprD (result : BitVec 64 × FloatFlags) : FloatingOutcome :=
  { toFpr := true, value := result.1, flags := result.2 }

def toGpr (result : BitVec 64 × FloatFlags) : FloatingOutcome :=
  { toFpr := false, value := result.1, flags := result.2 }

def intFormatOf (rs2 : ℕ) : Option IntFormat :=
  match rs2 with
  | 0 => some .w
  | 1 => some .wu
  | 2 => some .l
  | 3 => some .lu
  | _ => none

/-- The comparison selected by `funct3`. -/
def compareOf (funct3 : ℕ) : Option FloatCompare :=
  match funct3 with
  | 0 => some .le
  | 1 => some .lt
  | 2 => some .eq
  | _ => none

def compareNanFlags (op : FloatCompare) (signaling : Bool) : FloatFlags :=
  if op = .eq then if signaling then flagNv else 0 else flagNv

def minmaxFlags (signaling : Bool) : FloatFlags := if signaling then flagNv else 0

/-- The operation of a fused multiply-add opcode. -/
def ternaryOf (opcode : ℕ) : FloatTernary :=
  match opcode with
  | 0x43 => .madd
  | 0x47 => .msub
  | 0x4B => .nmsub
  | _ => .nmadd

def signBitD : BitVec 64 := 1#64 <<< 63

def signBitS : BitVec 64 := 1#64 <<< 31

def signInject (funct3 : ℕ) (signBit rs1v rs2v : BitVec 64) : Option (BitVec 64) :=
  match funct3 with
  | 0 => some ((rs1v &&& ~~~signBit) ||| (rs2v &&& signBit))
  | 1 => some ((rs1v &&& ~~~signBit) ||| ((rs2v ^^^ signBit) &&& signBit))
  | 2 => some (rs1v ^^^ (rs2v &&& signBit))
  | _ => none

variable [Fpu]

def compareSingleResultBits (op : FloatCompare) (rs1v rs2v : BitVec 64) : BitVec 64 × FloatFlags :=
  if isSingleNanBits rs1v || isSingleNanBits rs2v then
    (0, compareNanFlags op (isSingleSignalingNanBits rs1v || isSingleSignalingNanBits rs2v))
  else (boolValue (Fpu.compareS op (single rs1v) (single rs2v)), 0)

def compareDoubleResultBits (op : FloatCompare) (rs1v rs2v : BitVec 64) : BitVec 64 × FloatFlags :=
  if isDoubleNanBits rs1v || isDoubleNanBits rs2v then
    (0, compareNanFlags op (isDoubleSignalingNanBits rs1v || isDoubleSignalingNanBits rs2v))
  else (boolValue (Fpu.compareD op rs1v rs2v), 0)

/-- `minmax_single_result_bits`: the operand beside a NaN is returned as it is. -/
def minmaxSingleResultBits (max : Bool) (rs1v rs2v : BitVec 64) : BitVec 64 × FloatFlags :=
  let flags := minmaxFlags (isSingleSignalingNanBits rs1v || isSingleSignalingNanBits rs2v)
  if isSingleNanBits rs1v && isSingleNanBits rs2v then (canonicalSingleNanBits, flags)
  else if isSingleNanBits rs1v then (rs2v, flags)
  else if isSingleNanBits rs2v then (rs1v, flags)
  else (boxSingleResult (Fpu.minmaxS max (single rs1v) (single rs2v)), flags)

def minmaxDoubleResultBits (max : Bool) (rs1v rs2v : BitVec 64) : BitVec 64 × FloatFlags :=
  let flags := minmaxFlags (isDoubleSignalingNanBits rs1v || isDoubleSignalingNanBits rs2v)
  if isDoubleNanBits rs1v && isDoubleNanBits rs2v then (canonicalDoubleNanBits, flags)
  else if isDoubleNanBits rs1v then (rs2v, flags)
  else if isDoubleNanBits rs2v then (rs1v, flags)
  else (Fpu.minmaxD max rs1v rs2v, flags)

variable (insn : Insn) (frm : ℕ) (rs1v rs2v rs3v : BitVec 64)

def binarySingle (op : FloatBinary) : Option FloatingOutcome :=
  (resolveRoundingMode insn frm).map fun rm =>
    toFprS (Fpu.binaryS op rm (single rs1v) (single rs2v))

def binaryDouble (op : FloatBinary) : Option FloatingOutcome :=
  (resolveRoundingMode insn frm).map fun rm => toFprD (Fpu.binaryD op rm rs1v rs2v)

/-- Minimum is `funct3` zero, maximum one. -/
def minmaxOutcome (compute : Bool → BitVec 64 → BitVec 64 → BitVec 64 × FloatFlags) :
    Option FloatingOutcome :=
  match insn.funct3 with
  | 0 => some (toFprD (compute false rs1v rs2v))
  | 1 => some (toFprD (compute true rs1v rs2v))
  | _ => none

/-- The moves and classifications that share a `funct7` with `fmv.x`. -/
def moveOrClassify (moved classified : BitVec 64) : Option FloatingOutcome :=
  if insn.rs2 ≠ 0 then none
  else
    match insn.funct3 with
    | 0 => some (toGpr (moved, 0))
    | 1 => some (toGpr (classified, 0))
    | _ => none

/-- Conversions to and from integers choose the integer type by `rs2`. -/
def convertInt (convert : IntFormat → RoundingMode → FloatingOutcome) : Option FloatingOutcome :=
  (intFormatOf insn.rs2).bind fun format => (resolveRoundingMode insn frm).map (convert format)

/-- The switch on `funct7` of `build_floating_effects`. -/
def opFpOutcome : Option FloatingOutcome :=
  match insn.funct7 with
  | 0x50 =>
    (compareOf insn.funct3).map fun op => toGpr (compareSingleResultBits op rs1v rs2v)
  | 0x51 =>
    (compareOf insn.funct3).map fun op => toGpr (compareDoubleResultBits op rs1v rs2v)
  | 0x00 => binarySingle insn frm rs1v rs2v .add
  | 0x01 => binaryDouble insn frm rs1v rs2v .add
  | 0x04 => binarySingle insn frm rs1v rs2v .sub
  | 0x05 => binaryDouble insn frm rs1v rs2v .sub
  | 0x08 => binarySingle insn frm rs1v rs2v .mul
  | 0x09 => binaryDouble insn frm rs1v rs2v .mul
  | 0x0C => binarySingle insn frm rs1v rs2v .div
  | 0x0D => binaryDouble insn frm rs1v rs2v .div
  | 0x15 => minmaxOutcome insn rs1v rs2v minmaxDoubleResultBits
  | 0x14 => minmaxOutcome insn rs1v rs2v minmaxSingleResultBits
  | 0x2C =>
    if insn.rs2 ≠ 0 then none
    else (resolveRoundingMode insn frm).map fun rm => toFprS (Fpu.sqrtS rm (single rs1v))
  | 0x2D =>
    if insn.rs2 ≠ 0 then none
    else (resolveRoundingMode insn frm).map fun rm => toFprD (Fpu.sqrtD rm rs1v)
  | 0x68 => convertInt insn frm fun format rm => toFprS (Fpu.intToS format rm rs1v)
  | 0x69 => convertInt insn frm fun format rm => toFprD (Fpu.intToD format rm rs1v)
  | 0x60 => convertInt insn frm fun format rm => toGpr (Fpu.sToInt format rm (single rs1v))
  | 0x61 => convertInt insn frm fun format rm => toGpr (Fpu.dToInt format rm rs1v)
  | 0x20 =>
    if insn.rs2 ≠ 1 then none
    else (resolveRoundingMode insn frm).map fun rm => toFprS (Fpu.dToS rm rs1v)
  | 0x21 => if insn.rs2 ≠ 1 then none else some (toFprD (Fpu.sToD (single rs1v), 0))
  | 0x70 =>
    moveOrClassify insn ((single rs1v).signExtend 64) (Fpu.classifyS (single rs1v))
  | 0x71 => moveOrClassify insn rs1v (Fpu.classifyD rs1v)
  | 0x11 =>
    if insn.funct3 = 0 ∧ insn.rs1 = insn.rs2 then some (toFprD (rs1v, 0))
    else (signInject insn.funct3 signBitD rs1v rs2v).map fun value => toFprD (value, 0)
  | 0x10 => (signInject insn.funct3 signBitS rs1v rs2v).map fun value => toFprD (value, 0)
  | 0x78 =>
    if insn.funct3 ≠ 0 ∨ insn.rs2 ≠ 0 then none
    else some (toFprD (0xFFFFFFFF00000000 ||| (rs1v &&& 0xFFFFFFFF), 0))
  | 0x79 =>
    if insn.funct3 ≠ 0 ∨ insn.rs2 ≠ 0 then none else some (toFprD (rs1v, 0))
  | _ => none

def floatingOutcome : Option FloatingOutcome :=
  if isFusedS insn then
    (resolveRoundingMode insn frm).map fun rm =>
      toFprS (Fpu.ternaryS (ternaryOf insn.opcode) rm (single rs1v) (single rs2v) (single rs3v))
  else if isFusedD insn then
    (resolveRoundingMode insn frm).map fun rm =>
      toFprD (Fpu.ternaryD (ternaryOf insn.opcode) rm rs1v rs2v rs3v)
  else opFpOutcome insn frm rs1v rs2v

variable (fcsr : BitVec 64)

/-- `update_fcsr_flags`: the flags join those in the given `fcsr` value. -/
def updateFcsrFlags (flags : FloatFlags) : BitVec 64 :=
  (fcsr &&& ~~~CsrFile.fcsrFflagsMask) |||
    ((fcsr ||| flags.setWidth 64) &&& CsrFile.fcsrFflagsMask)

/-- The effects of an outcome; `fcsr` is written whole when a flag is raised. -/
def outcomeEffects (outcome : FloatingOutcome) : InsnEffects :=
  { rdWrite := if outcome.toFpr then none else some ⟨insn.rd, outcome.value⟩
    fpWrite := if outcome.toFpr then some ⟨insn.rd, outcome.value⟩ else none
    csrWrite :=
      if outcome.flags ≠ 0 then some ⟨Csr.fcsr, updateFcsrFlags fcsr outcome.flags⟩ else none
    floatingStateTouched := true }

/-- The rounding-mode field of an `fcsr` value. -/
def frmOf : ℕ := ((fcsr &&& CsrFile.fcsrFrmMask) >>> 5).toNat

def buildFloatingEffects : InsnEffects :=
  match floatingOutcome insn (frmOf fcsr) rs1v rs2v rs3v with
  | some outcome => outcomeEffects insn fcsr outcome
  | none => illegalInstructionEffect insn.raw

end FloatingOps

end VisualCpu
