import VisualCpu.Devices.GoldenValues
import VisualCpu.Devices.PackageSafety
import VisualCpu.Library.ByteWriter

/-!
# The values that operations leave in the scratchpad

What a kernel writes when its inputs hold known bytes, and the bytes of 32-bit words that
stand for integers.
-/

namespace VisualCpu

open List BitVec ByteCodec Checks Tables AiScratchpad

section Integers

variable {n : ℕ} {v : ℤ}

theorem ofInt_sum (w n : ℕ) (f : ℕ → ℤ) :
    BitVec.ofInt w (∑ i ∈ Finset.range n, f i) = ∑ i ∈ Finset.range n, BitVec.ofInt w (f i) := by
  induction n with
  | zero => rfl
  | succ n ih => rw [Finset.sum_range_succ, Finset.sum_range_succ, ofInt_add, ih]

theorem widenI8_ofInt (hlow : -128 ≤ v) (hhigh : v ≤ 127) :
    TensorGolden.widenI8 ((BitVec.ofInt 8 v).setWidth 32) = BitVec.ofInt 32 v := by
  have hbyte : ((BitVec.ofInt 8 v).setWidth 32).setWidth 8 = BitVec.ofInt 8 v := by
    rw [setWidth_setWidth_of_le _ (by decide), setWidth_eq]
  have hvalue : (BitVec.ofInt 8 v).toInt = v := toInt_ofInt_eq_self (by decide) hlow (by omega)
  unfold TensorGolden.widenI8
  rw [hbyte, BitVec.signExtend, hvalue]

/-- The word of an integer is negative when the integer is. -/
theorem msb_ofInt (hlow : -2 ^ 31 ≤ v) (hhigh : v < 2 ^ 31) :
    (BitVec.ofInt 32 v).msb = decide (v < 0) := by
  have hvalue : (BitVec.ofInt 32 v).toInt = v := toInt_ofInt_eq_self (by decide) hlow hhigh
  rw [msb_eq_toInt, hvalue]

theorem relu_ofInt (hlow : -2 ^ 31 ≤ v) (hhigh : v < 2 ^ 31) :
    (if (BitVec.ofInt 32 v).msb then 0 else BitVec.ofInt 32 v) = BitVec.ofInt 32 (max 0 v) := by
  rw [msb_ofInt hlow hhigh]
  by_cases hneg : v < 0
  · rw [if_pos (by simpa using hneg), max_eq_left (by omega)]
    rfl
  · rw [if_neg (by simpa using hneg), max_eq_right (by omega)]

end Integers

theorem encodeValues_eq_table (size : ℕ) (values : List (BitVec 32)) :
    encodeValues size values =
      table values.length size fun i j => (values.getD i 0 >>> (8 * j)).setWidth 8 := by
  have hvalues : values = (List.range values.length).map fun i => values.getD i 0 := by
    apply ext_getElem
    · simp
    intro i hi _
    simp [hi]
  unfold encodeValues table
  nth_rewrite 1 [hvalues]
  rw [flatMap_map]

theorem joinBytes (value : BitVec 32) :
    (((((0 : BitVec 32) <<< 8 ||| ((value >>> 24).setWidth 8).setWidth 32) <<< 8 |||
      ((value >>> 16).setWidth 8).setWidth 32) <<< 8 |||
        ((value >>> 8).setWidth 8).setWidth 32) <<< 8 |||
          ((value >>> 0).setWidth 8).setWidth 32) = value := by
  have hjoin : ∀ a b c d : BitVec 32,
    ((((0 : BitVec 32) <<< 8 ||| a) <<< 8 ||| b) <<< 8 ||| c) <<< 8 |||
      d = d ||| c <<< 8 ||| b <<< 16 ||| a <<< 24 := by
    intro a b c d
    have hzero : (0 : BitVec 32) <<< 8 ||| a = a := by simp
    have ha : a <<< 8 <<< 8 <<< 8 = a <<< 24 := by rw [← shiftLeft_add, ← shiftLeft_add]
    have hb : b <<< 8 <<< 8 = b <<< 16 := (shiftLeft_add b 8 8).symm
    rw [hzero, shiftLeft_or_distrib, shiftLeft_or_distrib, shiftLeft_or_distrib, ha, hb,
      BitVec.or_comm _ d, BitVec.or_comm _ (c <<< 8), BitVec.or_comm (a <<< 24), BitVec.or_assoc,
      BitVec.or_assoc]
  rw [hjoin]
  exact ByteCodec.joinU32 value

theorem decodeValues_encodeValues (values : List (BitVec 32)) :
    decodeValues 4 (encodeValues 4 values) = values := by
  apply List.ext_getElem?
  intro i
  unfold decodeValues
  rw [length_encodeValues, Nat.mul_div_cancel _ (by decide : 0 < 4)]
  by_cases hi : i < values.length
  · have hbyte : ∀ j < 4, (encodeValues 4 values).getD (i * 4 + j) 0 =
        (values[i] >>> (8 * j)).setWidth 8 := by
      intro j hj
      rw [encodeValues_eq_table, List.getD_eq_getElem?_getD, getElem?_table _ hi hj,
        Option.getD_some, getD_eq_getElem _ _ hi]
    have hrange : List.range 4 = [0, 1, 2, 3] := rfl
    rw [List.getElem?_map, List.getElem?_range hi, List.getElem?_eq_getElem hi, Option.map_some,
      hrange]
    simp only [foldr_cons, foldr_nil, hbyte 0 (by decide), hbyte 1 (by decide),
      hbyte 2 (by decide), hbyte 3 (by decide)]
    exact congrArg some (joinBytes values[i])
  · rw [List.getElem?_eq_none (by simp; omega), List.getElem?_eq_none (by omega)]

theorem decodeValues_one (bytes : List (BitVec 8)) :
    decodeValues 1 bytes = bytes.map fun byte => byte.setWidth 32 := by
  apply ext_getElem
  · simp [decodeValues]
  intro i hi _
  have hlt : i < bytes.length := by simpa [decodeValues] using hi
  simp [decodeValues, hlt]

theorem encodeValues_ofInt (values : List ℤ) :
    encodeValues 4 (values.map (BitVec.ofInt 32)) = values.flatMap (littleEndian 4) := by
  unfold encodeValues
  rw [flatMap_map]
  apply flatMap_congr
  intro value _
  rw [littleEndian_four]
  rfl

theorem AiScratchpad.slice_store (pad : AiScratchpad) (offset : ℕ) (data : List (BitVec 8)) :
    (pad.store offset data).slice offset data.length = data := by
  apply ext_getElem
  · simp
  intro i _ hi
  simp only [slice, getElem_map, getElem_range]
  rw [store_bytes_of_inside (by omega) (by omega)]
  simp

/-- The elements of a tensor. -/
def AiScratchpad.valuesOf (pad : AiScratchpad) (size : ℕ) (entry : AiMemoryPlanEntry) :
    List (BitVec 32) :=
  decodeValues size (pad.slice entry.scratchpadOffset.toNat entry.byteSize.toNat)

namespace Kernel

variable {kernel : Kernel} {pad : AiScratchpad} {values : List (BitVec 32)}

/-- The arithmetic of a kernel on the elements of its inputs. -/
def computeOn (kernel : Kernel) (pad : AiScratchpad) : KernelRun (List (BitVec 32)) :=
  kernel.compute (pad.valuesOf kernel.inputSize kernel.input0)
    (kernel.input1.elim [] (pad.valuesOf kernel.inputSize))

/-- The sizes of the inputs are multiples of the size of an element. -/
structure Aligned (kernel : Kernel) : Prop where
  input0 : kernel.input0.byteSize.toNat % kernel.inputSize = 0
  input1 : ∀ entry, kernel.input1 = some entry → entry.byteSize.toNat % kernel.inputSize = 0

theorem readTensorValues_eq {size : ℕ} {entry : AiMemoryPlanEntry}
    (haligned : entry.byteSize.toNat % size = 0)
    (h : entry.scratchpadOffset.toNat + entry.byteSize.toNat ≤ pad.scratchpadBytes.toNat)
    (hholds : pad.Holds entry) :
    pad.readTensorValues size entry = .ok (pad.valuesOf size entry) := by
  unfold readTensorValues
  rw [read_entry h, if_pos hholds]
  simp [check, haligned, bind, Except.bind, valuesOf]

theorem run_eq_store (hcontained : kernel.Contained pad) (hallocated : kernel.Allocated pad)
    (haligned : kernel.Aligned) (hcompute : kernel.computeOn pad = .ok values)
    (hsize : values.length * kernel.outputSize = kernel.output.byteSize.toNat) :
    kernel.run pad =
      .ok (pad.store kernel.output.scratchpadOffset.toNat
        (encodeValues kernel.outputSize values)) := by
  have hlhs := readTensorValues_eq haligned.input0 hcontained.input0 hallocated.input0
  have hrhs : pad.readSecondValues kernel.inputSize kernel.input1 =
      .ok (kernel.input1.elim [] (pad.valuesOf kernel.inputSize)) := by
    cases hinput : kernel.input1 with
    | none => rfl
    | some entry =>
      exact readTensorValues_eq (haligned.input1 entry hinput) (hcontained.input1 entry hinput)
        (hallocated.input1 entry hinput)
  unfold computeOn at hcompute
  unfold run
  rw [hlhs, hrhs]
  simp only [bind, Except.bind, hcompute]
  rw [writeTensorValues_eq_of_size hsize hcontained.output,
    if_pos hallocated.output]

end Kernel

namespace AiGraphPackage

variable [HostFloat] {package : AiGraphPackage}

variable (package) in
/-- The checks of an operation pass, and it runs a kernel with aligned inputs. -/
def KernelAt (index : BitVec 16) (kernel : Kernel) : Prop :=
  ∃ op plan, package.ops[index.toNat]? = some op ∧ package.planOp op = .ok plan ∧
    plan.finish = .ok () ∧ plan.kernel = some kernel ∧ kernel.Aligned

theorem KernelAt.opAt_eq {index : BitVec 16} {kernel : Kernel} (h : package.KernelAt index kernel)
    (hexact : package.Exact) (hbudget : package.scratchpadBudgetBytes.toNat + 8192 < 2 ^ 32)
    {pad : AiScratchpad} (hpad : package.LayoutOf pad) {values : List (BitVec 32)}
    (hcompute : kernel.computeOn pad = .ok values)
    (hsize : values.length * kernel.outputSize = kernel.output.byteSize.toNat) :
    package.opAt pad index =
      .ok (pad.store kernel.output.scratchpadOffset.toNat
        (encodeValues kernel.outputSize values)) := by
  obtain ⟨op, plan, hop, hplan, hfinish, hkernel, haligned⟩ := h
  have hcontained := hexact.contained_kernel (planOp_operands hplan) hkernel hpad
  have hallocated := (allocated_of_layout hpad).2
    (operandsAllocated_of_budget hexact hbudget op (List.mem_of_getElem? hop)
      plan hplan kernel hkernel)
  have hrun := Kernel.run_eq_store hcontained hallocated haligned hcompute hsize
  rw [opAt_eq_act hop hplan]
  unfold OpPlan.act OpPlan.runKernel
  rw [hkernel]
  simp only [hrun, hfinish, bind, Except.bind]

end AiGraphPackage

theorem AiScratchpad.valuesOf_store (pad : AiScratchpad) {entry : AiMemoryPlanEntry}
    {values : List (BitVec 32)} (hsize : values.length * 4 = entry.byteSize.toNat) :
    (pad.store entry.scratchpadOffset.toNat (encodeValues 4 values)).valuesOf 4 entry = values := by
  unfold valuesOf
  rw [← hsize, ← length_encodeValues, slice_store, decodeValues_encodeValues]

end VisualCpu
