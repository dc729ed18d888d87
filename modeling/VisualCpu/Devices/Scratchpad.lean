import Mathlib.Data.List.GetD
import VisualCpu.Devices.TensorGoldenOps

/-!
# The scratchpad of the accelerator

`AiScratchpad` with its space for tensors. The sizes are computed in 32 bits, and an access
that its own check lets through can lie beyond the bytes that are allocated.
-/

namespace VisualCpu

def kAiScratchpadDefaultAccumulatorBytes : BitVec 32 := 4096
def kAiScratchpadDefaultTemporaryBytes : BitVec 32 := 4096

structure AiScratchpad where
  (scratchpadBytes totalBytes : BitVec 32)
  bytes : ℕ → BitVec 8

namespace AiScratchpad

def configure (scratchpadBytes : BitVec 32) : AiScratchpad where
  scratchpadBytes := scratchpadBytes
  totalBytes :=
    scratchpadBytes + kAiScratchpadDefaultAccumulatorBytes + kAiScratchpadDefaultTemporaryBytes
  bytes _ := 0

variable (pad : AiScratchpad)

variable (offset : BitVec 32)

def contains (size : ℕ) : Bool :=
  size == 0 ||
    (decide (offset ≤ pad.scratchpadBytes) &&
      decide (size ≤ pad.scratchpadBytes.toNat - offset.toNat))

/-- A nonempty range is inside the allocated bytes. -/
def allocated (size : ℕ) : Bool :=
  size == 0 || decide (offset.toNat + size ≤ pad.totalBytes.toNat)

/-- The `size` bytes from an offset on. -/
def slice (offset size : ℕ) : List (BitVec 8) :=
  (List.range size).map fun i => pad.bytes (offset + i)

def store (offset : ℕ) (data : List (BitVec 8)) : AiScratchpad :=
  { pad with bytes := fun a => if offset ≤ a then data.getD (a - offset) (pad.bytes a)
                               else pad.bytes a }

/-- `none` when the range is refused. -/
def read (size : ℕ) : KernelRun (Option (List (BitVec 8))) :=
  if pad.contains offset size then
    if pad.allocated offset size then .ok (some (pad.slice offset.toNat size))
    else .error .outOfBounds
  else .ok none

def write (data : List (BitVec 8)) : KernelRun (Option AiScratchpad) :=
  if pad.contains offset data.length then
    if pad.allocated offset data.length then .ok (some (pad.store offset.toNat data))
    else .error .outOfBounds
  else .ok none

variable {pad} {data : List (BitVec 8)} {other : AiScratchpad}

@[simp] theorem length_slice (offset size : ℕ) : (pad.slice offset size).length = size := by
  simp [slice]

theorem store_bytes_of_outside {offset a : ℕ}
    (h : a < offset ∨ offset + data.length ≤ a) : (pad.store offset data).bytes a =
      pad.bytes a := by
  simp only [store]
  split_ifs with hle
  · exact List.getD_eq_default _ _ (by omega)
  · rfl

theorem store_bytes_of_inside {offset a : ℕ} (hle : offset ≤ a)
    (hlt : a - offset < data.length) : (pad.store offset data).bytes a = data[a - offset] := by
  simp only [store, if_pos hle]
  exact List.getD_eq_getElem _ _ hlt

theorem slice_congr {offset size : ℕ}
    (h : ∀ a, offset ≤ a → a < offset + size → pad.bytes a = other.bytes a) :
    pad.slice offset size = other.slice offset size := by
  apply List.map_congr_left
  intro i hi
  have hlt : i < size := List.mem_range.1 hi
  exact h _ (by omega) (by omega)

@[ext] theorem ext_bytes
    (hsize : pad.scratchpadBytes = other.scratchpadBytes)
    (htotal : pad.totalBytes = other.totalBytes) (h : ∀ a, pad.bytes a = other.bytes a) :
    pad = other := by
  cases pad
  cases other
  subst hsize htotal
  simpa using funext h

theorem store_comm {first second : ℕ} {data data' : List (BitVec 8)}
    (h : first + data.length ≤ second ∨ second + data'.length ≤ first) :
    (pad.store first data).store second data' = (pad.store second data').store first data := by
  apply ext_bytes
  · rfl
  · rfl
  intro a
  by_cases hfirst : first ≤ a ∧ a < first + data.length
  · rw [store_bytes_of_outside (by omega), store_bytes_of_inside hfirst.1 (by omega),
      store_bytes_of_inside hfirst.1 (by omega)]
  rw [(pad.store second data').store_bytes_of_outside (by omega)]
  by_cases hsecond : second ≤ a ∧ a < second + data'.length
  · rw [store_bytes_of_inside hsecond.1 (by omega), store_bytes_of_inside hsecond.1 (by omega)]
  rw [store_bytes_of_outside (by omega), store_bytes_of_outside (by omega),
    store_bytes_of_outside (by omega)]

end AiScratchpad

end VisualCpu
