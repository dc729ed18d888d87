import VisualCpu.Mem.RamFacts

/-!
# Transfers between devices and RAM

`Bus::dma_load_bytes` and `Bus::dma_store_bytes`. A span inside RAM is read or written
as a whole, every other span is refused, and an empty transfer always succeeds.
-/

namespace VisualCpu

open BitVec

namespace Ram

variable (ram : Ram)

variable (addr : BitVec 64)

variable (size : ℕ) {m n : ℕ}

/-- The span of a transfer is empty or inside RAM. -/
def dmaVisible : Bool := size == 0 || contains addr size

/-- The `size` bytes from an address on. -/
def bytes : List (BitVec 8) :=
  (List.range size).map fun i => ram (addr + BitVec.ofNat 64 i)

/-- `Bus::dma_load_bytes`. -/
def dmaLoadBytes : Option (List (BitVec 8)) :=
  if dmaVisible addr size then some (ram.bytes addr size) else none

/-- `Bus::dma_store_bytes`. -/
def dmaStoreBytes (data : List (BitVec 8)) : Option Ram :=
  if dmaVisible addr data.length then some (ram.storeBytes addr data) else none

/-- `dma_load_bytes` of an integer, least significant byte first. -/
def dmaLoad : Option (BitVec 64) :=
  if dmaVisible addr size then some (ram.load addr size) else none

/-- `dma_store_bytes` of an integer. -/
def dmaStore (addr value : BitVec 64) (size : ℕ) : Option Ram :=
  if dmaVisible addr size then some (ram.store addr value size) else none

@[simp] theorem length_bytes : (ram.bytes addr size).length =
    size := by
  simp [bytes]

theorem storeBytes_byteOf (addr value : BitVec 64) (size : ℕ) :
    ram.storeBytes addr ((List.range size).map (byteOf value)) = ram.store addr value size := by
  funext a
  unfold storeBytes store
  rw [List.getElem?_map]
  split_ifs with hlt
  · rw [List.getElem?_range hlt]
    rfl
  rw [List.getElem?_eq_none (by simpa using hlt)]
  rfl

theorem dmaStore_eq (addr value : BitVec 64) (size : ℕ) :
    ram.dmaStore addr value size =
      ram.dmaStoreBytes addr ((List.range size).map (byteOf value)) := by
  simp only [dmaStore, dmaStoreBytes, List.length_map, List.length_range, storeBytes_byteOf]

theorem dmaStore_eq_some {addr value : BitVec 64} {size : ℕ} {ram' : Ram}
    (h : ram.dmaStore addr value size = some ram') :
    dmaVisible addr size ∧ ram' = ram.store addr value size := by
  unfold dmaStore at h
  split_ifs at h with hvisible
  exact ⟨hvisible, (Option.some.inj h).symm⟩

theorem dmaLoad_eq_some {addr value : BitVec 64} {size : ℕ}
    (h : ram.dmaLoad addr size = some value) : value = ram.load addr size := by
  unfold dmaLoad at h
  split_ifs at h
  exact (Option.some.inj h).symm

theorem load_store_setWidth {w : ℕ} (value : BitVec w) {size : ℕ}
    (hw : w ≤ 8 * size) (hsize : size ≤ 8) :
    (ram.store addr (value.setWidth 64) size).load addr size = value.setWidth 64 := by
  rw [load_store_self ram addr _ hsize]
  apply eq_of_getLsbD_eq
  intro k hk
  by_cases hnarrow : k < 8 * size
  · simp [hnarrow, hk]
  rw [getLsbD_and, getLsbD_setWidth, getLsbD_of_ge value k (by omega)]
  simp

theorem disjoint_of_offsets (base : BitVec 64) (low high : ℕ) (horder : low + m ≤ high)
    (hbound : high + n ≤ 2 ^ 64) :
    Disjoint (base + BitVec.ofNat 64 high) n (base + BitVec.ofNat 64 low) m := by
  intro i hi j hj heq
  rw [BitVec.add_assoc, BitVec.add_assoc, BitVec.add_right_inj, ← ofNat_add, ← ofNat_add] at heq
  have hoffset := congrArg BitVec.toNat heq
  rw [toNat_ofNat, toNat_ofNat, Nat.mod_eq_of_lt (by omega), Nat.mod_eq_of_lt (by omega)] at hoffset
  omega

theorem Disjoint.symm {a b : BitVec 64} (h : Disjoint a m b n) : Disjoint b n a m :=
  fun i hi j hj heq => h j hj i hi heq.symm

end Ram

end VisualCpu
