import VisualCpu.Library.Bits
import VisualCpu.Mem.Bus

/-!
# Reads and writes of RAM

Little-endian loads bit by bit, and what a store leaves for a later load.
-/

namespace VisualCpu.Ram

open BitVec

variable (ram : Ram)

variable (addr : BitVec 64) {size : ℕ}

theorem add_one_ofNat (i : ℕ) : addr + 1 + BitVec.ofNat 64 i = addr + BitVec.ofNat 64 (i + 1) := by
  have hone : BitVec.ofNat 64 (i + 1) = 1 + BitVec.ofNat 64 i := by
    rw [Nat.add_comm, ofNat_add]
    rfl
  rw [hone, BitVec.add_assoc]

theorem load_congr {ram ram' : Ram} {addr : BitVec 64}
    (h : ∀ i < size, ram (addr + BitVec.ofNat 64 i) = ram' (addr + BitVec.ofNat 64 i)) :
    ram.load addr size = ram'.load addr size := by
  induction size generalizing addr with
  | zero => rfl
  | succ size ih =>
    have hhead : ram addr = ram' addr := by
      simpa using h 0 (Nat.succ_pos _)
    have htail : ram.load (addr + 1) size = ram'.load (addr + 1) size := by
      apply ih
      intro i hi
      rw [add_one_ofNat]
      exact h (i + 1) (by omega)
    rw [load, load, hhead, htail]

theorem load_getLsbD (size k : ℕ) : (ram.load addr size).getLsbD k =
      (decide (k < 64) && decide (k / 8 < size) &&
        (ram (addr + BitVec.ofNat 64 (k / 8))).getLsbD (k % 8)) := by
  induction size generalizing addr k with
  | zero => simp [load]
  | succ size ih =>
    rw [load, getLsbD_or, getLsbD_setWidth, getLsbD_shiftLeft]
    by_cases hk : k < 8
    · have hdiv : k / 8 = 0 := by omega
      have hmod : k % 8 = k := by omega
      have hlt : k < 64 := by omega
      simp [hk, hdiv, hmod, hlt]
    have hbyte : (ram addr).getLsbD k = false := getLsbD_of_ge _ _ (by omega)
    have hdiv : (k - 8) / 8 + 1 = k / 8 := by omega
    have hmod : (k - 8) % 8 = k % 8 := by omega
    have haddr : addr + 1 + BitVec.ofNat 64 ((k - 8) / 8) = addr + BitVec.ofNat 64 (k / 8) := by
      rw [add_one_ofNat, hdiv]
    have hlt : (k - 8) / 8 < size ↔ k / 8 < size + 1 := by omega
    have hlt' : k < 64 → k - 8 < 64 := by omega
    rw [hbyte, ih, haddr, hmod]
    by_cases h64 : k < 64 <;> simp [hk, h64, hlt, hlt']

theorem byteOf_getLsbD (value : BitVec 64) (i j : ℕ) :
    (byteOf value i).getLsbD j = (decide (j < 8) && value.getLsbD (8 * i + j)) := by
  simp [byteOf]

theorem offset_eq {i : ℕ} (hi : i < 2 ^ 64) : (addr + BitVec.ofNat 64 i - addr).toNat = i := by
  have hsub : addr + BitVec.ofNat 64 i - addr = BitVec.ofNat 64 i := by
    rw [BitVec.add_comm, BitVec.add_sub_cancel]
  rw [hsub, toNat_ofNat, Nat.mod_eq_of_lt hi]

theorem load_store_self (addr value : BitVec 64) (hsize : size ≤ 8) :
    (ram.store addr value size).load addr size = value &&& setWidth 64 (allOnes (8 * size)) := by
  apply eq_of_getLsbD_eq
  intro k hk
  rw [load_getLsbD, getLsbD_and, getLsbD_setWidth, getLsbD_allOnes]
  by_cases hlt : k / 8 < size
  · have hoff : (addr + BitVec.ofNat 64 (k / 8) - addr).toNat = k / 8 := offset_eq addr (by omega)
    have hbit : 8 * (k / 8) + k % 8 = k := by omega
    have hmod : k % 8 < 8 := Nat.mod_lt _ (by decide)
    have hwide : k < 8 * size := by omega
    simp only [store, hoff, hlt, if_true]
    rw [byteOf_getLsbD, hbit]
    simp [hk, hmod, hwide]
  · have hwide : ¬ k < 8 * size := by omega
    simp [hlt, hwide]

theorem load_store_eight (addr value : BitVec 64) : (ram.store addr value 8).load addr 8 =
    value := by
  rw [load_store_self ram addr value le_rfl, setWidth_eq, and_allOnes]

/-- The bytes of two spans do not overlap. -/
def Disjoint (a : BitVec 64) (n : ℕ) (b : BitVec 64) (m : ℕ) : Prop :=
  ∀ i < n, ∀ j < m, a + BitVec.ofNat 64 i ≠ b + BitVec.ofNat 64 j

theorem store_of_not_mem {addr a value : BitVec 64}
    (h : ∀ j < size, a ≠ addr + BitVec.ofNat 64 j) : ram.store addr value size a = ram a := by
  rw [store, if_neg]
  intro hlt
  refine h _ hlt ?_
  rw [ofNat_toNat, setWidth_eq, BitVec.add_comm, BitVec.sub_add_cancel]

theorem load_store_disjoint {addr a value : BitVec 64} {size n : ℕ}
    (h : Disjoint a n addr size) : (ram.store addr value size).load a n = ram.load a n :=
  load_congr fun i hi => store_of_not_mem ram fun j hj => h i hi j hj

theorem load_subset {ram ram' : Ram} (h : ∀ a, Bits.Subset (ram a) (ram' a)) (addr : BitVec 64)
    (size : ℕ) : Bits.Subset (ram.load addr size) (ram'.load addr size) := by
  intro k hk
  rw [load_getLsbD, Bool.and_eq_true] at hk ⊢
  exact ⟨hk.1, h _ _ hk.2⟩

theorem byteOf_load {i : ℕ} (hi : i < 8) :
    byteOf (ram.load addr 8) i = ram (addr + BitVec.ofNat 64 i) := by
  apply eq_of_getLsbD_eq
  intro j hj
  have hdiv : (8 * i + j) / 8 = i := by omega
  have hmod : (8 * i + j) % 8 = j := by omega
  have hlt : 8 * i + j < 64 := by omega
  rw [byteOf_getLsbD, load_getLsbD, hdiv, hmod]
  simp [hj, hlt, hi]

theorem subset_store {ram : Ram} {addr value : BitVec 64}
    (h : Bits.Subset (ram.load addr 8) value) (a : BitVec 64) :
    Bits.Subset (ram a) (ram.store addr value 8 a) := by
  unfold store
  split_ifs with hlt
  · intro j hj
    have haddr : addr + BitVec.ofNat 64 (a - addr).toNat = a := by
      rw [ofNat_toNat, setWidth_eq, BitVec.add_comm, BitVec.sub_add_cancel]
    have hj8 : j < 8 := lt_of_getLsbD hj
    have hbyte := byteOf_load ram addr hlt
    rw [haddr] at hbyte
    rw [← hbyte, byteOf_getLsbD] at hj
    rw [byteOf_getLsbD, Bool.and_eq_true]
    rw [Bool.and_eq_true] at hj
    exact ⟨hj.1, h _ hj.2⟩
  · exact .refl _

end VisualCpu.Ram

namespace VisualCpu.Bus

variable {D : Type} [Devices D]

variable {addr : BitVec 64} {size : ℕ}

theorem describeRegion_ram (h : Ram.contains addr size) : describeRegion D addr size = .ram := by
  simp [describeRegion, h]

theorem describeRegion_eq_ram (h : describeRegion D addr size = .ram) : Ram.contains addr size := by
  unfold describeRegion at h
  split_ifs at h with hram hmmio
  exact hram

theorem tryLoad_ram (bus : Bus D) (h : Ram.contains addr size) :
    bus.tryLoad addr size =
      (some (bus.ram.load addr size), { bus with lastAccessMmio := false }) := by
  simp [tryLoad, describeRegion_ram h]

theorem tryStore_ram (bus : Bus D) (value : BitVec 64) (h : Ram.contains addr size) :
    bus.tryStore addr value size =
      (true, { bus with ram := bus.ram.store addr value size, lastAccessMmio := false }) := by
  simp [tryStore, describeRegion_ram h]

end VisualCpu.Bus
