import VisualCpu.Library.ByteCodec

/-!
# Writing records from unbounded integers

A writer appends to the bytes written so far or raises. Integers are packed into a number of
little-endian bytes, and one that does not fit is refused. What a writer appends for an
integer with the value of a bit vector is what is written for the bit vector.
-/

namespace VisualCpu.ByteCodec

open BitVec List

/-- A writer takes the bytes written so far and returns them with its own behind. -/
abbrev ByteWriter (ε α : Type) := StateT Bytes (Except ε) α

def littleEndian (count : ℕ) (value : ℤ) : Bytes :=
  (List.range count).map fun i => BitVec.ofInt 8 (value / 256 ^ i)

def packUnsigned {ε : Type} (error : ε) (count : ℕ) (value : ℤ) : Except ε Bytes :=
  if 0 ≤ value ∧ value < 256 ^ count then .ok (littleEndian count value) else .error error

def packSigned {ε : Type} (error : ε) (count : ℕ) (value : ℤ) : Except ε Bytes :=
  if -(256 ^ count / 2) ≤ value ∧ value < 256 ^ count / 2 then .ok (littleEndian count value)
  else .error error

namespace ByteWriter

variable {ε : Type}

def append (packed : Except ε Bytes) : ByteWriter ε Unit := fun out =>
  match packed with
  | .error error => .error error
  | .ok bytes => .ok ((), out ++ bytes)

def raise {α : Type} (error : ε) : ByteWriter ε α := fun _ => .error error

end ByteWriter

variable {ε α β γ : Type}

/-- The writer appends the bytes and returns the value, whatever was written before. -/
def Writes (w : ByteWriter ε α) (bytes : Bytes) (x : α) : Prop :=
  ∀ out, w out = .ok (x, out ++ bytes)

theorem writes_pure (x : α) : Writes (pure x : ByteWriter ε α) [] x := by
  intro out
  rw [append_nil]
  rfl

theorem writes_append {packed : Except ε Bytes} {bytes : Bytes} (h : packed = .ok bytes) :
    Writes (ByteWriter.append packed) bytes () := by
  intro out
  rw [h]
  rfl

theorem Writes.bind {w : ByteWriter ε α} {f : α → ByteWriter ε β} {bytes bytes' : Bytes} {x : α}
    {y : β} (hw : Writes w bytes x) (hf : Writes (f x) bytes' y) :
    Writes (w >>= f) (bytes ++ bytes') y := by
  intro out
  have hfirst := hw out
  have hsecond := hf (out ++ bytes)
  have hbind : (w >>= f) out = (w out >>= fun result => f result.1 result.2) := rfl
  rw [hbind, hfirst, ← List.append_assoc, ← hsecond]
  rfl

theorem Writes.forM {R : β → γ → Prop} {f : β → ByteWriter ε PUnit} {write : γ → Bytes}
    (hf : ∀ x y, R x y → Writes (f x) (write y) ()) {xs : List β} {ys : List γ}
    (h : List.Forall₂ R xs ys) : Writes (xs.forM f) (ys.flatMap write) () := by
  induction h with
  | nil => exact writes_pure ()
  | cons hxy hrest ih =>
    rw [flatMap_cons]
    exact (hf _ _ hxy).bind ih

variable (value : ℤ)

theorem littleEndian_one : littleEndian 1 value = [BitVec.ofInt 8 value] := by
  simp [littleEndian]

theorem littleEndian_two : littleEndian 2 value = writeU16 (BitVec.ofInt 16 value) := by
  have hlow : BitVec.ofInt 8 value = (BitVec.ofInt 16 value).setWidth 8 := by
    apply eq_of_toNat_eq
    simp only [toNat_ofInt, toNat_setWidth]
    omega
  have hhigh : BitVec.ofInt 8 (value / 256) = (BitVec.ofInt 16 value >>> 8).setWidth 8 := by
    apply eq_of_toNat_eq
    simp only [toNat_ofInt, toNat_setWidth, toNat_ushiftRight, Nat.shiftRight_eq_div_pow]
    omega
  simp only [littleEndian, writeU16, range, range.loop, map_cons, map_nil,
    pow_zero, pow_one, Int.ediv_one, hlow, hhigh]

theorem byte_of_word {i : ℕ} (hi : i < 4) :
    BitVec.ofInt 8 (value / 256 ^ i) = (BitVec.ofInt 32 value >>> (8 * i)).setWidth 8 := by
  apply eq_of_toNat_eq
  simp only [toNat_ofInt, toNat_setWidth, toNat_ushiftRight, Nat.shiftRight_eq_div_pow]
  rcases (by omega : i = 0 ∨ i = 1 ∨ i = 2 ∨ i = 3) with rfl | rfl | rfl | rfl <;> omega

theorem littleEndian_four : littleEndian 4 value = writeU32 (BitVec.ofInt 32 value) := by
  have h₀ := byte_of_word value (show 0 < 4 by decide)
  have h₁ := byte_of_word value (show 1 < 4 by decide)
  have h₂ := byte_of_word value (show 2 < 4 by decide)
  have h₃ := byte_of_word value (show 3 < 4 by decide)
  simp only [littleEndian, writeU32, range, range.loop, map_cons, map_nil,
    h₀, h₁, h₂, h₃]
  rfl

variable (error : ε)

theorem packUnsigned_toNat {n : ℕ} (count : ℕ) (hn : 2 ^ n = 256 ^ count)
    (x : BitVec n) : packUnsigned error count x.toNat = .ok (littleEndian count x.toNat) := by
  have hlt : (x.toNat : ℤ) < 256 ^ count := by
    have h := x.isLt
    rw [hn] at h
    exact_mod_cast h
  unfold packUnsigned
  rw [if_pos ⟨Int.natCast_nonneg _, hlt⟩]

theorem packUnsigned_u8 (x : BitVec 8) : packUnsigned error 1 x.toNat = .ok [x] := by
  rw [packUnsigned_toNat error 1 rfl, littleEndian_one, ofInt_natCast, ofNat_toNat, setWidth_eq]

theorem packUnsigned_u16 (x : BitVec 16) : packUnsigned error 2 x.toNat = .ok (writeU16 x) := by
  rw [packUnsigned_toNat error 2 rfl, littleEndian_two, ofInt_natCast, ofNat_toNat, setWidth_eq]

theorem packUnsigned_u32 (x : BitVec 32) : packUnsigned error 4 x.toNat = .ok (writeU32 x) := by
  rw [packUnsigned_toNat error 4 rfl, littleEndian_four, ofInt_natCast, ofNat_toNat, setWidth_eq]

theorem packSigned_i32 (x : BitVec 32) : packSigned error 4 x.toInt = .ok (writeU32 x) := by
  have hlow := le_toInt x
  have hhigh := toInt_lt (x := x)
  unfold packSigned
  rw [if_pos (by omega), littleEndian_four, ofInt_toInt]

end VisualCpu.ByteCodec
