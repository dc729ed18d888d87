import Mathlib.Data.BitVec

/-!
# Little-endian records

Readers of records at a position of a byte string. A read that lies outside the string is
refused with an error of its reader; an access outside the string would be a different
outcome, which no reader built from the ones here has. What is written for a value is read
back as that value, wherever it stands in a string.
-/

namespace VisualCpu.ByteCodec

open BitVec List

abbrev Bytes := List (BitVec 8)

/-- How a reader fails: with an error of the format, or by an access outside the string. -/
inductive Failure (ε : Type) where
  | refused (error : ε)
  | outside
deriving DecidableEq

/-- A reader takes the string and a position and returns the position after what it read. -/
def Reader (ε α : Type) := Bytes → ℕ → Except (Failure ε) (α × ℕ)

variable {ε α β : Type}

namespace Reader

instance : Monad (Reader ε) where
  pure x := fun _ pos => .ok (x, pos)
  bind r f := fun bytes pos =>
    match r bytes pos with
    | .error failure => .error failure
    | .ok (x, next) => f x bytes next

theorem bind_apply (r : Reader ε α) (f : α → Reader ε β) (bytes : Bytes) (pos : ℕ) :
    (r >>= f) bytes pos =
      match r bytes pos with
      | .error failure => .error failure
      | .ok (x, next) => f x bytes next := rfl

def refuse (error : ε) : Reader ε α := fun _ _ => .error (.refused error)

/-- Refuses unless the condition holds. -/
def require (condition : Prop) [Decidable condition] (error : ε) : Reader ε Unit :=
  if condition then pure () else refuse error

/-- The byte at a position, without a check. -/
def access (bytes : Bytes) (pos : ℕ) : Except (Failure ε) (BitVec 8) :=
  match bytes[pos]? with
  | none => .error .outside
  | some byte => .ok byte

end Reader

open Reader

def readU8 (error : ε) : Reader ε (BitVec 8) := fun bytes pos =>
  if pos + 1 > bytes.length then .error (.refused error)
  else do
    let b₀ ← access bytes pos
    .ok (b₀, pos + 1)

def readU16 (error : ε) : Reader ε (BitVec 16) := fun bytes pos =>
  if pos + 2 > bytes.length then .error (.refused error)
  else do
    let b₀ ← access bytes pos
    let b₁ ← access bytes (pos + 1)
    .ok (b₀.setWidth 16 ||| b₁.setWidth 16 <<< 8, pos + 2)

def readU32 (error : ε) : Reader ε (BitVec 32) := fun bytes pos =>
  if pos + 4 > bytes.length then .error (.refused error)
  else do
    let b₀ ← access bytes pos
    let b₁ ← access bytes (pos + 1)
    let b₂ ← access bytes (pos + 2)
    let b₃ ← access bytes (pos + 3)
    .ok (b₀.setWidth 32 ||| b₁.setWidth 32 <<< 8 ||| b₂.setWidth 32 <<< 16 |||
      b₃.setWidth 32 <<< 24, pos + 4)

def readMany (r : Reader ε α) : ℕ → Reader ε (List α)
  | 0 => pure []
  | n + 1 => do
    let x ← r
    let rest ← readMany r n
    pure (x :: rest)

def writeU16 (value : BitVec 16) : Bytes := [value.setWidth 8, (value >>> 8).setWidth 8]

def writeU32 (value : BitVec 32) : Bytes :=
  [value.setWidth 8, (value >>> 8).setWidth 8, (value >>> 16).setWidth 8,
    (value >>> 24).setWidth 8]

variable (value : BitVec 16) {write : α → Bytes}

@[simp] theorem length_writeU16 : (writeU16 value).length = 2 := rfl

@[simp] theorem length_writeU32 (value : BitVec 32) : (writeU32 value).length = 4 := rfl

theorem length_flatMap_const {n : ℕ} (h : ∀ x, (write x).length = n)
    (xs : List α) : (xs.flatMap write).length = xs.length * n := by
  induction xs with
  | nil => simp
  | cons x rest ih =>
    rw [flatMap_cons, length_append, h, ih, length_cons, Nat.add_mul, Nat.one_mul,
      Nat.add_comm]

/-- The reader accesses no byte outside the string. -/
def Inside (r : Reader ε α) : Prop := ∀ bytes pos, r bytes pos ≠ .error .outside

variable {bytes : Bytes} {pos : ℕ}

theorem access_of_lt (h : pos < bytes.length) :
    (access bytes pos : Except (Failure ε) _) = .ok bytes[pos] := by
  rw [access, List.getElem?_eq_getElem h]

@[simp] theorem inside_pure (x : α) : Inside (pure x : Reader ε α) := by
  intro bytes pos h
  cases h

variable {r : Reader ε α} {f : α → Reader ε β}

@[simp] theorem Inside.bind (hr : Inside r)
    (hf : ∀ x, Inside (f x)) : Inside (r >>= f) := by
  intro bytes pos h
  rw [bind_apply] at h
  cases hread : r bytes pos with
  | error failure =>
    rw [hread] at h
    cases h
    exact hr bytes pos hread
  | ok result =>
    rw [hread] at h
    exact hf result.1 bytes result.2 h

variable (error : ε) {written : Bytes} {x : α}

@[simp] theorem Inside.require (condition : Prop) [Decidable condition] :
    Inside (Reader.require condition error) := by
  intro bytes pos h
  unfold Reader.require at h
  split_ifs at h
  cases h

@[simp] theorem inside_readU8 : Inside (readU8 error) := by
  intro bytes pos h
  unfold readU8 at h
  split_ifs at h with hlen
  · cases h
  rw [access_of_lt (by omega)] at h
  cases h

@[simp] theorem inside_readU16 : Inside (readU16 error) := by
  intro bytes pos h
  unfold readU16 at h
  split_ifs at h with hlen
  · cases h
  rw [access_of_lt (by omega), access_of_lt (by omega)] at h
  cases h

@[simp] theorem inside_readU32 : Inside (readU32 error) := by
  intro bytes pos h
  unfold readU32 at h
  split_ifs at h with hlen
  · cases h
  rw [access_of_lt (by omega), access_of_lt (by omega), access_of_lt (by omega),
    access_of_lt (by omega)] at h
  cases h

@[simp] theorem Inside.readMany (hr : Inside r) (n : ℕ) : Inside (ByteCodec.readMany r n) := by
  induction n with
  | zero => exact inside_pure []
  | succ n ih => exact hr.bind fun x => ih.bind fun rest => inside_pure _

theorem length_of_readMany {n : ℕ} {pos next : ℕ} {xs : List α}
    (h : readMany r n bytes pos = .ok (xs, next)) : xs.length = n := by
  induction n generalizing pos next xs with
  | zero =>
    obtain ⟨rfl, -⟩ := Prod.mk.inj (Except.ok.inj h)
    rfl
  | succ n ih =>
    rw [readMany, bind_apply] at h
    cases hfirst : r bytes pos with
    | error failure =>
      rw [hfirst] at h
      cases h
    | ok first =>
      rw [hfirst] at h
      dsimp only at h
      rw [bind_apply] at h
      cases hrest : readMany r n bytes first.2 with
      | error failure =>
        rw [hrest] at h
        cases h
      | ok rest =>
        rw [hrest] at h
        obtain ⟨rfl, -⟩ := Prod.mk.inj (Except.ok.inj h)
        rw [length_cons, ih hrest]

def Reads (r : Reader ε α) (written : Bytes) (x : α) : Prop :=
  ∀ before after, r (before ++ written ++ after) before.length =
    .ok (x, before.length + written.length)

theorem reads_pure (x : α) : Reads (pure x : Reader ε α) [] x := by
  intro before after
  simp [pure]

theorem Reads.bind {written written' : Bytes} {y : β}
    (hr : Reads r written x) (hf : Reads (f x) written' y) :
    Reads (r >>= f) (written ++ written') y := by
  intro before after
  have hfirst := hr before (written' ++ after)
  have hsecond := hf (before ++ written) after
  simp only [List.append_assoc, List.length_append] at hfirst hsecond
  rw [bind_apply]
  simp only [List.append_assoc, hfirst, hsecond, List.length_append, Nat.add_assoc]

/-- A last step that reads nothing. -/
theorem Reads.last {y : β}
    (hr : Reads r written x) (hf : Reads (f x) [] y) : Reads (r >>= f) written y := by
  have hboth := hr.bind hf
  rwa [append_nil] at hboth

theorem Reads.require {condition : Prop} [Decidable condition] (h : condition) (error : ε)
    (hr : Reads r written x) :
    Reads (Reader.require condition error >>= fun _ => r) written x := by
  rw [Reader.require, if_pos h]
  exact (reads_pure ()).bind hr

theorem reads_readU8 (value : BitVec 8) : Reads (readU8 error) [value] value := by
  intro before after
  unfold readU8
  rw [if_neg (by simp), access_of_lt (by simp)]
  simp [bind, Except.bind]

theorem join_byte {w : ℕ} (value : BitVec w) (k : ℕ) :
    (value.setWidth k).setWidth w ||| ((value >>> k).setWidth 8).setWidth w <<< k =
      (value.setWidth (k + 8)).setWidth w := by
  apply eq_of_getLsbD_eq
  intro i hi
  by_cases hlow : i < k
  · have hbelow : i < k + 8 := by omega
    simp [hlow, hi, hbelow]
  have hadd : k + (i - k) = i := by omega
  have hwide : i - k < w := by omega
  have hbyte : i - k < 8 ↔ i < k + 8 := by omega
  simp [hlow, hi, hadd, hwide, hbyte]

theorem joinU16 :
    (value.setWidth 8).setWidth 16 ||| ((value >>> 8).setWidth 8).setWidth 16 <<< 8 = value := by
  rw [join_byte value 8]
  simp

theorem joinU32 (value : BitVec 32) :
    (value.setWidth 8).setWidth 32 ||| ((value >>> 8).setWidth 8).setWidth 32 <<< 8 |||
      ((value >>> 16).setWidth 8).setWidth 32 <<< 16 |||
      ((value >>> 24).setWidth 8).setWidth 32 <<< 24 = value := by
  rw [join_byte value 8, join_byte value 16, join_byte value 24]
  simp

theorem reads_readU16 : Reads (readU16 error) (writeU16 value) value := by
  intro before after
  have hlen : (before ++ writeU16 value ++ after).length = before.length + 2 + after.length := by
    simp [Nat.add_assoc]
  unfold readU16
  rw [if_neg (by omega), access_of_lt (by omega), access_of_lt (by omega)]
  simp [bind, Except.bind, writeU16, joinU16]

theorem reads_readU32 (value : BitVec 32) : Reads (readU32 error) (writeU32 value) value := by
  intro before after
  have hlen : (before ++ writeU32 value ++ after).length = before.length + 4 + after.length := by
    simp [Nat.add_assoc]
  unfold readU32
  rw [if_neg (by omega), access_of_lt (by omega), access_of_lt (by omega),
    access_of_lt (by omega), access_of_lt (by omega)]
  simp [bind, Except.bind, writeU32, joinU32]

theorem Reads.readMany (hr : ∀ x, Reads r (write x) x)
    (xs : List α) : Reads (ByteCodec.readMany r xs.length) (xs.flatMap write) xs := by
  induction xs with
  | nil => exact reads_pure []
  | cons x rest ih => exact (hr x).bind (ih.last (reads_pure (x :: rest)))

theorem Reads.at (h : Reads r written x) (before : Bytes)
    (hbytes : ∃ after, bytes = before ++ (written ++ after)) (hpos : pos = before.length) :
    ∃ next, r bytes pos = .ok (x, next) := by
  obtain ⟨after, hbytes⟩ := hbytes
  have hread := h before after
  rw [List.append_assoc, ← hbytes, ← hpos] at hread
  exact ⟨_, hread⟩

/-- The result is not an access outside the string. -/
def Contained (result : Except (Failure ε) α) : Prop := result ≠ .error .outside

theorem Contained.bind {result : Except (Failure ε) α} {f : α → Except (Failure ε) β}
    (hresult : Contained result) (hf : ∀ x, Contained (f x)) : Contained (result >>= f) := by
  cases result with
  | error failure =>
    intro h
    cases h
    exact hresult rfl
  | ok x => exact hf x

theorem contained_ok (x : α) : Contained (.ok x : Except (Failure ε) α) := by
  intro h
  cases h

end VisualCpu.ByteCodec
