import Mathlib.Tactic.Common

/-!
# Loops

A loop over the numbers below a bound whose body may stop with an error, a loop that takes
turns until it is done, and their invariant rules.
-/

namespace VisualCpu.Loops

variable {ε σ : Type}

def forLoop : ℕ → (ℕ → σ → Except ε σ) → σ → Except ε σ
  | 0, _, s => .ok s
  | n + 1, body, s =>
    match forLoop n body s with
    | .error e => .error e
    | .ok s => body n s

/-- A computation ends without an error, and its result has a property. -/
def Ends {α : Type} (x : Except ε α) (post : α → Prop) : Prop := ∃ a, x = .ok a ∧ post a

section

variable {α β : Type} {post : α → Prop} {x : Except ε α}

/-- Whether a computation that can be evaluated ends with a property that can be decided. -/
instance (x : Except ε α) (post : α → Prop) [DecidablePred post] : Decidable (Ends x post) :=
  match x with
  | .error _ => .isFalse fun ⟨_, h, _⟩ => (by cases h)
  | .ok a => decidable_of_iff (post a)
    ⟨fun h => ⟨a, rfl, h⟩, fun ⟨_, h, hpost⟩ => Except.ok.inj h ▸ hpost⟩

theorem Ends.ok {a : α} (h : post a) : Ends (.ok a : Except ε α) post :=
  ⟨a, rfl, h⟩

theorem Ends.mono {post post' : α → Prop} (h : Ends x post)
    (himp : ∀ a, post a → post' a) : Ends x post' := by
  obtain ⟨a, hx, ha⟩ := h
  exact ⟨a, hx, himp a ha⟩

theorem Ends.bind {f : α → Except ε β} {post' : β → Prop}
    (h : Ends x post) (hf : ∀ a, post a → Ends (f a) post') : Ends (x >>= f) post' := by
  obtain ⟨a, rfl, ha⟩ := h
  exact hf a ha

end

theorem forLoop_ends {n : ℕ} {body : ℕ → σ → Except ε σ} {inv : ℕ → σ → Prop}
    (hbody : ∀ i < n, ∀ s, inv i s → Ends (body i s) (inv (i + 1))) {s : σ} (hs : inv 0 s) :
    Ends (forLoop n body s) (inv n) := by
  induction n with
  | zero => exact .ok hs
  | succ n ih =>
    obtain ⟨middle, hloop, hmiddle⟩ := ih fun i hi => hbody i (Nat.lt_succ_of_lt hi)
    rw [forLoop, hloop]
    exact hbody n (Nat.lt_succ_self n) middle hmiddle

theorem forLoop_keeps {n : ℕ} {body : ℕ → σ → Except ε σ} {inv : σ → Prop}
    (hbody : ∀ i < n, ∀ s, inv s → Ends (body i s) inv) {s : σ} (hs : inv s) :
    Ends (forLoop n body s) inv :=
  @forLoop_ends _ _ n body (fun _ => inv) hbody s hs

section

variable {τ : Type}

def turnLoop (done : σ → Bool) (turn : σ → Option (σ × List τ)) :
    ℕ → σ → List τ → Option (Bool × σ × List τ)
  | 0, _, _ => none
  | fuel + 1, s, log =>
    if done s then some (true, s, log)
    else
      match turn s with
      | none => some (false, s, log)
      | some (s, out) => turnLoop done turn fuel s (log ++ out)

theorem turnLoop_ends {done : σ → Bool} {turn : σ → Option (σ × List τ)}
    {inv : σ → List τ → Prop} {measure : σ → ℕ}
    (hturn : ∀ s log, inv s log → done s = false →
      ∃ s' out, turn s = some (s', out) ∧ inv s' (log ++ out) ∧ measure s' < measure s)
    {s : σ} {log : List τ} (hs : inv s log) :
    ∃ s' log', inv s' log' ∧ done s' ∧
      ∀ fuel > measure s, turnLoop done turn fuel s log = some (true, s', log') := by
  induction hmeasure : measure s using Nat.strongRecOn generalizing s log with
  | ind n ih =>
    cases hdone : done s with
    | true =>
      refine ⟨s, log, hs, hdone, ?_⟩
      intro fuel hfuel
      obtain ⟨fuel, rfl⟩ := Nat.exists_eq_succ_of_ne_zero (Nat.ne_zero_of_lt hfuel)
      rw [turnLoop, if_pos hdone]
    | false =>
      obtain ⟨middle, out, hmiddle, hinv, hlt⟩ := hturn s log hs hdone
      obtain ⟨s', log', hs', hdone', hloop⟩ := ih _ (hmeasure ▸ hlt) hinv rfl
      refine ⟨s', log', hs', hdone', ?_⟩
      intro fuel hfuel
      obtain ⟨fuel, rfl⟩ := Nat.exists_eq_succ_of_ne_zero (Nat.ne_zero_of_lt hfuel)
      rw [turnLoop, if_neg (by simp [hdone]), hmiddle]
      exact hloop fuel (by omega)

end

theorem index_lt {rows cols row col : ℕ} (hrow : row < rows) (hcol : col < cols) :
    row * cols + col < rows * cols :=
  calc row * cols + col < row * cols + cols := Nat.add_lt_add_left hcol _
    _ = (row + 1) * cols := (Nat.succ_mul row cols).symm
    _ ≤ rows * cols := Nat.mul_le_mul_right cols hrow

end VisualCpu.Loops

/-!
## Sequences of checks

Validation in the `Except` monad: a check passes or fails with an error, and a sequence of
checks passes exactly when each of them does.
-/

namespace VisualCpu.Checks

variable {ε α β : Type}

def check (condition : Prop) [Decidable condition] (error : ε) : Except ε Unit :=
  if condition then .ok () else .error error

@[simp] theorem check_eq_ok {condition : Prop} [Decidable condition] {error : ε} {u : Unit} :
    check condition error = .ok u ↔ condition := by
  unfold check
  split_ifs with h <;> simp [h]

theorem bind_eq_ok {x : Except ε α} {f : α → Except ε β} {b : β} :
    x >>= f = .ok b ↔ ∃ a, x = .ok a ∧ f a = .ok b := by
  cases x with
  | error e => simp [bind, Except.bind]
  | ok a => simp [bind, Except.bind]

@[simp] theorem seq_eq_ok {x : Except ε Unit} {f : Unit → Except ε β} {b : β} :
    x >>= f = .ok b ↔ x = .ok () ∧ f () = .ok b := by
  rw [bind_eq_ok]
  constructor
  · rintro ⟨a, hx, hf⟩
    exact ⟨hx, hf⟩
  rintro ⟨hx, hf⟩
  exact ⟨(), hx, hf⟩

def checkAll (f : α → Except ε Unit) : List α → Except ε Unit
  | [] => .ok ()
  | x :: rest => do
    f x
    checkAll f rest

@[simp] theorem checkAll_eq_ok {f : α → Except ε Unit} {xs : List α} {u : Unit} :
    checkAll f xs = .ok u ↔ ∀ x ∈ xs, f x = .ok () := by
  induction xs with
  | nil => simp [checkAll]
  | cons x rest ih => simp [checkAll, ih]

end VisualCpu.Checks
