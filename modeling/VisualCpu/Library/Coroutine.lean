import Mathlib.Tactic.Common

/-!
# Coroutines over a shared state

A program that changes a shared state in atomic steps and gives up control while it waits for
the answer to a request. Two rules are offered: what every atomic step keeps whatever the
others do, and a rely-guarantee judgement for what holds at each wait and at the end.
-/

namespace VisualCpu

/-- `σ` is the state, `ρ` the requests, `η` their answers and `ε` the errors. -/
inductive Coroutine (σ ρ η ε α : Type)
  | ret (a : α)
  | raise (e : ε)
  | sync (f : σ → σ) (k : σ → Coroutine σ ρ η ε α)
  | await (r : ρ) (k : Except ε η → Coroutine σ ρ η ε α)

/-- Where a program stops: at its end or at a wait. -/
inductive Stopped (σ ρ η ε α : Type)
  | done (result : Except ε α)
  | waiting (r : ρ) (k : Except ε η → Coroutine σ ρ η ε α)

namespace Coroutine

variable {σ ρ η ε α β : Type} {p : Coroutine σ ρ η ε α} {s s' : σ}

protected def bind : Coroutine σ ρ η ε α → (α → Coroutine σ ρ η ε β) → Coroutine σ ρ η ε β
  | .ret a, g => g a
  | .raise e, _ => .raise e
  | .sync f k, g => .sync f fun s => (k s).bind g
  | .await r k, g => .await r fun x => (k x).bind g

protected def tryCatch :
    Coroutine σ ρ η ε α → (ε → Coroutine σ ρ η ε α) → Coroutine σ ρ η ε α
  | .ret a, _ => .ret a
  | .raise e, handler => handler e
  | .sync f k, handler => .sync f fun s => (k s).tryCatch handler
  | .await r k, handler => .await r fun x => (k x).tryCatch handler

instance : Monad (Coroutine σ ρ η ε) where
  pure := .ret
  bind := .bind

/-- The state as it stands. -/
def get : Coroutine σ ρ η ε σ := .sync (fun s => s) .ret

def modify (f : σ → σ) : Coroutine σ ρ η ε Unit := .sync f fun _ => .ret ()

/-- A request whose failure is thrown. -/
def call (r : ρ) : Coroutine σ ρ η ε η :=
  .await r fun
    | .ok x => .ret x
    | .error e => .raise e

def advance : Coroutine σ ρ η ε α → σ → σ × Stopped σ ρ η ε α
  | .ret a, s => (s, .done (.ok a))
  | .raise e, s => (s, .done (.error e))
  | .sync f k, s => (k s).advance (f s)
  | .await r k, s => (s, .waiting r k)

/-- A sequence runs its second part once the first has returned. -/
theorem advance_bind (p : Coroutine σ ρ η ε α) (g : α → Coroutine σ ρ η ε β) (s : σ) :
    (p >>= g).advance s =
      match p.advance s with
      | (s, .done (.ok a)) => (g a).advance s
      | (s, .done (.error e)) => (s, .done (.error e))
      | (s, .waiting r k) => (s, .waiting r fun x => k x >>= g) := by
  induction p generalizing s with
  | ret a => rfl
  | raise e => rfl
  | sync f k ih => exact ih s (f s)
  | await r k ih => rfl

theorem advance_bind_done {a : α}
    (h : p.advance s = (s', .done (.ok a))) (g : α → Coroutine σ ρ η ε β) :
    (p >>= g).advance s = (g a).advance s' := by
  rw [advance_bind, h]

theorem advance_bind_waiting {r : ρ}
    {k : Except ε η → Coroutine σ ρ η ε α} (h : p.advance s = (s', .waiting r k))
    (g : α → Coroutine σ ρ η ε β) :
    (p >>= g).advance s = (s', .waiting r fun x => k x >>= g) := by
  rw [advance_bind, h]

@[simp] theorem advance_get (s : σ) :
    (get : Coroutine σ ρ η ε σ).advance s = (s, .done (.ok s)) := rfl

@[simp] theorem advance_modify (f : σ → σ) (s : σ) :
    (modify f : Coroutine σ ρ η ε Unit).advance s = (f s, .done (.ok ())) := rfl

@[simp] theorem advance_pure (a : α) (s : σ) :
    (pure a : Coroutine σ ρ η ε α).advance s = (s, .done (.ok a)) := rfl

/-- Every atomic step is in `R` and every request in `Q`, whatever the answers are. -/
def Every (R : σ → σ → Prop) (Q : ρ → Prop) : Coroutine σ ρ η ε α → Prop
  | .ret _ => True
  | .raise _ => True
  | .sync f k => (∀ s, R s (f s)) ∧ ∀ s, Every R Q (k s)
  | .await r k => Q r ∧ ∀ x, Every R Q (k x)

section Every

variable {R : σ → σ → Prop} {Q : ρ → Prop}

variable {p : Coroutine σ ρ η ε α}

theorem Every.bind {g : α → Coroutine σ ρ η ε β} (hp : Every R Q p)
    (hg : ∀ a, Every R Q (g a)) : Every R Q (p >>= g) := by
  induction p with
  | ret a => exact hg a
  | raise e => trivial
  | sync f k ih => exact ⟨hp.1, fun s => ih s (hp.2 s)⟩
  | await r k ih => exact ⟨hp.1, fun x => ih x (hp.2 x)⟩

theorem Every.tryCatch {handler : ε → Coroutine σ ρ η ε α}
    (hp : Every R Q p) (hhandler : ∀ e, Every R Q (handler e)) :
    Every R Q (p.tryCatch handler) := by
  induction p with
  | ret a => trivial
  | raise e => exact hhandler e
  | sync f k ih => exact ⟨hp.1, fun s => ih s (hp.2 s)⟩
  | await r k ih => exact ⟨hp.1, fun x => ih x (hp.2 x)⟩

theorem Every.get (hrefl : ∀ s, R s s) : Every R Q (get : Coroutine σ ρ η ε σ) :=
  ⟨hrefl, fun _ => trivial⟩

theorem Every.modify {f : σ → σ} (hf : ∀ s, R s (f s)) :
    Every R Q (modify f : Coroutine σ ρ η ε Unit) :=
  ⟨hf, fun _ => trivial⟩

theorem Every.call {r : ρ} (hr : Q r) : Every R Q (call r : Coroutine σ ρ η ε η) := by
  refine ⟨hr, fun x => ?_⟩
  cases x <;> trivial

theorem Every.ite {c : Prop} [Decidable c] {p q : Coroutine σ ρ η ε α} (hp : Every R Q p)
    (hq : Every R Q q) : Every R Q (if c then p else q) := by
  split
  · exact hp
  · exact hq

/-- What a program keeps, its run to the next stop keeps, and what remains keeps it too. -/
theorem Every.advance (hrefl : ∀ s, R s s) (htrans : ∀ s s' s'', R s s' → R s' s'' → R s s'')
    (hp : Every R Q p) (s : σ) :
    R s (p.advance s).1 ∧ ∀ r k, (p.advance s).2 = .waiting r k → Q r ∧ ∀ x, Every R Q (k x) := by
  induction p generalizing s with
  | ret a => exact ⟨hrefl s, fun r k h => by cases h⟩
  | raise e => exact ⟨hrefl s, fun r k h => by cases h⟩
  | sync f k ih =>
    obtain ⟨hrest, hwait⟩ := ih s (hp.2 s) (f s)
    exact ⟨htrans _ _ _ (hp.1 s) hrest, hwait⟩
  | await r k ih =>
    refine ⟨hrefl s, fun r' k' h => ?_⟩
    cases h
    exact hp

end Every

/-- From the state `s` the program waits only where `atWait` holds and ends only where `post`
holds, if the others change the state by `rely` while it waits. -/
def Holds (atWait : σ → Prop) (rely : σ → σ → Prop) (post : Except ε α → σ → Prop) :
    Coroutine σ ρ η ε α → σ → Prop
  | .ret a, s => post (.ok a) s
  | .raise e, s => post (.error e) s
  | .sync f k, s => Holds atWait rely post (k s) (f s)
  | .await _ k, s => atWait s ∧ ∀ x s', rely s s' → Holds atWait rely post (k x) s'

section Holds

variable {atWait : σ → Prop} {rely : σ → σ → Prop}

variable {p : Coroutine σ ρ η ε α} {s : σ} {post : Except ε α → σ → Prop}

theorem Holds.bind {post : Except ε β → σ → Prop} {g : α → Coroutine σ ρ η ε β}
    (h : Holds atWait rely (fun result s =>
      match result with
      | .ok a => Holds atWait rely post (g a) s
      | .error e => post (.error e) s) p s) :
    Holds atWait rely post (p >>= g) s := by
  induction p generalizing s with
  | ret a => exact h
  | raise e => exact h
  | sync f k ih => exact ih s h
  | await r k ih => exact ⟨h.1, fun x s' hs => ih x (h.2 x s' hs)⟩

theorem Holds.tryCatch {handler : ε → Coroutine σ ρ η ε α}
    (h : Holds atWait rely (fun result s =>
      match result with
      | .ok a => post (.ok a) s
      | .error e => Holds atWait rely post (handler e) s) p s) :
    Holds atWait rely post (p.tryCatch handler) s := by
  induction p generalizing s with
  | ret a => exact h
  | raise e => exact h
  | sync f k ih => exact ih s h
  | await r k ih => exact ⟨h.1, fun x s' hs => ih x (h.2 x s' hs)⟩

theorem Holds.mono {post post' : Except ε α → σ → Prop}
    (h : Holds atWait rely post p s) (himp : ∀ result s, post result s → post' result s) :
    Holds atWait rely post' p s := by
  induction p generalizing s with
  | ret a => exact himp _ _ h
  | raise e => exact himp _ _ h
  | sync f k ih => exact ih s h
  | await r k ih => exact ⟨h.1, fun x s' hs => ih x (h.2 x s' hs)⟩

theorem Holds.get {post : Except ε σ → σ → Prop} (h : post (.ok s) s) :
    Holds atWait rely post (get : Coroutine σ ρ η ε σ) s := h

theorem Holds.modify {post : Except ε Unit → σ → Prop} {f : σ → σ} (h : post (.ok ()) (f s)) :
    Holds atWait rely post (modify f : Coroutine σ ρ η ε Unit) s := h

theorem Holds.call {post : Except ε η → σ → Prop} {r : ρ} (hwait : atWait s)
    (hpost : ∀ x s', rely s s' → post x s') :
    Holds atWait rely post (call r : Coroutine σ ρ η ε η) s := by
  refine ⟨hwait, fun x s' hs => ?_⟩
  cases x with
  | ok x => exact hpost (.ok x) s' hs
  | error e => exact hpost (.error e) s' hs

/-- A program all of whose steps keep an invariant, which the others keep as well. -/
theorem Every.holds {R : σ → σ → Prop} {Q : ρ → Prop} {I : σ → Prop} (hp : Every R Q p)
    (hstep : ∀ s s', R s s' → I s → I s')
    (hrely : ∀ s s', rely s s' → I s → I s') (hwait : ∀ s, I s → atWait s) (hs : I s) :
    Holds atWait rely (fun _ s => I s) p s := by
  induction p generalizing s with
  | ret a => exact hs
  | raise e => exact hs
  | sync f k ih => exact ih s (hp.2 s) (hstep _ _ (hp.1 s) hs)
  | await r k ih => exact ⟨hwait s hs, fun x s' h => ih x (hp.2 x) (hrely _ _ h hs)⟩

/-- A judged program stands at its next stop as the judgement says. -/
theorem Holds.advance (h : Holds atWait rely post p s) :
    (∀ result, (p.advance s).2 = .done result → post result (p.advance s).1) ∧
      ∀ r k, (p.advance s).2 = .waiting r k → atWait (p.advance s).1 ∧
        ∀ x s', rely (p.advance s).1 s' → Holds atWait rely post (k x) s' := by
  induction p generalizing s with
  | ret a =>
    refine ⟨fun result hdone => ?_, fun r k hwait => by cases hwait⟩
    cases hdone
    exact h
  | raise e =>
    refine ⟨fun result hdone => ?_, fun r k hwait => by cases hwait⟩
    cases hdone
    exact h
  | sync f k ih => exact ih s h
  | await r k ih =>
    refine ⟨fun result hdone => (by cases hdone), fun r' k' hwait => ?_⟩
    cases hwait
    exact h

end Holds

end Coroutine

end VisualCpu
