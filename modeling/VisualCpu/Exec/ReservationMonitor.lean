import VisualCpu.Exec.GuestOps

/-!
# A monitor for load reservations

The monitor reads the log of memory events and keeps the last reservation until a
trap, a store-conditional or a write that the processor compares with it. When every
other write spares the reserved range, a reservation that the monitor still holds was
made by a load-reserved with no write to its range and no trap since.
-/

namespace VisualCpu

open List MemoryEvent

namespace MemoryEvent

/-- The write changes a byte of the reserved range, or its own bytes meet the range. -/
def Touches (r : Reservation) : MemoryEvent → Prop
  | .write _ _ addr size written =>
    rangesOverlap r.paddr r.size addr size ∨ ∃ a ∈ span r.paddr r.size, a ∈ written
  | _ => False

/-- The processor drops the reservation at the write. -/
def drops (r : Reservation) : MemoryEvent → Bool
  | .write .scalar _ addr size _ => rangesOverlap r.paddr r.size addr size
  | .write .readModifyWrite _ addr size _ => rangesOverlap r.paddr r.size addr size
  | .write .conditional _ _ _ _ => true
  | _ => false

/-- The reservation after an event. -/
def follow (r : Option Reservation) : MemoryEvent → Option Reservation
  | .reserve addr size => some ⟨addr, size⟩
  | .trap => none
  | .write agent cache addr size written =>
    r.filter fun r => !drops r (.write agent cache addr size written)

/-- The range that a store-conditional relies on. -/
def expects : MemoryEvent → Option Reservation
  | .write .conditional _ addr size _ => some ⟨addr, size⟩
  | _ => none

/-- The event is a write of one of the agents. -/
def By (agents : List WriteAgent) : MemoryEvent → Prop
  | .write agent _ _ _ _ => agent ∈ agents
  | _ => False

/-- A load-reserved of the range is in the log, and after it neither a trap nor a
write to the range. -/
def HeldAfter (log : List MemoryEvent) (r : Reservation) : Prop :=
  ∃ before since, log = before ++ .reserve r.paddr r.size :: since ∧
    ∀ e ∈ since, e ≠ .trap ∧ ¬ e.Touches r

def Held (log : List MemoryEvent) (r : Option Reservation) : Prop :=
  ∀ x, r = some x → HeldAfter log x

def SparesReservation : Option Reservation → List MemoryEvent → Prop
  | _, [] => True
  | r, e :: log =>
    (∀ x, r = some x → e.Touches x → drops x e) ∧ SparesReservation (follow r e) log

/-- Every store-conditional writes under the reservation of its range. -/
def Matched : Option Reservation → List MemoryEvent → Prop
  | _, [] => True
  | r, e :: log => (∀ x, e.expects = some x → r = some x) ∧ Matched (follow r e) log

/-- Less is reserved. -/
def Weaker (r r' : Option Reservation) : Prop := ∀ x, r = some x → r' = some x

theorem Weaker.refl (r : Option Reservation) : Weaker r r := fun _ h => h

theorem weaker_none (r : Option Reservation) : Weaker none r := by
  intro x hx
  cases hx

variable {r r' : Option Reservation} {e : MemoryEvent} {log log' : List MemoryEvent}

variable {x : Reservation} {agents : List WriteAgent}

theorem follow_eq_some (h : follow r e = some x) :
    e = .reserve x.paddr x.size ∨ (r = some x ∧ e ≠ .trap ∧ drops x e = false) := by
  cases e with
  | reserve addr size =>
    left
    cases h
    rfl
  | trap => cases h
  | write agent cache addr size written =>
    right
    obtain ⟨hr, hkept⟩ := Option.filter_eq_some_iff.1 h
    refine ⟨hr, nofun, ?_⟩
    simpa using hkept

theorem Weaker.follow (h : Weaker r r') (e : MemoryEvent) : Weaker (follow r e) (follow r' e) := by
  intro x hx
  cases e with
  | reserve addr size => exact hx
  | trap => exact hx
  | write agent cache addr size written =>
    obtain ⟨hr, hkept⟩ := Option.filter_eq_some_iff.1 hx
    exact Option.filter_eq_some_iff.2 ⟨h x hr, hkept⟩

theorem Weaker.foldl (h : Weaker r r') (log : List MemoryEvent) :
    Weaker (log.foldl MemoryEvent.follow r) (log.foldl MemoryEvent.follow r') := by
  induction log generalizing r r' with
  | nil => exact h
  | cons e log ih => exact ih (h.follow e)

theorem Matched.mono (hm : Matched r log) (h : Weaker r r') : Matched r' log := by
  induction log generalizing r r' with
  | nil => trivial
  | cons e log ih => exact ⟨fun x hx => h x (hm.1 x hx), ih hm.2 (h.follow e)⟩

theorem matched_append :
    Matched r (log ++ log') ↔ Matched r log ∧ Matched (log.foldl follow r) log' := by
  induction log generalizing r with
  | nil => simp [Matched]
  | cons e log ih => simp only [List.cons_append, Matched, ih, foldl_cons, and_assoc]

theorem By.passive (h : e.By agents)
    (hagents : ∀ agent ∈ agents, agent = .walker ∨ agent = .vector ∨ agent = .dma)
    (r : Option Reservation) : follow r e = r ∧ e.expects = none := by
  cases e with
  | reserve addr size => exact h.elim
  | trap => exact h.elim
  | write agent cache addr size written =>
    refine ⟨?_, ?_⟩
    · cases r with
      | none => rfl
      | some x => rcases hagents agent h with rfl | rfl | rfl <;> rfl
    · rcases hagents agent h with rfl | rfl | rfl <;> rfl

/-- The reservation goes from one value to another along a log, never keeping more than
the monitor does. -/
structure Tracks (r : Option Reservation) (log : List MemoryEvent) (r' : Option Reservation) :
    Prop where
  held : Weaker r' (log.foldl follow r)
  matched : Matched r log

theorem Tracks.nil (r : Option Reservation) : Tracks r [] r := ⟨.refl r, trivial⟩

theorem Tracks.append {r'' : Option Reservation} (h : Tracks r log r') (h' : Tracks r' log' r'') :
    Tracks r (log ++ log') r'' := by
  refine ⟨?_, matched_append.2 ⟨h.matched, h'.matched.mono h.held⟩⟩
  rw [foldl_append]
  intro x hx
  exact h.held.foldl log' x (h'.held x hx)

theorem Matched.trap (h : Matched r log) : Tracks r (log ++ [.trap]) none := by
  refine ⟨weaker_none _, matched_append.2 ⟨h, ?_, trivial⟩⟩
  intro x hx
  cases hx

theorem Tracks.passive
    (hagents : ∀ agent ∈ agents, agent = .walker ∨ agent = .vector ∨ agent = .dma)
    (hlog : ∀ e ∈ log, e.By agents) (r : Option Reservation) : Tracks r log r := by
  induction log with
  | nil => exact .nil r
  | cons e log ih =>
    obtain ⟨hfollow, hexpects⟩ := (hlog e mem_cons_self).passive hagents r
    have hrest := ih fun e' he' => hlog e' (mem_cons_of_mem _ he')
    refine ⟨?_, ?_, ?_⟩
    · rw [foldl_cons, hfollow]
      exact hrest.held
    · intro x hx
      rw [hexpects] at hx
      cases hx
    · rw [hfollow]
      exact hrest.matched

theorem HeldAfter.snoc (h : HeldAfter log x) (htrap : e ≠ .trap)
    (hspares : ¬ e.Touches x) : HeldAfter (log ++ [e]) x := by
  obtain ⟨before, since, rfl, hsince⟩ := h
  refine ⟨before, since ++ [e], by simp, fun e' he' => ?_⟩
  rcases mem_append.1 he' with hold | hnew
  · exact hsince e' hold
  obtain rfl := mem_singleton.1 hnew
  exact ⟨htrap, hspares⟩

theorem Held.follow (h : Held log r) (hspares : ∀ x, r = some x → e.Touches x → drops x e) :
    Held (log ++ [e]) (follow r e) := by
  intro x hx
  rcases follow_eq_some hx with rfl | ⟨hr, htrap, hkept⟩
  · exact ⟨log, [], rfl, nofun⟩
  apply (h x hr).snoc htrap
  intro htouches
  rw [hspares x hr htouches] at hkept
  cases hkept

theorem Held.foldl (h : Held log r) (hspares : SparesReservation r log') :
    Held (log ++ log') (log'.foldl MemoryEvent.follow r) := by
  induction log' generalizing log r with
  | nil =>
    rw [append_nil]
    exact h
  | cons e rest ih =>
    have hrest := ih (h.follow hspares.1) hspares.2
    rw [List.append_assoc] at hrest
    exact hrest

theorem Held.weaken (h : Held log r') (hw : Weaker r r') : Held log r := fun x hx => h x (hw x hx)

theorem Matched.held (hm : Matched r log') (h : Held log r) (hspares : SparesReservation r log')
    {before after : List MemoryEvent} (hlog : log' = before ++ e :: after)
    (hx : e.expects = some x) : HeldAfter (log ++ before) x := by
  induction before generalizing log log' r with
  | nil =>
    subst hlog
    rw [append_nil]
    exact h x (hm.1 x hx)
  | cons first before ih =>
    subst hlog
    have hrest := ih hm.2 (h.follow hspares.1) hspares.2 rfl
    rw [List.append_assoc] at hrest
    exact hrest

end MemoryEvent

end VisualCpu
