import Mathlib.Data.List.Basic

/-!
# The input pump of the terminal

`createTerminalInputPump` sends the text that is typed in batches, one at a time. Other code runs
between its events only: in a callback, at the `await` of a batch and between two microtasks. A
promise settles when the rest of its `flushQueue` runs, and no callback throws.
-/

namespace VisualCpu

open List

/-- What is seen of a pump besides its pending flag. A batch has the number of those before it. -/
inductive PumpEntry where
  | enqueued (text : List Char)
  | reset
  | sent (number : ℕ) (batch : List Char)
  | delivered (number : ℕ) (failed : Bool)

/-- A `flushQueue` at its `await`, or in the callback for a settled promise. -/
structure PumpFlight where
  (number requestGeneration : ℕ)
  settled : Bool

/-- A pump, with the calls of `enqueue` that are in `onPendingChange`, the microtasks that are
queued, the running `flushQueue` calls, and what was seen of it, the newest first. -/
structure TerminalInputPump where
  queuedText : List Char := []
  inFlight : Bool := false
  flushScheduled : Bool := false
  generation : ℕ := 0
  pending : Bool := false
  enqueueing : ℕ := 0
  microtasks : ℕ := 0
  flights : List PumpFlight := []
  batches : ℕ := 0
  log : List PumpEntry := []
  pendingChanges : List Bool := []

/-- `schedule` ends an `enqueue`, `flush` is a microtask, `settle` the end of an `await` with its
callback, and `resume` what follows. -/
inductive PumpEvent where
  | enqueue (text : List Char)
  | schedule | reset | flush
  | settle (i : ℕ) (failed : Bool)
  | resume (i : ℕ)

namespace TerminalInputPump

variable (pump : TerminalInputPump)

def setPending (nextPending : Bool) : TerminalInputPump :=
  if pump.pending = nextPending then pump
  else { pump with pending := nextPending, pendingChanges := nextPending :: pump.pendingChanges }

/-- The loop of `flushQueue` up to its next `await` or its end. -/
def drain : TerminalInputPump :=
  if pump.queuedText = [] then pump.setPending false
  else
    { { pump with queuedText := [], inFlight := true }.setPending true with
      flights := pump.flights ++ [⟨pump.batches, pump.generation, false⟩]
      batches := pump.batches + 1
      log := .sent pump.batches pump.queuedText :: pump.log }

def enqueue (text : List Char) : TerminalInputPump :=
  if text = [] then pump
  else
    { pump with
      queuedText := pump.queuedText ++ text
      enqueueing := pump.enqueueing + 1
      log := .enqueued text :: pump.log }.setPending true

def scheduleFlush : TerminalInputPump :=
  if pump.flushScheduled then pump
  else { pump with flushScheduled := true, microtasks := pump.microtasks + 1 }

def reset : TerminalInputPump :=
  { pump with
    generation := pump.generation + 1
    queuedText := []
    log := .reset :: pump.log }.setPending false

def flushQueue : TerminalInputPump := if pump.inFlight then pump else pump.drain

/-- An event that is not possible changes nothing. -/
def step : PumpEvent → TerminalInputPump
  | .enqueue text => pump.enqueue text
  | .schedule =>
    if pump.enqueueing = 0 then pump
    else { pump with enqueueing := pump.enqueueing - 1 }.scheduleFlush
  | .reset => pump.reset
  | .flush =>
    if pump.microtasks = 0 then pump
    else { pump with microtasks := pump.microtasks - 1, flushScheduled := false }.flushQueue
  | .settle i failed =>
    match pump.flights[i]? with
    | some ⟨number, requestGeneration, false⟩ =>
      { pump with
        flights := pump.flights.set i ⟨number, requestGeneration, true⟩
        log :=
          if requestGeneration = pump.generation then .delivered number failed :: pump.log
          else pump.log }
    | _ => pump
  | .resume i =>
    match pump.flights[i]? with
    | some ⟨_, _, true⟩ =>
      { pump with inFlight := false, flights := pump.flights.eraseIdx i }.drain
    | _ => pump

def run (events : List PumpEvent) : TerminalInputPump := events.foldl step pump

end TerminalInputPump

namespace PumpEntry

/-- The part of a log after the last reset. -/
def sinceReset : List PumpEntry → List PumpEntry
  | [] => []
  | .reset :: _ => []
  | entry :: log => entry :: sinceReset log

def enqueuedText : List PumpEntry → List Char
  | [] => []
  | .enqueued text :: log => enqueuedText log ++ text
  | _ :: log => enqueuedText log

def sentText : List PumpEntry → List Char
  | [] => []
  | .sent _ batch :: log => sentText log ++ batch
  | _ :: log => sentText log

/-- The numbers of the batches of a log. -/
def sentNumbers (log : List PumpEntry) : List ℕ :=
  log.filterMap fun
    | .sent number _ => some number
    | _ => none

/-- Every answer that is delivered is for a batch that was sent since the last reset. -/
def NoneStale : List PumpEntry → Prop
  | [] => True
  | .delivered number _ :: log => number ∈ sentNumbers (sinceReset log) ∧ NoneStale log
  | _ :: log => NoneStale log

end PumpEntry

namespace TerminalInputPump

open PumpEntry

/-- Text is sent once and in order, and none is left behind. -/
structure Sound (pump : TerminalInputPump) : Prop where
  single : pump.flights.length ≤ 1
  numbers : (sentNumbers pump.log).Nodup
  text : enqueuedText (sinceReset pump.log) = sentText (sinceReset pump.log) ++ pump.queuedText
  delivered : NoneStale pump.log
  quiet : pump.flights = [] → pump.microtasks = 0 → pump.enqueueing = 0 → pump.queuedText = []
  pending : (pump.queuedText ≠ [] ∨
    ∃ flight ∈ pump.flights, flight.number ∈ sentNumbers (sinceReset pump.log)) →
    pump.pendingChanges.head? = some true

/-- What holds of a running `flushQueue`: its generation says whether its batch was sent since
the last reset. -/
structure Known (generation : ℕ) (pending : Bool) (log : List PumpEntry) (flight : PumpFlight) :
    Prop where
  generation_le : flight.requestGeneration ≤ generation
  current_iff : flight.requestGeneration = generation ↔
    flight.number ∈ sentNumbers (sinceReset log)
  pending : flight.requestGeneration = generation → pending

structure Core (pump : TerminalInputPump) : Prop where
  flights : pump.flights.length = if pump.inFlight then 1 else 0
  known : ∀ flight ∈ pump.flights, Known pump.generation pump.pending pump.log flight
  microtasks : pump.flushScheduled → 0 < pump.microtasks
  numbers : ∀ number ∈ sentNumbers pump.log, number < pump.batches
  distinct : (sentNumbers pump.log).Nodup
  text : enqueuedText (sinceReset pump.log) = sentText (sinceReset pump.log) ++ pump.queuedText
  delivered : NoneStale pump.log
  pendingText : pump.queuedText ≠ [] → pump.pending
  pendingChanges : pump.pendingChanges.head?.getD false = pump.pending

/-- Queued text is waited for by someone. -/
structure Invariant (pump : TerminalInputPump) : Prop extends Core pump where
  wakes : pump.queuedText ≠ [] →
    pump.inFlight ∨ pump.flushScheduled ∨ 0 < pump.enqueueing

variable {pump : TerminalInputPump}

theorem setPending_eq (h : pump.pendingChanges.head?.getD false = pump.pending)
    (nextPending : Bool) : ∃ changes, changes.head?.getD false = nextPending ∧
      pump.setPending nextPending =
        { pump with pending := nextPending, pendingChanges := changes } := by
  unfold setPending
  by_cases hsame : pump.pending = nextPending
  · subst hsame
    exact ⟨pump.pendingChanges, h, by rw [if_pos rfl]⟩
  · exact ⟨nextPending :: pump.pendingChanges, rfl, by rw [if_neg hsame]⟩

theorem Core.drain (h : Core pump) (hflights : pump.flights = []) : Invariant pump.drain := by
  unfold TerminalInputPump.drain
  by_cases hempty : pump.queuedText = []
  · obtain ⟨changes, hchanges, hpump⟩ := setPending_eq h.pendingChanges false
    rw [if_pos hempty, hpump]
    refine ⟨⟨h.flights, ?_, h.microtasks, h.numbers, h.distinct, h.text, h.delivered, ?_,
      hchanges⟩, ?_⟩
    · dsimp only
      rw [hflights]
      exact fun _ hmem => absurd hmem not_mem_nil
    · exact fun hne => absurd hempty hne
    · exact fun hne => absurd hempty hne
  · obtain ⟨changes, hchanges, hpump⟩ := @setPending_eq
      { pump with queuedText := [], inFlight := true } h.pendingChanges true
    rw [if_neg hempty, hpump]
    have hnumbers : sentNumbers (.sent pump.batches pump.queuedText :: pump.log) =
      pump.batches :: sentNumbers pump.log := rfl
    refine ⟨⟨?_, ?_, h.microtasks, ?_, ?_, ?_, h.delivered, fun _ => rfl, hchanges⟩,
      fun hne => absurd rfl hne⟩
    · dsimp only
      rw [hflights]
      rfl
    · dsimp only
      rw [hflights]
      intro flight hmem
      obtain rfl := mem_singleton.1 hmem
      exact ⟨Nat.le_refl _, ⟨fun _ => mem_cons_self, fun _ => rfl⟩, fun _ => rfl⟩
    · dsimp only
      rw [hnumbers]
      intro number hmem
      rcases mem_cons.1 hmem with rfl | hmem
      · exact Nat.lt_succ_self _
      · exact Nat.lt_succ_of_lt (h.numbers number hmem)
    · dsimp only
      rw [hnumbers]
      exact nodup_cons.2 ⟨fun hmem => Nat.lt_irrefl _ (h.numbers _ hmem), h.distinct⟩
    · simp only [sinceReset, enqueuedText, sentText, append_nil]
      exact h.text

theorem Core.flight_eq (h : Core pump) {i : ℕ} {flight : PumpFlight}
    (hflight : pump.flights[i]? = some flight) : pump.flights = [flight] ∧ i = 0 := by
  have hlength := h.flights
  obtain ⟨hlt, hget⟩ := List.getElem?_eq_some_iff.1 hflight
  split at hlength
  · obtain ⟨only, honly⟩ := length_eq_one_iff.1 hlength
    obtain rfl : i = 0 := by omega
    simp only [honly, getElem_cons_zero] at hget
    exact ⟨by rw [honly, hget], rfl⟩
  · omega

namespace Invariant

variable (h : Invariant pump)

include h

theorem enqueue (text : List Char) : Invariant (pump.enqueue text) := by
  unfold TerminalInputPump.enqueue
  by_cases hempty : text = []
  · rw [if_pos hempty]
    exact h
  obtain ⟨changes, hchanges, hpump⟩ := @setPending_eq
    { pump with
      queuedText := pump.queuedText ++ text
      enqueueing := pump.enqueueing + 1
      log := .enqueued text :: pump.log } h.pendingChanges true
  rw [if_neg hempty, hpump]
  refine ⟨⟨h.flights, fun flight hmem => ?_, h.microtasks, h.numbers, h.distinct, ?_, h.delivered,
    fun _ => rfl, hchanges⟩, fun _ => .inr (.inr (Nat.succ_pos _))⟩
  · obtain ⟨hle, hcurrent, -⟩ := h.known flight hmem
    exact ⟨hle, hcurrent, fun _ => rfl⟩
  · simp only [sinceReset, enqueuedText, sentText, h.text, append_assoc]

theorem schedule : Invariant (pump.step .schedule) := by
  unfold step scheduleFlush
  dsimp only
  split_ifs with hnone hscheduled
  · exact h
  · exact ⟨⟨h.flights, h.known, h.microtasks, h.numbers, h.distinct, h.text, h.delivered,
      h.pendingText, h.pendingChanges⟩, fun _ => .inr (.inl hscheduled)⟩
  · exact ⟨⟨h.flights, h.known, fun _ => Nat.succ_pos _, h.numbers, h.distinct, h.text, h.delivered,
      h.pendingText, h.pendingChanges⟩, fun _ => .inr (.inl rfl)⟩

theorem reset : Invariant pump.reset := by
  unfold TerminalInputPump.reset
  obtain ⟨changes, hchanges, hpump⟩ := @setPending_eq
    { pump with
      generation := pump.generation + 1
      queuedText := []
      log := .reset :: pump.log } h.pendingChanges false
  rw [hpump]
  refine ⟨⟨h.flights, fun flight hmem => ?_, h.microtasks, h.numbers, h.distinct, rfl, h.delivered,
    fun hne => absurd rfl hne, hchanges⟩, fun hne => absurd rfl hne⟩
  have hle := (h.known flight hmem).generation_le
  have hold : flight.requestGeneration ≠ pump.generation + 1 := by omega
  exact ⟨Nat.le_succ_of_le hle, ⟨fun hnew => absurd hnew hold, fun hin => absurd hin not_mem_nil⟩,
    fun hnew => absurd hnew hold⟩

theorem flush : Invariant (pump.step .flush) := by
  unfold step flushQueue
  dsimp only
  have hcore : Core
      { pump with microtasks := pump.microtasks - 1, flushScheduled := false } :=
    ⟨h.flights, h.known, fun hnone => (by cases hnone), h.numbers, h.distinct, h.text,
      h.delivered, h.pendingText, h.pendingChanges⟩
  split_ifs with hnone hbusy
  · exact h
  · exact ⟨hcore, fun _ => .inl hbusy⟩
  have hidle : pump.inFlight = false := by simpa using hbusy
  have hlength := h.flights
  rw [hidle] at hlength
  exact hcore.drain (length_eq_zero_iff.1 hlength)

theorem settle (i : ℕ) (failed : Bool) : Invariant (pump.step (.settle i failed)) := by
  unfold step
  dsimp only
  split
  · rename_i number requestGeneration hflight
    obtain ⟨hflights, rfl⟩ := h.flight_eq hflight
    obtain ⟨hle, hcurrent, hpending⟩ := h.known _ (mem_of_getElem? hflight)
    have hlength := h.flights
    rw [hflights] at hlength ⊢
    split_ifs with hnow
    · refine ⟨⟨hlength, fun flight hmem => ?_, h.microtasks, h.numbers, h.distinct, h.text,
        ⟨hcurrent.1 hnow, h.delivered⟩, h.pendingText, h.pendingChanges⟩, h.wakes⟩
      obtain rfl := mem_singleton.1 hmem
      exact ⟨hle, hcurrent, hpending⟩
    · refine ⟨⟨hlength, fun flight hmem => ?_, h.microtasks, h.numbers, h.distinct, h.text,
        h.delivered, h.pendingText, h.pendingChanges⟩, h.wakes⟩
      obtain rfl := mem_singleton.1 hmem
      exact ⟨hle, hcurrent, hpending⟩
  · exact h

theorem resume (i : ℕ) : Invariant (pump.step (.resume i)) := by
  unfold step
  dsimp only
  split
  · rename_i hflight
    obtain ⟨hflights, rfl⟩ := h.flight_eq hflight
    rw [hflights]
    refine Core.drain ⟨rfl, fun _ hmem => absurd hmem not_mem_nil, h.microtasks, h.numbers,
      h.distinct, h.text, h.delivered, h.pendingText, h.pendingChanges⟩ rfl
  · exact h

theorem step (event : PumpEvent) : Invariant (pump.step event) := by
  cases event with
  | enqueue text => exact h.enqueue text
  | schedule => exact h.schedule
  | reset => exact h.reset
  | flush => exact h.flush
  | settle i failed => exact h.settle i failed
  | resume i => exact h.resume i

theorem run (events : List PumpEvent) : Invariant (pump.run events) := by
  induction events generalizing pump with
  | nil => exact h
  | cons event events ih => exact ih (h.step event)

theorem sound : Sound pump := by
  have hlength := h.flights
  refine ⟨by rw [hlength]; split <;> omega, h.distinct, h.text, h.delivered,
    fun hflights hmicrotasks henqueueing => ?_, fun hwaits => ?_⟩
  · by_contra hne
    rcases h.wakes hne with hbusy | hscheduled | hcalls
    · rw [hflights, hbusy] at hlength
      cases hlength
    · have hpos := h.microtasks hscheduled
      omega
    · omega
  · have hpending : pump.pending := by
      rcases hwaits with hne | ⟨flight, hmem, hin⟩
      · exact h.pendingText hne
      have hknown := h.known flight hmem
      exact hknown.pending (hknown.current_iff.2 hin)
    have hlast := h.pendingChanges
    rw [hpending] at hlast
    cases hchanges : pump.pendingChanges.head? with
    | none =>
      rw [hchanges] at hlast
      cases hlast
    | some last =>
      rw [hchanges] at hlast
      exact congrArg some hlast

end Invariant

end TerminalInputPump

end VisualCpu
