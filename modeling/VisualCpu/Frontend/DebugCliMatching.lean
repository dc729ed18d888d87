import Mathlib.Data.List.Nodup
import VisualCpu.Frontend.DebugCliSession

/-!
# Responses are matched with their requests

Before the teardown the pending requests are the written ones that no line has answered, and
the lines received are the first answers of the child. Both are kept by every event.
-/

namespace VisualCpu

open List DebugCliSession DebugCliWorld

theorem scanLines_append (front xs ys : List Char) : scanLines front (xs ++ ys) =
      ((scanLines front xs).1 ++ (scanLines (scanLines front xs).2 ys).1,
        (scanLines (scanLines front xs).2 ys).2) := by
  induction xs generalizing front with
  | nil => simp [scanLines]
  | cons c xs ih =>
    rw [List.cons_append, scanLines, scanLines]
    by_cases hc : c = '\n'
    · simp [hc, ih]
    · rw [if_neg hc, if_neg hc, ih]

theorem scanLines_newlineFree (front line : List Char) (hline : '\n' ∉ line) :
    scanLines front line = ([], front ++ line) := by
  induction line generalizing front with
  | nil => simp [scanLines]
  | cons c line ih =>
    simp only [mem_cons, not_or] at hline
    rw [scanLines, if_neg (fun h => hline.1 h.symm), ih _ hline.2]
    simp

theorem newline_notMem_rest (front text : List Char) (hfront : '\n' ∉ front) :
    '\n' ∉ (scanLines front text).2 := by
  induction text generalizing front with
  | nil => exact hfront
  | cons c text ih =>
    rw [scanLines]
    by_cases hc : c = '\n'
    · rw [if_pos hc]
      exact ih [] (by simp)
    rw [if_neg hc]
    refine ih _ ?_
    simp only [mem_append, mem_singleton, not_or]
    exact ⟨hfront, fun h => hc h.symm⟩

theorem scanLines_rest (text part : List Char) :
    scanLines [] ((scanLines [] text).2 ++ part) = scanLines (scanLines [] text).2 part := by
  have hfree := newline_notMem_rest [] text (by simp)
  rw [scanLines_append, scanLines_newlineFree _ _ hfree]
  simp

theorem outputText_append (output : List (List Char)) (line : List Char) :
    outputText (output ++ [line]) = outputText output ++ (line ++ ['\n']) := by
  simp [outputText]

theorem scanLines_take_outputText (output : List (List Char)) (hfree : ∀ l ∈ output, '\n' ∉ l)
    (count : ℕ) : (scanLines [] ((outputText output).take count)).1 <+: output := by
  induction output generalizing count with
  | nil => simp [outputText, scanLines]
  | cons line output ih =>
    have hline : '\n' ∉ line := hfree line mem_cons_self
    have htext : outputText (line :: output) = line ++ '\n' :: outputText output := by
      simp [outputText]
    rw [htext, take_append, scanLines_append]
    have htake : '\n' ∉ line.take count := fun h => hline (mem_of_mem_take h)
    rw [scanLines_newlineFree _ _ htake]
    cases hcount : count - line.length with
    | zero => simp [scanLines]
    | succ more =>
      have hwhole : line.take count = line := take_of_length_le (by omega)
      simp only [hwhole, nil_append, take_succ_cons, scanLines, if_true]
      have hrest : ∀ l ∈ output, '\n' ∉ l := fun l hl => hfree l (mem_cons_of_mem _ hl)
      exact (prefix_cons_inj line).2 (ih hrest more)

namespace DebugCliSession

variable {Json : Type} (parse : List Char → Except String Json) (session : DebugCliSession Json)

theorem foldl_reject (error : String) (ids : List ℕ) :
    ids.foldl (fun session id => (session.clearTimeout id).settle id (.rejected error)) session =
      { session with
        timers := session.timers.filter fun timer => timer.1 ∉ ids
        settled := session.settled ++ ids.map fun id => (id, .rejected error) } := by
  induction ids generalizing session with
  | nil => simp
  | cons id ids ih =>
    rw [foldl_cons, ih]
    simp [clearTimeout, settle, filter_filter, Bool.and_comm]

theorem teardown_of_none (h : session.unavailableError = none) (error : String) :
    session.teardown error =
      { session with
        unavailableError := some error
        pending := []
        timers := session.timers.filter fun timer => timer.1 ∉ session.pending
        settled := session.settled ++ session.pending.map fun id => (id, .rejected error) } := by
  simp only [teardown, h, foldl_reject]

theorem teardown_of_some {first : String} (h : session.unavailableError = some first)
    (error : String) : session.teardown error = session := by
  simp only [teardown, h]

theorem foldl_flushLine (lines : List (List Char)) : lines.foldl (flushLine parse) session =
      { session with
        pending := session.pending.drop (answers lines).length
        timers := session.timers.filter fun timer =>
          timer.1 ∉ session.pending.take (answers lines).length
        settled := session.settled ++
          zipWith (fun id line => (id, lineSettlement parse line)) session.pending
            (answers lines) } := by
  induction lines generalizing session with
  | nil => simp [answers]
  | cons line lines ih =>
    rw [foldl_cons, ih]
    by_cases hblank : Blank line
    · have hanswers : answers (line :: lines) = answers lines := by simp [answers, hblank]
      simp [flushLine, hblank, hanswers]
    have hanswers : answers (line :: lines) = line :: answers lines := by
      simp [answers, hblank]
    rw [flushLine, if_neg hblank, hanswers]
    cases hpending : session.pending with
    | nil => simp [hpending]
    | cons id rest =>
      simp [clearTimeout, settle, filter_filter, Bool.and_comm]

theorem onData_eq (chunk : List Char) : session.onData parse chunk = { session with
        stdoutBuffer := (scanLines [] (session.stdoutBuffer ++ chunk)).2
        pending := session.pending.drop
          (answers (scanLines [] (session.stdoutBuffer ++ chunk)).1).length
        timers := session.timers.filter fun timer => timer.1 ∉ session.pending.take
          (answers (scanLines [] (session.stdoutBuffer ++ chunk)).1).length
        settled := session.settled ++
          zipWith (fun id line => (id, lineSettlement parse line)) session.pending
            (answers (scanLines [] (session.stdoutBuffer ++ chunk)).1) } := by
  simp only [onData, flushLines, foldl_flushLine]

end DebugCliSession

theorem mem_zipWith_iff {α β γ : Type} (f : α → β → γ) (xs : List α) (ys : List β) (z : γ) :
    z ∈ zipWith f xs ys ↔ ∃ (k : ℕ) (x : α) (y : β), xs[k]? = some x ∧ ys[k]? = some y ∧
      f x y = z := by
  simp only [List.mem_iff_getElem?, List.getElem?_zipWith_eq_some]

theorem map_fst_zipWith {β γ : Type} (f : β → γ) (ids : List ℕ) (ys : List β)
    (hlength : ys.length ≤ ids.length) :
    (zipWith (fun id y => (id, f y)) ids ys).map Prod.fst = ids.take ys.length := by
  induction ids generalizing ys with
  | nil => simp
  | cons id ids ih =>
    cases ys with
    | nil => simp
    | cons y ys =>
      simp only [length_cons] at hlength
      simp [ih ys (by omega)]

/-- Where every request stands. -/
structure RequestsSound {Json : Type} (parse : List Char → Except String Json)
    (session : DebugCliSession Json) (sent : ℕ) (written : List ℕ) (lines : List (List Char)) :
    Prop where
  once : (session.settled.map Prod.fst ++ session.pending).Nodup
  all : ∀ id, id < sent ↔ id ∈ session.settled.map Prod.fst ++ session.pending
  writtenSent : ∀ id ∈ written, id < sent
  linesWritten : lines.length ≤ written.length
  pendingWritten : session.unavailableError = none → session.pending = written.drop lines.length
  pendingTorn : session.unavailableError.isSome → session.pending = []
  timersPending : ∀ timer ∈ session.timers, timer.1 ∈ session.pending
  answered : ∀ (k : ℕ) (line : List Char), lines[k]? = some line → ∃ id, written[k]? = some id ∧
    (id, lineSettlement parse line) ∈ session.settled
  origin : ∀ id outcome, (id, outcome) ∈ session.settled →
    (∃ (k : ℕ) (line : List Char), lines[k]? = some line ∧ written[k]? = some id ∧
      outcome = lineSettlement parse line) ∨
    (id ∉ written ∧ ∃ message, outcome = .rejected ("debug cli write failed: " ++ message)) ∨
    ∃ error, session.unavailableError = some error ∧ outcome = .rejected error

namespace RequestsSound

variable {Json : Type} {parse : List Char → Except String Json}
  {session : DebugCliSession Json} {sent : ℕ} {written : List ℕ} {lines : List (List Char)}

section

variable (h : RequestsSound parse session sent written lines) {timers : List (ℕ × String)}

include h

theorem teardown (error : String) :
    RequestsSound parse (session.teardown error) sent written lines := by
  cases herror : session.unavailableError with
  | some first => rw [session.teardown_of_some herror]; exact h
  | none =>
    rw [session.teardown_of_none herror]
    constructor
    · simpa [Function.comp_def] using h.once
    · intro id
      simpa [Function.comp_def] using h.all id
    · exact h.writtenSent
    · exact h.linesWritten
    · intro hnone
      cases hnone
    · intro _
      rfl
    · intro timer htimer
      rw [mem_filter] at htimer
      exact absurd (h.timersPending timer htimer.1) (by simpa using htimer.2)
    · intro k line hline
      obtain ⟨id, hid, hsettled⟩ := h.answered k line hline
      exact ⟨id, hid, mem_append_left _ hsettled⟩
    · intro id outcome hmem
      rcases mem_append.1 hmem with hmem | hmem
      · rcases h.origin id outcome hmem with hline | hwrite | ⟨first, hfirst, _⟩
        · exact .inl hline
        · exact .inr (.inl hwrite)
        rw [herror] at hfirst
        cases hfirst
      · obtain ⟨_, _, heq⟩ := mem_map.1 hmem
        cases heq
        exact .inr (.inr ⟨error, rfl, rfl⟩)

theorem onData_torn (chunk : List Char) (htorn : session.unavailableError.isSome) :
    session.onData parse chunk =
      { session with
        stdoutBuffer := (scanLines [] (session.stdoutBuffer ++ chunk)).2 } := by
  have hpending := h.pendingTorn htorn
  have htimers : session.timers = [] := by
    rw [eq_nil_iff_forall_not_mem]
    intro timer htimer
    simpa [hpending] using h.timersPending timer htimer
  simp [onData_eq, hpending, htimers]

theorem onData (chunk : List Char)
    (hopen : session.unavailableError = none) {fresh : List (List Char)}
    (hfresh : fresh = answers (scanLines [] (session.stdoutBuffer ++ chunk)).1)
    (hwritten : (lines ++ fresh).length ≤ written.length) :
    RequestsSound parse (session.onData parse chunk) sent written (lines ++ fresh) := by
  have hpending := h.pendingWritten hopen
  rw [length_append] at hwritten
  have hlength : fresh.length ≤ session.pending.length := by
    rw [hpending, length_drop]
    omega
  have hids : (zipWith (fun id line => (id, lineSettlement parse line))
      session.pending fresh).map Prod.fst = session.pending.take fresh.length :=
    map_fst_zipWith _ _ _ hlength
  have hindex : ∀ k : ℕ, session.pending[k]? = written[lines.length + k]? := by
    intro k
    rw [hpending, List.getElem?_drop]
  rw [onData_eq, ← hfresh]
  constructor
  · simpa [hids, List.append_assoc] using h.once
  · intro id
    simpa [hids, List.append_assoc] using h.all id
  · exact h.writtenSent
  · rw [length_append]
    exact hwritten
  · intro _
    simp only [hpending, drop_drop, length_append]
  · intro htorn
    simp [hopen] at htorn
  · intro timer htimer
    rw [mem_filter] at htimer
    have hmem := h.timersPending timer htimer.1
    rw [← take_append_drop fresh.length session.pending, mem_append] at hmem
    rcases hmem with htaken | hkept
    · exact absurd htaken (by simpa using htimer.2)
    · exact hkept
  · intro k line hline
    by_cases hk : k < lines.length
    · rw [List.getElem?_append_left hk] at hline
      obtain ⟨id, hid, hsettled⟩ := h.answered k line hline
      exact ⟨id, hid, mem_append_left _ hsettled⟩
    rw [List.getElem?_append_right (by omega)] at hline
    have hlt : k - lines.length < fresh.length := (List.getElem?_eq_some_iff.1 hline).1
    obtain ⟨id, hid⟩ : ∃ id, session.pending[k - lines.length]? = some id :=
      ⟨_, List.getElem?_eq_getElem (by omega)⟩
    have hwhere := hindex (k - lines.length)
    rw [show lines.length + (k - lines.length) = k from by omega, hid] at hwhere
    exact ⟨id, hwhere.symm, mem_append_right _
      ((mem_zipWith_iff _ _ _ _).2 ⟨_, id, line, hid, hline, rfl⟩)⟩
  · intro id outcome hmem
    rcases mem_append.1 hmem with hmem | hmem
    · rcases h.origin id outcome hmem with ⟨k, line, hline, hid, hout⟩ | hwrite | htorn
      · have hk : k < lines.length := (List.getElem?_eq_some_iff.1 hline).1
        exact .inl ⟨k, line, by rw [List.getElem?_append_left hk, hline], hid, hout⟩
      · exact .inr (.inl hwrite)
      · exact .inr (.inr htorn)
    · obtain ⟨k, id', line, hid, hline, heq⟩ := (mem_zipWith_iff _ _ _ _).1 hmem
      cases heq
      have hlate : (lines ++ fresh)[lines.length + k]? = some line := by
        rw [List.getElem?_append_right (by omega), Nat.add_sub_cancel_left, hline]
      exact .inl ⟨lines.length + k, line, hlate, by rw [← hindex, hid], rfl⟩

theorem withTimers
    (htimers : ∀ timer ∈ timers, timer ∈ session.timers) :
    RequestsSound parse { session with timers := timers } sent written lines where
  once := h.once
  all := h.all
  writtenSent := h.writtenSent
  linesWritten := h.linesWritten
  pendingWritten := h.pendingWritten
  pendingTorn := h.pendingTorn
  timersPending timer htimer := h.timersPending timer (htimers timer htimer)
  answered := h.answered
  origin := h.origin

theorem onTimeout (id : ℕ) : RequestsSound parse (session.onTimeout id) sent written lines := by
  have hcleared : RequestsSound parse (session.clearTimeout id) sent written lines :=
    h.withTimers fun timer htimer => (mem_filter.1 htimer).1
  unfold DebugCliSession.onTimeout
  split
  · exact h
  split
  · exact hcleared
  · exact hcleared.teardown _

theorem close : RequestsSound parse session.close sent written lines := by
  unfold DebugCliSession.close
  split
  · exact h
  refine RequestsSound.teardown ?_ _
  exact ⟨h.once, h.all, h.writtenSent, h.linesWritten, h.pendingWritten, h.pendingTorn,
    h.timersPending, h.answered, h.origin⟩

theorem sent_notMem : sent ∉ session.settled.map Prod.fst ++ session.pending := by
  intro hmem
  exact Nat.lt_irrefl _ ((h.all sent).2 hmem)

theorem settled_lt {id : ℕ}
    {outcome : Settlement Json} (hmem : (id, outcome) ∈ session.settled) : id < sent :=
  (h.all id).2 (mem_append_left _ (mem_map.2 ⟨_, hmem, rfl⟩))

theorem settle (outcome : Settlement Json)
    (horigin : (∃ message, outcome = .rejected ("debug cli write failed: " ++ message)) ∨
      ∃ error, session.unavailableError = some error ∧ outcome = .rejected error) :
    RequestsSound parse (session.settle sent outcome) (sent + 1) written lines := by
  have hnew := h.sent_notMem
  constructor
  · simp only [DebugCliSession.settle, map_append, map_cons, map_nil]
    rw [List.append_assoc, singleton_append, nodup_middle]
    exact nodup_cons.2 ⟨hnew, h.once⟩
  · intro id
    have hall := h.all id
    simp only [mem_append] at hall
    simp only [DebugCliSession.settle, map_append, map_cons, map_nil, mem_append, mem_singleton]
    rw [Nat.lt_succ_iff_lt_or_eq, hall]
    tauto
  · intro id hid
    exact Nat.lt_succ_of_lt (h.writtenSent id hid)
  · exact h.linesWritten
  · exact h.pendingWritten
  · exact h.pendingTorn
  · exact h.timersPending
  · intro k line hline
    obtain ⟨id, hid, hsettled⟩ := h.answered k line hline
    exact ⟨id, hid, mem_append_left _ hsettled⟩
  · intro id outcome' hmem
    rcases mem_append.1 hmem with hmem | hmem
    · exact h.origin id outcome' hmem
    cases mem_singleton.1 hmem
    rcases horigin with hwrite | htorn
    · exact .inr (.inl ⟨fun hid => Nat.lt_irrefl _ (h.writtenSent sent hid), hwrite⟩)
    · exact .inr (.inr htorn)

theorem push (hopen : session.unavailableError = none)
    (htimers : ∀ timer ∈ timers, timer ∈ session.timers ∨ timer.1 = sent) :
    RequestsSound parse { session with timers := timers, pending := session.pending ++ [sent] }
      (sent + 1) (written ++ [sent]) lines := by
  have hnew := h.sent_notMem
  constructor
  · rw [← List.append_assoc, nodup_middle, append_nil]
    exact nodup_cons.2 ⟨hnew, h.once⟩
  · intro id
    have hall := h.all id
    simp only [mem_append] at hall
    simp only [mem_append, mem_singleton]
    rw [Nat.lt_succ_iff_lt_or_eq, hall]
    tauto
  · intro id hid
    rcases mem_append.1 hid with hid | hid
    · exact Nat.lt_succ_of_lt (h.writtenSent id hid)
    rw [mem_singleton.1 hid]
    exact Nat.lt_succ_self _
  · rw [length_append]
    exact Nat.le_trans h.linesWritten (Nat.le_add_right _ _)
  · intro _
    rw [drop_append_of_le_length h.linesWritten, h.pendingWritten hopen]
  · intro htorn
    simp [hopen] at htorn
  · intro timer htimer
    rcases htimers timer htimer with hold | hsent
    · exact mem_append_left _ (h.timersPending timer hold)
    · exact mem_append_right _ (by simp [hsent])
  · intro k line hline
    obtain ⟨id, hid, hsettled⟩ := h.answered k line hline
    have hk : k < written.length := (List.getElem?_eq_some_iff.1 hid).1
    exact ⟨id, by rw [List.getElem?_append_left hk, hid], hsettled⟩
  · intro id outcome hmem
    have hlt := h.settled_lt hmem
    rcases h.origin id outcome hmem with ⟨k, line, hline, hid, hout⟩ | ⟨hwritten, hwrite⟩ | htorn
    · have hk : k < written.length := (List.getElem?_eq_some_iff.1 hid).1
      exact .inl ⟨k, line, hline, by rw [List.getElem?_append_left hk, hid], hout⟩
    · refine .inr (.inl ⟨?_, hwrite⟩)
      simp only [mem_append, mem_singleton, not_or]
      exact ⟨hwritten, Nat.ne_of_lt hlt⟩
    · exact .inr (.inr htorn)

theorem send (commandName : Option String) (timeoutMs : Option ℕ) (thrown : Option String) :
    RequestsSound parse (session.send sent commandName timeoutMs thrown) (sent + 1)
      (if session.unavailableError.isNone && thrown.isNone then written ++ [sent] else written)
      lines := by
  cases herror : session.unavailableError with
  | some error =>
    simp only [DebugCliSession.send, herror]
    exact h.settle _ (.inr ⟨error, herror, rfl⟩)
  | none =>
    have htimers : ∀ message, ∀ timer ∈ session.timers ++ [(sent, message)],
        timer ∈ session.timers ∨ timer.1 = sent := by
      intro message timer htimer
      rcases mem_append.1 htimer with hold | hsent
      · exact .inl hold
      · exact .inr (by rw [mem_singleton.1 hsent])
    have hsent : sent ∉ session.pending := fun hmem =>
      h.sent_notMem (mem_append_right _ hmem)
    have herase : (session.pending ++ [sent]).erase sent = session.pending := by
      rw [erase_append_right _ hsent, erase_cons_head, append_nil]
    cases thrown with
    | none =>
      cases timeoutMs with
      | none => simpa [DebugCliSession.send, herror] using h.push herror fun _ => .inl
      | some timeoutMs =>
        simpa [DebugCliSession.send, herror] using h.push herror (htimers _)
    | some message =>
      have hkept : ∀ timers : List (ℕ × String), (∀ timer ∈ timers, timer ∈ session.timers) →
          RequestsSound parse
            (({ session with timers := timers } : DebugCliSession Json).settle sent
              (.rejected ("debug cli write failed: " ++ message))) (sent + 1) written lines :=
        fun timers htimers => (h.withTimers htimers).settle _ (.inl ⟨message, rfl⟩)
      cases timeoutMs with
      | none =>
        have hcleared := hkept (session.timers.filter fun timer => timer.1 ≠ sent)
          fun timer htimer => (mem_filter.1 htimer).1
        simpa [DebugCliSession.send, DebugCliSession.clearTimeout, DebugCliSession.settle, herror,
          herase] using hcleared
      | some timeoutMs =>
        have hcleared := hkept (session.timers.filter fun timer => timer.1 ≠ sent)
          fun timer htimer => (mem_filter.1 htimer).1
        simpa [DebugCliSession.send, DebugCliSession.clearTimeout, DebugCliSession.settle, herror,
          herase, filter_append] using hcleared

end

end RequestsSound

namespace DebugCliWorld

variable {Json : Type} {parse : List Char → Except String Json} {world : DebugCliWorld Json}
  {error : String}

def arrived (world : DebugCliWorld Json) : List Char :=
  (outputText world.output).take world.delivered

variable (parse) in
/-- The requests are sound, and the lines received are the first answers of the child to the
first written requests. -/
structure Sound (world : DebugCliWorld Json) : Prop where
  requests : RequestsSound parse world.session world.sent world.written world.lines
  newlineFree : ∀ line ∈ world.output, '\n' ∉ line
  delivered : world.delivered ≤ (outputText world.output).length
  buffer : world.session.stdoutBuffer = (scanLines [] world.arrived).2
  linesArrived : world.session.unavailableError = none →
    world.lines = answers (scanLines [] world.arrived).1
  linesPrefix : world.lines <+: answers world.output
  answersReceived : (answers world.output).length ≤ world.received.length
  receivedWritten : ∃ (m : ℕ) (more : List ChildCommand),
    world.received = (world.written.take m).map ChildCommand.request ++ more ∧
    world.lines.length ≤ m ∧ m ≤ world.written.length ∧
    (world.session.unavailableError = none →
      more = [] ∧ (world.stdinOpen → m = world.written.length))

theorem answers_append (xs ys : List (List Char)) : answers (xs ++ ys) = answers xs ++ answers ys :=
  filter_append ..

namespace Sound

theorem init : Sound parse init where
  requests :=
    { once := nodup_nil
      all := by simp [DebugCliWorld.init, DebugCliSession.init]
      writtenSent := by simp [DebugCliWorld.init]
      linesWritten := Nat.le_refl _
      pendingWritten := fun _ => rfl
      pendingTorn := fun _ => rfl
      timersPending := by simp [DebugCliWorld.init, DebugCliSession.init]
      answered := by simp [DebugCliWorld.init]
      origin := by simp [DebugCliWorld.init, DebugCliSession.init] }
  newlineFree := by simp [DebugCliWorld.init]
  delivered := Nat.zero_le _
  buffer := rfl
  linesArrived := fun _ => rfl
  linesPrefix := prefix_refl _
  answersReceived := Nat.le_refl _
  receivedWritten := ⟨0, [], rfl, Nat.le_refl _, Nat.le_refl _, fun _ => ⟨rfl, fun _ => rfl⟩⟩

section

variable (h : Sound parse world)

include h

theorem withSession {session : DebugCliSession Json}
    (hrequests : RequestsSound parse session world.sent world.written world.lines)
    (hbuffer : session.stdoutBuffer = world.session.stdoutBuffer)
    (hopen : session.unavailableError = none → world.session.unavailableError = none)
    {q : List ChildCommand} (hq : session.unavailableError = none → q = []) :
    Sound parse { world with session := session, received := world.received ++ q } where
  requests := hrequests
  newlineFree := h.newlineFree
  delivered := h.delivered
  buffer := hbuffer.trans h.buffer
  linesArrived hnone := h.linesArrived (hopen hnone)
  linesPrefix := h.linesPrefix
  answersReceived := by
    rw [length_append]
    exact Nat.le_trans h.answersReceived (Nat.le_add_right _ _)
  receivedWritten := by
    obtain ⟨m, more, hreceived, hlines, hle, hmore⟩ := h.receivedWritten
    refine ⟨m, more ++ q, by rw [hreceived, List.append_assoc], hlines, hle, fun hnone => ?_⟩
    rw [(hmore (hopen hnone)).1, hq hnone, append_nil]
    exact ⟨rfl, (hmore (hopen hnone)).2⟩

theorem print {line : List Char} (hfree : '\n' ∉ line)
    (hroom : (answers (world.output ++ [line])).length ≤ world.received.length) :
    Sound parse { world with output := world.output ++ [line] } := by
  have harrived : arrived { world with output := world.output ++ [line] } = world.arrived := by
    simp only [arrived, outputText_append]
    exact take_append_of_le_length h.delivered
  constructor
  · exact h.requests
  · intro l hl
    rcases mem_append.1 hl with hl | hl
    · exact h.newlineFree l hl
    · rwa [mem_singleton.1 hl]
  · simp only [outputText_append, length_append]
    exact Nat.le_trans h.delivered (Nat.le_add_right _ _)
  · rw [harrived]
    exact h.buffer
  · rw [harrived]
    exact h.linesArrived
  · simp only [answers_append]
    exact h.linesPrefix.trans (prefix_append _ _)
  · exact hroom
  · exact h.receivedWritten

theorem data (length : ℕ) : Sound parse (world.step parse (.data length)) := by
  have htake : (outputText world.output).take (world.delivered + (world.chunk length).length) =
      world.arrived ++ world.chunk length := by
    have hself : ((outputText world.output).drop world.delivered).take (world.chunk length).length =
        world.chunk length := by
      simp only [chunk, length_take]
      rw [take_eq_take_min]
      simp
    rw [take_add, hself, arrived]
  have hscan : scanLines [] (world.arrived ++ world.chunk length) =
      ((scanLines [] world.arrived).1 ++
        (scanLines [] (world.session.stdoutBuffer ++ world.chunk length)).1,
      (scanLines [] (world.session.stdoutBuffer ++ world.chunk length)).2) := by
    rw [scanLines_append, h.buffer, scanLines_rest]
  have hdelivered : world.delivered + (world.chunk length).length ≤
      (outputText world.output).length := by
    have := h.delivered
    simp only [chunk, length_take, length_drop]
    omega
  have harrived : (world.step parse (.data length)).arrived =
      world.arrived ++ world.chunk length := htake
  have hbuffer : (world.step parse (.data length)).session.stdoutBuffer =
      (scanLines [] (world.step parse (.data length)).arrived).2 := by
    rw [harrived, hscan]
    simp only [step, onData_eq]
  cases herror : world.session.unavailableError with
  | some error =>
    have hsession := h.requests.onData_torn (world.chunk length) (by simp [herror])
    have hlater : (world.step parse (.data length)).lines = world.lines := by
      simp [step, herror]
    constructor
    · rw [hlater]
      simp only [step, hsession]
      exact ⟨h.requests.once, h.requests.all, h.requests.writtenSent, h.requests.linesWritten,
        h.requests.pendingWritten, h.requests.pendingTorn, h.requests.timersPending,
        h.requests.answered, h.requests.origin⟩
    · exact h.newlineFree
    · exact hdelivered
    · exact hbuffer
    · intro hnone
      simp [step, hsession, herror] at hnone
    · rw [hlater]
      exact h.linesPrefix
    · exact h.answersReceived
    · obtain ⟨m, more, hreceived, hlines, hle, hmore⟩ := h.receivedWritten
      refine ⟨m, more, hreceived, by rwa [hlater], hle, ?_⟩
      intro hnone
      simp [step, hsession, herror] at hnone
  | none =>
    obtain ⟨m, more, hreceived, hlines, hle, hmore⟩ := h.receivedWritten
    have hnew : world.lines ++
        answers (scanLines [] (world.session.stdoutBuffer ++ world.chunk length)).1 =
        answers (scanLines [] (world.arrived ++ world.chunk length)).1 := by
      rw [hscan, answers_append, h.linesArrived herror]
    have hprefix : answers (scanLines [] (world.arrived ++ world.chunk length)).1 <+:
        answers world.output := by
      rw [← htake]
      exact (scanLines_take_outputText _ h.newlineFree _).filter _
    have hm : (answers (scanLines [] (world.arrived ++ world.chunk length)).1).length ≤ m := by
      have hanswers := h.answersReceived
      have hcount := hprefix.length_le
      rw [hreceived, (hmore herror).1, append_nil, length_map, length_take]
        at hanswers
      omega
    have hrequests := h.requests.onData (world.chunk length) herror rfl (by rw [hnew]; omega)
    have hlater : (world.step parse (.data length)).lines =
        answers (scanLines [] (world.arrived ++ world.chunk length)).1 := by
      simp [step, herror, hnew]
    constructor
    · rw [hlater, ← hnew]
      exact hrequests
    · exact h.newlineFree
    · exact hdelivered
    · exact hbuffer
    · intro _
      rw [hlater, harrived]
    · rw [hlater]
      exact hprefix
    · exact h.answersReceived
    · rw [hlater]
      exact ⟨m, more, hreceived, hm, hle, fun _ => hmore herror⟩

theorem send (commandName : Option String) (timeoutMs : Option ℕ) (thrown : Option String) :
    Sound parse (world.step parse (.send commandName timeoutMs thrown)) := by
  have hrequests := h.requests.send commandName timeoutMs thrown
  have hbuffer : (world.session.send world.sent commandName timeoutMs thrown).stdoutBuffer =
      world.session.stdoutBuffer := by
    unfold DebugCliSession.send
    cases world.session.unavailableError <;> cases timeoutMs <;> cases thrown <;> rfl
  have hopen : (world.session.send world.sent commandName timeoutMs thrown).unavailableError =
      world.session.unavailableError := by
    unfold DebugCliSession.send
    cases herror : world.session.unavailableError <;> cases timeoutMs <;> cases thrown <;>
      simp [settle, clearTimeout, herror]
  obtain ⟨m, more, hreceived, hlines, hle, hmore⟩ := h.receivedWritten
  constructor
  · exact hrequests
  · exact h.newlineFree
  · exact h.delivered
  · exact hbuffer.trans h.buffer
  · intro hnone
    exact h.linesArrived (hopen.symm.trans hnone)
  · exact h.linesPrefix
  · refine Nat.le_trans h.answersReceived ?_
    simp only [step]
    split_ifs <;> simp
  simp only [step]
  cases haccepted : world.session.unavailableError.isNone && thrown.isNone with
  | false =>
    exact ⟨m, more, hreceived, hlines, hle, fun hnone => hmore (hopen.symm.trans hnone)⟩
  | true =>
    have hnone : world.session.unavailableError = none := by
      simp only [Bool.and_eq_true, Option.isNone_iff_eq_none] at haccepted
      exact haccepted.1
    obtain ⟨hmore, hwhole⟩ := hmore hnone
    cases hstdin : world.stdinOpen with
    | false =>
      refine ⟨m, [], ?_, hlines, ?_, fun _ => ⟨rfl, fun hopen => by cases hopen⟩⟩
      · simp [hreceived, hmore, take_append_of_le_length hle]
      simp only [if_true, length_append]
      omega
    | true =>
      have hm := hwhole hstdin
      refine ⟨m + 1, [], ?_, by omega, ?_, fun _ => ⟨rfl, fun _ => ?_⟩⟩
      · have htake : (world.written ++ [world.sent]).take (m + 1) =
            world.written ++ [world.sent] := take_of_length_le (by simp [hm])
        simp only [Bool.and_true, if_true]
        rw [htake, hreceived, hmore, hm, take_length]
        simp
      · simp [hm]
      · simp [hm]

end

theorem teardown_spec (session : DebugCliSession Json) (error : String) :
    (session.teardown error).stdoutBuffer = session.stdoutBuffer ∧
      (session.teardown error).unavailableError ≠ none := by
  cases herror : session.unavailableError with
  | none => simp [session.teardown_of_none herror]
  | some first => simp [session.teardown_of_some herror, herror]

theorem step (h : Sound parse world) (event : DebugCliEvent) :
    Sound parse (world.step parse event) := by
  cases event with
  | send commandName timeoutMs thrown => exact h.send commandName timeoutMs thrown
  | answer line =>
    simp only [DebugCliWorld.step]
    split_ifs with hline
    · refine h.print hline.2.2 ?_
      have hone : answers [line] = [line] := by simp [answers, hline.2.1]
      rw [answers_append, hone, length_append, length_singleton]
      exact hline.1
    · exact h
  | blankLine line =>
    simp only [DebugCliWorld.step]
    split_ifs with hline
    · refine h.print hline.2 ?_
      have hnone : answers [line] = [] := by simp [answers, hline.1]
      rw [answers_append, hnone, append_nil]
      exact h.answersReceived
    · exact h
  | data length => exact h.data length
  | timeout id =>
    have hrequests := h.requests.onTimeout id
    have hsession : (world.session.onTimeout id).stdoutBuffer = world.session.stdoutBuffer ∧
        ((world.session.onTimeout id).unavailableError = none →
          world.session.unavailableError = none) := by
      unfold onTimeout
      split
      · exact ⟨rfl, fun hnone => hnone⟩
      split
      · exact ⟨rfl, fun hnone => hnone⟩
      obtain ⟨hbuffer, htorn⟩ := teardown_spec (world.session.clearTimeout id) _
      exact ⟨hbuffer, fun hnone => absurd hnone htorn⟩
    simpa [DebugCliWorld.step] using
      h.withSession hrequests hsession.1 hsession.2 (q := []) fun _ => rfl
  | exited code signal =>
    obtain ⟨hbuffer, htorn⟩ := teardown_spec world.session
      (DebugCliSession.buildExitError "exited" code signal)
    simpa [DebugCliWorld.step] using
      h.withSession (h.requests.teardown _) hbuffer (fun hnone => absurd hnone htorn)
        (q := []) fun _ => rfl
  | closed code signal =>
    obtain ⟨hbuffer, htorn⟩ := teardown_spec world.session
      (DebugCliSession.buildExitError "closed" code signal)
    simpa [DebugCliWorld.step] using
      h.withSession (h.requests.teardown _) hbuffer (fun hnone => absurd hnone htorn)
        (q := []) fun _ => rfl
  | stdinError =>
    obtain ⟨m, more, hreceived, hlines, hle, hmore⟩ := h.receivedWritten
    exact ⟨h.requests, h.newlineFree, h.delivered, h.buffer, h.linesArrived, h.linesPrefix,
      h.answersReceived, m, more, hreceived, hlines, hle,
      fun hnone => ⟨(hmore hnone).1, fun hopen => by cases hopen⟩⟩
  | close =>
    have hrequests := h.requests.close
    cases hclose : world.session.closePromise with
    | true =>
      have hsame : world.session.close = world.session := by simp [close, hclose]
      simpa [DebugCliWorld.step, hclose, hsame] using h
    | false =>
      obtain ⟨hbuffer, htorn⟩ := teardown_spec
        ({ world.session with closePromise := true } : DebugCliSession Json)
        "debug cli session closed"
      have hnew : world.session.close =
          ({ world.session with closePromise := true } : DebugCliSession Json).teardown
            "debug cli session closed" := by simp [DebugCliSession.close, hclose]
      rw [← hnew] at hbuffer htorn
      cases hstdin : world.stdinOpen with
      | false =>
        simpa [DebugCliWorld.step, hclose, hstdin] using
          h.withSession hrequests hbuffer (fun hnone => absurd hnone htorn) (q := []) fun _ => rfl
      | true =>
        simpa [DebugCliWorld.step, hclose, hstdin] using
          h.withSession hrequests hbuffer (fun hnone => absurd hnone htorn) (q := [.quit])
            fun hnone => absurd hnone htorn

end Sound

theorem sound_run (events : List DebugCliEvent) (h : Sound parse world) :
    Sound parse (world.run parse events) := by
  induction events generalizing world with
  | nil => exact h
  | cons event events ih => exact ih (h.step event)

def laterSettlement (sent : ℕ) (error : String) : DebugCliEvent → List (ℕ × Settlement Json)
  | .send _ _ _ => [(sent, .rejected error)]
  | _ => []

variable (parse) in
/-- What the claims of a session to its callers come to: responses and requests are matched
one to one, and the teardown is final. -/
structure Matched (world : DebugCliWorld Json) : Prop where
  once : (world.session.settled.map Prod.fst).Nodup
  inOrder : ∀ (k : ℕ) (line : List Char), world.lines[k]? = some line →
    ∃ id, world.written[k]? = some id ∧
      (id, lineSettlement parse line) ∈ world.session.settled
  own : ∀ (k : ℕ) (line : List Char), world.lines[k]? = some line →
    (answers world.output)[k]? = some line ∧
      ∃ id, world.written[k]? = some id ∧ world.received[k]? = some (.request id)
  origin : ∀ id outcome, (id, outcome) ∈ world.session.settled →
    (∃ (k : ℕ) (line : List Char), world.lines[k]? = some line ∧ world.written[k]? = some id ∧
      outcome = lineSettlement parse line) ∨
    (id ∉ world.written ∧
      ∃ message, outcome = .rejected ("debug cli write failed: " ++ message)) ∨
    ∃ error, world.session.unavailableError = some error ∧ outcome = .rejected error
  torn : ∀ error, world.session.unavailableError = some error →
    world.session.pending = [] ∧ world.session.timers = [] ∧
    (∀ id, id < world.sent → id ∈ world.session.settled.map Prod.fst) ∧
    ∀ event, (world.step parse event).session.unavailableError = some error ∧
      (world.step parse event).session.settled =
        world.session.settled ++ laterSettlement world.sent error event

theorem Sound.timers_torn (h : Sound parse world)
    (herror : world.session.unavailableError = some error) : world.session.timers = [] := by
  rw [eq_nil_iff_forall_not_mem]
  intro timer htimer
  have hpending := h.requests.pendingTorn (by simp [herror])
  simpa [hpending] using h.requests.timersPending timer htimer

theorem Sound.step_torn (h : Sound parse world)
    (herror : world.session.unavailableError = some error) (event : DebugCliEvent) :
    (world.step parse event).session.unavailableError = some error ∧
      (world.step parse event).session.settled =
        world.session.settled ++ laterSettlement world.sent error event := by
  cases event with
  | send commandName timeoutMs thrown =>
    simp [DebugCliWorld.step, DebugCliSession.send, herror, DebugCliSession.settle, laterSettlement]
  | answer line =>
    simp only [DebugCliWorld.step, laterSettlement, append_nil]
    split_ifs <;> exact ⟨herror, rfl⟩
  | blankLine line =>
    simp only [DebugCliWorld.step, laterSettlement, append_nil]
    split_ifs <;> exact ⟨herror, rfl⟩
  | data length =>
    have hsession := h.requests.onData_torn (world.chunk length) (by simp [herror])
    simp [DebugCliWorld.step, hsession, herror, laterSettlement]
  | timeout id =>
    simp [DebugCliWorld.step, DebugCliSession.onTimeout, h.timers_torn herror, herror,
      laterSettlement]
  | exited code signal =>
    simp [DebugCliWorld.step, world.session.teardown_of_some herror, herror, laterSettlement]
  | closed code signal =>
    simp [DebugCliWorld.step, world.session.teardown_of_some herror, herror, laterSettlement]
  | stdinError => simp [DebugCliWorld.step, herror, laterSettlement]
  | close =>
    have hclose : world.session.close.unavailableError = some error ∧
        world.session.close.settled = world.session.settled := by
      unfold DebugCliSession.close
      split_ifs
      · exact ⟨herror, rfl⟩
      have hsame := @DebugCliSession.teardown_of_some Json
        { world.session with closePromise := true } error herror "debug cli session closed"
      rw [hsame]
      exact ⟨herror, rfl⟩
    simpa [DebugCliWorld.step, laterSettlement] using hclose

/-- In every run the k-th line with text settles the k-th written request, with the child's
answer to that request; nothing settles twice, and after the teardown nothing settles but the
rejection of later requests. -/
theorem run_matched (parse : List Char → Except String Json) (events : List DebugCliEvent) :
    Matched parse (init.run parse events) := by
  have h : Sound parse (init.run parse events) := sound_run events Sound.init
  generalize init.run parse events = world at h ⊢
  obtain ⟨m, more, hreceived, hlines, hle, _⟩ := h.receivedWritten
  constructor
  · exact (nodup_append.1 h.requests.once).1
  · exact h.requests.answered
  · intro k line hline
    have hk : k < world.lines.length := (List.getElem?_eq_some_iff.1 hline).1
    obtain ⟨rest, hrest⟩ := h.linesPrefix
    obtain ⟨id, hid, _⟩ := h.requests.answered k line hline
    refine ⟨by rw [← hrest, List.getElem?_append_left hk, hline], id, hid, ?_⟩
    have htake : k < ((world.written.take m).map ChildCommand.request).length := by
      rw [length_map, length_take]
      omega
    rw [hreceived, List.getElem?_append_left htake, List.getElem?_map,
      List.getElem?_take_of_lt (by omega), hid]
    rfl
  · exact h.requests.origin
  · intro error herror
    have hpending := h.requests.pendingTorn (by simp [herror])
    refine ⟨hpending, h.timers_torn herror, fun id hid => ?_, h.step_torn herror⟩
    have hmem := (h.requests.all id).1 hid
    rwa [hpending, append_nil] at hmem

end DebugCliWorld

end VisualCpu
