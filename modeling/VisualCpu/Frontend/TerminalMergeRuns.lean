import VisualCpu.Frontend.TerminalMerge

/-!
# What a browser shows of the guest's output

Every chunk that the server sends is the part of a stream between its start and its end. A
browser that merges only chunks that continue what it shows, or that start a session which is
not older, shows a beginning of the current stream. A late answer breaks this: ends alone do
not tell it from a continuation.
-/

namespace VisualCpu

open List Nat

namespace TerminalWorld

open TerminalProjection

def projected (text : List Char) : TerminalProjection :=
  (createTerminalProjectionState (some maxTerminalBuffer)).applyTerminalChunk text

/-- The browser shows the current stream up to its offset. -/
def ShowsStream (world : TerminalWorld) : Prop :=
  world.browser.nextOffset ≤ (world.output world.latest).length ∧
    world.browser.buffer =
      (projected ((world.output world.latest).take world.browser.nextOffset)).text

instance : DecidablePred ShowsStream := fun world =>
  inferInstanceAs (Decidable (world.browser.nextOffset ≤ (world.output world.latest).length ∧
    world.browser.buffer =
      (projected ((world.output world.latest).take world.browser.nextOffset)).text))

/-- A chunk may be merged: it starts a session that is not older than the one that is shown,
or it ends before the browser's offset, or it goes on at that offset in the stream that is
shown, at a place where the terminal's limit does not cut into a line. -/
def Continues (world : TerminalWorld) (chunk : TerminalChunk) : Prop :=
  if chunk.reset = true then world.latest ≤ chunk.epoch
  else chunk.nextOffset ≤ world.browser.nextOffset ∨
    chunk.epoch = world.latest ∧ chunk.start = world.browser.nextOffset ∧
      CutHarmless (some maxTerminalBuffer)
        ((world.output world.latest).take world.browser.nextOffset)

instance (maxLength : ℤ) (text : List Char) : Decidable (CutHarmless (some maxLength) text) :=
  inferInstanceAs (Decidable
    (let shown := (createTerminalProjectionState none).applyTerminalChunk text
    maxLength ≤ 0 ∨ (shown.text.length : ℤ) ≤ maxLength ∨ shown.text.length = shown.lineStart))

instance (world : TerminalWorld) (chunk : TerminalChunk) : Decidable (world.Continues chunk) :=
  inferInstanceAs (Decidable (if chunk.reset = true then world.latest ≤ chunk.epoch
    else chunk.nextOffset ≤ world.browser.nextOffset ∨
      chunk.epoch = world.latest ∧ chunk.start = world.browser.nextOffset ∧
        CutHarmless (some maxTerminalBuffer)
          ((world.output world.latest).take world.browser.nextOffset)))

/-- The chunk that an event brings to the browser may be merged. -/
def StepContinues (world : TerminalWorld) : TerminalEvent → Prop
  | .message => ∀ chunk ∈ world.messages[world.delivered]?, world.Continues chunk
  | .response index =>
    ∀ response ∈ world.responses[index]?, response.1 ≠ .terminate → world.Continues response.2
  | _ => True

instance (world : TerminalWorld) (event : TerminalEvent) :
    Decidable (world.StepContinues event) :=
  match event with
  | .message =>
    inferInstanceAs (Decidable (∀ chunk ∈ world.messages[world.delivered]?,
      world.Continues chunk))
  | .response index =>
    inferInstanceAs (Decidable (∀ response ∈ world.responses[index]?,
      response.1 ≠ .terminate → world.Continues response.2))
  | .load _ _ | .reset _ _ _ | .step _ _ | .terminalInput _ _ _ | .terminalOutput _ _
  | .terminate _ | .emit _ | .beginLoad => inferInstanceAs (Decidable True)

def AllContinue : TerminalWorld → List TerminalEvent → Prop
  | _, [] => True
  | world, event :: events => world.StepContinues event ∧ AllContinue (world.next event) events

instance AllContinue.decidable : ∀ world events, Decidable (AllContinue world events)
  | _, [] => inferInstanceAs (Decidable True)
  | world, event :: events =>
    have := AllContinue.decidable (world.next event) events
    inferInstanceAs (Decidable (world.StepContinues event ∧
      AllContinue (world.next event) events))

/-- The chunk is what its stream holds between its start and its end. -/
structure ChunkSound (world : TerminalWorld) (chunk : TerminalChunk) : Prop where
  epoch : chunk.epoch ≤ world.epoch
  start : chunk.start ≤ chunk.nextOffset
  nextOffset : chunk.nextOffset ≤ (world.output chunk.epoch).length
  text : chunk.text = ((world.output chunk.epoch).take chunk.nextOffset).drop chunk.start
  reset : chunk.reset → chunk.start = 0

/-- The streams only grow, and no epoch is lost. -/
structure Grows (world world' : TerminalWorld) : Prop where
  epoch : world.epoch ≤ world'.epoch
  output : ∀ epoch ≤ world.epoch, world.output epoch <+: world'.output epoch

open Grows

theorem take_eq_of_isPrefix {xs ys : List Char} (h : xs <+: ys) {n : ℕ} (hn : n ≤ xs.length) :
    ys.take n = xs.take n := by
  obtain ⟨rest, rfl⟩ := h
  exact take_append_of_le_length hn

variable {chunk : TerminalChunk}

theorem ChunkSound.grows {world world' : TerminalWorld}
    (h : ChunkSound world chunk) (hgrows : Grows world world') : ChunkSound world' chunk := by
  have hprefix := hgrows.output chunk.epoch h.epoch
  refine ⟨le_trans h.epoch hgrows.epoch, h.start, ?_, ?_, h.reset⟩
  · exact le_trans h.nextOffset hprefix.length_le
  rw [take_eq_of_isPrefix hprefix h.nextOffset]
  exact h.text

structure MergeInvariant (world : TerminalWorld) : Prop where
  tracked : world.runtime.currentTerminalOffset ≤ world.stream.length
  messages : ∀ chunk ∈ world.messages, ChunkSound world chunk
  responses : ∀ response ∈ world.responses, ChunkSound world response.2
  latest : world.latest ≤ world.epoch
  nextOffset : world.browser.nextOffset ≤ (world.output world.latest).length
  projection : world.browser.projection =
    projected ((world.output world.latest).take world.browser.nextOffset)
  buffer : world.browser.buffer = world.browser.projection.text

theorem projected_nil : projected [] = createTerminalProjectionState (some maxTerminalBuffer) := by
  decide

theorem MergeInvariant.init : MergeInvariant init where
  tracked := le_refl _
  messages := by
    intro chunk hmem
    cases hmem
  responses := by
    intro response hmem
    cases hmem
  latest := le_refl _
  nextOffset := le_refl _
  projection := projected_nil.symm
  buffer := rfl

theorem MergeInvariant.showsStream {world : TerminalWorld} (h : MergeInvariant world) :
    ShowsStream world := by
  refine ⟨h.nextOffset, ?_⟩
  rw [h.buffer, h.projection]

variable {world : TerminalWorld} {world' : TerminalWorld}

theorem MergeInvariant.serverStep (h : MergeInvariant world) (hgrows : Grows world world')
    (htracked : world'.runtime.currentTerminalOffset ≤ world'.stream.length)
    (hmessages : ∀ chunk ∈ world'.messages, chunk ∈ world.messages ∨ ChunkSound world' chunk)
    (hresponses : ∀ response ∈ world'.responses,
      response ∈ world.responses ∨ ChunkSound world' response.2)
    (hbrowser : world'.browser = world.browser) (hlatest : world'.latest = world.latest) :
    MergeInvariant world' := by
  have hprefix := hgrows.output world.latest h.latest
  refine ⟨htracked, ?_, ?_, ?_, ?_, ?_, ?_⟩
  · intro chunk hmem
    rcases hmessages chunk hmem with hold | hsound
    · exact (h.messages chunk hold).grows hgrows
    · exact hsound
  · intro response hmem
    rcases hresponses response hmem with hold | hsound
    · exact (h.responses response hold).grows hgrows
    · exact hsound
  · rw [hlatest]
    exact le_trans h.latest hgrows.epoch
  · rw [hlatest, hbrowser]
    exact le_trans h.nextOffset hprefix.length_le
  · rw [hlatest, hbrowser, take_eq_of_isPrefix hprefix h.nextOffset]
    exact h.projection
  · rw [hbrowser]
    exact h.buffer

theorem Grows.same (hepoch : world'.epoch = world.epoch)
    (houtput : world'.output = world.output) : Grows world world' := by
  refine ⟨le_of_eq hepoch.symm, ?_⟩
  intro epoch hle
  exact ⟨[], by rw [houtput, append_nil]⟩

theorem emit_grows (world : TerminalWorld) (emitted : List Char) :
    Grows world (world.emit emitted) := by
  refine ⟨le_refl _, ?_⟩
  intro epoch hepoch
  by_cases hcurrent : epoch = world.epoch
  · have houtput : (world.emit emitted).output epoch = world.output epoch ++ emitted :=
      if_pos hcurrent
    rw [houtput]
    exact prefix_append _ _
  · have houtput : (world.emit emitted).output epoch = world.output epoch := if_neg hcurrent
    exact ⟨[], by rw [houtput, append_nil]⟩

theorem startStream_grows (world : TerminalWorld) (emitted : List Char) :
    Grows world (world.startStream emitted) := by
  refine ⟨le_succ _, ?_⟩
  intro epoch hepoch
  have houtput : (world.startStream emitted).output epoch = world.output epoch :=
    if_neg (by omega)
  exact ⟨[], by rw [houtput, append_nil]⟩

@[simp] theorem stream_emit (world : TerminalWorld) (emitted : List Char) :
    (world.emit emitted).stream = world.stream ++ emitted := if_pos rfl

@[simp] theorem stream_startStream (world : TerminalWorld) (emitted : List Char) :
    (world.startStream emitted).stream = emitted := if_pos rfl

section

variable (h : MergeInvariant world)

include h

theorem MergeInvariant.emit (emitted : List Char) : MergeInvariant (world.emit emitted) := by
  apply h.serverStep (emit_grows world emitted)
  · have htracked := h.tracked
    rw [stream_emit, length_append]
    exact le_trans htracked (le_add_right _ _)
  · exact fun chunk hmem => .inl hmem
  · exact fun response hmem => .inl hmem
  · rfl
  · rfl

theorem MergeInvariant.startStream (emitted : List Char)
    (runtime : DebugRuntime) (htracked : runtime.currentTerminalOffset ≤ emitted.length) :
    MergeInvariant { world.startStream emitted with runtime := runtime } := by
  have hstarted := startStream_grows world emitted
  have hgrows : Grows world { world.startStream emitted with runtime := runtime } :=
    ⟨hstarted.epoch, hstarted.output⟩
  have hstream : ({ world.startStream emitted with runtime := runtime } : TerminalWorld).stream =
      emitted := stream_startStream world emitted
  apply h.serverStep hgrows
  · rw [hstream]
    exact htracked
  · exact fun chunk hmem => .inl hmem
  · exact fun response hmem => .inl hmem
  · rfl
  · rfl

theorem MergeInvariant.track (runtime : DebugRuntime)
    (htracked : runtime.currentTerminalOffset ≤ world.stream.length) :
    MergeInvariant { world with runtime := runtime } := by
  have hgrows : Grows world { world with runtime := runtime } := same rfl rfl
  apply h.serverStep hgrows
  · exact htracked
  · exact fun chunk hmem => .inl hmem
  · exact fun response hmem => .inl hmem
  · rfl
  · rfl

theorem MergeInvariant.broadcast
    (hsound : ChunkSound world chunk) : MergeInvariant (world.broadcast chunk) := by
  have hgrows : Grows world (world.broadcast chunk) := same rfl rfl
  have hkept := hsound.grows hgrows
  apply h.serverStep hgrows
  · exact h.tracked
  · intro other hmem
    rcases mem_append.1 hmem with hold | hnew
    · exact .inl hold
    rw [mem_singleton.1 hnew]
    exact .inr hkept
  · exact fun response hmem => .inl hmem
  · rfl
  · rfl

theorem MergeInvariant.respond (ours : Bool) (kind : ResponseKind)
    (hsound : ChunkSound world chunk) :
    MergeInvariant (world.respond ours kind chunk) := by
  cases ours with
  | false => exact h
  | true =>
    have hgrows : Grows world (world.respond true kind chunk) := same rfl rfl
    have hkept := hsound.grows hgrows
    apply h.serverStep hgrows
    · exact h.tracked
    · exact fun other hmem => .inl hmem
    · intro response hmem
      rcases mem_append.1 hmem with hold | hnew
      · exact .inl hold
      rw [mem_singleton.1 hnew]
      exact .inr hkept
    · rfl
    · rfl

end

theorem chunkFrom_sound (world : TerminalWorld) (offset : ℕ) (reset : Bool)
    (hreset : reset → offset = 0) : ChunkSound world (world.chunkFrom offset reset) := by
  refine ⟨le_refl _, min_le_right _ _, le_refl _, ?_, ?_⟩
  · change world.stream.drop offset =
      (world.stream.take world.stream.length).drop (min offset world.stream.length)
    rw [take_length]
    rcases le_total offset world.stream.length with hle | hle
    · rw [min_eq_left hle]
    · rw [min_eq_right hle, drop_length, drop_eq_nil_of_le hle]
  · intro htrue
    change min offset world.stream.length = 0
    rw [hreset htrue, zero_min]

theorem MergeInvariant.trackTerminalChunk (h : MergeInvariant world) (offset : ℕ) (reset : Bool) :
    MergeInvariant (world.trackTerminalChunk offset reset) :=
  h.track _ (le_refl _)

theorem MergeInvariant.syncTerminalDelta (h : MergeInvariant world) (offset : ℕ)
    (reset isBroadcast : Bool) (hreset : reset → offset = 0) :
    MergeInvariant (world.syncTerminalDelta offset reset isBroadcast).1 ∧
      ChunkSound (world.syncTerminalDelta offset reset isBroadcast).1
        (world.syncTerminalDelta offset reset isBroadcast).2 := by
  have hsound := chunkFrom_sound world offset reset hreset
  have htracked := h.trackTerminalChunk offset reset
  have hkept : ChunkSound (world.trackTerminalChunk offset reset)
      (world.chunkFrom offset reset) :=
    hsound.grows (same rfl rfl)
  unfold TerminalWorld.syncTerminalDelta
  dsimp only
  split_ifs
  · exact ⟨htracked.broadcast hkept, hkept.grows (same rfl rfl)⟩
  · exact ⟨htracked, hkept⟩

theorem advanceRounds_cons (world : TerminalWorld) (emitted : List Char)
    (rounds : List (List Char)) (text : List Char) (nextOffset offset : ℕ)
    (hoffset : world.runtime.currentTerminalOffset = offset) :
    world.advanceRounds (emitted :: rounds) text nextOffset =
      if ((world.emit emitted).chunkFrom offset false).text.isEmpty = true then
        ((world.emit emitted).trackTerminalChunk offset false).advanceRounds rounds text nextOffset
      else
        ((world.emit emitted).trackTerminalChunk offset false).advanceRounds rounds
          (text ++ ((world.emit emitted).chunkFrom offset false).text)
          ((world.emit emitted).chunkFrom offset false).nextOffset := by
  rw [← hoffset]
  rfl

section

variable (h : MergeInvariant world)

include h

namespace MergeInvariant

theorem advanceRounds (rounds : List (List Char))
    {text : List Char} {start nextOffset : ℕ}
    (hnext : world.runtime.currentTerminalOffset = nextOffset) (hstart : start ≤ nextOffset)
    (htext : text = (world.stream.take nextOffset).drop start) :
    MergeInvariant (world.advanceRounds rounds text nextOffset).1 ∧
      ChunkSound (world.advanceRounds rounds text nextOffset).1
        { epoch := world.epoch, start := start
          text := (world.advanceRounds rounds text nextOffset).2.1
          nextOffset := (world.advanceRounds rounds text nextOffset).2.2, reset := false } := by
  induction rounds generalizing world text nextOffset with
  | nil =>
    have htracked := h.tracked
    rw [hnext] at htracked
    exact ⟨h, le_refl _, hstart, htracked, htext, fun hreset => by cases hreset⟩
  | cons emitted rounds ih =>
    have hgrown := h.emit emitted
    have hsynced := hgrown.trackTerminalChunk nextOffset false
    have hstream : ((world.emit emitted).trackTerminalChunk nextOffset false).stream =
        world.stream ++ emitted := stream_emit world emitted
    have hbound : nextOffset ≤ world.stream.length := by
      rw [← hnext]
      exact h.tracked
    have htake : (world.stream ++ emitted).take nextOffset = world.stream.take nextOffset :=
      take_append_of_le_length hbound
    have hchunk : ((world.emit emitted).chunkFrom nextOffset false).text =
        (world.stream ++ emitted).drop nextOffset := by
      rw [← stream_emit]
      rfl
    have hend : ((world.emit emitted).chunkFrom nextOffset false).nextOffset =
        (world.stream ++ emitted).length := by
      rw [← stream_emit]
      rfl
    rw [advanceRounds_cons world emitted rounds text nextOffset nextOffset hnext]
    by_cases hempty : ((world.emit emitted).chunkFrom nextOffset false).text.isEmpty
    · have hlength : (world.stream ++ emitted).length = nextOffset := by
        rw [hchunk, List.isEmpty_iff, drop_eq_nil_iff] at hempty
        rw [length_append] at hempty ⊢
        omega
      rw [if_pos hempty]
      apply ih hsynced
      · rw [← hlength, ← hend]
        rfl
      · exact hstart
      · rw [hstream, htake]
        exact htext
    · rw [if_neg hempty]
      apply ih hsynced
      · rfl
      · rw [hend, length_append]
        omega
      rw [hstream, hend, take_length, hchunk, htext, ← htake, ← drop_append_of_le_length]
      · rw [take_append_drop]
      rw [length_take, length_append]
      omega

variable (emitted : List Char)

theorem load (ours : Bool) : MergeInvariant (world.load emitted ours) := by
  have hsound := chunkFrom_sound (world.startStream emitted) 0 true fun _ => rfl
  have hlength : (world.startStream emitted).stream.length ≤ emitted.length := by
    rw [stream_startStream]
  have hpublished := h.startStream emitted
    { (world.startStream emitted).runtime with
      currentSession := some (world.startStream emitted).epoch
      currentTerminalProjection :=
        (createTerminalProjectionState (some defaultTerminalMaxLength)).applyTerminalChunk
          ((world.startStream emitted).uartOutput 0).text
      currentTerminalOffset := (((world.startStream emitted).uartOutput 0).nextOffset).getD 0 }
    hlength
  have hbroadcast := hpublished.broadcast (hsound.grows (same rfl rfl))
  exact hbroadcast.respond ours .load (hsound.grows (same rfl rfl))

theorem reset (fails ours : Bool) : MergeInvariant (world.reset emitted fails ours) := by
  have htracked := h.startStream emitted (world.startStream emitted).runtime.resetTerminalTracking
    (zero_le _)
  cases fails with
  | true => exact htracked
  | false =>
    obtain ⟨hsynced, hsound⟩ := htracked.syncTerminalDelta 0 true true fun _ => rfl
    exact hsynced.respond ours .merge hsound

theorem step (ours : Bool) : MergeInvariant (world.step emitted ours) := by
  obtain ⟨hsynced, hsound⟩ := (h.emit emitted).syncTerminalDelta
    (world.emit emitted).runtime.currentTerminalOffset false true fun hreset => by cases hreset
  exact hsynced.respond ours .merge hsound

theorem terminalInput (rounds : List (List Char))
    (fails ours : Bool) : MergeInvariant (world.terminalInput rounds fails ours) := by
  have hnone : [] = (world.stream.take world.runtime.currentTerminalOffset).drop
      world.runtime.currentTerminalOffset := by
    rw [drop_eq_nil_of_le]
    exact length_take_le _ _
  obtain ⟨hadvanced, hsound⟩ := h.advanceRounds rounds rfl (le_refl _) hnone
  unfold TerminalWorld.terminalInput
  dsimp only
  split_ifs
  · exact hadvanced
  · exact hadvanced.respond ours .merge hsound
  · exact (hadvanced.broadcast hsound).respond ours .merge (hsound.grows (same rfl rfl))

theorem terminalOutput (offset : ℕ) (ours : Bool) :
    MergeInvariant (world.terminalOutput offset ours) := by
  apply h.respond ours .merge
  exact chunkFrom_sound world offset false fun hreset => by cases hreset

theorem terminate (ours : Bool) : MergeInvariant (world.terminate ours) := by
  have hended := h.track { world.runtime.resetTerminalTracking with currentSession := none }
    (zero_le _)
  have hsound : ChunkSound
      { world with
        runtime := { world.runtime.resetTerminalTracking with currentSession := none } }
      { epoch := world.epoch, start := 0, text := [], nextOffset := 0, reset := true } :=
    ⟨le_refl _, le_refl _, zero_le _, rfl, fun _ => rfl⟩
  exact (hended.broadcast hsound).respond ours .terminate (hsound.grows (same rfl rfl))

theorem withSession {action : TerminalWorld}
    (haction : MergeInvariant action) : MergeInvariant (world.withSession action) := by
  unfold TerminalWorld.withSession
  split
  · exact h
  · exact haction

end MergeInvariant

end

theorem projected_append {xs ys : List Char} (hcut : CutHarmless (some maxTerminalBuffer) xs) :
    (projected xs).applyTerminalChunk ys = projected (xs ++ ys) := by
  simp only [projected, createTerminalProjectionState_eq, TerminalLine.project_run,
    TerminalLine.run_append]
  rw [clamp_run_of_harmless hcut]

theorem projected_maxLength (xs : List Char) :
    (projected xs).maxLength = some (maxTerminalBuffer : ℤ) := by
  simp only [projected, createTerminalProjectionState_eq, TerminalLine.project_run]
  rfl

section

variable (h : MergeInvariant world)

include h

namespace MergeInvariant

theorem browserStep (browser : BrowserTerminal) (latest : ℕ) (hlatest : latest ≤ world.epoch)
    (hnext : browser.nextOffset ≤ (world.output latest).length)
    (hprojection : browser.projection = projected ((world.output latest).take browser.nextOffset))
    (hbuffer : browser.buffer = browser.projection.text) :
    MergeInvariant { world with browser := browser, latest := latest } where
  tracked := h.tracked
  messages chunk hmem := (h.messages chunk hmem).grows (same rfl rfl)
  responses response hmem := (h.responses response hmem).grows (same rfl rfl)
  latest := hlatest
  nextOffset := hnext
  projection := hprojection
  buffer := hbuffer

theorem clear (latest : ℕ) (hlatest : latest ≤ world.epoch) : MergeInvariant
      { world with browser := world.browser.clearLoadedSession, latest := latest } :=
  h.browserStep _ latest hlatest (zero_le _) projected_nil.symm rfl

section

variable (hsound : ChunkSound world chunk)

include hsound

theorem mergeTerminal
 (hcontinues : world.Continues chunk) : MergeInvariant (world.mergeTerminal chunk) := by
  unfold Continues at hcontinues
  cases hreset : chunk.reset with
  | true =>
    rw [if_pos hreset] at hcontinues
    have htext : chunk.text = (world.output chunk.epoch).take chunk.nextOffset := by
      rw [hsound.text, hsound.reset hreset, drop_zero]
    have hmax : world.browser.projection.maxLength = some (maxTerminalBuffer : ℤ) := by
      rw [h.projection]
      exact projected_maxLength _
    unfold TerminalWorld.mergeTerminal BrowserTerminal.appendTerminalOutput
    simp only [hreset, if_true, Bool.true_eq_false, false_and, if_false,
      max_eq_right hcontinues]
    apply h.browserStep _ _ hsound.epoch
    · exact hsound.nextOffset
    · rw [hmax, htext]
      rfl
    · rfl
  | false =>
    rw [if_neg (by simp [hreset])] at hcontinues
    unfold TerminalWorld.mergeTerminal BrowserTerminal.appendTerminalOutput
    simp only [hreset, true_and, Bool.false_eq_true, if_false]
    by_cases hold : chunk.nextOffset ≤ world.browser.nextOffset
    · rw [if_pos hold]
      exact h.browserStep _ _ h.latest h.nextOffset h.projection h.buffer
    rw [if_neg hold]
    obtain ⟨hepoch, hstart, hcut⟩ := hcontinues.resolve_left hold
    have hnext := hsound.nextOffset
    have htext := hsound.text
    rw [hepoch] at hnext
    rw [hepoch, hstart] at htext
    have hsplit : (world.output world.latest).take chunk.nextOffset =
        (world.output world.latest).take world.browser.nextOffset ++ chunk.text := by
      rw [htext]
      have htake : ((world.output world.latest).take chunk.nextOffset).take
          world.browser.nextOffset = (world.output world.latest).take world.browser.nextOffset := by
        rw [take_take, min_eq_left (by omega)]
      rw [← htake, take_append_drop]
    apply h.browserStep _ _ h.latest hnext
    · rw [hsplit, ← projected_append hcut, h.projection]
    · rfl

theorem onTerminal
 (hcontinues : world.Continues chunk) : MergeInvariant (world.onTerminal chunk) := by
  unfold TerminalWorld.onTerminal
  split_ifs with hclear
  · apply h.clear
    exact Nat.max_le.2 ⟨h.latest, hsound.epoch⟩
  · exact h.mergeTerminal hsound hcontinues

theorem onResponse {kind : ResponseKind} (hcontinues : kind ≠ .terminate → world.Continues chunk) :
    MergeInvariant (world.onResponse kind chunk) := by
  cases kind with
  | load =>
    have hloaded := h.browserStep world.browser.setLoadedSession world.latest h.latest
      h.nextOffset h.projection h.buffer
    have hchunk : ChunkSound { world with browser := world.browser.setLoadedSession } chunk :=
      hsound.grows (same rfl rfl)
    exact hloaded.mergeTerminal hchunk (hcontinues (by decide))
  | terminate => exact h.clear world.latest h.latest
  | merge => exact h.mergeTerminal hsound (hcontinues (by decide))

end

theorem next (event : TerminalEvent)
    (hcontinues : world.StepContinues event) : MergeInvariant (world.next event) := by
  cases event with
  | load emitted ours => exact h.load emitted ours
  | reset emitted fails ours => exact h.withSession (h.reset emitted fails ours)
  | step emitted ours => exact h.withSession (h.step emitted ours)
  | terminalInput rounds fails ours => exact h.withSession (h.terminalInput rounds fails ours)
  | terminalOutput offset ours => exact h.withSession (h.terminalOutput offset ours)
  | terminate ours => exact h.withSession (h.terminate ours)
  | emit emitted => exact h.emit emitted
  | beginLoad => exact h.clear world.latest h.latest
  | message =>
    unfold TerminalWorld.next
    cases hchunk : world.messages[world.delivered]? with
    | none => exact h
    | some chunk =>
      have hsound := h.messages chunk (List.mem_of_getElem? hchunk)
      have hdelivered : MergeInvariant { world with delivered := world.delivered + 1 } :=
        h.serverStep (same rfl rfl) h.tracked (fun other hmem => .inl hmem)
          (fun other hmem => .inl hmem) rfl rfl
      exact hdelivered.onTerminal (hsound.grows (same rfl rfl)) (hcontinues chunk hchunk)
  | response index =>
    unfold TerminalWorld.next
    dsimp only
    cases hresponse : world.responses[index]? with
    | none => exact h
    | some response =>
      have hsound := h.responses response (List.mem_of_getElem? hresponse)
      have hanswered : MergeInvariant { world with responses := world.responses.eraseIdx index } :=
        h.serverStep (same rfl rfl) h.tracked (fun other hmem => .inl hmem)
          (fun other hmem => .inl (mem_of_mem_eraseIdx hmem)) rfl rfl
      exact hanswered.onResponse (hsound.grows (same rfl rfl))
        (hcontinues response hresponse)

theorem run {events : List TerminalEvent}
    (hall : AllContinue world events) : MergeInvariant (world.run events) := by
  induction events generalizing world with
  | nil => exact h
  | cons event events ih => exact ih (h.next event hall.1) hall.2

end MergeInvariant

end

/-- In every run whose chunks may all be merged, the browser shows the current stream up to
its offset. -/
theorem run_showsStream (events : List TerminalEvent) (hall : AllContinue init events) :
    ShowsStream (init.run events) :=
  (MergeInvariant.init.run hall).showsStream

/-- A load, a step and a run of this browser, whose answers arrive after the broadcasts. -/
def promptAnswers : List TerminalEvent :=
  [.beginLoad, .load ['a'] true, .message, .response 0, .step ['b'] true, .message, .response 0,
    .terminalInput [['l', 's'], [], ['#']] false true, .response 0, .message]

theorem promptAnswers_showsStream : ShowsStream (init.run promptAnswers) :=
  run_showsStream promptAnswers (by decide)

/-- Another browser loads a session while the answer to a step is on its way. -/
def lateAnswer : List TerminalEvent :=
  [.load ['a'] true, .message, .response 0, .step ['b'] true, .message, .load ['c'] false,
    .message, .response 0]

theorem lateAnswer_notShown : ¬ ∀ events, ShowsStream (init.run events) := by
  intro hall
  exact absurd (hall lateAnswer) (by decide)

end TerminalWorld

end VisualCpu
