import VisualCpu.Frontend.BroadcastOrder

/-!
# Who owns a session

A load creates a session, publishes it or closes it, and closes the one it replaces. While
it runs nothing else touches the sessions, unless `close` is called: that is the only call
that works beside the queue.
-/

namespace VisualCpu

open List Action

open Coroutine (Every Holds)

def Task.isLoad (task : Task) : Bool :=
  match task.kind with
  | .call call => call.isLoad
  | .tick _ => false

/-- Every session is current, closed or on its way; the current one was created. -/
structure Accounted (s : DebugRuntime) : Prop where
  each : ∀ id, id < s.created →
    s.currentSession = some id ∨ id ∈ s.closed ∨ s.nextSession = some id
  current : ∀ id, s.currentSession = some id → id < s.created

/-- What happens beside the queue while a load waits. -/
structure SameView (s s' : DebugRuntime) : Prop where
  view : s'.view = s.view
  created : s'.created = s.created
  closed : s'.closed = s.closed
  nextSession : s'.nextSession = s.nextSession
  broadcasts : ∀ b ∈ s.broadcasts, b ∈ s'.broadcasts

theorem SameView.refl (s : DebugRuntime) : SameView s s := ⟨rfl, rfl, rfl, rfl, fun _ hb => hb⟩

theorem SameView.trans {s s' s'' : DebugRuntime} (h : SameView s s') (h' : SameView s' s'') :
    SameView s s'' :=
  ⟨h'.view.trans h.view, h'.created.trans h.created, h'.closed.trans h.closed,
    h'.nextSession.trans h.nextSession, fun b hb => h'.broadcasts b (h.broadcasts b hb)⟩

variable {s s' : DebugRuntime}

theorem SameView.currentSession (h : SameView s s') :
    s'.currentSession = s.currentSession := congrArg SessionView.session h.view

theorem Accounted.sameView (h : Accounted s) (hsame : SameView s s') : Accounted s' := by
  constructor
  · intro id hid
    rw [hsame.currentSession, hsame.closed, hsame.nextSession]
    exact h.each id (by rw [← hsame.created]; exact hid)
  · intro id hid
    rw [hsame.created]
    exact h.current id (by rw [← hsame.currentSession]; exact hid)

/-- A load has failed without a broadcast of its own only if nothing has changed. -/
def LeftAlone (task : Task) (start finish : DebugRuntime) : Prop :=
  (∃ b ∈ finish.broadcasts, b.task = task) ∨
    finish.view = start.view ∧ (start.usable → finish.usable)

/-- The end of a load. -/
structure LoadPost (task : Task) (start : DebugRuntime) (result : Except RuntimeError Unit)
    (s : DebugRuntime) : Prop where
  accounted : Accounted s
  nextSession : s.nextSession = none
  leftAlone : RuntimeWorld.isFailed result → LeftAlone task start s

/-- A load with the session it has created. -/
structure Preparing (start : DebugRuntime) (id : ℕ) (s : DebugRuntime) : Prop where
  view : s.view = start.view
  closed : s.closed = start.closed
  created : s.created = start.created + 1
  newest : id = start.created
  nextSession : s.nextSession = some id

namespace Preparing

variable {start s s' : DebugRuntime} {id : ℕ}

variable (h : Preparing start id s)

include h

theorem currentSession : s.currentSession = start.currentSession :=
  congrArg SessionView.session h.view

theorem accounted (hstart : Accounted start)
    (hnone : start.nextSession = none) : Accounted s := by
  constructor
  · intro other hother
    rw [h.created] at hother
    rw [h.currentSession, h.closed, h.nextSession]
    by_cases hnew : other = start.created
    · exact .inr (.inr (by rw [hnew, h.newest]))
    rcases hstart.each other (by omega) with hcurrent | hclosed | hnext
    · exact .inl hcurrent
    · exact .inr (.inl hclosed)
    rw [hnone] at hnext
    cases hnext
  · intro other hother
    rw [h.currentSession] at hother
    rw [h.created]
    exact Nat.lt_succ_of_lt (hstart.current other hother)

theorem sameView (hsame : SameView s s') : Preparing start id s' :=
  ⟨hsame.view.trans h.view, hsame.closed.trans h.closed, hsame.created.trans h.created, h.newest,
    hsame.nextSession.trans h.nextSession⟩

end Preparing

namespace Action

variable {atWait : DebugRuntime → Prop} {rely : DebugRuntime → DebugRuntime → Prop}
  {post : Except RuntimeError Unit → DebugRuntime → Prop}

theorem assertGeneration_holds
    {generation : ℕ} {s : DebugRuntime} (hstale : post (.error .staleSession) s)
    (hok : post (.ok ()) s) : Holds atWait rely post (assertGeneration generation) s := by
  refine Holds.bind (Holds.get ?_)
  simp only
  split
  · exact hstale
  · exact hok

theorem closeQuietly_holds {id : ℕ}
    {s : DebugRuntime} (hwait : atWait (s.markClosed id))
    (hpost : ∀ s', rely (s.markClosed id) s' → post (.ok ()) s') :
    Holds atWait rely post (closeQuietly id) s := by
  refine Holds.bind (Holds.modify (Holds.tryCatch (Holds.bind ?_)))
  refine Holds.call hwait fun x s' hs => ?_
  cases x with
  | ok x => exact hpost s' hs
  | error e => exact hpost s' hs

end Action

section Load

variable {task : Task} {start : DebugRuntime}

theorem loadPost_failed (hstart : Accounted start) (hnone : start.nextSession = none)
    {id : ℕ} {s s' : DebugRuntime} (h : Preparing start id s)
    (hsame : SameView (s.markClosed id) s') (result : Except RuntimeError Unit) :
    LoadPost task start result s' := by
  have hview : s'.view = start.view := hsame.view.trans h.view
  have hcurrent : s'.currentSession = start.currentSession := congrArg SessionView.session hview
  have hclosed : s'.closed = start.closed ++ [id] := by
    rw [hsame.closed]
    simp only [DebugRuntime.markClosed, h.closed]
  have hcreated : s'.created = start.created + 1 := hsame.created.trans h.created
  have hnext : s'.nextSession = none := by
    rw [hsame.nextSession]
    simp only [DebugRuntime.markClosed, h.nextSession, if_true]
  refine ⟨⟨fun other hother => ?_, fun other hother => ?_⟩, hnext, fun _ => .inr ⟨hview, ?_⟩⟩
  · rw [hcreated] at hother
    rw [hcurrent, hclosed]
    by_cases hnew : other = start.created
    · exact .inr (.inl (mem_append_right _ (by rw [hnew, h.newest]; simp)))
    rcases hstart.each other (by omega) with hold | hold | hold
    · exact .inl hold
    · exact .inr (.inl (mem_append_left _ hold))
    rw [hnone] at hold
    cases hold
  · rw [hcurrent] at hother
    rw [hcreated]
    exact Nat.lt_succ_of_lt (hstart.current other hother)
  · rintro ⟨current, hsession, hopen⟩
    have hlt := hstart.current current hsession
    refine ⟨current, hcurrent.trans hsession, ?_⟩
    rw [hclosed, mem_append, mem_singleton, h.newest]
    rintro (hmem | heq)
    · exact hopen hmem
    · omega

variable (task) in
theorem prepareSession_holds (hstart : Accounted start) (hnone : start.nextSession = none)
    (generation : ℕ) (entry : DebugEntry) (backend : String) :
    Holds Accounted SameView (fun result s =>
      match result with
      | .ok nextState => Preparing start nextState.1 s
      | .error e => LoadPost task start (.error e) s)
      (prepareSession generation entry backend) start := by
  refine Holds.bind ?_
  refine Holds.bind (Holds.call hstart fun x s' hs => ?_)
  cases x with
  | error e =>
    exact ⟨hstart.sameView hs, hs.nextSession.trans hnone, fun _ => .inr ⟨hs.view, by
      rintro ⟨current, hsession, hopen⟩
      exact ⟨current, hs.currentSession.trans hsession, by rw [hs.closed]; exact hopen⟩⟩⟩
  | ok x =>
    refine Holds.bind (Holds.get (Holds.bind (Holds.modify ?_)))
    have hcreated : Preparing start s'.created
        { s' with created := s'.created + 1, nextSession := some s'.created } :=
      ⟨hs.view, hs.closed, by simp only [hs.created], hs.created, rfl⟩
    have hinit : Every (fun s s' : DebugRuntime => s' = s) (fun _ : RuntimeRequest => True)
        (initializeSessionState s'.created entry backend) :=
      initializeSessionState_every _ _ _ fun _ => trivial
    have hfailed : ∀ e s, Preparing start s'.created s →
        Holds Accounted SameView (fun result s =>
          match result with
          | .ok nextState => Preparing start nextState.1 s
          | .error e => LoadPost task start (.error e) s)
          (do
            closeQuietly s'.created
            fail e : Action (ℕ × SessionResponse × SessionResponse)) s := by
      intro e s hs
      refine Holds.bind (closeQuietly_holds ?_ fun s' hsame => ?_)
      · exact (@loadPost_failed task start hstart hnone _ _ _ hs (SameView.refl _)
          (.error e)).accounted
      · exact loadPost_failed hstart hnone hs hsame _
    refine Holds.tryCatch (Holds.bind
      ((hinit.holds (I := Preparing start s'.created) ?_ ?_ ?_ hcreated).mono ?_))
    · rintro s _ rfl h
      exact h
    · exact fun s s' hsame h => h.sameView hsame
    · exact fun s h => h.accounted hstart hnone
    · intro result s hs
      cases result with
      | error e => exact hfailed e s hs
      | ok nextState => exact Holds.bind (assertGeneration_holds (hfailed _ s hs) hs)

theorem published_each (hstart : Accounted start) (hnone : start.nextSession = none) {id : ℕ}
    {s s' : DebugRuntime} (h : Preparing start id s) (hcurrent : s'.currentSession = some id)
    (hcreated : s'.created = s.created) (hclosed : ∀ other ∈ s.closed, other ∈ s'.closed)
    (hreplaced : ∀ other, start.currentSession = some other → other ∈ s'.closed) :
    Accounted s' := by
  constructor
  · intro other hother
    rw [hcreated, h.created] at hother
    by_cases hnew : other = start.created
    · exact .inl (by rw [hcurrent, hnew, h.newest])
    rcases hstart.each other (by omega) with hold | hold | hold
    · exact .inr (.inl (hreplaced other hold))
    · exact .inr (.inl (hclosed other (by rw [h.closed]; exact hold)))
    rw [hnone] at hold
    cases hold
  · intro other hother
    rw [hcurrent, Option.some.injEq] at hother
    rw [hcreated, h.created, ← hother, h.newest]
    exact Nat.lt_succ_self _

theorem load_holds (hstart : Accounted start) (hnone : start.nextSession = none)
    (entry : DebugEntry) (backend : String) :
    Holds Accounted SameView (LoadPost task start) (load task entry backend) start := by
  refine Holds.bind (Holds.get ?_)
  refine Holds.bind (assertGeneration_holds ?_ ?_)
  · exact ⟨hstart, hnone, fun _ => .inr ⟨rfl, fun h => h⟩⟩
  refine Holds.bind ((prepareSession_holds task hstart hnone _ entry backend).mono ?_)
  intro result s hresult
  cases result with
  | error e => exact hresult
  | ok nextState =>
    refine Holds.bind (Holds.bind (Holds.modify (Holds.bind (Holds.modify (Holds.modify ?_)))))
    cases hsession : start.currentSession with
    | none =>
      refine ⟨published_each hstart hnone hresult rfl rfl (fun _ hother => hother) ?_, rfl,
        fun hfailed => (by cases hfailed)⟩
      intro other hother
      rw [hsession] at hother
      cases hother
    | some previous =>
      have hpublished : ∀ s' : DebugRuntime, s'.currentSession = some nextState.1 →
          s'.created = s.created → s'.closed = s.closed ++ [previous] → Accounted s' := by
        intro s' hcurrent hcreated hclosed
        refine published_each hstart hnone hresult hcurrent hcreated ?_ ?_
        · intro other hother
          rw [hclosed]
          exact mem_append_left _ hother
        intro other hother
        rw [hsession, Option.some.injEq] at hother
        rw [hclosed, hother]
        exact mem_append_right _ (mem_singleton_self _)
      refine Holds.bind (closeQuietly_holds ?_ fun s' hsame => ?_)
      · exact hpublished _ rfl rfl rfl
      have haccounted : Accounted s' := by
        refine Accounted.sameView ?_ hsame
        exact hpublished _ rfl rfl rfl
      have hnext : s'.nextSession = none :=
        hsame.nextSession.trans (by simp [DebugRuntime.markClosed, DebugRuntime.broadcast])
      have hbroadcast : ∃ b ∈ s'.broadcasts, b.task = task :=
        ⟨_, hsame.broadcasts _ (mem_append_right _ (mem_singleton_self _)), rfl⟩
      exact assertGeneration_holds ⟨haccounted, hnext, fun _ => .inl hbroadcast⟩
        ⟨haccounted, hnext, fun hfailed => (by cases hfailed)⟩

end Load

end VisualCpu
