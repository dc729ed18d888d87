import Mathlib.Data.List.Perm.Basic
import VisualCpu.Frontend.ActionFrames
import VisualCpu.Frontend.RuntimeWorld

/-!
# Pausing the run loop

At most one loop schedules ticks at any time. A pause makes the token of that loop stale at
its call, but a `run` called before it may still wait in the queue; in every run without that
order, no tick steps the machine after a pause until a later `run` takes effect.
-/

namespace VisualCpu

open List DebugRuntime

open Coroutine (Every)

/-- The loop goes on, or it was stopped and none was started. -/
def LoopKept (s s' : DebugRuntime) : Prop :=
  (s'.runLoopToken = s.runLoopToken ∧ s'.timers = s.timers ∧ s'.runTimer = s.runTimer) ∨
    (s.runLoopToken < s'.runLoopToken ∧ s'.timers = s.stopRunLoop.timers ∧ s'.runTimer = none)

structure LoopFrame (s s' : DebugRuntime) : Prop where
  generation : s'.currentGeneration = s.currentGeneration
  loop : LoopKept s s'

theorem LoopKept.trans {s s' s'' : DebugRuntime} (h : LoopKept s s') (h' : LoopKept s' s'') :
    LoopKept s s'' := by
  rcases h with ⟨htoken, htimers, htimer⟩ | ⟨htoken, htimers, htimer⟩
  · rcases h' with ⟨htoken', htimers', htimer'⟩ | ⟨htoken', htimers', htimer'⟩
    · exact .inl ⟨htoken'.trans htoken, htimers'.trans htimers, htimer'.trans htimer⟩
    refine .inr ⟨by omega, ?_, htimer'⟩
    rw [htimers']
    simp only [stopRunLoop, htimers, htimer]
  · rcases h' with ⟨htoken', htimers', htimer'⟩ | ⟨htoken', htimers', htimer'⟩
    · exact .inr ⟨by omega, htimers'.trans htimers, htimer'.trans htimer⟩
    refine .inr ⟨by omega, ?_, htimer'⟩
    rw [htimers', ← htimers]
    simp only [stopRunLoop, htimer]

theorem LoopKept.stop (s : DebugRuntime) : LoopKept s s.stopRunLoop :=
  Or.inr ⟨Nat.lt_succ_self _, rfl, rfl⟩

namespace LoopFrame

theorem refl (s : DebugRuntime) : LoopFrame s s := ⟨rfl, .inl ⟨rfl, rfl, rfl⟩⟩

theorem trans (s s' s'' : DebugRuntime) (h : LoopFrame s s') (h' : LoopFrame s' s'') :
    LoopFrame s s'' :=
  ⟨h'.generation.trans h.generation, h.loop.trans h'.loop⟩

theorem allowsShow (task : Task) : AllowsShow LoopFrame task where
  refl := refl
  screen _ _ _ _ := ⟨rfl, .inl ⟨rfl, rfl, rfl⟩⟩
  broadcast _ _ := ⟨rfl, .inl ⟨rfl, rfl, rfl⟩⟩

theorem ignoresSessions : Action.IgnoresSessions LoopFrame := by
  intro s s' _ h
  exact ⟨h.generation, .inl ⟨h.token, h.timers, h.runTimer⟩⟩

theorem stop (s : DebugRuntime) : LoopFrame s s.stopRunLoop := ⟨rfl, LoopKept.stop s⟩

end LoopFrame

/-- The timers that are armed and the ticks in flight whose token is not stale. -/
def schedulingLoops (s : DebugRuntime) (loops : List RunLoop) : List RunLoop :=
  s.timers.map Prod.snd ++ loops.filter fun loop => loop.token = s.runLoopToken

/-- At most one loop schedules ticks, and it is as `ok` says. -/
structure LoopsSound (s : DebugRuntime) (loops : List RunLoop) (ok : ℕ → Prop) : Prop where
  timer : (s.runTimer = none ∧ s.timers = []) ∨
    ∃ handle loop, s.runTimer = some handle ∧ s.timers = [(handle, loop)] ∧
      loop.token = s.runLoopToken
  one : (schedulingLoops s loops).length ≤ 1
  tokens : ∀ loop ∈ loops, loop.token ≤ s.runLoopToken
  live : ∀ loop ∈ schedulingLoops s loops, ok loop.run

namespace LoopsSound

variable {s s' : DebugRuntime} {loops loops' : List RunLoop} {ok ok' : ℕ → Prop}

section

variable (h : LoopsSound s loops ok)

include h

theorem timers_stop : s.stopRunLoop.timers = [] := by
  rcases h.timer with ⟨htimer, htimers⟩ | ⟨handle, loop, htimer, htimers, _⟩
  · simp [stopRunLoop, htimer, htimers]
  · simp [stopRunLoop, htimer, htimers]

theorem stale {token : ℕ} (htoken : s.runLoopToken < token) :
    (loops.filter fun loop => loop.token = token) = [] := by
  rw [filter_eq_nil_iff]
  intro loop hloop heq
  have := h.tokens loop hloop
  have := of_decide_eq_true heq
  omega

theorem kept (hkept : LoopKept s s') : LoopsSound s' loops ok := by
  rcases hkept with ⟨htoken, htimers, htimer⟩ | ⟨htoken, htimers, htimer⟩
  · have hsame : schedulingLoops s' loops = schedulingLoops s loops := by
      simp only [schedulingLoops, htoken, htimers]
    constructor
    · rw [htimers, htimer, htoken]
      exact h.timer
    · rw [hsame]
      exact h.one
    · rw [htoken]
      exact h.tokens
    · rw [hsame]
      exact h.live
  · have hnone : schedulingLoops s' loops = [] := by
      simp only [schedulingLoops, htimers, h.timers_stop, h.stale htoken, map_nil, append_nil]
    constructor
    · exact .inl ⟨htimer, htimers.trans h.timers_stop⟩
    · simp [hnone]
    · intro loop hloop
      exact Nat.le_trans (h.tokens loop hloop) (Nat.le_of_lt htoken)
    · simp [hnone]

theorem perm (hperm : loops.Perm loops') : LoopsSound s loops' ok := by
  have hscheduling : (schedulingLoops s loops).Perm (schedulingLoops s loops') :=
    (hperm.filter _).append_left _
  refine ⟨h.timer, ?_, fun loop hloop => h.tokens loop (hperm.mem_iff.2 hloop), ?_⟩
  · rw [← hscheduling.length_eq]
    exact h.one
  intro loop hloop
  exact h.live loop (hscheduling.mem_iff.2 hloop)

theorem mono (himp : ∀ n, ok n → ok' n) : LoopsSound s loops ok' :=
  ⟨h.timer, h.one, h.tokens, fun loop hloop => himp _ (h.live loop hloop)⟩

end

variable {loop : RunLoop}

theorem alone (h : LoopsSound s (loop :: loops) ok) (htoken : loop.token = s.runLoopToken) :
    s.timers = [] ∧ (loops.filter fun loop => loop.token = s.runLoopToken) = [] ∧ ok loop.run := by
  have hone := h.one
  have hlive := h.live loop
  simp only [schedulingLoops, filter_cons, htoken, decide_true, if_true, length_append,
    length_map, length_cons, mem_append, mem_cons, true_or, or_true,
    forall_true_left] at hone hlive
  exact ⟨length_eq_zero_iff.1 (by omega), length_eq_zero_iff.1 (by omega), hlive⟩

theorem tail (h : LoopsSound s (loop :: loops) ok) : LoopsSound s loops ok := by
  have hsub : ∀ other ∈ schedulingLoops s loops, other ∈ schedulingLoops s (loop :: loops) := by
    intro other hother
    simp only [schedulingLoops, mem_append, mem_filter, mem_cons] at hother ⊢
    tauto
  refine ⟨h.timer, ?_, fun other hother => h.tokens other (mem_cons_of_mem _ hother),
    fun other hother => h.live other (hsub other hother)⟩
  have hone := h.one
  simp only [schedulingLoops, length_append, filter_cons] at hone ⊢
  split at hone
  · simp only [length_cons] at hone
    omega
  · exact hone

section

variable (h : LoopsSound s loops ok)

include h

theorem fire {handle : ℕ} {timer : ℕ × RunLoop}
    (hfind : (s.timers.find? fun timer => timer.1 = handle) = some timer) :
    LoopsSound { s with
      timers := s.timers.filter fun timer => timer.1 ≠ handle
      runTimer := none } (timer.2 :: loops) ok := by
  have hmem := List.mem_of_find?_eq_some hfind
  have hhandle := List.find?_some hfind
  rcases h.timer with ⟨_, htimers⟩ | ⟨only, loop, _, htimers, htoken⟩
  · rw [htimers] at hmem
    cases hmem
  rw [htimers, mem_singleton] at hmem
  subst hmem
  have hnone : (s.timers.filter fun timer => timer.1 ≠ handle) = [] := by
    simpa [htimers] using hhandle
  have hfired : only = handle := of_decide_eq_true hhandle
  have hsame : schedulingLoops { s with
      timers := s.timers.filter fun timer => timer.1 ≠ handle
      runTimer := none } (loop :: loops) = schedulingLoops s loops := by
    simp [schedulingLoops, htimers, htoken, hfired]
  refine ⟨.inl ⟨rfl, hnone⟩, by rw [hsame]; exact h.one, ?_, by rw [hsame]; exact h.live⟩
  intro other hother
  rcases mem_cons.1 hother with rfl | hother
  · exact Nat.le_of_eq htoken
  · exact h.tokens other hother

theorem schedule (htimers : s.timers = [])
    (hstale : (loops.filter fun loop => loop.token = s.runLoopToken) = [])
    (hok : loop.token = s.runLoopToken → ok loop.run) :
    LoopsSound (s.scheduleNextTick loop) loops ok := by
  unfold scheduleNextTick
  split_ifs with hskip
  · exact h
  simp only [not_or, ne_eq, not_not] at hskip
  have honly : schedulingLoops { s with
      timers := s.timers ++ [(s.armedTimers, loop)]
      runTimer := some s.armedTimers
      armedTimers := s.armedTimers + 1 } loops = [loop] := by
    simp [schedulingLoops, htimers, hstale]
  refine ⟨.inr ⟨s.armedTimers, loop, rfl, by simp [htimers], hskip.1⟩, by simp [honly],
    h.tokens, ?_⟩
  intro other hother
  rw [honly, mem_singleton] at hother
  rw [hother]
  exact hok hskip.1

theorem stopped : LoopsSound s.stopRunLoop loops ok' := by
  have hstop := h.kept (LoopKept.stop s)
  have hnone : schedulingLoops s.stopRunLoop loops = [] := by
    simp only [schedulingLoops, h.timers_stop, map_nil, nil_append]
    exact h.stale (Nat.lt_succ_self s.runLoopToken)
  exact ⟨hstop.timer, hstop.one, hstop.tokens, by simp [hnone]⟩

theorem restart (intervalMs generation run : ℕ) (hok : ok' run) :
    LoopsSound (s.startRunLoop intervalMs generation run) loops ok' := by
  exact schedule h.stopped h.timers_stop (h.stale (Nat.lt_succ_self s.runLoopToken)) fun _ => hok

end

theorem afterTick (h : LoopsSound s (loop :: loops) ok) (task : Task)
    (error : Option RuntimeError) :
    LoopsSound (RuntimeWorld.afterTick s task loop error) loops ok := by
  have hstopped : LoopsSound (s.broadcast task (.error (error.getD .staleSession))).stopRunLoop
      loops ok := h.tail.kept (LoopFrame.trans _ _ _
        ((LoopFrame.allowsShow task).broadcast s _) (LoopFrame.stop _)).loop
  unfold RuntimeWorld.afterTick
  split
  · exact h.tail
  · exact hstopped
  split_ifs with hgo
  · obtain ⟨htimers, hstale, hok⟩ := h.alone hgo.1
    exact schedule h.tail htimers hstale fun _ => hok
  · exact h.tail

end LoopsSound

end VisualCpu
