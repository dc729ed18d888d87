import Mathlib.Data.Int.Notation
import Mathlib.Data.List.Basic

/-!
# Sliding windows

A limiter keeps the times it admitted, drops those that left the window and admits while
fewer than its limit remain. Over any nondecreasing offers, no window of that length then
holds more admitted times than the limit.
-/

namespace VisualCpu

open List

/-- The times up to a cutoff leave from the front. -/
def slide (cutoff : ℤ) (bucket : List ℤ) : List ℤ := bucket.dropWhile fun time => time ≤ cutoff

theorem slide_eq_filter (cutoff : ℤ) {bucket : List ℤ} (hsorted : bucket.Pairwise (· ≤ ·)) :
    slide cutoff bucket = bucket.filter fun time => cutoff < time := by
  induction bucket with
  | nil => rfl
  | cons time rest ih =>
    rw [pairwise_cons] at hsorted
    by_cases htime : time ≤ cutoff
    · rw [slide, dropWhile_cons_of_pos (by simpa using htime),
        filter_cons_of_neg (by simpa using htime)]
      exact ih hsorted.2
    rw [slide, dropWhile_cons_of_neg (by simpa using htime)]
    symm
    apply filter_eq_self.2
    intro other hother
    rcases mem_cons.1 hother with rfl | hrest
    · simpa using htime
    have := hsorted.1 other hrest
    simp only [decide_eq_true_eq]
    omega

/-- The kept times of a limiter and every time it admitted. -/
structure WindowLog where
  (bucket admitted : List ℤ)

namespace WindowLog

variable (limit : ℕ) (window : ℤ)

def offer (log : WindowLog) (time : ℤ) : WindowLog :=
  if limit ≤ (slide (time - window) log.bucket).length then
    { log with bucket := slide (time - window) log.bucket }
  else ⟨slide (time - window) log.bucket ++ [time], log.admitted ++ [time]⟩

def inWindow (log : WindowLog) (start : ℤ) : List ℤ :=
  log.admitted.filter fun time => start ≤ time ∧ time < start + window

/-- The log after offers up to the time `last`. -/
structure Within (log : WindowLog) (last : ℤ) : Prop where
  kept : log.bucket = log.admitted.filter fun time => last - window < time
  sorted : log.admitted.Pairwise (· ≤ ·)
  past : ∀ time ∈ log.admitted, time ≤ last
  bound : ∀ start, (log.inWindow window start).length ≤ limit

variable {limit window}

theorem inWindow_offer (log : WindowLog) (time start : ℤ) :
    ((log.offer limit window time).inWindow window start).length =
      (log.inWindow window start).length +
        if (slide (time - window) log.bucket).length < limit ∧
          start ≤ time ∧ time < start + window then 1 else 0 := by
  rw [offer]
  by_cases hfull : limit ≤ (slide (time - window) log.bucket).length
  · rw [if_pos hfull, if_neg fun hroom => absurd hroom.1 (Nat.not_lt.2 hfull)]
    rfl
  rw [if_neg hfull, inWindow, filter_append, length_append]
  by_cases htime : start ≤ time ∧ time < start + window
  · rw [if_pos ⟨Nat.lt_of_not_le hfull, htime⟩, filter_cons_of_pos (by simpa using htime)]
    rfl
  rw [if_neg fun h => htime h.2, filter_cons_of_neg (by simpa using htime)]
  rfl

theorem within_nil (last : ℤ) : Within limit window ⟨[], []⟩ last :=
  ⟨rfl, List.Pairwise.nil, by simp, fun _ => Nat.zero_le _⟩

section

variable {log : WindowLog} {last time : ℤ} (h : Within limit window log last)

include h

theorem Within.slide_bucket (hlast : last ≤ time) : slide (time - window) log.bucket =
      log.admitted.filter fun earlier => time - window < earlier := by
  rw [slide_eq_filter _ (h.kept ▸ h.sorted.filter _), h.kept, filter_filter]
  apply filter_congr
  intro earlier _
  rw [Bool.and_eq_left_iff_imp]
  simp only [decide_eq_true_eq]
  omega

theorem Within.bound_admit
    (hlast : last ≤ time) (hroom : (slide (time - window) log.bucket).length < limit)
    (start : ℤ) : ((log.offer limit window time).inWindow window start).length ≤ limit := by
  rw [inWindow_offer]
  by_cases htime : start ≤ time ∧ time < start + window
  · rw [if_pos ⟨hroom, htime⟩]
    have hsub : (log.inWindow window start).length ≤ (slide (time - window) log.bucket).length := by
      rw [h.slide_bucket hlast]
      apply List.Sublist.length_le
      apply monotone_filter_right
      intro earlier hearlier
      simp only [decide_eq_true_eq] at hearlier ⊢
      omega
    omega
  · rw [if_neg fun h => htime h.2]
    exact h.bound start

theorem Within.offer (hwindow : 0 < window) (hlast : last ≤ time) :
    Within limit window (log.offer limit window time) time := by
  have hslide := h.slide_bucket hlast
  have hpast : ∀ earlier ∈ log.admitted, earlier ≤ time :=
    fun earlier hearlier => Int.le_trans (h.past earlier hearlier) hlast
  by_cases hfull : limit ≤ (slide (time - window) log.bucket).length
  · rw [WindowLog.offer, if_pos hfull]
    exact ⟨hslide, h.sorted, hpast, h.bound⟩
  have hbound := h.bound_admit hlast (Nat.lt_of_not_le hfull)
  rw [WindowLog.offer, if_neg hfull] at hbound ⊢
  refine ⟨?_, ?_, ?_, hbound⟩
  · rw [filter_append, ← hslide, filter_cons_of_pos (by simp; omega)]
    rfl
  · apply pairwise_append.2
    refine ⟨h.sorted, pairwise_singleton _ _, ?_⟩
    intro earlier hearlier other hother
    rw [mem_singleton] at hother
    exact hother ▸ hpast earlier hearlier
  · intro earlier hearlier
    rcases mem_append.1 hearlier with hold | hnew
    · exact hpast earlier hold
    · exact Int.le_of_eq (mem_singleton.1 hnew)

end

end WindowLog

end VisualCpu
