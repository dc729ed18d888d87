import Mathlib.Data.List.GetD
import VisualCpu.Library.SecondChance

/-!
# Page replacement in the course memory

A small array of page frames with a clock hand. A touched page that is not resident takes
the first free frame, or else the frame of a victim that the hand chooses. Read from the
hand, the frames are a second-chance queue.
-/

namespace VisualCpu

open List SecondChance

def courseMemoryMaxFrames : ℕ := 16

structure CourseMemoryFrame where
  resident : Bool := false
  pageId : BitVec 32 := 0
  referenced : Bool := false
  dirty : Bool := false
deriving DecidableEq

structure CourseMemoryStats where
  (totalPages freePages : BitVec 32)
  usedPages : BitVec 32 := 0
  pageFaults : BitVec 32 := 0
  pageReclaims : BitVec 32 := 0
deriving DecidableEq

/-- The frames are the first `frame_count` ones of the array, which are all that is read. -/
structure CourseMemory where
  stats : CourseMemoryStats
  frames : List CourseMemoryFrame
  clockHand : ℕ
deriving DecidableEq

namespace CourseMemory

/-- `course_memory_init`. -/
def init (frameCount : BitVec 32) : CourseMemory :=
  let frameCount := min frameCount.toNat courseMemoryMaxFrames
  { stats := { totalPages := BitVec.ofNat 32 frameCount, freePages := BitVec.ofNat 32 frameCount }
    frames := List.replicate frameCount {}
    clockHand := 0 }

def findResidentFrame (memory : CourseMemory) (pageId : BitVec 32) : Option ℕ :=
  memory.frames.findIdx? fun frame => frame.resident && frame.pageId == pageId

def findFreeFrame (memory : CourseMemory) : Option ℕ :=
  memory.frames.findIdx? fun frame => !frame.resident

def countUsedFrames (memory : CourseMemory) : ℕ := memory.frames.countP (·.resident)

/-- The loop of `clock_select_victim`, counting the probes that remain: the selected frame, the
frames and the hand. -/
def clockSelectVictim : ℕ → List CourseMemoryFrame → ℕ → ℕ × List CourseMemoryFrame × ℕ
  | 0, frames, hand => (hand, frames, hand)
  | probes + 1, frames, hand =>
    let frame := frames.getD hand {}
    let next := (hand + 1) % frames.length
    if !frame.referenced then (hand, frames, next)
    else clockSelectVictim probes (frames.set hand { frame with referenced := false }) next

def installedFrame (pageId : BitVec 32) (write : Bool) : CourseMemoryFrame :=
  { resident := true, pageId, referenced := true, dirty := write }

/-- `install_page`. -/
def installPage (memory : CourseMemory) (frameIndex : ℕ) (pageId : BitVec 32) (write : Bool) :
    CourseMemory :=
  { memory with frames := memory.frames.set frameIndex (installedFrame pageId write) }

/-- The counts at the end of `course_memory_touch`. -/
def updateUsed (memory : CourseMemory) : CourseMemory :=
  let used := BitVec.ofNat 32 memory.countUsedFrames
  { memory with stats :=
      { memory.stats with usedPages := used, freePages := memory.stats.totalPages - used } }

/-- `course_memory_touch`: whether the touch is accepted, and the memory after it. -/
def touch (memory : CourseMemory) (pageId : BitVec 32) (write : Bool) : Bool × CourseMemory :=
  if memory.frames.length = 0 then (false, memory)
  else
    match memory.findResidentFrame pageId with
    | some i =>
      (true, { memory with frames := memory.frames.modify i fun frame =>
        { frame with referenced := true, dirty := frame.dirty || write } })
    | none =>
      let stats := { memory.stats with pageFaults := memory.stats.pageFaults + 1 }
      match memory.findFreeFrame with
      | some i => (true, ({ memory with stats }.installPage i pageId write).updateUsed)
      | none =>
        let (i, frames, clockHand) :=
          clockSelectVictim (memory.frames.length * 2) memory.frames memory.clockHand
        let stats := { stats with pageReclaims := stats.pageReclaims + 1 }
        (true, (installPage { stats, frames, clockHand } i pageId write).updateUsed)

def run (memory : CourseMemory) (touches : List (BitVec 32 × Bool)) : CourseMemory :=
  touches.foldl (fun memory touched => (memory.touch touched.1 touched.2).2) memory

inductive ClockEvent
  | touched (pageId : BitVec 32)
  | passed (pageId : BitVec 32)

/-- The pages that the hand passes in `clock_select_victim`, with the victim. -/
def passedPages : ℕ → List CourseMemoryFrame → ℕ → List ClockEvent
  | 0, _, _ => []
  | probes + 1, frames, hand =>
    let frame := frames.getD hand {}
    .passed frame.pageId ::
      if !frame.referenced then []
      else passedPages probes (frames.set hand { frame with referenced := false })
        ((hand + 1) % frames.length)

def clockEvents (memory : CourseMemory) (pageId : BitVec 32) : List ClockEvent :=
  (if (memory.findResidentFrame pageId).isNone ∧ memory.findFreeFrame.isNone then
    passedPages (memory.frames.length * 2) memory.frames memory.clockHand else []) ++
      [.touched pageId]

def history : CourseMemory → List (BitVec 32 × Bool) → List ClockEvent
  | _, [] => []
  | memory, (pageId, write) :: touches =>
    memory.clockEvents pageId ++ history (memory.touch pageId write).2 touches

def touchedSince (events : List ClockEvent) (pageId : BitVec 32) : Bool :=
  events.foldl
    (fun since event =>
      match event with
      | .touched other => if other = pageId then true else since
      | .passed other => if other = pageId then false else since) false

/-- The pages in the frames. -/
def residents (memory : CourseMemory) : List (BitVec 32) :=
  (memory.frames.filter (·.resident)).map (·.pageId)

/-- What holds of a memory in a run, given the second-chance queue of the same touches and the
events so far, and of its next touch. -/
structure SecondChanceFifo (queue : List (BitVec 32 × Bool)) (events : List ClockEvent)
    (memory : CourseMemory) (pageId : BitVec 32) (write : Bool) : Prop where
  distinct : memory.residents.Nodup
  accepted : (memory.touch pageId write).1
  resident : pageId ∈ (memory.touch pageId write).2.residents
  evicted : ∀ other ∈ memory.residents, other ∉ (memory.touch pageId write).2.residents ↔
    victim memory.frames.length queue pageId = some other
  victim : ∀ other ∈ victim memory.frames.length queue pageId,
    other ∈ memory.residents ∧
      (touchedSince events other → ∀ page ∈ memory.residents, touchedSince events page =
        true)
  faults : (SecondChance.victim memory.frames.length queue pageId).isSome ↔
    pageId ∉ memory.residents ∧ memory.residents.length = memory.frames.length
  used : memory.stats.usedPages = BitVec.ofNat 32 memory.residents.length
  total : memory.stats.usedPages + memory.stats.freePages = memory.stats.totalPages ∧
    memory.stats.totalPages = BitVec.ofNat 32 memory.frames.length
  balance : memory.stats.pageFaults = memory.stats.pageReclaims + memory.stats.usedPages

def entry (frame : CourseMemoryFrame) : BitVec 32 × Bool := (frame.pageId, frame.referenced)

theorem modify_eq_map {α : Type} {p : α → Bool} {change : α → α} {l : List α} {i : ℕ}
    (h : l.findIdx? p = some i) (hunique : l.countP p ≤ 1) :
    l.modify i change = l.map fun x => if p x then change x else x := by
  induction l generalizing i with
  | nil => simp at h
  | cons x l ih =>
    rw [List.findIdx?_cons] at h
    cases hx : p x with
    | true =>
      obtain rfl : 0 = i := by simpa [hx] using h
      have hnone : ∀ y ∈ l, p y = false := by
        rw [countP_cons_of_pos hx] at hunique
        simpa using countP_eq_zero.1 (Nat.le_zero.1 (Nat.le_of_succ_le_succ hunique))
      have hsame : l.map (fun y => if p y then change y else y) = l.map id :=
        map_congr_left fun y hy => by rw [hnone y hy]; rfl
      rw [map_cons, if_pos hx, hsame, map_id]
      rfl
    | false =>
      rw [countP_cons_of_neg (by simp [hx])] at hunique
      cases hfind : l.findIdx? p with
      | none => simp [hx, hfind] at h
      | some j =>
        obtain rfl : j + 1 = i := by simpa [hx, hfind] using h
        simp [hx, ih hfind hunique]

theorem touchedSince_concat (events : List ClockEvent) (event : ClockEvent) (pageId : BitVec 32) :
    touchedSince (events ++ [event]) pageId =
      match event with
      | .touched other => if other = pageId then true else touchedSince events pageId
      | .passed other => if other = pageId then false else touchedSince events pageId := by
  rw [touchedSince, foldl_append]
  cases event <;> rfl

theorem clockSelectVictim_spec {probes hand : ℕ} {frames : List CourseMemoryFrame}
    (hhand : hand < frames.length) (hprobes : frames.countP (·.referenced) < probes) :
    ∃ victim rest, select ((frames.rotate hand).map entry) =
        some (victim, rest.map entry) ∧
      ((∀ frame ∈ frames, frame.resident) → ∀ frame ∈ rest, frame.resident) ∧
      (clockSelectVictim probes frames hand).2.2 < frames.length ∧
      (clockSelectVictim probes frames hand).2.1.length = frames.length ∧
      (∀ frame, ((clockSelectVictim probes frames hand).2.1.set
        (clockSelectVictim probes frames hand).1 frame).rotate
          (clockSelectVictim probes frames hand).2.2 = rest ++ [frame]) ∧
      ∀ events, (∀ frame ∈ frames, frame.referenced = touchedSince events frame.pageId) →
        (frames.map (·.pageId)).Nodup → ∀ frame ∈ rest,
          frame.referenced = touchedSince (events ++ passedPages probes frames hand)
            frame.pageId := by
  induction probes generalizing frames hand with
  | zero => exact absurd hprobes (Nat.not_lt_zero _)
  | succ probes ih =>
    have hnext : (hand + 1) % frames.length < frames.length := Nat.mod_lt _ (by omega)
    have hget : frames.getD hand {} = frames[hand] := getD_eq_getElem _ _ hhand
    have hring := rotate_eq_cons hhand
    have hmem : frames[hand] ∈ frames := getElem_mem hhand
    set rest := frames.drop (hand + 1) ++ frames.take hand with hrest
    have hperm : frames.Perm (frames[hand] :: rest) := by
      rw [← hring]
      exact (rotate_perm frames hand).symm
    unfold clockSelectVictim passedPages
    dsimp only
    rw [hget]
    have hpassed : ∀ events,
      (∀ frame ∈ frames, frame.referenced = touchedSince events frame.pageId) →
        (frames.map (·.pageId)).Nodup → ∀ frame ∈ rest, frame.referenced =
          touchedSince (events ++ [.passed frames[hand].pageId]) frame.pageId := by
      intro events hsince hdistinct frame hframe
      have hne : frames[hand].pageId ≠ frame.pageId := by
        intro heq
        have hnodup := (hperm.map (·.pageId)).nodup_iff.1 hdistinct
        rw [map_cons, nodup_cons] at hnodup
        exact hnodup.1 (heq ▸ mem_map_of_mem hframe)
      rw [touchedSince_concat]
      dsimp only
      rw [if_neg hne]
      exact hsince frame (hperm.mem_iff.2 (mem_cons_of_mem _ hframe))
    cases hbit : frames[hand].referenced with
    | false =>
      refine ⟨frames[hand].pageId, rest, ?_, ?_, hnext, rfl, ?_, ?_⟩
      · rw [hring, map_cons, entry, hbit, select]
      · intro hall frame hframe
        exact hall frame (hperm.mem_iff.2 (mem_cons_of_mem _ hframe))
      · intro frame
        exact rotate_set_succ hhand frame
      · intro events hsince hdistinct
        exact hpassed events hsince hdistinct
    | true =>
      set cleared : CourseMemoryFrame := { frames[hand] with referenced := false } with hcleared
      have hlength : (frames.set hand cleared).length = frames.length := length_set
      have hturned := rotate_set_succ hhand cleared
      rw [← hrest] at hturned
      have hperm' : (frames.set hand cleared).Perm (rest ++ [cleared]) := by
        rw [← hturned]
        exact (rotate_perm _ _).symm
      have hcount : (frames.set hand cleared).countP (·.referenced) < probes := by
        rw [hperm.countP_eq, countP_cons_of_pos hbit] at hprobes
        rw [hperm'.countP_eq, countP_append]
        simpa [hcleared] using Nat.lt_of_succ_lt_succ hprobes
      obtain ⟨victim, after, hselect, hresident, hhand', hlength', hset, hhistory⟩ :=
        @ih ((hand + 1) % frames.length) (frames.set hand cleared) (hlength.symm ▸ hnext) hcount
      rw [hlength] at hhand' hlength'
      refine ⟨victim, after, ?_, fun hall => hresident fun frame hframe => ?_, hhand', hlength',
        hset,
        fun events hsince hdistinct => ?_⟩
      · rw [hturned, map_append] at hselect
        rw [hring, map_cons, entry, hbit, select]
        exact hselect
      · rcases mem_append.1 (hperm'.mem_iff.1 hframe) with hrest | hlast
        · exact hall frame (hperm.mem_iff.2 (mem_cons_of_mem _ hrest))
        rw [mem_singleton.1 hlast]
        exact (hall frames[hand] hmem : frames[hand].resident)
      · have hlater := hhistory (events ++ [.passed frames[hand].pageId]) ?_ ?_
        · rw [List.append_assoc] at hlater
          exact hlater
        · intro frame hframe
          rcases mem_append.1 (hperm'.mem_iff.1 hframe) with hrest | hlast
          · exact hpassed events hsince hdistinct frame hrest
          rw [mem_singleton.1 hlast, touchedSince_concat]
          exact (if_pos rfl).symm
        · rw [(hperm'.map (·.pageId)).nodup_iff, map_append]
          exact (perm_append_comm.trans (hperm.map (·.pageId)).symm).nodup_iff.2 hdistinct

/-- The memory is the queue, read from the hand: the free frames come last, and the hand has
not moved while there are some. -/
structure Holds (queue : List (BitVec 32 × Bool)) (events : List ClockEvent)
    (memory : CourseMemory) : Prop where
  hand : memory.clockHand < memory.frames.length
  order : ∃ filled free, memory.frames.rotate memory.clockHand = filled ++ free ∧
    (∀ frame ∈ filled, frame.resident) ∧ (∀ frame ∈ free, frame.resident = false) ∧
      (free ≠ [] → memory.clockHand = 0) ∧ filled.map entry = queue
  distinct : (queue.map Prod.fst).Nodup
  since : ∀ page ∈ queue, page.2 = touchedSince events page.1
  used : memory.stats.usedPages = BitVec.ofNat 32 queue.length
  free : memory.stats.freePages = memory.stats.totalPages - memory.stats.usedPages
  total : memory.stats.totalPages = BitVec.ofNat 32 memory.frames.length
  balance : memory.stats.pageFaults = memory.stats.pageReclaims + memory.stats.usedPages

variable {memory : CourseMemory} {queue : List (BitVec 32 × Bool)} {events : List ClockEvent}

theorem Holds.residents_perm (h : Holds queue events memory) :
    memory.residents.Perm (queue.map Prod.fst) := by
  obtain ⟨filled, free, hring, hfilled, hfree, -, hqueue⟩ := h.order
  have hperm : memory.frames.Perm (filled ++ free) := by
    rw [← hring]
    exact (rotate_perm _ _).symm
  have hfilter : (filled ++ free).filter (·.resident) = filled := by
    rw [filter_append, filter_eq_self.2 hfilled,
      filter_eq_nil_iff.2 fun frame hframe => by simp [hfree frame hframe], append_nil]
  rw [residents, ← hqueue, map_map]
  exact ((hperm.filter _).trans (List.Perm.of_eq hfilter)).map _

theorem init_holds {frameCount : BitVec 32} (h : frameCount ≠ 0) : Holds [] []
    (init frameCount) := by
  have hpos : 0 < min frameCount.toNat courseMemoryMaxFrames := by
    unfold courseMemoryMaxFrames
    have hne : frameCount.toNat ≠ 0 := fun hzero => h (BitVec.eq_of_toNat_eq hzero)
    omega
  refine ⟨?_, ⟨[], _, rfl, by simp, ?_, fun _ => rfl, rfl⟩, nodup_nil, by simp, rfl, ?_, ?_, rfl⟩
  · simpa [init] using hpos
  · intro frame hframe
    rw [(mem_replicate.1 (mem_rotate.1 hframe)).2]
  · exact (BitVec.sub_zero _).symm
  · simp [init]

section

variable (h : Holds queue events memory)

include h

theorem Holds.length_residents :
    memory.countUsedFrames = queue.length ∧ memory.residents.length = queue.length := by
  have hlength := h.residents_perm.length_eq
  rw [length_map] at hlength
  refine ⟨?_, hlength⟩
  rw [← hlength, residents, length_map, countUsedFrames, countP_eq_length_filter]

theorem Holds.find_isSome (pageId : BitVec 32) :
    (memory.findResidentFrame pageId).isSome ↔ pageId ∈ queue.map Prod.fst := by
  rw [← h.residents_perm.mem_iff, findResidentFrame, List.findIdx?_isSome]
  simp [residents, and_assoc]

theorem Holds.hit {pageId : BitVec 32} {i : ℕ} (write : Bool)
    (hfind : memory.findResidentFrame pageId = some i) :
    Holds (SecondChance.touch memory.frames.length queue pageId) (events ++ [.touched pageId])
      { memory with frames := memory.frames.modify i fun frame =>
        { frame with referenced := true, dirty := frame.dirty || write } } := by
  obtain ⟨filled, free, hring, hfilled, hfree, hzero, hqueue⟩ := h.order
  have hpage : pageId ∈ queue.map Prod.fst := by
    rw [← h.find_isSome, hfind]
    rfl
  have hqueue' : SecondChance.touch memory.frames.length queue pageId =
      queue.map fun page => if page.1 = pageId then (pageId, true) else page := if_pos hpage
  have hunique : memory.frames.countP (fun frame => frame.resident && frame.pageId == pageId) ≤
    1 := by
    have hcount := nodup_iff_count_le_one.1 (h.residents_perm.nodup_iff.2 h.distinct) pageId
    rw [residents, count, countP_map, countP_filter] at hcount
    have hsame : memory.frames.countP (fun frame => frame.resident && frame.pageId == pageId) =
        memory.frames.countP fun frame =>
          ((· == pageId) ∘ fun frame : CourseMemoryFrame => frame.pageId) frame && frame.resident :=
      countP_congr fun frame _ => by simp [and_comm]
    rw [hsame]
    exact hcount
  rw [hqueue', modify_eq_map hfind hunique]
  set change : CourseMemoryFrame → CourseMemoryFrame := fun frame =>
    if (frame.resident && frame.pageId == pageId) = true then
      { frame with referenced := true, dirty := frame.dirty || write } else frame with hchange
  have hresident : ∀ frame, (change frame).resident = frame.resident := by
    intro frame
    rw [hchange]
    dsimp only
    split_ifs <;> rfl
  refine ⟨?_, ⟨filled.map change, free.map change, ?_, ?_, ?_, ?_, ?_⟩, ?_, ?_, ?_, h.free, ?_,
    h.balance⟩
  · simpa using h.hand
  · rw [← map_rotate, hring, map_append]
  · simpa [hresident] using hfilled
  · simpa [hresident] using hfree
  · simpa using hzero
  · rw [← hqueue, map_map, map_map]
    apply map_congr_left
    intro frame hframe
    by_cases hid : frame.pageId = pageId <;> simp [hchange, entry, hid, hfilled frame hframe]
  · rw [fst_marked]
    exact h.distinct
  · intro page hpage
    obtain ⟨old, hold, rfl⟩ := mem_map.1 hpage
    rw [touchedSince_concat]
    by_cases hid : old.1 = pageId
    · simp [hid]
    · simpa [hid, Ne.symm hid] using h.since old hold
  · rw [length_map]
    exact h.used
  · rw [length_map]
    exact h.total

end

theorem Holds.install {filled free : List CourseMemoryFrame} {i : ℕ} {pageId : BitVec 32}
    {write : Bool} (hhand : memory.clockHand < memory.frames.length)
    (hring : (memory.installPage i pageId write).frames.rotate memory.clockHand =
      filled ++ installedFrame pageId write :: free)
    (hfilled : ∀ frame ∈ filled, frame.resident)
    (hfree : ∀ frame ∈ free, frame.resident = false) (hzero : free ≠ [] → memory.clockHand = 0)
    (hdistinct : ((filled.map entry).map Prod.fst).Nodup)
    (hpage : pageId ∉ (filled.map entry).map Prod.fst)
    (hsince : ∀ page ∈ filled.map entry, page.2 = touchedSince events page.1)
    (htotal : memory.stats.totalPages = BitVec.ofNat 32 memory.frames.length)
    (hbalance : memory.stats.pageFaults =
      memory.stats.pageReclaims + BitVec.ofNat 32 (filled.length + 1)) :
    Holds (filled.map entry ++ [(pageId, true)]) (events ++ [.touched pageId])
      (memory.installPage i pageId write).updateUsed := by
  set installed := memory.installPage i pageId write with hinstalled
  have hlength : installed.frames.length = memory.frames.length := length_set
  have hused : installed.countUsedFrames = filled.length + 1 := by
    have hperm := (rotate_perm installed.frames memory.clockHand).symm
    rw [countUsedFrames, hperm.countP_eq, hring, countP_append, countP_cons_of_pos rfl,
      countP_eq_length.2 hfilled, countP_eq_zero.2 fun frame hframe => by
        simp [hfree frame hframe]]
  refine ⟨?_, ⟨filled ++ [installedFrame pageId write], free, ?_, ?_, hfree, hzero, ?_⟩, ?_, ?_,
    ?_, rfl, ?_, ?_⟩
  · exact hlength.symm ▸ hhand
  · rw [List.append_assoc]
    exact hring
  · intro frame hframe
    rcases mem_append.1 hframe with hold | hnew
    · exact hfilled frame hold
    rw [mem_singleton.1 hnew]
    rfl
  · rw [map_append]
    rfl
  · rw [map_append, nodup_append_comm]
    exact nodup_cons.2 ⟨hpage, hdistinct⟩
  · intro page hmem
    rw [touchedSince_concat]
    rcases mem_append.1 hmem with hold | hnew
    · have hne : pageId ≠ page.1 := fun heq => hpage (heq ▸ mem_map_of_mem hold)
      dsimp only
      rw [if_neg hne]
      exact hsince page hold
    · rw [mem_singleton.1 hnew]
      exact (if_pos rfl).symm
  · rw [length_append, length_map]
    exact congrArg (BitVec.ofNat 32) hused
  · exact htotal.trans (congrArg (BitVec.ofNat 32) hlength.symm)
  · exact hbalance.trans (congrArg (memory.stats.pageReclaims + BitVec.ofNat 32 ·) hused.symm)

theorem Holds.length_ne_zero (h : Holds queue events memory) : ¬memory.frames.length = 0 := by
  have hhand := h.hand
  omega

section

variable (h : Holds queue events memory) {pageId : BitVec 32} (write : Bool)
  (hfind : memory.findResidentFrame pageId = none)
include h hfind

theorem Holds.fault :
    pageId ∉ queue.map Prod.fst ∧ memory.stats.pageFaults + 1 =
      memory.stats.pageReclaims + BitVec.ofNat 32 (queue.length + 1) := by
  constructor
  · rw [← h.find_isSome, hfind]
    exact Bool.false_ne_true
  rw [h.balance, h.used, BitVec.add_assoc, BitVec.ofNat_add]
  rfl

/-- A fault with a free frame takes it. -/
theorem Holds.fill {i : ℕ} (hfreeFrame : memory.findFreeFrame = some i) :
    (memory.touch pageId write).1 ∧
      (memory.touch pageId write).2.frames.length = memory.frames.length ∧
      Holds (SecondChance.touch memory.frames.length queue pageId)
        (events ++ memory.clockEvents pageId) (memory.touch pageId write).2 := by
  obtain ⟨filled, free, hring, hfilled, hfree, hzero, hqueue⟩ := h.order
  have hlength : (filled ++ free).length = memory.frames.length := by
    rw [← hring, length_rotate]
  have hsize : filled.length = queue.length := by rw [← hqueue, length_map]
  obtain ⟨hpage, hfaults⟩ := h.fault hfind
  have hnonempty := h.length_ne_zero
  rw [CourseMemory.touch, if_neg hnonempty, hfind]
  rw [hfreeFrame]
  obtain ⟨frame, free, rfl⟩ : ∃ frame rest, free = frame :: rest := by
    apply exists_cons_of_ne_nil
    rintro rfl
    obtain ⟨hi, hunused, -⟩ := List.findIdx?_eq_some_iff_getElem.1 hfreeFrame
    have hmem : memory.frames[i] ∈ filled := by
      rw [append_nil] at hring
      rw [← hring]
      exact mem_rotate.2 (getElem_mem hi)
    rw [hfilled _ hmem] at hunused
    cases hunused
  have hhand := hzero (cons_ne_nil _ _)
  rw [hhand, rotate_zero] at hring
  obtain rfl : filled.length = i := by
    have hunused := hfree frame mem_cons_self
    have hnone : filled.findIdx? (fun frame => !frame.resident) = none :=
      List.findIdx?_eq_none_iff.2 fun frame hframe => by rw [hfilled frame hframe]; rfl
    simpa [findFreeFrame, hring, List.findIdx?_append, hnone, List.findIdx?_cons, hunused]
      using hfreeFrame
  have hevents : memory.clockEvents pageId = [.touched pageId] := by
    simp [clockEvents, hfreeFrame]
  have hqueue' : SecondChance.touch memory.frames.length queue pageId =
    queue ++ [(pageId, true)] := by
    rw [SecondChance.touch, if_neg hpage, if_pos]
    rw [← hlength, ← hsize, length_append, length_cons]
    omega
  subst hqueue
  rw [hevents, hqueue']
  have hinstalled : (memory.installPage filled.length pageId write).frames.rotate memory.clockHand =
      filled ++ installedFrame pageId write :: free := by
    simp [installPage, hhand, hring]
  have hunused : ∀ frame ∈ free, frame.resident = false :=
    fun frame hframe => hfree frame (mem_cons_of_mem _ hframe)
  refine ⟨rfl, length_set, Holds.install h.hand hinstalled hfilled hunused (fun _ => hhand)
    h.distinct hpage
    h.since h.total ?_⟩
  rw [hsize]
  exact hfaults

/-- A fault without a free frame evicts the victim of the queue. -/
theorem Holds.replace (hfreeFrame : memory.findFreeFrame = none) :
    (memory.touch pageId write).1 ∧
      (memory.touch pageId write).2.frames.length = memory.frames.length ∧
      Holds (SecondChance.touch memory.frames.length queue pageId)
        (events ++ memory.clockEvents pageId) (memory.touch pageId write).2 := by
  obtain ⟨filled, free, hring, hfilled, hfree, hzero, hqueue⟩ := h.order
  have hlength : (filled ++ free).length = memory.frames.length := by
    rw [← hring, length_rotate]
  have hsize : filled.length = queue.length := by rw [← hqueue, length_map]
  obtain ⟨hpage, hfaults⟩ := h.fault hfind
  have hnonempty := h.length_ne_zero
  rw [CourseMemory.touch, if_neg hnonempty, hfind]
  rw [hfreeFrame]
  have hall : ∀ frame ∈ memory.frames, frame.resident := by
    simpa using List.findIdx?_eq_none_iff.1 hfreeFrame
  obtain rfl : free = [] := by
    rw [eq_nil_iff_forall_not_mem]
    intro frame hframe
    have hmem : frame ∈ memory.frames := by
      rw [← mem_rotate, hring]
      exact mem_append_right _ hframe
    exact Bool.false_ne_true ((hfree frame hframe).symm.trans (hall frame hmem))
  rw [append_nil] at hring hlength
  have hfull : ¬queue.length < memory.frames.length := by omega
  have hprobes : memory.frames.countP (·.referenced) < memory.frames.length * 2 := by
    have hle := countP_le_length (p := fun frame => frame.referenced) (l := memory.frames)
    omega
  obtain ⟨victim, rest, hselect, hresident, hhand, hkept, hset, hhistory⟩ :=
    clockSelectVictim_spec h.hand hprobes
  rw [hring, hqueue] at hselect
  obtain ⟨_, _, _, hselect', -, hperm, -⟩ := @select_spec _ queue (by
    intro hnil
    rw [hnil, length_nil] at hsize
    omega)
  obtain ⟨rfl, rfl⟩ := Prod.mk.inj (Option.some.inj (hselect.symm.trans hselect'))
  have hnodup := hperm.nodup_iff.1 h.distinct
  have hevents : memory.clockEvents pageId =
      passedPages (memory.frames.length * 2)
        memory.frames memory.clockHand ++ [.touched pageId] := by
    simp [clockEvents, hfind, hfreeFrame]
  have hqueue' : SecondChance.touch memory.frames.length queue pageId =
      rest.map entry ++ [(pageId, true)] := by
    rw [SecondChance.touch, if_neg hpage, if_neg hfull, hselect]
  have hcount : queue.length = rest.length + 1 := by
    simpa using hperm.length_eq
  rw [hevents, hqueue', ← List.append_assoc]
  refine ⟨rfl, length_set.trans hkept, Holds.install ?_ (hset _) (hresident hall)
    (fun _ hnil => absurd hnil not_mem_nil)
    (fun hne => absurd rfl hne) (nodup_cons.1 hnodup).2 ?_ ?_ ?_ ?_⟩
  · exact hkept.symm ▸ hhand
  · intro hmem
    exact hpage (hperm.mem_iff.2 (mem_cons_of_mem _ hmem))
  · have hframes : ∀ frame ∈ memory.frames, frame.referenced =
      touchedSince events frame.pageId := by
      intro frame hframe
      rw [← mem_rotate, hring] at hframe
      exact h.since (entry frame) (hqueue ▸ mem_map_of_mem hframe)
    have hids : (memory.frames.map (·.pageId)).Nodup := by
      have hids := h.distinct
      rw [← hqueue, ← hring, map_map, ((rotate_perm _ _).map _).nodup_iff] at hids
      exact hids
    intro page hmem
    obtain ⟨frame, hframe, rfl⟩ := mem_map.1 hmem
    exact hhistory events hframes hids frame hframe
  · exact h.total.trans (congrArg (BitVec.ofNat 32) hkept.symm)
  · rw [hfaults, hcount, BitVec.add_assoc, BitVec.ofNat_add (rest.length + 1), BitVec.add_comm 1]
    rfl

end

section

variable (h : Holds queue events memory)

include h

theorem Holds.touch (pageId : BitVec 32) (write : Bool) :
    (memory.touch pageId write).1 ∧
      (memory.touch pageId write).2.frames.length = memory.frames.length ∧
      Holds (SecondChance.touch memory.frames.length queue pageId)
        (events ++ memory.clockEvents pageId) (memory.touch pageId write).2 := by
  cases hfind : memory.findResidentFrame pageId with
  | some i =>
    have hevents : memory.clockEvents pageId = [.touched pageId] := by simp [clockEvents, hfind]
    rw [hevents, CourseMemory.touch, if_neg h.length_ne_zero, hfind]
    exact ⟨rfl, length_modify .., h.hit write hfind⟩
  | none =>
    cases hfreeFrame : memory.findFreeFrame with
    | some i => exact h.fill write hfind hfreeFrame
    | none => exact h.replace write hfind hfreeFrame

theorem Holds.run (touches : List (BitVec 32 × Bool)) :
    Holds ((touches.map Prod.fst).foldl (SecondChance.touch memory.frames.length) queue)
      (events ++ history memory touches) (memory.run touches) := by
  induction touches generalizing memory queue events with
  | nil =>
    rw [history, append_nil]
    exact h
  | cons touched touches ih =>
    obtain ⟨pageId, write⟩ := touched
    obtain ⟨-, hlength, hnext⟩ := h.touch pageId write
    have hlast := ih hnext
    rw [hlength, append_assoc] at hlast
    exact hlast

theorem Holds.secondChanceFifo (pageId : BitVec 32) (write : Bool) :
    SecondChanceFifo queue events memory pageId write := by
  have hpos : 0 < memory.frames.length := by
    have hhand := h.hand
    omega
  have hle : queue.length ≤ memory.frames.length := by
    rw [← h.length_residents.1]
    exact countP_le_length
  obtain ⟨haccepted, -, hnext⟩ := h.touch pageId write
  have hmem := fun other => h.residents_perm.mem_iff (a := other)
  have hmem' := fun other => hnext.residents_perm.mem_iff (a := other)
  have hcases := touch_cases hpos queue pageId
  refine ⟨h.residents_perm.nodup_iff.2 h.distinct, haccepted, ?_, ?_, ?_, ?_, ?_, ?_, h.balance⟩
  · rw [hmem']
    rcases hcases with ⟨-, -, htouched⟩ | ⟨-, -, other, bit, rest, -, htouch, -⟩
    · exact (htouched pageId).2 (.inl rfl)
    rw [htouch]
    simp
  · intro other hother
    rw [hmem] at hother
    rw [hmem']
    rcases hcases with ⟨-, hvictim, htouched⟩ |
      ⟨hpage, -, page, bit, rest, hvictim, htouch, -, hperm, -⟩
    · rw [hvictim, htouched]
      simp [hother]
    have hnodup := (hperm.nodup_iff.1 h.distinct)
    have hne : other ≠ pageId := fun heq => hpage (heq ▸ hother)
    rw [hvictim, htouch, Option.some.injEq]
    rcases mem_cons.1 (hperm.mem_iff.1 hother) with rfl | hrest
    · simpa [hne] using (nodup_cons.1 hnodup).1
    have hother' : page ≠ other := fun heq => (nodup_cons.1 hnodup).1 (heq ▸ hrest)
    simp [hother', List.mem_append.2 (.inl hrest)]
  · intro other hother
    rcases hcases with ⟨-, hvictim, -⟩ | ⟨-, -, page, bit, rest, hvictim, -, hbit, -, hall⟩
    · rw [hvictim] at hother
      cases hother
    obtain rfl : page = other := Option.some.inj (hvictim.symm.trans hother)
    refine ⟨(hmem page).2 (mem_map_of_mem hbit), fun hsince other hresident => ?_⟩
    obtain ⟨kept, hkept, rfl⟩ := mem_map.1 ((hmem other).1 hresident)
    rw [← h.since kept hkept]
    exact hall ((h.since _ hbit).trans hsince) kept hkept
  · rw [hmem, h.length_residents.2]
    rcases hcases with ⟨hkept, hvictim, -⟩ | ⟨hpage, hfull, page, _, _, hvictim, -⟩
    · rw [hvictim]
      refine iff_of_false Bool.false_ne_true fun hfull => ?_
      rcases hkept with hpage | hroom
      · exact hfull.1 hpage
      · omega
    · rw [hvictim]
      exact iff_of_true rfl ⟨hpage, by omega⟩
  · rw [h.length_residents.2]
    exact h.used
  · rw [h.free, BitVec.add_comm, BitVec.sub_add_cancel]
    exact ⟨rfl, h.total⟩

end

/-- With at least one frame, the memory after any touches replaces pages as a second-chance
queue of the same touches does. -/
theorem run_secondChanceFifo {frameCount : BitVec 32} (h : frameCount ≠ 0)
    (touches : List (BitVec 32 × Bool)) (pageId : BitVec 32) (write : Bool) :
    SecondChanceFifo
      (SecondChance.run (init frameCount).frames.length (touches.map Prod.fst))
      (history (init frameCount) touches) ((init frameCount).run touches) pageId write :=
  ((init_holds h).run touches).secondChanceFifo pageId write

/-- Two pages are touched in one frame. -/
theorem run_secondChanceFifo_oneFrame :
    SecondChanceFifo (SecondChance.run (init 1).frames.length [7]) (history (init 1) [(7, true)])
      ((init 1).run [(7, true)]) 8 false :=
  run_secondChanceFifo (by decide) [(7, true)] 8 false

/-- Without frames a page that is touched is not resident afterwards. -/
theorem init_zero_touch : ((init 0).touch 7 false).1 = false ∧
    (7 : BitVec 32) ∉ ((init 0).touch 7 false).2.residents ∧
      ¬SecondChanceFifo (SecondChance.run (init 0).frames.length []) (history (init 0) [])
        ((init 0).run []) 7 false :=
  ⟨by decide, by decide, fun h => absurd h.accepted (by decide)⟩

end CourseMemory

end VisualCpu
