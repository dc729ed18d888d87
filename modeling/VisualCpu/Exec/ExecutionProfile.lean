import Mathlib.Data.List.SplitBy
import VisualCpu.Exec.Functional

/-!
# Hot paths

`ExecutionProfile` cuts the retirements into paths while they are recorded, and counts each path
under its first and last pc. A path goes on where the next instruction lies four bytes on, of
whatever size the last one was. The other tables of the profile are left out.
-/

namespace VisualCpu

open List Decode

structure HotPathKey where
  (startPc endPc : BitVec 64)
deriving DecidableEq

structure HotPathStats where
  (executions retiredInstructions : ℕ)
deriving DecidableEq

structure ActivePath where
  isOpen : Bool := false
  startPc : BitVec 64 := 0
  endPc : BitVec 64 := 0
  retiredInstructions : ℕ := 0

structure ExecutionProfile where
  totalRetirements : ℕ := 0
  hotPaths : List (HotPathKey × HotPathStats) := []
  activePath : ActivePath := {}

open ExecutionProfile

def countPath (key : HotPathKey) (retired : ℕ) :
    List (HotPathKey × HotPathStats) → List (HotPathKey × HotPathStats)
  | [] => [(key, ⟨1, retired⟩)]
  | (k, stats) :: rest =>
    if k = key then (k, ⟨stats.executions + 1, stats.retiredInstructions + retired⟩) :: rest
    else (k, stats) :: countPath key retired rest

def isControlFlowRaw (raw : BitVec 32) : Bool :=
  let opcode := raw &&& 0x7F
  opcode == 0x63 || opcode == 0x67 || opcode == 0x6F

def isSystemBoundaryRaw (raw : BitVec 32) : Bool :=
  raw &&& 0x7F == 0x73 && (raw >>> 12) &&& 7 == 0

/-- The test of `record_retire` for the last instruction of a path. -/
def RetireObservation.finalizes (o : RetireObservation) : Bool :=
  o.trap || o.redirect || isControlFlowRaw o.raw || isSystemBoundaryRaw o.raw

/-- What `record_retire` ignores. -/
def RetireObservation.ignored (o : RetireObservation) : Bool :=
  o.pc == 0 && o.raw == 0 && !o.trap && !o.redirect

namespace ExecutionProfile

variable (profile : ExecutionProfile)

def startPath (pc : BitVec 64) : ExecutionProfile :=
  { profile with activePath := ⟨true, pc, pc, 0⟩ }

def finalizePath : ExecutionProfile :=
  let path := profile.activePath
  if !path.isOpen || path.retiredInstructions == 0 then { profile with activePath := {} }
  else
    { profile with
      hotPaths := countPath ⟨path.startPc, path.endPc⟩ path.retiredInstructions profile.hotPaths
      activePath := {} }

/-- The part of `record_retire` before the test for the end of the path. -/
def extendPath (pc : BitVec 64) : ExecutionProfile :=
  let profile :=
    if !profile.activePath.isOpen then profile.startPath pc
    else if pc ≠ profile.activePath.endPc + 4 then profile.finalizePath.startPath pc
    else profile
  { profile with
    totalRetirements := profile.totalRetirements + 1
    activePath :=
      { profile.activePath with
        endPc := pc
        retiredInstructions := profile.activePath.retiredInstructions + 1 } }

def recordRetire (o : RetireObservation) : ExecutionProfile :=
  if o.ignored then profile
  else if o.finalizes then (profile.extendPath o.pc).finalizePath
  else profile.extendPath o.pc

def record : Observation → ExecutionProfile
  | .retire o => profile.recordRetire o
  | .trap _ => profile.finalizePath

/-- The hot paths of `snapshot`, before they are sorted and limited. -/
def visibleHotPaths : List (HotPathKey × HotPathStats) :=
  let path := profile.activePath
  if path.isOpen && path.retiredInstructions != 0 then
    countPath ⟨path.startPc, path.endPc⟩ path.retiredInstructions profile.hotPaths
  else profile.hotPaths

end ExecutionProfile

/-- A counted retirement, and whether a trap came since the one before. -/
structure Retirement extends RetireObservation where
  afterTrap : Bool

namespace Retirement

def retirementsFrom (afterTrap : Bool) : List Observation → List Retirement
  | [] => []
  | .trap _ :: rest => retirementsFrom true rest
  | .retire o :: rest =>
    if o.ignored then retirementsFrom afterTrap rest
    else ⟨o, afterTrap⟩ :: retirementsFrom false rest

variable (a b : Retirement)

/-- Where the instruction ends by its own size. -/
def next : BitVec 64 := a.pc + instructionSize (decode a.raw)

/-- A control-flow or system instruction of either size, a trap or a redirect. -/
def Ends : Prop :=
  a.trap ∨ a.redirect ∨ isControlFlowOpcode (decode a.raw).opcode ∨
    ((decode a.raw).opcode = 0x73 ∧ (decode a.raw).funct3 = 0)

/-- The path goes on from one retirement to the next in the code. -/
def continues : Bool := !b.afterTrap && !a.finalizes && b.pc == a.pc + 4

/-- Unless the code ends the path for another reason, the next instruction lies four bytes on
only after one of four bytes, and follows a shorter one only if that ends a path. -/
def Sized : Prop :=
  b.afterTrap ∨ a.finalizes ∨
    if b.pc = a.pc + 4 then instructionSize (decode a.raw) = 4 else b.pc = a.next → a.Ends

/-- A path may end between these retirements. -/
def EndsBefore : Prop := a.Ends ∨ b.afterTrap ∨ b.pc ≠ a.next

def countRun (table : List (HotPathKey × HotPathStats)) (path : List Retirement) :
    List (HotPathKey × HotPathStats) :=
  countPath ⟨(path.head?.map (·.pc)).getD 0, (path.getLast?.map (·.pc)).getD 0⟩ path.length table

/-- The hot paths partition the retirements into fall-through runs. -/
structure Partitioned (profile : ExecutionProfile) (retirements : List Retirement)
    (paths : List (List Retirement)) : Prop where
  cover : paths.flatten = retirements
  counted : profile.visibleHotPaths = paths.foldl countRun []
  total : (profile.visibleHotPaths.map (·.2.retiredInstructions)).sum = profile.totalRetirements
  runs : ∀ path ∈ paths, path ≠ [] ∧ path.IsChain fun a b => b.pc = a.next
  ends : paths.IsChain fun p q => ∀ a ∈ p.getLast?, ∀ b ∈ q.head?, a.EndsBefore b

theorem decode_masked {raw value : BitVec 32} (h : raw &&& 0x7F = value)
    (hlow : value.toNat % 4 = 3) : decode raw = decodeStandard raw ∧
      (decode raw).opcode = value.toNat := by
  have hmod : raw.toNat % 2 ^ 7 = value.toNat := by
    rw [← Nat.and_two_pow_sub_one_eq_mod, ← h, BitVec.toNat_and]
    rfl
  have hopcode : field raw 0 7 = value.toNat := by simpa [field] using hmod
  have hbits : field raw 0 2 = 3 := by
    simp only [field, BitVec.extractLsb'_toNat, Nat.shiftRight_zero]
    omega
  have hdecode : decode raw = decodeStandard raw := if_neg (by simp [hbits])
  exact ⟨hdecode, hdecode ▸ hopcode⟩

theorem ends_of_finalizes {a : Retirement} (h : a.finalizes) : a.Ends := by
  simp only [RetireObservation.finalizes, Bool.or_eq_true] at h
  rcases h with ((h | h) | h) | h
  · exact .inl h
  · exact .inr (.inl h)
  · simp only [isControlFlowRaw, Bool.or_eq_true, beq_iff_eq] at h
    refine .inr (.inr (.inl ?_))
    rcases h with (h | h) | h
    all_goals
      rw [(decode_masked h (by decide)).2]
      rfl
  · simp only [isSystemBoundaryRaw, Bool.and_eq_true, beq_iff_eq] at h
    obtain ⟨hdecode, hopcode⟩ := decode_masked h.1 (by decide)
    refine .inr (.inr (.inr ⟨hopcode, ?_⟩))
    have hfunct : a.raw.toNat >>> 12 % 2 ^ 3 = 0 := by
      rw [← Nat.and_two_pow_sub_one_eq_mod, ← BitVec.toNat_ushiftRight]
      exact congrArg BitVec.toNat h.2
    rw [hdecode]
    simpa [decodeStandard, field] using hfunct

variable {a b}

theorem Sized.follows (h : a.Sized b) (hcontinues : a.continues b) : b.pc = a.next := by
  simp only [continues, Bool.and_eq_true, Bool.not_eq_true', beq_iff_eq] at hcontinues
  obtain ⟨⟨htrap, hends⟩, hpc⟩ := hcontinues
  rcases h with h | h | h
  · simp [h] at htrap
  · simp [h] at hends
  rw [if_pos hpc] at h
  rw [hpc, next, h]

theorem Sized.endsBefore (h : a.Sized b) (hstops : a.continues b = false) : a.EndsBefore b := by
  by_cases hpc : b.pc = a.pc + 4
  · by_cases htrap : b.afterTrap
    · exact .inr (.inl htrap)
    · exact .inl (ends_of_finalizes (by simpa [continues, hpc, htrap] using hstops))
  rcases h with h | h | h
  · exact .inr (.inl h)
  · exact .inl (ends_of_finalizes h)
  rw [if_neg hpc] at h
  by_cases hnext : b.pc = a.next
  · exact .inl (h hnext)
  · exact .inr (.inr hnext)

theorem sum_countPath (key : HotPathKey) (n : ℕ) (table : List (HotPathKey × HotPathStats)) :
    ((countPath key n table).map (·.2.retiredInstructions)).sum =
      (table.map (·.2.retiredInstructions)).sum + n := by
  induction table with
  | nil => simp [countPath]
  | cons entry rest ih =>
    unfold countPath
    split_ifs
    · simp only [map_cons, sum_cons]
      omega
    simp only [map_cons, sum_cons, ih]
    omega

theorem sum_countRun (paths : List (List Retirement)) (table : List (HotPathKey × HotPathStats)) :
    ((paths.foldl countRun table).map (·.2.retiredInstructions)).sum =
      (table.map (·.2.retiredInstructions)).sum + paths.flatten.length := by
  induction paths generalizing table with
  | nil => rfl
  | cons path paths ih =>
    rw [foldl_cons, ih, countRun, sum_countPath, flatten_cons, length_append]
    omega

/-- A profile whose table counts the paths before the open one. -/
structure Holds (profile : ExecutionProfile) (front path : List Retirement) : Prop where
  table : profile.hotPaths = (front.splitBy continues).foldl countRun []
  active : profile.activePath =
    if path = [] then {}
    else ⟨true, (path.head?.map (·.pc)).getD 0, (path.getLast?.map (·.pc)).getD 0, path.length⟩
  total : profile.totalRetirements = (front ++ path).length
  chain : path.IsChain fun a b => a.continues b
  cut : ∀ a ∈ front.getLast?, ∀ b ∈ path.head?, a.continues b = false

/-- Between two calls a path is open only after a retirement that does not end it. -/
def Rests (afterTrap : Bool) (front path : List Retirement) : Prop :=
  if path = [] then ∀ a ∈ front.getLast?, afterTrap || a.finalizes
  else afterTrap = false ∧ ∀ a ∈ path.getLast?, a.finalizes = false

variable {profile : ExecutionProfile} {front path : List Retirement} {afterTrap : Bool}

theorem visibleHotPaths_eq : profile.visibleHotPaths = profile.finalizePath.hotPaths := by
  obtain ⟨total, table, ⟨isOpen, start, stop, count⟩⟩ := profile
  cases isOpen with
  | false => rfl
  | true => cases count <;> rfl

theorem Holds.finalizePath (h : Holds profile front path) :
    Holds profile.finalizePath (front ++ path) [] := by
  have htotal := h.total
  have hactive := h.active
  by_cases hpath : path = []
  · subst hpath
    rw [if_pos rfl] at hactive
    unfold finalizePath
    rw [hactive]
    exact ⟨by simpa using h.table, rfl, by simpa using htotal, .nil, by simp⟩
  · rw [if_neg hpath] at hactive
    unfold ExecutionProfile.finalizePath
    rw [hactive]
    have hlength : path.length ≠ 0 := by simpa using hpath
    simp only [Bool.not_true, Bool.false_or, beq_iff_eq, hlength, if_false]
    refine ⟨?_, rfl, by simpa using htotal, .nil, by simp⟩
    rw [splitBy_append h.cut, splitBy_of_isChain hpath h.chain, foldl_append, ← h.table]
    rfl

theorem Holds.extendPath (o : RetireObservation) (h : Holds profile front path)
    (hrests : Rests afterTrap front path) : ∃ front' path',
      front' ++ path' = front ++ path ∧
        Holds (profile.extendPath o.pc) front' (path' ++ [⟨o, afterTrap⟩]) := by
  have hactive := h.active
  have htotal := h.total
  by_cases hpath : path = []
  · subst hpath
    refine ⟨front, [], rfl, ?_⟩
    rw [if_pos rfl] at hactive
    rw [Rests, if_pos rfl] at hrests
    unfold extendPath
    rw [hactive]
    refine ⟨h.table, rfl, by simpa [startPath] using htotal, by simp, ?_⟩
    intro a ha b hb
    obtain rfl : _ = b := by simpa using hb
    have := hrests a ha
    cases afterTrap with
    | true => rfl
    | false => simp_all [continues]
  · rw [if_neg hpath] at hactive
    rw [Rests, if_neg hpath] at hrests
    obtain ⟨last, hlast⟩ : ∃ last, path.getLast? = some last :=
      ⟨_, getLast?_eq_some_getLast hpath⟩
    simp only [hlast, Option.map_some, Option.getD_some] at hactive
    unfold ExecutionProfile.extendPath
    by_cases hpc : o.pc = last.pc + 4
    · refine ⟨front, path, rfl, ?_⟩
      rw [hactive]
      simp only [Bool.not_true, Bool.false_eq_true, if_false, hpc, ne_eq, not_true]
      obtain ⟨first, rest, rfl⟩ := exists_cons_of_ne_nil hpath
      refine ⟨h.table, ?_, ?_, ?_, by simpa using h.cut⟩
      · simp [hactive, hpc, getLast?_cons]
      · simp [htotal]
        omega
      rw [isChain_append]
      refine ⟨h.chain, by simp, ?_⟩
      intro a ha b hb
      obtain rfl : last = a := by simpa [hlast] using ha
      obtain rfl : _ = b := by simpa using hb
      simp [continues, hrests.1, hrests.2 _ hlast, hpc]
    · refine ⟨front ++ path, [], by simp, ?_⟩
      have hdone := h.finalizePath
      rw [hactive]
      simp only [Bool.not_true, Bool.false_eq_true, if_false, hpc, ne_eq, not_false_eq_true,
        if_true]
      refine ⟨hdone.table, rfl, ?_, by simp, ?_⟩
      · simpa [startPath, ← Nat.add_assoc] using hdone.total
      intro a ha b hb
      obtain rfl : _ = b := by simpa using hb
      obtain rfl : last = a := by simpa [getLast?_append, hlast] using ha
      simpa [continues] using fun _ _ => hpc

theorem Holds.run (events : List Observation) (h : Holds profile front path)
    (hrests : Rests afterTrap front path) : ∃ front' path',
      front' ++ path' = front ++ path ++ retirementsFrom afterTrap events ∧
        Holds (events.foldl record profile) front' path' := by
  induction events generalizing profile front path afterTrap with
  | nil => exact ⟨front, path, by simp [retirementsFrom], h⟩
  | cons event events ih =>
    cases event with
    | trap o =>
      have hdone : Rests true (front ++ path) [] := by simp [Rests]
      have hrun := ih h.finalizePath hdone
      rwa [append_nil] at hrun
    | retire o =>
      rw [foldl_cons, record, recordRetire, retirementsFrom]
      by_cases hignored : o.ignored
      · rw [if_pos hignored, if_pos hignored]
        exact ih h hrests
      rw [if_neg hignored, if_neg hignored]
      obtain ⟨front', path', heq, hextended⟩ := h.extendPath o hrests
      rw [← heq]
      by_cases hends : o.finalizes
      · have hdone : Rests false (front' ++ (path' ++ [⟨o, afterTrap⟩])) [] := by
          simp [Rests, ← append_assoc, hends]
        rw [if_pos hends]
        simpa using ih hextended.finalizePath hdone
      · have hopen : Rests false front' (path' ++ [⟨o, afterTrap⟩]) := by simp [Rests, hends]
        rw [if_neg hends]
        simpa using ih hextended hopen

/-- In a run in which every retirement is sized, the hot paths partition the retirements. -/
theorem run_partitioned (events : List Observation)
    (h : (retirementsFrom false events).IsChain Sized) : ∃ paths,
      Partitioned (events.foldl record {}) (retirementsFrom false events)
        paths := by
  have hstart : Holds {} [] [] := ⟨rfl, rfl, rfl, .nil, by simp⟩
  have hrests : Rests false [] [] := by simp [Rests]
  obtain ⟨front, path, hcover, hrun⟩ := hstart.run events hrests
  rw [append_nil, nil_append] at hcover
  have hdone := hrun.finalizePath
  rw [hcover] at hdone
  have hcounted := visibleHotPaths_eq.trans hdone.table
  have hflat := flatten_splitBy continues (retirementsFrom false events)
  rw [← hflat, isChain_flatten (nil_notMem_splitBy _ _)] at h
  refine ⟨_, hflat, hcounted, ?_, ?_, ?_⟩
  · rw [hcounted, sum_countRun, hflat]
    simpa [hcover] using hrun.total.symm
  · intro path hpath
    refine ⟨ne_nil_of_mem_splitBy hpath, isChain_iff_getElem.2 fun i hi => ?_⟩
    have hsized := isChain_iff_getElem.1 (h.1 path hpath) i hi
    exact hsized.follows (isChain_iff_getElem.1 (isChain_of_mem_splitBy hpath) i hi)
  · refine isChain_iff_getElem.2 fun i hi a ha b hb => ?_
    obtain ⟨hp, hq, hstops⟩ :=
      isChain_iff_getElem.1 (isChain_getLast_head_splitBy continues _) i hi
    refine (isChain_iff_getElem.1 h.2 i hi a ha b hb).endsBefore ?_
    rw [Option.mem_def, getLast?_eq_some_getLast hp, Option.some_inj] at ha
    rw [Option.mem_def, head?_eq_some_head hq, Option.some_inj] at hb
    rwa [ha, hb] at hstops

/-- Two compressed no-operations, one after the other. -/
def compressedNops : List Observation :=
  [.retire ⟨0x1000, 1, false, false, 0, 0⟩, .retire ⟨0x1002, 1, false, false, 0, 0⟩]

theorem compressedNops_not_partitioned : ¬∃ paths,
    Partitioned (compressedNops.foldl record {})
      (retirementsFrom false compressedNops) paths := by
  rintro ⟨paths, hcover, hcounted, -, hruns, hends⟩
  match paths with
  | [] => cases hcover
  | [path] =>
    obtain rfl : path = _ := by simpa using hcover
    exact absurd hcounted (by decide)
  | p :: q :: rest =>
    obtain ⟨a, p, rfl⟩ := exists_cons_of_ne_nil (hruns p (by simp)).1
    obtain ⟨b, q, rfl⟩ := exists_cons_of_ne_nil (hruns q (by simp)).1
    have hends := (isChain_cons_cons.1 hends).1
    obtain ⟨rfl, hrest⟩ := cons.inj hcover
    obtain ⟨rfl, hlast⟩ | ⟨p, rfl, hlast⟩ := append_eq_cons_iff.1 hrest
    · obtain ⟨rfl, -⟩ := cons.inj hlast
      exact absurd (hends _ rfl _ rfl) (by unfold EndsBefore Ends; decide)
    · cases p <;> cases hlast

theorem run_partitioned_longNops : ∃ paths,
    let events : List Observation :=
      [.retire ⟨0x1000, 0x13, false, false, 0, 0⟩, .retire ⟨0x1004, 0x13, false, false, 0, 0⟩]
    Partitioned (events.foldl record {}) (retirementsFrom false events) paths :=
  run_partitioned _ (.cons_cons (by unfold Sized Ends; decide) (.singleton _))

end Retirement
end VisualCpu
