import Mathlib.Data.List.Induction
import Mathlib.Data.List.TakeWhile
import Mathlib.Algebra.Order.Ring.Nat

/-!
# Projection of the terminal stream

The text that server and browser keep of the UART stream. A chunk is edited into the text
character by character, and the text is cut to its maximal length when the chunk ends, so a
cut between two chunks may remove what a later carriage return or erase goes back to. The
theorem names the places where a stream may be cut without a visible difference.
-/

namespace VisualCpu

open List

/-- `maxLength` is `none` when the option is not a finite number. -/
structure TerminalProjection where
  text : List Char
  (cursor lineStart : ℕ)
  carriageReturn : Bool
  maxLength : Option ℤ
deriving DecidableEq

open TerminalProjection

def createTerminalProjectionState (maxLength : Option ℤ) : TerminalProjection where
  text := []
  cursor := 0
  lineStart := 0
  carriageReturn := false
  maxLength := maxLength

namespace TerminalProjection

def insertAt (chars : List Char) (cursor : ℕ) (char : Char) : List Char :=
  chars.take cursor ++ char :: chars.drop cursor

def lineEnd (chars : List Char) (cursor : ℕ) : ℕ :=
  cursor + ((chars.drop cursor).takeWhile (· ≠ '\n')).length

/-- A character stands under the cursor, and it does not end the line. -/
def overwrites (chars : List Char) (cursor : ℕ) : Bool :=
  decide (cursor < chars.length) && decide (chars[cursor]? ≠ some '\n')

variable (state : TerminalProjection)

/-- One character of a chunk. -/
def applyChar (char : Char) : TerminalProjection :=
  if char = '\r' then
    { state with cursor := state.lineStart, carriageReturn := true }
  else if char = '\n' then
    let cursor := if state.carriageReturn then lineEnd state.text state.cursor else state.cursor
    { state with
      text := if cursor = state.text.length then state.text ++ ['\n']
        else insertAt state.text cursor '\n'
      cursor := cursor + 1
      lineStart := cursor + 1
      carriageReturn := false }
  else if char = '\x08' ∨ char = '\x7f' then
    if state.lineStart < state.cursor then
      { state with
        text := if overwrites state.text (state.cursor - 1)
          then state.text.eraseIdx (state.cursor - 1) else state.text
        cursor := state.cursor - 1
        carriageReturn := false }
    else { state with carriageReturn := false }
  else
    { state with
      text := if overwrites state.text state.cursor then state.text.set state.cursor char
        else insertAt state.text state.cursor char
      cursor := state.cursor + 1
      carriageReturn := false }

/-- Cuts the text to the maximal length from the front, and moves cursor and line start. -/
def clampProjectionState : TerminalProjection :=
  match state.maxLength with
  | none => state
  | some maxLength =>
    if (state.text.length : ℤ) ≤ maxLength then state
    else
      let overflow := ((state.text.length : ℤ) - maxLength).toNat
      { state with
        text := state.text.drop overflow
        cursor := state.cursor - overflow
        lineStart :=
          if state.cursor - overflow < state.lineStart - overflow then state.cursor - overflow
          else state.lineStart - overflow }

def applyTerminalChunk (chunk : List Char) : TerminalProjection :=
  (chunk.foldl applyChar state).clampProjectionState

def screen : List Char × ℕ × ℕ :=
  (state.text, state.cursor, state.lineStart)

end TerminalProjection

/-- A text whose last part, the line under edit, is split at the cursor. -/
@[ext]
structure TerminalLine where
  (before left right : List Char)
  carriageReturn : Bool
  newlineFree : '\n' ∉ left ++ right

open TerminalLine

namespace TerminalLine

def empty : TerminalLine where
  before := []
  left := []
  right := []
  carriageReturn := false
  newlineFree := by simp

def size (line : TerminalLine) : ℕ :=
  line.before.length + line.left.length + line.right.length

def project (maxLength : Option ℤ) (line : TerminalLine) : TerminalProjection where
  text := line.before ++ (line.left ++ line.right)
  cursor := line.before.length + line.left.length
  lineStart := line.before.length
  carriageReturn := line.carriageReturn
  maxLength := maxLength

def startOver (line : TerminalLine) : TerminalLine :=
  { line with left := [], right := line.left ++ line.right, carriageReturn := true }

/-- After a carriage return the whole line is kept, otherwise it is broken at the cursor. -/
def newline (line : TerminalLine) : TerminalLine where
  before := line.before ++ (if line.carriageReturn then line.left ++ line.right
    else line.left) ++ ['\n']
  left := []
  right := if line.carriageReturn then [] else line.right
  carriageReturn := false
  newlineFree := by
    intro hmem
    apply line.newlineFree
    cases line.carriageReturn <;> simp_all

def erase (line : TerminalLine) : TerminalLine where
  before := line.before
  left := line.left.dropLast
  right := line.right
  carriageReturn := false
  newlineFree := by
    intro hmem
    apply line.newlineFree
    rcases mem_append.1 hmem with hleft | hright
    · exact mem_append_left _ (dropLast_subset _ hleft)
    · exact mem_append_right _ hright

def type (line : TerminalLine) (char : Char) (hchar : char ≠ '\n') : TerminalLine where
  before := line.before
  left := line.left ++ [char]
  right := line.right.tail
  carriageReturn := false
  newlineFree := by
    intro hmem
    simp only [mem_append, mem_singleton] at hmem
    rcases hmem with (hleft | hchar') | hright
    · exact line.newlineFree (mem_append_left _ hleft)
    · exact hchar hchar'.symm
    · exact line.newlineFree (mem_append_right _ (mem_of_mem_tail hright))

def step (line : TerminalLine) (char : Char) : TerminalLine :=
  if char = '\r' then line.startOver
  else if hchar : char = '\n' then line.newline
  else if char = '\x08' ∨ char = '\x7f' then line.erase
  else line.type char hchar

def run (line : TerminalLine) (chunk : List Char) : TerminalLine :=
  chunk.foldl step line

variable (line : TerminalLine)

theorem run_append (xs ys : List Char) : line.run (xs ++ ys) = (line.run xs).run ys := by
  simp [run, foldl_append]

theorem overwrites_eq (k : ℕ) (hk : line.before.length ≤ k) :
    overwrites (line.before ++ (line.left ++ line.right)) k = decide (k < line.size) := by
  have hlength : (line.before ++ (line.left ++ line.right)).length = line.size := by
    simp [size, Nat.add_assoc]
  have hne : (line.before ++ (line.left ++ line.right))[k]? ≠ some '\n' := by
    intro hget
    rw [List.getElem?_append_right hk] at hget
    exact line.newlineFree (List.mem_of_getElem? hget)
  rw [overwrites, hlength, decide_eq_true hne, Bool.and_true]

theorem lineEnd_eq :
    lineEnd (line.before ++ (line.left ++ line.right))
      (line.before.length + line.left.length) = line.size := by
  have hdrop : (line.before ++ (line.left ++ line.right)).drop
      (line.before.length + line.left.length) = line.right := by
    rw [← List.append_assoc, drop_left' (by simp)]
  have htake : line.right.takeWhile (· ≠ '\n') = line.right := by
    rw [takeWhile_eq_self_iff]
    intro c hc
    have hne : c ≠ '\n' := by
      rintro rfl
      exact line.newlineFree (mem_append_right _ hc)
    simp [hne]
  rw [lineEnd, hdrop, htake, size]

theorem insertAt_cursor (before left right : List Char) (c : Char) :
    insertAt (before ++ (left ++ right)) (before.length + left.length) c =
      before ++ left ++ c :: right := by
  have htake : (before ++ (left ++ right)).take (before.length + left.length) = before ++ left := by
    rw [← List.append_assoc, take_left' (by simp)]
  have hdrop : (before ++ (left ++ right)).drop (before.length + left.length) = right := by
    rw [← List.append_assoc, drop_left' (by simp)]
  rw [insertAt, htake, hdrop]

variable (maxLength : Option ℤ)

theorem project_newline (line : TerminalLine) :
    (line.project maxLength).applyChar '\n' = line.newline.project maxLength := by
  unfold applyChar
  rw [if_neg (by decide), if_pos rfl]
  cases hreturn : line.carriageReturn with
  | true =>
    simp [project, newline, hreturn, lineEnd_eq, size, Nat.add_assoc]
  | false =>
    by_cases hright : line.right = []
    · simp [project, newline, hreturn, hright, Nat.add_assoc]
    · simp [project, newline, hreturn, hright, insertAt_cursor, Nat.add_assoc]

theorem project_erase (line : TerminalLine) (c : Char) (hc : c = '\x08' ∨ c = '\x7f') :
    (line.project maxLength).applyChar c = line.erase.project maxLength := by
  unfold applyChar
  rw [if_neg (by rcases hc with rfl | rfl <;> decide),
    if_neg (by rcases hc with rfl | rfl <;> decide), if_pos hc]
  rcases eq_nil_or_concat line.left with hleft | ⟨front, last, hleft⟩
  · rw [if_neg (by simp [project, hleft])]
    simp [project, erase, hleft]
  have hlength : line.left.length = front.length + 1 := by simp [hleft]
  have hover := line.overwrites_eq (line.before.length + line.left.length - 1) (by omega)
  rw [decide_eq_true (by rw [size]; omega)] at hover
  rw [if_pos (by simp [project, hlength])]
  have htext : (line.before ++ (line.left ++ line.right)).eraseIdx
      (line.before.length + line.left.length - 1) = line.before ++ (front ++ line.right) := by
    rw [eraseIdx_append_of_length_le (by omega), hleft,
      eraseIdx_append_of_lt_length (by simp), concat_eq_append,
      eraseIdx_append_of_length_le (by simp)]
    simp
  simp only [project, hover, if_true, htext]
  simp [erase, hleft]

theorem project_step (line : TerminalLine) (c : Char) :
    (line.project maxLength).applyChar c = (line.step c).project maxLength := by
  unfold step
  by_cases hreturn : c = '\r'
  · rw [if_pos hreturn, applyChar, if_pos hreturn]
    simp [startOver, project]
  rw [if_neg hreturn]
  by_cases hnewline : c = '\n'
  · rw [dif_pos hnewline, hnewline, project_newline]
  rw [dif_neg hnewline]
  by_cases herase : c = '\x08' ∨ c = '\x7f'
  · rw [if_pos herase, project_erase maxLength line c herase]
  rw [if_neg herase, applyChar, if_neg hreturn, if_neg hnewline, if_neg herase]
  have hover := line.overwrites_eq (line.before.length + line.left.length) (by omega)
  simp only [project, hover, insertAt_cursor]
  cases hright : line.right with
  | nil => simp [type, size, hright, Nat.add_assoc]
  | cons char rest => simp [type, size, hright, Nat.add_assoc]

def dropFront (line : TerminalLine) (count : ℕ) : TerminalLine where
  before := line.before.drop count
  left := line.left.drop (count - line.before.length)
  right := line.right.drop (count - line.before.length - line.left.length)
  carriageReturn := line.carriageReturn
  newlineFree := by
    intro hmem
    apply line.newlineFree
    rcases mem_append.1 hmem with hleft | hright
    · exact mem_append_left _ (mem_of_mem_drop hleft)
    · exact mem_append_right _ (mem_of_mem_drop hright)

/-- How many characters are too many. -/
def overflow (maxLength : Option ℤ) (line : TerminalLine) : ℕ :=
  match maxLength with
  | none => 0
  | some maxLength => ((line.size : ℤ) - maxLength).toNat

def clamp (maxLength : Option ℤ) (line : TerminalLine) : TerminalLine :=
  line.dropFront (line.overflow maxLength)

@[simp] theorem dropFront_zero : line.dropFront 0 = line := by
  simp [dropFront]

theorem dropFront_dropFront (first second : ℕ) :
    (line.dropFront first).dropFront second = line.dropFront (first + second) := by
  ext1
  · simp [dropFront]
  · simp only [dropFront, drop_drop, length_drop]
    congr 1
    omega
  · simp only [dropFront, drop_drop, length_drop]
    congr 1
    omega
  · rfl

@[simp] theorem size_dropFront (count : ℕ) : (line.dropFront count).size = line.size - count := by
  simp only [size, dropFront, length_drop]
  omega

theorem project_clamp (line : TerminalLine) :
    (line.project maxLength).clampProjectionState = (line.clamp maxLength).project maxLength := by
  have hlength : (line.project maxLength).text.length = line.size := by
    simp [project, size, Nat.add_assoc]
  cases maxLength with
  | none => simp [clampProjectionState, project, clamp, overflow]
  | some maxLength =>
    have hmax : (line.project (some maxLength)).maxLength = some maxLength := rfl
    unfold clampProjectionState
    rw [hmax]
    simp only [hlength]
    by_cases hfits : (line.size : ℤ) ≤ maxLength
    · have hzero : line.overflow (some maxLength) = 0 := by
        simp only [overflow]
        omega
      rw [if_pos hfits, clamp, hzero, dropFront_zero]
    · rw [if_neg hfits]
      simp only [project, clamp, dropFront, overflow, drop_append, length_drop]
      congr 1
      · omega
      · exact if_neg (by omega)

theorem project_run (line : TerminalLine) (chunk : List Char) :
    (line.project maxLength).applyTerminalChunk chunk =
      ((line.run chunk).clamp maxLength).project maxLength := by
  have hfold : chunk.foldl applyChar (line.project maxLength) =
      (line.run chunk).project maxLength := by
    induction chunk generalizing line with
    | nil => rfl
    | cons c chunk ih => rw [foldl_cons, project_step, ih, run, run, foldl_cons]
  rw [applyTerminalChunk, hfold, project_clamp]

theorem before_length_step (c : Char) : line.before.length ≤ (line.step c).before.length := by
  unfold step
  split_ifs <;> simp [startOver, newline, erase, type]

theorem before_length_run (chunk : List Char) :
    line.before.length ≤ (line.run chunk).before.length := by
  induction chunk generalizing line with
  | nil => exact Nat.le_refl _
  | cons c chunk ih => exact Nat.le_trans (line.before_length_step c) (ih (line.step c))

theorem step_dropFront (count : ℕ) (hcount : count ≤ line.before.length)
    (c : Char) : (line.dropFront count).step c = (line.step c).dropFront count := by
  have hzero : count - line.before.length = 0 := by omega
  unfold step
  split_ifs
  · ext1 <;> simp [startOver, dropFront, hzero]
  · ext1
    · simp only [newline, dropFront, hzero, Nat.zero_sub, drop_zero]
      rw [List.append_assoc, List.append_assoc, drop_append_of_le_length hcount]
    · simp [newline, dropFront]
    · have hlater : ∀ more, count - (line.before.length + more) = 0 := by
        intro more
        omega
      simp [newline, dropFront, hzero, hlater]
    · rfl
  · ext1 <;> simp [erase, dropFront, hzero]
  · ext1 <;> simp [type, dropFront, hzero]

theorem run_dropFront (count : ℕ) (hcount : count ≤ line.before.length)
    (chunk : List Char) : (line.dropFront count).run chunk = (line.run chunk).dropFront count := by
  induction chunk generalizing line with
  | nil => rfl
  | cons c chunk ih =>
    have hlater := Nat.le_trans hcount (line.before_length_step c)
    rw [run, foldl_cons, step_dropFront line count hcount]
    exact ih (line.step c) hlater

theorem carriageReturn_run (line line' : TerminalLine)
    (hreturn : line.carriageReturn = line'.carriageReturn) (chunk : List Char) :
    (line.run chunk).carriageReturn = (line'.run chunk).carriageReturn := by
  induction chunk generalizing line line' with
  | nil => exact hreturn
  | cons c chunk ih =>
    refine ih (line.step c) (line'.step c) ?_
    unfold step
    split_ifs <;> rfl

theorem clamp_run_of_lineEmpty (line : TerminalLine) (hempty : line.size = line.before.length)
    (hcount : line.overflow maxLength ≤ line.before.length) (chunk : List Char) :
    ((line.clamp maxLength).run chunk).clamp maxLength = (line.run chunk).clamp maxLength := by
  have hgrows := line.before_length_run chunk
  have hsize : (line.run chunk).before.length ≤ (line.run chunk).size := by
    rw [size, Nat.add_assoc]
    exact Nat.le_add_right _ _
  have hsum : line.overflow maxLength +
      ((line.run chunk).dropFront (line.overflow maxLength)).overflow maxLength =
      (line.run chunk).overflow maxLength := by
    cases maxLength with
    | none => rfl
    | some maxLength =>
      simp only [overflow, size_dropFront] at hcount ⊢
      omega
  rw [clamp, clamp, run_dropFront line _ hcount, dropFront_dropFront, hsum, clamp]

theorem clamp_of_fits (maxLength : ℤ) (line : TerminalLine) (hfits : (line.size : ℤ) ≤ maxLength) :
    line.clamp (some maxLength) = line := by
  have hzero : line.overflow (some maxLength) = 0 := by
    simp only [overflow]
    omega
  rw [clamp, hzero, dropFront_zero]

theorem clamp_run_of_nonpos (maxLength : ℤ) (hmax : maxLength ≤ 0) (line : TerminalLine)
    (chunk : List Char) :
    ((line.clamp (some maxLength)).run chunk).clamp (some maxLength) =
      (line.run chunk).clamp (some maxLength) := by
  have hcut : ∀ text : TerminalLine, (text.clamp (some maxLength)).before = [] ∧
      (text.clamp (some maxLength)).left = [] ∧ (text.clamp (some maxLength)).right = [] := by
    intro text
    have hall : text.size ≤ text.overflow (some maxLength) := by
      simp only [overflow]
      omega
    rw [size] at hall
    refine ⟨?_, ?_, ?_⟩ <;> exact drop_eq_nil_of_le (by omega)
  obtain ⟨hbefore, hleft, hright⟩ := hcut ((line.clamp (some maxLength)).run chunk)
  obtain ⟨hbefore', hleft', hright'⟩ := hcut (line.run chunk)
  ext1
  · rw [hbefore, hbefore']
  · rw [hleft, hleft']
  · rw [hright, hright']
  · exact carriageReturn_run (line.clamp (some maxLength)) line rfl chunk

theorem step_visible : line.step 'X' = line.type 'X' (by decide) := by
  simp [step]

theorem step_backspace : line.step '\x08' = line.erase := by
  simp [step]

theorem overflow_natCast (maxLength : ℕ) (line : TerminalLine) :
    line.overflow (some maxLength) = line.size - maxLength := by
  simp only [overflow]
  omega

theorem size_clamp (maxLength : ℕ) (line : TerminalLine) :
    (line.clamp (some maxLength)).size = min line.size maxLength := by
  rw [clamp, size_dropFront, overflow_natCast]
  omega

theorem cursor_clamp (maxLength : ℕ) (line : TerminalLine) :
    (line.clamp (some maxLength)).before.length + (line.clamp (some maxLength)).left.length =
      line.before.length + line.left.length - (line.size - maxLength) := by
  rw [clamp, overflow_natCast]
  simp only [dropFront, length_drop]
  omega

theorem size_erase (hleft : 0 < line.left.length) : line.erase.size = line.size - 1 := by
  simp only [size, erase, length_dropLast]
  omega

/-- A character written over another and erased takes that one away. -/
theorem size_type_erase (hright : 0 < line.right.length) :
    (line.type 'X' (by decide)).erase.size = line.size - 1 := by
  rw [size_erase _ (by simp [type])]
  simp only [size, type, length_append, length_singleton, length_tail]
  omega

theorem eq_of_screen_eq {maxLength : Option ℤ} {line line' : TerminalLine}
    (h : (line.project maxLength).screen = (line'.project maxLength).screen) :
    line.size = line'.size ∧
      line.before.length + line.left.length = line'.before.length + line'.left.length := by
  simp only [screen, project, Prod.mk.injEq] at h
  obtain ⟨htext, hcursor, _⟩ := h
  have hlength := congrArg List.length htext
  simp only [length_append] at hlength
  simp only [size]
  omega

theorem exists_seen_cut (maxLength : ℕ) (hpos : 0 < maxLength) (line : TerminalLine)
    (hlong : maxLength < line.size) (hline : line.size ≠ line.before.length) :
    ∃ chunk, ((((line.clamp (some maxLength)).run chunk).clamp (some maxLength)).project
        (some maxLength)).screen ≠
      (((line.run chunk).clamp (some maxLength)).project (some maxLength)).screen := by
  have hsize : line.size = line.before.length + line.left.length + line.right.length := rfl
  have hover := overflow_natCast maxLength line
  have hclamp := size_clamp maxLength line
  have hleft : (line.clamp (some maxLength)).left.length =
      line.left.length - (line.size - maxLength - line.before.length) := by
    simp [clamp, dropFront, hover]
  have hright : (line.clamp (some maxLength)).right.length =
      line.right.length -
        (line.size - maxLength - line.before.length - line.left.length) := by
    simp [clamp, dropFront, hover]
  by_cases hcursor : line.before.length + line.left.length < line.size - maxLength
  · -- the cursor itself was cut away, and the clamped text is overwritten from its front
    refine ⟨['X'], fun h => ?_⟩
    have hseen := (eq_of_screen_eq h).2
    simp only [run, foldl_cons, foldl_nil, step_visible] at hseen
    have hwritten : (line.type 'X' (by decide)).size = line.size := by
      simp only [size, type, length_append, length_singleton, length_tail]
      omega
    have hwrittenClamp : ((line.clamp (some maxLength)).type 'X' (by decide)).size = maxLength := by
      have hparts : (line.clamp (some maxLength)).size =
        (line.clamp (some maxLength)).before.length + (line.clamp (some maxLength)).left.length +
          (line.clamp (some maxLength)).right.length := rfl
      simp only [size, type, length_append, length_singleton, length_tail]
      omega
    have hkept := clamp_of_fits maxLength _ (Int.ofNat_le.2 (Nat.le_of_eq hwrittenClamp))
    rw [hkept, cursor_clamp, hwritten] at hseen
    simp only [type, length_append, length_singleton] at hseen
    omega
  by_cases hback : (line.clamp (some maxLength)).left.length = 0
  · -- nothing is left to erase, so a character is written first
    refine ⟨['X', '\x08'], fun h => ?_⟩
    have hseen := (eq_of_screen_eq h).1
    simp only [run, foldl_cons, foldl_nil, step_visible, step_backspace] at hseen
    rw [size_clamp, size_clamp, size_type_erase _ (by omega), size_type_erase _ (by omega)] at hseen
    omega
  · refine ⟨['\x08'], fun h => ?_⟩
    have hseen := (eq_of_screen_eq h).1
    simp only [run, foldl_cons, foldl_nil, step_backspace] at hseen
    rw [size_clamp, size_clamp, size_erase _ (by omega), size_erase _ (by omega)] at hseen
    omega

end TerminalLine

namespace TerminalProjection

/-- Cutting the stream after `t` is not seen: the option is no finite positive number, the
text shown so far is not too long, or its last line is empty. -/
def CutHarmless (maxLength : Option ℤ) (t : List Char) : Prop :=
  match maxLength with
  | none => True
  | some maxLength =>
    let shown := (createTerminalProjectionState none).applyTerminalChunk t
    maxLength ≤ 0 ∨ (shown.text.length : ℤ) ≤ maxLength ∨ shown.text.length = shown.lineStart

def CutAt (places : List Char → Prop) (chunks : List (List Char)) : Prop :=
  ∀ earlier later, chunks = earlier ++ later → earlier ≠ [] → later ≠ [] → places earlier.flatten

theorem createTerminalProjectionState_eq (maxLength : Option ℤ) :
    createTerminalProjectionState maxLength = empty.project maxLength := rfl

theorem cutHarmless_iff (maxLength : ℤ) (t : List Char) :
    CutHarmless (some maxLength) t ↔ maxLength ≤ 0 ∨ ((empty.run t).size : ℤ) ≤ maxLength ∨
      (empty.run t).size = (empty.run t).before.length := by
  have hlength : ∀ line : TerminalLine, (line.project none).text.length = line.size := by
    intro line
    simp [project, size, Nat.add_assoc]
  simp only [CutHarmless, createTerminalProjectionState_eq, project_run,
    clamp, overflow, dropFront_zero, hlength]
  rfl

variable {maxLength : Option ℤ}

theorem clamp_run_of_harmless {t : List Char} (h : CutHarmless maxLength t) (chunk : List Char) :
    (((empty.run t).clamp maxLength).run chunk).clamp maxLength =
      ((empty.run t).run chunk).clamp maxLength := by
  cases maxLength with
  | none => simp [clamp, overflow]
  | some maxLength =>
    rcases (cutHarmless_iff maxLength t).1 h with hmax | hfits | hempty
    · exact clamp_run_of_nonpos maxLength hmax _ chunk
    · rw [clamp_of_fits maxLength _ hfits]
    by_cases hmax : maxLength ≤ 0
    · exact clamp_run_of_nonpos maxLength hmax _ chunk
    refine clamp_run_of_lineEmpty _ _ hempty ?_ chunk
    simp only [overflow]
    omega

theorem foldl_chunks {places : List Char → Prop}
    (hplaces : ∀ t, places t → CutHarmless maxLength t) (chunks : List (List Char))
    (hne : chunks ≠ []) (hcuts : CutAt places chunks) :
    chunks.foldl applyTerminalChunk (createTerminalProjectionState maxLength) =
      ((empty.run chunks.flatten).clamp maxLength).project maxLength := by
  induction chunks using reverseRecOn with
  | nil => exact absurd rfl hne
  | append_singleton chunks chunk ih =>
    by_cases hfirst : chunks = []
    · simp [hfirst, createTerminalProjectionState_eq, project_run]
    have hearlier : CutAt places chunks := by
      intro earlier later hsplit hearlier hlater
      refine hcuts earlier (later ++ [chunk]) ?_ hearlier (by simp)
      rw [hsplit, List.append_assoc]
    have hcut := hplaces _ (hcuts chunks [chunk] rfl hfirst (by simp))
    rw [foldl_append, ih hfirst hearlier, foldl_cons, foldl_nil,
      project_run, clamp_run_of_harmless hcut, flatten_append,
      run_append]
    simp

/-- The screen is independent of how the stream is cut at the given places exactly if each of
them is harmless. -/
theorem chunks_independent_iff (maxLength : Option ℤ) (places : List Char → Prop) :
    (∀ chunks, CutAt places chunks →
      (chunks.foldl applyTerminalChunk (createTerminalProjectionState maxLength)).screen =
        ((createTerminalProjectionState maxLength).applyTerminalChunk chunks.flatten).screen) ↔
      ∀ t, places t → CutHarmless maxLength t := by
  constructor
  · intro hindependent t ht
    cases maxLength with
    | none => trivial
    | some maxLength =>
      rw [cutHarmless_iff]
      by_contra hnot
      simp only [not_or, Int.not_le] at hnot
      obtain ⟨hpos, hlong, hline⟩ := hnot
      obtain ⟨maxLength, rfl⟩ := Int.eq_ofNat_of_zero_le (Int.le_of_lt hpos)
      obtain ⟨chunk, hseen⟩ := exists_seen_cut maxLength (Int.natCast_pos.1 hpos) _
        (Int.ofNat_lt.1 hlong) hline
      have hcuts : CutAt places [t, chunk] := by
        intro earlier later hsplit hearlier hlater
        match earlier, hearlier with
        | [first], _ =>
          simp only [singleton_append, List.cons.injEq] at hsplit
          simpa [← hsplit.1] using ht
        | _ :: _ :: rest, _ =>
          have hlength := congrArg List.length hsplit
          have := length_pos_iff.2 hlater
          simp only [length_append, length_cons, length_nil] at hlength
          omega
      apply hseen
      have hequal := hindependent [t, chunk] hcuts
      simpa [createTerminalProjectionState_eq, project_run, run_append] using hequal
  · intro hplaces chunks hcuts
    by_cases hne : chunks = []
    · rw [hne, foldl_nil, flatten_nil, createTerminalProjectionState_eq, project_run]
      simp [screen, project, clamp, dropFront, run, empty]
    · rw [foldl_chunks hplaces chunks hne hcuts, createTerminalProjectionState_eq, project_run]

/-- The screen after "ab", a carriage return and "X" depends on a cut after "ab". -/
theorem carriageReturn_dependsOnChunks :
    ¬ ∀ (t : List Char) (chunks : List (List Char)) (maxLength : Option ℤ), chunks.flatten = t →
      (chunks.foldl applyTerminalChunk (createTerminalProjectionState maxLength)).screen =
        ((createTerminalProjectionState maxLength).applyTerminalChunk t).screen := by
  intro hindependent
  exact absurd (hindependent ['a', 'b', '\r', 'X'] [['a', 'b'], ['\r', 'X']] (some 1) rfl)
    (by decide)

end TerminalProjection

end VisualCpu
