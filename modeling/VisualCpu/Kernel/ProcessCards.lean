import VisualCpu.Kernel.CourseProcess

/-!
# Process cards

The card of a process is what the other processes can see of it: whether its slot is used,
its pid, its parent, its state and its exit code. The page operations leave every card as
it is; each of the other operations writes one card.
-/

namespace VisualCpu

structure ProcessCard where
  used : Bool
  (pid ppid : ℕ)
  state : CourseProcessState
  exitCode : ℤ
deriving DecidableEq

namespace ProcessCard

def cleared : ProcessCard := ⟨false, 0, 0, .unused, 0⟩

def newborn (pid ppid : ℕ) : ProcessCard := ⟨true, pid, ppid, .ready, 0⟩

/-- A process that has left by exit, crash or kill. -/
def Exited (card : ProcessCard) : Prop := card.state = .zombie ∨ card.state = .dead

instance (card : ProcessCard) : Decidable card.Exited :=
  inferInstanceAs (Decidable (_ ∨ _))

/-- A process that can still run. -/
def Live (card : ProcessCard) : Prop :=
  card.state = .ready ∨ card.state = .running ∨ card.state = .blocked

instance (card : ProcessCard) : Decidable card.Live :=
  inferInstanceAs (Decidable (_ ∨ _))

/-- The slots that the next spawn may take. -/
def Free (card : ProcessCard) : Prop := card.used = false ∨ card.state = .dead

theorem Live.not_exited {card : ProcessCard} (h : card.Live) : ¬card.Exited := by
  rcases h with h | h | h <;> simp [Exited, h]

end ProcessCard

def CourseProcess.card (process : CourseProcess) : ProcessCard :=
  ⟨process.used, process.pid, process.ppid, process.state, process.exitCode⟩

namespace CourseProcessTable

variable (table : CourseProcessTable)

def cards : ProcessSlot → ProcessCard := fun i => (table.processes i).card

variable (i : ProcessSlot)

@[simp] theorem setProcess_cards (process : CourseProcess) :
    (table.setProcess i process).cards = Function.update table.cards i process.card := by
  funext j
  by_cases h : j = i
  · subst h
    simp [cards, setProcess]
  · simp [cards, setProcess, h]

/-- The cards and the next pid agree. -/
def SameCards (table' : CourseProcessTable) : Prop :=
  table'.cards = table.cards ∧ table'.nextPid = table.nextPid

variable {table}

theorem SameCards.refl : table.SameCards table := ⟨rfl, rfl⟩

theorem SameCards.trans {table' table'' : CourseProcessTable} (h : table.SameCards table')
    (h' : table'.SameCards table'') : table.SameCards table'' :=
  ⟨h'.1.trans h.1, h'.2.trans h.2⟩

theorem setProcess_sameCards {i : ProcessSlot} {process : CourseProcess}
    (h : process.card = table.cards i) : table.SameCards (table.setProcess i process) := by
  refine ⟨?_, rfl⟩
  rw [setProcess_cards, h, Function.update_eq_self]

theorem setCowPage_sameCards (k : CowPageSlot) (page : CourseProcessCowPage) :
    table.SameCards (table.setCowPage k page) := ⟨rfl, rfl⟩

variable (j : UserPageIndex)

theorem setUserPage_sameCards
    (ref : CourseProcessUserPageRef) : table.SameCards (table.setUserPage i j ref) :=
  setProcess_sameCards rfl

theorem releaseCowPageRef_sameCards (id : ℕ) : table.SameCards (table.releaseCowPageRef id) := by
  simp only [releaseCowPageRef]
  split
  · exact SameCards.refl
  split
  · exact SameCards.refl
  split
  · exact ⟨rfl, rfl⟩
  · exact setCowPage_sameCards _ _

theorem releaseUserPage_sameCards : table.SameCards (table.releaseUserPage i j) := by
  simp only [releaseUserPage]
  split
  · exact (releaseCowPageRef_sameCards _).trans (setUserPage_sameCards _ _ _)
  · exact SameCards.refl

theorem releaseProcessUserPages_sameCards : table.SameCards (table.releaseProcessUserPages i) := by
  have hfold : ∀ (js : List UserPageIndex) (table : CourseProcessTable),
      table.SameCards (js.foldl (fun table j => table.releaseUserPage i j) table) := by
    intro js
    induction js with
    | nil => intro table; exact SameCards.refl
    | cons j js ih => intro table; exact (releaseUserPage_sameCards i j).trans (ih _)
  exact hfold _ _

variable {table' : CourseProcessTable} {pid : ℕ}

theorem allocCowPage_sameCards {k : CowPageSlot}
    (h : table.allocCowPage = some (k, table')) : table.SameCards table' := by
  simp only [allocCowPage] at h
  split at h
  · cases h
  split at h
  · cases h
  cases h
  exact ⟨rfl, rfl⟩

theorem duplicateCowPage_sameCards : table.SameCards (table.duplicateCowPage i j).1 := by
  simp only [duplicateCowPage]
  split
  · exact SameCards.refl
  split
  · exact SameCards.refl
  split
  · exact SameCards.refl
  split
  · exact setUserPage_sameCards _ _ _
  split
  · exact SameCards.refl
  rename_i n table' halloc
  have hmoved := @setUserPage_sameCards table' i j
  exact (allocCowPage_sameCards halloc).trans (hmoved _)

theorem forkPage_sameCards {parent child : ProcessSlot} {j : UserPageIndex}
    (h : table.forkPage parent child j = some table') :
    table.SameCards table' := by
  simp only [forkPage] at h
  split at h
  · cases h
    exact SameCards.refl
  split at h
  · cases h
  cases h
  have hparent := @setUserPage_sameCards table parent j
  have hchild := fun ref => @setUserPage_sameCards (table.setUserPage parent j ref) child j
  exact (hparent _).trans (hchild _ _)

theorem forkPages_cards (parent child : ProcessSlot) (js : List UserPageIndex)
    (table : CourseProcessTable) :
    ((table.forkPages parent child js).2 ∧ table.SameCards (table.forkPages parent child js).1) ∨
      ((table.forkPages parent child js).2 = false ∧
        (table.forkPages parent child js).1.cards = Function.update table.cards child .cleared ∧
        (table.forkPages parent child js).1.nextPid = table.nextPid) := by
  induction js generalizing table with
  | nil => exact .inl ⟨rfl, SameCards.refl⟩
  | cons j js ih =>
    simp only [forkPages]
    cases hpage : table.forkPage parent child j with
    | none => exact .inr ⟨rfl, setProcess_cards _ _ _, rfl⟩
    | some table' =>
      have hsame := forkPage_sameCards hpage
      rcases ih table' with ⟨hok, hcards⟩ | ⟨hfail, hcards, hnext⟩
      · exact .inl ⟨hok, hsame.trans hcards⟩
      refine .inr ⟨hfail, ?_, hnext.trans hsame.2⟩
      rw [hcards, hsame.1]

theorem find_some {i : ProcessSlot} (h : table.find pid = some i) :
    pid ≠ 0 ∧ (table.cards i).used ∧ (table.cards i).pid = pid := by
  simp only [find] at h
  split at h
  · cases h
  rename_i hpid
  have hi := firstSlot_some h
  simp only [Bool.and_eq_true, beq_iff_eq] at hi
  exact ⟨hpid, hi.1, hi.2⟩

theorem find_none (hpid : pid ≠ 0) (h : table.find pid = none) (i : ProcessSlot)
    (hused : (table.cards i).used) : (table.cards i).pid ≠ pid := by
  simp only [find, hpid, ↓reduceIte] at h
  have hi := firstSlot_none h i
  simp only [Bool.and_eq_false_iff, beq_eq_false_iff_ne] at hi
  rcases hi with hi | hi
  · simp only [cards, CourseProcess.card] at hused
    rw [hi] at hused
    cases hused
  · exact hi

theorem allocProcess_some {i : ProcessSlot} (h : table.allocProcess = some i) :
    (table.cards i).Free := by
  have hi := firstSlot_some h
  simp only [Bool.or_eq_true, Bool.not_eq_true', beq_iff_eq] at hi
  exact hi

/-- No two processes share a pid, and the next pid is new until the counter wraps. -/
structure PidsFresh (table : CourseProcessTable) : Prop where
  positive : ∀ i, (table.cards i).used → 0 < (table.cards i).pid
  bound : ∀ i, (table.cards i).used → table.nextPid ≠ 0 →
    (table.cards i).pid < table.nextPid
  unique : ∀ i j, (table.cards i).used → (table.cards j).used →
    (table.cards i).pid = (table.cards j).pid → i = j
  lt : table.nextPid < 2 ^ 32

theorem succ32_lt (n : ℕ) : succ32 n < 2 ^ 32 := Nat.mod_lt _ (by decide)

theorem PidsFresh.find_eq (h : table.PidsFresh) {i : ProcessSlot}
    (hused : (table.cards i).used) : table.find (table.cards i).pid = some i := by
  have hpid : (table.cards i).pid ≠ 0 := Nat.ne_of_gt (h.positive i hused)
  cases hfind : table.find (table.cards i).pid with
  | none => exact absurd rfl (find_none hpid hfind i hused)
  | some j =>
    obtain ⟨-, hj, hpids⟩ := find_some hfind
    rw [h.unique j i hj hused hpids]

theorem find_congr (h : table'.cards = table.cards) (pid : ℕ) :
    table'.find pid = table.find pid := by
  have hcard : ∀ i, (table'.processes i).card = (table.processes i).card := fun i => congrFun h i
  simp only [CourseProcess.card, ProcessCard.mk.injEq] at hcard
  simp [find, hcard]

theorem PidsFresh.congr (h : table.PidsFresh)
    (hsame : table.SameCards table') : table'.PidsFresh := by
  obtain ⟨hcards, hnext⟩ := hsame
  constructor
  · rw [hcards]
    exact h.positive
  · rw [hcards, hnext]
    exact h.bound
  · rw [hcards]
    exact h.unique
  · rw [hnext]
    exact h.lt

theorem init_pidsFresh : init.PidsFresh := by
  constructor
  · intro i hused
    cases hused
  · intro i hused
    cases hused
  · intro i j hused
    cases hused
  · decide

theorem PidsFresh.write (h : table.PidsFresh) {i : ProcessSlot}
    {state : CourseProcessState} {exitCode : ℤ}
    (hcards : table'.cards =
      Function.update table.cards i { table.cards i with state := state, exitCode := exitCode })
    (hnext : table'.nextPid = table.nextPid) : table'.PidsFresh := by
  have hsame : ∀ j, (table'.cards j).used = (table.cards j).used ∧
      (table'.cards j).pid = (table.cards j).pid := by
    intro j
    by_cases hj : j = i
    · subst hj
      simp [hcards]
    · simp [hcards, hj]
  constructor
  · intro j hused
    rw [(hsame j).1] at hused
    rw [(hsame j).2]
    exact h.positive j hused
  · intro j hused hne
    rw [(hsame j).1] at hused
    rw [hnext] at hne ⊢
    rw [(hsame j).2]
    exact h.bound j hused hne
  · intro j k hj hk hpid
    rw [(hsame j).1] at hj
    rw [(hsame k).1] at hk
    rw [(hsame j).2, (hsame k).2] at hpid
    exact h.unique j k hj hk hpid
  · rw [hnext]
    exact h.lt

theorem PidsFresh.take (h : table.PidsFresh) {i : ProcessSlot}
    {card : ProcessCard} (hcard : card.used → card.pid = table.nextPid)
    (hne : table.nextPid ≠ 0) (hcards : table'.cards = Function.update table.cards i card)
    (hnext : table'.nextPid = succ32 table.nextPid) : table'.PidsFresh := by
  have hother : ∀ j, j ≠ i → table'.cards j = table.cards j := fun j hj => by simp [hcards, hj]
  have hself : table'.cards i = card := by simp [hcards]
  have hlt : table'.nextPid ≠ 0 → table'.nextPid = table.nextPid + 1 := by
    intro hne'
    have := h.lt
    rw [hnext, succ32] at hne' ⊢
    omega
  constructor
  · intro j hused
    by_cases hj : j = i
    · subst hj
      rw [hself] at hused ⊢
      rw [hcard hused]
      exact Nat.pos_of_ne_zero hne
    · rw [hother j hj] at hused ⊢
      exact h.positive j hused
  · intro j hused hne'
    rw [hlt hne']
    by_cases hj : j = i
    · subst hj
      rw [hself] at hused ⊢
      rw [hcard hused]
      exact Nat.lt_succ_self _
    · rw [hother j hj] at hused ⊢
      exact Nat.lt_succ_of_lt (h.bound j hused hne)
  · intro j k hj hk hpid
    by_cases hji : j = i
    · by_cases hki : k = i
      · rw [hji, hki]
      subst hji
      rw [hself] at hj hpid
      rw [hother k hki] at hk hpid
      have := h.bound k hk hne
      rw [hcard hj] at hpid
      omega
    · rw [hother j hji] at hj hpid
      by_cases hki : k = i
      · subst hki
        rw [hself] at hk hpid
        have := h.bound j hj hne
        rw [hcard hk] at hpid
        omega
      · rw [hother k hki] at hk hpid
        exact h.unique j k hj hk hpid
  · rw [hnext]
    exact succ32_lt _

end CourseProcessTable
end VisualCpu
