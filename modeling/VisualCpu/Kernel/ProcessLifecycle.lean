import VisualCpu.Kernel.SchedulerFacts

/-!
# The life of a process

A process is born, leaves once by exit, crash or kill, and is reported once to its parent.
The life events of a run are kept as a history; `Lifecycle` ties the process table to it.
A call that writes over the state of a process that has left breaks this: the wakeup of a
killed waiter, an `exec` of a zombie, a second exit.
-/

namespace VisualCpu

open List

/-- The parents under which a pid was born, in order. -/
def births (history : List LifeEvent) (pid : ℕ) : List ℕ :=
  history.filterMap fun
    | .born pid' ppid => if pid' = pid then some ppid else none
    | _ => none

def exits (history : List LifeEvent) (pid : ℕ) : List ℤ :=
  history.filterMap fun
    | .exited pid' exitCode => if pid' = pid then some exitCode else none
    | _ => none

def reports (history : List LifeEvent) (pid : ℕ) : List (ℕ × ℤ) :=
  history.filterMap fun
    | .reported parentPid pid' status => if pid' = pid then some (parentPid, status) else none
    | _ => none

section append

variable (history more : List LifeEvent) (pid : ℕ)

@[simp] theorem births_append :
    births (history ++ more) pid = births history pid ++ births more pid := filterMap_append ..

@[simp] theorem exits_append :
    exits (history ++ more) pid = exits history pid ++ exits more pid := filterMap_append ..

@[simp] theorem reports_append :
    reports (history ++ more) pid = reports history pid ++ reports more pid :=
  filterMap_append ..

end append

def ProcessCard.Recorded (card : ProcessCard) (history : List LifeEvent) : Prop :=
  births history card.pid = [card.ppid] ∧
    (card.Live ∧ exits history card.pid = [] ∧ reports history card.pid = [] ∨
      card.state = .zombie ∧ exits history card.pid = [card.exitCode] ∧
        reports history card.pid = [] ∨
      card.state = .dead ∧ exits history card.pid = [card.exitCode] ∧
        reports history card.pid = [(card.ppid, card.exitCode)])

/-- What the history says of a pid without a slot: nothing of it was seen to end, or it was
reported and its slot is gone. -/
def Departed (history : List LifeEvent) (pid : ℕ) : Prop :=
  exits history pid = [] ∧ reports history pid = [] ∨
    ∃ ppid exitCode, births history pid = [ppid] ∧ exits history pid = [exitCode] ∧
      reports history pid = [(ppid, exitCode)]

/-- The table and the history of life events agree. -/
structure Lifecycle (table : CourseProcessTable) (history : List LifeEvent) : Prop where
  fresh : table.PidsFresh
  recorded : ∀ i, (table.cards i).used → (table.cards i).Recorded history
  departed : ∀ pid, (∀ i, (table.cards i).used → (table.cards i).pid ≠ pid) →
    Departed history pid
  unborn : ∀ pid, table.nextPid ≠ 0 → table.nextPid ≤ pid →
    births history pid = [] ∧ exits history pid = [] ∧ reports history pid = []

namespace Lifecycle

variable {table table' : CourseProcessTable} {history : List LifeEvent} {more : List LifeEvent}

theorem start : Lifecycle .init [] where
  fresh := CourseProcessTable.init_pidsFresh
  recorded i hused := by cases hused
  departed _ _ := .inl ⟨rfl, rfl⟩
  unborn _ _ _ := ⟨rfl, rfl, rfl⟩

theorem same (h : Lifecycle table history) (hsame : table.SameCards table') :
    Lifecycle table' history where
  fresh := h.fresh.congr hsame
  recorded := by
    rw [hsame.1]
    exact h.recorded
  departed := by
    rw [hsame.1]
    exact h.departed
  unborn := by
    rw [hsame.2]
    exact h.unborn

theorem recorded_append {card : ProcessCard} (h : card.Recorded history)
    (hmore : births more card.pid = [] ∧ exits more card.pid = [] ∧ reports more card.pid = []) :
    card.Recorded (history ++ more) := by
  obtain ⟨hbirths, hexits, hreports⟩ := hmore
  simpa only [ProcessCard.Recorded, births_append, exits_append, reports_append, hbirths, hexits,
    hreports, append_nil] using h

theorem departed_append {pid : ℕ} (h : Departed history pid)
    (hmore : births more pid = [] ∧ exits more pid = [] ∧ reports more pid = []) :
    Departed (history ++ more) pid := by
  obtain ⟨hbirths, hexits, hreports⟩ := hmore
  simpa only [Departed, births_append, exits_append, reports_append, hbirths, hexits,
    hreports, append_nil] using h

section

variable (h : Lifecycle table history)

include h

variable {i : ProcessSlot}

variable {more : List LifeEvent} {state : CourseProcessState}

theorem take (hfree : (table.cards i).Free) (hne : table.nextPid ≠ 0) {card : ProcessCard}
    (hcards : table'.cards = Function.update table.cards i card)
    (hnext : table'.nextPid = succ32 table.nextPid)
    (hcard : card.used → card.pid = table.nextPid ∧ card.Recorded (history ++ more))
    (hmore : ∀ pid, exits more pid = [] ∧ reports more pid = [] ∧
      (pid ≠ table.nextPid → births more pid = [])) :
    Lifecycle table' (history ++ more) := by
  have hself : table'.cards i = card := by simp [hcards]
  have hother : ∀ j, j ≠ i → table'.cards j = table.cards j := fun j hj => by simp [hcards, hj]
  have hlt := h.fresh.lt
  refine ⟨h.fresh.take (fun hused => (hcard hused).1) hne hcards hnext, ?_, ?_, ?_⟩
  · intro j hused
    by_cases hj : j = i
    · subst hj
      rw [hself] at hused ⊢
      exact (hcard hused).2
    rw [hother j hj] at hused ⊢
    have hbound := h.fresh.bound j hused hne
    obtain ⟨hexits, hreports, hbirths⟩ := hmore (table.cards j).pid
    exact recorded_append (h.recorded j hused) ⟨hbirths (by omega), hexits, hreports⟩
  · intro pid hgone
    obtain ⟨hexits, hreports, hbirths⟩ := hmore pid
    by_cases hpid : pid = table.nextPid
    · obtain ⟨-, hexits', hreports'⟩ := h.unborn pid hne (by omega)
      exact .inl ⟨by rw [exits_append, hexits', hexits]; rfl,
        by rw [reports_append, hreports', hreports]; rfl⟩
    refine departed_append ?_ ⟨hbirths hpid, hexits, hreports⟩
    by_cases hold : (table.cards i).used ∧ (table.cards i).pid = pid
    · obtain ⟨hused, rfl⟩ := hold
      have hdead : (table.cards i).state = .dead := by
        rcases hfree with hfree | hfree
        · rw [hused] at hfree
          cases hfree
        · exact hfree
      obtain ⟨hborn, hstate⟩ := h.recorded i hused
      rcases hstate with ⟨hlive, -⟩ | ⟨hzombie, -⟩ | ⟨-, hexits', hreports'⟩
      · exact absurd (.inr hdead) hlive.not_exited
      · rw [hdead] at hzombie
        cases hzombie
      · exact .inr ⟨_, _, hborn, hexits', hreports'⟩
    · refine h.departed pid fun j hused => ?_
      by_cases hj : j = i
      · subst hj
        exact fun heq => hold ⟨hused, heq⟩
      have := hgone j
      rw [hother j hj] at this
      exact this hused
  · intro pid hne' hle
    obtain ⟨hexits, hreports, hbirths⟩ := hmore pid
    have hlt' : table.nextPid < pid := by
      rw [hnext, succ32] at hne' hle
      omega
    obtain ⟨hborn, hexits', hreports'⟩ := h.unborn pid hne (by omega)
    rw [births_append, exits_append, reports_append, hborn, hexits', hreports', hexits, hreports,
      hbirths (by omega)]
    exact ⟨rfl, rfl, rfl⟩

theorem write (hused : (table.cards i).used) {exitCode : ℤ}
    (hcards : table'.cards =
      Function.update table.cards i { table.cards i with state := state, exitCode := exitCode })
    (hnext : table'.nextPid = table.nextPid)
    (hcard : { table.cards i with state := state, exitCode := exitCode }.Recorded (history ++ more))
    (hmore : ∀ pid, pid ≠ (table.cards i).pid →
      births more pid = [] ∧ exits more pid = [] ∧ reports more pid = []) :
    Lifecycle table' (history ++ more) := by
  have hself : table'.cards i = { table.cards i with state := state, exitCode := exitCode } := by
    simp [hcards]
  have hother : ∀ j, j ≠ i → table'.cards j = table.cards j := fun j hj => by simp [hcards, hj]
  refine ⟨h.fresh.write hcards hnext, ?_, ?_, ?_⟩
  · intro j hj
    by_cases hji : j = i
    · subst hji
      rw [hself]
      exact hcard
    · rw [hother j hji] at hj ⊢
      exact recorded_append (h.recorded j hj)
        (hmore _ fun hpid => hji (h.fresh.unique j i hj hused hpid))
  · intro pid hgone
    have hpid : pid ≠ (table.cards i).pid := by
      have hi := hgone i
      rw [hself] at hi
      exact fun heq => hi hused heq.symm
    refine departed_append (h.departed pid fun j hj => ?_) (hmore pid hpid)
    by_cases hji : j = i
    · subst hji
      exact fun heq => hpid heq.symm
    have hj' := hgone j
    rw [hother j hji] at hj'
    exact hj' hj
  · intro pid hne hle
    rw [hnext] at hne hle
    have hbound := h.fresh.bound i hused hne
    obtain ⟨hborn, hexits, hreports⟩ := h.unborn pid hne hle
    obtain ⟨hborn', hexits', hreports'⟩ := hmore pid (by omega)
    rw [births_append, exits_append, reports_append, hborn, hexits, hreports, hborn', hexits',
      hreports']
    exact ⟨rfl, rfl, rfl⟩

theorem move (hused : (table.cards i).used) (hexited : ¬(table.cards i).Exited)
    (hstate : state = .ready ∨ state = .running ∨ state = .blocked)
    (hcards : table'.cards = Function.update table.cards i { table.cards i with state := state })
    (hnext : table'.nextPid = table.nextPid) : Lifecycle table' history := by
  rw [← append_nil history]
  refine h.write hused hcards hnext ?_ fun _ _ => ⟨rfl, rfl, rfl⟩
  obtain ⟨hborn, hrecorded⟩ := h.recorded i hused
  rw [append_nil]
  rcases hrecorded with ⟨-, hexits, hreports⟩ | ⟨hzombie, -⟩ | ⟨hdead, -⟩
  · exact ⟨hborn, .inl ⟨hstate, hexits, hreports⟩⟩
  · exact absurd (.inl hzombie) hexited
  · exact absurd (.inr hdead) hexited

theorem turns (hturns : CpuTurns table table') : Lifecycle table' history := by
  induction hturns with
  | refl => exact h
  | turn _ hused hsource htarget hcards hnext ih =>
    refine ih.move hused ?_ ?_ hcards hnext
    · rcases hsource with hsource | hsource <;> simp [ProcessCard.Exited, hsource]
    rcases htarget with htarget | htarget
    · exact .inl htarget
    · exact .inr (.inl htarget)

theorem step {rewritten : Option ProcessSlot} (hstep : CardStep table table' rewritten more)
    (hquiet : ∀ i, rewritten = some i → ¬(table.cards i).Exited) :
    Lifecycle table' (history ++ more) := by
  cases hstep with
  | same hsame =>
    rw [append_nil]
    exact h.same hsame
  | @born i ppid hfree hne hcards hnext =>
    refine h.take hfree hne hcards hnext (fun _ => ⟨rfl, ?_⟩) fun pid => ⟨rfl, rfl, ?_⟩
    · obtain ⟨hborn, hexits, hreports⟩ := h.unborn table.nextPid hne (le_refl _)
      refine ⟨?_, .inl ⟨.inl rfl, ?_, ?_⟩⟩
      · rw [births_append, show births history (ProcessCard.newborn _ ppid).pid = [] from hborn]
        simp [ProcessCard.newborn, births]
      · rw [exits_append, show exits history (ProcessCard.newborn _ ppid).pid = [] from hexits]
        rfl
      · rw [reports_append, show reports history (ProcessCard.newborn _ ppid).pid = []
          from hreports]
        rfl
    · intro hpid
      simp [births, Ne.symm hpid]
  | lost hfree hne hcards hnext =>
    exact h.take hfree hne hcards hnext (fun hused => by cases hused)
      fun _ => ⟨rfl, rfl, fun _ => rfl⟩
  | @exited i exitCode hi hused hcards hnext =>
    refine h.write hused hcards hnext ?_ fun pid hpid => ⟨rfl, by simp [exits, Ne.symm hpid], rfl⟩
    obtain ⟨hborn, hrecorded⟩ := h.recorded i hused
    rcases hrecorded with ⟨-, hexits, hreports⟩ | ⟨hzombie, -⟩ | ⟨hdead, -⟩
    · refine ⟨?_, .inr (.inl ⟨rfl, ?_, ?_⟩)⟩
      · rw [births_append, hborn]
        rfl
      · rw [exits_append, hexits]
        simp [exits]
      · rw [reports_append, hreports]
        rfl
    · exact absurd (.inl hzombie) (hquiet i hi)
    · exact absurd (.inr hdead) (hquiet i hi)
  | @reaped i hused hzombie hcards hnext =>
    refine h.write hused hcards hnext ?_ fun pid hpid => ⟨rfl, rfl, by simp [reports, Ne.symm hpid]⟩
    obtain ⟨hborn, hrecorded⟩ := h.recorded i hused
    rcases hrecorded with ⟨hlive, -⟩ | ⟨-, hexits, hreports⟩ | ⟨hdead, -⟩
    · exact absurd (.inl hzombie) hlive.not_exited
    · refine ⟨?_, .inr (.inr ⟨rfl, ?_, ?_⟩)⟩
      · rw [births_append, hborn]
        rfl
      · rw [exits_append, hexits]
        rfl
      · rw [reports_append, hreports]
        simp [reports]
    · rw [hzombie] at hdead
      cases hdead
  | moved hi hused hstate hcards hnext =>
    rw [append_nil]
    refine h.move hused (hquiet _ hi) ?_ hcards hnext
    rcases hstate with hstate | hstate
    · exact .inl hstate
    · exact .inr (.inr hstate)

end

end Lifecycle

namespace CourseSystem

/-- The action writes over the state of a process that is a zombie or dead. -/
def Disturbs (system : CourseSystem) (action : CourseAction) : Prop :=
  ∃ i, system.rewritten action = some i ∧ (system.table.cards i).Exited

def Quiet (system : CourseSystem) : List CourseAction → Prop
  | [] => True
  | action :: rest => ¬system.Disturbs action ∧ (system.perform action).Quiet rest

def history (system : CourseSystem) : List CourseAction → List LifeEvent
  | [] => []
  | action :: rest => system.lifeEvents action ++ (system.perform action).history rest

variable {before : List LifeEvent} {system : CourseSystem}

theorem perform_lifecycle {action : CourseAction} (h : Lifecycle system.table before)
    (hquiet : ¬system.Disturbs action) :
    Lifecycle (system.perform action).table (before ++ system.lifeEvents action) := by
  by_cases htick : action = .tick
  · subst htick
    simp only [lifeEvents, append_nil]
    exact h.turns CourseOnlineScheduler.tick_turns
  · exact h.step (perform_cardStep htick) fun i hi hexited => hquiet ⟨i, hi, hexited⟩

theorem run_lifecycle {actions : List CourseAction} (h : Lifecycle system.table before)
    (hquiet : system.Quiet actions) :
    Lifecycle (system.run actions).table (before ++ system.history actions) := by
  induction actions generalizing system before with
  | nil =>
    rw [history, append_nil]
    exact h
  | cons action rest ih =>
    rw [history, ← List.append_assoc]
    exact ih (perform_lifecycle h hquiet.1) hquiet.2

/-- Every process that has left stays so with the code of its first exit, and it is reported
to its parent exactly once, before its slot is taken: as a zombie it has not been reported
and a wait of its parent gives that code, dead or gone it has been reported once. A process
that is a zombie or dead has left. -/
def ExitedStay (system : CourseSystem) (before : List LifeEvent) : Prop :=
  (∀ i, (system.table.cards i).used → (system.table.cards i).Exited →
    exits before (system.table.cards i).pid ≠ []) ∧
  ∀ pid exitCode, (exits before pid).head? = some exitCode →
    ∃ ppid, births before pid = [ppid] ∧
      ((∃ i, (system.table.cards i).used ∧ (system.table.cards i).pid = pid ∧
          (system.table.cards i).state = .zombie ∧ (system.table.cards i).exitCode = exitCode ∧
          reports before pid = [] ∧ (system.table.waitpid ppid pid).2 = .ok exitCode) ∨
        (∃ i, (system.table.cards i).used ∧ (system.table.cards i).pid = pid ∧
          (system.table.cards i).state = .dead ∧ (system.table.cards i).exitCode = exitCode ∧
          reports before pid = [(ppid, exitCode)]) ∨
        (∀ i, (system.table.cards i).used → (system.table.cards i).pid ≠ pid) ∧
          reports before pid = [(ppid, exitCode)]) ∧
      ∀ i, (system.table.cards i).used → (system.table.cards i).pid = pid →
        (system.table.cards i).Exited

theorem waitpid_zombie {table : CourseProcessTable} (hfresh : table.PidsFresh) {i : ProcessSlot}
    (hused : (table.cards i).used) (hzombie : (table.cards i).state = .zombie) :
    (table.waitpid (table.cards i).ppid (table.cards i).pid).2 = .ok (table.cards i).exitCode := by
  have hfind := hfresh.find_eq hused
  simp only [CourseProcessTable.cards, CourseProcess.card] at hfind hzombie ⊢
  simp [CourseProcessTable.waitpid, hfind, hzombie]

theorem exitedStay_of_lifecycle (h : Lifecycle system.table before) : system.ExitedStay before := by
  constructor
  · intro i hused hexited
    rcases (h.recorded i hused).2 with ⟨hlive, -⟩ | ⟨-, hexits, -⟩ | ⟨-, hexits, -⟩
    · exact absurd hexited hlive.not_exited
    · simp [hexits]
    · simp [hexits]
  · intro pid exitCode hexit
    by_cases hslot : ∃ i, (system.table.cards i).used ∧ (system.table.cards i).pid = pid
    · obtain ⟨i, hused, rfl⟩ := hslot
      have honly : ∀ j, (system.table.cards j).used →
          (system.table.cards j).pid = (system.table.cards i).pid → j = i :=
        fun j hj hpid => h.fresh.unique j i hj hused hpid
      obtain ⟨hborn, hrecorded⟩ := h.recorded i hused
      refine ⟨_, hborn, ?_, ?_⟩
      · rcases hrecorded with ⟨-, hexits, -⟩ | ⟨hzombie, hexits, hreports⟩ |
          ⟨hdead, hexits, hreports⟩
        · simp [hexits] at hexit
        · rw [hexits, List.head?_cons, Option.some.injEq] at hexit
          subst hexit
          exact .inl ⟨i, hused, rfl, hzombie, rfl, hreports, waitpid_zombie h.fresh hused hzombie⟩
        · rw [hexits, List.head?_cons, Option.some.injEq] at hexit
          subst hexit
          exact .inr (.inl ⟨i, hused, rfl, hdead, rfl, hreports⟩)
      · intro j hj hpid
        rw [honly j hj hpid]
        rcases hrecorded with ⟨-, hexits, -⟩ | ⟨hzombie, -⟩ | ⟨hdead, -⟩
        · simp [hexits] at hexit
        · exact .inl hzombie
        · exact .inr hdead
    · push Not at hslot
      rcases h.departed pid hslot with ⟨hexits, -⟩ | ⟨ppid, code, hborn, hexits, hreports⟩
      · simp [hexits] at hexit
      rw [hexits, List.head?_cons, Option.some.injEq] at hexit
      subst hexit
      exact ⟨ppid, hborn, .inr (.inr ⟨hslot, hreports⟩),
        fun i hused hpid => absurd hpid (hslot i hused)⟩

/-- In every run that never writes over the state of a process that has left, every state
reached keeps the processes that have left. -/
theorem quiet_exitedStay (values : ℕ → BitVec 32) (actions : List CourseAction)
    (hquiet : (start values).Quiet actions) :
    ((start values).run actions).ExitedStay ((start values).history actions) :=
  exitedStay_of_lifecycle (run_lifecycle Lifecycle.start hquiet)

/-- Two processes; the second waits on a semaphore without units and is killed by the first. -/
def killedWaiter : List CourseAction :=
  [.process (.spawn 0 []), .process (.spawn 1 []), .semaphoreWait 0 2, .process (.kill 1 2)]

instance (system : CourseSystem) (action : CourseAction) : Decidable (system.Disturbs action) :=
  inferInstanceAs (Decidable
    (∃ i, system.rewritten action = some i ∧ (system.table.cards i).Exited))

instance decidableQuiet (system : CourseSystem) :
    (actions : List CourseAction) → Decidable (system.Quiet actions)
  | [] => inferInstanceAs (Decidable True)
  | action :: rest =>
    have := decidableQuiet (system.perform action) rest
    inferInstanceAs (Decidable (_ ∧ _))

theorem killedWaiter_exitedStay :
    (start fun _ => 0).Quiet killedWaiter ∧
      ((start fun _ => 0).run killedWaiter).ExitedStay ((start fun _ => 0).history killedWaiter) :=
  ⟨by decide +kernel, quiet_exitedStay (fun _ => 0) killedWaiter (by decide +kernel)⟩

/-- The post finds the pid of the killed process in its queue and makes it ready again. -/
theorem killedWaiter_revived : ¬∀ (values : ℕ → BitVec 32) (actions : List CourseAction),
      ((start values).run actions).ExitedStay ((start values).history actions) := by
  intro h
  have hstay := (h (fun _ => 0) (killedWaiter ++ [.semaphorePost 0])).2 2 9 (by decide +kernel)
  obtain ⟨ppid, -, -, hexited⟩ := hstay
  exact absurd (hexited 1 (by decide +kernel) (by decide +kernel)) (by decide +kernel)

end CourseSystem
end VisualCpu
