import VisualCpu.Kernel.OnlineScheduler
import VisualCpu.Kernel.ProcessCards

/-!
# The course kernel as one system

One process table with the semaphores, mutexes and the online scheduler that refer to it,
and the calls that change it. Each call writes at most one card, except a scheduler tick,
which may hand the CPU from one process to another.
-/

namespace VisualCpu

open Function ProcessCard CourseProcessTable SameCards CourseProcessState

/-- The calls of the process API that change the table. -/
inductive CourseProcessCall where
  | spawn (ppid : ℕ) (name : List UInt8)
  | fork (parentPid : ℕ) (childName : Option (List UInt8))
  | exec (pid : ℕ) (program : Option (List UInt8 × Option CourseElfLoadResult))
  | execImage (pid : ℕ) (imageName : List UInt8) (load : Option CourseElfLoadResult)
  | exit (pid : ℕ) (exitCode : ℤ)
  | recordCrash (pid : ℕ) (sepc scause stval : BitVec 64) (reason : List UInt8)
  | kill (callerPid targetPid : ℕ)
  | waitpid (parentPid childPid : ℕ)
  | wait (parentPid : ℕ)
  | mapUserPage (pid pageIndex : ℕ) (fillValue : UInt8)
  | writeUserByte (pid pageIndex offset : ℕ) (value : UInt8)
  | handleCowStoreFault (pid pageIndex offset : ℕ)

/-- What a call returns; a wait comes with the pid of the child that it looked at. -/
inductive CourseProcessOutcome where
  | started (pid : Option ℕ)
  | done (ok : Bool)
  | replaced (result : Except CourseProcessError Unit)
  | waited (childPid : ℕ) (result : Except CourseProcessError ℤ)

/-- What happens to a process from outside: its creation, its end and the report of it. -/
inductive LifeEvent where
  | born (pid ppid : ℕ)
  | exited (pid : ℕ) (exitCode : ℤ)
  | reported (parentPid pid : ℕ) (status : ℤ)
deriving DecidableEq

namespace CourseProcessCall

def perform (table : CourseProcessTable) :
    CourseProcessCall → CourseProcessTable × CourseProcessOutcome
  | spawn ppid name =>
    let (table', slot) := table.spawn ppid name
    (table', .started (slot.map fun i => (table'.processes i).pid))
  | fork parentPid childName =>
    let (table', slot) := table.fork parentPid childName
    (table', .started (slot.map fun i => (table'.processes i).pid))
  | exec pid program => ((table.exec pid program).1, .replaced (table.exec pid program).2)
  | execImage pid imageName load =>
    ((table.execImage pid imageName load).1, .replaced (table.execImage pid imageName load).2)
  | exit pid exitCode => ((table.exit pid exitCode).1, .done (table.exit pid exitCode).2)
  | recordCrash pid sepc scause stval reason =>
    let (table', ok) := table.recordCrash pid sepc scause stval reason
    (table', .done ok)
  | kill callerPid targetPid =>
    ((table.kill callerPid targetPid).1, .done (table.kill callerPid targetPid).2)
  | waitpid parentPid childPid =>
    ((table.waitpid parentPid childPid).1, .waited childPid (table.waitpid parentPid childPid).2)
  | wait parentPid =>
    let childPid := ((table.zombieChild parentPid).map fun i => (table.processes i).pid).getD 0
    ((table.wait parentPid).1, .waited childPid (table.wait parentPid).2)
  | mapUserPage pid pageIndex fillValue =>
    let (table', ok) := table.mapUserPage pid pageIndex fillValue
    (table', .done ok)
  | writeUserByte pid pageIndex offset value =>
    let (table', ok) := table.writeUserByte pid pageIndex offset value
    (table', .done ok)
  | handleCowStoreFault pid pageIndex offset =>
    let (table', ok) := table.handleCowStoreFault pid pageIndex offset
    (table', .done ok)

def lifeEvents : CourseProcessCall → CourseProcessOutcome → List LifeEvent
  | spawn ppid _, .started (some pid) => [.born pid ppid]
  | fork parentPid _, .started (some pid) => [.born pid parentPid]
  | exit pid exitCode, .done true => [.exited pid exitCode]
  | recordCrash pid _ _ _ _, .done true => [.exited pid courseProcessExitCrash]
  | kill _ targetPid, .done true => [.exited targetPid 9]
  | waitpid parentPid _, .waited childPid (.ok status) => [.reported parentPid childPid status]
  | wait parentPid, .waited childPid (.ok status) => [.reported parentPid childPid status]
  | _, _ => []

/-- The slot whose state the call writes over, apart from a wait and a new process. -/
def rewritten (table : CourseProcessTable) : CourseProcessCall → Option ProcessSlot
  | exec pid (some (_, some _)) => table.find pid
  | execImage pid _ (some _) => table.find pid
  | exit pid _ => (table.find pid).filter fun i => (table.processes i).state ≠ .dead
  | recordCrash pid _ _ _ _ => (table.find pid).filter fun i => (table.processes i).state ≠ .dead
  | kill callerPid targetPid =>
    match table.find callerPid, table.find targetPid with
    | some caller, some target =>
      if (table.processes caller).state = .unused ∨ (table.processes caller).state = .dead ∨
          (table.processes target).state = .unused ∨ (table.processes target).state = .dead then
        none
      else if targetPid = 1 ∨ targetPid = callerPid then none
      else some target
    | _, _ => none
  | _ => none

end CourseProcessCall

/-- All that one operation can do to the cards, with the event it is seen as. Every state
written over is that of the slot `rewritten`. -/
inductive CardStep (table table' : CourseProcessTable) (rewritten : Option ProcessSlot) :
    List LifeEvent → Prop
  | same (h : table.SameCards table') : CardStep table table' rewritten []
  | born {i : ProcessSlot} {ppid : ℕ} (hfree : (table.cards i).Free) (hne : table.nextPid ≠ 0)
      (hcards : table'.cards = update table.cards i (newborn table.nextPid ppid))
      (hnext : table'.nextPid = succ32 table.nextPid) :
      CardStep table table' rewritten [.born table.nextPid ppid]
  | lost {i : ProcessSlot} (hfree : (table.cards i).Free) (hne : table.nextPid ≠ 0)
      (hcards : table'.cards = update table.cards i ProcessCard.cleared)
      (hnext : table'.nextPid = succ32 table.nextPid) : CardStep table table' rewritten []
  | exited {i : ProcessSlot} {exitCode : ℤ} (hi : rewritten = some i)
      (hused : (table.cards i).used)
      (hcards : table'.cards = update table.cards i
        { table.cards i with state := .zombie, exitCode := exitCode })
      (hnext : table'.nextPid = table.nextPid) :
      CardStep table table' rewritten [.exited (table.cards i).pid exitCode]
  | reaped {i : ProcessSlot} (hused : (table.cards i).used)
      (hzombie : (table.cards i).state = .zombie)
      (hcards : table'.cards =
        update table.cards i { table.cards i with state := .dead })
      (hnext : table'.nextPid = table.nextPid) :
      CardStep table table' rewritten
        [.reported (table.cards i).ppid (table.cards i).pid (table.cards i).exitCode]
  | moved {i : ProcessSlot} {state : CourseProcessState} (hi : rewritten = some i)
      (hused : (table.cards i).used) (hstate : state = .ready ∨ state = .blocked)
      (hcards : table'.cards = update table.cards i { table.cards i with state := state })
      (hnext : table'.nextPid = table.nextPid) : CardStep table table' rewritten []

namespace CourseProcessTable

variable {table : CourseProcessTable} {state : CourseProcessState} {pid : ℕ}

theorem setState_some (hstate : state ≠ .unused)
    {i : ProcessSlot} (h : table.find pid = some i) :
    table.setState pid state =
      (table.setProcess i { table.processes i with state := state }, true) := by
  simp [setState, h, hstate]

theorem setState_none (h : table.find pid = none) : table.setState pid state = (table, false) := by
  simp [setState, h]

theorem spawn_cases (ppid : ℕ) (name : List UInt8) :
    table.spawn ppid name = (table, none) ∨
    ∃ (i : ProcessSlot) (table' : CourseProcessTable), table.spawn ppid name = (table', some i) ∧
      (table.cards i).Free ∧
      table.nextPid ≠ 0 ∧
      table'.cards = update table.cards i (newborn table.nextPid ppid) ∧
      table'.nextPid = succ32 table.nextPid := by
  unfold spawn
  cases halloc : table.allocProcess with
  | none => exact .inl rfl
  | some i =>
    by_cases hne : table.nextPid = 0
    · exact .inl (if_pos hne)
    dsimp only
    rw [if_neg hne]
    refine .inr ⟨i, _, rfl, allocProcess_some halloc, hne, ?_, rfl⟩
    exact setProcess_cards table i _

theorem fork_cases (parentPid : ℕ) (childName : Option (List UInt8)) :
    table.fork parentPid childName = (table, none) ∨
    ∃ (i : ProcessSlot) (table' : CourseProcessTable) (slot : Option ProcessSlot),
      table.fork parentPid childName = (table', slot) ∧ (table.cards i).Free ∧
      table.nextPid ≠ 0 ∧ table'.nextPid = succ32 table.nextPid ∧
      (slot = some i ∧ table'.cards = update table.cards i (newborn table.nextPid parentPid) ∨
        slot = none ∧ table'.cards = update table.cards i ProcessCard.cleared) := by
  simp only [fork]
  cases hfind : table.find parentPid with
  | none => exact .inl rfl
  | some parent =>
    by_cases hstate : (table.processes parent).state = .dead ∨
        (table.processes parent).state = .zombie
    · exact .inl (by simp [hstate])
    simp only [hstate, ↓reduceIte]
    rcases @spawn_cases table parentPid (childName.getD (table.processes parent).name) with
      hspawn | ⟨i, table', hspawn, hfree, hne, hcards, hnext⟩
    · exact .inl (by rw [hspawn])
    rw [hspawn]
    simp only
    set inherited := table'.setProcess i { table'.processes i with
      entryPc := (table.processes parent).entryPc
      userSp := (table.processes parent).userSp
      abi := (table.processes parent).abi
      addressSpace := (table.processes parent).addressSpace
      openFiles := (table.processes parent).openFiles
      maps := (table.processes parent).maps } with hinherited
    have hsame : table'.SameCards inherited := setProcess_sameCards rfl
    rcases forkPages_cards parent i (List.finRange 8) inherited with
      ⟨hok, hpages⟩ | ⟨hfail, hcards', hnext'⟩
    · cases hres : inherited.forkPages parent i (List.finRange 8) with
      | mk table'' ok =>
        rw [hres] at hok hpages
        obtain rfl : ok := hok
        have hlast : table''.SameCards (table''.setProcess i { table''.processes i with
            argv := copyStr courseProcessMaxArgv (table.processes parent).argv }) :=
          setProcess_sameCards rfl
        have hall := hsame.trans (hpages.trans hlast)
        refine .inr ⟨i, _, _, rfl, hfree, hne, hall.2.trans hnext, .inl ⟨rfl, ?_⟩⟩
        rw [hall.1, hcards]
    · cases hres : inherited.forkPages parent i (List.finRange 8) with
      | mk table'' ok =>
        rw [hres] at hfail hcards' hnext'
        obtain rfl : ok = false := hfail
        refine .inr ⟨i, _, _, rfl, hfree, hne, (hnext'.trans hsame.2).trans hnext, .inr ⟨rfl, ?_⟩⟩
        rw [hcards', hsame.1, hcards, Function.update_idem]

theorem exit_cases (pid : ℕ) (exitCode : ℤ) :
    table.exit pid exitCode = (table, false) ∨
    ∃ i, table.find pid = some i ∧ (table.processes i).state ≠ .dead ∧
      table.exit pid exitCode = (table.setProcess i { table.processes i with
        exitCode := exitCode, state := .zombie }, true) := by
  simp only [exit]
  cases hfind : table.find pid with
  | none => exact .inl rfl
  | some i =>
    by_cases hdead : (table.processes i).state = .dead
    · exact .inl (by simp [hdead])
    · exact .inr ⟨i, rfl, hdead, by simp [hdead]⟩

theorem recordCrash_cases (pid : ℕ) (sepc scause stval : BitVec 64) (reason : List UInt8) :
    table.recordCrash pid sepc scause stval reason = (table, false) ∨
    ∃ (i : ProcessSlot) (table' : CourseProcessTable), table.find pid = some i ∧
      (table.processes i).state ≠ .dead ∧
      table.recordCrash pid sepc scause stval reason = (table', true) ∧
      table'.cards = update table.cards i
        { table.cards i with state := .zombie, exitCode := courseProcessExitCrash } ∧
      table'.nextPid = table.nextPid := by
  simp only [recordCrash]
  cases hfind : table.find pid with
  | none => exact .inl rfl
  | some i =>
    by_cases hdead : (table.processes i).state = .dead
    · exact .inl (by simp [hdead])
    simp only [hdead, ↓reduceIte]
    set crashed := table.setProcess i { table.processes i with
      crashSepc := sepc
      crashScause := scause
      crashStval := stval
      crashReason := copyStr courseProcessMaxName reason } with hcrashed
    have hsame : table.SameCards crashed := setProcess_sameCards rfl
    have hfind' : crashed.find pid = some i := by rw [find_congr hsame.1, hfind]
    have hcard : (crashed.cards i) = table.cards i := by rw [hsame.1]
    have hdead' : (crashed.processes i).state ≠ .dead := by
      have := congrArg ProcessCard.state hcard
      simp only [cards, CourseProcess.card] at this
      rwa [this]
    have hexit : crashed.exit pid courseProcessExitCrash =
        (crashed.setProcess i { crashed.processes i with
          exitCode := courseProcessExitCrash, state := .zombie }, true) := by
      simp [exit, hfind', hdead']
    refine .inr ⟨i, _, rfl, hdead, hexit, ?_, hsame.2⟩
    rw [setProcess_cards, hsame.1]
    congr 1
    rw [← hcard]
    rfl

theorem waitpid_cases (parentPid childPid : ℕ) :
    (∃ error, table.waitpid parentPid childPid = (table, .error error)) ∨
    ∃ (i : ProcessSlot) (table' : CourseProcessTable), table.find childPid = some i ∧
      (table.cards i).ppid = parentPid ∧
      (table.cards i).state = .zombie ∧
      table.waitpid parentPid childPid = (table', .ok (table.cards i).exitCode) ∧
      table'.cards = update table.cards i { table.cards i with state := .dead } ∧
      table'.nextPid = table.nextPid := by
  simp only [waitpid]
  cases hfind : table.find childPid with
  | none => exact .inl ⟨_, rfl⟩
  | some i =>
    simp only
    split
    · exact .inl ⟨_, rfl⟩
    rename_i hppid
    split
    · exact .inl ⟨_, rfl⟩
    rename_i hzombie
    have hsame := @releaseProcessUserPages_sameCards table i
    push Not at hppid
    refine .inr ⟨i, _, rfl, hppid.1, not_not.1 hzombie, rfl, ?_, hsame.2⟩
    rw [setProcess_cards, hsame.1]
    congr 1
    have hcard : (table.releaseProcessUserPages i).cards i = table.cards i := by rw [hsame.1]
    rw [← hcard]
    rfl

theorem execImage_cases (pid : ℕ) (imageName : List UInt8) (load : Option CourseElfLoadResult) :
    (∃ error, table.execImage pid imageName load = (table, .error error)) ∨
    ∃ (i : ProcessSlot) (table' : CourseProcessTable) (image : CourseElfLoadResult),
      table.find pid = some i ∧ load = some image ∧
      table.execImage pid imageName load = (table', .ok ()) ∧
      table'.cards = update table.cards i { table.cards i with state := .ready } ∧
      table'.nextPid = table.nextPid := by
  simp only [execImage]
  cases hfind : table.find pid with
  | none => exact .inl ⟨_, rfl⟩
  | some i =>
    cases load with
    | none => exact .inl ⟨_, rfl⟩
    | some image =>
      have hsame := @releaseProcessUserPages_sameCards table i
      refine .inr ⟨i, _, image, rfl, rfl, rfl, ?_, hsame.2⟩
      rw [setProcess_cards, hsame.1]
      congr 1
      have hcard : (table.releaseProcessUserPages i).cards i = table.cards i := by rw [hsame.1]
      rw [← hcard]
      rfl

theorem mapUserPage_sameCards (pid pageIndex : ℕ) (fillValue : UInt8) :
    table.SameCards (table.mapUserPage pid pageIndex fillValue).1 := by
  simp only [mapUserPage]
  split
  · exact refl
  split
  · split
    · exact refl
    split
    · exact refl
    rename_i k table' halloc
    have hmapped := fun i j => @setUserPage_sameCards table' i j
    exact (allocCowPage_sameCards halloc).trans (hmapped _ _ _)
  · exact refl

theorem handleCowStoreFault_sameCards (pid pageIndex offset : ℕ) :
    table.SameCards (table.handleCowStoreFault pid pageIndex offset).1 := by
  simp only [handleCowStoreFault]
  split
  · exact refl
  split
  · split
    · split
      · exact refl
      · exact duplicateCowPage_sameCards _ _
    · exact refl
  · exact refl

theorem writeUserByte_sameCards (pid pageIndex offset : ℕ) (value : UInt8) :
    table.SameCards (table.writeUserByte pid pageIndex offset value).1 := by
  simp only [writeUserByte]
  split
  · exact refl
  rename_i i hfind
  split
  · rename_i hj
    have hdup := @duplicateCowPage_sameCards table i ⟨pageIndex, hj⟩
    split
    · split
      · exact refl
      split
      · rename_i table' hres
        rwa [hres] at hdup
      rename_i table' hres
      rw [hres] at hdup
      split
      · exact hdup
      · exact hdup.trans (setCowPage_sameCards _ _)
    · exact refl
  · exact refl

theorem wait_cases (parentPid : ℕ) :
    (∃ error, table.wait parentPid = (table, .error error)) ∨
    ∃ i, table.zombieChild parentPid = some i ∧
      table.wait parentPid = table.waitpid parentPid (table.processes i).pid := by
  unfold wait
  cases hchild : table.zombieChild parentPid with
  | none => exact .inl ⟨_, rfl⟩
  | some i => exact .inr ⟨i, rfl, rfl⟩

theorem kill_cases (callerPid targetPid : ℕ) :
    table.kill callerPid targetPid = (table, false) ∨
    ∃ i, table.find targetPid = some i ∧
      (CourseProcessCall.kill callerPid targetPid).rewritten table = some i ∧
      table.kill callerPid targetPid = (table.setProcess i { table.processes i with
        exitCode := 9, state := .zombie }, true) := by
  simp only [kill, CourseProcessCall.rewritten]
  cases hcaller : table.find callerPid with
  | none => exact .inl rfl
  | some caller =>
    cases htarget : table.find targetPid with
    | none => exact .inl rfl
    | some target =>
      simp only
      split
      · exact .inl rfl
      split
      · exact .inl rfl
      · exact .inr ⟨target, rfl, rfl, rfl⟩

end CourseProcessTable

namespace CourseProcessCall

open CourseProcessTable

variable {table : CourseProcessTable}

theorem spawn_cardStep (ppid : ℕ) (name : List UInt8) (rewritten : Option ProcessSlot) :
    CardStep table ((spawn ppid name).perform table).1 rewritten
      ((spawn ppid name).lifeEvents ((spawn ppid name).perform table).2) := by
  rcases @spawn_cases table ppid name with
    hspawn | ⟨i, table', hspawn, hfree, hne, hcards, hnext⟩
  · simp only [perform, hspawn]
    exact .same refl
  have hpid : (table'.processes i).pid = table.nextPid := by
    have hcard : table'.cards i = newborn table.nextPid ppid := by
      rw [hcards, Function.update_self]
    exact congrArg ProcessCard.pid hcard
  simp only [perform, hspawn, Option.map_some, lifeEvents, hpid]
  exact .born hfree hne hcards hnext

theorem fork_cardStep (parentPid : ℕ) (childName : Option (List UInt8))
    (rewritten : Option ProcessSlot) :
    CardStep table ((fork parentPid childName).perform table).1 rewritten
      ((fork parentPid childName).lifeEvents ((fork parentPid childName).perform table).2) := by
  rcases @fork_cases table parentPid childName with
    hfork | ⟨i, table', slot, hfork, hfree, hne, hnext, ⟨rfl, hcards⟩ | ⟨rfl, hcards⟩⟩
  · simp only [perform, hfork]
    exact .same refl
  · have hpid : (table'.processes i).pid = table.nextPid := by
      have hcard : table'.cards i = newborn table.nextPid parentPid := by
        rw [hcards, Function.update_self]
      exact congrArg ProcessCard.pid hcard
    simp only [perform, hfork, Option.map_some, lifeEvents, hpid]
    exact .born hfree hne hcards hnext
  · simp only [perform, hfork]
    exact .lost hfree hne hcards hnext

theorem waitpid_cardStep (parentPid childPid : ℕ) (rewritten : Option ProcessSlot)
    {call : CourseProcessCall}
    (hcall : ∀ status, call.lifeEvents (.waited childPid (.ok status)) =
      [.reported parentPid childPid status])
    (herror : ∀ error, call.lifeEvents (.waited childPid (.error error)) = []) :
    CardStep table (table.waitpid parentPid childPid).1 rewritten
      (call.lifeEvents (.waited childPid (table.waitpid parentPid childPid).2)) := by
  rcases @waitpid_cases table parentPid childPid with
    ⟨error, hwait⟩ | ⟨i, table', hfind, hppid, hzombie, hwait, hcards, hnext⟩
  · rw [hwait, herror]
    exact .same refl
  rw [hwait, hcall, ← hppid, ← (find_some hfind).2.2]
  exact .reaped (find_some hfind).2.1 hzombie hcards hnext

theorem execImage_cardStep (pid : ℕ) (imageName : List UInt8) (load : Option CourseElfLoadResult)
    {rewritten : Option ProcessSlot}
    (hrewritten : ∀ i, load ≠ none → table.find pid = some i → rewritten = some i) :
    CardStep table (table.execImage pid imageName load).1 rewritten [] := by
  rcases @execImage_cases table pid imageName load with
    ⟨error, hexec⟩ | ⟨i, table', image, hfind, rfl, hexec, hcards, hnext⟩
  · rw [hexec]
    exact .same refl
  rw [hexec]
  exact .moved (hrewritten i (by simp) hfind) (find_some hfind).2.1 (.inl rfl) hcards hnext

theorem perform_cardStep (call : CourseProcessCall) :
    CardStep table (call.perform table).1 (call.rewritten table)
      (call.lifeEvents (call.perform table).2) := by
  cases call with
  | spawn ppid name => exact spawn_cardStep ppid name _
  | fork parentPid childName => exact fork_cardStep parentPid childName _
  | exec pid program =>
    simp only [perform, lifeEvents, CourseProcessTable.exec]
    split
    · exact .same refl
    cases program with
    | none => exact .same refl
    | some program =>
      obtain ⟨name, load⟩ := program
      refine execImage_cardStep pid name load fun i hload hfind => ?_
      cases load with
      | none => exact absurd rfl hload
      | some image => exact hfind
  | execImage pid imageName load =>
    refine execImage_cardStep pid imageName load fun i hload hfind => ?_
    cases load with
    | none => exact absurd rfl hload
    | some image => exact hfind
  | exit pid exitCode =>
    simp only [perform]
    rcases @exit_cases table pid exitCode with hexit | ⟨i, hfind, hdead, hexit⟩
    · rw [hexit]
      exact .same refl
    rw [hexit]
    simp only [lifeEvents, ← (find_some hfind).2.2]
    refine .exited ?_ (find_some hfind).2.1 (setProcess_cards _ _ _) rfl
    simp [rewritten, (find_some hfind).2.2, hfind, hdead]
  | recordCrash pid sepc scause stval reason =>
    simp only [perform]
    rcases @recordCrash_cases table pid sepc scause stval reason with
      hcrash | ⟨i, table', hfind, hdead, hcrash, hcards, hnext⟩
    · rw [hcrash]
      exact .same refl
    rw [hcrash]
    simp only [lifeEvents, ← (find_some hfind).2.2]
    refine .exited ?_ (find_some hfind).2.1 hcards hnext
    simp [rewritten, (find_some hfind).2.2, hfind, hdead]
  | kill callerPid targetPid =>
    simp only [perform]
    rcases @kill_cases table callerPid targetPid with hkill | ⟨i, hfind, hrewritten, hkill⟩
    · rw [hkill]
      exact .same refl
    rw [hkill, hrewritten]
    simp only [lifeEvents, ← (find_some hfind).2.2]
    exact .exited rfl (find_some hfind).2.1 (setProcess_cards _ _ _) rfl
  | waitpid parentPid childPid =>
    exact waitpid_cardStep parentPid childPid _ (fun _ => rfl) (fun _ => rfl)
  | wait parentPid =>
    simp only [perform]
    rcases @wait_cases table parentPid with ⟨error, hwait⟩ | ⟨i, hchild, hwait⟩
    · rw [hwait]
      exact .same refl
    rw [hwait, hchild]
    exact waitpid_cardStep parentPid _ _ (fun _ => rfl) (fun _ => rfl)
  | mapUserPage pid pageIndex fillValue => exact .same (mapUserPage_sameCards _ _ _)
  | writeUserByte pid pageIndex offset value => exact .same (writeUserByte_sameCards _ _ _ _)
  | handleCowStoreFault pid pageIndex offset => exact .same (handleCowStoreFault_sameCards _ _ _)

end CourseProcessCall

theorem nil_or_cons {α : Type} (xs : List α) : xs = [] ∨ ∃ x rest, xs = x :: rest := by
  cases xs <;> simp

theorem CourseProcessTable.findProcess_some {table : CourseProcessTable} {pid : ℕ} {i : ProcessSlot}
    (h : table.findProcess pid = some i) :
    table.find pid = some i ∧ (table.cards i).state ≠ .dead ∧ (table.cards i).state ≠ .unused := by
  simp only [findProcess] at h
  split at h
  · cases h
  rename_i j hfind
  split at h
  · cases h
  rename_i hstate
  cases h
  push Not at hstate
  exact ⟨hfind, hstate⟩

namespace CourseSemaphore

variable (semaphore : CourseSemaphore) (table : CourseProcessTable)

theorem wait_cases (pid : ℕ) :
    semaphore.wait table pid = (semaphore, table, .errBadProcess) ∨
    (∃ i, table.findProcess pid = some i ∧ 0 < semaphore.value ∧
      semaphore.wait table pid =
        ({ semaphore with value := semaphore.value - 1 }, table, .ok)) ∨
    ∃ i, table.findProcess pid = some i ∧ semaphore.value ≤ 0 ∧
      semaphore.waiters.length < courseSyncMaxWaiters ∧
      semaphore.wait table pid = ({ semaphore with waiters := semaphore.waiters ++ [pid] },
        table.setProcess i { table.processes i with state := .blocked }, .blocked) := by
  simp only [wait]
  cases hfind : table.findProcess pid with
  | none => exact .inl rfl
  | some i =>
    simp only [enqueueWaiter]
    split
    · rename_i hvalue
      exact .inr (.inl ⟨i, rfl, hvalue, rfl⟩)
    rename_i hvalue
    by_cases hfull : courseSyncMaxWaiters ≤ semaphore.waiters.length
    · rw [if_pos hfull]
      exact .inl rfl
    have hset := CourseProcessTable.setState_some
      (by simp : blocked ≠ .unused)
      (findProcess_some hfind).1
    rw [if_neg hfull]
    simp only [hset]
    exact .inr (.inr ⟨i, rfl, by omega, by omega, rfl⟩)

theorem post_cases :
    (semaphore.waiters = [] ∧ semaphore.post table =
      ({ semaphore with value := succInt32 semaphore.value }, table, .ok)) ∨
    (∃ rest, semaphore.waiters = 0 :: rest ∧ semaphore.post table =
      ({ waiters := rest, value := succInt32 semaphore.value }, table, .ok)) ∨
    (∃ pid rest i, semaphore.waiters = pid :: rest ∧ table.find pid = some i ∧
      semaphore.post table = ({ semaphore with waiters := rest },
        table.setProcess i { table.processes i with state := .ready }, .ok)) ∨
    ∃ pid rest, semaphore.waiters = pid :: rest ∧ pid ≠ 0 ∧ table.find pid = none ∧
      semaphore.post table = ({ semaphore with waiters := rest }, table, .errBadProcess) := by
  rcases nil_or_cons semaphore.waiters with hwaiters | ⟨pid, rest, hwaiters⟩
  · exact .inl ⟨hwaiters, by simp [post, popWaiter, hwaiters]⟩
  by_cases hpid : pid = 0
  · subst hpid
    exact .inr (.inl ⟨rest, hwaiters, by simp [post, popWaiter, hwaiters]⟩)
  cases hfind : table.find pid with
  | none =>
    have hset : table.setState pid .ready = (table, false) :=
      CourseProcessTable.setState_none hfind
    exact .inr (.inr (.inr ⟨pid, rest, hwaiters, hpid, hfind,
      by simp [post, popWaiter, hwaiters, hpid, hset]⟩))
  | some i =>
    have hset := CourseProcessTable.setState_some
      (by simp : ready ≠ .unused) hfind
    exact .inr (.inr (.inl ⟨pid, rest, i, hwaiters, hfind,
      by simp [post, popWaiter, hwaiters, hpid, hset]⟩))

end CourseSemaphore

namespace CourseMutex

variable (mutex : CourseMutex) (table : CourseProcessTable)

theorem lock_cases (pid : ℕ) :
    mutex.lock table pid = (mutex, table, .errBadProcess) ∨
    (∃ i, table.findProcess pid = some i ∧ mutex.ownerPid = 0 ∧
      mutex.lock table pid = ({ mutex with ownerPid := pid }, table, .ok)) ∨
    ∃ i, table.findProcess pid = some i ∧ mutex.ownerPid ≠ 0 ∧
      mutex.waiters.length < courseSyncMaxWaiters ∧
      mutex.lock table pid = ({ mutex with waiters := mutex.waiters ++ [pid] },
        table.setProcess i { table.processes i with state := .blocked }, .blocked) := by
  simp only [lock]
  cases hfind : table.findProcess pid with
  | none => exact .inl rfl
  | some i =>
    simp only [enqueueWaiter]
    split
    · rename_i howner
      exact .inr (.inl ⟨i, rfl, howner, rfl⟩)
    rename_i howner
    by_cases hfull : courseSyncMaxWaiters ≤ mutex.waiters.length
    · rw [if_pos hfull]
      exact .inl rfl
    have hset := CourseProcessTable.setState_some
      (by simp : blocked ≠ .unused)
      (findProcess_some hfind).1
    rw [if_neg hfull]
    simp only [hset]
    exact .inr (.inr ⟨i, rfl, howner, by omega, rfl⟩)

theorem unlock_cases (pid : ℕ) :
    ((mutex.ownerPid = 0 ∨ mutex.ownerPid ≠ pid) ∧ ∃ guard, mutex.unlock table pid =
      ({ mutex with misuseGuardCount := guard }, table, .errNotOwner)) ∨
    (mutex.ownerPid = pid ∧ pid ≠ 0 ∧ (mutex.waiters = [] ∨ ∃ rest, mutex.waiters = 0 :: rest) ∧
      mutex.unlock table pid =
        ({ mutex with waiters := mutex.waiters.tail, ownerPid := 0 }, table, .ok)) ∨
    (∃ next rest i, mutex.ownerPid = pid ∧ pid ≠ 0 ∧ mutex.waiters = next :: rest ∧
      table.find next = some i ∧ mutex.unlock table pid =
        ({ mutex with waiters := rest, ownerPid := next },
          table.setProcess i { table.processes i with state := .ready }, .ok)) ∨
    ∃ next rest, mutex.ownerPid = pid ∧ pid ≠ 0 ∧ mutex.waiters = next :: rest ∧ next ≠ 0 ∧
      table.find next = none ∧ mutex.unlock table pid =
        ({ mutex with waiters := rest, ownerPid := next }, table, .errBadProcess) := by
  by_cases hzero : mutex.ownerPid = 0
  · refine .inl ⟨.inl hzero, mutex.misuseGuardCount, ?_⟩
    rw [unlock, if_pos hzero]
  by_cases howner : mutex.ownerPid = pid
  · have hpid : pid ≠ 0 := fun h => hzero (howner.trans h)
    rcases nil_or_cons mutex.waiters with hwaiters | ⟨next, rest, hwaiters⟩
    · exact .inr (.inl ⟨howner, hpid, .inl hwaiters,
        by simp [unlock, popWaiter, hwaiters, howner, hpid]⟩)
    by_cases hnext : next = 0
    · subst hnext
      exact .inr (.inl ⟨howner, hpid, .inr ⟨rest, hwaiters⟩,
        by simp [unlock, popWaiter, hwaiters, howner, hpid]⟩)
    cases hfind : table.find next with
    | none =>
      have hset : table.setState next .ready = (table, false) :=
        CourseProcessTable.setState_none hfind
      exact .inr (.inr (.inr ⟨next, rest, howner, hpid, hwaiters, hnext, hfind,
        by simp [unlock, popWaiter, hwaiters, howner, hpid, hnext, hset]⟩))
    | some i =>
      have hset := CourseProcessTable.setState_some
        (by simp : ready ≠ .unused) hfind
      exact .inr (.inr (.inl ⟨next, rest, i, howner, hpid, hwaiters, hfind,
        by simp [unlock, popWaiter, hwaiters, howner, hpid, hnext, hset]⟩))
  · refine .inl ⟨.inr howner, succ32 mutex.misuseGuardCount, ?_⟩
    rw [unlock, if_neg hzero, if_pos howner]

end CourseMutex

structure CourseSystem where
  table : CourseProcessTable
  semaphores : ℕ → CourseSemaphore
  mutexes : ℕ → CourseMutex
  scheduler : CourseOnlineScheduler

inductive CourseAction where
  | process (call : CourseProcessCall)
  | semaphoreWait (k pid : ℕ)
  | semaphorePost (k : ℕ)
  | mutexLock (k pid : ℕ)
  | mutexUnlock (k pid : ℕ)
  | configure (policy : CourseSchedPolicy) (timeSlice : UInt32)
  | addProcess (pid : ℕ)
  | tick

namespace CourseSystem

/-- No process, free mutexes, semaphores with their first values. -/
def start (values : ℕ → BitVec 32) : CourseSystem where
  table := .init
  semaphores k := .init (values k)
  mutexes _ := .init
  scheduler := CourseOnlineScheduler.init.bindProcessTable

variable (system : CourseSystem)

def perform : CourseAction → CourseSystem
  | .process call => { system with table := (call.perform system.table).1 }
  | .semaphoreWait k pid =>
    let (semaphore, table, _) := (system.semaphores k).wait system.table pid
    { system with
      table := table
      semaphores := update system.semaphores k semaphore }
  | .semaphorePost k =>
    let (semaphore, table, _) := (system.semaphores k).post system.table
    { system with
      table := table
      semaphores := update system.semaphores k semaphore }
  | .mutexLock k pid =>
    let (mutex, table, _) := (system.mutexes k).lock system.table pid
    { system with
      table := table
      mutexes := update system.mutexes k mutex }
  | .mutexUnlock k pid =>
    let (mutex, table, _) := (system.mutexes k).unlock system.table pid
    { system with
      table := table
      mutexes := update system.mutexes k mutex }
  | .configure policy timeSlice =>
    { system with scheduler := (system.scheduler.configure policy timeSlice).1 }
  | .addProcess pid => { system with scheduler := (system.scheduler.addProcess system.table pid).1 }
  | .tick =>
    let (scheduler, table, _) := system.scheduler.tick system.table
    { system with
      table := table
      scheduler := scheduler }

def lifeEvents : CourseAction → List LifeEvent
  | .process call => call.lifeEvents (call.perform system.table).2
  | _ => []

/-- The slot whose state an action writes over, apart from a wait for a child, a new process
and a scheduler tick. -/
def rewritten : CourseAction → Option ProcessSlot
  | .process call => call.rewritten system.table
  | .semaphoreWait k pid =>
    if 0 < (system.semaphores k).value ∨
        courseSyncMaxWaiters ≤ (system.semaphores k).waiters.length then none
    else system.table.findProcess pid
  | .semaphorePost k =>
    match (system.semaphores k).waiters with
    | [] => none
    | pid :: _ => system.table.find pid
  | .mutexLock k pid =>
    if (system.mutexes k).ownerPid = 0 ∨
        courseSyncMaxWaiters ≤ (system.mutexes k).waiters.length then none
    else system.table.findProcess pid
  | .mutexUnlock k pid =>
    if (system.mutexes k).ownerPid = 0 ∨ (system.mutexes k).ownerPid ≠ pid then none
    else
      match (system.mutexes k).waiters with
      | [] => none
      | next :: _ => system.table.find next
  | _ => none

/-- The state after a list of actions. -/
def run (system : CourseSystem) (actions : List CourseAction) : CourseSystem :=
  actions.foldl perform system

variable {system}

theorem perform_cardStep {action : CourseAction} (htick : action ≠ .tick) :
    CardStep system.table (system.perform action).table (system.rewritten action)
      (system.lifeEvents action) := by
  cases action with
  | process call => exact call.perform_cardStep
  | semaphoreWait k pid =>
    simp only [perform, lifeEvents]
    rcases (system.semaphores k).wait_cases system.table pid with
      h | ⟨i, -, -, h⟩ | ⟨i, hfind, hvalue, hlength, h⟩
    · rw [h]
      exact .same .refl
    · rw [h]
      exact .same .refl
    rw [h]
    refine .moved ?_ (CourseProcessTable.find_some
      (findProcess_some hfind).1).2.1 (.inr rfl)
      (CourseProcessTable.setProcess_cards _ _ _) rfl
    simp only [rewritten]
    rw [if_neg (by omega), hfind]
  | semaphorePost k =>
    simp only [perform, lifeEvents]
    rcases (system.semaphores k).post_cases system.table with
      ⟨-, h⟩ | ⟨rest, -, h⟩ | ⟨pid, rest, i, hwaiters, hfind, h⟩ | ⟨pid, rest, -, -, -, h⟩
    · rw [h]
      exact .same .refl
    · rw [h]
      exact .same .refl
    · rw [h]
      refine .moved ?_ (CourseProcessTable.find_some hfind).2.1 (.inl rfl)
        (CourseProcessTable.setProcess_cards _ _ _) rfl
      simp only [rewritten, hwaiters, hfind]
    · rw [h]
      exact .same .refl
  | mutexLock k pid =>
    simp only [perform, lifeEvents]
    rcases (system.mutexes k).lock_cases system.table pid with
      h | ⟨i, -, -, h⟩ | ⟨i, hfind, howner, hlength, h⟩
    · rw [h]
      exact .same .refl
    · rw [h]
      exact .same .refl
    rw [h]
    refine .moved ?_ (CourseProcessTable.find_some
      (findProcess_some hfind).1).2.1 (.inr rfl)
      (CourseProcessTable.setProcess_cards _ _ _) rfl
    simp only [rewritten]
    rw [if_neg (by omega), hfind]
  | mutexUnlock k pid =>
    simp only [perform, lifeEvents]
    rcases (system.mutexes k).unlock_cases system.table pid with
      ⟨-, guard, h⟩ | ⟨-, -, -, h⟩ | ⟨next, rest, i, howner, hpid, hwaiters, hfind, h⟩ |
      ⟨next, rest, -, -, -, -, -, h⟩
    · rw [h]
      exact .same .refl
    · rw [h]
      exact .same .refl
    · rw [h]
      refine .moved ?_ (CourseProcessTable.find_some hfind).2.1 (.inl rfl)
        (CourseProcessTable.setProcess_cards _ _ _) rfl
      simp only [rewritten]
      rw [if_neg (by omega), hwaiters]
      exact hfind
    · rw [h]
      exact .same .refl
  | configure policy timeSlice => exact .same .refl
  | addProcess pid => exact .same .refl
  | tick => exact absurd rfl htick

end CourseSystem
end VisualCpu
