import VisualCpu.Kernel.CourseSystem
import VisualCpu.Kernel.CowOperations

/-!
# Each process has a memory of its own

The shared pages are to be seen by no process: what a process reads is what the calls made
of its own pages, which a fork copies. This holds as long as no slot is taken from a process
that still has mapped pages.
-/

namespace VisualCpu

open Function ProcessCard CourseProcessCall

/-- The pages of each pid. -/
abbrev UserMemory := ℕ → UserPageIndex → Option (Fin courseProcessUserPageSize → UInt8)

variable (memory : UserMemory)

def UserMemory.recalled (pid pageIndex offset : ℕ) : Option UInt8 :=
  if hj : pageIndex < 8 then
    if ho : offset < courseProcessUserPageSize then
      (memory pid ⟨pageIndex, hj⟩).map fun bytes => bytes ⟨offset, ho⟩
    else none
  else none

def UserMemory.clear (pid : ℕ) : UserMemory :=
  update memory pid fun _ => none

def UserMemory.replace (pid pageIndex : ℕ)
    (page : Option (Fin courseProcessUserPageSize → UInt8) →
      Option (Fin courseProcessUserPageSize → UInt8)) : UserMemory :=
  update memory pid fun j =>
    if j.val = pageIndex then page (memory pid j) else memory pid j

/-- The calls of the process API, with the change of a state from outside. -/
inductive CowAction where
  | call (made : CourseProcessCall)
  | setState (pid : ℕ) (state : CourseProcessState)

namespace CowAction

variable (table : CourseProcessTable)

def perform : CowAction → CourseProcessTable × CourseProcessOutcome
  | call made => made.perform table
  | setState pid state => ((table.setState pid state).1, .done (table.setState pid state).2)

def remember (memory : UserMemory) : CowAction → CourseProcessOutcome → UserMemory
  | call (.spawn _ _), .started (some pid) => memory.clear pid
  | call (.fork parentPid _), .started (some pid) => update memory pid (memory parentPid)
  | call (.exec pid _), .replaced (.ok _) => memory.clear pid
  | call (.execImage pid _ _), .replaced (.ok _) => memory.clear pid
  | call (.waitpid _ _), .waited childPid (.ok _) => memory.clear childPid
  | call (.wait _), .waited childPid (.ok _) => memory.clear childPid
  | call (.mapUserPage pid pageIndex fillValue), .done true =>
    memory.replace pid pageIndex fun _ => some fun _ => fillValue
  | call (.writeUserByte pid pageIndex offset value), .done true =>
    memory.replace pid pageIndex fun page => page.map fun bytes o =>
      if o.val = offset then value else bytes o
  | _, _ => memory

def step (state : CourseProcessTable × UserMemory) (action : CowAction) :
    CourseProcessTable × UserMemory :=
  ((action.perform state.1).1, action.remember state.2 (action.perform state.1).2)

def takenSlot : CowAction → Option ProcessSlot
  | call (.spawn _ _) => if table.nextPid = 0 then none else table.allocProcess
  | call (.fork parentPid _) =>
    match table.find parentPid with
    | none => none
    | some parent =>
      if (table.processes parent).state = .dead ∨ (table.processes parent).state = .zombie then none
      else if table.nextPid = 0 then none
      else table.allocProcess
  | _ => none

/-- A taken slot has no mapped pages left. -/
def TakesVacant (action : CowAction) : Prop :=
  ∀ i, action.takenSlot table = some i → ∀ j, (table.userRef i j).mapped = false

instance (table : CourseProcessTable) (action : CowAction) : Decidable (action.TakesVacant table) :=
  inferInstanceAs (Decidable (∀ _, _))

def run (state : CourseProcessTable × UserMemory) :
    List CowAction → CourseProcessTable × UserMemory
  | [] => state
  | action :: rest => run (action.step state) rest

/-- Every step of the run meets the condition. -/
def Vacant (state : CourseProcessTable × UserMemory) : List CowAction → Prop
  | [] => True
  | action :: rest => action.TakesVacant state.1 ∧ Vacant (action.step state) rest

end CowAction

namespace CourseProcessTable

variable {table table' : CourseProcessTable} {memory : UserMemory} {i : ProcessSlot}

/-- Processes read their own memories, and the pages count their references. -/
structure Isolated (table : CourseProcessTable) (memory : UserMemory) : Prop where
  reads : ∀ pid pageIndex offset,
    table.readUserByte pid pageIndex offset = memory.recalled pid pageIndex offset
  counts : ∀ k, (table.cowPages k).used →
    (table.cowPages k).refcount = (table.refs (table.cowPages k).id).card
  counted : ∀ k, (table.cowPages k).used →
    0 < (table.refs (table.cowPages k).id).card

/-- The invariant of a run. -/
structure Remembered (table : CourseProcessTable) (memory : UserMemory) : Prop where
  sound : table.CowSound
  fresh : table.PidsFresh
  used : ∀ i, (table.cards i).used → ∀ j,
    memory (table.cards i).pid j = table.content i j
  absent : ∀ pid, (∀ i, (table.cards i).used → (table.cards i).pid ≠ pid) →
    ∀ j, memory pid j = none

theorem Remembered.isolated (h : table.Remembered memory) : table.Isolated memory := by
  refine ⟨fun pid pageIndex offset => ?_, h.sound.counts, fun k hk => ?_⟩
  · rw [readUserByte, UserMemory.recalled]
    cases hfind : table.find pid with
    | none =>
      have hnone : ∀ j, memory pid j = none := by
        refine h.absent pid fun i hused hpid => ?_
        have hfound := h.fresh.find_eq hused
        rw [hpid, hfind] at hfound
        cases hfound
      by_cases hj : pageIndex < 8
      · by_cases ho : offset < courseProcessUserPageSize
        · rw [dif_pos hj, dif_pos ho, hnone]
          rfl
        · rw [dif_pos hj, dif_neg ho]
      · rw [dif_neg hj]
    | some i =>
      obtain ⟨-, hused, hpid⟩ := find_some hfind
      simp only
      split
      · rename_i hj
        split
        · rename_i ho
          have hpage := h.used i hused ⟨pageIndex, hj⟩
          rw [hpid, content] at hpage
          rw [hpage]
          cases hmapped : (table.userRef i ⟨pageIndex, hj⟩).mapped with
          | false =>
            rw [userRef] at hmapped
            simp [hmapped]
          | true =>
            have href : ((table.processes i).userPages ⟨pageIndex, hj⟩).mapped := hmapped
            simp only [href, Bool.not_true, Bool.false_eq_true, if_false, if_true, Option.map_map]
            rfl
        · rfl
      · rfl
  · rw [← h.sound.counts k hk]
    exact h.sound.counted k hk

/-- The slots keep their pids. -/
structure SamePids (table table' : CourseProcessTable) : Prop where
  used : ∀ i, (table'.cards i).used = (table.cards i).used
  pid : ∀ i, (table'.cards i).pid = (table.cards i).pid
  next : table'.nextPid = table.nextPid

theorem SameCards.samePids (h : table.SameCards table') : SamePids table table' :=
  ⟨fun i => by rw [h.1], fun i => by rw [h.1], h.2⟩

theorem SamePids.trans {table'' : CourseProcessTable} (h : SamePids table table')
    (h' : SamePids table' table'') : SamePids table table'' :=
  ⟨fun i => (h'.used i).trans (h.used i), fun i => (h'.pid i).trans (h.pid i), h'.next.trans h.next⟩

variable {process : CourseProcess}
  {pages : UserPageIndex → Option (Fin courseProcessUserPageSize → UInt8)}

theorem setProcess_samePids
    (hused : process.used = (table.processes i).used)
    (hpid : process.pid = (table.processes i).pid) :
    SamePids table (table.setProcess i process) := by
  refine ⟨fun i' => ?_, fun i' => ?_, rfl⟩
  · by_cases hi : i' = i
    · subst hi
      rw [setProcess_cards, update_self]
      exact hused
    · rw [setProcess_cards, update_of_ne hi]
  · by_cases hi : i' = i
    · subst hi
      rw [setProcess_cards, update_self]
      exact hpid
    · rw [setProcess_cards, update_of_ne hi]

theorem SamePids.fresh (h : SamePids table table') (hfresh : table.PidsFresh) :
    table'.PidsFresh := by
  constructor
  · intro i hused
    rw [h.used] at hused
    rw [h.pid]
    exact hfresh.positive i hused
  · intro i hused hne
    rw [h.used] at hused
    rw [h.next] at hne ⊢
    rw [h.pid]
    exact hfresh.bound i hused hne
  · intro i j hi hj hpid
    rw [h.used] at hi hj
    rw [h.pid, h.pid] at hpid
    exact hfresh.unique i j hi hj hpid
  · rw [h.next]
    exact hfresh.lt

theorem setProcess_samePages (hpages : process.userPages = (table.processes i).userPages) :
    SamePages table (table.setProcess i process) := by
  refine ⟨fun i' j' => .inl ?_, rfl, rfl⟩
  by_cases hi : i' = i
  · subst hi
    simp [userRef, setProcess, hpages]
  · simp [userRef, setProcess, hi]

theorem Remembered.quiet (h : table.Remembered memory) (hpids : SamePids table table')
    (hsound : table'.CowSound) (hcontent : ∀ i j, table'.content i j = table.content i j) :
    table'.Remembered memory := by
  refine ⟨hsound, hpids.fresh h.fresh, fun i hused j => ?_, fun pid hno => h.absent pid ?_⟩
  · rw [hpids.used] at hused
    rw [hpids.pid, hcontent]
    exact h.used i hused j
  · intro i hused
    rw [← hpids.pid]
    exact hno i (by rw [hpids.used]; exact hused)

theorem Remembered.write (h : table.Remembered memory) (hpids : SamePids table table')
    (hsound : table'.CowSound) (hused : (table.cards i).used)
    (hothers : ∀ i' j, i' ≠ i → table'.content i' j = table.content i' j)
    (hself : ∀ j, table'.content i j = pages j) :
    table'.Remembered (update memory (table.cards i).pid pages) := by
  refine ⟨hsound, hpids.fresh h.fresh, fun i' hused' j => ?_, fun pid hno => ?_⟩
  · rw [hpids.used] at hused'
    rw [hpids.pid]
    by_cases hi : i' = i
    · subst hi
      rw [update_self, hself]
    have hne : (table.cards i').pid ≠ (table.cards i).pid := fun heq =>
      hi (h.fresh.unique i' i hused' hused heq)
    rw [update_of_ne hne, hothers i' j hi]
    exact h.used i' hused' j
  · have hne : pid ≠ (table.cards i).pid := by
      rintro rfl
      exact hno i (by rw [hpids.used]; exact hused) (hpids.pid i)
    rw [update_of_ne hne]
    refine h.absent pid fun i' hused' => ?_
    rw [← hpids.pid]
    exact hno i' (by rw [hpids.used]; exact hused')

variable {ppid : ℕ}

theorem Remembered.take (h : table.Remembered memory) (hne : table.nextPid ≠ 0)
    (hvacant : ∀ j, (table.userRef i j).mapped = false)
    (hcards : table'.cards = update table.cards i (newborn table.nextPid ppid))
    (hnext : table'.nextPid = succ32 table.nextPid) (hsound : table'.CowSound)
    (hothers : ∀ i' j, i' ≠ i → table'.content i' j = table.content i' j)
    (hself : ∀ j, table'.content i j = pages j) :
    table'.Remembered (update memory table.nextPid pages) := by
  have hother : ∀ i', i' ≠ i → table'.cards i' = table.cards i' := fun i' hi => by
    rw [hcards, update_of_ne hi]
  have hborn : table'.cards i = newborn table.nextPid ppid := by
    rw [hcards, update_self]
  refine ⟨hsound, h.fresh.take (fun _ => rfl) hne hcards hnext, fun i' hused j => ?_,
    fun pid hno => ?_⟩
  · by_cases hi : i' = i
    · subst hi
      rw [hborn]
      exact (congrFun (update_self ..) j).trans (hself j).symm
    rw [hother i' hi] at hused ⊢
    have hlt := h.fresh.bound i' hused hne
    rw [update_of_ne (by omega), hothers i' j hi]
    exact h.used i' hused j
  · have hpid : pid ≠ table.nextPid := by
      rintro rfl
      exact hno i (by rw [hborn]; rfl) (by rw [hborn]; rfl)
    rw [update_of_ne hpid]
    intro j
    by_cases hold : (table.cards i).used ∧ (table.cards i).pid = pid
    · rw [← hold.2, h.used i hold.1]
      exact content_unmapped (hvacant j)
    refine h.absent pid (fun i' hused heq => ?_) j
    by_cases hi : i' = i
    · subst hi
      exact hold ⟨hused, heq⟩
    · exact hno i' (by rw [hother i' hi]; exact hused) (by rw [hother i' hi]; exact heq)

theorem releaseThenSet_writes (h : table.Remembered memory) (hused : (table.cards i).used)
    (hcard : process.used = (table.cards i).used ∧ process.pid = (table.cards i).pid)
    (hpages : process.userPages = ((table.releaseProcessUserPages i).processes i).userPages) :
    ((table.releaseProcessUserPages i).setProcess i process).Remembered
      (memory.clear (table.cards i).pid) := by
  obtain ⟨hsound, hothers, hfree⟩ := releaseProcessUserPages_keeps h.sound i
  have hsame := @releaseProcessUserPages_sameCards table i
  have hold : (table.releaseProcessUserPages i).cards i = table.cards i := by rw [hsame.1]
  have hpids : SamePids table ((table.releaseProcessUserPages i).setProcess i process) :=
    hsame.samePids.trans (setProcess_samePids (hcard.1.trans (congrArg used hold.symm))
      (hcard.2.trans (congrArg pid hold.symm)))
  have hset := @setProcess_samePages (table.releaseProcessUserPages i) i process hpages
  refine h.write hpids (hset.sound hsound) hused (fun i' j hi => ?_) (fun j => ?_)
  · rw [hset.content, (hothers i' j hi).2]
  rw [hset.content]
  exact content_unmapped (hfree j)

theorem Remembered.setCard (h : table.Remembered memory)
    (hused : process.used = (table.processes i).used) (hpid : process.pid = (table.processes i).pid)
    (hpages : process.userPages = (table.processes i).userPages) :
    (table.setProcess i process).Remembered memory :=
  have hsame := setProcess_samePages hpages
  h.quiet (setProcess_samePids hused hpid) (hsame.sound h.sound) hsame.content

variable {name : List UInt8}

theorem spawn_slot (h : table.spawn ppid name = (table', some i)) : table.nextPid ≠ 0 ∧
      table.allocProcess = some i ∧ table'.nextPid = succ32 table.nextPid ∧
      table'.cards = update table.cards i (newborn table.nextPid ppid) ∧
      (∀ i' j', i' ≠ i → table'.userRef i' j' = table.userRef i' j') ∧
      (∀ j', (table'.userRef i j').mapped = false) ∧
      table'.cowPages = table.cowPages ∧ table'.nextCowPageId = table.nextCowPageId := by
  rw [spawn] at h
  cases halloc : table.allocProcess with
  | none =>
    rw [halloc] at h
    cases h
  | some k =>
    simp only [halloc] at h
    split at h
    · cases h
    rename_i hne
    cases h
    refine ⟨hne, rfl, rfl, setProcess_cards .., fun i' j' hi => ?_, fun j' => ?_, rfl, rfl⟩
    · simp [userRef, setProcess, hi]
    · simp [userRef, setProcess]

theorem spawn_none (h : (table.spawn ppid name).2 = none) :
    table.spawn ppid name = (table, none) := by
  rcases @spawn_cases table ppid name with hspawn | ⟨i, table', hspawn, -⟩
  · exact hspawn
  rw [hspawn] at h
  cases h

theorem spawn_samePages (h : table.spawn ppid name = (table', some i))
    (hvacant : ∀ j, (table.userRef i j).mapped = false) : SamePages table table' := by
  obtain ⟨-, -, -, -, hothers, hfree, hpages, hnext⟩ := spawn_slot h
  refine ⟨fun i' j' => ?_, hpages, hnext⟩
  by_cases hi : i' = i
  · subst hi
    exact .inr ⟨hfree j', hvacant j'⟩
  · exact .inl (hothers i' j' hi)

theorem spawn_remembered (h : table.Remembered memory) (ppid : ℕ) (name : List UInt8)
    (hvacant : (CowAction.call (.spawn ppid name)).TakesVacant table) :
    (CowAction.step (table, memory) (.call (.spawn ppid name))).1.Remembered
      (CowAction.step (table, memory) (.call (.spawn ppid name))).2 := by
  simp only [CowAction.step, CowAction.perform, perform]
  cases hspawn : table.spawn ppid name with
  | mk table' slot =>
    cases slot with
    | none =>
      have hsame := spawn_none (show (table.spawn ppid name).2 = none by rw [hspawn])
      rw [hspawn] at hsame
      cases hsame
      exact h
    | some i =>
      obtain ⟨hne, halloc, hnext, hcards, -⟩ := spawn_slot hspawn
      have htaken : ∀ j, (table.userRef i j).mapped = false :=
        hvacant i (by simp only [CowAction.takenSlot, if_neg hne, halloc])
      have hpages := spawn_samePages hspawn htaken
      have hpid : (table'.processes i).pid = table.nextPid := by
        have hcard : table'.cards i = newborn table.nextPid ppid := by
          rw [hcards, update_self]
        exact congrArg pid hcard
      simp only [Option.map_some, hpid, CowAction.remember]
      refine h.take hne htaken hcards hnext (hpages.sound h.sound)
        (fun i' j _ => hpages.content i' j) fun j => ?_
      rw [hpages.content]
      exact content_unmapped (htaken j)

theorem fork_shares (h : table.CowSound) (parentPid : ℕ) (childName : Option (List UInt8))
    (hvacant : (CowAction.call (.fork parentPid childName)).TakesVacant table) :
    table.fork parentPid childName = (table, none) ∨
    ∃ (parent child : ProcessSlot) (table' : CourseProcessTable),
      table.find parentPid = some parent ∧ table.fork parentPid childName = (table', some child) ∧
      (∀ j, (table.userRef child j).mapped = false) ∧ table'.CowSound ∧
      (∀ j, table'.content child j = table.content parent j) ∧
      ∀ i' j, i' ≠ child → table'.content i' j = table.content i' j := by
  simp only [fork]
  cases hfind : table.find parentPid with
  | none => exact .inl rfl
  | some parent =>
    by_cases hstate : (table.processes parent).state = .dead ∨
        (table.processes parent).state = .zombie
    · exact .inl (by simp [hstate])
    simp only [hstate, ↓reduceIte]
    cases hspawn : table.spawn parentPid (childName.getD (table.processes parent).name) with
    | mk table' slot =>
      cases slot with
      | none =>
        have hsame := spawn_none (show (table.spawn parentPid _).2 = none by rw [hspawn])
        rw [hspawn] at hsame
        cases hsame
        exact .inl rfl
      | some child =>
        right
        obtain ⟨hne, halloc, -, -, -, hfree, -⟩ := spawn_slot hspawn
        have hslot : (CowAction.call (.fork parentPid childName)).takenSlot table = some child := by
          simp only [CowAction.takenSlot, hfind, if_neg hstate, if_neg hne, halloc]
        have htaken : ∀ j, (table.userRef child j).mapped = false := hvacant child hslot
        have hchild : child ≠ parent := by
          rintro rfl
          rcases allocProcess_some halloc with hunused | hdead
          · rw [(find_some hfind).2.1] at hunused
            cases hunused
          · exact hstate (.inl hdead)
        have hpages := spawn_samePages hspawn htaken
        simp only
        have hinherit := @setProcess_samePages table' child { table'.processes child with
          entryPc := (table.processes parent).entryPc
          userSp := (table.processes parent).userSp
          abi := (table.processes parent).abi
          addressSpace := (table.processes parent).addressSpace
          openFiles := (table.processes parent).openFiles
          maps := (table.processes parent).maps } rfl
        generalize table'.setProcess child { table'.processes child with
          entryPc := (table.processes parent).entryPc
          userSp := (table.processes parent).userSp
          abi := (table.processes parent).abi
          addressSpace := (table.processes parent).addressSpace
          openFiles := (table.processes parent).openFiles
          maps := (table.processes parent).maps } = inherited at hinherit ⊢
        have hempty : ∀ j ∈ List.finRange 8, (inherited.userRef child j).mapped = false := by
          intro j _
          cases hmapped : (inherited.userRef child j).mapped with
          | false => rfl
          | true =>
            rw [hinherit.mapped hmapped, hfree j] at hmapped
            cases hmapped
        obtain ⟨hok, hsound, hshared, hothers⟩ := forkPages_shares hchild (List.finRange 8)
          (List.nodup_finRange 8) inherited (hinherit.sound (hpages.sound h)) hempty
        cases hfork : inherited.forkPages parent child (List.finRange 8) with
        | mk shared ok =>
          rw [hfork] at hok hsound hshared hothers
          cases hok
          have hargv := @setProcess_samePages shared child { shared.processes child with
            argv := copyStr courseProcessMaxArgv (table.processes parent).argv } rfl
          refine ⟨parent, child, _, rfl, rfl, htaken, hargv.sound hsound, fun j => ?_,
            fun i' j hi => ?_⟩
          · rw [hargv.content, hshared j (List.mem_finRange j), hinherit.content, hpages.content]
          · rw [hargv.content, (hothers i' j (.inl hi)).1, hinherit.content, hpages.content]

section

variable (h : table.Remembered memory) {j : UserPageIndex}

include h

theorem fork_remembered (parentPid : ℕ) (childName : Option (List UInt8))
    (hvacant : (CowAction.call (.fork parentPid childName)).TakesVacant table) :
    (CowAction.step (table, memory) (.call (.fork parentPid childName))).1.Remembered
      (CowAction.step (table, memory) (.call (.fork parentPid childName))).2 := by
  simp only [CowAction.step, CowAction.perform, perform]
  rcases fork_shares h.sound parentPid childName hvacant with
    hfork | ⟨parent, child, table', hfind, hfork, hempty, hsound, hshared, hothers⟩
  · rw [hfork]
    exact h
  rcases @fork_cases table parentPid childName with
    hnone | ⟨i, table'', slot, hcase, -, hne, hnext, ⟨rfl, hcards⟩ | ⟨rfl, -⟩⟩
  · rw [hfork] at hnone
    cases hnone
  · rw [hfork] at hcase
    cases hcase
    have hpid : (table'.processes child).pid = table.nextPid := by
      have hcard : table'.cards child = newborn table.nextPid parentPid := by
        rw [hcards, update_self]
      exact congrArg pid hcard
    obtain ⟨-, hused, hparent⟩ := find_some hfind
    rw [hfork]
    simp only [Option.map_some, hpid, CowAction.remember]
    refine h.take hne hempty hcards hnext hsound (fun i' j hi => hothers i' j hi) fun j => ?_
    rw [hshared, ← hparent, h.used parent hused]
  · rw [hfork] at hcase
    cases hcase

theorem execImage_remembered (pid : ℕ) (imageName : List UInt8)
    (load : Option CourseElfLoadResult) :
    (∃ error, table.execImage pid imageName load = (table, .error error)) ∨
      ∃ table', table.execImage pid imageName load = (table', .ok ()) ∧
        table'.Remembered (memory.clear pid) := by
  rw [execImage]
  cases hfind : table.find pid with
  | none => exact .inl ⟨_, rfl⟩
  | some i =>
    cases load with
    | none => exact .inl ⟨_, rfl⟩
    | some image =>
      obtain ⟨-, hused, hpid⟩ := find_some hfind
      refine .inr ⟨_, rfl, ?_⟩
      rw [← hpid]
      have hcard := congrFun (@releaseProcessUserPages_sameCards table i).1 i
      exact releaseThenSet_writes h hused
        ⟨congrArg ProcessCard.used hcard, congrArg ProcessCard.pid hcard⟩ rfl

theorem waitpid_remembered (parentPid childPid : ℕ) :
    (∃ error, table.waitpid parentPid childPid = (table, .error error)) ∨
      ∃ table' status, table.waitpid parentPid childPid = (table', .ok status) ∧
        table'.Remembered (memory.clear childPid) := by
  rw [waitpid]
  cases hfind : table.find childPid with
  | none => exact .inl ⟨_, rfl⟩
  | some i =>
    simp only
    split
    · exact .inl ⟨_, rfl⟩
    split
    · exact .inl ⟨_, rfl⟩
    obtain ⟨-, hused, hpid⟩ := find_some hfind
    refine .inr ⟨_, _, rfl, ?_⟩
    rw [← hpid]
    have hcard := congrFun (@releaseProcessUserPages_sameCards table i).1 i
    exact releaseThenSet_writes h hused
      ⟨congrArg used hcard, congrArg pid hcard⟩ rfl

theorem exit_remembered (pid : ℕ) (exitCode : ℤ) :
    (table.exit pid exitCode).1.Remembered memory := by
  rcases @exit_cases table pid exitCode with hexit | ⟨i, -, -, hexit⟩
  · rw [hexit]
    exact h
  rw [hexit]
  exact h.setCard rfl rfl rfl

theorem kill_remembered (callerPid targetPid : ℕ) :
    (table.kill callerPid targetPid).1.Remembered memory := by
  rcases @kill_cases table callerPid targetPid with hkill | ⟨i, -, -, hkill⟩
  · rw [hkill]
    exact h
  rw [hkill]
  exact h.setCard rfl rfl rfl

theorem recordCrash_remembered (pid : ℕ) (sepc scause stval : BitVec 64) (reason : List UInt8) :
    (table.recordCrash pid sepc scause stval reason).1.Remembered memory := by
  rw [recordCrash]
  cases hfind : table.find pid with
  | none => exact h
  | some i =>
    simp only
    split
    · exact h
    refine exit_remembered ?_ _ _
    exact h.setCard rfl rfl rfl

theorem setState_remembered (pid : ℕ) (state : CourseProcessState) :
    (table.setState pid state).1.Remembered memory := by
  rw [setState]
  cases hfind : table.find pid with
  | none => exact h
  | some i =>
    simp only
    split
    · exact h
    · exact h.setCard rfl rfl rfl

theorem Remembered.page {pid pageIndex : ℕ}
    {page : Option (Fin courseProcessUserPageSize → UInt8) →
      Option (Fin courseProcessUserPageSize → UInt8)}
    (hfind : table.find pid = some i) (hj : j.val = pageIndex) (hcards : table.SameCards table')
    (hkeeps : Keeps table table' i j) (hself : table'.content i j = page (table.content i j)) :
    table'.Remembered (memory.replace pid pageIndex page) := by
  obtain ⟨-, hused, hpid⟩ := find_some hfind
  rw [UserMemory.replace, ← hpid]
  refine h.write hcards.samePids hkeeps.sound hused (fun i' j' hi => ?_) fun j' => ?_
  · exact hkeeps.content i' j' fun heq => hi (congrArg Prod.fst heq)
  by_cases hjj : j' = j
  · rw [hjj, if_pos hj, hself, h.used i hused]
  rw [if_neg fun hval => hjj (Fin.ext (hval.trans hj.symm)), h.used i hused]
  exact hkeeps.content i j' fun heq => hjj (congrArg Prod.snd heq)

theorem Remembered.samePage
    (hcards : table.SameCards table') (hkeeps : Keeps table table' i j)
    (hself : table'.content i j = table.content i j) : table'.Remembered memory := by
  refine h.quiet hcards.samePids hkeeps.sound fun i' j' => ?_
  by_cases heq : (i', j') = (i, j)
  · cases heq
    exact hself
  · exact hkeeps.content i' j' heq

theorem mapUserPage_remembered (pid pageIndex : ℕ) (fillValue : UInt8) :
    (CowAction.step (table, memory) (.call (.mapUserPage pid pageIndex fillValue))).1.Remembered
      (CowAction.step (table, memory) (.call (.mapUserPage pid pageIndex fillValue))).2 := by
  simp only [CowAction.step, CowAction.perform, perform]
  have hcards := @mapUserPage_sameCards table pid pageIndex fillValue
  rcases mapUserPage_cases h.sound pid pageIndex fillValue with
    hfail | ⟨i, j, hfind, hj, hok, hkeeps, hself⟩
  · rw [hfail]
    exact h
  rw [hok]
  rw [CowAction.remember]
  refine h.page hfind hj hcards hkeeps ?_
  exact hself

theorem writeUserByte_remembered (pid pageIndex offset : ℕ) (value : UInt8) :
    (CowAction.step (table, memory)
      (.call (.writeUserByte pid pageIndex offset value))).1.Remembered
      (CowAction.step (table, memory) (.call (.writeUserByte pid pageIndex offset value))).2 := by
  simp only [CowAction.step, CowAction.perform, perform]
  have hcards := @writeUserByte_sameCards table pid pageIndex offset value
  rcases writeUserByte_cases h.sound pid pageIndex offset value with
    hfail | ⟨i, j, hfind, hj, hkeeps, -, ⟨hfalse, hself⟩ | ⟨htrue, bytes, o, ho, hbytes, hself⟩⟩
  · rw [hfail]
    exact h
  · rw [hfalse]
    exact h.samePage hcards hkeeps hself
  rw [htrue]
  refine h.page hfind hj hcards hkeeps ?_
  rw [hself, hbytes, Option.map_some]
  congr 1
  funext o'
  by_cases heq : o' = o
  · subst heq
    rw [update_self, if_pos ho]
  · rw [update_of_ne heq, if_neg fun hval => heq (Fin.ext (hval.trans ho.symm))]

theorem handleCowStoreFault_remembered (pid pageIndex offset : ℕ) :
    (table.handleCowStoreFault pid pageIndex offset).1.Remembered memory := by
  have hcards := @handleCowStoreFault_sameCards table pid pageIndex offset
  rcases handleCowStoreFault_cases h.sound pid pageIndex offset with
    hsame | ⟨i, j, -, hkeeps, -, hself⟩
  · rw [hsame]
    exact h
  · exact h.samePage hcards hkeeps hself

end

end CourseProcessTable

namespace CowAction

open CourseProcessTable

variable {table : CourseProcessTable} {memory : UserMemory}

theorem step_remembered (h : table.Remembered memory) (action : CowAction)
    (hvacant : action.TakesVacant table) :
    (action.step (table, memory)).1.Remembered (action.step (table, memory)).2 := by
  cases action with
  | setState pid state => exact setState_remembered h pid state
  | call made =>
    cases made with
    | spawn ppid name => exact spawn_remembered h ppid name hvacant
    | fork parentPid childName => exact fork_remembered h parentPid childName hvacant
    | exec pid program =>
      simp only [step, perform, CourseProcessCall.perform, CourseProcessTable.exec]
      split
      · exact h
      cases program with
      | none => exact h
      | some program =>
        obtain ⟨name, load⟩ := program
        rcases execImage_remembered h pid name load with
          ⟨error, hexec⟩ | ⟨table', hexec, hremembered⟩
        · simp only [hexec]
          exact h
        simp only [hexec]
        exact hremembered
    | execImage pid imageName load =>
      simp only [step, perform, CourseProcessCall.perform]
      rcases execImage_remembered h pid imageName load with
        ⟨error, hexec⟩ | ⟨table', hexec, hremembered⟩
      · rw [hexec]
        exact h
      rw [hexec]
      exact hremembered
    | exit pid exitCode => exact exit_remembered h pid exitCode
    | recordCrash pid sepc scause stval reason =>
      exact recordCrash_remembered h pid sepc scause stval reason
    | kill callerPid targetPid => exact kill_remembered h callerPid targetPid
    | waitpid parentPid childPid =>
      simp only [step, perform, CourseProcessCall.perform]
      rcases waitpid_remembered h parentPid childPid with
        ⟨error, hwait⟩ | ⟨table', status, hwait, hremembered⟩
      · rw [hwait]
        exact h
      rw [hwait]
      exact hremembered
    | wait parentPid =>
      simp only [step, perform, CourseProcessCall.perform]
      rcases @wait_cases table parentPid with ⟨error, hwait⟩ | ⟨i, hchild, hwait⟩
      · rw [hwait]
        exact h
      rw [hwait, hchild]
      rcases waitpid_remembered h parentPid (table.processes i).pid with
        ⟨error, hreap⟩ | ⟨table', status, hreap, hremembered⟩
      · rw [hreap]
        exact h
      rw [hreap]
      exact hremembered
    | mapUserPage pid pageIndex fillValue => exact mapUserPage_remembered h pid pageIndex fillValue
    | writeUserByte pid pageIndex offset value =>
      exact writeUserByte_remembered h pid pageIndex offset value
    | handleCowStoreFault pid pageIndex offset =>
      exact handleCowStoreFault_remembered h pid pageIndex offset

theorem run_remembered (actions : List CowAction) (table : CourseProcessTable) (memory : UserMemory)
    (h : table.Remembered memory) (hvacant : Vacant (table, memory) actions) :
    (run (table, memory) actions).1.Remembered (run (table, memory) actions).2 := by
  induction actions generalizing table memory with
  | nil => exact h
  | cons action rest ih => exact ih _ _ (step_remembered h action hvacant.1) hvacant.2

theorem init_remembered : CourseProcessTable.init.Remembered fun _ _ => none :=
  ⟨init_cowSound, init_pidsFresh, fun i hused => (by cases hused),
    fun _ _ _ => rfl⟩

/-- In every run that takes no slot of a process with mapped pages, each process reads its own
memory and each page counts its references. -/
theorem run_isolated (actions : List CowAction) (h : Vacant (.init, fun _ _ => none) actions) :
    (run (.init, fun _ _ => none) actions).1.Isolated (run (.init, fun _ _ => none) actions).2 :=
  (run_remembered actions _ _ init_remembered h).isolated

/-- A family that writes, waits and reuses the slot of the child. -/
def shareAndSplit : List CowAction :=
  [.call (.spawn 0 []), .call (.mapUserPage 1 0 7), .call (.fork 1 none),
    .call (.writeUserByte 2 0 5 9), .call (.exit 2 0), .call (.waitpid 1 2), .call (.spawn 1 [])]

instance decideVacant : (actions : List CowAction) → (state : CourseProcessTable × UserMemory) →
    Decidable (Vacant state actions)
  | [], _ => inferInstanceAs (Decidable True)
  | action :: rest, state =>
    have := decideVacant rest (action.step state)
    inferInstanceAs (Decidable (_ ∧ _))

theorem shareAndSplit_isolated :
    (run (.init, fun _ _ => none) shareAndSplit).1.Isolated
      (run (.init, fun _ _ => none) shareAndSplit).2 :=
  run_isolated shareAndSplit (by decide +kernel)

/-- A process is declared dead while its page is mapped, and its slot is taken. -/
def deadWithPage : List CowAction :=
  [.call (.spawn 0 []), .call (.mapUserPage 1 0 7), .setState 1 .dead, .call (.spawn 0 [])]

/-- The page stays used although no reference is left. -/
theorem deadWithPage_leaks :
    ¬(run (.init, fun _ _ => none) deadWithPage).1.Isolated
      (run (.init, fun _ _ => none) deadWithPage).2 := by
  intro h
  have hpos := h.counted 0 (by decide +kernel)
  have hzero : ((run (.init, fun _ _ => none) deadWithPage).1.refs
      ((run (.init, fun _ _ => none) deadWithPage).1.cowPages 0).id).card = 0 := by decide +kernel
  omega

end CowAction
end VisualCpu
