import VisualCpu.Kernel.ProcessLifecycle

/-!
# Wakeups of semaphores and mutexes

A ledger keeps who was granted a unit of a semaphore or a mutex and who was queued. A post
or an unlock pops the head of the queue before it looks at the process: a waiter that was
killed or reaped meanwhile takes the unit or the mutex with it.
-/

namespace VisualCpu

open Function List CourseProcessTable CourseSyncResult

/-- The process with a pid can still run. -/
def CourseProcessTable.PidLive (table : CourseProcessTable) (pid : ℕ) : Prop :=
  ∃ i, table.find pid = some i ∧ (table.cards i).Live

instance (table : CourseProcessTable) (pid : ℕ) : Decidable (table.PidLive pid) :=
  inferInstanceAs (Decidable (∃ i, table.find pid = some i ∧ (table.cards i).Live))

/-- The process at the head of a queue, if any, can still run. -/
def CourseProcessTable.HeadLive (table : CourseProcessTable) : List ℕ → Prop
  | [] => True
  | pid :: _ => table.PidLive pid

instance (table : CourseProcessTable) : (waiters : List ℕ) → Decidable (table.HeadLive waiters)
  | [] => inferInstanceAs (Decidable True)
  | pid :: _ => inferInstanceAs (Decidable (table.PidLive pid))

/-- The posts on a semaphore, the live processes granted a unit, and the processes queued
and taken from the queue, each in order. -/
structure SemaphoreLedger where
  posts : ℕ := 0
  grants : List ℕ := []
  queued : List ℕ := []
  woken : List ℕ := []

open SemaphoreLedger

/-- The processes that hold a mutex, and those queued and taken from the queue. -/
structure MutexLedger where
  holders : List ℕ := []
  queued : List ℕ := []
  woken : List ℕ := []

open MutexLedger

namespace SemaphoreLedger

variable (ledger : SemaphoreLedger) (semaphore : CourseSemaphore) (table : CourseProcessTable)

def noteWait (pid : ℕ) : CourseSyncResult → SemaphoreLedger
  | .ok => if table.PidLive pid then { ledger with grants := ledger.grants ++ [pid] } else ledger
  | .blocked => { ledger with queued := ledger.queued ++ [pid] }
  | .errBadProcess => ledger
  | .errNotOwner => ledger

/-- The ledger after a post; a unit given to a process that is gone is no grant. -/
def notePost : SemaphoreLedger :=
  match semaphore.waiters with
  | [] => { ledger with posts := ledger.posts + 1 }
  | pid :: _ =>
    { ledger with
      posts := ledger.posts + 1
      woken := ledger.woken ++ [pid]
      grants := if table.PidLive pid then ledger.grants ++ [pid] else ledger.grants }

end SemaphoreLedger

namespace MutexLedger

variable (ledger : MutexLedger) (mutex : CourseMutex)

def noteLock (pid : ℕ) : CourseSyncResult → MutexLedger
  | .ok => { ledger with holders := ledger.holders ++ [pid] }
  | .blocked => { ledger with queued := ledger.queued ++ [pid] }
  | .errBadProcess => ledger
  | .errNotOwner => ledger

def noteUnlock (pid : ℕ) : MutexLedger :=
  if mutex.ownerPid = 0 ∨ mutex.ownerPid ≠ pid then ledger
  else
    match mutex.waiters with
    | [] => { ledger with holders := ledger.holders.erase pid }
    | next :: _ =>
      { ledger with
        holders := ledger.holders.erase pid ++ [next]
        woken := ledger.woken ++ [next] }

end MutexLedger

structure SyncLedger where
  semaphores : ℕ → SemaphoreLedger := fun _ => {}
  mutexes : ℕ → MutexLedger := fun _ => {}

namespace CourseSystem

variable (system : CourseSystem)

def note (ledger : SyncLedger) : CourseAction → SyncLedger
  | .semaphoreWait k pid =>
    { ledger with
      semaphores := update ledger.semaphores k
        ((ledger.semaphores k).noteWait system.table pid
          ((system.semaphores k).wait system.table pid).2.2) }
  | .semaphorePost k =>
    { ledger with
      semaphores := update ledger.semaphores k
        ((ledger.semaphores k).notePost (system.semaphores k) system.table) }
  | .mutexLock k pid =>
    { ledger with
      mutexes := update ledger.mutexes k
        ((ledger.mutexes k).noteLock pid ((system.mutexes k).lock system.table pid).2.2) }
  | .mutexUnlock k pid =>
    { ledger with
      mutexes := update ledger.mutexes k
        ((ledger.mutexes k).noteUnlock (system.mutexes k) pid) }
  | _ => ledger

def ledgerAfter (system : CourseSystem) (ledger : SyncLedger) : List CourseAction → SyncLedger
  | [] => ledger
  | action :: rest => (system.perform action).ledgerAfter (system.note ledger action) rest

/-- The calls that name their caller are made by a process that can run. -/
def CallerLive : CourseAction → Prop
  | .semaphoreWait _ pid => system.table.PidLive pid
  | .mutexLock _ pid => system.table.PidLive pid
  | .mutexUnlock _ pid => system.table.PidLive pid
  | _ => True

def CallersLive (system : CourseSystem) : List CourseAction → Prop
  | [] => True
  | action :: rest => system.CallerLive action ∧ (system.perform action).CallersLive rest

/-- A post or unlock that finds a waiter finds it alive, no process queues twice in one queue
and no value grows past the range of an `int32_t`. -/
def Wakes : CourseAction → Prop
  | .semaphoreWait k pid => (system.semaphores k).value ≤ 0 → pid ∉ (system.semaphores k).waiters
  | .semaphorePost k =>
    ((system.semaphores k).waiters = [] → (system.semaphores k).value < 2 ^ 31 - 1) ∧
      system.table.HeadLive (system.semaphores k).waiters
  | .mutexLock k pid => (system.mutexes k).ownerPid ≠ 0 → pid ∉ (system.mutexes k).waiters
  | .mutexUnlock k pid =>
    (system.mutexes k).ownerPid = pid → system.table.HeadLive (system.mutexes k).waiters
  | _ => True

def AllWake (system : CourseSystem) : List CourseAction → Prop
  | [] => True
  | action :: rest => system.Wakes action ∧ (system.perform action).AllWake rest

/-- What a single call has to respect: an error leaves value, owner and queue as they were,
and an owner's unlock with a live process in the queue leaves the mutex with a live owner. -/
def CallSound : CourseAction → Prop
  | .semaphoreWait k pid =>
    ((system.semaphores k).wait system.table pid).2.2.isError →
      ((system.semaphores k).wait system.table pid).1 = system.semaphores k
  | .semaphorePost k =>
    ((system.semaphores k).post system.table).2.2.isError →
      ((system.semaphores k).post system.table).1 = system.semaphores k
  | .mutexLock k pid =>
    ((system.mutexes k).lock system.table pid).2.2.isError →
      ((system.mutexes k).lock system.table pid).1 = system.mutexes k
  | .mutexUnlock k pid =>
    let (mutex, table, result) := (system.mutexes k).unlock system.table pid
    (result.isError → mutex.ownerPid = (system.mutexes k).ownerPid ∧
      mutex.waiters = (system.mutexes k).waiters) ∧
    (result ≠ .errNotOwner → (∃ waiter ∈ mutex.waiters, table.PidLive waiter) →
      table.PidLive mutex.ownerPid)
  | _ => True

/-- The units of a semaphore are accounted for and its waiters are served in order. -/
structure SemaphoreSound (value : ℤ) (semaphore : CourseSemaphore) (table : CourseProcessTable)
    (ledger : SemaphoreLedger) : Prop where
  accounted : value + ledger.posts = semaphore.value + ledger.grants.length
  fifo : ledger.queued = ledger.woken ++ semaphore.waiters
  noLiveWaiter : 0 < semaphore.value → ∀ pid ∈ semaphore.waiters, ¬table.PidLive pid
  nodup : semaphore.waiters.Nodup

/-- A mutex has no other holder than its owner and its waiters are served in order. -/
structure MutexSound (mutex : CourseMutex) (ledger : MutexLedger) : Prop where
  oneOwner : ledger.holders = if mutex.ownerPid = 0 then [] else [mutex.ownerPid]
  fifo : ledger.queued = ledger.woken ++ mutex.waiters
  nodup : mutex.waiters.Nodup

/-- No wakeup was lost in a run from the start: in the state it reached, and in each of its
calls. -/
def NoLostWakeup (values : ℕ → BitVec 32) (actions : List CourseAction) : Prop :=
  (∀ k, SemaphoreSound (values k).toInt (((start values).run actions).semaphores k)
      ((start values).run actions).table
      (((start values).ledgerAfter {} actions).semaphores k)) ∧
  (∀ k, MutexSound (((start values).run actions).mutexes k)
      (((start values).ledgerAfter {} actions).mutexes k)) ∧
  ∀ before action after, actions = before ++ action :: after →
    ((start values).run before).CallSound action

end CourseSystem

/-- What a run keeps of a semaphore: more than the ledger says, its queue is empty while the
value is positive. -/
structure SemaphoreKept (value : ℤ) (semaphore : CourseSemaphore) (ledger : SemaphoreLedger) :
    Prop where
  accounted : value + ledger.posts = semaphore.value + ledger.grants.length
  fifo : ledger.queued = ledger.woken ++ semaphore.waiters
  empty : 0 < semaphore.value → semaphore.waiters = []
  nodup : semaphore.waiters.Nodup
  low : -2 ^ 31 ≤ semaphore.value

namespace SemaphoreKept

variable {value : ℤ} {semaphore : CourseSemaphore} {ledger : SemaphoreLedger}
  {table : CourseProcessTable} {pid : ℕ}

theorem init (value : BitVec 32) : SemaphoreKept value.toInt (.init value) {} where
  accounted := rfl
  fifo := rfl
  empty _ := rfl
  nodup := nodup_nil
  low := by
    have := value.le_toInt
    simpa [CourseSemaphore.init] using this

theorem sound (h : SemaphoreKept value semaphore ledger) :
    CourseSystem.SemaphoreSound value semaphore table ledger where
  accounted := h.accounted
  fifo := h.fifo
  noLiveWaiter hpos pid hpid := by simp [h.empty hpos] at hpid
  nodup := h.nodup

theorem wait (h : SemaphoreKept value semaphore ledger) (hlive : table.PidLive pid)
    (hwakes : semaphore.value ≤ 0 → pid ∉ semaphore.waiters) :
    SemaphoreKept value (semaphore.wait table pid).1
      (ledger.noteWait table pid (semaphore.wait table pid).2.2) := by
  rcases semaphore.wait_cases table pid with
    hwait | ⟨i, -, hpos, hwait⟩ | ⟨i, -, hvalue, -, hwait⟩
  · rw [hwait]
    exact h
  · rw [hwait]
    simp only [noteWait, if_pos hlive]
    refine ⟨?_, h.fifo, fun _ => h.empty hpos, h.nodup, ?_⟩
    · have := h.accounted
      simp only [length_append, length_singleton]
      omega
    · show -2 ^ 31 ≤ semaphore.value - 1
      omega
  · rw [hwait]
    refine ⟨h.accounted, ?_, fun hpos => absurd hpos (by simpa using hvalue), ?_, h.low⟩
    · simp only [noteWait, h.fifo, List.append_assoc]
    · exact h.nodup.append (nodup_singleton pid) (by simpa using hwakes hvalue)

theorem succInt32_of_lt {value : ℤ} (hlow : -2 ^ 31 ≤ value) (h : value < 2 ^ 31 - 1) :
    succInt32 value = value + 1 := by
  rw [succInt32, Int.bmod_def]
  omega

theorem post_raise (h : SemaphoreKept value semaphore ledger) (hwaiters : semaphore.waiters = [])
    (hlt : semaphore.value < 2 ^ 31 - 1) :
    SemaphoreKept value (semaphore.post table).1 (ledger.notePost semaphore table) := by
  have hpost : semaphore.post table =
      ({ semaphore with value := succInt32 semaphore.value }, table, .ok) := by
    rcases semaphore.post_cases table with ⟨-, hpost⟩ | ⟨rest, hcons, -⟩ |
      ⟨pid, rest, i, hcons, -⟩ | ⟨pid, rest, hcons, -⟩
    · exact hpost
    all_goals
      rw [hwaiters] at hcons
      cases hcons
  have haccounted := h.accounted
  have hfifo := h.fifo
  have hlow := h.low
  rw [hpost, succInt32_of_lt h.low hlt]
  simp only [notePost, hwaiters]
  constructor
  · push_cast
    omega
  · simpa [hwaiters] using hfifo
  · intro _
    exact rfl
  · simp
  · show -2 ^ 31 ≤ semaphore.value + 1
    omega

theorem post_wake (h : SemaphoreKept value semaphore ledger) {rest : List ℕ}
    (hwaiters : semaphore.waiters = pid :: rest) (hlive : table.PidLive pid) :
    SemaphoreKept value (semaphore.post table).1 (ledger.notePost semaphore table) := by
  obtain ⟨i, hfind, -⟩ := id hlive
  have hvalue : ¬0 < semaphore.value := by
    intro hpos
    have := h.empty hpos
    rw [hwaiters] at this
    cases this
  have hpost : (semaphore.post table).1 = { semaphore with waiters := rest } := by
    rcases semaphore.post_cases table with ⟨hnil, -⟩ | ⟨rest', hcons, -⟩ |
      ⟨pid', rest', i', hcons, -, hpost⟩ | ⟨pid', rest', hcons, -, hnone, -⟩
    · rw [hwaiters] at hnil
      cases hnil
    · rw [hwaiters] at hcons
      cases hcons
      exact absurd rfl (find_some hfind).1
    · rw [hwaiters] at hcons
      cases hcons
      rw [hpost]
    · rw [hwaiters] at hcons
      cases hcons
      rw [hfind] at hnone
      cases hnone
  have haccounted := h.accounted
  have hfifo := h.fifo
  have hnodup := h.nodup
  rw [hwaiters] at hfifo hnodup
  rw [hpost]
  simp only [notePost, hwaiters, if_pos hlive]
  constructor
  · simp only [length_append, length_singleton]
    omega
  · simp [hfifo]
  · intro hpos
    exact absurd hpos hvalue
  · exact (nodup_cons.1 hnodup).2
  · exact h.low

end SemaphoreKept

/-- What a run keeps of a mutex. -/
structure MutexKept (mutex : CourseMutex) (ledger : MutexLedger) : Prop where
  oneOwner : ledger.holders = if mutex.ownerPid = 0 then [] else [mutex.ownerPid]
  fifo : ledger.queued = ledger.woken ++ mutex.waiters
  nodup : mutex.waiters.Nodup

namespace MutexKept

variable {mutex : CourseMutex} {ledger : MutexLedger} {table : CourseProcessTable}

theorem init : MutexKept .init {} := ⟨rfl, rfl, nodup_nil⟩

variable (h : MutexKept mutex ledger) {pid : ℕ}

include h

theorem sound : CourseSystem.MutexSound mutex ledger :=
  ⟨h.oneOwner, h.fifo, h.nodup⟩

theorem lock (hlive : table.PidLive pid) (hwakes : mutex.ownerPid ≠ 0 → pid ∉ mutex.waiters) :
    MutexKept (mutex.lock table pid).1 (ledger.noteLock pid (mutex.lock table pid).2.2) := by
  have hpid : pid ≠ 0 := by
    obtain ⟨i, hfind, -⟩ := hlive
    exact (find_some hfind).1
  rcases mutex.lock_cases table pid with
    hlock | ⟨i, -, howner, hlock⟩ | ⟨i, -, howner, -, hlock⟩
  · rw [hlock]
    exact h
  · rw [hlock]
    refine ⟨?_, h.fifo, h.nodup⟩
    simp [noteLock, h.oneOwner, howner, hpid]
  · rw [hlock]
    refine ⟨h.oneOwner, ?_, ?_⟩
    · simp only [noteLock, h.fifo, List.append_assoc]
    · exact h.nodup.append (nodup_singleton pid) (by simpa using hwakes howner)

theorem unlock
    (hwakes : ∀ next rest, mutex.ownerPid = pid → mutex.waiters = next :: rest →
      table.PidLive next) :
    MutexKept (mutex.unlock table pid).1 (ledger.noteUnlock mutex pid) := by
  have hholders := h.oneOwner
  have hfifo := h.fifo
  have hnodup := h.nodup
  rcases mutex.unlock_cases table pid with
    ⟨hother, guard, hunlock⟩ | ⟨howner, hpid, hqueue, hunlock⟩ |
    ⟨next, rest, i, howner, hpid, hwaiters, hfind, hunlock⟩ |
    ⟨next, rest, howner, -, hwaiters, -, hnone, -⟩
  · rw [hunlock, noteUnlock, if_pos hother]
    exact ⟨hholders, hfifo, hnodup⟩
  · have hnil : mutex.waiters = [] := by
      rcases hqueue with hnil | ⟨rest, hcons⟩
      · exact hnil
      obtain ⟨i, hfind, -⟩ := hwakes 0 rest howner hcons
      exact absurd rfl (find_some hfind).1
    rw [hunlock, noteUnlock, if_neg (by omega), hnil]
    rw [hnil, append_nil] at hfifo
    refine ⟨?_, by simpa using hfifo, by simp⟩
    simp [hholders, howner, hpid]
  · have hnext : next ≠ 0 := (find_some hfind).1
    rw [hunlock, noteUnlock, if_neg (by omega), hwaiters]
    rw [hwaiters] at hfifo hnodup
    refine ⟨?_, by simp [hfifo], (nodup_cons.1 hnodup).2⟩
    simp [hholders, howner, hpid, hnext]
  · obtain ⟨i, hfind, -⟩ := hwakes next rest howner hwaiters
    rw [hfind] at hnone
    cases hnone

end MutexKept

/-- What a run keeps of all semaphores and mutexes. -/
structure SyncKept (values : ℕ → BitVec 32) (system : CourseSystem) (ledger : SyncLedger) :
    Prop where
  semaphores : ∀ k, SemaphoreKept (values k).toInt (system.semaphores k) (ledger.semaphores k)
  mutexes : ∀ k, MutexKept (system.mutexes k) (ledger.mutexes k)

namespace SyncKept

variable {values : ℕ → BitVec 32} {system : CourseSystem} {ledger : SyncLedger}

theorem start : SyncKept values (.start values) {} where
  semaphores k := .init (values k)
  mutexes _ := .init

section

variable (h : SyncKept values system ledger) {system' : CourseSystem}

include h

theorem update_semaphore {k : ℕ}
    {semaphore : CourseSemaphore} {entry : SemaphoreLedger}
    (hkept : SemaphoreKept (values k).toInt semaphore entry)
    (hsemaphores : system'.semaphores = update system.semaphores k semaphore)
    (hmutexes : system'.mutexes = system.mutexes) :
    SyncKept values system'
      { ledger with semaphores := update ledger.semaphores k entry } where
  semaphores j := by
    rw [hsemaphores]
    by_cases hj : j = k
    · subst hj
      simpa using hkept
    · simpa [hj] using h.semaphores j
  mutexes j := by
    rw [hmutexes]
    exact h.mutexes j

theorem update_mutex {k : ℕ}
    {mutex : CourseMutex} {entry : MutexLedger} (hkept : MutexKept mutex entry)
    (hmutexes : system'.mutexes = update system.mutexes k mutex)
    (hsemaphores : system'.semaphores = system.semaphores) :
    SyncKept values system'
      { ledger with mutexes := update ledger.mutexes k entry } where
  semaphores j := by
    rw [hsemaphores]
    exact h.semaphores j
  mutexes j := by
    rw [hmutexes]
    by_cases hj : j = k
    · subst hj
      simpa using hkept
    · simpa [hj] using h.mutexes j

theorem step {action : CourseAction}
    (hlive : system.CallerLive action) (hwakes : system.Wakes action) :
    SyncKept values (system.perform action) (system.note ledger action) := by
  cases action with
  | semaphoreWait k pid => exact h.update_semaphore ((h.semaphores k).wait hlive hwakes) rfl rfl
  | semaphorePost k =>
    refine h.update_semaphore ?_ rfl rfl
    simp only [CourseSystem.Wakes] at hwakes
    rcases nil_or_cons (system.semaphores k).waiters with hnil | ⟨pid, rest, hcons⟩
    · exact (h.semaphores k).post_raise hnil (hwakes.1 hnil)
    rw [hcons] at hwakes
    exact (h.semaphores k).post_wake hcons hwakes.2
  | mutexLock k pid => exact h.update_mutex ((h.mutexes k).lock hlive hwakes) rfl rfl
  | mutexUnlock k pid =>
    refine h.update_mutex ((h.mutexes k).unlock fun next rest howner hcons => ?_) rfl rfl
    have hhead := hwakes howner
    rwa [hcons] at hhead
  | process call => exact ⟨h.semaphores, h.mutexes⟩
  | configure policy timeSlice => exact ⟨h.semaphores, h.mutexes⟩
  | addProcess pid => exact ⟨h.semaphores, h.mutexes⟩
  | tick => exact ⟨h.semaphores, h.mutexes⟩

theorem run {actions : List CourseAction}
    (hlive : system.CallersLive actions) (hwakes : system.AllWake actions) :
    SyncKept values (system.run actions) (system.ledgerAfter ledger actions) := by
  induction actions generalizing system ledger with
  | nil => exact h
  | cons action rest ih => exact ih (h.step hlive.1 hwakes.1) hlive.2 hwakes.2

end

end SyncKept

namespace CourseSystem

theorem pidLive_setProcess {table : CourseProcessTable} {pid : ℕ} {i : ProcessSlot}
    (h : table.find pid = some i) :
    (table.setProcess i { table.processes i with state := .ready }).PidLive pid := by
  have hcards : (table.setProcess i { table.processes i with state := .ready }).cards =
      update table.cards i { table.cards i with state := .ready } :=
    setProcess_cards _ _ _
  have hfind : (table.setProcess i { table.processes i with state := .ready }).find pid =
    some i := by
    have hsame : ∀ j, ((table.setProcess i { table.processes i with state := .ready }).processes
        j).used = (table.processes j).used ∧
        ((table.setProcess i { table.processes i with state := .ready }).processes j).pid =
          (table.processes j).pid := by
      intro j
      by_cases hj : j = i
      · subst hj
        simp [setProcess]
      · simp [setProcess, hj]
    rw [← h]
    simp only [find, hsame]
  refine ⟨i, hfind, ?_⟩
  rw [hcards, Function.update_self]
  exact .inl rfl

variable {system : CourseSystem} {action : CourseAction}

theorem callSound_of_wakes
    (hwakes : system.Wakes action) : system.CallSound action := by
  cases action with
  | semaphoreWait k pid =>
    simp only [CallSound]
    rcases (system.semaphores k).wait_cases system.table pid with
      h | ⟨i, -, -, h⟩ | ⟨i, -, -, -, h⟩ <;> rw [h] <;> simp [isError]
  | semaphorePost k =>
    simp only [CallSound, Wakes] at hwakes ⊢
    rcases (system.semaphores k).post_cases system.table with
      ⟨-, h⟩ | ⟨rest, -, h⟩ | ⟨pid, rest, i, -, -, h⟩ | ⟨pid, rest, hcons, -, hnone, h⟩
    · rw [h]
      simp [isError]
    · rw [h]
      simp [isError]
    · rw [h]
      simp [isError]
    · rw [hcons] at hwakes
      obtain ⟨i, hfind, -⟩ := hwakes.2
      rw [hfind] at hnone
      cases hnone
  | mutexLock k pid =>
    simp only [CallSound]
    rcases (system.mutexes k).lock_cases system.table pid with
      h | ⟨i, -, -, h⟩ | ⟨i, -, -, -, h⟩ <;> rw [h] <;> simp [isError]
  | mutexUnlock k pid =>
    simp only [CallSound, Wakes] at hwakes ⊢
    rcases (system.mutexes k).unlock_cases system.table pid with
      ⟨hother, guard, h⟩ | ⟨howner, -, hqueue, h⟩ | ⟨next, rest, i, -, -, -, hfind, h⟩ |
      ⟨next, rest, howner, -, hcons, -, hnone, h⟩
    · rw [h]
      exact ⟨fun _ => ⟨rfl, rfl⟩, fun hresult => absurd rfl hresult⟩
    · rw [h]
      refine ⟨fun herror => Bool.noConfusion herror, fun _ hwaiter => ?_⟩
      obtain ⟨waiter, hmem, -⟩ := hwaiter
      rcases hqueue with hnil | ⟨rest, hcons⟩
      · simp [hnil] at hmem
      have hlive := hwakes howner
      rw [hcons] at hlive
      obtain ⟨i, hfind, -⟩ := hlive
      exact absurd rfl (find_some hfind).1
    · rw [h]
      exact ⟨fun herror => Bool.noConfusion herror, fun _ _ => pidLive_setProcess hfind⟩
    · have hlive := hwakes howner
      rw [hcons] at hlive
      obtain ⟨i, hfind, -⟩ := hlive
      rw [hfind] at hnone
      cases hnone
  | process call => exact trivial
  | configure policy timeSlice => exact trivial
  | addProcess pid => exact trivial
  | tick => exact trivial

theorem AllWake.at_call {before after : List CourseAction}
    (h : system.AllWake (before ++ action :: after)) :
    (system.run before).Wakes action := by
  induction before generalizing system with
  | nil => exact h.1
  | cons first rest ih => exact ih h.2

/-- In every run of calls by live processes whose posts and unlocks find their waiters alive,
no wakeup is lost. -/
theorem noLostWakeup_of_allWake (values : ℕ → BitVec 32) (actions : List CourseAction)
    (hlive : (start values).CallersLive actions) (hwakes : (start values).AllWake actions) :
    NoLostWakeup values actions := by
  have hkept := (@SyncKept.start values).run hlive hwakes
  refine ⟨fun k => (hkept.semaphores k).sound, fun k => (hkept.mutexes k).sound, ?_⟩
  intro before action after hsplit
  rw [hsplit] at hwakes
  exact callSound_of_wakes hwakes.at_call

/-- Three processes; the second and the third wait on a semaphore without units, and a post
wakes the second. -/
def twoWaiters : List CourseAction :=
  [.process (.spawn 0 []), .process (.spawn 1 []), .process (.spawn 1 []),
    .semaphoreWait 0 2, .semaphoreWait 0 3, .semaphorePost 0]

instance (system : CourseSystem) :
    (action : CourseAction) → Decidable (system.CallerLive action)
  | .semaphoreWait _ pid => inferInstanceAs (Decidable (system.table.PidLive pid))
  | .mutexLock _ pid => inferInstanceAs (Decidable (system.table.PidLive pid))
  | .mutexUnlock _ pid => inferInstanceAs (Decidable (system.table.PidLive pid))
  | .semaphorePost _ => inferInstanceAs (Decidable True)
  | .process _ => inferInstanceAs (Decidable True)
  | .configure _ _ => inferInstanceAs (Decidable True)
  | .addProcess _ => inferInstanceAs (Decidable True)
  | .tick => inferInstanceAs (Decidable True)

instance decidableCallersLive (system : CourseSystem) :
    (actions : List CourseAction) → Decidable (system.CallersLive actions)
  | [] => inferInstanceAs (Decidable True)
  | action :: rest =>
    have := decidableCallersLive (system.perform action) rest
    inferInstanceAs (Decidable (_ ∧ _))

instance (system : CourseSystem) : (action : CourseAction) → Decidable (system.Wakes action)
  | .semaphoreWait _ _ => inferInstanceAs (Decidable (_ → _))
  | .semaphorePost _ => inferInstanceAs (Decidable (_ ∧ _))
  | .mutexLock _ _ => inferInstanceAs (Decidable (_ → _))
  | .mutexUnlock _ _ => inferInstanceAs (Decidable (_ → _))
  | .process _ => inferInstanceAs (Decidable True)
  | .configure _ _ => inferInstanceAs (Decidable True)
  | .addProcess _ => inferInstanceAs (Decidable True)
  | .tick => inferInstanceAs (Decidable True)

instance decidableAllWake (system : CourseSystem) :
    (actions : List CourseAction) → Decidable (system.AllWake actions)
  | [] => inferInstanceAs (Decidable True)
  | action :: rest =>
    have := decidableAllWake (system.perform action) rest
    inferInstanceAs (Decidable (_ ∧ _))

theorem twoWaiters_noLostWakeup : NoLostWakeup (fun _ => 0) twoWaiters :=
  noLostWakeup_of_allWake (fun _ => 0) twoWaiters (by decide +kernel) (by decide +kernel)

/-- The unit of a post goes to a waiter that was killed: it is neither in the value nor
granted to a live process. -/
theorem killedWaiter_unitLost : ¬∀ (values : ℕ → BitVec 32) (actions : List CourseAction),
      (start values).CallersLive actions → NoLostWakeup values actions := by
  intro h
  have hlost := h (fun _ => 0) (killedWaiter ++ [.semaphorePost 0]) (by decide +kernel)
  exact absurd (hlost.1 0).accounted (by decide +kernel)

end CourseSystem
end VisualCpu
