import VisualCpu.Library.Lists

/-!
# The course process table

The sixteen process slots of the course kernel, their copy-on-write page references and
the operations on them: spawn, fork, exec, exit, kill, wait and the user page accesses.
A slot that is not used, or whose process is dead, is taken again by the next spawn under
a fresh pid.
-/

namespace VisualCpu

/-- Sixteen processes, eight user pages each and thirty-two shared pages. -/
abbrev ProcessSlot := Fin 16
abbrev UserPageIndex := Fin 8
abbrev CowPageSlot := Fin 32

def courseProcessUserPageSize : ℕ := 4096

/-- A `uint32_t` counter after one more. -/
def succ32 (n : ℕ) : ℕ := (n + 1) % 2 ^ 32

inductive CourseProcessState where
  | unused | ready | running | blocked | zombie | dead
deriving DecidableEq

inductive CourseProcessAbi where
  | course | linuxCompat
deriving DecidableEq

inductive CourseProcessError where
  | noSlot | noProcess | noChild | noSuchProgram | badAddress | badElf
deriving DecidableEq

/-- `COURSE_PROCESS_EXIT_CRASH`. -/
def courseProcessExitCrash : ℤ := -128

/-- A C string copied into a buffer of `size` bytes. -/
def copyStr (size : ℕ) (value : List UInt8) : List UInt8 := value.take (size - 1)

def courseProcessMaxName : ℕ := 24
def courseProcessMaxArgv : ℕ := 64
def courseProcessMaxMaps : ℕ := 8

structure CourseElfMap where
  name : List UInt8
  (start stop : BitVec 64)
  flags : BitVec 32
  cow : Bool
deriving DecidableEq

/-- What the loader reports of an image it accepts; the segments lie in `maps`. -/
structure CourseElfLoadResult where
  (entryPc userSp : BitVec 64)
  maps : List CourseElfMap
  argv : List UInt8

structure CourseProcessUserPageRef where
  mapped : Bool := false
  cowPageId : ℕ := 0
  writable : Bool := false
  cow : Bool := false
deriving DecidableEq

structure CourseProcessCowPage where
  used : Bool := false
  id : ℕ := 0
  refcount : ℕ := 0
  data : Fin courseProcessUserPageSize → UInt8 := fun _ => 0

structure CourseProcess where
  used : Bool := false
  pid : ℕ := 0
  ppid : ℕ := 0
  state : CourseProcessState := .unused
  abi : CourseProcessAbi := .course
  exitCode : ℤ := 0
  crashReason : List UInt8 := []
  crashSepc : BitVec 64 := 0
  crashScause : BitVec 64 := 0
  crashStval : BitVec 64 := 0
  addressSpace : BitVec 64 := 0
  openFiles : BitVec 64 := 0
  name : List UInt8 := []
  argv : List UInt8 := []
  entryPc : BitVec 64 := 0
  userSp : BitVec 64 := 0
  maps : List CourseElfMap := []
  userPages : UserPageIndex → CourseProcessUserPageRef := fun _ => {}

structure CourseProcessCowStats where
  mappedPages : ℕ := 0
  cowFaults : ℕ := 0
  copiedPages : ℕ := 0
  savedPages : ℕ := 0
  refcountPeak : ℕ := 0
  releasedPages : ℕ := 0

structure CourseProcessTable where
  processes : ProcessSlot → CourseProcess
  cowPages : CowPageSlot → CourseProcessCowPage
  cowStats : CourseProcessCowStats
  (nextPid nextCowPageId : ℕ)

namespace CourseProcessTable

/-- `course_process_table_init`. -/
def init : CourseProcessTable where
  processes _ := {}
  cowPages _ := {}
  cowStats := {}
  nextPid := 1
  nextCowPageId := 1

variable (table : CourseProcessTable)

variable (i : ProcessSlot)

def setProcess (process : CourseProcess) : CourseProcessTable :=
  { table with processes := Function.update table.processes i process }

def setCowPage (k : CowPageSlot) (page : CourseProcessCowPage) : CourseProcessTable :=
  { table with cowPages := Function.update table.cowPages k page }

def setUserPage (j : UserPageIndex) (ref : CourseProcessUserPageRef) :
    CourseProcessTable :=
  table.setProcess i { table.processes i with
    userPages := Function.update (table.processes i).userPages j ref }

/-- `course_process_find`; the process may be in any state, also dead. -/
def find (pid : ℕ) : Option ProcessSlot :=
  if pid = 0 then none
  else firstSlot fun i => (table.processes i).used && (table.processes i).pid == pid

/-- `alloc_process`. -/
def allocProcess : Option ProcessSlot :=
  firstSlot fun i => !(table.processes i).used || (table.processes i).state == .dead

/-- `find_cow_page_by_id`. -/
def findCowPageById (id : ℕ) : Option CowPageSlot :=
  if id = 0 then none
  else firstSlot fun k => (table.cowPages k).used && (table.cowPages k).id == id

/-- The statistics after a page reached a reference count. -/
def notePeak (refcount : ℕ) : CourseProcessTable :=
  { table with cowStats := { table.cowStats with
      refcountPeak := max table.cowStats.refcountPeak refcount } }

def freeCowPage : Option CowPageSlot := firstSlot fun k => !(table.cowPages k).used

/-- `alloc_cow_page`: the first free page gets the next id and one reference. -/
def allocCowPage : Option (CowPageSlot × CourseProcessTable) :=
  if table.nextCowPageId = 0 then none
  else
    match table.freeCowPage with
    | none => none
    | some k =>
      let page : CourseProcessCowPage := { used := true, id := table.nextCowPageId, refcount := 1 }
      some (k, { (table.setCowPage k page).notePeak 1 with
        nextCowPageId := succ32 table.nextCowPageId })

/-- `release_cow_page_ref`. -/
def releaseCowPageRef (id : ℕ) : CourseProcessTable :=
  match table.findCowPageById id with
  | none => table
  | some k =>
    let page := table.cowPages k
    if page.refcount = 0 then table
    else if page.refcount - 1 = 0 then
      { table.setCowPage k {} with cowStats := { table.cowStats with
          releasedPages := succ32 table.cowStats.releasedPages } }
    else table.setCowPage k { page with refcount := page.refcount - 1 }

/-- One round of the loop of `release_process_user_pages`. -/
def releaseUserPage (j : UserPageIndex) : CourseProcessTable :=
  let ref := (table.processes i).userPages j
  if ref.mapped then (table.releaseCowPageRef ref.cowPageId).setUserPage i j {} else table

/-- `release_process_user_pages`. -/
def releaseProcessUserPages : CourseProcessTable :=
  (List.finRange 8).foldl (fun table j => table.releaseUserPage i j) table

/-- `duplicate_cow_page`: a private page is made writable, a shared one copied. -/
def duplicateCowPage (j : UserPageIndex) : CourseProcessTable × Bool :=
  let ref := (table.processes i).userPages j
  match table.findCowPageById ref.cowPageId with
  | none => (table, false)
  | some k =>
    let oldPage := table.cowPages k
    if oldPage.refcount = 0 then (table, false)
    else if !ref.cow && ref.writable then (table, true)
    else if oldPage.refcount = 1 then
      (table.setUserPage i j { ref with cow := false, writable := true }, true)
    else
      match table.allocCowPage with
      | none => (table, false)
      | some (n, table') =>
        let copied := table'.setCowPage n { table'.cowPages n with data := oldPage.data }
        let dropped := copied.setCowPage k
          { copied.cowPages k with refcount := (copied.cowPages k).refcount - 1 }
        let moved := dropped.setUserPage i j
          { ref with cowPageId := (dropped.cowPages n).id, cow := false, writable := true }
        ({ moved with cowStats := { moved.cowStats with
            cowFaults := succ32 moved.cowStats.cowFaults
            copiedPages := succ32 moved.cowStats.copiedPages } }, true)

/-- `course_process_spawn`. -/
def spawn (ppid : ℕ) (name : List UInt8) : CourseProcessTable × Option ProcessSlot :=
  match table.allocProcess with
  | none => (table, none)
  | some i =>
    if table.nextPid = 0 then (table, none)
    else
      ({ table.setProcess i {
            used := true
            pid := table.nextPid
            ppid := ppid
            state := .ready
            name := copyStr courseProcessMaxName name } with
          nextPid := succ32 table.nextPid }, some i)

/-- One round of the page loop of `course_process_fork`: parent and child share the page
read-only. It fails when the page of the reference is not there. -/
def forkPage (parent child : ProcessSlot) (j : UserPageIndex) : Option CourseProcessTable :=
  let parentRef := (table.processes parent).userPages j
  if !parentRef.mapped then some table
  else
    match table.findCowPageById parentRef.cowPageId with
    | none => none
    | some k =>
      let page := table.cowPages k
      let counted := (table.setCowPage k { page with refcount := succ32 page.refcount }).notePeak
        (succ32 page.refcount)
      let ref := { parentRef with writable := false, cow := true }
      let shared := (counted.setUserPage parent j ref).setUserPage child j ref
      some { shared with cowStats := { shared.cowStats with
        mappedPages := succ32 shared.cowStats.mappedPages
        savedPages := succ32 shared.cowStats.savedPages } }

/-- The page loop of `course_process_fork`; on a failure the child slot is cleared. -/
def forkPages (table : CourseProcessTable) (parent child : ProcessSlot) :
    List UserPageIndex → CourseProcessTable × Bool
  | [] => (table, true)
  | j :: rest =>
    match table.forkPage parent child j with
    | none => (table.setProcess child {}, false)
    | some table' => forkPages table' parent child rest

/-- `course_process_fork`. -/
def fork (parentPid : ℕ) (childName : Option (List UInt8)) :
    CourseProcessTable × Option ProcessSlot :=
  match table.find parentPid with
  | none => (table, none)
  | some parent =>
    let source := table.processes parent
    if source.state = .dead ∨ source.state = .zombie then (table, none)
    else
      match table.spawn parentPid (childName.getD source.name) with
      | (table', none) => (table', none)
      | (table', some child) =>
        let inherited := table'.setProcess child { table'.processes child with
          entryPc := source.entryPc
          userSp := source.userSp
          abi := source.abi
          addressSpace := source.addressSpace
          openFiles := source.openFiles
          maps := source.maps }
        match inherited.forkPages parent child (List.finRange 8) with
        | (table'', false) => (table'', none)
        | (table'', true) =>
          (table''.setProcess child { table''.processes child with
            argv := copyStr courseProcessMaxArgv source.argv }, some child)

/-- `course_process_set_state`. -/
def setState (pid : ℕ) (state : CourseProcessState) : CourseProcessTable × Bool :=
  match table.find pid with
  | none => (table, false)
  | some i =>
    if state = .unused then (table, false)
    else (table.setProcess i { table.processes i with state := state }, true)

/-- `course_process_exit`: a zombie until the parent waits. -/
def exit (pid : ℕ) (exitCode : ℤ) : CourseProcessTable × Bool :=
  match table.find pid with
  | none => (table, false)
  | some i =>
    if (table.processes i).state = .dead then (table, false)
    else
      (table.setProcess i { table.processes i with exitCode := exitCode, state := .zombie }, true)

/-- `course_process_kill`. -/
def kill (callerPid targetPid : ℕ) : CourseProcessTable × Bool :=
  match table.find callerPid, table.find targetPid with
  | some caller, some target =>
    if (table.processes caller).state = .unused ∨ (table.processes caller).state = .dead ∨
        (table.processes target).state = .unused ∨ (table.processes target).state = .dead then
      (table, false)
    else if targetPid = 1 ∨ targetPid = callerPid then (table, false)
    else
      (table.setProcess target { table.processes target with exitCode := 9, state := .zombie },
        true)
  | _, _ => (table, false)

/-- `course_process_waitpid`, with the status it stores. -/
def waitpid (parentPid childPid : ℕ) : CourseProcessTable × Except CourseProcessError ℤ :=
  match table.find childPid with
  | none => (table, .error .noChild)
  | some i =>
    let child := table.processes i
    if child.ppid ≠ parentPid ∨ child.state = .dead then (table, .error .noChild)
    else if child.state ≠ .zombie then (table, .error .noChild)
    else
      let released := table.releaseProcessUserPages i
      (released.setProcess i { released.processes i with state := .dead }, .ok child.exitCode)

/-- The zombie that the loop of `course_process_wait` stops at. -/
def zombieChild (parentPid : ℕ) : Option ProcessSlot :=
  firstSlot fun i => (table.processes i).used && (table.processes i).ppid == parentPid &&
    (table.processes i).state == .zombie

/-- `course_process_wait`. -/
def wait (parentPid : ℕ) : CourseProcessTable × Except CourseProcessError ℤ :=
  match table.zombieChild parentPid with
  | none => (table, .error .noChild)
  | some i => table.waitpid parentPid (table.processes i).pid

/-- `course_process_exec_image`, given what the loader makes of the image (nothing when the
image is missing or refused). -/
def execImage (pid : ℕ) (imageName : List UInt8) (load : Option CourseElfLoadResult) :
    CourseProcessTable × Except CourseProcessError Unit :=
  match table.find pid with
  | none => (table, .error .noProcess)
  | some i =>
    match load with
    | none => (table, .error .badElf)
    | some image =>
      let released := table.releaseProcessUserPages i
      (released.setProcess i { released.processes i with
        name := copyStr courseProcessMaxName imageName
        argv := copyStr courseProcessMaxArgv image.argv
        abi := .course
        entryPc := image.entryPc
        userSp := image.userSp
        maps := image.maps.take courseProcessMaxMaps
        state := .ready }, .ok ())

/-- `course_process_exec`, given the built-in program of that name with its loaded image. -/
def exec (pid : ℕ) (program : Option (List UInt8 × Option CourseElfLoadResult)) :
    CourseProcessTable × Except CourseProcessError Unit :=
  if table.find pid = none then (table, .error .noProcess)
  else
    match program with
    | none => (table, .error .noSuchProgram)
    | some (name, load) => table.execImage pid name load

/-- `course_process_record_crash`. -/
def recordCrash (pid : ℕ) (sepc scause stval : BitVec 64) (reason : List UInt8) :
    CourseProcessTable × Bool :=
  match table.find pid with
  | none => (table, false)
  | some i =>
    if (table.processes i).state = .dead then (table, false)
    else
      (table.setProcess i { table.processes i with
        crashSepc := sepc
        crashScause := scause
        crashStval := stval
        crashReason := copyStr courseProcessMaxName reason }).exit pid courseProcessExitCrash

/-- `course_process_map_user_page`. -/
def mapUserPage (pid pageIndex : ℕ) (fillValue : UInt8) : CourseProcessTable × Bool :=
  match table.find pid with
  | none => (table, false)
  | some i =>
    if hj : pageIndex < 8 then
      if ((table.processes i).userPages ⟨pageIndex, hj⟩).mapped then (table, false)
      else
        match table.allocCowPage with
        | none => (table, false)
        | some (k, table') =>
          let filled := table'.setCowPage k { table'.cowPages k with data := fun _ => fillValue }
          let mapped := filled.setUserPage i ⟨pageIndex, hj⟩
            { mapped := true, cowPageId := (filled.cowPages k).id, writable := true }
          ({ mapped with cowStats := { mapped.cowStats with
              mappedPages := succ32 mapped.cowStats.mappedPages } }, true)
    else (table, false)

variable (pid pageIndex offset : ℕ)

/-- `course_process_read_user_byte`. -/
def readUserByte : Option UInt8 :=
  match table.find pid with
  | none => none
  | some i =>
    if hj : pageIndex < 8 then
      if ho : offset < courseProcessUserPageSize then
        let ref := (table.processes i).userPages ⟨pageIndex, hj⟩
        if !ref.mapped then none
        else (table.findCowPageById ref.cowPageId).map fun k => (table.cowPages k).data ⟨offset, ho⟩
      else none
    else none

/-- `course_process_write_user_byte`. -/
def writeUserByte (value : UInt8) : CourseProcessTable × Bool :=
  match table.find pid with
  | none => (table, false)
  | some i =>
    if hj : pageIndex < 8 then
      if ho : offset < courseProcessUserPageSize then
        if !((table.processes i).userPages ⟨pageIndex, hj⟩).mapped then (table, false)
        else
          match table.duplicateCowPage i ⟨pageIndex, hj⟩ with
          | (table', false) => (table', false)
          | (table', true) =>
            match table'.findCowPageById
                ((table'.processes i).userPages ⟨pageIndex, hj⟩).cowPageId with
            | none => (table', false)
            | some k =>
              (table'.setCowPage k { table'.cowPages k with
                data := Function.update (table'.cowPages k).data ⟨offset, ho⟩ value }, true)
      else (table, false)
    else (table, false)

/-- `course_process_handle_cow_store_fault`. -/
def handleCowStoreFault : CourseProcessTable × Bool :=
  match table.find pid with
  | none => (table, false)
  | some i =>
    if hj : pageIndex < 8 then
      if offset < courseProcessUserPageSize then
        if !((table.processes i).userPages ⟨pageIndex, hj⟩).mapped then (table, false)
        else table.duplicateCowPage i ⟨pageIndex, hj⟩
      else (table, false)
    else (table, false)

end CourseProcessTable

/-!
## Semaphores and mutexes of the course kernel

A wait queue holds pids only; blocking and waking a process is a write of its state in
the process table. The queue is the list of the first `waiter_count` entries of the array.
-/

/-- `COURSE_SYNC_MAX_WAITERS`. -/
def courseSyncMaxWaiters : ℕ := 16

/-- The results of the calls; only the last two are errors. -/
inductive CourseSyncResult where
  | ok | blocked | errBadProcess | errNotOwner
deriving DecidableEq

def CourseSyncResult.isError : CourseSyncResult → Bool
  | ok => false
  | blocked => false
  | errBadProcess => true
  | errNotOwner => true

/-- `find_process`: a process that is neither dead nor unused. -/
def CourseProcessTable.findProcess (table : CourseProcessTable) (pid : ℕ) : Option ProcessSlot :=
  match table.find pid with
  | none => none
  | some i =>
    if (table.processes i).state = .dead ∨ (table.processes i).state = .unused then none
    else some i

/-- `enqueue_waiter`. -/
def enqueueWaiter (waiters : List ℕ) (pid : ℕ) : Option (List ℕ) :=
  if courseSyncMaxWaiters ≤ waiters.length then none else some (waiters ++ [pid])

/-- `pop_waiter`: the pid at the head, or zero, and the rest of the queue. -/
def popWaiter : List ℕ → ℕ × List ℕ
  | [] => (0, [])
  | pid :: rest => (pid, rest)

/-- One more in an `int32_t`. -/
def succInt32 (value : ℤ) : ℤ := (value + 1).bmod (2 ^ 32)

structure CourseSemaphore where
  value : ℤ
  waiters : List ℕ

namespace CourseSemaphore

/-- `course_semaphore_init`. -/
def init (value : BitVec 32) : CourseSemaphore where
  value := value.toInt
  waiters := []

variable (semaphore : CourseSemaphore) (table : CourseProcessTable)

/-- `course_semaphore_wait`. -/
def wait (pid : ℕ) : CourseSemaphore × CourseProcessTable × CourseSyncResult :=
  match table.findProcess pid with
  | none => (semaphore, table, .errBadProcess)
  | some _ =>
    if 0 < semaphore.value then
      ({ semaphore with value := semaphore.value - 1 }, table, .ok)
    else
      match enqueueWaiter semaphore.waiters pid with
      | none => (semaphore, table, .errBadProcess)
      | some waiters =>
        match table.setState pid .blocked with
        | (table', true) => ({ semaphore with waiters := waiters }, table', .blocked)
        | (table', false) => ({ semaphore with waiters := waiters }, table', .errBadProcess)

/-- `course_semaphore_post`: a popped waiter gets the unit, else the value grows. -/
def post : CourseSemaphore × CourseProcessTable × CourseSyncResult :=
  let (pid, waiters) := popWaiter semaphore.waiters
  let popped := { semaphore with waiters := waiters }
  if pid ≠ 0 then
    match table.setState pid .ready with
    | (table', true) => (popped, table', .ok)
    | (table', false) => (popped, table', .errBadProcess)
  else ({ popped with value := succInt32 semaphore.value }, table, .ok)

end CourseSemaphore

structure CourseMutex where
  ownerPid : ℕ
  waiters : List ℕ
  misuseGuardCount : ℕ

namespace CourseMutex

/-- `course_mutex_init`. -/
def init : CourseMutex where
  ownerPid := 0
  waiters := []
  misuseGuardCount := 0

variable (mutex : CourseMutex) (table : CourseProcessTable)

/-- `course_mutex_lock`. -/
def lock (pid : ℕ) : CourseMutex × CourseProcessTable × CourseSyncResult :=
  match table.findProcess pid with
  | none => (mutex, table, .errBadProcess)
  | some _ =>
    if mutex.ownerPid = 0 then ({ mutex with ownerPid := pid }, table, .ok)
    else
      match enqueueWaiter mutex.waiters pid with
      | none => (mutex, table, .errBadProcess)
      | some waiters =>
        match table.setState pid .blocked with
        | (table', true) => ({ mutex with waiters := waiters }, table', .blocked)
        | (table', false) => ({ mutex with waiters := waiters }, table', .errBadProcess)

/-- `course_mutex_unlock`: the popped waiter becomes the owner. -/
def unlock (pid : ℕ) : CourseMutex × CourseProcessTable × CourseSyncResult :=
  if mutex.ownerPid = 0 then (mutex, table, .errNotOwner)
  else if mutex.ownerPid ≠ pid then
    ({ mutex with misuseGuardCount := succ32 mutex.misuseGuardCount }, table, .errNotOwner)
  else
    let (nextPid, waiters) := popWaiter mutex.waiters
    if nextPid ≠ 0 then
      let granted := { mutex with waiters := waiters, ownerPid := nextPid }
      match table.setState nextPid .ready with
      | (table', true) => (granted, table', .ok)
      | (table', false) => (granted, table', .errBadProcess)
    else ({ mutex with waiters := waiters, ownerPid := 0 }, table, .ok)

end CourseMutex
end VisualCpu
