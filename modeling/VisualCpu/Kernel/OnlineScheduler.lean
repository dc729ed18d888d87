import VisualCpu.Kernel.CourseProcess

/-!
# The online scheduler

The scheduler of the course kernel that a timer tick drives: up to eight scheduled
processes, one of three policies, and the state of the processes themselves in the
process table. The tasks are the list of the first `task_count` entries of the array.
-/

namespace VisualCpu

inductive CourseSchedPolicy where
  | fcfs | rr | cfsLite | count
deriving DecidableEq

/-- `course_scheduler_policy_name`. -/
def courseSchedulerPolicyName : CourseSchedPolicy → String
  | .fcfs => "FCFS"
  | .rr => "RR"
  | .cfsLite => "CFS-lite"
  | .count => "unknown"

def courseSchedulerMaxTasks : ℕ := 8

/-- `COURSE_ONLINE_SCHEDULER_NO_INDEX`. -/
def courseOnlineSchedulerNoIndex : ℕ := courseSchedulerMaxTasks

def courseOnlineSwitchCycleCost : ℕ := 1

structure CourseOnlineSchedulerTask where
  used : Bool := false
  pid : ℕ := 0
  vruntime : ℕ := 0
  runTicks : ℕ := 0

structure CourseOnlineSchedulerSummary where
  policy : CourseSchedPolicy := .fcfs
  ticks : ℕ := 0
  idleTicks : ℕ := 0
  currentPid : ℕ := 0
  contextSwitches : ℕ := 0
  lastSwitchCycleCost : ℕ := 0
  totalSwitchCycleCost : ℕ := 0
  timeSlice : UInt32 := 0
  preemptCount : ℕ := 0
  lastPolicyName : String := "FCFS"

/-- The process table is not part of the scheduler; `bound` says that it has one. -/
structure CourseOnlineScheduler where
  bound : Bool := false
  tasks : List CourseOnlineSchedulerTask := []
  currentIndex : ℕ := courseOnlineSchedulerNoIndex
  sliceUsed : ℕ := 0
  summary : CourseOnlineSchedulerSummary := {}

namespace CourseOnlineScheduler

/-- `course_online_scheduler_init`. -/
def init : CourseOnlineScheduler := {}

variable (scheduler : CourseOnlineScheduler) (table : CourseProcessTable)

def taskCount : ℕ := scheduler.tasks.length

/-- `online_index_valid`. -/
def indexValid (index : ℕ) : Bool := (scheduler.tasks[index]?).any (·.used)

/-- `online_process_at`. -/
def processAt (index : ℕ) : Option ProcessSlot :=
  match scheduler.tasks[index]? with
  | none => none
  | some task => if task.used && scheduler.bound then table.find task.pid else none

/-- `online_process_runnable` of the process at an index. -/
def processRunnable (index : ℕ) : Bool :=
  (scheduler.processAt table index).any fun i =>
    (table.processes i).used && (table.processes i).state == .ready

/-- `online_process_cfs_candidate` of the process at an index. -/
def processCfsCandidate (index : ℕ) : Bool :=
  (scheduler.processAt table index).any fun i =>
    (table.processes i).used && ((table.processes i).state == .ready ||
      index == scheduler.currentIndex && (table.processes i).state == .running)

/-- `online_current_running`. -/
def currentRunning : Bool :=
  scheduler.indexValid scheduler.currentIndex &&
    (scheduler.processAt table scheduler.currentIndex).any fun i =>
      (table.processes i).state == .running

def withoutCurrent : CourseOnlineScheduler :=
  { scheduler with
    currentIndex := courseOnlineSchedulerNoIndex
    sliceUsed := 0
    summary := { scheduler.summary with currentPid := 0 } }

/-- `online_record_context_switch`. -/
def recordContextSwitch (nextPid : ℕ) : CourseOnlineScheduler :=
  if scheduler.summary.currentPid = nextPid then scheduler
  else
    { scheduler with summary := { scheduler.summary with
        contextSwitches := succ32 scheduler.summary.contextSwitches
        lastSwitchCycleCost := courseOnlineSwitchCycleCost
        totalSwitchCycleCost :=
          (scheduler.summary.totalSwitchCycleCost + courseOnlineSwitchCycleCost) % 2 ^ 32 } }

/-- `online_release_current`. -/
def releaseCurrent : CourseOnlineScheduler × CourseProcessTable :=
  if !scheduler.indexValid scheduler.currentIndex then (scheduler.withoutCurrent, table)
  else
    match scheduler.processAt table scheduler.currentIndex with
    | none => (scheduler.withoutCurrent, table)
    | some i =>
      if (table.processes i).state = .running then
        (scheduler.withoutCurrent, (table.setState (table.processes i).pid .ready).1)
      else (scheduler.withoutCurrent, table)

/-- `online_pick_fcfs`. -/
def pickFcfs : ℕ :=
  ((List.range scheduler.taskCount).find? (scheduler.processRunnable table)).getD
    courseOnlineSchedulerNoIndex

/-- The indices in the order in which `online_pick_rr` looks at them. -/
def rrOrder (taskCount previousIndex : ℕ) : List ℕ :=
  let start :=
    if previousIndex = courseOnlineSchedulerNoIndex then 0 else (previousIndex + 1) % taskCount
  (List.range taskCount).map fun step => (start + step) % taskCount

/-- `online_pick_rr`. -/
def pickRr (previousIndex : ℕ) : ℕ :=
  if scheduler.taskCount = 0 then courseOnlineSchedulerNoIndex
  else
    ((rrOrder scheduler.taskCount previousIndex).find? (scheduler.processRunnable table)).getD
      courseOnlineSchedulerNoIndex

/-- One round of the loop of `online_pick_cfs_lite`. -/
def considerCfs (best i : ℕ) : ℕ :=
  if !scheduler.processCfsCandidate table i then best
  else
    match scheduler.tasks[i]?, scheduler.tasks[best]? with
    | some task, some bestTask =>
      if best = courseOnlineSchedulerNoIndex ∨ task.vruntime < bestTask.vruntime ∨
          task.vruntime = bestTask.vruntime ∧ task.pid < bestTask.pid then i
      else best
    | _, _ => i

/-- `online_pick_cfs_lite`. -/
def pickCfsLite : ℕ :=
  (List.range scheduler.taskCount).foldl (scheduler.considerCfs table) courseOnlineSchedulerNoIndex

/-- The table after `online_select` has taken the CPU from the process at the old index. -/
def demotePrevious (nextPid : ℕ) : CourseProcessTable :=
  match scheduler.processAt table scheduler.currentIndex with
  | none => table
  | some i =>
    if (table.processes i).pid ≠ nextPid ∧ (table.processes i).state = .running then
      (table.setState (table.processes i).pid .ready).1
    else table

/-- `online_select`. -/
def select (nextIndex : ℕ) : CourseOnlineScheduler × CourseProcessTable × Bool :=
  if !scheduler.indexValid nextIndex then (scheduler.withoutCurrent, table, true)
  else if !scheduler.processCfsCandidate table nextIndex then (scheduler, table, false)
  else
    match scheduler.processAt table nextIndex with
    | none => (scheduler, table, false)
    | some i =>
      let nextPid := (table.processes i).pid
      match table.setState nextPid .running with
      | (table', false) => (scheduler, table', false)
      | (table', true) =>
        let switched := scheduler.recordContextSwitch nextPid
        ({ switched with
            currentIndex := nextIndex
            sliceUsed := 0
            summary := { switched.summary with currentPid := nextPid } },
          scheduler.demotePrevious table' nextPid, true)

/-- `online_select_next`. -/
def selectNext (previousIndex : ℕ) : CourseOnlineScheduler × CourseProcessTable × Bool :=
  match scheduler.summary.policy with
  | .fcfs => scheduler.select table (scheduler.pickFcfs table)
  | .rr => scheduler.select table (scheduler.pickRr table previousIndex)
  | .cfsLite => scheduler.select table (scheduler.pickCfsLite table)
  | .count => (scheduler, table, false)

/-- `online_prepare_current`. -/
def prepareCurrent : CourseOnlineScheduler × CourseProcessTable × Bool :=
  if !scheduler.currentRunning table then
    let (released, table') := scheduler.releaseCurrent table
    released.selectNext table' scheduler.currentIndex
  else
    match scheduler.summary.policy with
    | .fcfs => (scheduler, table, true)
    | .rr =>
      if scheduler.summary.timeSlice.toNat ≤ scheduler.sliceUsed then
        { scheduler with summary := { scheduler.summary with
            preemptCount := succ32 scheduler.summary.preemptCount } }.selectNext table
          scheduler.currentIndex
      else (scheduler, table, true)
    | .cfsLite =>
      let nextIndex := scheduler.pickCfsLite table
      if nextIndex ≠ courseOnlineSchedulerNoIndex ∧ nextIndex ≠ scheduler.currentIndex then
        scheduler.select table nextIndex
      else (scheduler, table, true)
    | .count => (scheduler, table, false)

/-- `course_online_scheduler_configure`. -/
def configure (policy : CourseSchedPolicy) (timeSlice : UInt32) : CourseOnlineScheduler × Bool :=
  if policy = .count ∨ policy ≠ .fcfs ∧ timeSlice = 0 then (scheduler, false)
  else
    ({ scheduler with
        currentIndex := courseOnlineSchedulerNoIndex
        sliceUsed := 0
        summary := { scheduler.summary with
          policy := policy
          timeSlice := if policy = .fcfs then 0 else timeSlice
          lastPolicyName := courseSchedulerPolicyName policy
          currentPid := 0 } }, true)

/-- `course_online_scheduler_bind_process_table`. -/
def bindProcessTable : CourseOnlineScheduler := { scheduler.withoutCurrent with bound := true }

/-- `course_online_scheduler_add_process`. -/
def addProcess (pid : ℕ) : CourseOnlineScheduler × Bool :=
  if !scheduler.bound ∨ pid = 0 ∨ courseSchedulerMaxTasks ≤ scheduler.taskCount then
    (scheduler, false)
  else
    match table.find pid with
    | none => (scheduler, false)
    | some i =>
      if !(table.processes i).used ∨ (table.processes i).state = .unused ∨
          (table.processes i).state = .zombie ∨ (table.processes i).state = .dead then
        (scheduler, false)
      else if scheduler.tasks.any fun task => task.used && task.pid == pid then (scheduler, false)
      else ({ scheduler with tasks := scheduler.tasks ++ [{ used := true, pid := pid }] }, true)

/-- The task at the current index has run for one more tick. -/
def chargeTick : CourseOnlineScheduler :=
  { scheduler with
    tasks := scheduler.tasks.modify scheduler.currentIndex fun task =>
      { task with runTicks := succ32 task.runTicks, vruntime := succ32 task.vruntime }
    sliceUsed := succ32 scheduler.sliceUsed }

/-- `course_online_scheduler_tick`. -/
def tick : CourseOnlineScheduler × CourseProcessTable × Bool :=
  if !scheduler.bound ∨ scheduler.summary.policy = .count ∨
      scheduler.summary.policy ≠ .fcfs ∧ scheduler.summary.timeSlice = 0 then
    (scheduler, table, false)
  else
    let counted := { scheduler with summary := { scheduler.summary with
      ticks := succ32 scheduler.summary.ticks } }
    match counted.prepareCurrent table with
    | (prepared, table', false) => (prepared, table', false)
    | (prepared, table', true) =>
      if !prepared.currentRunning table' then
        ({ prepared with summary := { prepared.summary with
            currentPid := 0
            idleTicks := succ32 prepared.summary.idleTicks } }, table', true)
      else (prepared.chargeTick, table', true)

end CourseOnlineScheduler
end VisualCpu
