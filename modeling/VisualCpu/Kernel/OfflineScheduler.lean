import VisualCpu.Kernel.OnlineScheduler
import VisualCpu.Library.Loops

/-!
# The offline schedules

The three main loops of the course scheduler that run a set of tasks to its end without a
clock. The tasks are the list of the first `task_count` entries of the array; the words are
unsigned with 32 bits. Besides its result, a loop leaves the slices that it ran.
-/

namespace VisualCpu

def uint32 (n : ℕ) : ℕ := n % 2 ^ 32

/-- The difference of two words. -/
def uint32Sub (a b : ℕ) : ℕ := (a + 2 ^ 32 - b) % 2 ^ 32

/-- `UINT32_MAX`. -/
def uint32Max : ℕ := 2 ^ 32 - 1

structure CourseSchedulerTask where
  used : Bool := false
  pid : ℕ := 0
  arrivalTime : ℕ := 0
  burstTime : ℕ := 0
  remainingTime : ℕ := 0
  completionTime : ℕ := 0
  vruntime : ℕ := 0
deriving DecidableEq

structure CourseSchedulerSummary where
  policy : CourseSchedPolicy := .fcfs
  contextSwitches : ℕ := 0
  lastSwitchCycleCost : ℕ := 0
  totalSwitchCycleCost : ℕ := 0
  timeSlice : ℕ := 0
  preemptCount : ℕ := 0
  totalWaitTime : ℕ := 0
  totalTurnaroundTime : ℕ := 0
  averageWaitTime : ℕ := 0
  averageTurnaroundTime : ℕ := 0
  policyRuns : CourseSchedPolicy → ℕ := fun _ => 0
  lastPolicyName : String := "FCFS"

structure CourseScheduler where
  tasks : List CourseSchedulerTask := []
  summary : CourseSchedulerSummary := {}

/-- A stretch of time in which one task runs. -/
structure RunSlice where
  (index start length : ℕ)
deriving DecidableEq

namespace CourseScheduler

/-- `course_scheduler_init`. -/
def init : CourseScheduler := {}

variable (scheduler : CourseScheduler)

/-- `course_scheduler_add_task`. -/
def addTask (pid arrivalTime burstTime : ℕ) : CourseScheduler × Bool :=
  if pid = 0 ∨ burstTime = 0 ∨ courseSchedulerMaxTasks ≤ scheduler.tasks.length then
    (scheduler, false)
  else
    let task : CourseSchedulerTask :=
      { used := true, pid, arrivalTime, burstTime, remainingTime := burstTime }
    ({ scheduler with tasks := scheduler.tasks ++ [task] }, true)

def task (index : ℕ) : CourseSchedulerTask := scheduler.tasks.getD index {}

def setTask (index : ℕ) (change : CourseSchedulerTask → CourseSchedulerTask) : CourseScheduler :=
  { scheduler with tasks := scheduler.tasks.modify index change }

/-- `reset_runtime_fields`. -/
def resetRuntimeFields : CourseScheduler :=
  { scheduler with
    tasks := scheduler.tasks.map fun task =>
      { task with remainingTime := task.burstTime, completionTime := 0, vruntime := 0 } }

/-- `record_context_switch`. -/
def recordContextSwitch (cycleCost : ℕ) : CourseScheduler :=
  { scheduler with
    summary := { scheduler.summary with
      contextSwitches := uint32 (scheduler.summary.contextSwitches + 1)
      lastSwitchCycleCost := cycleCost
      totalSwitchCycleCost := uint32 (scheduler.summary.totalSwitchCycleCost + cycleCost) } }

/-- `all_tasks_complete`. -/
def allTasksComplete : Bool := scheduler.tasks.all fun task => task.remainingTime == 0

/-- `next_arrival_time`. -/
def nextArrivalTime (now : ℕ) : ℕ :=
  scheduler.tasks.foldl
    (fun next task =>
      if task.remainingTime ≠ 0 ∧ now < task.arrivalTime ∧ task.arrivalTime < next then
        task.arrivalTime
      else next)
    uint32Max

/-- `task_ready`. -/
def taskReady (task : CourseSchedulerTask) (now : ℕ) : Bool :=
  task.remainingTime != 0 && decide (task.arrivalTime ≤ now)

/-- The loop of `pick_fcfs` and `pick_cfs_lite`; nothing is picked for
`COURSE_SCHEDULER_MAX_TASKS`. -/
def pick (better : CourseSchedulerTask → CourseSchedulerTask → Bool) (now : ℕ) : Option ℕ :=
  (List.range scheduler.tasks.length).foldl
    (fun best index =>
      if !taskReady (scheduler.task index) now then best
      else
        match best with
        | none => some index
        | some old =>
          if better (scheduler.task index) (scheduler.task old) then some index else some old)
    none

def pickFcfs (now : ℕ) : Option ℕ :=
  scheduler.pick
    (fun task best =>
      task.arrivalTime < best.arrivalTime ||
        task.arrivalTime == best.arrivalTime && decide (task.pid < best.pid))
    now

def pickCfsLite (now : ℕ) : Option ℕ :=
  scheduler.pick
    (fun task best =>
      task.vruntime < best.vruntime ||
        task.vruntime == best.vruntime && decide (task.arrivalTime < best.arrivalTime) ||
        task.vruntime == best.vruntime && task.arrivalTime == best.arrivalTime &&
          decide (task.pid < best.pid))
    now

end CourseScheduler

/-- The variables of a main loop; only round robin uses the queue. -/
structure OfflineState where
  scheduler : CourseScheduler
  now : ℕ := 0
  queue : List ℕ := []
  discovered : ℕ → Bool := fun _ => false

namespace OfflineState

variable (state : OfflineState)

/-- The jump to the next arrival; there may be none. -/
def jump : Option OfflineState :=
  let next := state.scheduler.nextArrivalTime state.now
  if next = uint32Max then none else some { state with now := next }

/-- One round of `run_fcfs`. -/
def fcfsTurn : Option (OfflineState × List RunSlice) :=
  match state.scheduler.pickFcfs state.now with
  | none => state.jump.map fun state => (state, [])
  | some index =>
    let runFor := (state.scheduler.task index).remainingTime
    let now := uint32 (state.now + runFor)
    let scheduler := (state.scheduler.recordContextSwitch runFor).setTask index fun task =>
      { task with remainingTime := 0, completionTime := now }
    some ({ state with scheduler, now }, [{ index, start := state.now, length := runFor }])

/-- One round of `run_cfs_lite`. -/
def cfsLiteTurn (timeSlice : ℕ) : Option (OfflineState × List RunSlice) :=
  match state.scheduler.pickCfsLite state.now with
  | none => state.jump.map fun state => (state, [])
  | some index =>
    let remaining := (state.scheduler.task index).remainingTime
    let runFor := if remaining < timeSlice then remaining else timeSlice
    let now := uint32 (state.now + runFor)
    let scheduler := (state.scheduler.recordContextSwitch runFor).setTask index fun task =>
      { task with
        remainingTime := task.remainingTime - runFor
        vruntime := uint32 (task.vruntime + runFor)
        completionTime := if task.remainingTime - runFor = 0 then now else task.completionTime }
    some ({ state with scheduler, now }, [{ index, start := state.now, length := runFor }])

/-- `rr_enqueue_arrivals`. -/
def enqueueArrivals : OfflineState :=
  (List.range state.scheduler.tasks.length).foldl
    (fun state index =>
      if !state.discovered index && CourseScheduler.taskReady (state.scheduler.task index)
        state.now &&
          !state.queue.contains index then
        { state with
          queue := state.queue ++ [index]
          discovered := Function.update state.discovered index true }
      else state)
    state

/-- The task that `rr_pop` took from the queue runs for some time. -/
def runTask (runFor index : ℕ) (queue : List ℕ) : OfflineState :=
  { state with
    scheduler := (state.scheduler.recordContextSwitch runFor).setTask index fun task =>
      { task with remainingTime := task.remainingTime - runFor }
    now := uint32 (state.now + runFor)
    queue }

/-- The end of a round of `run_rr`: the task is complete or preempted. -/
def settleTask (index : ℕ) : OfflineState :=
  if (state.scheduler.task index).remainingTime = 0 then
    { state with
      scheduler := state.scheduler.setTask index fun task =>
        { task with completionTime := state.now } }
  else
    { state with
      scheduler := { state.scheduler with
        summary := { state.scheduler.summary with
          preemptCount := uint32 (state.scheduler.summary.preemptCount + 1) } }
      queue := state.queue ++ [index] }

/-- The part of a round of `run_rr` after `rr_pop`. -/
def serve (timeSlice index : ℕ) (queue : List ℕ) : OfflineState × List RunSlice :=
  let remaining := (state.scheduler.task index).remainingTime
  let runFor := if remaining < timeSlice then remaining else timeSlice
  ((state.runTask runFor index queue).enqueueArrivals.settleTask index,
    [{ index, start := state.now, length := runFor }])

/-- One round of `run_rr`. -/
def rrTurn (timeSlice : ℕ) : Option (OfflineState × List RunSlice) :=
  let filled := state.enqueueArrivals
  match if filled.queue.isEmpty then filled.jump.map enqueueArrivals else some filled with
  | none => none
  | some ready =>
    match ready.queue with
    | [] => none
    | index :: queue => some (ready.serve timeSlice index queue)

end OfflineState

namespace CourseScheduler

variable (fuel : ℕ) (scheduler : CourseScheduler)

/-- The result of a main loop: whether it succeeded, the scheduler and the slices. -/
abbrev LoopResult := Option (Bool × CourseScheduler × List RunSlice)

/-- A main loop over the rounds of a policy. -/
def runLoop (turn : OfflineState → Option (OfflineState × List RunSlice)) : LoopResult :=
  (Loops.turnLoop (fun state => state.scheduler.allTasksComplete) turn fuel
    { scheduler := scheduler } []).map fun (ok, state, slices) => (ok, state.scheduler, slices)

def runFcfs : LoopResult := scheduler.runLoop fuel OfflineState.fcfsTurn

def runRr (timeSlice : ℕ) : LoopResult :=
  if timeSlice = 0 then some (false, scheduler, [])
  else scheduler.runLoop fuel fun state => state.rrTurn timeSlice

def runCfsLite (timeSlice : ℕ) : LoopResult :=
  if timeSlice = 0 then some (false, scheduler, [])
  else scheduler.runLoop fuel fun state => state.cfsLiteTurn timeSlice

end CourseScheduler

def CourseSchedulerTask.turnaround (task : CourseSchedulerTask) : ℕ := uint32Sub task.completionTime task.arrivalTime

def CourseSchedulerTask.wait (task : CourseSchedulerTask) : ℕ := uint32Sub task.turnaround task.burstTime

namespace CourseScheduler

variable (scheduler : CourseScheduler)

/-- `update_wait_turnaround`. -/
def updateWaitTurnaround : CourseScheduler :=
  let totalWaitTime := scheduler.tasks.foldl (fun total task => uint32 (total + task.wait)) 0
  let totalTurnaroundTime :=
    scheduler.tasks.foldl (fun total task => uint32 (total + task.turnaround)) 0
  let summary := { scheduler.summary with totalWaitTime, totalTurnaroundTime }
  if scheduler.tasks.length ≠ 0 then
    { scheduler with
      summary := { summary with
        averageWaitTime := totalWaitTime / scheduler.tasks.length
        averageTurnaroundTime := totalTurnaroundTime / scheduler.tasks.length } }
  else { scheduler with summary }

/-- The fields that `course_scheduler_run` sets before its main loop. -/
def beforeRun (policy : CourseSchedPolicy) (timeSlice : ℕ) : CourseScheduler :=
  { scheduler.resetRuntimeFields with
    summary := { scheduler.summary with
      policy
      contextSwitches := 0
      lastSwitchCycleCost := 0
      totalSwitchCycleCost := 0
      timeSlice := if policy = .fcfs then 0 else timeSlice
      preemptCount := 0
      totalWaitTime := 0
      totalTurnaroundTime := 0
      averageWaitTime := 0
      averageTurnaroundTime := 0
      lastPolicyName := courseSchedulerPolicyName policy } }

def runPolicy (fuel : ℕ) (policy : CourseSchedPolicy) (timeSlice : ℕ) : LoopResult :=
  match policy with
  | .fcfs => scheduler.runFcfs fuel
  | .rr => scheduler.runRr fuel timeSlice
  | .cfsLite => scheduler.runCfsLite fuel timeSlice
  | .count => some (false, scheduler, [])

def countRun (policy : CourseSchedPolicy) : CourseScheduler :=
  { scheduler with
    summary := { scheduler.summary with
      policyRuns := Function.update scheduler.summary.policyRuns policy
        (uint32 (scheduler.summary.policyRuns policy + 1)) } }

/-- `course_scheduler_run`. -/
def run (fuel : ℕ) (policy : CourseSchedPolicy) (timeSlice : ℕ) : LoopResult :=
  if scheduler.tasks.length = 0 ∨ policy = .count then some (false, scheduler, [])
  else
    match (scheduler.beforeRun policy timeSlice).runPolicy fuel policy timeSlice with
    | none => none
    | some (false, scheduler, slices) => some (false, scheduler, slices)
    | some (true, scheduler, slices) =>
      some (true, (scheduler.countRun policy).updateWaitTurnaround, slices)

end CourseScheduler

end VisualCpu
