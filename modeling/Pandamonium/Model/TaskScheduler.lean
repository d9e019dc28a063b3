import Pandamonium.Library.Dict
import Pandamonium.Library.TransitionSystem

/-!
# A task that is triggered by events

The event bus counts the events that match a task and, at its threshold, sets the task due and asks
the scheduler to run it.  The scheduler keeps the task in `_executing` while an execution of it is
queued or runs, and dispatches it at a tick when it is due and not there.  Each way an execution
ends writes `next_run` in its own way, or not at all.  All of this runs on one event loop, so a step
is what happens between two points where a coroutine waits.
-/

set_option autoImplicit false

namespace Pandamonium.TaskScheduler

open Pandamonium.Library

inductive TaskStatus
  | active | paused
  deriving DecidableEq, Repr

/-- What is stored of a `ScheduledTask` whose `trigger_type` is `"event"`; times are in seconds. -/
structure Task where
  status : TaskStatus
  triggerCount : Option Int
  triggerCounter : Int
  nextRun : Option ℕ
  deriving DecidableEq, Repr

/-- `task.trigger_count or 1` -/
def Task.threshold (task : Task) : Int :=
  match task.triggerCount with
  | none => 1
  | some n => if n = 0 then 1 else n

/-- `status == "active"` and `next_run <= now` -/
def Task.due (task : Task) (now : ℕ) : Bool :=
  decide (task.status = .active) && task.nextRun.any fun t => decide (t ≤ now)

inductive Stage
  /-- The run is in the table, and waits for a slot. -/
  | queued
  /-- Before the interactive quiet. -/
  | waiting
  /-- It runs, and its session has read this `next_run`. -/
  | running (loaded : Option ℕ)
  deriving DecidableEq, Repr

structure Execution where
  /-- It was forced: it takes no slot, is not held back by the foreground, and does not release the
  task. -/
  forced : Bool
  stage : Stage
  deriving DecidableEq, Repr

/-- How a running execution comes to its end. -/
inductive Outcome
  | succeeds
  /-- An action that reports a failure. -/
  | fails
  /-- `TaskNoop` -/
  | noop
  /-- `TaskDeferred`, with its `delay_seconds` -/
  | deferred (delaySeconds : ℕ)
  /-- It is cancelled because the foreground became active. -/
  | interrupted
  /-- It is cancelled from elsewhere. -/
  | cancelled
  /-- Any other exception. -/
  | raises
  deriving DecidableEq, Repr

/-- What has happened to the task. -/
inductive Happening
  /-- Its counter has reached the threshold. -/
  | crossed
  /-- A tick has dispatched it. -/
  | dispatched
  | started (id : ℕ)
  | ended (id : ℕ)
  /-- An execution is to be done later. -/
  | putOff
  deriving DecidableEq, Repr

structure State where
  task : Task
  /-- The task is in `_executing`. -/
  executing : Bool
  executions : Dict ℕ Execution
  /-- How many executions there have been. -/
  created : ℕ
  /-- `_task_defer_counts` -/
  deferCount : ℕ
  /-- What has happened, the last first. -/
  history : List Happening

/-- `asyncio.create_task(self._execute_task(task_id))` -/
def State.launch (forced : Bool) (s : State) : State :=
  { s with
    executions := s.executions.set s.created ⟨forced, .queued⟩
    created := s.created + 1 }

/-- `run_task_now`; a chained task is run in the same way. -/
def runTaskNow (force : Bool) (s : State) : State :=
  if force then s.launch true
  else if s.executing then s
  else { s with executing := true }.launch false

/-- `_handle_event`, in a process that has a scheduler or has none. -/
def handleEvent (now : ℕ) (wired : Bool) (s : State) : State :=
  if s.task.status = .active then
    if s.task.threshold ≤ s.task.triggerCounter + 1 then
      let s := { s with
        task := { s.task with triggerCounter := 0, nextRun := some now }
        history := .crossed :: s.history }
      if wired then runTaskNow false s else s
    else { s with task := { s.task with triggerCounter := s.task.triggerCounter + 1 } }
  else s

/-- `_check_due_tasks` -/
def checkDueTasks (now : ℕ) (foreground : Bool) (s : State) : State :=
  if s.task.due now ∧ s.executing = false then
    if foreground then { s with task := { s.task with nextRun := some (now + 15 * 60) } }
    else { s with executing := true, history := .dispatched :: s.history }.launch false
  else s

/-- The execution is over: `_executing.discard(task_id)` where it releases the task. -/
def State.leave (id : ℕ) (execution : Execution) (s : State) : State :=
  { s with
    executions := s.executions.erase id
    executing := execution.forced && s.executing }

/-- The run is set running, and the task is read again. -/
def State.start (id : ℕ) (execution : Execution) (s : State) : State :=
  { s with
    executions := s.executions.set id { execution with stage := .running s.task.nextRun }
    history := .started id :: s.history }

/-- `_execute_task_locked` up to where it waits, with whether the owner may run the action. -/
def admitRun (id : ℕ) (execution : Execution) (allowed : Bool) (s : State) : State :=
  if s.task.status = .active then
    if allowed then
      if execution.forced then s.start id execution
      else { s with executions := s.executions.set id { execution with stage := .waiting } }
    else
      { s with task := { s.task with status := .paused, nextRun := none } }.leave id execution
  else s.leave id execution

/-- `_execute_task_locked` from the end of the run on, where the session has read `loaded`. -/
def finish (id : ℕ) (execution : Execution) (loaded : Option ℕ) (outcome : Outcome) (now : ℕ)
    (s : State) : State :=
  let ended := { s with history := .ended id :: s.history }.leave id execution
  let putOff := { s with history := .putOff :: s.history }.leave id execution
  -- `task.next_run = None`, which the session does not write where it has read `None`
  let cleared := if loaded = none then s.task.nextRun else none
  match outcome with
  | .succeeds => { ended with task := { s.task with nextRun := cleared }, deferCount := 0 }
  | .fails => { ended with task := { s.task with nextRun := cleared }, deferCount := 0 }
  | .noop => { ended with task := { s.task with nextRun := cleared } }
  | .cancelled => { ended with task := { s.task with nextRun := cleared } }
  | .interrupted => { putOff with task := { s.task with nextRun := some (now + 15 * 60) } }
  | .deferred delaySeconds =>
    let count := s.deferCount + 1
    let delaySeconds := if delaySeconds = 0 then 20 * 60 else delaySeconds
    let delaySeconds := if 2 < count then max delaySeconds (40 * 60) else delaySeconds
    { putOff with
      task := { s.task with nextRun := some (now + delaySeconds) }, deferCount := count }
  -- Only a task with a schedule gets another `next_run`.
  | .raises => ended

/-- An execution that has not started is cancelled, or raises. -/
def drop (id : ℕ) (execution : Execution) (cancelled : Bool) (now : ℕ) (s : State) : State :=
  let dropped := { s with history := .putOff :: s.history }.leave id execution
  -- `_defer_immediately_due_task`
  if cancelled ∧ s.task.due now then
    { dropped with task := { s.task with nextRun := some (now + 15 * 60) } }
  else dropped

inductive Label
  /-- A matching event. -/
  | event (now : ℕ) (wired : Bool)
  | tick (now : ℕ) (foreground : Bool)
  /-- The task is run by hand, or as the next of a chain. -/
  | runNow (force : Bool)
  | admits (id : ℕ) (allowed : Bool)
  /-- The interface is quiet. -/
  | starts (id : ℕ)
  /-- The session of the execution commits, and reads the task again. -/
  | rereads (id : ℕ)
  | ends (id : ℕ) (outcome : Outcome) (now : ℕ)
  | drops (id : ℕ) (cancelled : Bool) (now : ℕ)
  deriving DecidableEq, Repr

def step (s : State) : Label → Option State
  | .event now wired => some (handleEvent now wired s)
  | .tick now foreground => some (checkDueTasks now foreground s)
  | .runNow force => some (runTaskNow force s)
  | .admits id allowed =>
    match s.executions.get? id with
    | some ⟨forced, .queued⟩ => some (admitRun id ⟨forced, .queued⟩ allowed s)
    | _ => none
  | .starts id =>
    match s.executions.get? id with
    | some ⟨forced, .waiting⟩ => some (s.start id ⟨forced, .waiting⟩)
    | _ => none
  | .rereads id =>
    match s.executions.get? id with
    | some ⟨forced, .running _⟩ =>
      some { s with executions := s.executions.set id ⟨forced, .running s.task.nextRun⟩ }
    | _ => none
  | .ends id outcome now =>
    match s.executions.get? id with
    | some ⟨forced, .running loaded⟩ =>
      -- Nothing watches the foreground for an execution that was forced.
      if forced ∧ outcome = .interrupted then none
      else some (finish id ⟨forced, .running loaded⟩ loaded outcome now s)
    | _ => none
  | .drops id cancelled now =>
    match s.executions.get? id with
    | some ⟨_, .running _⟩ => none
    | some execution => some (drop id execution cancelled now s)
    | none => none

/-- The task was added, or the process was started, and it is not due. -/
def idle (triggerCount : Option Int) (triggerCounter : Int) : State where
  task := ⟨.active, triggerCount, triggerCounter, none⟩
  executing := false
  executions := Dict.empty
  created := 0
  deferCount := 0
  history := []

def scheduler : TransitionSystem State Label where
  init := fun s => ∃ triggerCount triggerCounter, s = idle triggerCount triggerCounter
  step := step

end Pandamonium.TaskScheduler

/-!
## Executions of scheduled tasks

The scheduler keeps the tasks that are queued or run in `_executing`, and begins an execution of a
task that is not there, unless it is forced.  The sections under `_executing_lock` wait for nothing,
so the lock is never held where a coroutine gives way; a step is what happens between two points
where one does.
-/

namespace Pandamonium.TaskExecutions

open Pandamonium.Library

/-- An execution that was created and is not over. -/
structure Execution where
  taskId : String
  /-- It does not release the task: `release_executing=False`. -/
  forced : Bool
  /-- Its coroutine has begun. -/
  started : Bool
  /-- `cancel()` was called on it. -/
  cancelRequested : Bool
  deriving DecidableEq, Repr

structure State where
  /-- `_executing` -/
  executing : List String
  /-- `_task_handles` -/
  taskHandles : Dict String ℕ
  executions : Dict ℕ Execution
  /-- How many executions there have been. -/
  created : ℕ

/-- `asyncio.create_task(self._execute_task(task_id))` -/
def createTask (taskId : String) (forced : Bool) (s : State) : State :=
  { s with
    executions := s.executions.set s.created ⟨taskId, forced, false, false⟩
    created := s.created + 1 }

/-- The task is put in `_executing` and an execution of it is created, if it was not there. -/
def dispatch (s : State) (taskId : String) : State :=
  if taskId ∈ s.executing then s
  else createTask taskId false { s with executing := taskId :: s.executing }

/-- `_check_due_tasks`, for the tasks that the query gives. -/
def checkDueTasks (due : List String) (foregroundActive : Bool) (s : State) : State :=
  if foregroundActive then s else due.foldl dispatch s

/-- `run_task_now`; `_run_chained` does the same without force. -/
def runTaskNow (taskId : String) (force : Bool) (s : State) : State :=
  if force then createTask taskId true s else dispatch s taskId

/-- `_execute_task` begins. -/
def start (n : ℕ) (execution : Execution) (s : State) : State :=
  { s with
    executions := s.executions.set n { execution with started := true }
    taskHandles := s.taskHandles.set execution.taskId n }

/-- The `finally` blocks of an execution. -/
def finish (n : ℕ) (execution : Execution) (s : State) : State :=
  let handles :=
    if s.taskHandles.get? execution.taskId = some n then s.taskHandles.erase execution.taskId
    else s.taskHandles
  let executing :=
    if execution.forced then s.executing
    else s.executing.filter fun taskId => decide (taskId ≠ execution.taskId)
  { s with taskHandles := handles, executing, executions := s.executions.erase n }

/-- `cancel()` on the handle of the task, if it has one. -/
def cancelHandle (s : State) (taskId : String) : State :=
  match s.taskHandles.get? taskId with
  | none => s
  | some n =>
    match s.executions.get? n with
    | none => s
    | some execution =>
      { s with executions := s.executions.set n { execution with cancelRequested := true } }

/-- `stop_task` -/
def stopTask (taskId : String) (s : State) : State :=
  let s := cancelHandle s taskId
  { s with executing := s.executing.filter fun taskId' => decide (taskId' ≠ taskId) }

/-- `stop_background_tasks_for_foreground` -/
def stopBackgroundTasks (s : State) : State := s.executing.foldl cancelHandle s

inductive Label
  | checkDueTasks (due : List String) (foregroundActive : Bool)
  | runTaskNow (taskId : String) (force : Bool)
  | stopTask (taskId : String)
  | stopBackgroundTasks
  /-- An execution begins to run. -/
  | starts (n : ℕ)
  /-- An execution ends: it is complete, fails, or the cancellation has come through. -/
  | ends (n : ℕ)
  deriving DecidableEq, Repr

def step (s : State) : Label → Option State
  | .checkDueTasks due foregroundActive => some (checkDueTasks due foregroundActive s)
  | .runTaskNow taskId force => some (runTaskNow taskId force s)
  | .stopTask taskId => some (stopTask taskId s)
  | .stopBackgroundTasks => some (stopBackgroundTasks s)
  | .starts n =>
    match s.executions.get? n with
    | some execution => if execution.started then none else some (start n execution s)
    | none => none
  | .ends n =>
    match s.executions.get? n with
    | some execution => if execution.started then some (finish n execution s) else none
    | none => none

/-- No execution was created. -/
def State.idle : State := ⟨[], Dict.empty, Dict.empty, 0⟩

def scheduler : TransitionSystem State Label where
  init := fun s => s = .idle
  step := step

end Pandamonium.TaskExecutions
