import Pandamonium.Library.Dict
import Pandamonium.Library.TransitionSystem

/-!
# The worker broker

`agent_worker_broker.py` keeps read-only worker tasks in a file of its own.  It differs from
the voice agent in what it writes: events are numbered after the last one, a status is
reconciled under an event id of its own, and nothing but `start_task` writes a copy of a task.

The first part of the module is the file, the second one the coroutines on one event loop; a
label is one uninterrupted stretch of a coroutine, as for the voice agent.
-/

set_option autoImplicit false

/-!
## Worker tasks

What `jarvis_agent.py` and `agent_worker_broker.py` have in common: the statuses of a
worker task and the kinds of events in its log.
-/

namespace Pandamonium

/-- The `status` of a task.  A remote worker may answer with a text of its own. -/
inductive TaskStatus
  | queued
  | running
  | waiting
  | waitingApproval
  | completed
  | failed
  | cancelled
  | blocked
  | other (text : String)
  deriving DecidableEq, Repr

/-- The status as a text. -/
def TaskStatus.text : TaskStatus → String
  | .queued => "queued"
  | .running => "running"
  | .waiting => "waiting"
  | .waitingApproval => "waiting_approval"
  | .completed => "completed"
  | .failed => "failed"
  | .cancelled => "cancelled"
  | .blocked => "blocked"
  | .other text => text

/-- `TERMINAL` -/
def TaskStatus.terminal : TaskStatus → Bool
  | .completed | .failed | .cancelled | .blocked => true
  | _ => false

/-- The `type` of an event. -/
inductive EventType
  | accepted
  | progress
  | toolActivity
  | artifact
  | question
  | approvalRequired
  | result
  | error
  | cancelled
  | other (text : String)
  deriving DecidableEq, Repr

/-- `TERMINAL_EVENTS` -/
def EventType.terminal : EventType → Bool
  | .result | .error | .cancelled => true
  | _ => false

/-- The event a remote status is reconciled to, for the statuses that are. -/
def TaskStatus.reconciledType : TaskStatus → Option EventType
  | .completed => some .result
  | .failed => some .error
  | .cancelled => some .cancelled
  | _ => none

/-- `bool(text)` of an optional text. -/
def truthyText : Option String → Bool
  | none => false
  | some text => text != ""

/-- `text[:n]` -/
def truncate (n : ℕ) (text : String) : String := String.ofList (text.toList.take n)

end Pandamonium

namespace Pandamonium.Broker

open Pandamonium.Library

/-- A persisted event. -/
structure Event where
  seq : ℕ
  eventId : String
  type : EventType
  text : String
  /-- `metadata["codex_thread_id"]` -/
  codexThreadId : Option String
  createdAt : ℕ
  deriving DecidableEq

/-- An event as it reaches `_append_event`. -/
structure Incoming where
  eventId : Option String
  type : EventType
  text : Option String
  codexThreadId : Option String

structure Task where
  taskId : String
  owner : String
  sessionId : String
  worker : String
  workspace : String
  remoteTaskId : Option String
  codexThreadId : Option String
  workerSessionKey : Option String
  status : TaskStatus
  result : Option String
  error : Option String
  events : List Event
  createdAt : ℕ
  updatedAt : ℕ

structure Binding where
  codexThreadId : Option String
  workerSessionKey : Option String

/-- The file. -/
structure Store where
  tasks : Dict String Task
  bindings : Dict String Binding

def Store.empty : Store := ⟨.empty, .empty⟩

structure Adapter where
  enabled : Bool
  label : String

/-- What the module reads from its installation. -/
structure Config where
  /-- The owner of a chat session, `none` where there is no such session. -/
  sessionOwner : String → Option String
  adapters : String → Option Adapter
  strip : String → String

variable (cfg : Config)

/-- `WORKER_IDS` -/
def workerIds : List String := ["pc-codex", "hermes", "vps-codex"]

/-! ## The file -/

/-- `_session_for_owner` passes. -/
def sessionForOwner (sessionId owner : String) : Bool :=
  decide (cfg.strip owner ≠ "") && decide (cfg.sessionOwner sessionId = some (cfg.strip owner))

/-- `require_task_owner` -/
def requireTaskOwner (s : Store) (taskId owner : String) : Option Task :=
  let identity := cfg.strip owner
  if identity = "" then none
  else (s.tasks.get? taskId).filter fun task =>
    decide (task.owner = identity) && sessionForOwner cfg task.sessionId identity

/-- `_save_task` -/
def saveTask (s : Store) (task : Task) : Store :=
  { s with tasks := s.tasks.set task.taskId task }

/-- `_binding_key` -/
def bindingKey (owner sessionId worker workspace : String) : String :=
  owner ++ ":" ++ sessionId ++ ":" ++ worker ++ ":" ++ workspace

/-- `_save_binding`: values that are not truthy are left out. -/
def saveBinding (s : Store) (task : Task) (codexThreadId workerSessionKey : Option String) : Store :=
  if truthyText codexThreadId || truthyText workerSessionKey then
    let key := bindingKey task.owner task.sessionId task.worker task.workspace
    let old := (s.bindings.get? key).getD { codexThreadId := none, workerSessionKey := none }
    let binding : Binding :=
      { codexThreadId := if truthyText codexThreadId then codexThreadId else old.codexThreadId
        workerSessionKey :=
          if truthyText workerSessionKey then workerSessionKey else old.workerSessionKey }
    { s with bindings := s.bindings.set key binding }
  else s

/-- The types of events that `_append_event` takes. -/
def acceptsType : EventType → Bool
  | .artifact | .other _ => false
  | _ => true

/-- The number of the next event. -/
def nextSeq (events : List Event) : ℕ :=
  match events.getLast? with
  | none => 0
  | some event => event.seq + 1

/-- The status, the result and the error of a task after an event. -/
def Task.observe (task : Task) (event : Event) : Task :=
  match event.type with
  | .result => { task with status := .completed, result := some event.text, error := none }
  | .error => { task with status := .failed, error := some event.text }
  | .cancelled => { task with status := .cancelled }
  | .question => { task with status := .waiting }
  | .approvalRequired => { task with status := .waitingApproval }
  | .accepted | .progress | .toolActivity => { task with status := .running }
  | .artifact | .other _ => task

/-- The task with an event appended. -/
def Task.record (task : Task) (event : Event) : Task :=
  let task := { task with events := task.events ++ [event] }.observe event
  { task with
    codexThreadId :=
      if truthyText event.codexThreadId then event.codexThreadId else task.codexThreadId
    updatedAt := event.createdAt }

/-- What `_append_event` draws: the time and the id of a new event. -/
structure Occasion where
  now : ℕ
  eventId : String

/-- `event_id` in `_append_event` -/
def Incoming.id (e : Incoming) (o : Occasion) : String :=
  truncate 200 ((e.eventId.filter (· ≠ "")).getD o.eventId)

/-- The event as it is stored. -/
def storedEvent (task : Task) (e : Incoming) (o : Occasion) : Event :=
  { seq := nextSeq task.events
    eventId := e.id o
    type := e.type
    text := truncate 12000 (e.text.getD "")
    codexThreadId := e.codexThreadId
    createdAt := o.now }

/-- Whether `_append_event` returns `False` for a task. -/
def ignoresEvent (task : Task) (e : Incoming) (o : Occasion) : Bool :=
  task.status.terminal || (task.events.any fun event => event.eventId == e.id o) ||
    !acceptsType e.type

/-- `_append_event` -/
def appendEvent (s : Store) (taskId : String) (e : Incoming) (o : Occasion) : Store :=
  match s.tasks.get? taskId with
  | none => s
  | some task =>
    if ignoresEvent task e o then s
    else
      let event := storedEvent task e o
      saveBinding (saveTask s (task.record event)) task event.codexThreadId none

/-- An event that the broker makes itself. -/
def brokerEvent (eventId : String) (type : EventType) (text : String) : Incoming :=
  { eventId := some eventId, type := type, text := some text, codexThreadId := none }

/-! ## `start_task` -/

/-- The arguments of `start_task` that the broker reads. -/
structure StartRequest where
  worker : String
  sessionId : String
  workspace : String
  permissionMode : String
  approved : Bool
  owner : String

/-- What `adapter.start` answers; a key that is absent leaves the field of the task. -/
structure RemoteStart where
  remoteTaskId : String
  status : TaskStatus
  codexThreadId : Option (Option String)
  workerSessionKey : Option String

/-- The checks of `start_task`: the adapter, `none` where it raises. -/
def startChecks (req : StartRequest) : Option Adapter :=
  if !sessionForOwner cfg req.sessionId (cfg.strip req.owner) then none
  else if req.worker ∉ workerIds then none
  else if req.permissionMode ≠ "read_only" ∨ req.approved = true then none
  else (cfg.adapters req.worker).filter Adapter.enabled

/-- The record that `start_task` creates. -/
def queuedTask (s : Store) (req : StartRequest) (taskId : String) (now : ℕ) : Task :=
  let owner := cfg.strip req.owner
  let binding := s.bindings.get? (bindingKey owner req.sessionId req.worker req.workspace)
  { taskId := taskId
    owner := owner
    sessionId := req.sessionId
    worker := req.worker
    workspace := req.workspace
    remoteTaskId := none
    codexThreadId := binding.bind Binding.codexThreadId
    workerSessionKey := binding.bind Binding.workerSessionKey
    status := .queued
    result := none
    error := none
    events := []
    createdAt := now
    updatedAt := now }

/-- `task.update(remote)` -/
def Task.update (task : Task) (remote : RemoteStart) : Task :=
  { task with
    remoteTaskId := some remote.remoteTaskId
    status := remote.status
    codexThreadId := remote.codexThreadId.getD task.codexThreadId
    workerSessionKey := remote.workerSessionKey.or task.workerSessionKey }

/-- `start_task` once the adapter has accepted the task. -/
def acceptStart (s : Store) (task : Task) (remote : RemoteStart) (label : String) (o : Occasion) :
    Store :=
  let task := task.update remote
  let s := saveTask s task
  let s := appendEvent s task.taskId
    (brokerEvent ("accepted:" ++ task.taskId) .accepted (label ++ " accepted the task.")) o
  saveBinding s task task.codexThreadId task.workerSessionKey

/-- `start_task` once the adapter has raised an `Exception`. -/
def failStart (s : Store) (task : Task) (o : Occasion) : Store :=
  appendEvent s task.taskId
    (brokerEvent ("start-failed:" ++ task.taskId) .error
      "The configured worker could not accept the task.") o

/-! ## `refresh_task` and `task_action` -/

/-- What `adapter.status` answers. -/
structure RemoteStatus where
  status : TaskStatus
  output : Option String
  result : Option String

/-- `_terminal_event` -/
def terminalEvent (task : Task) (remote : RemoteStatus) : Option Incoming :=
  let event type text :=
    some (brokerEvent ("reconciled:" ++ task.taskId ++ ":" ++ remote.status.text) type text)
  match remote.status with
  | .completed =>
    let given := [remote.output, remote.result].find? truthyText
    event .result ((given.bind id).getD "Worker completed the task.")
  | .cancelled => event .cancelled "Worker cancelled the task."
  | .failed => event .error "Worker could not complete the task."
  | _ => none

/-- `refresh_task` once the adapter has answered. -/
def applyStatus (s : Store) (task : Task) (remote : RemoteStatus) (o : Occasion) : Store :=
  match terminalEvent task remote with
  | none => s
  | some e => appendEvent s task.taskId e o

inductive Action
  | steer
  | reply
  /-- `approval`, with the one choice that is let through. -/
  | deny
  | cancel
  deriving DecidableEq

/-! ## Runs -/

/-- What a suspended call waits for, with the locals that it still needs. -/
inductive Frame
  /-- `start_task`, at `await adapter.start`. -/
  | starting (task : Task) (label : String)
  /-- `refresh_task`, at `await adapter.status`. -/
  | refreshing (task : Task)
  /-- `task_action`, at the `await` of the adapter's method. -/
  | acting (task : Task) (owner : String) (action : Action)

/-- Where the mirror of a task is. -/
inductive Mirror
  /-- At the head of an iteration of the `for` loop. -/
  | attempt (n : ℕ)
  /-- At `async for event in adapter.events(task)`. -/
  | streaming (n : ℕ)
  /-- At the head of the `while` loop. -/
  | reconciling
  /-- In `refresh_task`, at `await adapter.status`. -/
  | polling (task : Task)
  /-- Cancelled before its first step, so that its `finally` is not run. -/
  | dead

structure State where
  store : Store
  calls : Dict ℕ Frame
  /-- `_MIRRORS` -/
  mirrors : Dict String Mirror

def State.initial : State := ⟨.empty, .empty, .empty⟩

inductive Label
  | start (call : ℕ) (req : StartRequest) (taskId : String) (now : ℕ)
  | startAnswered (call : ℕ) (remote : RemoteStart) (o : Occasion)
  /-- `adapter.start` raises an `Exception`. -/
  | startRaised (call : ℕ) (o : Occasion)
  | refresh (call : ℕ) (taskId owner : String)
  | statusAnswered (call : ℕ) (remote : RemoteStatus) (o : Occasion)
  | statusRaised (call : ℕ)
  | act (call : ℕ) (taskId owner : String) (action : Action)
  | actionAnswered (call : ℕ) (o : Occasion)
  | actionRaised (call : ℕ)
  /-- `CancelledError` is raised in a call where it waits. -/
  | cancelled (call : ℕ)
  /-- A mirror is scheduled at the head of one of its loops. -/
  | mirrorTurn (taskId : String)
  | mirrorEvent (taskId : String) (e : Incoming) (o : Occasion)
  | mirrorEnded (taskId : String)
  | mirrorRaised (taskId : String)
  | mirrorCancelled (taskId : String)
  | pollAnswered (taskId : String) (remote : RemoteStatus) (o : Occasion) (timeUp : Bool) (o' : Occasion)
  | pollRaised (taskId : String) (timeUp : Bool) (o : Occasion)

/-- The status of the persisted task, as the mirror asks for it. -/
def Store.terminal (s : Store) (taskId : String) : Bool :=
  ((s.tasks.get? taskId).map fun task => task.status.terminal).getD false

/-- The frame of a call. -/
def State.frame (s : State) (call : ℕ) : Option Frame := s.calls.get? call

def State.enter (s : State) (call : ℕ) (frame : Frame) : State :=
  { s with calls := s.calls.set call frame }

def State.leave (s : State) (call : ℕ) : State :=
  { s with calls := s.calls.erase call }

def State.setMirror (s : State) (taskId : String) (m : Mirror) : State :=
  { s with mirrors := s.mirrors.set taskId m }

def State.endMirror (s : State) (taskId : String) : State :=
  { s with mirrors := s.mirrors.erase taskId }

/-- `ensure_mirror` -/
def State.ensureMirror (s : State) (taskId : String) : State :=
  match s.store.tasks.get? taskId with
  | none => s
  | some task =>
    if task.status.terminal || (s.mirrors.get? taskId).isSome then s
    else s.setMirror taskId (.attempt 0)

/-- `STREAM_RETRY_LIMIT` -/
def streamRetryLimit : ℕ := 2

/-- `start_task`, up to the call of the adapter; the id is a new one. -/
def State.start (s : State) (call : ℕ) (req : StartRequest) (taskId : String) (now : ℕ) :
    Option State :=
  match startChecks cfg req with
  | none => none
  | some adapter =>
    if (s.store.tasks.get? taskId).isSome then none
    else
      let task := queuedTask cfg s.store req taskId now
      some ({ s with store := saveTask s.store task }.enter call (.starting task adapter.label))

/-- `refresh_task`, up to the call of the adapter. -/
def State.refresh (s : State) (call : ℕ) (taskId owner : String) : State :=
  match requireTaskOwner cfg s.store taskId owner with
  | none => s.leave call
  | some task =>
    if task.status.terminal then (s.leave call).ensureMirror taskId
    else s.enter call (.refreshing task)

/-- `task_action`, once the adapter has answered. -/
def State.acted (s : State) (call : ℕ) (task : Task) (owner : String) (action : Action)
    (o : Occasion) : State :=
  if action = .cancel then
    let store := appendEvent s.store task.taskId
      (brokerEvent ("cancel:" ++ task.taskId) .cancelled "Worker task cancelled.") o
    { s with store := store }.leave call
  else (s.ensureMirror task.taskId).refresh cfg call task.taskId owner

/-- `_mirror`, from the head of the `while` loop. -/
def State.reconcile (s : State) (taskId : String) : State :=
  match s.store.tasks.get? taskId with
  | none => s.endMirror taskId
  | some task =>
    if task.status.terminal then s.endMirror taskId
    else match requireTaskOwner cfg s.store taskId task.owner with
      | none => s.endMirror taskId
      | some task => s.setMirror taskId (.polling task)

/-- `_mirror`, after a stream that ended or broke. -/
def State.afterStream (s : State) (taskId : String) (n : ℕ) : State :=
  if n < streamRetryLimit then s.setMirror taskId (.attempt (n + 1)) else s.reconcile cfg taskId

/-- `_mirror`, from the head of an iteration of the `for` loop. -/
def State.stream (s : State) (taskId : String) (n : ℕ) : State :=
  match s.store.tasks.get? taskId with
  | none => s.endMirror taskId
  | some task =>
    if task.status.terminal ∨ (cfg.adapters task.worker).isNone then s.endMirror taskId
    else s.setMirror taskId (.streaming n)

/-- `_mirror`, when `refresh_task` has come back. -/
def State.afterPoll (s : State) (taskId : String) (timeUp : Bool) (o : Occasion) : State :=
  if (s.store.tasks.get? taskId).isNone ∨ s.store.terminal taskId then s.endMirror taskId
  else if timeUp then
    let store := appendEvent s.store taskId (brokerEvent ("stream-timeout:" ++ taskId) .error
      "Worker status could not be confirmed after the event stream ended.") o
    { s with store := store }.endMirror taskId
  else s.setMirror taskId .reconciling

/-- One stretch of one coroutine. -/
def step (s : State) : Label → Option State
  | .start call req taskId now =>
    if (s.frame call).isSome then none else s.start cfg call req taskId now
  | .startAnswered call remote o =>
    match s.frame call with
    | some (.starting task label) =>
      some (({ s with store := acceptStart s.store task remote label o }.leave call).ensureMirror
        task.taskId)
    | _ => none
  | .startRaised call o =>
    match s.frame call with
    | some (.starting task _) => some ({ s with store := failStart s.store task o }.leave call)
    | _ => none
  | .refresh call taskId owner =>
    if (s.frame call).isSome then none else some (s.refresh cfg call taskId owner)
  | .statusAnswered call remote o =>
    match s.frame call with
    | some (.refreshing task) =>
      some (({ s with store := applyStatus s.store task remote o }.leave call).ensureMirror task.taskId)
    | _ => none
  | .statusRaised call =>
    match s.frame call with
    | some (.refreshing task) => some ((s.leave call).ensureMirror task.taskId)
    | _ => none
  | .act call taskId owner action =>
    if (s.frame call).isSome then none
    else match requireTaskOwner cfg s.store taskId owner with
      | none => none
      | some task =>
        if task.status.terminal || (cfg.adapters task.worker).isNone then none
        else some (s.enter call (.acting task owner action))
  | .actionAnswered call o =>
    match s.frame call with
    | some (.acting task owner action) => some (s.acted cfg call task owner action o)
    | _ => none
  | .actionRaised call =>
    match s.frame call with
    | some (.acting _ _ _) => some (s.leave call)
    | _ => none
  | .cancelled call =>
    match s.frame call with
    | none => none
    | some _ => some (s.leave call)
  | .mirrorTurn taskId =>
    match s.mirrors.get? taskId with
    | some (.attempt n) => some (s.stream cfg taskId n)
    | some .reconciling => some (s.reconcile cfg taskId)
    | _ => none
  | .mirrorEvent taskId e o =>
    match s.mirrors.get? taskId with
    | some (.streaming _) =>
      if s.store.terminal taskId then some (s.endMirror taskId)
      else some { s with store := appendEvent s.store taskId e o }
    | _ => none
  | .mirrorEnded taskId =>
    match s.mirrors.get? taskId with
    | some (.streaming n) =>
      if s.store.terminal taskId then some (s.endMirror taskId)
      else some (s.afterStream cfg taskId n)
    | _ => none
  | .mirrorRaised taskId =>
    match s.mirrors.get? taskId with
    | some (.streaming n) => some (s.afterStream cfg taskId n)
    | _ => none
  | .mirrorCancelled taskId =>
    match s.mirrors.get? taskId with
    | none | some .dead => none
    | some (.attempt 0) => some (s.setMirror taskId .dead)
    | some _ => some (s.endMirror taskId)
  | .pollAnswered taskId remote o timeUp o' =>
    match s.mirrors.get? taskId with
    | some (.polling task) =>
      some (({ s with store := applyStatus s.store task remote o } : State).afterPoll taskId timeUp o')
    | _ => none
  | .pollRaised taskId timeUp o =>
    match s.mirrors.get? taskId with
    | some (.polling _) => some (s.afterPoll taskId timeUp o)
    | _ => none

/-- The broker, started with an empty file. -/
def machine : TransitionSystem State Label where
  init s := s = State.initial
  step := step cfg

/-- An installation with one worker. -/
def oneWorker : Config where
  sessionOwner sessionId := if sessionId = "chat" then some "ada" else none
  adapters worker := if worker = "hermes" then some { enabled := true, label := "Gordon" } else none
  strip := id

/-- A task for it. -/
def plainStart : StartRequest where
  worker := "hermes"
  sessionId := "chat"
  workspace := "lab"
  permissionMode := "read_only"
  approved := false
  owner := "ada"

/-- An answer of the adapter that accepts the task. -/
def plainAnswer : RemoteStart where
  remoteTaskId := "run-1"
  status := .queued
  codexThreadId := none
  workerSessionKey := some "key"

/-- The circumstances of an event. -/
def plainOccasion (now : ℕ) : Occasion where
  now := now
  eventId := "e" ++ toString now

end Pandamonium.Broker
