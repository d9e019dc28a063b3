import Mathlib.Data.Prod.Lex
import Pandamonium.Library.StableOrder
import Pandamonium.Model.WorkerBroker

/-!
# The task file of the voice agent

`jarvis_agent.py` keeps worker tasks and worker bindings in one JSON file.  A task has the
log of events that its worker reported; a binding remembers, for a conversation with a
worker, the remote thread and the task that is active.  The functions here are what the
coroutines of the module do between two suspension points, on the file; which of them
comes when is the matter of the run.

Left out are the copies of results and summaries in the chat history, the spoken texts, and
the migration of bindings under keys that this code does not write.
-/

set_option autoImplicit false

namespace Pandamonium.Jarvis

open Pandamonium.Library

/-- A row of a task's `artifacts`. -/
structure Artifact where
  artifactKey : String
  documentId : String
  sourcePath : String
  deriving DecidableEq

/-- A persisted event. -/
structure Event where
  seq : ℕ
  eventId : String
  type : EventType
  text : Option String
  presenter : String
  /-- `metadata["codex_thread_id"]` -/
  codexThreadId : Option String
  /-- The artifact row merged into the metadata. -/
  artifact : Option Artifact
  deriving DecidableEq

/-- The artifact fields in the metadata of an incoming event. -/
structure ArtifactHandoff where
  artifactKey : Option String
  content : String
  sourcePath : String

/-- An event as it reaches `_append_event`. -/
structure Incoming where
  eventId : String
  type : EventType
  text : Option String
  codexThreadId : Option String
  handoff : ArtifactHandoff

/-- A task, without the fields that only the adapters read. -/
structure Task where
  taskId : String
  owner : String
  sessionId : String
  worker : String
  workspace : String
  remoteTaskId : Option String
  permissionMode : String
  approved : Bool
  status : TaskStatus
  result : Option String
  error : Option String
  codexThreadId : Option String
  codexModel : Option String
  codexReasoningEffort : Option String
  workerSessionKey : Option String
  externalStartRequestId : Option String
  presenter : String
  persistResult : Bool
  resultPersisted : Bool
  resultConsumed : Bool
  events : List Event
  artifacts : List Artifact
  createdAt : ℕ
  updatedAt : ℕ

structure Binding where
  owner : String
  sessionId : String
  worker : String
  workspace : String
  codexThreadId : Option String
  activeTaskId : Option String
  workerSessionKey : Option String

/-- The file. -/
structure Store where
  tasks : Dict String Task
  bindings : Dict String Binding

def Store.empty : Store := ⟨.empty, .empty⟩

/-- A registered worker. -/
structure Adapter where
  enabled : Bool
  /-- `adapter_name == "codex-bridge"` -/
  codexBridge : Bool
  /-- `adapter_name == "external-agent-sidecar"` -/
  external : Bool
  workspaces : List String
  machine : String

/-- What the module reads from its installation. -/
structure Config where
  configuredAgentName : String
  /-- The owner of a chat session, `none` where there is no such session. -/
  sessionOwner : String → Option String
  adapters : String → Option Adapter
  /-- `worker_task_execution_enabled()` -/
  executionEnabled : Bool
  /-- `ODYSSEUS_PRIVATE_WORKER_MUTATIONS` -/
  privateMutations : Bool
  strip : String → String
  /-- `" ".join(text.split())` -/
  squash : String → String
  /-- `PureWindowsPath(path).is_absolute()` -/
  windowsAbsolute : String → Bool
  sha256 : String → String

variable (cfg : Config)

/-- `_codex_bridge_worker` -/
def codexBridgeWorker (worker : String) : Bool :=
  worker == "pc-codex" || worker == "vps-codex" ||
    ((cfg.adapters worker).map Adapter.codexBridge).getD false

/-- `require_worker_task_permission` passes. -/
def workerTaskPermitted (permissionMode : String) (approved : Bool) : Bool :=
  (permissionMode == "read_only" && !approved) ||
    (permissionMode == "workspace_write" && cfg.privateMutations && approved)

/-! ## The file -/

/-- `_save_task` -/
def saveTask (s : Store) (task : Task) : Store :=
  { s with tasks := s.tasks.set task.taskId task }

/-- `_binding_key` -/
def bindingKey (owner sessionId worker workspace : String) : String :=
  let scope := if codexBridgeWorker cfg worker then "conversation" else workspace
  "v2:" ++ owner ++ ":" ++ sessionId ++ ":" ++ worker ++ ":" ++ scope

/-- The key of a task's binding. -/
def Task.bindingKey (task : Task) : String :=
  Jarvis.bindingKey cfg task.owner task.sessionId task.worker task.workspace

/-- A keyword argument of `_save_worker_binding`. -/
inductive Update
  /-- Not given. -/
  | keep
  | put (value : Option String)

/-- `None` removes the entry, an empty text leaves it. -/
def Update.apply : Update → Option String → Option String
  | .keep, old => old
  | .put none, _ => none
  | .put (some value), old => if value = "" then old else some value

/-- `_save_worker_binding` -/
def saveWorkerBinding (s : Store) (task : Task) (codexThreadId activeTaskId workerSessionKey : Update) :
    Store :=
  let key := task.bindingKey cfg
  let old : Binding := (s.bindings.get? key).getD
    { owner := "", sessionId := "", worker := "", workspace := "", codexThreadId := none,
      activeTaskId := none, workerSessionKey := none }
  let binding : Binding :=
    { owner := task.owner
      sessionId := task.sessionId
      worker := task.worker
      workspace := task.workspace
      codexThreadId := codexThreadId.apply old.codexThreadId
      activeTaskId := activeTaskId.apply old.activeTaskId
      workerSessionKey := workerSessionKey.apply old.workerSessionKey }
  { s with bindings := s.bindings.set key binding }

/-- `task_events(task_id)` -/
def taskEvents (s : Store) (taskId : String) : List Event :=
  ((s.tasks.get? taskId).map Task.events).getD []

/-! ## Events -/

/-- The components of a slash-separated path. -/
def pathParts (path : List Char) : List (List Char) :=
  path.foldr
    (fun x parts =>
      if x = '/' then [] :: parts
      else match parts with
        | [] => [[x]]
        | part :: parts => (x :: part) :: parts)
    [[]]

/-- Whether `_persist_artifact` turns the handoff into an error. -/
def rejectsArtifact (handoff : ArtifactHandoff) : Bool :=
  let source := cfg.strip handoff.sourcePath
  let normalized := source.toList.map fun x => if x = '\\' then '/' else x
  normalized.isEmpty || normalized.contains '\x00' || normalized.head? == some '/' ||
    cfg.windowsAbsolute source || (pathParts normalized).contains ['.', '.'] ||
    handoff.content == "" || decide (2000000 < handoff.content.length)

/-- `PurePosixPath(path).as_posix()` for a relative path. -/
def asPosix (path : List Char) : String :=
  match (pathParts path).filter fun part => part ≠ [] ∧ part ≠ ['.'] with
  | [] => "."
  | part :: parts => String.ofList (parts.foldl (fun path part => path ++ '/' :: part) part)

/-- `_persist_artifact`, with the id that a new document gets. -/
def persistArtifact (task : Task) (handoff : ArtifactHandoff) (event : Event) (documentId : String) :
    Task × Event :=
  if rejectsArtifact cfg handoff then
    (task, { event with
      type := .error
      text := some "Worker artifact handoff failed the approved workspace boundary."
      codexThreadId := none })
  else
    let source := asPosix ((cfg.strip handoff.sourcePath).toList.map fun x => if x = '\\' then '/' else x)
    let key := (handoff.artifactKey.filter (· ≠ "")).getD
      (cfg.sha256 (task.worker ++ "|" ++ source ++ "|" ++ handoff.content))
    match task.artifacts.find? fun row => decide (row.artifactKey = key) with
    | some row => (task, { event with artifact := some row })
    | none =>
      let row : Artifact := { artifactKey := key, documentId := documentId, sourcePath := source }
      ({ task with artifacts := task.artifacts ++ [row] }, { event with artifact := some row })

/-- Whether `_append_event` has nothing to add to a task. -/
def ignoresEvent (task : Task) (e : Incoming) : Bool :=
  (e.eventId != "" && task.events.any fun existing => existing.eventId == e.eventId) ||
    task.status.terminal || task.events.any fun existing => existing.type.terminal

/-- The status, the result and the error of a task after an event. -/
def Task.observe (task : Task) (event : Event) : Task :=
  match event.type with
  | .result => { task with status := .completed, result := event.text }
  | .error => { task with status := .failed, error := event.text }
  | .cancelled => { task with status := .cancelled }
  | .question => { task with status := .waiting }
  | .approvalRequired => { task with status := .waitingApproval }
  | .accepted | .progress | .toolActivity | .artifact => { task with status := .running }
  | .other _ => task

/-- What `_append_event` draws and meets: the time, the ids of a new event and of a new
document, and whether the database takes the document. -/
structure Occasion where
  now : ℕ
  eventId : String
  documentId : String
  databaseUp : Bool

/-- The event as it is stored, and the task with its artifact. -/
def storedEvent (task : Task) (e : Incoming) (o : Occasion) : Task × Event :=
  let event : Event :=
    { seq := task.events.length
      eventId := if e.eventId = "" then o.eventId else e.eventId
      type := e.type
      text := e.text
      presenter := if task.presenter = "" then cfg.configuredAgentName else task.presenter
      codexThreadId := e.codexThreadId
      artifact := none }
  if e.type = .artifact then persistArtifact cfg task e.handoff event o.documentId
  else (task, event)

/-- Whether `_append_event` fails on the document of an artifact. -/
def losesArtifact (task : Task) (e : Incoming) (o : Occasion) : Bool :=
  e.type = .artifact && !o.databaseUp && !rejectsArtifact cfg e.handoff &&
    ((storedEvent cfg task e o).1.artifacts != task.artifacts)

/-- The task with an event appended. -/
def Task.record (task : Task) (event : Event) (now : ℕ) : Task :=
  let task := { task with events := task.events ++ [event] }.observe event
  { task with
    codexThreadId :=
      if truthyText event.codexThreadId then event.codexThreadId else task.codexThreadId
    updatedAt := now
    resultPersisted := task.resultPersisted || event.type = .result }

/-- The task with an event appended is saved, and before it the binding that goes with it. -/
def recordEvent (s : Store) (task : Task) (event : Event) (now : ℕ) : Store :=
  let active : Update := if event.type.terminal then .put none else .put (some task.taskId)
  let s :=
    if truthyText event.codexThreadId then
      saveWorkerBinding cfg s task (.put event.codexThreadId) active .keep
    else if event.type.terminal then saveWorkerBinding cfg s task .keep (.put none) .keep
    else s
  saveTask s (task.record event now)

/-- `_append_event`; `none` where it raises. -/
def appendEvent (s : Store) (taskId : String) (e : Incoming) (o : Occasion) : Option Store :=
  match s.tasks.get? taskId with
  | none => some s
  | some task =>
    if ignoresEvent task e then some s
    else if losesArtifact cfg task e o then none
    else
      let (task, event) := storedEvent cfg task e o
      some (recordEvent cfg s task event o.now)

/-- An event that the broker makes itself. -/
def brokerEvent (eventId : String) (type : EventType) (text : Option String)
    (codexThreadId : Option String) : Incoming :=
  { eventId := eventId, type := type, text := text, codexThreadId := codexThreadId,
    handoff := { artifactKey := none, content := "", sourcePath := "" } }

/-! ## `start_task` -/

/-- The arguments of `start_task` that the broker reads. -/
structure StartRequest where
  worker : String
  sessionId : String
  workspace : String
  permissionMode : String
  approved : Bool
  owner : String
  codexThreadId : Option String
  codexModel : Option String
  codexReasoningEffort : Option String
  presenter : Option String
  persistResult : Bool

/-- What `adapter.start` answers; a key that is absent leaves the field of the task. -/
structure RemoteStart where
  remoteTaskId : String
  status : TaskStatus
  codexThreadId : Option (Option String)
  workerSessionKey : Option String
  externalStartRequestId : Option String

/-- The checks of `start_task` before it looks at the adapter: the stripped owner and the
adapter, `none` where it raises. -/
def startChecks (req : StartRequest) : Option (String × Adapter) :=
  let owner := cfg.strip req.owner
  if owner = "" then none
  else if cfg.sessionOwner req.sessionId ≠ some owner then none
  else if codexBridgeWorker cfg req.worker && !cfg.executionEnabled then none
  else match cfg.adapters req.worker with
    | none => none
    | some adapter =>
      if req.workspace ∉ adapter.workspaces then none
      else if !workerTaskPermitted cfg req.permissionMode req.approved then none
      else some (owner, adapter)

/-- `str(presenter or configured_agent_name())[:80]` -/
def startPresenter (presenter : Option String) : String :=
  truncate 80 ((presenter.filter (· ≠ "")).getD cfg.configuredAgentName)

/-- The record that `start_task` saves for a worker that is not connected. -/
def blockedTask (req : StartRequest) (owner taskId : String) (now : ℕ) : Task where
  taskId := "blocked-" ++ req.worker ++ "-" ++ taskId
  owner := owner
  sessionId := req.sessionId
  worker := req.worker
  workspace := req.workspace
  remoteTaskId := none
  permissionMode := req.permissionMode
  approved := false
  status := .blocked
  result := none
  error := none
  codexThreadId := none
  codexModel := none
  codexReasoningEffort := none
  workerSessionKey := none
  externalStartRequestId := none
  presenter := startPresenter cfg req.presenter
  persistResult := req.persistResult
  resultPersisted := false
  resultConsumed := false
  events := []
  artifacts := []
  createdAt := now
  updatedAt := now

/-- Whether a task is one that `find_active_task` looks for. -/
def isActive (owner sessionId worker : String) (task : Task) : Bool :=
  decide (task.sessionId = sessionId) && decide (task.worker = worker) &&
    !task.status.terminal && decide (task.owner = owner)

/-- `find_active_task`: the newest of them. -/
def findActiveTask (s : Store) (owner sessionId worker : String) : Option Task :=
  firstMax (fun task => toLex (task.updatedAt, task.createdAt))
    (s.tasks.values.filter (isActive owner sessionId worker))

/-- `_check_active_codex_selection` raises. -/
def selectionConflict (task : Task) (req : StartRequest) : Bool :=
  (truthyText req.codexModel && decide (req.codexModel ≠ task.codexModel)) ||
    (truthyText req.codexReasoningEffort &&
      decide (req.codexReasoningEffort ≠ task.codexReasoningEffort))

/-- `incompatible` in `start_task` -/
def incompatible (task : Task) (req : StartRequest) : Bool :=
  decide (task.workspace ≠ req.workspace) ||
    (truthyText req.codexThreadId && truthyText task.codexThreadId &&
      decide (task.codexThreadId ≠ req.codexThreadId))

/-- The task, and each of its events, with another presenter. -/
def Task.relabel (task : Task) (label : String) : Task :=
  { task with
    presenter := label
    events := task.events.map fun event => { event with presenter := label } }

/-- `" ".join(str(presenter or "").split())[:80]` -/
def presenterLabel (presenter : Option String) : String := truncate 80 (cfg.squash (presenter.getD ""))

/-- `_bind_task_presenter` -/
def bindTaskPresenter (s : Store) (task : Task) (presenter : Option String) : Store :=
  let label := presenterLabel cfg presenter
  if label = "" ∨ task.presenter = label then s else saveTask s (task.relabel label)

/-- The record that `start_task` creates. -/
def queuedTask (req : StartRequest) (owner taskId : String) (codexThreadId workerSessionKey : Option String)
    (now : ℕ) : Task where
  taskId := taskId
  owner := owner
  sessionId := req.sessionId
  worker := req.worker
  workspace := req.workspace
  remoteTaskId := none
  permissionMode := req.permissionMode
  approved := req.approved
  status := .queued
  result := none
  error := none
  codexThreadId := codexThreadId
  codexModel := req.codexModel
  codexReasoningEffort := req.codexReasoningEffort
  workerSessionKey := workerSessionKey
  externalStartRequestId := none
  presenter := startPresenter cfg req.presenter
  persistResult := req.persistResult
  resultPersisted := false
  resultConsumed := false
  events := []
  artifacts := []
  createdAt := now
  updatedAt := now

/-- `start_task` raises instead of reusing the active task. -/
def refusesReuse (task : Task) (req : StartRequest) : Bool :=
  selectionConflict task req || incompatible task req

/-- How `start_task` goes on once it has the start lock. -/
inductive Opening
  /-- It raises, or returns the active task. -/
  | over
  /-- It waits for the adapter with this task. -/
  | created (task : Task)

/-- `start_task` from the start lock to `await adapter.start`. -/
def openTask (s : Store) (req : StartRequest) (owner taskId : String) (now : ℕ) : Store × Opening :=
  match findActiveTask s owner req.sessionId req.worker with
  | some active =>
    if refusesReuse active req then (s, .over)
    else (bindTaskPresenter cfg s active req.presenter, .over)
  | none =>
    let binding := s.bindings.get? (bindingKey cfg owner req.sessionId req.worker req.workspace)
    let boundThread := binding.bind Binding.codexThreadId
    let boundWorkspace := (binding.map Binding.workspace).getD ""
    if codexBridgeWorker cfg req.worker && truthyText boundThread &&
        decide (boundWorkspace ≠ "" ∧ boundWorkspace ≠ req.workspace) &&
        !truthyText req.codexThreadId then
      (s, .over)
    else
      let codexThreadId := if truthyText req.codexThreadId then req.codexThreadId else boundThread
      let task := queuedTask cfg req owner taskId codexThreadId
        (binding.bind Binding.workerSessionKey) now
      let s := saveTask s task
      (saveWorkerBinding cfg s task (.put codexThreadId) (.put (some taskId)) .keep, .created task)

/-- `task.update(remote)` -/
def Task.update (task : Task) (remote : RemoteStart) : Task :=
  { task with
    remoteTaskId := some remote.remoteTaskId
    status := remote.status
    codexThreadId := remote.codexThreadId.getD task.codexThreadId
    workerSessionKey := remote.workerSessionKey.or task.workerSessionKey
    externalStartRequestId := remote.externalStartRequestId.or task.externalStartRequestId }

/-- `start_task` once the adapter has accepted the task. -/
def acceptStart (s : Store) (task : Task) (remote : RemoteStart) (machine : String) (o : Occasion) :
    Store :=
  let task := task.update remote
  let s := saveTask s task
  let s := (appendEvent cfg s task.taskId
    (brokerEvent "" .accepted (some (machine ++ " accepted the task.")) task.codexThreadId) o).getD s
  saveWorkerBinding cfg s task (.put task.codexThreadId) (.put (some task.taskId))
    (.put task.workerSessionKey)

/-- `start_task` once the adapter has raised an `Exception`. -/
def failStart (s : Store) (task : Task) (text : String) (o : Occasion) : Store :=
  let text := truncate 1000 text
  (appendEvent cfg s task.taskId
    (brokerEvent "" .error (some (if text = "" then "Worker task creation failed." else text)) none)
    o).getD s

/-! ## `refresh_task`, `task_action` and `consume_task_result` -/

/-- `require_task_owner` -/
def requireTaskOwner (s : Store) (taskId owner : String) : Option Task :=
  let identity := cfg.strip owner
  if identity = "" then none
  else (s.tasks.get? taskId).filter fun task => task.owner = identity

/-- What `adapter.status` answers. -/
structure RemoteStatus where
  status : TaskStatus
  codexThreadId : Option String
  output : Option String
  result : Option String
  error : Option String

/-- The text of the event that a remote status is reconciled to. -/
def RemoteStatus.text (remote : RemoteStatus) (worker : String) : String :=
  let given := [remote.output, remote.result, remote.error].find? truthyText
  (given.bind id).getD (worker ++ " " ++ remote.status.text ++ ".")

/-- The binding that `refresh_task` saves for a status with a thread. -/
def bindStatus (s : Store) (task : Task) (remote : RemoteStatus) : Store :=
  if truthyText remote.codexThreadId then
    saveWorkerBinding cfg s task (.put remote.codexThreadId)
      (if remote.status.terminal then .put none else .put (some task.taskId)) .keep
  else s

/-- `refresh_task` once the adapter has answered about its copy of the task. -/
def applyStatus (s : Store) (task : Task) (remote : RemoteStatus) (o : Occasion) : Store :=
  let s := bindStatus cfg s task remote
  match remote.status.reconciledType with
  | none => s
  | some type =>
    if task.status.terminal then s
    else (appendEvent cfg s task.taskId
      (brokerEvent "" type (some (remote.text task.worker)) none) o).getD s

inductive Action
  | steer
  | reply
  | approval (choice : String)
  | cancel
  deriving DecidableEq

/-- `task_action` raises before it asks the adapter. -/
def actionRefused (task : Task) : Action → Bool
  | .approval choice =>
    !workerTaskPermitted cfg task.permissionMode task.approved ||
      decide (choice ∉ ["once", "session", "always", "deny"]) ||
      (decide (task.permissionMode = "read_only") && decide (choice ≠ "deny"))
  | _ => false

/-- The event that `task_action` appends for an external adapter, with the id of its request. -/
def actionEvent (task : Task) (requestId : String) : Action → Option Incoming
  | .steer =>
    some (brokerEvent ("action:" ++ requestId) .progress
      (some (task.presenter ++ " accepted the steering update.")) none)
  | .reply =>
    some (brokerEvent ("action:" ++ requestId) .progress
      (some (task.presenter ++ " accepted the reply.")) none)
  | .approval _ => none
  | .cancel =>
    some (brokerEvent ("cancel:" ++ requestId) .cancelled
      (some (task.presenter ++ " cancelled the task.")) none)

/-- The task with its result handed over. -/
def Task.consumed (task : Task) : Task :=
  { task with persistResult := false, resultConsumed := true }

/-- `consume_task_result` -/
def consumeTaskResult (s : Store) (taskId owner sessionId : String) : Store :=
  match requireTaskOwner cfg s taskId owner with
  | none => s
  | some task =>
    let expected := cfg.strip sessionId
    if expected ≠ "" ∧ task.sessionId ≠ expected then s
    else if task.status ≠ .completed then s
    else saveTask s task.consumed

end Pandamonium.Jarvis
