import Pandamonium.Model.JarvisAgent

/-!
# Runs of the voice agent

The coroutines of `jarvis_agent.py` on one event loop.  A label is one uninterrupted stretch
of one coroutine, from a suspension point to the next: what a call keeps while it is
suspended is its frame, and the copy of a task that it has read is in there.  The adapters
answer in any order and with anything they like, they raise, and any call may be cancelled
where it waits.

The start lock is looser than an `asyncio.Lock`: a call that finds it free may still wait, and
those who wait get it in any order.
-/

set_option autoImplicit false

namespace Pandamonium.Jarvis

open Pandamonium.Library

/-- What a suspended call waits for, with the locals that it still needs. -/
inductive Frame
  /-- `start_task`, before `async with _start_lock(...)`. -/
  | waiting (req : StartRequest) (owner : String)
  /-- `start_task`, inside the lock, at `await adapter.start`. -/
  | starting (task : Task) (machine : String)
  /-- `refresh_task`, at `await adapter.status`. -/
  | refreshing (task : Task)
  /-- `task_action`, at the `await` of the adapter's method. -/
  | acting (task : Task) (owner : String) (action : Action)

/-- Where the mirror of a task is. -/
inductive Mirror
  /-- At the head of an iteration of the `for` loop. -/
  | attempt (n : ℕ)
  /-- At `async for event in adapter.events(task)`. -/
  | streaming (n : ℕ)
  /-- At the head of the `while` loop. -/
  | reconciling
  /-- In `refresh_task`, at `await adapter.status`. -/
  | polling (task : Task)
  /-- Cancelled before its first step, so that its `finally` is not run. -/
  | dead

structure State where
  store : Store
  calls : Dict ℕ Frame
  /-- `_MIRRORS` -/
  mirrors : Dict String Mirror
  /-- The tasks created by the calls of `start_task` that have exited by an exception. -/
  failedStarts : List String

def State.initial : State := ⟨.empty, .empty, .empty, []⟩

inductive Label
  /-- `start_task` is called and goes to the start lock, or saves a blocked task. -/
  | start (call : ℕ) (req : StartRequest) (taskId : String) (now : ℕ)
  /-- A waiting `start_task` gets the start lock. -/
  | acquire (call : ℕ) (taskId : String) (now : ℕ)
  | startAnswered (call : ℕ) (remote : RemoteStart) (o : Occasion)
  /-- `adapter.start` raises an `Exception` with this text. -/
  | startRaised (call : ℕ) (text : String) (o : Occasion)
  | refresh (call : ℕ) (taskId owner : String)
  | statusAnswered (call : ℕ) (remote : RemoteStatus) (o : Occasion)
  | statusRaised (call : ℕ)
  | act (call : ℕ) (taskId owner : String) (action : Action)
  | actionAnswered (call : ℕ) (requestId : String) (o : Occasion)
  | actionRaised (call : ℕ)
  /-- `CancelledError` is raised in a call where it waits. -/
  | cancelled (call : ℕ)
  /-- `_append_event` -/
  | append (taskId : String) (e : Incoming) (o : Occasion)
  | consume (taskId owner sessionId : String)
  /-- A mirror is scheduled at the head of one of its loops. -/
  | mirrorTurn (taskId : String)
  | mirrorEvent (taskId : String) (e : Incoming) (o : Occasion)
  | mirrorEnded (taskId : String)
  | mirrorRaised (taskId : String)
  | mirrorCancelled (taskId : String)
  | pollAnswered (taskId : String) (remote : RemoteStatus) (o : Occasion) (timeUp : Bool) (o' : Occasion)
  | pollRaised (taskId : String) (timeUp : Bool) (o : Occasion)

variable (cfg : Config)

/-- The key of `_start_lock`, on one event loop. -/
def startLockKey (owner sessionId worker : String) : String :=
  owner ++ ":" ++ sessionId ++ ":" ++ worker

/-- The start lock that a call is inside of. -/
def Frame.lock : Frame → Option String
  | .starting task _ => some (startLockKey task.owner task.sessionId task.worker)
  | _ => none

/-- Whether a call is inside the start lock. -/
def State.locked (s : State) (key : String) : Bool :=
  s.calls.values.any fun frame => decide (frame.lock = some key)

/-- The status of the persisted task, as the mirror asks for it. -/
def Store.terminal (s : Store) (taskId : String) : Bool :=
  ((s.tasks.get? taskId).map fun task => task.status.terminal).getD false

/-- The frame of a call. -/
def State.frame (s : State) (call : ℕ) : Option Frame := s.calls.get? call

def State.enter (s : State) (call : ℕ) (frame : Frame) : State :=
  { s with calls := s.calls.set call frame }

def State.leave (s : State) (call : ℕ) : State :=
  { s with calls := s.calls.erase call }

def State.setMirror (s : State) (taskId : String) (m : Mirror) : State :=
  { s with mirrors := s.mirrors.set taskId m }

def State.endMirror (s : State) (taskId : String) : State :=
  { s with mirrors := s.mirrors.erase taskId }

/-- `ensure_mirror` -/
def State.ensureMirror (s : State) (taskId : String) : State :=
  match s.store.tasks.get? taskId with
  | none => s
  | some task =>
    if task.status.terminal || (s.mirrors.get? taskId).isSome then s
    else s.setMirror taskId (.attempt 0)

/-- `STREAM_RETRY_LIMIT` -/
def streamRetryLimit : ℕ := 2

/-! ## One stretch of each coroutine -/

/-- `start_task`, up to the start lock. -/
def State.start (s : State) (call : ℕ) (req : StartRequest) (taskId : String) (now : ℕ) :
    Option State :=
  match startChecks cfg req with
  | none => none
  | some (owner, adapter) =>
    if adapter.enabled then some (s.enter call (.waiting req owner))
    else
      let task := blockedTask cfg req owner taskId now
      if (s.store.tasks.get? task.taskId).isSome then none
      else some { s with store := saveTask s.store task }

/-- `start_task`, from the start lock on; the id is a new one. -/
def State.acquire (s : State) (call : ℕ) (req : StartRequest) (owner taskId : String) (now : ℕ) :
    Option State :=
  if s.locked (startLockKey owner req.sessionId req.worker) then none
  else if (s.store.tasks.get? taskId).isSome then none
  else match openTask cfg s.store req owner taskId now with
    | (store, .over) => some ({ s with store := store }.leave call)
    | (store, .created task) =>
      let machine := ((cfg.adapters req.worker).map Adapter.machine).getD ""
      some ({ s with store := store }.enter call (.starting task machine))

/-- `task_action`, once the adapter has answered. -/
def State.acted (s : State) (call : ℕ) (task : Task) (owner : String) (action : Action)
    (requestId : String) (o : Occasion) : State :=
  let external := ((cfg.adapters task.worker).map Adapter.external).getD false
  let event := if external then actionEvent task requestId action else none
  let s := match event with
    | none => s
    | some e => { s with store := (appendEvent cfg s.store task.taskId e o).getD s.store }
  if external ∧ action = .cancel then s.leave call
  else match requireTaskOwner cfg s.store task.taskId owner with
    | none => s.leave call
    | some task => s.enter call (.refreshing task)

/-- `_mirror`, from the head of the `while` loop. -/
def State.reconcile (s : State) (taskId : String) : State :=
  match s.store.tasks.get? taskId with
  | none => s.endMirror taskId
  | some task =>
    if task.status.terminal then s.endMirror taskId
    else match requireTaskOwner cfg s.store taskId task.owner with
      | none => s.endMirror taskId
      | some task => s.setMirror taskId (.polling task)

/-- `_mirror`, after a stream that ended or broke. -/
def State.afterStream (s : State) (taskId : String) (n : ℕ) : State :=
  if n < streamRetryLimit then s.setMirror taskId (.attempt (n + 1)) else s.reconcile cfg taskId

/-- `_mirror`, from the head of an iteration of the `for` loop. -/
def State.stream (s : State) (taskId : String) (n : ℕ) : State :=
  match s.store.tasks.get? taskId with
  | none => s.endMirror taskId
  | some task =>
    if task.status.terminal ∨ (cfg.adapters task.worker).isNone then s.endMirror taskId
    else s.setMirror taskId (.streaming n)

/-- `_mirror`, with an event of the stream. -/
def State.mirrorEvent (s : State) (taskId : String) (n : ℕ) (e : Incoming) (o : Occasion) : State :=
  if s.store.terminal taskId then s.endMirror taskId
  else match appendEvent cfg s.store taskId e o with
    | none => s.afterStream cfg taskId n
    | some store => { s with store := store }

/-- `_mirror`, when `refresh_task` has come back. -/
def State.afterPoll (s : State) (taskId : String) (timeUp : Bool) (o : Occasion) : State :=
  if (s.store.tasks.get? taskId).isNone ∨ s.store.terminal taskId then s.endMirror taskId
  else if timeUp then
    let store := (appendEvent cfg s.store taskId (brokerEvent "" .error
      (some ("worker_stream_failed: status reconciliation timed out; "
        ++ "the remote task may still be running")) none) o).getD s.store
    { s with store := store }.endMirror taskId
  else s.setMirror taskId .reconciling

/-- One stretch of one coroutine. -/
def step (s : State) : Label → Option State
  | .start call req taskId now =>
    if (s.frame call).isSome then none else s.start cfg call req taskId now
  | .acquire call taskId now =>
    match s.frame call with
    | some (.waiting req owner) => s.acquire cfg call req owner taskId now
    | _ => none
  | .startAnswered call remote o =>
    match s.frame call with
    | some (.starting task machine) =>
      some (({ s with store := acceptStart cfg s.store task remote machine o }.leave call).ensureMirror
        task.taskId)
    | _ => none
  | .startRaised call text o =>
    match s.frame call with
    | some (.starting task _) =>
      some ({ s with
        store := failStart cfg s.store task text o
        failedStarts := s.failedStarts ++ [task.taskId] }.leave call)
    | _ => none
  | .refresh call taskId owner =>
    if (s.frame call).isSome then none
    else match requireTaskOwner cfg s.store taskId owner with
      | none => none
      | some task => some (s.enter call (.refreshing task))
  | .statusAnswered call remote o =>
    match s.frame call with
    | some (.refreshing task) =>
      some (({ s with store := applyStatus cfg s.store task remote o }.leave call).ensureMirror
        task.taskId)
    | _ => none
  | .statusRaised call =>
    match s.frame call with
    | some (.refreshing task) => some ((s.leave call).ensureMirror task.taskId)
    | _ => none
  | .act call taskId owner action =>
    if (s.frame call).isSome then none
    else match requireTaskOwner cfg s.store taskId owner with
      | none => none
      | some task =>
        if (cfg.adapters task.worker).isNone || actionRefused cfg task action then none
        else some (s.enter call (.acting task owner action))
  | .actionAnswered call requestId o =>
    match s.frame call with
    | some (.acting task owner action) => some (s.acted cfg call task owner action requestId o)
    | _ => none
  | .actionRaised call =>
    match s.frame call with
    | some (.acting _ _ _) => some (s.leave call)
    | _ => none
  | .cancelled call =>
    match s.frame call with
    | none => none
    | some (.starting task _) =>
      -- `except Exception` does not catch the error, so no event is appended.
      some ({ s with failedStarts := s.failedStarts ++ [task.taskId] }.leave call)
    | some _ => some (s.leave call)
  | .append taskId e o =>
    (appendEvent cfg s.store taskId e o).map fun store => { s with store := store }
  | .consume taskId owner sessionId =>
    some { s with store := consumeTaskResult cfg s.store taskId owner sessionId }
  | .mirrorTurn taskId =>
    match s.mirrors.get? taskId with
    | some (.attempt n) => some (s.stream cfg taskId n)
    | some .reconciling => some (s.reconcile cfg taskId)
    | _ => none
  | .mirrorEvent taskId e o =>
    match s.mirrors.get? taskId with
    | some (.streaming n) => some (s.mirrorEvent cfg taskId n e o)
    | _ => none
  | .mirrorEnded taskId =>
    match s.mirrors.get? taskId with
    | some (.streaming n) =>
      if s.store.terminal taskId then some (s.endMirror taskId)
      else some (s.afterStream cfg taskId n)
    | _ => none
  | .mirrorRaised taskId =>
    match s.mirrors.get? taskId with
    | some (.streaming n) => some (s.afterStream cfg taskId n)
    | _ => none
  | .mirrorCancelled taskId =>
    match s.mirrors.get? taskId with
    | none | some .dead => none
    | some (.attempt 0) => some (s.setMirror taskId .dead)
    | some _ => some (s.endMirror taskId)
  | .pollAnswered taskId remote o timeUp o' =>
    match s.mirrors.get? taskId with
    | some (.polling task) =>
      some ({ s with store := applyStatus cfg s.store task remote o }.afterPoll cfg taskId timeUp o')
    | _ => none
  | .pollRaised taskId timeUp o =>
    match s.mirrors.get? taskId with
    | some (.polling _) => some (s.afterPoll cfg taskId timeUp o)
    | _ => none

/-- The voice agent, started with an empty file. -/
def machine : TransitionSystem State Label where
  init s := s = State.initial
  step := step cfg

/-- An installation with one Codex bridge. -/
def oneWorker : Config where
  configuredAgentName := "Jarvis"
  sessionOwner sessionId := if sessionId = "chat" then some "ada" else none
  adapters worker :=
    if worker = "pc-codex" then
      some { enabled := true, codexBridge := true, external := false, workspaces := ["lab"],
             machine := "PC" }
    else none
  executionEnabled := true
  privateMutations := false
  strip := id
  squash := id
  windowsAbsolute _ := false
  sha256 := id

/-- A read-only task for it. -/
def plainStart : StartRequest where
  worker := "pc-codex"
  sessionId := "chat"
  workspace := "lab"
  permissionMode := "read_only"
  approved := false
  owner := "ada"
  codexThreadId := none
  codexModel := none
  codexReasoningEffort := none
  presenter := none
  persistResult := true

/-- An answer of the adapter that accepts the task. -/
def plainAnswer (status : TaskStatus) : RemoteStart where
  remoteTaskId := "run-1"
  status := status
  codexThreadId := none
  workerSessionKey := none
  externalStartRequestId := none

/-- A status of the remote task. -/
def plainStatus (status : TaskStatus) (thread : Option String) : RemoteStatus where
  status := status
  codexThreadId := thread
  output := none
  result := none
  error := none

/-- The circumstances of an event. -/
def plainOccasion (now : ℕ) : Occasion where
  now := now
  eventId := "e" ++ toString now
  documentId := "d" ++ toString now
  databaseUp := true

end Pandamonium.Jarvis
