import Pandamonium.Library.Calls

/-!
# A task of the Codex bridge

A task has a status, an event log and a file.  `Task.event` appends an event, changes the status with
it and saves the file, under the lock of the task, and does nothing where the task is over and the
event would end it again.  The runner thread, the watcher, and the requests to cancel, reply and
steer also look at the status, and some of them assign it, outside of `Task.event`; each such look
or assignment is a step of its own here.  A stream of the events is a reader that sends what it has
not sent yet and then looks at the status, under the same lock.
-/

set_option autoImplicit false

namespace Pandamonium.CodexBridge

open Pandamonium.Library

inductive Status
  | queued | running | waiting | completed | failed | cancelled
  deriving DecidableEq, Repr

/-- `status in TERMINAL` -/
def Status.terminal : Status → Bool
  | .completed => true
  | .failed => true
  | .cancelled => true
  | _ => false

inductive EventType
  | accepted | progress | toolActivity | artifact | question | result | error | cancelled
  deriving DecidableEq, Repr

/-- `event_type in {"result", "error", "cancelled"}` -/
def EventType.terminal : EventType → Bool
  | .result => true
  | .error => true
  | .cancelled => true
  | _ => false

structure Event where
  seq : ℕ
  eventId : String
  type : EventType
  text : String
  deriving DecidableEq, Repr

/-- The `data` of a task. -/
structure Data where
  status : Status
  result : Option String
  error : Option String
  events : List Event
  deriving DecidableEq, Repr

/-- The status an event leaves. -/
def EventType.statusAfter (type : EventType) (status : Status) : Status :=
  match type with
  | .result => .completed
  | .error => .failed
  | .cancelled => .cancelled
  | .question => .waiting
  | _ => status

/-- `Task.event`, but for the file. -/
def Data.event (eventId : String) (type : EventType) (text : String) (d : Data) : Data :=
  if d.status.terminal ∧ type.terminal then d
  else
    { status := type.statusAfter d.status
      result := if type = .result then some text else d.result
      error := if type = .error then some text else d.error
      events := d.events ++ [⟨d.events.length, eventId, type, String.ofList (text.toList.take 12000)⟩] }

/-! ## Streams -/

/-- A stream of the events: the position it began at, the next one, and what it has sent. -/
structure Reader where
  start : Int
  next : Int
  sent : List Event
  /-- The stream was ended because the task is over. -/
  ended : Bool
  deriving DecidableEq, Repr

/-- `_resume_after` -/
def resumeAfter (d : Data) (after : Int) (lastEventId : String) : Int :=
  if lastEventId = "" then after
  else
    match d.events.find? fun e => e.eventId = lastEventId with
    | none => after
    | some e => e.seq

/-- A stream that nothing was sent on. -/
def Reader.opened (after : Int) : Reader := ⟨after + 1, after + 1, [], false⟩

/-- What `while next_seq < len(events)` sends, `none` where an index is out of range.  A negative
index counts from the end. -/
def unsent (events : List Event) (next : Int) : Option (List Event) :=
  if 0 ≤ next then some (events.drop next.toNat)
  else if next.natAbs ≤ events.length then
    some (events.drop (events.length - next.natAbs) ++ events)
  else none

/-- One turn of the loop of a stream, `none` where it raises. -/
def Reader.poll (d : Data) (r : Reader) : Option Reader :=
  (unsent d.events r.next).map fun events =>
    { r with
      next := max r.next d.events.length
      sent := r.sent ++ events
      ended := d.status.terminal }

/-- A turn that is broken off after so many events. -/
def Reader.cutOff (d : Data) (n : ℕ) (r : Reader) : Reader :=
  let events := ((unsent d.events r.next).getD []).take n
  { r with next := r.next + events.length, sent := r.sent ++ events }

/-! ## What a task does -/

/-- A document that a final message names. -/
inductive Artifact
  | opened (text : String)
  /-- It is outside of the workspace, or cannot be opened. -/
  | refused (text : String)
  deriving DecidableEq, Repr

/-- `_extract_artifacts`: the event of each document. -/
def Artifact.event : Artifact → EventType × String
  | .opened text => (.artifact, text)
  | .refused text => (.error, text)

/-- What the app server says about a turn. -/
inductive Message
  | question (text : String)
  /-- A milestone in the commentary. -/
  | commentary (text : String)
  | answer (artifacts : List Artifact) (text : String)
  | tool (text : String)
  | other
  deriving DecidableEq, Repr

/-- `_handle_server_message`: the events it appends, one after the other. -/
def Message.events : Message → List (EventType × String)
  | .question text => [(.question, text)]
  | .commentary text => [(.progress, text)]
  | .answer artifacts text => artifacts.map Artifact.event ++ [(.result, text)]
  | .tool text => [(.toolActivity, text)]
  | .other => []

/-- Whether the message sets `pending_request_id`. -/
def Message.asks : Message → Bool
  | .question _ => true
  | _ => false

/-- A thread of the task. -/
inductive Thread
  | runner | watcher
  deriving DecidableEq, Repr

/-- Where the runner is. -/
inductive Place
  /-- Before the status is set to running. -/
  | prepares
  /-- Before that is saved. -/
  | saves (desktop : Bool)
  /-- Before the event that says where the task was opened. -/
  | announces
  /-- In the loop over the messages of the turn. -/
  | turns
  /-- In the loop of `_follow_desktop_turn`. -/
  | follows
  /-- After a turn that was followed. -/
  | followed
  deriving DecidableEq, Repr

/-- What is looked at before a task is ended. -/
inductive Check
  /-- `status not in TERMINAL` -/
  | isOpen
  /-- `status != "completed"` -/
  | isNotCompleted
  deriving DecidableEq, Repr

def Check.passes : Check → Status → Bool
  | .isOpen, status => !status.terminal
  | .isNotCompleted, status => decide (status ≠ .completed)

/-- Where a call is. -/
inductive Frame
  | begins (thread : Thread)
  | runs (place : Place)
  /-- The runner before these events, and where it goes on. -/
  | appends (events : List (EventType × String)) (place : Place)
  /-- Before a check, and then the event that ends the task. -/
  | checks (check : Check) (type : EventType) (text : String)
  /-- Before the event that ends the task. -/
  | concludes (type : EventType) (text : String)
  | cancels
  | replies
  /-- A reply to a question that is pending. -/
  | answers
  /-- A reply after which no question is pending. -/
  | resumes
  /-- A reply after which the task is running. -/
  | confirms
  | steers
  | connects (after : Int) (lastEventId : String)
  | streams (reader : ℕ)
  deriving DecidableEq, Repr

inductive Occurrence
  /-- The step is taken, with the id of an event, and the file can be written or not. -/
  | steps (eventId : String) (saves : Bool)
  /-- The task is opened, in Codex Desktop or by an app server of its own. -/
  | opens (desktop : Bool)
  /-- A message of the app server. -/
  | receives (message : Message)
  /-- What is new of a turn in Codex Desktop, and whether the turn is over. -/
  | observes (messages : List Message) (completed : Bool)
  /-- `turn/completed` -/
  | turnCompletes
  /-- `turn/failed` -/
  | turnFails
  /-- The messages end, or the time is up. -/
  | runsOut
  /-- The step raises. -/
  | raises (text : String)
  /-- The number of a new stream. -/
  | admits (reader : ℕ)
  /-- A stream is broken off after so many events. -/
  | breaksOff (n : ℕ)
  deriving DecidableEq, Repr

structure Store where
  data : Data
  /-- The file of the task. -/
  file : Data
  /-- `pending_request_id` is set. -/
  pending : Bool
  /-- The threads that were started. -/
  started : List Thread
  readers : Dict ℕ Reader

/-- What a step does to the store. -/
inductive Effect
  | nothing
  | starts (thread : Thread)
  | saves
  | appends (eventId : String) (type : EventType) (text : String) (saved : Bool)
  /-- `task.data["status"] = "running"` -/
  | runs
  | asks
  | answers
  | opens (reader : ℕ) (r : Reader)
  | sends (reader : ℕ) (r : Reader)

def Effect.apply (s : Store) : Effect → Store
  | .nothing => s
  | .starts thread => { s with started := thread :: s.started }
  | .saves => { s with file := s.data }
  | .appends eventId type text saved =>
    let data := s.data.event eventId type text
    { s with data, file := if saved then data else s.file }
  | .runs => { s with data := { s.data with status := .running } }
  | .asks => { s with pending := true }
  | .answers => { s with pending := false }
  | .opens reader r => { s with readers := s.readers.set reader r }
  | .sends reader r => { s with readers := s.readers.set reader r }

/-- The runner after an exception. -/
def caught (text : String) : Option Frame := some (.checks .isOpen .error text)

/-- The runner before events, or where it goes on. -/
def appending (events : List (EventType × String)) (place : Place) : Frame :=
  if events = [] then .runs place else .appends events place

/-- `_run_task` -/
def runnerStep (s : Store) : Place → Occurrence → Option (Effect × Option Frame)
  | _, .raises text => some (.nothing, caught text)
  | .prepares, .receives message =>
    some (if message.asks then .asks else .nothing, some (appending message.events .prepares))
  | .prepares, .opens desktop => some (.runs, some (.runs (.saves desktop)))
  | .saves desktop, .steps _ saves =>
    if saves then some (.saves, some (.runs (if desktop then .follows else .announces)))
    else some (.nothing, caught "OSError")
  | .announces, .steps eventId saves =>
    some (.appends eventId .toolActivity "Codex task opened" saves,
      if saves then some (.runs .turns) else caught "OSError")
  | .turns, .receives message =>
    some (if message.asks then .asks else .nothing, some (appending message.events .turns))
  | .turns, .turnCompletes =>
    some (.nothing, some (.checks .isNotCompleted .error "Codex completed without a final result."))
  | .turns, .turnFails => some (.nothing, some (.concludes .error "Codex task failed."))
  | .turns, .runsOut => some (.nothing, none)
  | .follows, .observes messages completed =>
    if s.data.status.terminal then
      some (.nothing, some (.checks .isOpen .error "Friday stopped observing this turn."))
    else
      -- The items of a turn in Codex Desktop ask nothing.
      some (.nothing, some (appending
        ((messages.filter fun message => !message.asks).flatMap Message.events)
        (if completed then .followed else .follows)))
  | .follows, .runsOut =>
    some (.nothing, some (.checks .isOpen .error "Friday stopped observing this turn."))
  | .followed, .steps _ _ =>
    some (.nothing, some (.checks .isOpen .error "Codex stopped without a final answer."))
  | _, _ => none

/-- A step: what it does, and where the call goes on. -/
def act (s : Store) : Frame → Occurrence → Option (Effect × Option Frame)
  | .begins thread, .steps _ _ =>
    if thread ∈ s.started then none
    else some (.starts thread, some (match thread with
      | .runner => .runs .prepares
      -- `_watch_task`, when the time is up
      | .watcher => .checks .isOpen .error "The task exceeded its time limit."))
  | .runs place, o => runnerStep s place o
  | .appends [] place, .steps _ _ => some (.nothing, some (.runs place))
  | .appends (e :: events) place, .steps eventId saves =>
    some (.appends eventId e.1 e.2 saves,
      if saves then some (appending events place) else caught "OSError")
  | .appends _ _, .raises text => some (.nothing, caught text)
  | .checks check type text, .steps _ _ =>
    some (.nothing, if check.passes s.data.status then some (.concludes type text) else none)
  | .concludes type text, .steps eventId saves => some (.appends eventId type text saves, none)
  -- What is sent before the event cannot be sent.
  | .concludes _ _, .raises _ => some (.nothing, none)
  | .cancels, .steps _ _ =>
    some (.nothing, some (.checks .isOpen .cancelled "Codex task cancelled."))
  | .replies, .steps _ _ => some (.nothing, if s.pending then some .answers else none)
  | .answers, .steps _ _ => some (.answers, some .resumes)
  | .answers, .raises _ => some (.nothing, none)
  | .resumes, .steps _ _ => some (.runs, some .confirms)
  | .confirms, .steps _ saves => some (if saves then .saves else .nothing, none)
  -- A steer request changes nothing of the task.
  | .steers, .steps _ _ => some (.nothing, none)
  | .connects after lastEventId, .admits reader =>
    if (s.readers.get? reader).isSome then none
    else
      some (.opens reader (.opened (resumeAfter s.data after lastEventId)),
        some (.streams reader))
  | .streams reader, .steps _ _ =>
    (s.readers.get? reader).map fun r =>
      match r.poll s.data with
      | none => (.nothing, none)
      | some r => (.sends reader r, if r.ended then none else some (.streams reader))
  | .streams reader, .breaksOff n =>
    (s.readers.get? reader).map fun r => (.sends reader (r.cutOff s.data n), none)
  | _, _ => none

/-- The calls begin as threads and as requests. -/
def Frame.entry : Frame → Bool
  | .begins _ => true
  | .cancels => true
  | .replies => true
  | .steers => true
  | .connects _ _ => true
  | _ => false

def service : Service Store Frame Occurrence where
  entry := Frame.entry
  advance := fun s frame o => (act s frame o).map fun after => (after.1.apply s, after.2)

/-- What `create_task` leaves: the task was accepted and saved. -/
def created (eventId text : String) : Store :=
  let data := Data.event eventId .accepted text ⟨.queued, none, none, []⟩
  { data, file := data, pending := false, started := [], readers := Dict.empty }

/-- The task was created just now. -/
def new (s : Store) : Prop := ∃ eventId text, s = created eventId text

/-! ## Restarts -/

/-- The task files, by the id of the task; `none` where a file cannot be read. -/
abbrev Disk := Dict String (Option Data)

/-- What `_load_tasks` makes of a file. -/
def recovered (d : Data) : Data :=
  if d.status.terminal then d
  else { d with status := .failed, error := some "bridge_restarted_before_task_completed" }

/-- The bridge: the files, and the tasks in memory. -/
structure Bridge where
  disk : Disk
  tasks : Dict String Data

/-- `_load_tasks` -/
def loadTasks (disk : Disk) : Dict String Data :=
  disk.items.foldl
    (fun tasks item =>
      match item.2 with
      | none => tasks
      | some d => tasks.set item.1 (recovered d))
    Dict.empty

/-- The bridge is started with what is on disk. -/
def restart (disk : Disk) : Bridge := { disk, tasks := loadTasks disk }

end Pandamonium.CodexBridge
