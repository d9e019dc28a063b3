import Pandamonium.Model.JobRuns
import Pandamonium.Model.LearningStore
import Pandamonium.Model.MemoryManager
import Pandamonium.Model.WorkerBroker

/-!
# Reading the record files

Four stores are files that are read, changed and written as a whole: the tasks of the worker broker,
the learning candidates, the background jobs and the memories.  Each has its own function that reads
the file and its own list of exceptions for which the store is taken to be empty.

An operation here is one section that reads the file and may write it, `none` where it does not; a
function that does so twice is two operations.
-/

set_option autoImplicit false

namespace Pandamonium

open Pandamonium.Library

/-- How reading a file fails. -/
inductive ReadFailure
  /-- `FileNotFoundError`, or the file cannot be looked for. -/
  | missing
  /-- `PermissionError` -/
  | permission
  /-- Another `OSError`. -/
  | io
  /-- `JSONDecodeError` -/
  | malformed
  /-- `UnicodeDecodeError` -/
  | undecodable
  deriving DecidableEq, Repr

namespace Broker

variable (cfg : Config)

/-- `_read_state` takes the failure for an empty file. -/
def takenForEmpty : ReadFailure → Bool
  | .undecodable => false
  | _ => true

/-- The owner that `configure` finds for a task that has none. -/
def foundOwner (task : Task) : Option String :=
  if task.owner ≠ "" ∨ task.sessionId = "" then none
  else ((cfg.sessionOwner task.sessionId).map cfg.strip).filter (· ≠ "")

/-- `configure` -/
def configure (s : Store) : Option Store :=
  if s.tasks.values.any fun task => (foundOwner cfg task).isSome then
    some { s with
      tasks := s.tasks.mapValues fun task =>
        { task with owner := (foundOwner cfg task).getD task.owner } }
  else none

inductive FileOperation
  | configure
  | saveBinding (task : Task) (codexThreadId workerSessionKey : Option String)
  | saveTask (task : Task)
  /-- The first section of `_append_event`. -/
  | appendEvent (taskId : String) (e : Incoming) (o : Occasion)
  /-- `get_task`, `_binding` or `list_tasks` -/
  | read

def FileOperation.apply : FileOperation → Store → Option Store
  | .configure, s => Broker.configure cfg s
  | .saveBinding task codexThreadId workerSessionKey, s =>
    if truthyText codexThreadId || truthyText workerSessionKey then
      some (Broker.saveBinding s task codexThreadId workerSessionKey)
    else none
  | .saveTask task, s => some (Broker.saveTask s task)
  | .appendEvent taskId e o, s =>
    match s.tasks.get? taskId with
    | none => none
    | some task =>
      if ignoresEvent task e o then none
      else some (Broker.saveTask s (task.record (storedEvent task e o)))
  | .read, _ => none

end Broker

namespace Learning

variable (a : Artifacts)

/-- `_read` takes the failure for an empty file. -/
def takenForEmpty : ReadFailure → Bool := fun _ => true

inductive FileOperation
  | createCandidate (candidate : Candidate)
  | evaluate (candidateId : String) (cases : List Object) (evaluator : Object)
      (runtimeVersion : String) (ownerScope : Option String) (now : String)
  | promote (candidateId operatorId : String) (ownerScope : Option String) (automatic : Bool)
      (policy : Policy) (learningEnabled : Bool) (drawn now : String)
  | demote (candidateId operatorId reason : String) (ownerScope : Option String) (now : String)
  | rollback (ownerScope artifactType name targetPromotionId operatorId drawn now : String)
  | recordOutcome (candidateId : String) (succeeded : Bool) (latencySeconds : ℚ)
      (regression : Bool) (ownerScope : Option String) (now : String)
  /-- `get`, `list`, `latest_for_artifact` or `snapshot` -/
  | read

def FileOperation.apply : FileOperation → Store → Option Store
  | .createCandidate candidate, s => (insertCandidate candidate s).toOption
  | .evaluate candidateId cases evaluator runtimeVersion ownerScope now, s =>
    (Learning.evaluate a candidateId cases evaluator runtimeVersion ownerScope now s).toOption
  | .promote candidateId operatorId ownerScope automatic policy learningEnabled drawn now, s =>
    (Learning.promote a candidateId operatorId ownerScope automatic policy learningEnabled drawn now
      s).toOption
  | .demote candidateId operatorId reason ownerScope now, s =>
    (Learning.demote a candidateId operatorId reason ownerScope now s).toOption
  | .rollback ownerScope artifactType name targetPromotionId operatorId drawn now, s =>
    (Learning.rollback ownerScope artifactType name targetPromotionId operatorId drawn now
      s).toOption
  | .recordOutcome candidateId succeeded latencySeconds regression ownerScope now, s =>
    (Learning.recordOutcome a candidateId succeeded latencySeconds regression ownerScope now
      s).toOption
  | .read, _ => none

end Learning

namespace BackgroundJobs

/-- `_load` takes the failure for an empty file. -/
def takenForEmpty : ReadFailure → Bool := fun _ => true

inductive FileOperation
  | launch (job : Job)
  /-- `refresh`, also for `pending_followups`, `list_for_session` and `get` -/
  | refresh (s : Surroundings)
  | markFollowedUp (id : String)
  | kill (id : String) (now : Int)
  | read

def FileOperation.apply : FileOperation → Jobs → Option Jobs
  | .launch job, jobs => some (BackgroundJobs.launch job jobs)
  | .refresh s, jobs => BackgroundJobs.refresh s jobs
  | .markFollowedUp id, jobs => BackgroundJobs.markFollowedUp id jobs
  | .kill id now, jobs => BackgroundJobs.kill id now jobs
  | .read, _ => none

end BackgroundJobs

namespace MemoryManager

/-- An operation, or `load_all` alone. -/
inductive FileOperation
  | request (r : Request)
  | read

def FileOperation.apply : FileOperation → List Entry → Option (List Entry)
  | .request r, entries => r.apply entries
  | .read, _ => none

/-- A line of the old text file, with the identifier that is drawn for it. -/
def legacyEntry (now : Int) (line : String × String) : Entry where
  id := line.2
  text := line.1
  category := .str "fact"
  uses := 0
  status := .approved
  supersedes := none
  confidence := some (defaultConfidence "user")
  owner := none
  fields :=
    [("timestamp", .int now), ("source", .str "user"), ("source_ref", .str ("user:" ++ line.2)),
     ("source_time", .int now), ("admitted_at", .int now), ("admitted_by", .str "legacy")]

/-- An operation whose read fails, with the lines of `memory.txt` that are not blank, if there is
that file and it can be read, and their identifiers. -/
structure Access where
  op : FileOperation
  legacy : Option (List (String × String))
  now : Int
  before : List Entry

/-- The operation goes on with a list that was read. -/
def Access.goOn (access : Access) (file entries : List Entry) : List Entry :=
  (access.op.apply entries).getD file

/-- `_migrate_from_legacy`, and the operation with what it returns. -/
def Access.migrate (access : Access) : List Entry :=
  match access.legacy with
  | none => access.goOn access.before []
  | some lines =>
    let entries := lines.map (legacyEntry access.now)
    access.goOn entries entries

/-- The file behind the operation: `load_all` returns nothing, migrates or raises. -/
def Access.after (access : Access) : ReadFailure → List Entry
  | .missing => access.goOn access.before []
  | .permission => access.migrate
  | .malformed => access.migrate
  | .io => access.before
  | .undecodable => access.before

end MemoryManager

end Pandamonium
