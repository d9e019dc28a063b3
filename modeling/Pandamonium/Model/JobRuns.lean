import Pandamonium.Library.TransitionSystem
import Pandamonium.Library.Dict
import Pandamonium.Model.Value

/-!
# Calls of the background jobs and their processes

One call is under way at a time.  It loads the jobs when it begins, looks at the exit-code files and
at the processes on its way, and saves at its end; the processes write their exit-code files
whenever they like, also in the middle of a call.  An exit-code file may be written more than once:
a file that is still empty reads as 1.  Clocks and answers about processes are arbitrary.
-/

set_option autoImplicit false

/-!
## Background jobs

`bg_jobs.py` keeps the jobs in one file.  What a job does shows in its exit-code file and in
whether its process is alive, and both are read when the jobs are refreshed.
-/

namespace Pandamonium.BackgroundJobs

open Pandamonium.Library

/-- The `status` of a job. -/
inductive Status
  | running
  | done
  | failed
  deriving DecidableEq, Repr

structure Job where
  id : String
  sessionId : String
  command : String
  status : Status
  pid : Option ℕ
  startedAt : Int
  endedAt : Option Int
  exitCode : Option Int
  maxRuntime : Int
  followedUp : Bool
  timedOut : Bool
  died : Bool
  killed : Bool
  deriving DecidableEq, Repr

abbrev Jobs := Dict String Job

/-- `_RETENTION_S` -/
def retention : Int := 3600

/-- What is read next to the file when the jobs are refreshed. -/
structure Surroundings where
  now : Int
  /-- The code in the exit-code file of a job, which is 1 where it is no number, if the file is
  there. -/
  exitFile : String → Option Int
  /-- `_pid_alive` -/
  alive : Option ℕ → Bool

/-- The record that `launch` makes. -/
def newJob (id sessionId command : String) (pid : ℕ) (maxRuntime now : Int) : Job :=
  { id := id
    sessionId := sessionId
    command := command
    status := .running
    pid := some pid
    startedAt := now
    endedAt := none
    exitCode := none
    maxRuntime := maxRuntime
    followedUp := false
    timedOut := false
    died := false
    killed := false }

/-- `launch`, once the process has been started. -/
def launch (job : Job) (jobs : Jobs) : Jobs := jobs.set job.id job

/-- One round of the loop of `refresh`. -/
def refreshJob (s : Surroundings) (id : String) (job : Job) : Job :=
  if job.status ≠ .running then job
  else
    match s.exitFile id with
    | some code =>
      { job with
        exitCode := some code
        status := if code = 0 then .done else .failed
        endedAt := some s.now }
    | none =>
      let failed := { job with status := .failed, exitCode := some (-1), endedAt := some s.now }
      if job.maxRuntime < s.now - job.startedAt then { failed with timedOut := true }
      else if !s.alive job.pid then { failed with died := true }
      else job

/-- The job has finished, been followed up and is older than what is kept. -/
def stale (now : Int) (job : Job) : Bool :=
  job.followedUp &&
    match job.endedAt with
    | some ended => ended ≠ 0 && retention < now - ended
    | none => false

/-- `refresh`: the jobs as they are now, `none` where nothing has changed. -/
def refresh (s : Surroundings) (jobs : Jobs) : Option Jobs :=
  let refreshed := jobs.mapItems (refreshJob s)
  let kept := (refreshed.items.filter fun item => stale s.now item.2).foldl
    (fun jobs item => jobs.erase item.1) refreshed
  if jobs.items.any (fun item => refreshJob s item.1 item.2 ≠ item.2) ||
      refreshed.items.any (fun item => stale s.now item.2) then
    some kept
  else none

/-- `pending_followups` -/
def pending (jobs : Jobs) : List Job :=
  jobs.values.filter fun job => job.status ≠ .running && !job.followedUp

/-- `mark_followed_up` -/
def markFollowedUp (id : String) (jobs : Jobs) : Option Jobs :=
  (jobs.get? id).map fun job => jobs.set id { job with followedUp := true }

/-- `kill` -/
def kill (id : String) (now : Int) (jobs : Jobs) : Option Jobs :=
  match jobs.get? id with
  | none => none
  | some job =>
    if job.status = .running then
      some (jobs.set id
        { job with
          status := .failed
          exitCode := some (-1)
          endedAt := some now
          killed := true
          followedUp := true })
    else none

end Pandamonium.BackgroundJobs

namespace Pandamonium.BackgroundJobs

open Pandamonium.Library

inductive Request
  /-- `launch`, with the identifier it draws and the process it starts. -/
  | launch (id sessionId command : String) (pid : ℕ) (maxRuntime : Int)
  | refresh
  | pendingFollowups
  | get (id : String)
  | markFollowedUp (id : String)
  | kill (id : String)

/-- The loop of `refresh`. -/
structure Scan where
  now : Int
  /-- The jobs as they were loaded, changed in their places. -/
  jobs : Jobs
  changed : Bool
  /-- The jobs that the loop has not come to. -/
  todo : List String

/-- What a call is about to do. -/
inductive Frame
  /-- `launch`, when the process is started. -/
  | launching (job : Job) (jobs : Jobs)
  /-- Look for the exit-code file of the next job. -/
  | looking (asker : Request) (due : List String) (scan : Scan)
  /-- Ask for the process of a job without an exit-code file. -/
  | probing (asker : Request) (due : List String) (scan : Scan) (id : String) (job : Job)
  /-- Look once more for the file of a job whose process is gone. -/
  | rechecking (asker : Request) (due : List String) (scan : Scan) (id : String) (job : Job)
  | marking (id : String) (jobs : Jobs)
  /-- `kill`, with what was in the exit-code file when it was called. -/
  | killing (id : String) (file : Option Int) (jobs : Jobs)

/-- What calls have answered. -/
inductive Answer
  /-- `pending_followups`, and the jobs that were due when it was called. -/
  | pending (due : List String) (jobs : List Job)
  | got (id : String) (job : Option Job)
  /-- `kill`, and what was in the exit-code file when it was called. -/
  | killed (id : String) (file : Option Int) (job : Option Job)

structure World where
  /-- `bg_jobs.json` -/
  jobs : Jobs
  /-- The exit-code files, each with the code that is read from it. -/
  files : Dict String Int
  call : Option Frame
  launched : List String
  /-- The jobs that `mark_followed_up` has marked. -/
  marked : List String
  /-- The jobs that `kill` has recorded as killed. -/
  stopped : List String
  answers : List Answer

/-- The job has been recorded as finished, or its exit-code file is there. -/
def World.finished (w : World) (id : String) : Bool :=
  (w.files.get? id).isSome ||
    match w.jobs.get? id with
    | some job => job.status ≠ .running
    | none => false

/-- The jobs that have finished and were neither killed nor marked. -/
def World.due (w : World) : List String :=
  w.launched.filter fun id => id ∉ w.marked && id ∉ w.stopped && w.finished id

/-- The loop of `refresh` begins. -/
def World.scan (w : World) (asker : Request) (now : Int) : Frame :=
  .looking asker w.due
    { now := now
      jobs := w.jobs
      changed := false
      todo := w.jobs.items.map Prod.fst }

/-- A call begins. -/
def World.begin (w : World) (now : Int) : Request → Frame
  | .launch id sessionId command pid maxRuntime =>
    .launching (newJob id sessionId command pid maxRuntime now) w.jobs
  | .refresh => w.scan .refresh now
  | .pendingFollowups => w.scan .pendingFollowups now
  | .get id => w.scan (.get id) now
  | .markFollowedUp id => .marking id w.jobs
  | .kill id => .killing id (w.files.get? id) w.jobs

/-- The jobs that `_prune` drops. -/
def staleIds (now : Int) (jobs : Jobs) : List String :=
  (jobs.items.filter fun item => stale now item.2).map Prod.fst

/-- The record of a job is written by the loop. -/
def Scan.record (scan : Scan) (id : String) (job : Job) : Scan :=
  { scan with jobs := scan.jobs.set id job, changed := true }

/-- The loop is through: prune and save. -/
def World.finish (w : World) (asker : Request) (due : List String) (scan : Scan) : World :=
  let dropped := staleIds scan.now scan.jobs
  let jobs := dropped.foldl Dict.erase scan.jobs
  let saved := if scan.changed || !dropped.isEmpty then jobs else w.jobs
  { w with
    jobs := saved
    files := dropped.foldl Dict.erase w.files
    call := none
    answers :=
      match asker with
      | .pendingFollowups => w.answers ++ [.pending due (pending jobs)]
      | .get id => w.answers ++ [.got id (saved.get? id)]
      | _ => w.answers }

/-- The first look at the next job of the loop. -/
def World.look (w : World) (asker : Request) (due : List String) (scan : Scan) (id : String)
    (todo : List String) : Frame :=
  match scan.jobs.get? id with
  | none => .looking asker due { scan with todo := todo }
  | some job =>
    if job.status ≠ .running then .looking asker due { scan with todo := todo }
    else
      let refreshed := refreshJob
        { now := scan.now, exitFile := w.files.get?, alive := fun _ => true } id job
      if refreshed.status = .running then .probing asker due { scan with todo := todo } id job
      else .looking asker due ({ scan with todo := todo }.record id refreshed)

/-- A call takes its next step. -/
def World.proceed (w : World) (alive : Bool) (now : Int) : Frame → World
  | .launching job jobs =>
    { w with jobs := launch job jobs, call := none, launched := w.launched ++ [job.id] }
  | .looking asker due scan =>
    match scan.todo with
    | [] => w.finish asker due scan
    | id :: todo => { w with call := some (w.look asker due scan id todo) }
  | .probing asker due scan id job =>
    { w with
      call := some (if alive then .looking asker due scan else .rechecking asker due scan id job) }
  | .rechecking asker due scan id job =>
    if (w.files.get? id).isSome then { w with call := some (.looking asker due scan) }
    else
      { w with
        call := some (.looking asker due (scan.record id (refreshJob
          { now := scan.now, exitFile := fun _ => none, alive := fun _ => false } id job))) }
  | .marking id jobs =>
    match markFollowedUp id jobs with
    | none => { w with call := none }
    | some saved => { w with jobs := saved, call := none, marked := w.marked ++ [id] }
  | .killing id file jobs =>
    match kill id now jobs with
    | none => { w with call := none, answers := w.answers ++ [.killed id file (jobs.get? id)] }
    | some saved =>
      { w with
        jobs := saved
        call := none
        stopped := w.stopped ++ [id]
        answers := w.answers ++ [.killed id file (saved.get? id)] }

inductive Label
  /-- A call begins, where none is under way. -/
  | call (request : Request) (now : Int)
  /-- The call goes on; `alive` is the answer should it ask for a process. -/
  | proceed (alive : Bool) (now : Int)
  /-- A process writes its exit-code file. -/
  | writes (id : String) (code : Int)

/-- No job has the identifier that is drawn. -/
def Request.fresh (w : World) : Request → Bool
  | .launch id .. => id ∉ w.launched
  | _ => true

def step (w : World) : Label → Option World
  | .call request now =>
    match w.call with
    | some _ => none
    | none => if request.fresh w then some { w with call := some (w.begin now request) } else none
  | .proceed alive now => w.call.map fun frame => w.proceed alive now frame
  | .writes id code => some { w with files := w.files.set id code }

/-- Before the first job. -/
def empty : World where
  jobs := Dict.empty
  files := Dict.empty
  call := none
  launched := []
  marked := []
  stopped := []
  answers := []

/-- The calls and the processes. -/
def runs : TransitionSystem World Label where
  init := fun w => w = empty
  step := step

end Pandamonium.BackgroundJobs
