import Pandamonium.Library.Calls
import Pandamonium.Model.Value

/-!
# Training jobs

`training_jobs.py` keeps a row for each job and follows it on a runtime that works on one run at a
time.  `start_job`, `resume_job`, `refresh_job`, `reconnect_jobs` and `cancel_job` are sequences of
steps: each transaction on the rows is one, and so is each answer of the runtime.  What other tables
say is an answer too, that of `build_preview`.

The runtime answers about the run that it has started last, and other clients start runs as well.
A row remembers here which run it was made for, which runs its status and its checkpoints were taken
from, and whether a cancellation has asked for checkpoints; no column says so.  The columns that
these functions do not read (`preview`, `created_at`) are left out.
-/

set_option autoImplicit false

namespace Pandamonium.TrainingJobs

open Pandamonium.Library

/-! ## States -/

/-- `JOB_STATES` -/
inductive JobState
  | queued
  | running
  | checkpointing
  | completed
  | failed
  | canceled
  deriving DecidableEq, Repr

/-- `state in ACTIVE_STATES` -/
def JobState.active : JobState → Bool
  | .queued | .running | .checkpointing => true
  | .completed | .failed | .canceled => false

/-- `state in TERMINAL_STATES` -/
def JobState.terminal (state : JobState) : Bool := !state.active

/-- What the runtime's word for the state of its run is taken for. -/
inductive RuntimeState
  | running
  | idle
  | stopped
  | done
  | failed
  | unknown
  deriving DecidableEq, Repr

/-- `JOB_STATE_MAP` -/
def jobStateMap : List (String × RuntimeState) :=
  [("running", .running), ("training", .running), ("in_progress", .running),
    ("in-progress", .running), ("busy", .running), ("idle", .idle), ("not_started", .idle),
    ("not-started", .idle), ("pending", .idle), ("queued", .idle), ("stopped", .stopped),
    ("cancelled", .stopped), ("canceled", .stopped), ("completed", .done), ("complete", .done),
    ("success", .done), ("succeeded", .done), ("done", .done), ("failed", .failed),
    ("error", .failed)]

/-- `RUNTIME_TO_LIFECYCLE` -/
def runtimeToLifecycle : RuntimeState → Option JobState
  | .running => some .running
  | .done => some .completed
  | .failed => some .failed
  | .stopped => some .canceled
  | .idle | .unknown => none

/-- The text occurs in the other. -/
def occursIn (text : List Char) : List Char → Bool
  | [] => text.isEmpty
  | x :: xs => text.isPrefixOf (x :: xs) || occursIn text xs

/-! ## Rows -/

/-- A row of `training_jobs`. -/
structure Job where
  datasetId : String
  datasetFingerprint : String
  state : JobState
  model : String
  method : String
  params : Object
  outputLocation : String
  datasetPath : String
  runtimeJobId : Option String
  confirmFingerprint : String
  progress : Object
  metrics : Object
  checkpoints : List Object
  logs : String
  retainedArtifacts : List Object
  cancelRequestedAt : Option Int
  resumeOf : Option String
  error : Option String
  startedAt : Int
  finishedAt : Option Int
  /-- The run of the runtime that was started for the job. -/
  run : ℕ
  /-- The runs that its status and its checkpoints were taken from. -/
  sources : List ℕ
  /-- A cancellation has asked for its checkpoints. -/
  asked : Bool

/-- The rows, and the run that the runtime has started last. -/
structure Store where
  jobs : Dict String Job
  current : ℕ

/-- `_active_job_id`, rows being in the order of their creation. -/
def activeJobId (jobs : Dict String Job) : Option String :=
  (jobs.items.reverse.find? fun item => item.2.state.active).map Prod.fst

structure TrainingJobError where
  code : String
  message : String
  statusCode : ℕ
  deriving DecidableEq, Repr

/-! ## Starting -/

/-- What `build_preview` returns, as far as `start_job` reads it. -/
structure Preview where
  datasetId : String
  datasetFingerprint : String
  model : String
  method : String
  params : Object
  outputLocation : String
  datasetPath : String
  trainingSupported : Bool
  confirmFingerprint : String

/-- The arguments of `start_job`. -/
structure StartRequest where
  datasetId : String
  model : String
  method : String
  params : Object
  outputLocation : String
  datasetPath : String
  confirmFingerprint : String
  acknowledgeImplications : Bool
  resumeOf : Option String
  resumeCheckpoint : Option String

/-- The gates of `start_job` in front of its look for an active job. -/
def confirm (request : StartRequest) (answer : Except TrainingJobError Preview) :
    Except TrainingJobError Preview :=
  if !request.acknowledgeImplications then
    .error
      { code := "implications_not_acknowledged"
        message := "Preview the job and acknowledge its destructive/paid implications " ++
          "before starting."
        statusCode := 409 }
  else
    match answer with
    | .error e => .error e
    | .ok preview =>
      let supplied := strip request.confirmFingerprint
      if supplied = "" ∨ supplied ≠ preview.confirmFingerprint then
        .error
          { code := "preview_mismatch"
            message := "The job spec changed since the preview. Preview again before starting."
            statusCode := 409 }
      else if !preview.trainingSupported then
        .error
          { code := "training_unavailable"
            message := "The runtime does not currently advertise a usable training capability. " ++
              "Run Test in Settings → Training Runtime and try again."
            statusCode := 409 }
      else .ok preview

/-- The look for an active job. -/
def noneActive (jobs : Dict String Job) : Except TrainingJobError Unit :=
  if (activeJobId jobs).isSome then
    .error
      { code := "job_active"
        message := "Another training job is still active. Wait for it to finish or cancel it first."
        statusCode := 409 }
  else .ok ()

/-- What the runtime answers to a start. -/
structure Started where
  rawState : String
  runtimeJobId : Option String

/-- The arguments of `resume_job`. -/
structure ResumeRequest where
  jobId : String
  checkpointId : String
  confirmFingerprint : String
  acknowledgeImplications : Bool

/-- The arguments of `refresh_job` that it reads from the row. -/
structure Reading where
  runtimeJobId : Option String
  previousLogs : String
  currentState : JobState
  previousMetrics : Object
  previousCheckpoints : List Object
  cancelRequested : Bool

/-- What `fetch_training_status` returns, without what is computed from `raw_state`. -/
structure Snapshot where
  rawState : String
  progress : Object
  checkpoints : List Object
  logs : String
  metrics : Object

/-- `MAX_METRICS_FIELDS` -/
def maxMetricsFields : ℕ := 40

/-- `MAX_LOG_CHARS` -/
def maxLogChars : ℕ := 8000

/-- The end of a text, of this length at most. -/
def tail (n : ℕ) (text : String) : String :=
  String.ofList (text.toList.drop (text.toList.length - n))

/-- `_merge_metrics` -/
def mergeMetrics (previous update : Object) : Object :=
  ((update.take maxMetricsFields).foldl
    (fun merged item => Object.set merged (String.ofList (item.1.toList.take 60)) item.2)
    previous).take maxMetricsFields

section

variable (rt : Runtime)

/-- The state in `_job_state`. -/
def jobState (rawState : String) : RuntimeState :=
  (jobStateMap.lookup (rt.lower (strip rawState))).getD .unknown

/-- The state of a job that the runtime has accepted. -/
def startState (answer : Started) : JobState :=
  (runtimeToLifecycle (jobState rt answer.rawState)).getD .running

/-- The row that `start_job` adds. -/
def newJob (request : StartRequest) (preview : Preview) (answer : Started) (run : ℕ) (now : Int) :
    Job where
  datasetId := preview.datasetId
  datasetFingerprint := preview.datasetFingerprint
  state := startState rt answer
  model := preview.model
  method := preview.method
  params := preview.params
  outputLocation := preview.outputLocation
  datasetPath := preview.datasetPath
  runtimeJobId := answer.runtimeJobId
  confirmFingerprint := preview.confirmFingerprint
  progress := []
  metrics := []
  checkpoints := []
  logs := ""
  retainedArtifacts := []
  cancelRequestedAt := none
  resumeOf := request.resumeOf
  error := none
  startedAt := now
  finishedAt := none
  run := run
  sources := [run]
  asked := false

/-! ## Resuming -/

/-- The checkpoint that is resumed from. -/
def select (candidates : List Object) (wanted : String) : Except TrainingJobError Object :=
  match candidates with
  | [] =>
    .error
      { code := "no_checkpoint"
        message := "This job kept no checkpoint. Cancellation preserved only explicitly " ++
          "retained artifacts, so there is nothing to resume from."
        statusCode := 409 }
  | first :: _ =>
    if wanted = "" then .ok first
    else
      match candidates.find? fun entry => Object.firstText rt entry ["id", "path"] = wanted with
      | some entry => .ok entry
      | none =>
        .error
          { code := "checkpoint_not_found"
            message := "That checkpoint is not among this job's retained artifacts."
            statusCode := 404 }

/-- `resume_job` behind its read: the arguments it gives to `start_job`. -/
def resumption (request : ResumeRequest) (source : Job) : Except TrainingJobError StartRequest :=
  if source.state ≠ .canceled ∧ source.state ≠ .failed then
    .error
      { code := "not_resumable"
        message := "Only a canceled or failed job can be resumed."
        statusCode := 409 }
  else
    let candidates :=
      if source.state = .canceled ∨ source.checkpoints.isEmpty then source.retainedArtifacts
      else source.checkpoints
    (select rt candidates (strip request.checkpointId)).map fun selected =>
      { datasetId := source.datasetId
        model := source.model
        method := source.method
        params := source.params
        outputLocation := source.outputLocation
        datasetPath := source.datasetPath
        confirmFingerprint := request.confirmFingerprint
        acknowledgeImplications := request.acknowledgeImplications
        resumeOf := some request.jobId
        resumeCheckpoint := some (Object.firstText rt selected ["path", "id"]) }

/-! ## Refreshing -/

/-- What `refresh_job` reads. -/
def Job.reading (row : Job) : Reading where
  runtimeJobId := row.runtimeJobId
  previousLogs := row.logs
  currentState := row.state
  previousMetrics := row.metrics
  previousCheckpoints := row.checkpoints
  cancelRequested := row.cancelRequestedAt.isSome

/-- `_lifecycle_from_snapshot` -/
def lifecycleFromSnapshot (snapshot : Snapshot) (current : JobState) : JobState :=
  if occursIn "checkpoint".toList (rt.lower snapshot.rawState).toList then .checkpointing
  else (runtimeToLifecycle (jobState rt snapshot.rawState)).getD current

/-- The state that `refresh_job` writes. -/
def refreshState (reading : Reading) (snapshot : Snapshot) : JobState :=
  let state := lifecycleFromSnapshot rt snapshot reading.currentState
  if reading.cancelRequested ∧ state = .running then
    if reading.currentState = .checkpointing ∨ reading.currentState = .running then
      reading.currentState
    else .running
  else state

/-- The checkpoints that `refresh_job` writes. -/
def refreshCheckpoints (reading : Reading) (snapshot : Snapshot) : List Object :=
  if snapshot.checkpoints.isEmpty then reading.previousCheckpoints else snapshot.checkpoints

/-- The row behind `refresh_job`. -/
def Job.refreshed (reading : Reading) (snapshot : Snapshot) (run : ℕ) (metrics : Object)
    (now : Int) (row : Job) : Job :=
  let state := refreshState rt reading snapshot
  { row with
    state := state
    runtimeJobId := reading.runtimeJobId <|> row.runtimeJobId
    progress := snapshot.progress
    metrics := mergeMetrics reading.previousMetrics
      (metrics.foldl (fun d item => Object.set d item.1 item.2) snapshot.metrics)
    checkpoints := refreshCheckpoints reading snapshot
    logs := tail maxLogChars (if snapshot.logs = "" then reading.previousLogs else snapshot.logs)
    retainedArtifacts :=
      if state = .canceled then
        if reading.cancelRequested then refreshCheckpoints reading snapshot else []
      else row.retainedArtifacts
    finishedAt := if state.terminal then row.finishedAt <|> some now else row.finishedAt
    error :=
      if state = .failed then row.error <|> some "The runtime reported the job failed."
      else row.error
    sources := run :: row.sources }

/-! ## Cancelling -/

/-- The state that `cancel_job` writes. -/
def cancelState (rawState : String) : JobState :=
  -- an answer without a known state is one of a run that has stopped
  let answered :=
    match jobState rt rawState with
    | .unknown => .stopped
    | state => state
  match (runtimeToLifecycle answered).getD .canceled with
  | .completed => .completed
  | .canceled => .canceled
  | _ => .checkpointing

/-- The row behind `cancel_job`. -/
def Job.stopped (retain : Bool) (previousCheckpoints : List Object) (rawState : String) (run : ℕ)
    (now : Int) (row : Job) : Job :=
  let state := cancelState rt rawState
  { row with
    cancelRequestedAt := row.cancelRequestedAt <|> some now
    state := state
    finishedAt := if state.terminal then row.finishedAt <|> some now else row.finishedAt
    retainedArtifacts :=
      if state.terminal then if retain then previousCheckpoints else []
      else row.retainedArtifacts
    sources := run :: row.sources
    asked := row.asked || retain }

/-! ## The steps of a call -/

/-- Where a call is, with what it has read. -/
inductive Frame
  /-- `start_job` has been called. -/
  | requested (request : StartRequest)
  /-- The gates are passed. -/
  | confirmed (request : StartRequest) (preview : Preview)
  /-- No active job has been found. -/
  | admitted (request : StartRequest) (preview : Preview)
  /-- The runtime has started the run. -/
  | accepted (request : StartRequest) (preview : Preview) (answer : Started) (run : ℕ)
  /-- `resume_job` has been called. -/
  | resuming (request : ResumeRequest)
  /-- `reconnect_jobs` has been called. -/
  | reconnecting
  /-- `refresh_job` has been called, and the rest are refreshed behind it. -/
  | refreshing (jobId : String) (rest : List String)
  /-- The row has been read. -/
  | fetching (jobId : String) (reading : Reading) (rest : List String)
  /-- The runtime has answered about its run. -/
  | measuring (jobId : String) (reading : Reading) (snapshot : Snapshot) (run : ℕ)
      (rest : List String)
  /-- It has answered about its metrics. -/
  | observed (jobId : String) (reading : Reading) (snapshot : Snapshot) (run : ℕ)
      (metrics : Object) (rest : List String)
  /-- `cancel_job` has been called. -/
  | canceling (jobId : String) (retainCheckpoint : Bool)
  /-- The row has been read. -/
  | stopping (jobId : String) (retainCheckpoint : Bool) (previousCheckpoints : List Object)
  /-- The runtime has answered about its run. -/
  | stopped (jobId : String) (retainCheckpoint : Bool) (previousCheckpoints : List Object)
      (rawState : String) (run : ℕ)
  /-- Another client of the runtime starts a run. -/
  | elsewhere

/-- What a call takes its next step on. -/
inductive Event
  /-- `build_preview` returns or raises. -/
  | previewed (answer : Except TrainingJobError Preview)
  /-- Rows are read. -/
  | reads
  /-- The runtime answers to a start. -/
  | started (answer : Started)
  /-- The runtime answers to a look at its status. -/
  | status (snapshot : Snapshot)
  /-- The runtime answers to a look at its metrics. -/
  | measured (metrics : Object)
  /-- The runtime answers to a stop. -/
  | stops (rawState : String)
  /-- It has no run to stop. -/
  | noActiveJob
  /-- The connection is not usable, or the runtime answers with another error. -/
  | raises
  /-- The row is written, at this time; a new row gets this identifier. -/
  | commits (now : Int) (drawn : String)

/-- The next row of `reconnect_jobs`. -/
def refreshNext : List String → Option Frame
  | [] => none
  | jobId :: rest => some (.refreshing jobId rest)

/-- What a step does to the store. -/
inductive Effect
  | nothing
  /-- The runtime starts a run. -/
  | starts
  | inserts (jobId : String) (row : Job)
  | writes (jobId : String) (row : Job)

/-- The store behind an effect. -/
def Effect.apply (w : Store) : Effect → Store
  | .nothing => w
  | .starts => { w with current := w.current + 1 }
  | .inserts jobId row | .writes jobId row => { w with jobs := w.jobs.set jobId row }

/-- What a call does with an event, and what it does next. -/
def act (w : Store) : Frame → Event → Option (Effect × Option Frame)
  | .requested request, .previewed answer =>
    match confirm request answer with
    | .error _ => some (.nothing, none)
    | .ok preview => some (.nothing, some (.confirmed request preview))
  | .confirmed request preview, .reads =>
    match noneActive w.jobs with
    | .error _ => some (.nothing, none)
    | .ok () => some (.nothing, some (.admitted request preview))
  | .admitted request preview, .started answer =>
    some (.starts, some (.accepted request preview answer (w.current + 1)))
  | .admitted _ _, .raises => some (.nothing, none)
  | .accepted request preview answer run, .commits now drawn =>
    match w.jobs.get? drawn with
    | some _ => none
    | none => some (.inserts drawn (newJob rt request preview answer run now), none)
  | .resuming request, .reads =>
    match w.jobs.get? request.jobId with
    | none => some (.nothing, none)
    | some source =>
      match resumption rt request source with
      | .error _ => some (.nothing, none)
      | .ok request => some (.nothing, some (.requested request))
  | .reconnecting, .reads =>
    some (.nothing,
      refreshNext ((w.jobs.items.filter fun item => item.2.state.active).map Prod.fst))
  | .refreshing jobId rest, .reads =>
    match w.jobs.get? jobId with
    | none => some (.nothing, refreshNext rest)
    | some row => some (.nothing, some (.fetching jobId row.reading rest))
  | .fetching jobId reading rest, .status snapshot =>
    some (.nothing, some (.measuring jobId reading snapshot w.current rest))
  | .fetching _ _ rest, .raises => some (.nothing, refreshNext rest)
  | .measuring jobId reading snapshot run rest, .measured metrics =>
    some (.nothing, some (.observed jobId reading snapshot run metrics rest))
  | .measuring _ _ _ _ rest, .raises => some (.nothing, refreshNext rest)
  | .observed jobId reading snapshot run metrics rest, .commits now _ =>
    match w.jobs.get? jobId with
    | none => some (.nothing, refreshNext rest)
    | some row =>
      some (.writes jobId (row.refreshed rt reading snapshot run metrics now), refreshNext rest)
  | .canceling jobId retain, .reads =>
    match w.jobs.get? jobId with
    | none => some (.nothing, none)
    | some row =>
      if row.state.terminal then some (.nothing, none)
      else some (.nothing, some (.stopping jobId retain row.checkpoints))
  | .stopping jobId retain checkpoints, .stops rawState =>
    some (.nothing, some (.stopped jobId retain checkpoints rawState w.current))
  | .stopping jobId _ _, .noActiveJob => some (.nothing, some (.refreshing jobId []))
  | .stopping _ _ _, .raises => some (.nothing, none)
  | .stopped jobId retain checkpoints rawState run, .commits now _ =>
    match w.jobs.get? jobId with
    | none => some (.nothing, none)
    | some row => some (.writes jobId (row.stopped rt retain checkpoints rawState run now), none)
  | .elsewhere, .started _ => some (.starts, none)
  | _, _ => none

/-- The frames that a call begins with. -/
def Frame.entry : Frame → Bool
  | .requested _ | .resuming _ | .reconnecting | .refreshing _ [] | .canceling _ _
  | .elsewhere => true
  | _ => false

/-- The functions of the module as a service. -/
def service : Service Store Frame Event where
  entry := Frame.entry
  advance := fun w frame event => (act rt w frame event).map fun after =>
    (after.1.apply w, after.2)

end

/-- There are no jobs yet. -/
def fresh (w : Store) : Prop := w.jobs = Dict.empty

/-! ## Calls to run the steps with -/

/-- No job and no call. -/
def noJobs : Serving Store Frame where
  store := { jobs := Dict.empty, current := 0 }
  calls := Dict.empty

theorem init_noJobs (rt : Runtime) : ((service rt).system fresh).init noJobs := ⟨rfl, rfl⟩

/-- The preview of a job. -/
def tunePreview : Preview where
  datasetId := "d1"
  datasetFingerprint := "8d1f"
  model := "base-1b"
  method := "qlora"
  params := [("max_steps", .int 60)]
  outputLocation := "/runs/out"
  datasetPath := "/mnt/train/dataset.jsonl"
  trainingSupported := true
  confirmFingerprint := "c41e"

/-- The call that starts the job of the preview. -/
def tune : StartRequest where
  datasetId := "d1"
  model := "base-1b"
  method := "qlora"
  params := [("max_steps", .int 60)]
  outputLocation := "/runs/out"
  datasetPath := "/mnt/train/dataset.jsonl"
  confirmFingerprint := "c41e"
  acknowledgeImplications := true
  resumeOf := none
  resumeCheckpoint := none

/-- A job is started as far as its look for an active one. -/
def looks (call : ℕ) : List (Turn Frame Event) :=
  [.begins call (.requested tune), .goesOn call (.previewed (.ok tunePreview)), .goesOn call .reads]

/-- The runtime starts its run, and its row is added. -/
def adds (call : ℕ) (jobId : String) : List (Turn Frame Event) :=
  [.goesOn call (.started { rawState := "running", runtimeJobId := some "rt-1" }),
    .goesOn call (.commits 1000 jobId)]

/-- A job is refreshed, and the runtime says this. -/
def refreshes (call : ℕ) (jobId : String) (snapshot : Snapshot) : List (Turn Frame Event) :=
  [.begins call (.refreshing jobId []), .goesOn call .reads, .goesOn call (.status snapshot),
    .goesOn call (.measured []), .goesOn call (.commits 1001 "")]

/-- A job is cancelled, and the runtime says this. -/
def cancels (call : ℕ) (jobId : String) (retainCheckpoint : Bool) (rawState : String) :
    List (Turn Frame Event) :=
  [.begins call (.canceling jobId retainCheckpoint), .goesOn call .reads,
    .goesOn call (.stops rawState), .goesOn call (.commits 1002 "")]

/-- A snapshot that has a state and these checkpoints. -/
def saysState (rawState : String) (checkpoints : List Object) : Snapshot where
  rawState := rawState
  progress := []
  checkpoints := checkpoints
  logs := ""
  metrics := []

end Pandamonium.TrainingJobs
