import Pandamonium.Library.Steps

/-!
# Installing and rolling back releases

`release_updater.py` installs a signed release next to the ones there are, migrates the data
directory in place, and moves the `current` link.  What it did so far is in `state.json`,
which lies in the data directory itself: a backup of the data has a copy of it, and restoring
the data restores it.

`UpdateExecutor.apply` and `UpdateExecutor.rollback` are lists of steps here, so that a step
can raise, or the process end, at any of them.  The machine is the host together with what
the executor object and its running method remember.  The payload of the data directory, of
any type, is everything in it but `state.json`; the rehearsal on extracted data, the download
and the work directory touch nothing that outlives them.
-/

set_option autoImplicit false

namespace Pandamonium.ReleaseUpdater

open Pandamonium.Library

/-! ## The record of the updater -/

/-- `state["status"]`; `idle` where there is none. -/
inductive Status
  | idle
  | queued
  | running
  | succeeded
  | failed
  | current
  | rolledBack
  | recovered
  deriving DecidableEq, Repr

/-- `state["phase"]` -/
inductive Phase
  | queued
  | download
  | stage
  | backup
  | rehearsal
  | migration
  | activate
  | health
  | rollback
  | complete
  deriving DecidableEq, Repr

structure HistoryEntry where
  action : String
  status : String
  version : Option String
  commit : Option String
  backupLocation : Option String
  prunedBackups : List String
  error : Option String
  autoRolledBack : Bool
  release : Option String
  deriving DecidableEq, Repr

/-- The state file; an entry that is missing is `None`, as `get` reads it. -/
structure Record where
  status : Status
  phase : Option Phase
  progress : ℕ
  message : String
  targetVersion : Option String
  targetCommit : Option String
  previousRelease : Option String
  backupLocation : Option String
  dataRestoreRequired : Bool
  rollbackAvailable : Bool
  autoRolledBack : Bool
  rollbackError : Option String
  history : List HistoryEntry
  deriving DecidableEq, Repr

/-- `{}` -/
def Record.empty : Record :=
  { status := .idle, phase := none, progress := 0, message := "", targetVersion := none,
    targetCommit := none, previousRelease := none, backupLocation := none,
    dataRestoreRequired := false, rollbackAvailable := false, autoRolledBack := false,
    rollbackError := none, history := [] }

/-- `list(history or [])[-19:]` and the new entry. -/
def Record.noted (r : Record) (entry : HistoryEntry) : List HistoryEntry :=
  r.history.drop (r.history.length - 19) ++ [entry]

/-! ## The host -/

/-- The data directory. -/
structure DataDir (D : Type) where
  payload : D
  /-- `updates/state.json`, where it can be read. -/
  record : Option Record

/-- A directory of the backup store. -/
structure Backup (D : Type) where
  /-- `data.tar.gz` -/
  archive : Option (DataDir D)
  /-- The metadata has the schema and the checksum of the archive, and the archive passes the
  inventory check. -/
  intact : Bool

/-- What `_restore_data` can make of a backup. -/
def Backup.restorable {D : Type} (b : Backup D) : Option (DataDir D) :=
  if b.intact then b.archive else none

inductive Action
  | stop
  | start
  deriving DecidableEq, Repr

structure Machine (D : Type) where
  /-- The directories under `releases`, with their revisions. -/
  releases : List (String × String)
  /-- What the `current` link points at. -/
  current : String
  /-- The data directory, where it exists. -/
  data : Option (DataDir D)
  /-- The directories renamed away beside it, under their numbers. -/
  aside : List (Option (DataDir D))
  /-- The `update-*` directories of the backup store, the newest first. -/
  backups : List (String × Backup D)
  /-- Whether the service runs. -/
  active : Bool
  /-- The `systemctl` commands issued. -/
  commands : List Action
  -- what the executor and its method remember
  backupDir : Option String
  liveMigrationStarted : Bool
  serviceStopped : Bool
  switched : Bool
  /-- `data_archive` of `apply`: the backup it is in. -/
  dataArchive : Option String
  /-- What `_prune_old_backups` returned. -/
  pruned : List String
  /-- What the temporary directory of `_restore_data` holds. -/
  restored : Option (DataDir D)
  /-- `failed` of `_restore_data` -/
  failed : Option ℕ
  /-- `displaced_data` of `rollback` -/
  displaced : Option ℕ

variable {D : Type}

/-- A new `UpdateExecutor` on the host. -/
def Machine.fresh (m : Machine D) : Machine D :=
  { m with
    backupDir := none
    liveMigrationStarted := false
    serviceStopped := false
    switched := false
    dataArchive := none
    pruned := []
    restored := none
    failed := none
    displaced := none }

/-- `read_update_state` -/
def Machine.record (m : Machine D) : Record := (m.data.bind DataDir.record).getD .empty

/-- The payload of the data directory, where there is one. -/
def Machine.payload (m : Machine D) : Option D := m.data.map DataDir.payload

/-- `write_update_state`; it makes the directories that are missing. -/
def Machine.writeRecord [EmptyCollection D] (r : Record) (m : Machine D) : Machine D :=
  { m with
    data := some { payload := m.payload.getD ∅, record := some r } }

/-- The payload is changed where it lies. -/
def Machine.rewrite (f : D → D) (m : Machine D) : Machine D :=
  { m with
    data := m.data.map fun d => { d with payload := f d.payload } }

/-- The data a named backup restores. -/
def Machine.restorable (m : Machine D) (name : String) : Option (DataDir D) :=
  (m.backups.lookup name).bind Backup.restorable

/-! ## Steps -/

/-- What `_state` writes beside the phase. -/
structure Extra where
  previousRelease : Option String
  targetVersion : Option String
  targetCommit : Option String
  dataRestoreRequired : Option Bool
  backupLocation : Option String
  deriving DecidableEq, Repr

def noExtra : Extra :=
  { previousRelease := none, targetVersion := none, targetCommit := none,
    dataRestoreRequired := none, backupLocation := none }

/-- The fields of a release manifest that are read. -/
structure Manifest where
  version : String
  commit : String
  /-- `manifest["compatibility"]["data_restore_required"]` -/
  dataRestoreRequired : Bool
  deriving DecidableEq, Repr

/-- One step of `apply` or `rollback`: it happens or raises. -/
inductive Step
  /-- `_state` -/
  | state (phase : Phase) (progress : ℕ) (message : String) (extra : Extra)
  | download
  /-- The release is extracted and moved into the store, unless it is there. -/
  | stage (release commit : String)
  | prepareRuntime
  /-- `_backup` -/
  | backup (name : String)
  | rehearse
  /-- `_service("stop")` -/
  | stop
  /-- `self._live_migration_started = True` -/
  | markMigration
  /-- `_migrate` on the data directory -/
  | migrate
  /-- The renaming in `_atomic_switch`, and what it checks before. -/
  | replaceLink (target : String)
  /-- `self._switched = True` -/
  | markSwitched
  /-- `_service("start")` -/
  | start
  /-- `_healthy` -/
  | checkHealth (release : String)
  /-- `_prune_old_backups` -/
  | pruneOldBackups
  /-- The last record of an update. -/
  | succeed (manifest : Manifest) (previous backupName : String)
  /-- The record of an update that failed, and `rollback_error`. -/
  | fail (manifest : Manifest) (previous error : String) (rollbackError : Option String)
  /-- `if archive is None or not archive.is_file()` -/
  | requireArchive
  /-- `_restore_data` up to the extraction: the checks of the backup. -/
  | extract (name : String)
  /-- `os.replace(self.config.data_dir, failed)` -/
  | moveDataAside
  /-- `os.replace(restored, self.config.data_dir)` -/
  | moveRestoredIn
  /-- The temporary directory is removed, and `_restore_data` returns. -/
  | removeTemporary
  /-- `os.replace(self.config.data_dir, rejected)` -/
  | moveDataRejected
  /-- `os.replace(displaced_data, self.config.data_dir)` -/
  | moveDisplacedBack
  /-- The last record of a rollback. -/
  | rolledBack (target current : String)
  deriving DecidableEq, Repr

/-- What is not the updater's: what the migration makes of the payload, which backups cannot
be removed, and what the application does to the payload, while it runs, before a step. -/
structure Environment (D : Type) where
  migrated : D → D
  stuck : String → Bool
  written : Step → D → D

/-- `_state` -/
def Record.running (r : Record) (phase : Phase) (progress : ℕ) (message : String) (extra : Extra) :
    Record :=
  { r with
    status := .running
    phase := some phase
    progress := progress
    message := message
    previousRelease := extra.previousRelease.or r.previousRelease
    targetVersion := extra.targetVersion.or r.targetVersion
    targetCommit := extra.targetCommit.or r.targetCommit
    dataRestoreRequired := extra.dataRestoreRequired.getD r.dataRestoreRequired
    backupLocation := extra.backupLocation.or r.backupLocation }

/-- `BACKUP_RETENTION` -/
def backupRetention : ℕ := 2

/-- What `_prune_old_backups` leaves: the newest, and what cannot be removed. -/
def pruneOldBackups (stuck : String → Bool) (backups : List (String × Backup D)) :
    List (String × Backup D) :=
  backups.take backupRetention ++ (backups.drop backupRetention).filter fun b => stuck b.1

variable [EmptyCollection D]

/-- What a step does when it does not raise. -/
def perform (env : Environment D) : Step → Machine D → Machine D
  | .state phase progress message extra, m =>
    m.writeRecord (m.record.running phase progress message extra)
  | .download, m => m
  | .stage release commit, m =>
    { m with
      releases := if (m.releases.lookup release).isSome then m.releases
        else (release, commit) :: m.releases }
  | .prepareRuntime, m => m
  | .backup name, m =>
    { m with
      backups := (name, { archive := m.data, intact := true }) :: m.backups
      backupDir := some name
      dataArchive := some name }
  | .rehearse, m => m
  | .stop, m =>
    { m with active := false, commands := m.commands ++ [.stop], serviceStopped := true }
  | .markMigration, m => { m with liveMigrationStarted := true }
  | .migrate, m => m.rewrite env.migrated
  | .replaceLink target, m => { m with current := target }
  | .markSwitched, m => { m with switched := true }
  | .start, m =>
    { m with active := true, commands := m.commands ++ [.start], serviceStopped := false }
  | .checkHealth _, m => m
  | .pruneOldBackups, m =>
    { m with
      backups := pruneOldBackups env.stuck m.backups
      pruned := ((m.backups.drop backupRetention).filter fun b => !env.stuck b.1).map Prod.fst }
  | .succeed manifest previous backupName, m =>
    m.writeRecord
      { m.record with
        status := .succeeded
        phase := some .complete
        progress := 100
        message := "Updated to v" ++ manifest.version
        previousRelease := some previous
        backupLocation := some backupName
        rollbackAvailable := true
        dataRestoreRequired := manifest.dataRestoreRequired
        autoRolledBack := false
        history := m.record.noted
          { action := "update", status := "succeeded", version := some manifest.version,
            commit := some manifest.commit, backupLocation := some backupName,
            prunedBackups := m.pruned, error := none, autoRolledBack := false,
            release := none } }
  | .fail manifest previous error rollbackError, m =>
    m.writeRecord
      { m.record with
        status := .failed
        phase := some (if rollbackError.isSome then .rollback else .complete)
        progress := 100
        message := error
        previousRelease := some previous
        backupLocation := m.backupDir
        rollbackAvailable := false
        autoRolledBack := rollbackError.isNone && (m.switched || m.liveMigrationStarted)
        rollbackError := rollbackError
        history := m.record.noted
          { action := "update", status := "failed", version := some manifest.version,
            commit := none, backupLocation := none, prunedBackups := [], error := some error,
            autoRolledBack := rollbackError.isNone && (m.switched || m.liveMigrationStarted),
            release := none } }
  | .requireArchive, m => m
  | .extract name, m => { m with restored := m.restorable name }
  | .moveDataAside, m =>
    { m with aside := m.aside ++ [m.data], data := none, failed := some m.aside.length }
  | .moveRestoredIn, m => { m with data := m.restored, restored := none }
  | .removeTemporary, m => { m with displaced := m.failed }
  | .moveDataRejected, m => { m with aside := m.aside ++ [m.data], data := none }
  | .moveDisplacedBack, m =>
    match m.displaced with
    | none => m
    | some i => { m with data := (m.aside[i]?).join, aside := m.aside.set i none }
  | .rolledBack target current, m =>
    m.writeRecord
      { m.record with
        status := .rolledBack
        phase := some .complete
        progress := 100
        message := "Rolled back to " ++ target
        previousRelease := some current
        rollbackAvailable := false
        autoRolledBack := false
        history := m.record.noted
          { action := "rollback", status := "succeeded", version := none, commit := none,
            backupLocation := none, prunedBackups := [], error := none, autoRolledBack := false,
            release := some target } }

/-- What a step that raises may have done before. -/
structure Fault (D : Type) where
  /-- A file or a directory that the step makes is there. -/
  begun : Bool
  /-- Whether the service runs after a `systemctl` that failed. -/
  active : Bool
  /-- What a migration that failed has made of the payload. -/
  migrated : D → D
  /-- The backups that were not removed. -/
  stuck : String → Bool

/-- What a step leaves when it raises. -/
def leave (env : Environment D) (fault : Fault D) : Step → Machine D → Machine D
  | .stop, m => { m with active := fault.active, commands := m.commands ++ [.stop] }
  | .start, m => { m with active := fault.active, commands := m.commands ++ [.start] }
  | .migrate, m => m.rewrite fault.migrated
  | .backup name, m =>
    if fault.begun then
      { m with backups := (name, { archive := none, intact := false }) :: m.backups }
    else m
  | .pruneOldBackups, m => { m with backups := pruneOldBackups fault.stuck m.backups }
  | .state phase progress message extra, m =>
    if fault.begun then perform env (.state phase progress message extra) m else m
  | .succeed manifest previous backupName, m =>
    if fault.begun then perform env (.succeed manifest previous backupName) m else m
  | .rolledBack target current, m =>
    if fault.begun then perform env (.rolledBack target current) m else m
  | _, m => m

/-! ## Updates -/

/-- One call of `apply`, after its first checks: the signed manifest, the release the link
points at, and the time the backup is named by. -/
structure Update where
  manifest : Manifest
  previous : String
  stamp : String
  deriving DecidableEq, Repr

/-- `f"{manifest['version']}-{manifest['commit'][:8]}"` -/
def Update.release (u : Update) : String :=
  u.manifest.version ++ "-" ++ String.ofList (u.manifest.commit.toList.take 8)

def Update.backupName (u : Update) : String := "update-" ++ u.release ++ "-" ++ u.stamp

/-- `_atomic_switch` -/
def atomicSwitch (target : String) : List Step := [.replaceLink target, .markSwitched]

/-- `_restore_data` -/
def restoreData (name : String) : List Step :=
  [.extract name, .moveDataAside, .moveRestoredIn, .removeTemporary]

/-- The record that `apply` starts with. -/
def Update.begins (u : Update) : Extra :=
  { previousRelease := some u.previous, targetVersion := some u.manifest.version,
    targetCommit := some u.manifest.commit,
    dataRestoreRequired := some u.manifest.dataRestoreRequired, backupLocation := none }

/-- The try block of `apply` up to the stop: nothing that is live is touched. -/
def stagingSteps (u : Update) : List Step :=
  [.state .download 10 "Downloading signed release" u.begins,
    .download,
    .state .stage 25 "Verifying and staging immutable release" noExtra,
    .stage u.release u.manifest.commit,
    .prepareRuntime,
    .state .backup 40 "Creating and verifying full data backup" noExtra,
    .backup u.backupName,
    .state .rehearsal 55 "Rehearsing migrations twice on backup data"
      { noExtra with backupLocation := some u.backupName },
    .rehearse,
    .state .migration 65 "Stopping service and applying idempotent migrations" noExtra]

/-- From the stop to the health check. -/
def activationSteps (u : Update) : List Step :=
  [Step.stop,
    .markMigration,
    .migrate,
    .state .activate 78 "Switching the immutable release atomically" noExtra] ++
  atomicSwitch u.release ++
  [Step.start,
    .state .health 90 "Checking the new release" noExtra,
    .checkHealth u.release]

/-- What follows the health check. -/
def finishingSteps (u : Update) : List Step :=
  [.pruneOldBackups, .succeed u.manifest u.previous u.backupName]

/-- The try block of `apply`. -/
def applySteps (u : Update) : List Step :=
  stagingSteps u ++ activationSteps u ++ finishingSteps u

/-- The application writes while it runs. -/
def served (env : Environment D) (s : Step) (m : Machine D) : Machine D :=
  if m.active then m.rewrite (env.written s) else m

/-- A step of `apply`, after what the application wrote. -/
def attempt (env : Environment D) (s : Step) (m : Machine D) : Machine D :=
  perform env s (served env s m)

/-- `apply` on the host, when its step `s` is due. -/
def applyAt (env : Environment D) (u : Update) (s : Step) (m : Machine D) : Machine D :=
  served env s (performAll (attempt env) (stepsBefore (applySteps u) s) m.fresh)

/-- `apply` without a failure. -/
def apply (env : Environment D) (u : Update) (m : Machine D) : Machine D :=
  performAll (attempt env) (applySteps u) m.fresh

/-- `_rollback_after_failure`, when no step of it raises. -/
def rollbackAfterFailure (u : Update) (m : Machine D) : List Step :=
  if m.switched || m.liveMigrationStarted then
    (if m.serviceStopped then [] else [Step.stop]) ++
    (if m.switched then atomicSwitch u.previous else []) ++
    (match m.liveMigrationStarted, m.dataArchive with
      | true, some name => restoreData name
      | _, _ => []) ++
    [Step.start, .checkHealth u.previous]
  else []

/-- The handler of `apply`. -/
def handler (u : Update) (error : String) (m : Machine D) : List Step :=
  rollbackAfterFailure u m ++ [Step.fail u.manifest u.previous error none]

/-- `apply` when its step `s` raises. -/
def applyRaising (env : Environment D) (fault : Fault D) (u : Update) (s : Step) (error : String)
    (m : Machine D) : Machine D :=
  let raised := leave env fault s (applyAt env u s m)
  performAll (perform env) (handler u error raised) raised

/-! ## Rollbacks -/

structure Request where
  previousRelease : Option String
  backupLocation : Option String
  dataRestoreRequired : Bool
  deriving DecidableEq, Repr

/-- The target, where the checks at the top of `rollback` pass. -/
def Request.target (request : Request) (m : Machine D) : Option String :=
  match request.previousRelease with
  | none => none
  | some target =>
    if (m.releases.lookup target).isSome &&
        (match request.backupLocation with
          | none => true
          | some name => (m.backups.lookup name).isSome) then some target
    else none

/-- The data the request restores, where it asks for it and the backup passes its checks. -/
def Request.restorable (request : Request) (m : Machine D) : Option (DataDir D) :=
  request.backupLocation.bind m.restorable

/-- Whether `rollback` gets past the checks of the backup. -/
def Request.passes (request : Request) (m : Machine D) : Bool :=
  !request.dataRestoreRequired || (request.restorable m).isSome

/-- The first steps of `rollback`, outside its try block. -/
def rollbackPrelude : List Step :=
  [.state .rollback 35 "Stopping service for rollback" noExtra, .stop]

/-- The try block of `rollback`, as far as it gets: a backup that fails its checks makes the
last of these steps raise. -/
def rollbackBody (request : Request) (target : String) (m : Machine D) : List Step :=
  (if request.dataRestoreRequired then
    Step.requireArchive :: (match request.backupLocation with
      | none => []
      | some name =>
        if request.passes m then restoreData name
        else if ((m.backups.lookup name).bind Backup.archive).isSome then [Step.extract name] else [])
  else []) ++
  (if request.passes m then atomicSwitch target ++ [Step.start, .checkHealth target] else [])

/-- What follows the try block, when it is reached. -/
def rollbackFinish (request : Request) (target : String) (m : Machine D) : List Step :=
  if request.passes m then [.rolledBack target m.current] else []

def rollbackSteps (request : Request) (target : String) (m : Machine D) : List Step :=
  rollbackPrelude ++ rollbackBody request target m ++ rollbackFinish request target m

/-- The handler of `rollback`. -/
def undoRollback (current : String) (m : Machine D) : List Step :=
  atomicSwitch current ++
  (match m.displaced with
    | none => []
    | some i =>
      if (m.aside[i]?).join.isSome then
        (if m.data.isSome then [Step.moveDataRejected] else []) ++ [Step.moveDisplacedBack]
      else []) ++
  [.start]

/-- `rollback` when its step `s` raises. -/
def rollbackRaising (env : Environment D) (fault : Fault D) (request : Request) (target : String)
    (s : Step) (m : Machine D) : Machine D :=
  let before := performAll (perform env) (stepsBefore (rollbackSteps request target m) s) m.fresh
  let raised := leave env fault s before
  if s ∈ rollbackBody request target m then
    performAll (perform env) (undoRollback m.current raised) raised
  else raised

/-- `rollback` when no step fails but by the checks; the flag says whether it returns. -/
def rollback (env : Environment D) (request : Request) (m : Machine D) : Machine D × Bool :=
  match request.target m with
  | none => (m, false)
  | some target =>
    if request.passes m then
      (performAll (perform env) (rollbackSteps request target m) m.fresh, true)
    else
      let raised := performAll (perform env) rollbackPrelude m.fresh
      (performAll (perform env) (undoRollback m.current raised) raised, false)

/-- What `recover_interrupted` asks of `rollback`. -/
def Record.request (state : Record) : Request :=
  { previousRelease := state.previousRelease
    backupLocation := state.backupLocation
    dataRestoreRequired := state.dataRestoreRequired }

/-- `recover_interrupted` -/
def recoverInterrupted (env : Environment D) (m : Machine D) : Machine D :=
  let state := m.record
  if state.status ≠ .running ∨ state.previousRelease.isNone then m
  else
    let outcome := rollback env state.request m
    if outcome.2 then
      outcome.1.writeRecord
        { outcome.1.record with
          status := .recovered
          message := "Recovered interrupted update" }
    else outcome.1

end Pandamonium.ReleaseUpdater
