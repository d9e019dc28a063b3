import Pandamonium.Analysis.UpdateSteps

/-!
# Updates that fail after the stop

The handler of `apply` undoes what the flags of the executor admit to.  `settles_iff` goes
through every step from the stop on that can raise: the previous release, its data and its
service are back after a failure of the migration, of the switch or of the health check.  They
are not after a failure of the stop itself (nothing is started again), of the instant between
the renamed link and its flag (the link stays), and of the housekeeping after the health check
(the healthy release is undone).
-/

set_option autoImplicit false

namespace Pandamonium.ReleaseUpdater

open Pandamonium.Library

variable {D : Type}

/-- The data of the update's own backup, as the machine has it. -/
def ownBackup (u : Update) (m : Machine D) : Option D :=
  (m.restorable u.backupName).map DataDir.payload

/-- The previous release with its data, and its service started or the failure to do so on
record. -/
structure Compensated [EmptyCollection D] (u : Update) (raised final : Machine D) : Prop where
  link : final.current = u.previous
  data : final.payload =
    if raised.liveMigrationStarted then ownBackup u raised else raised.payload
  exists_data : final.data.isSome = true
  service : final.commands.getLast? = some .start ∨ final.record.rollbackError.isSome = true

/-- What a failure of the step should end in: before the health check has passed the previous
release, afterwards the new one. -/
def Settles [EmptyCollection D] (u : Update) (s : Step) (raised final : Machine D) : Prop :=
  if s ∈ finishingSteps u then
    final.current = raised.current ∧ final.payload = raised.payload
  else Compensated u raised final

/-- The steps whose failure is compensated. -/
def compensatedSteps (u : Update) : List Step :=
  [.migrate,
    .state .activate 78 "Switching the immutable release atomically" noExtra,
    .replaceLink u.release,
    .start,
    .state .health 90 "Checking the new release" noExtra,
    .checkHealth u.release]

theorem Captured.restorable {u : Update} {before : Record} {m : Machine D}
    (h : Captured u before m) :
    ∃ d r, m.restorable u.backupName = some d ∧ d.record = some r ∧
      Recorded u before.backupLocation r := by
  obtain ⟨d, r, ⟨others, hothers⟩, hr⟩ := h
  refine ⟨d, r, ?_, hr⟩
  simp [Machine.restorable, hothers, Backup.restorable]

/-- Every step from the stop on is of one of five kinds. -/
theorem liveSteps_kinds {u : Update} {s : Step} (hs : s ∈ liveSteps u) :
    s = .stop ∨ s = .markMigration ∨ s = .markSwitched ∨ s ∈ finishingSteps u ∨
      s ∈ compensatedSteps u := by
  rcases mem_liveSteps hs with rfl | rfl | rfl | rfl | rfl | rfl | rfl | rfl | rfl | rfl | rfl <;>
    simp [finishingSteps, compensatedSteps]

theorem compensatedSteps_not_finishing {u : Update} {s : Step} (hs : s ∈ compensatedSteps u) :
    s ∉ finishingSteps u := by
  simp only [compensatedSteps, List.mem_cons, List.not_mem_nil, or_false] at hs
  rcases hs with rfl | rfl | rfl | rfl | rfl | rfl <;> simp [finishingSteps]

variable [EmptyCollection D] (env : Environment D)

/-- Once the migration has begun the handler restores the backup and starts the service. -/
theorem handler_live {u : Update} (error : String) {m : Machine D} {d : DataDir D}
    (hlive : m.liveMigrationStarted = true) (harchive : m.dataArchive = some u.backupName)
    (hbackup : m.restorable u.backupName = some d) :
    let final := performAll (perform env) (handler u error m) m
    final.current = (if m.switched then u.previous else m.current) ∧
      final.payload = some d.payload ∧ final.data.isSome = true ∧
      final.commands.getLast? = some .start := by
  have hlookup : (m.backups.lookup u.backupName).bind Backup.restorable = some d := hbackup
  cases hsw : m.switched <;> cases hstopped : m.serviceStopped <;>
    simp [handler, rollbackAfterFailure, restoreData, atomicSwitch, perform, Machine.writeRecord,
      Machine.payload, Machine.restorable, hlive, harchive, hsw, hstopped, hlookup]

/-- Before the migration has begun the handler only writes the record. -/
theorem handler_idle {u : Update} (error : String) {m : Machine D}
    (hlive : m.liveMigrationStarted = false) (hsw : m.switched = false) :
    performAll (perform env) (handler u error m) m =
      perform env (.fail u.manifest u.previous error none) m := by
  simp [handler, rollbackAfterFailure, hlive, hsw]

section Raised

variable {u : Update} {before : Record} {s : Step} {raised : Machine D} (error : String)

/-- Before the migration has begun nothing is compensated, and the service is not started. -/
theorem not_settles_stopped (h : Underway u before s raised)
    (hs : s = .stop ∨ s = .markMigration) (hlast : raised.commands.getLast? = some .stop) :
    ¬ Settles u s raised (performAll (perform env) (handler u error raised) raised) := by
  have hflags : raised.liveMigrationStarted = false ∧ raised.switched = false := by
    rw [h.liveMigrationStarted, h.switched]
    rcases hs with rfl | rfl <;> simp [switchedSteps, finishingSteps]
  have hnot : s ∉ finishingSteps u := by
    rcases hs with rfl | rfl <;> simp [finishingSteps]
  have hkept : (perform env (.fail u.manifest u.previous error none) raised).commands.getLast? =
      some .stop := hlast
  rw [Settles, if_neg hnot, handler_idle env error hflags.1 hflags.2]
  rintro ⟨-, -, -, hservice⟩
  rw [hkept] at hservice
  rcases hservice with hservice | hservice
  · cases hservice
  · simp [perform] at hservice

/-- From the migration on the handler takes the link back if the flag says it was moved, restores
the backup and starts the service. -/
theorem Underway.handled (h : Underway u before s raised)
    (hs : s ∉ [Step.stop, .markMigration]) :
    let final := performAll (perform env) (handler u error raised) raised
    final.current = (if s = .markSwitched then u.release else u.previous) ∧
      final.payload = ownBackup u raised ∧ final.data.isSome = true ∧
      final.commands.getLast? = some .start := by
  have hbegun : raised.liveMigrationStarted = true := by
    rw [h.liveMigrationStarted, decide_eq_true_eq]
    exact hs
  obtain ⟨d, r, hbackup, -⟩ := h.captured.restorable
  have hown : ownBackup u raised = some d.payload := by
    rw [ownBackup, hbackup]
    rfl
  obtain ⟨hlink, hpayload, hdata, hservice⟩ :=
    handler_live env error hbegun h.dataArchive hbackup
  refine ⟨?_, hpayload.trans hown.symm, hdata, hservice⟩
  rw [hlink, h.switched, h.current]
  by_cases hswitched : s ∈ switchedSteps u
  · have hother : s ≠ .markSwitched := by
      rintro rfl
      simp [switchedSteps, finishingSteps] at hswitched
    simp [hswitched, hother]
  · simp [hswitched]

end Raised

theorem migrated_of_compensated {u : Update} {s : Step} (hs : s ∈ compensatedSteps u) :
    s ∉ [Step.stop, .markMigration] ∧ s ≠ .markSwitched := by
  simp only [compensatedSteps, List.mem_cons, List.not_mem_nil, or_false] at hs
  rcases hs with rfl | rfl | rfl | rfl | rfl | rfl <;> simp

theorem migrated_of_finishing {u : Update} {s : Step} (hs : s ∈ finishingSteps u) :
    s ∉ [Step.stop, .markMigration] ∧ s ≠ .markSwitched := by
  simp only [finishingSteps, List.mem_cons, List.not_mem_nil, or_false] at hs
  rcases hs with rfl | rfl <;> simp

/-- From the stop to the health check, a failure is compensated in the steps listed; after it,
never. -/
theorem settles_iff (fault : Fault D) {u : Update} (error : String) {m : Machine D}
    (hdata : m.data.isSome = true) (hcurrent : m.current = u.previous)
    (hnew : u.previous ≠ u.release) {s : Step} (hs : s ∈ liveSteps u) :
    Settles u s (leave env fault s (applyAt env u s m)) (applyRaising env fault u s error m) ↔
      s ∈ compensatedSteps u := by
  have hcommands : s = .stop ∨ s = .markMigration →
      (leave env fault s (applyAt env u s m)).commands.getLast? = some .stop := by
    rintro (rfl | rfl)
    · simp [leave]
    · simp [leave, applyAt_live env u hs, stepsBefore, liveSteps, activationSteps, attempt,
        served_eq, perform, Machine.rewrite]
  have hway := (underway env hdata hcurrent hs).leave env fault hs
  unfold applyRaising
  simp only
  generalize leave env fault s (applyAt env u s m) = raised at hway hcommands ⊢
  rcases liveSteps_kinds hs with hstop | hmark | hswitch | hfinish | hcomp
  · have hkept := not_settles_stopped env error hway (Or.inl hstop) (hcommands (Or.inl hstop))
    exact iff_of_false hkept (by simp [hstop, compensatedSteps])
  · have hkept := not_settles_stopped env error hway (Or.inr hmark) (hcommands (Or.inr hmark))
    exact iff_of_false hkept (by simp [hmark, compensatedSteps])
  · -- the link is renamed and the flag says it is not
    obtain ⟨hlink, -⟩ := hway.handled env error (by simp [hswitch])
    refine iff_of_false ?_ (by simp [hswitch, compensatedSteps])
    rw [Settles, if_neg (by simp [hswitch, finishingSteps])]
    rintro ⟨hback, -⟩
    rw [hlink, if_pos hswitch] at hback
    exact hnew hback.symm
  · -- the healthy release is undone
    obtain ⟨hmigrated, hother⟩ := migrated_of_finishing hfinish
    obtain ⟨hlink, -⟩ := hway.handled env error hmigrated
    refine iff_of_false ?_ fun hcomp => compensatedSteps_not_finishing hcomp hfinish
    have hswitched : s ∈ switchedSteps u := List.mem_append_right _ hfinish
    rw [Settles, if_pos hfinish]
    rintro ⟨hsame, -⟩
    rw [hlink, if_neg hother, hway.current, if_pos (List.mem_cons_of_mem _ hswitched)] at hsame
    exact hnew hsame
  · obtain ⟨hmigrated, hother⟩ := migrated_of_compensated hcomp
    obtain ⟨hlink, hpayload, hdata', hservice⟩ := hway.handled env error hmigrated
    refine iff_of_true ?_ hcomp
    rw [Settles, if_neg (compensatedSteps_not_finishing hcomp)]
    refine ⟨?_, ?_, hdata', Or.inl hservice⟩
    · rw [hlink, if_neg hother]
    · rw [hpayload, hway.liveMigrationStarted, decide_eq_true hmigrated, if_pos rfl]

/-- A migration that fails is compensated. -/
theorem settles_migrationFails :
    Settles firstUpdate .migrate (leave quietly atOnce .migrate
      (applyAt quietly firstUpdate .migrate managedHost))
      (applyRaising quietly atOnce firstUpdate .migrate "migration failed" managedHost) ↔
    .migrate ∈ compensatedSteps firstUpdate :=
  settles_iff quietly atOnce "migration failed" rfl rfl (by decide +kernel) (by decide +kernel)

/-- The new release is healthy, the backups cannot be sorted, and the link goes back. -/
theorem not_settles_pruningRaises :
    ¬ Settles firstUpdate .pruneOldBackups (leave quietly atOnce .pruneOldBackups
      (applyAt quietly firstUpdate .pruneOldBackups managedHost))
      (applyRaising quietly atOnce firstUpdate .pruneOldBackups "stat" managedHost) := by
  have hraised : (leave quietly atOnce .pruneOldBackups
      (applyAt quietly firstUpdate .pruneOldBackups managedHost)).current = "1.0.11-bbbbbbbb" := by
    decide +kernel
  have hfinal : (applyRaising quietly atOnce firstUpdate .pruneOldBackups "stat"
      managedHost).current = "1.0.10-aaaaaaaa" := by
    decide +kernel
  rw [Settles, if_pos (by simp [finishingSteps]), hraised, hfinal]
  rintro ⟨hsame, -⟩
  revert hsame
  decide

end Pandamonium.ReleaseUpdater

/-!
## Rollbacks that fail

`rollback` undoes a failure of its try block by what `_restore_data` returned: the directory
the data was renamed to.  `dataKept_iff` goes through every step that can raise.  A failure
inside `_restore_data` after its first renaming is not undone, since nothing was returned:
when the second renaming fails there is no data directory, when the removal of the temporary
directory fails the backup stays in its place.  A failure of the last record comes after the
try block, and leaves the rollback done.
-/

namespace Pandamonium.ReleaseUpdater

open Pandamonium.Library

variable {D : Type}

/-- The data directory is there with its payload, and the link is the same. -/
structure DataKept (before final : Machine D) : Prop where
  exists_data : final.data.isSome = true
  link : final.current = before.current
  payload : final.payload = before.payload

theorem dataKept_fields (before final : Machine D) : DataKept before final ↔
    final.data.isSome = true ∧ final.current = before.current ∧ final.payload = before.payload :=
  ⟨fun h => ⟨h.1, h.2, h.3⟩, fun h => ⟨h.1, h.2.1, h.2.2⟩⟩

/-- What the request restores is what there is. -/
def RestoresSame (request : Request) (m : Machine D) : Prop :=
  (request.restorable m).map DataDir.payload = m.payload

/-- The steps of a rollback that restores no data. -/
theorem rollbackSteps_of_not_required {request : Request} (target : String) (m : Machine D)
    (h : request.dataRestoreRequired = false) :
    rollbackBody request target m = [.replaceLink target, .markSwitched, .start,
      .checkHealth target] ∧
    rollbackFinish request target m = [.rolledBack target m.current] := by
  simp [rollbackBody, rollbackFinish, Request.passes, h, atomicSwitch]

/-- The steps of a rollback whose backup passes. -/
theorem rollbackSteps_of_restorable {request : Request} (target : String) {m : Machine D}
    {name : String} {d : DataDir D} (h : request.dataRestoreRequired = true)
    (hname : request.backupLocation = some name) (hd : m.restorable name = some d) :
    rollbackBody request target m = [.requireArchive, .extract name, .moveDataAside,
      .moveRestoredIn, .removeTemporary, .replaceLink target, .markSwitched, .start,
      .checkHealth target] ∧
    rollbackFinish request target m = [.rolledBack target m.current] := by
  simp [rollbackBody, rollbackFinish, Request.passes, Request.restorable, h, hname, hd,
    atomicSwitch, restoreData]

/-- A rollback whose backup does not pass gets to the checks at most. -/
theorem rollbackSteps_of_not_passes {request : Request} (target : String) {m : Machine D}
    (h : request.passes m = false) :
    (rollbackBody request target m = [.requireArchive] ∨
      ∃ name, rollbackBody request target m = [.requireArchive, .extract name]) ∧
    rollbackFinish request target m = [] := by
  have hrequired : request.dataRestoreRequired = true := by
    simp only [Request.passes, Bool.or_eq_false_iff, Bool.not_eq_false'] at h
    exact h.1
  refine ⟨?_, by simp [rollbackFinish, h]⟩
  simp only [rollbackBody, hrequired, h, if_true, Bool.false_eq_true, if_false, List.append_nil]
  cases request.backupLocation with
  | none => exact Or.inl rfl
  | some name =>
    simp only
    split
    · exact Or.inr ⟨name, rfl⟩
    · exact Or.inl rfl

/-! ## Every step that can raise -/

/-- The failures that leave the data and the link as they were. -/
def Undone (request : Request) (target : String) (s : Step) (m : Machine D) : Prop :=
  s ≠ .moveRestoredIn ∧ (s = .removeTemporary → RestoresSame request m) ∧
    (s = .rolledBack target m.current →
      target = m.current ∧ (request.dataRestoreRequired = true → RestoresSame request m))

section Raising

variable [EmptyCollection D] (env : Environment D) (fault : Fault D) {request : Request}
  {target : String} {m : Machine D} {d : DataDir D} {s : Step}

/-- Without data to restore only the last record fails too late. -/
theorem dataKept_of_not_required (hd : m.data = some d)
    (hrequired : request.dataRestoreRequired = false) (hs : s ∈ rollbackSteps request target m) :
    DataKept m (rollbackRaising env fault request target s m) ↔ Undone request target s m := by
  obtain ⟨hbody, hfinish⟩ := rollbackSteps_of_not_required target m hrequired
  unfold rollbackRaising
  rw [rollbackSteps, hbody, hfinish] at hs ⊢
  simp only [rollbackPrelude, List.cons_append, List.nil_append, List.mem_cons,
    List.not_mem_nil, or_false] at hs
  cases hbegun : fault.begun
  all_goals
    rcases hs with rfl | rfl | rfl | rfl | rfl | rfl | rfl
  all_goals
    simp [dataKept_fields, Undone, stepsBefore, rollbackPrelude, perform, leave, undoRollback,
      atomicSwitch, Machine.fresh, Machine.writeRecord, Machine.payload, hbegun, hd, hrequired]

/-- A backup that does not pass fails before anything is touched. -/
theorem dataKept_of_not_passes (hd : m.data = some d) (hpasses : request.passes m = false)
    (hs : s ∈ rollbackSteps request target m) :
    DataKept m (rollbackRaising env fault request target s m) ↔ Undone request target s m := by
  obtain ⟨hbody, hfinish⟩ := rollbackSteps_of_not_passes target hpasses
  unfold rollbackRaising
  rw [rollbackSteps, hfinish] at hs ⊢
  cases hbegun : fault.begun
  all_goals
    rcases hbody with hbody | ⟨name, hbody⟩
  all_goals
    rw [hbody] at hs ⊢
    simp only [rollbackPrelude, List.cons_append, List.nil_append, List.append_nil, List.mem_cons,
      List.not_mem_nil, or_false] at hs
    rcases hs with rfl | rfl | rfl | rfl
  all_goals
    simp [dataKept_fields, Undone, stepsBefore, rollbackPrelude, perform, leave, undoRollback,
      atomicSwitch, Machine.fresh, Machine.writeRecord, Machine.payload, hbegun, hd]

/-- With a backup to restore, the renaming of the restored data and what follows it in
`_restore_data` are not undone. -/
theorem dataKept_of_restorable {name : String} {b : DataDir D} (hd : m.data = some d)
    (hrequired : request.dataRestoreRequired = true) (hname : request.backupLocation = some name)
    (hb : m.restorable name = some b) (hs : s ∈ rollbackSteps request target m) :
    DataKept m (rollbackRaising env fault request target s m) ↔ Undone request target s m := by
  have hlookup : (m.backups.lookup name).bind Backup.restorable = some b := hb
  have hsame : RestoresSame request m ↔ b.payload = d.payload := by
    simp [RestoresSame, Request.restorable, hname, hb, Machine.payload, hd]
  obtain ⟨hbody, hfinish⟩ := rollbackSteps_of_restorable target hrequired hname hb
  unfold rollbackRaising
  rw [rollbackSteps, hbody, hfinish] at hs ⊢
  simp only [rollbackPrelude, List.cons_append, List.nil_append, List.mem_cons,
    List.not_mem_nil, or_false] at hs
  cases hbegun : fault.begun
  all_goals
    rcases hs with rfl | rfl | rfl | rfl | rfl | rfl | rfl | rfl | rfl | rfl | rfl | rfl
  all_goals
    simp [dataKept_fields, Undone, stepsBefore, rollbackPrelude, perform, leave, undoRollback,
      atomicSwitch, Machine.fresh, Machine.writeRecord, Machine.payload, Machine.restorable,
      hbegun, hd, hrequired, hlookup, hsame]

/-- A failure at a step leaves the data and the link as they were if and only if it is none of
the three: the second renaming, the removal of the temporary directory, the last record. -/
theorem dataKept_iff (hdata : m.data.isSome = true) (hs : s ∈ rollbackSteps request target m) :
    DataKept m (rollbackRaising env fault request target s m) ↔ Undone request target s m := by
  obtain ⟨d, hd⟩ := Option.isSome_iff_exists.mp hdata
  cases hrequired : request.dataRestoreRequired with
  | false => exact dataKept_of_not_required env fault hd hrequired hs
  | true =>
    cases hpasses : request.passes m with
    | false => exact dataKept_of_not_passes env fault hd hpasses hs
    | true =>
      simp only [Request.passes, hrequired, Bool.not_true, Bool.false_or,
        Request.restorable] at hpasses
      obtain ⟨b, hb⟩ := Option.isSome_iff_exists.mp hpasses
      obtain ⟨name, hname, hb⟩ := Option.bind_eq_some_iff.mp hb
      exact dataKept_of_restorable env fault hd hrequired hname hb hs

end Raising

/-- The host after the update. -/
def updatedHost : Machine (List String) := apply quietly firstUpdate managedHost

/-- What a rollback of the update is asked for. -/
def rollbackRequest : Request :=
  { previousRelease := updatedHost.record.previousRelease
    backupLocation := updatedHost.record.backupLocation
    dataRestoreRequired := updatedHost.record.dataRestoreRequired }

/-- A start that fails is undone. -/
theorem dataKept_startFails :
    DataKept updatedHost (rollbackRaising quietly atOnce rollbackRequest "1.0.10-aaaaaaaa" .start
      updatedHost) ↔ Undone rollbackRequest "1.0.10-aaaaaaaa" .start updatedHost :=
  dataKept_iff quietly atOnce (by decide +kernel) (by decide +kernel)

/-- The second renaming fails, and there is no data directory. -/
theorem not_dataKept_secondRenaming :
    rollbackRequest.target updatedHost = some "1.0.10-aaaaaaaa" ∧
    .moveRestoredIn ∈ rollbackSteps rollbackRequest "1.0.10-aaaaaaaa" updatedHost ∧
    ¬ DataKept updatedHost (rollbackRaising quietly atOnce rollbackRequest "1.0.10-aaaaaaaa"
      .moveRestoredIn updatedHost) := by
  refine ⟨by decide +kernel, by decide +kernel, ?_⟩
  rintro ⟨hexists, -, -⟩
  have hgone : (rollbackRaising quietly atOnce rollbackRequest "1.0.10-aaaaaaaa" .moveRestoredIn
      updatedHost).data.isSome = false := by decide +kernel
  rw [hgone] at hexists
  cases hexists

end Pandamonium.ReleaseUpdater
