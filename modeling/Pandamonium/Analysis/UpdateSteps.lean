import Pandamonium.Model.ReleaseUpdater

/-!
# An update under way

What is known of the machine when a step of `apply` is due, or has raised.  Up to the stop
nothing live is touched, and at the stop the backup of the update is the newest of the store
and named in the record (`Staged`).  From the stop on, the flags of the executor say how far
it got (`Underway`), but for one instant: the link is renamed before the flag is set.
-/

set_option autoImplicit false

namespace Pandamonium.ReleaseUpdater

open Pandamonium.Library

variable {D : Type}

theorem Machine.rewrite_id (m : Machine D) : m.rewrite id = m := by
  cases m
  simp [Machine.rewrite]

/-- What the application writes is a change of the payload only. -/
theorem served_eq (env : Environment D) (s : Step) (m : Machine D) :
    served env s m = m.rewrite (if m.active then env.written s else id) := by
  unfold served
  split
  · rfl
  · exact m.rewrite_id.symm

@[simp] theorem rewrite_record (f : D → D) (m : Machine D) : (m.rewrite f).record = m.record := by
  unfold Machine.rewrite Machine.record
  cases m.data <;> rfl

@[simp] theorem rewrite_isSome (f : D → D) (m : Machine D) :
    (m.rewrite f).data.isSome = m.data.isSome := by
  simp [Machine.rewrite]

variable [EmptyCollection D]

@[simp] theorem writeRecord_record (r : Record) (m : Machine D) : (m.writeRecord r).record = r :=
  rfl

variable {m : Machine D} {env : Environment D} {u : Update} {s : Step}

theorem writeRecord_payload (r : Record) (h : m.data.isSome = true) :
    (m.writeRecord r).payload = m.payload := by
  obtain ⟨d, hd⟩ := Option.isSome_iff_exists.mp h
  simp [Machine.writeRecord, Machine.payload, hd]

/-! ## Running a part of the update -/

/-- What the application and every step preserve holds when the steps are done. -/
theorem attempts_preserve {P : Machine D → Prop} {steps : List Step}
    (hserved : ∀ s m, P m → P (served env s m))
    (hperform : ∀ s ∈ steps, ∀ m, P m → P (perform env s m)) (h : P m) :
    P (performAll (attempt env) steps m) := by
  apply performAll_preserves _ h
  intro s hs m' hm'
  exact hperform s hs _ (hserved s m' hm')

/-- What the application and every step preserve holds when a step is due. -/
theorem applyAt_preserves {P : Machine D → Prop} (hserved : ∀ i m, P m → P (served env i m))
    (hperform : ∀ i ∈ stepsBefore (applySteps u) s, ∀ m, P m → P (perform env i m)) (h : P m.fresh) :
    P (applyAt env u s m) := by
  apply hserved
  exact attempts_preserve hserved hperform h

theorem applyAt_staging (env : Environment D) (hs : s ∈ stagingSteps u) (m : Machine D) :
    applyAt env u s m =
      served env s (performAll (attempt env) (stepsBefore (stagingSteps u) s) m.fresh) := by
  unfold applyAt applySteps
  rw [List.append_assoc, stepsBefore_append_of_mem _ hs]

/-- What a step that raises leaves: the machine, the machine with the record that is due, the
service in some state, a migration half done, a backup that is not verified, or fewer backups. -/
theorem leave_cases (env : Environment D) (fault : Fault D) (s : Step) (m : Machine D) :
    leave env fault s m = m ∨
    leave env fault s m = perform env s m ∨
    (∃ active commands, leave env fault s m = { m with active := active, commands := commands }) ∨
    leave env fault s m = m.rewrite fault.migrated ∨
    (∃ name, s = .backup name ∧ leave env fault s m =
      { m with backups := (name, { archive := none, intact := false }) :: m.backups }) ∨
    leave env fault s m = { m with backups := pruneOldBackups fault.stuck m.backups } := by
  have hrecord : leave env fault s m = (if fault.begun then perform env s m else m) →
      leave env fault s m = m ∨ leave env fault s m = perform env s m := by
    intro heq
    rw [heq]
    split
    · exact Or.inr rfl
    · exact Or.inl rfl
  cases s with
  | stop => exact Or.inr (Or.inr (Or.inl ⟨_, _, rfl⟩))
  | start => exact Or.inr (Or.inr (Or.inl ⟨_, _, rfl⟩))
  | migrate => exact Or.inr (Or.inr (Or.inr (Or.inl rfl)))
  | pruneOldBackups => exact Or.inr (Or.inr (Or.inr (Or.inr (Or.inr rfl))))
  | backup name =>
    simp only [leave]
    split
    · exact Or.inr (Or.inr (Or.inr (Or.inr (Or.inl ⟨name, rfl, rfl⟩))))
    · exact Or.inl rfl
  | state phase progress message extra => exact (hrecord rfl).imp_right Or.inl
  | succeed manifest previous backupName => exact (hrecord rfl).imp_right Or.inl
  | rolledBack target current => exact (hrecord rfl).imp_right Or.inl
  | _ => exact Or.inl rfl

/-! ## Up to the stop -/

/-- The record that an earlier interruption would be recovered from names this update. -/
structure Recorded (u : Update) (location : Option String) (r : Record) : Prop where
  status : r.status = .running
  previousRelease : r.previousRelease = some u.previous
  dataRestoreRequired : r.dataRestoreRequired = u.manifest.dataRestoreRequired
  backupLocation : r.backupLocation = location

/-- The newest backup of the store. -/
def Newest (b : String × Backup D) (m : Machine D) : Prop := ∃ others, m.backups = b :: others

/-- The backup of the update is the newest.  It holds the record of the time it was made, which
names the backup that the record `before` named. -/
def Captured (u : Update) (before : Record) (m : Machine D) : Prop :=
  ∃ d r, Newest (u.backupName, { archive := some d, intact := true }) m ∧ d.record = some r ∧
    Recorded u before.backupLocation r

/-- The machine `m` when everything is ready for the stop, in an update that found the record
`before`. -/
structure Staged (u : Update) (before : Record) (m : Machine D) : Prop where
  current : m.current = u.previous
  liveMigrationStarted : m.liveMigrationStarted = false
  serviceStopped : m.serviceStopped = false
  switched : m.switched = false
  dataArchive : m.dataArchive = some u.backupName
  captured : Captured u before m
  recorded : Recorded u (some u.backupName) m.record
  exists_data : m.data.isSome = true

theorem staged (env : Environment D) (hdata : m.data.isSome = true)
    (hcurrent : m.current = u.previous) :
    Staged u m.record (performAll (attempt env) (stagingSteps u) m.fresh) := by
  obtain ⟨d, hd⟩ := Option.isSome_iff_exists.mp hdata
  have hrecord : m.record = d.record.getD .empty := by
    simp [Machine.record, hd]
  constructor
  case recorded =>
    constructor
    all_goals simp [stagingSteps, attempt, served_eq, perform, Machine.writeRecord,
      Machine.rewrite, Machine.record, Machine.fresh, Machine.payload, Record.running,
      Update.begins, noExtra, hd]
  case captured =>
    unfold Captured Newest
    rw [hrecord]
    simp only [stagingSteps, attempt, served_eq, perform, Machine.writeRecord,
      Machine.rewrite, Machine.record, Machine.fresh, Machine.payload, Record.running,
      Update.begins, noExtra, hd, performAll_cons, performAll_nil, Option.map_some]
    refine ⟨_, _, ⟨_, rfl⟩, rfl, ?_⟩
    constructor <;> simp
  all_goals simp [stagingSteps, attempt, served_eq, perform, Machine.writeRecord,
    Machine.rewrite, Machine.record, Machine.fresh, Machine.payload, hd, hcurrent]

/-! ## From the stop on -/

/-- The steps with the new release behind the link. -/
def switchedSteps (u : Update) : List Step :=
  [Step.start, .state .health 90 "Checking the new release" noExtra, .checkHealth u.release] ++
    finishingSteps u

/-- The machine when the step `s` is due or has raised. -/
structure Underway (u : Update) (before : Record) (s : Step) (m : Machine D) : Prop where
  liveMigrationStarted : m.liveMigrationStarted = decide (s ∉ [.stop, .markMigration])
  switched : m.switched = decide (s ∈ switchedSteps u)
  current : m.current = if s ∈ .markSwitched :: switchedSteps u then u.release else u.previous
  dataArchive : m.dataArchive = some u.backupName
  captured : Captured u before m
  exists_data : m.data.isSome = true

/-- The steps of `apply` from the stop on. -/
def liveSteps (u : Update) : List Step := activationSteps u ++ finishingSteps u

theorem mem_liveSteps (hs : s ∈ liveSteps u) :
    s = .stop ∨ s = .markMigration ∨ s = .migrate ∨
      s = .state .activate 78 "Switching the immutable release atomically" noExtra ∨
      s = .replaceLink u.release ∨ s = .markSwitched ∨ s = .start ∨
      s = .state .health 90 "Checking the new release" noExtra ∨ s = .checkHealth u.release ∨
      s = .pruneOldBackups ∨ s = .succeed u.manifest u.previous u.backupName := by
  simpa [liveSteps, activationSteps, finishingSteps, atomicSwitch] using hs

/-- A step of `apply` comes before the stop, or from it on. -/
theorem mem_applySteps_iff :
    s ∈ applySteps u ↔ s ∈ stagingSteps u ∨ s ∈ liveSteps u := by
  rw [applySteps, List.append_assoc]
  exact List.mem_append

theorem not_mem_staging_of_live (hs : s ∈ liveSteps u) :
    s ∉ stagingSteps u := by
  rcases mem_liveSteps hs with rfl | rfl | rfl | rfl | rfl | rfl | rfl | rfl | rfl | rfl | rfl <;>
    simp [stagingSteps]

theorem applyAt_live (env : Environment D) (u : Update) (hs : s ∈ liveSteps u) (m : Machine D) :
    applyAt env u s m =
      served env s (performAll (attempt env) (stepsBefore (liveSteps u) s)
        (performAll (attempt env) (stagingSteps u) m.fresh)) := by
  unfold applyAt applySteps
  rw [List.append_assoc, stepsBefore_append_of_not_mem _ (not_mem_staging_of_live hs),
    performAll_append]
  rfl

omit [EmptyCollection D] in
theorem pruneOldBackups_newest (stuck : String → Bool) (b : String × Backup D)
    (others : List (String × Backup D)) :
    ∃ others', pruneOldBackups stuck (b :: others) = b :: others' :=
  ⟨_, rfl⟩

/-- Pruning and everything after the backup leave it the newest. -/
theorem Newest.perform {b : String × Backup D} (h : Newest b m) (hs : ∀ name, s ≠ .backup name) :
    Newest b (perform env s m) := by
  obtain ⟨others, hothers⟩ := h
  cases s with
  | backup name => exact absurd rfl (hs name)
  | pruneOldBackups =>
    simp only [Newest, ReleaseUpdater.perform, hothers]
    exact pruneOldBackups_newest env.stuck b others
  | moveDisplacedBack =>
    refine ⟨others, ?_⟩
    simp only [ReleaseUpdater.perform]
    split <;> exact hothers
  | _ => exact ⟨others, hothers⟩

omit [EmptyCollection D] in
theorem Newest.served {b : String × Backup D} (h : Newest b m) (s : Step) :
    Newest b (served env s m) := by
  rw [served_eq]
  exact h

theorem Newest.leave {fault : Fault D} {b : String × Backup D} (h : Newest b m)
    (hs : ∀ name, s ≠ .backup name) :
    Newest b (leave env fault s m) := by
  obtain heq | heq | ⟨active, commands, heq⟩ | heq | ⟨name, hbackup, -⟩ | heq :=
    leave_cases env fault s m
  case inr.inr.inr.inr.inl => exact absurd hbackup (hs name)
  all_goals rw [heq]
  case inr.inl => exact h.perform hs
  case inr.inr.inr.inr.inr =>
    obtain ⟨others, hothers⟩ := h
    simp only [Newest, hothers]
    exact pruneOldBackups_newest fault.stuck b others
  all_goals exact h

theorem liveSteps_not_backup (hs : s ∈ liveSteps u) (name : String) :
    s ≠ .backup name := by
  rcases mem_liveSteps hs with rfl | rfl | rfl | rfl | rfl | rfl | rfl | rfl | rfl | rfl | rfl <;>
    simp

theorem underway (env : Environment D) (hdata : m.data.isSome = true)
    (hcurrent : m.current = u.previous) (hs : s ∈ liveSteps u) :
    Underway u m.record s (applyAt env u s m) := by
  have hst := staged env hdata hcurrent
  rw [applyAt_live env u hs]
  generalize performAll (attempt env) (stagingSteps u) m.fresh = m₁ at hst ⊢
  obtain ⟨d, hd⟩ := Option.isSome_iff_exists.mp hst.exists_data
  obtain ⟨hcur, hlive, -, hsw, harchive, ⟨b, r, hnewest, hr⟩, -, -⟩ := hst
  have hcaptured : Captured u m.record (served env s
      (performAll (attempt env) (stepsBefore (liveSteps u) s) m₁)) := by
    refine ⟨b, r, Newest.served ?_ s, hr⟩
    apply attempts_preserve (fun i m' hm' => hm'.served i) _ hnewest
    intro i hi m' hm'
    exact hm'.perform (liveSteps_not_backup (stepsBefore_subset _ _ i hi))
  rcases mem_liveSteps hs with rfl | rfl | rfl | rfl | rfl | rfl | rfl | rfl | rfl | rfl | rfl
  all_goals
    refine Underway.mk ?_ ?_ ?_ ?_ hcaptured ?_
  all_goals simp [stepsBefore, liveSteps, activationSteps, finishingSteps, atomicSwitch, attempt,
    served_eq, perform, Machine.writeRecord, Machine.rewrite, switchedSteps, hd, hcur, hlive, hsw,
    harchive]

/-- What a step that raises leaves has the same flags and the same link. -/
theorem Underway.leave (env : Environment D) (fault : Fault D) {before : Record}
    (h : Underway u before s m) (hs : s ∈ liveSteps u) :
    Underway u before s (leave env fault s m) := by
  obtain ⟨d, hd⟩ := Option.isSome_iff_exists.mp h.exists_data
  obtain ⟨hlive, hsw, hcur, harchive, ⟨b, r, hnewest, hr⟩, hdata⟩ := h
  have hcaptured : Captured u before (ReleaseUpdater.leave env fault s m) :=
    ⟨b, r, hnewest.leave (liveSteps_not_backup hs), hr⟩
  cases hbegun : fault.begun
  all_goals
    rcases mem_liveSteps hs with rfl | rfl | rfl | rfl | rfl | rfl | rfl | rfl | rfl | rfl | rfl
  all_goals
    refine Underway.mk ?_ ?_ ?_ ?_ hcaptured ?_
  all_goals simp [ReleaseUpdater.leave, perform, Machine.writeRecord, Machine.rewrite, hlive, hsw,
    hcur, harchive, hd, hbegun]

/-! ## A managed host

The release 1.0.10 is installed, and the update is to 1.0.11. -/

/-- An application that writes nothing, and a migration that notes itself. -/
def quietly : Environment (List String) :=
  { migrated := fun files => files ++ ["migrated"], stuck := fun _ => false,
    written := fun _ => id }

/-- The step raises before it does anything. -/
def atOnce : Fault (List String) :=
  { begun := false, active := true, migrated := id, stuck := fun _ => true }

def managedHost : Machine (List String) :=
  { releases := [("1.0.10-aaaaaaaa", "aaaaaaaaaaaaaaaaaaaaaaaaaaaaaaaaaaaaaaaa")]
    current := "1.0.10-aaaaaaaa"
    data := some { payload := ["owner.txt"], record := none }
    aside := []
    backups := []
    active := true
    commands := []
    backupDir := none
    liveMigrationStarted := false
    serviceStopped := false
    switched := false
    dataArchive := none
    pruned := []
    restored := none
    failed := none
    displaced := none }

def firstUpdate : Update :=
  { manifest :=
      { version := "1.0.11"
        commit := "bbbbbbbbbbbbbbbbbbbbbbbbbbbbbbbbbbbbbbbb"
        dataRestoreRequired := true }
    previous := "1.0.10-aaaaaaaa"
    stamp := "20260101T000000Z" }

end Pandamonium.ReleaseUpdater
