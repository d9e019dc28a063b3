import Pandamonium.Library.TransitionSystem
import Pandamonium.Analysis.UpdateRecovery

/-!
# Histories of updates

A host goes through updates that succeed, that fail and are handled, and that are cut off, through
recoveries, rollbacks and writes of the application.  As long as no crash comes between the
two renamings of a restoration, the data directory is there and the link points at a release of
the store (`sound_of_reachable`), which is all that an update needs to find; so recovery is right
about every later crash that `Recoverable` admits (`recovers_of_history`).
-/

set_option autoImplicit false

namespace Pandamonium.ReleaseUpdater

open Pandamonium.Library

variable {D : Type} [EmptyCollection D] (env : Environment D)

/-! ## Events -/

/-- The first checks of `apply`: the link points at the previous release, and that is not the
revision of the manifest. -/
def Update.Ready (u : Update) (m : Machine D) : Prop :=
  m.current = u.previous ∧ m.releases.lookup u.previous ≠ some u.manifest.commit

instance (u : Update) (m : Machine D) : Decidable (u.Ready m) :=
  inferInstanceAs (Decidable (_ ∧ _))

instance (u : Update) (c : CrashPoint D) : Decidable (c.Cuts u) :=
  match c with
  | .within s _ => inferInstanceAs (Decidable (s ∈ applySteps u))
  | .handling s _ _ _ => inferInstanceAs (Decidable (s ∈ applySteps u))

inductive Event (D : Type)
  | updated (u : Update)
  /-- A step raised, and the handler did its work. -/
  | failed (u : Update) (s : Step) (fault : Fault D) (error : String)
  | crashed (u : Update) (c : CrashPoint D)
  | recovered
  | rolledBack (request : Request)
  /-- The application changed the payload. -/
  | wrote (f : D → D)

/-- The data directory is there, and the link points at a release of the store. -/
structure Sound (m : Machine D) : Prop where
  exists_data : m.data.isSome = true
  linked : Installed m.current m

/-- The histories of a host. -/
def history : TransitionSystem (Machine D) (Event D) where
  init := Sound
  step
    | m, .updated u => if u.Ready m then some (apply env u m) else none
    | m, .failed u s fault error =>
      if u.Ready m ∧ s ∈ applySteps u then some (applyRaising env fault u s error m) else none
    | m, .crashed u c => if u.Ready m ∧ c.Cuts u then some (c.machine env u m) else none
    | m, .recovered => some (recoverInterrupted env m)
    | m, .rolledBack request => some (rollback env request m).1
    | m, .wrote f => some (m.rewrite f)

/-- No crash comes between the two renamings of a restoration. -/
def outsideRenamings (m : Machine D) : Event D → Prop
  | .crashed u (.handling s fault error done) =>
    let steps := (handler u error (leave env fault s (applyAt env u s m))).take done
    .moveDataAside ∈ steps → .moveRestoredIn ∈ steps
  | _ => True

/-! ## The link -/

variable {env} {u : Update} {m : Machine D}

/-- Moving the link to releases of the store keeps it on one. -/
theorem linked_performAll {steps : List Step} (hlinked : Installed m.current m)
    (htargets : ∀ target, .replaceLink target ∈ steps → Installed target m) :
    Installed (performAll (perform env) steps m).current (performAll (perform env) steps m) := by
  have hboth : Installed (performAll (perform env) steps m).current
      (performAll (perform env) steps m) ∧
      ∀ target, .replaceLink target ∈ steps →
        Installed target (performAll (perform env) steps m) := by
    refine performAll_preserves (P := fun m' : Machine D => Installed m'.current m' ∧
      ∀ target, .replaceLink target ∈ steps → Installed target m') ?_ ⟨hlinked, htargets⟩
    rintro s hs m' ⟨hlinked, htargets⟩
    refine ⟨?_, fun target ht => (htargets target ht).perform env s⟩
    have hkept := hlinked.perform env s
    cases s with
    | replaceLink target => exact htargets target hs
    | moveDisplacedBack =>
      simp only [perform] at hkept ⊢
      split at hkept <;> exact hkept
    | _ => exact hkept
  exact hboth.1

variable {s : Step}

variable (env) in
/-- The release is in the store when the service is stopped. -/
theorem installed_release (hs : s ∈ liveSteps u) (m : Machine D) :
    Installed u.release (applyAt env u s m) := by
  have hattempts : ∀ (steps : List Step) (m' : Machine D), Installed u.release m' →
      Installed u.release (performAll (attempt env) steps m') := by
    intro steps m' hm'
    exact attempts_preserve (fun i _ h => h.served env i) (fun i _ _ h => h.perform env i) hm'
  have hsplit : stagingSteps u = (stagingSteps u).take 3 ++
      .stage u.release u.manifest.commit :: (stagingSteps u).drop 4 := rfl
  rw [applyAt_live env u hs]
  apply Installed.served
  apply hattempts
  rw [hsplit, performAll_append, performAll_cons]
  apply hattempts
  generalize performAll (attempt env) ((stagingSteps u).take 3) m.fresh = m'
  simp only [attempt, perform, Installed]
  split
  · assumption
  · simp

theorem leave_current (fault : Fault D) (s : Step) (m : Machine D) :
    (leave env fault s m).current = m.current := by
  cases s with
  | state phase progress message extra =>
    simp only [leave]
    split <;> rfl
  | succeed manifest previous backupName =>
    simp only [leave]
    split <;> rfl
  | rolledBack target current =>
    simp only [leave]
    split <;> rfl
  | backup name =>
    simp only [leave]
    split <;> rfl
  | _ => rfl

theorem staging_current (hs : s ∈ stagingSteps u) (m : Machine D) :
    (applyAt env u s m).current = m.current := by
  rw [applyAt_staging env hs, served_eq]
  refine performAll_frame (f := Machine.current) ?_ m.fresh
  intro i hi m'
  have hmem := stepsBefore_subset _ _ i hi
  rw [attempt, served_eq]
  simp only [stagingSteps, List.mem_cons, List.not_mem_nil, or_false] at hmem
  rcases hmem with rfl | rfl | rfl | rfl | rfl | rfl | rfl | rfl | rfl | rfl <;> rfl

/-- At every crash in the try block the link points at a release of the store. -/
theorem linked_raised (hsound : Sound m) (hcurrent : m.current = u.previous) (fault : Fault D)
    (hs : s ∈ applySteps u) :
    Installed (leave env fault s (applyAt env u s m)).current
      (leave env fault s (applyAt env u s m)) := by
  rw [leave_current]
  refine Installed.leave env ?_ fault s
  rcases mem_applySteps_iff.mp hs with hs | hs
  · rw [staging_current hs]
    exact installed_applyAt env hsound.linked u s
  · have hway := underway env hsound.exists_data hcurrent hs
    rw [hway.current]
    split
    · exact installed_release env hs m
    · rw [← hcurrent]
      exact installed_applyAt env hsound.linked u s

omit [EmptyCollection D] in
theorem handler_targets (error : String) {raised : Machine D} {target : String}
    (h : .replaceLink target ∈ handler u error raised) : target = u.previous := by
  simp only [handler, rollbackAfterFailure, List.mem_append] at h
  rcases h with h | h
  · split at h
    · simp only [List.mem_append] at h
      rcases h with ((h | h) | h) | h
      · split at h <;> simp at h
      · split at h <;> simp [atomicSwitch] at h
        exact h
      · split at h <;> simp [restoreData] at h
      · simp at h
    · simp at h
  · simp at h

/-- Nor does the handler take the link off the store. -/
theorem linked_handling (hsound : Sound m) (hcurrent : m.current = u.previous) (fault : Fault D)
    (error : String) (hs : s ∈ applySteps u) (done : ℕ) :
    let raised := leave env fault s (applyAt env u s m)
    let crashed := performAll (perform env) ((handler u error raised).take done) raised
    Installed crashed.current crashed := by
  apply linked_performAll (linked_raised hsound hcurrent fault hs)
  intro target ht
  rw [handler_targets error (List.mem_of_mem_take ht), ← hcurrent]
  exact (installed_applyAt env hsound.linked u s).leave env fault s

/-! ## The data directory -/

/-- The steps that take the data directory away or bring one. -/
def renamings : List Step := [.moveDataAside, .moveRestoredIn, .moveDataRejected, .moveDisplacedBack]

theorem perform_isSome (hs : s ∉ renamings) (h : m.data.isSome = true) :
    (perform env s m).data.isSome = true := by
  cases s with
  | moveDataAside => simp [renamings] at hs
  | moveRestoredIn => simp [renamings] at hs
  | moveDataRejected => simp [renamings] at hs
  | moveDisplacedBack => simp [renamings] at hs
  | migrate => rw [perform, rewrite_isSome, h]
  | state phase progress message extra => rfl
  | succeed manifest previous backupName => rfl
  | fail manifest previous error rollbackError => rfl
  | rolledBack target current => rfl
  | _ => exact h

theorem performAll_isSome {steps : List Step} (hsteps : ∀ s ∈ steps, s ∉ renamings)
    (h : m.data.isSome = true) : (performAll (perform env) steps m).data.isSome = true :=
  performAll_preserves (P := fun m' : Machine D => m'.data.isSome = true)
    (fun s hs _ h => perform_isSome (hsteps s hs) h) h

omit [EmptyCollection D] in
theorem afterRestore_not_renamings (error : String) (hs : s ∈ afterRestore u error) :
    s ∉ renamings := by
  simp only [afterRestore, List.mem_cons, List.not_mem_nil, or_false] at hs
  rcases hs with rfl | rfl | rfl | rfl <;> simp [renamings]

omit [EmptyCollection D] in
theorem beforeRestore_not_renamings (hs : s ∈ beforeRestore u m) : s ∉ renamings := by
  rcases mem_beforeRestore hs with rfl | rfl | rfl | rfl <;> simp [renamings]

/-- A crash in the handler leaves a data directory, unless it comes between the renamings. -/
theorem handling_isSome (hdata : m.data.isSome = true) (hcurrent : m.current = u.previous)
    (fault : Fault D) (error : String) (hs : s ∈ applySteps u) {done : ℕ}
    (hwhole : outsideRenamings env m (.crashed u (.handling s fault error done))) :
    ((CrashPoint.handling s fault error done).machine env u m).data.isSome = true := by
  simp only [outsideRenamings, CrashPoint.machine] at hwhole ⊢
  by_cases hearly : s ∈ earlySteps u
  · have hstanding := cut_early env hdata hcurrent fault hearly
    generalize leave env fault s (applyAt env u s m) = raised at hstanding ⊢
    apply performAll_isSome _ hstanding.exists_data
    intro i hi
    rw [hstanding.handler_eq] at hi
    have hfail := List.mem_of_mem_take hi
    simp only [List.mem_singleton] at hfail
    subst hfail
    simp [renamings]
  · rw [earlySteps, List.mem_append, not_or] at hearly
    have hlive := (mem_applySteps_iff.mp hs).resolve_left hearly.1
    have hway := (underway env hdata hcurrent hlive).leave env fault hlive
    generalize leave env fault s (applyAt env u s m) = raised at hway hwhole ⊢
    have hbegun : raised.liveMigrationStarted = true := by
      rw [hway.liveMigrationStarted, decide_eq_true_eq]
      exact hearly.2
    obtain ⟨d, -, hd, -⟩ := hway.captured.restorable
    rw [handler_eq error hbegun hway.dataArchive] at hwhole ⊢
    by_cases haside : .moveDataAside ∈ (beforeRestore u raised ++ .moveDataAside ::
        .moveRestoredIn :: afterRestore u error).take done
    · obtain ⟨k, hk⟩ := take_behind_renamings error (hwhole haside)
      rw [hk, performAll_append]
      apply performAll_isSome
      · intro i hi
        exact afterRestore_not_renamings error (List.mem_of_mem_take hi)
      · rw [(performAll_restore env hd).1]
        rfl
    · rw [take_of_not_mem haside]
      apply performAll_isSome _ hway.exists_data
      intro i hi
      exact beforeRestore_not_renamings (List.mem_of_mem_take hi)

/-- A crash in the try block leaves a data directory. -/
theorem within_isSome (hdata : m.data.isSome = true) (hcurrent : m.current = u.previous)
    (fault : Fault D) (hs : s ∈ applySteps u) :
    (leave env fault s (applyAt env u s m)).data.isSome = true := by
  rcases mem_applySteps_iff.mp hs with hs | hs
  · exact (cut_standing env fault hdata hs).exists_data
  · exact ((underway env hdata hcurrent hs).leave env fault hs).exists_data

/-! ## What an event keeps -/

theorem apply_eq (env : Environment D) (u : Update) (m : Machine D) :
    apply env u m = perform env (.succeed u.manifest u.previous u.backupName)
      (applyAt env u (.succeed u.manifest u.previous u.backupName) m) := by
  have hsplit : applySteps u = (stagingSteps u ++ activationSteps u ++ [Step.pruneOldBackups]) ++
      [Step.succeed u.manifest u.previous u.backupName] := by
    simp [applySteps, finishingSteps]
  have hnot : Step.succeed u.manifest u.previous u.backupName ∉
      stagingSteps u ++ activationSteps u ++ [Step.pruneOldBackups] := by
    simp [stagingSteps, activationSteps, atomicSwitch]
  rw [apply, applyAt, hsplit, performAll_append, stepsBefore_append_of_not_mem _ hnot]
  simp [stepsBefore, attempt]

theorem Sound.apply (h : Sound m) (hcurrent : m.current = u.previous) :
    Sound (apply env u m) := by
  have hlive : .succeed u.manifest u.previous u.backupName ∈ liveSteps u := by
    simp [liveSteps, finishingSteps]
  have hway := underway env h.exists_data hcurrent hlive
  have hrelease := installed_release env hlive m
  rw [apply_eq]
  generalize applyAt env u _ m = due at hway hrelease ⊢
  refine ⟨rfl, ?_⟩
  have hcur : due.current = u.release := by
    rw [hway.current]
    simp [switchedSteps, finishingSteps]
  show Installed due.current due
  rw [hcur]
  exact hrelease

theorem Sound.crashed (h : Sound m) (hcurrent : m.current = u.previous) {c : CrashPoint D}
    (hc : c.Cuts u) (hwhole : outsideRenamings env m (.crashed u c)) :
    Sound (c.machine env u m) := by
  cases c with
  | within s fault =>
    exact ⟨within_isSome h.exists_data hcurrent fault hc, linked_raised h hcurrent fault hc⟩
  | handling s fault error done =>
    exact ⟨handling_isSome h.exists_data hcurrent fault error hc hwhole,
      linked_handling h hcurrent fault error hc done⟩

omit [EmptyCollection D] in
theorem handler_renamings (error : String) (h : .moveDataAside ∈ handler u error m) :
    .moveRestoredIn ∈ handler u error m := by
  unfold handler rollbackAfterFailure at h ⊢
  cases hlive : m.liveMigrationStarted <;> cases hsw : m.switched <;>
    cases hstopped : m.serviceStopped <;> cases harchive : m.dataArchive <;>
    simp [hlive, hsw, hstopped, harchive, restoreData, atomicSwitch] at h ⊢

/-- The handler that is done is a handler that is cut off at its end. -/
theorem Sound.applyRaising (h : Sound m) (hcurrent : m.current = u.previous) (fault : Fault D)
    (error : String) (hs : s ∈ applySteps u) :
    Sound (applyRaising env fault u s error m) := by
  let raised := leave env fault s (applyAt env u s m)
  have hend : ReleaseUpdater.applyRaising env fault u s error m =
      (CrashPoint.handling s fault error (handler u error raised).length).machine env u m := by
    rw [CrashPoint.machine, List.take_length]
    rfl
  rw [hend]
  refine Sound.crashed h hcurrent hs ?_
  simp only [outsideRenamings]
  rw [List.take_length]
  exact handler_renamings error

omit [EmptyCollection D] in
theorem rollbackSteps_targets {request : Request} {target t : String}
    (h : .replaceLink t ∈ rollbackSteps request target m) : t = target := by
  simp only [rollbackSteps, rollbackFinish, List.mem_append] at h
  rcases h with (h | h) | h
  · simp [rollbackPrelude] at h
  · simp only [rollbackBody, List.mem_append] at h
    rcases h with h | h
    · split at h
      · simp only [List.mem_cons, reduceCtorEq, false_or] at h
        split at h
        · simp at h
        · split at h
          · simp [restoreData] at h
          · split at h <;> simp at h
      · simp at h
    · split at h
      · simpa [atomicSwitch] using h
      · simp at h
  · split at h <;> simp at h

omit [EmptyCollection D] in
theorem undoRollback_targets {current t : String}
    (h : .replaceLink t ∈ undoRollback current m) : t = current := by
  simp only [undoRollback, atomicSwitch, List.mem_append] at h
  rcases h with (h | h) | h
  · simpa using h
  · split at h
    · simp at h
    · split at h
      · split at h <;> simp at h
      · simp at h
  · simp at h

omit [EmptyCollection D] in
theorem installed_target {request : Request} {target : String}
    (h : request.target m = some target) : Installed target m := by
  unfold Request.target at h
  cases hprevious : request.previousRelease with
  | none =>
    rw [hprevious] at h
    cases h
  | some previous =>
    simp only [hprevious, Option.ite_none_right_eq_some, Bool.and_eq_true,
      Option.some.injEq] at h
    obtain ⟨⟨hlookup, -⟩, rfl⟩ := h
    exact hlookup
variable (env) in
theorem Sound.rollback (h : Sound m) (request : Request) :
    Sound (rollback env request m).1 := by
  obtain ⟨d, hd⟩ := Option.isSome_iff_exists.mp h.exists_data
  constructor
  case exists_data =>
    have hpayload := rollback_payload env request hd
    obtain ⟨p, hp⟩ : ∃ p, (ReleaseUpdater.rollback env request m).1.payload = some p := by
      rw [hpayload]
      split
      · cases (request.restorable m).map DataDir.payload with
        | none => exact ⟨d.payload, rfl⟩
        | some p => exact ⟨p, rfl⟩
      · exact ⟨d.payload, rfl⟩
    exact isSome_data_of_payload hp
  case linked =>
    unfold ReleaseUpdater.rollback
    cases htarget : request.target m with
    | none => exact h.linked
    | some target =>
      have hfresh : Installed m.fresh.current m.fresh := h.linked
      simp only
      split
      · apply linked_performAll hfresh
        intro t ht
        rw [rollbackSteps_targets ht]
        exact installed_target htarget
      · have hraised : Installed (performAll (perform env) rollbackPrelude m.fresh).current
            (performAll (perform env) rollbackPrelude m.fresh) :=
          linked_performAll hfresh (by simp [rollbackPrelude])
        apply linked_performAll hraised
        intro t ht
        rw [undoRollback_targets ht]
        exact hraised

theorem Sound.recoverInterrupted (h : Sound m) : Sound (recoverInterrupted env m) := by
  unfold ReleaseUpdater.recoverInterrupted
  simp only
  split
  · exact h
  · have hrollback := Sound.rollback env h m.record.request
    split
    · exact ⟨rfl, hrollback.linked⟩
    · exact hrollback

/-- Every event outside the renamings keeps the host sound. -/
theorem sound_step (m : Machine D) (event : Event D) (m' : Machine D) (h : Sound m)
    (hwhole : outsideRenamings env m event) (hstep : (history env).step m event = some m') :
    Sound m' := by
  cases event with
  | updated u =>
    obtain ⟨hready, hsome⟩ := Option.ite_none_right_eq_some.mp hstep
    obtain rfl := Option.some.inj hsome
    exact h.apply hready.1
  | failed u s fault error =>
    obtain ⟨⟨hready, hs⟩, hsome⟩ := Option.ite_none_right_eq_some.mp hstep
    obtain rfl := Option.some.inj hsome
    exact h.applyRaising hready.1 fault error hs
  | crashed u c =>
    obtain ⟨⟨hready, hc⟩, hsome⟩ := Option.ite_none_right_eq_some.mp hstep
    obtain rfl := Option.some.inj hsome
    exact h.crashed hready.1 hc hwhole
  | recovered =>
    obtain rfl := Option.some.inj hstep
    exact h.recoverInterrupted
  | rolledBack request =>
    obtain rfl := Option.some.inj hstep
    exact h.rollback env request
  | wrote f =>
    obtain rfl := Option.some.inj hstep
    exact ⟨by rw [rewrite_isSome]; exact h.exists_data, h.linked⟩

/-- The host is sound all through a history without a crash between the renamings. -/
theorem sound_of_reachable (hm : (history env).ReachableWhere (outsideRenamings env) m) :
    Sound m :=
  hm.invariant (fun _ h => h) sound_step

/-- The update to 1.0.12. -/
def secondUpdate : Update :=
  { manifest :=
      { version := "1.0.12"
        commit := "cccccccccccccccccccccccccccccccccccccccc"
        dataRestoreRequired := true }
    previous := "1.0.11-bbbbbbbb"
    stamp := "20260201T000000Z" }

theorem sound_managedHost : Sound managedHost := ⟨rfl, rfl⟩

end Pandamonium.ReleaseUpdater
