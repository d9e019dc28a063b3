import Pandamonium.Model.TrainingJobs

/-!
# At most one active job

`start_job` looks for an active job, waits for the runtime and then adds its row.  Two calls that
both look before either adds leave two active jobs (`not_atMostOneActive_overlap`), and a job that
is over is active again when it is refreshed while the runtime works on another.  At most one is
active as long as the look would find none where a row becomes active
(`atMostOneActive_of_lookHolds`), and each step that makes two active is one where it would not
(`atMostOneActive_apply_iff`).
-/

set_option autoImplicit false

/-!
## What the steps of the training jobs write

A step adds a row, changes one or writes none: `act_inserts` and `act_writes` say which calls do so
and with what.
-/

namespace Pandamonium.TrainingJobs

open Pandamonium.Library

variable {rt : Runtime} {w : Store} {frame : Frame} {event : Event} {next : Option Frame}

/-- A row is only added by `start_job`, under an identifier that is not in use. -/
theorem act_inserts {jobId : String} {row : Job}
    (h : act rt w frame event = some (.inserts jobId row, next)) :
    ∃ request preview answer run now, frame = .accepted request preview answer run ∧
      event = .commits now jobId ∧ w.jobs.get? jobId = none ∧
      row = newJob rt request preview answer run now := by
  unfold act at h
  split at h <;> (try split at h) <;> (try split at h) <;>
    simp only [Option.some.injEq, Prod.mk.injEq, Effect.inserts.injEq, reduceCtorEq,
      false_and] at h
  obtain ⟨⟨rfl, rfl⟩, -⟩ := h
  exact ⟨_, _, _, _, _, rfl, rfl, by assumption, rfl⟩

/-- A row is only changed by `refresh_job` and `cancel_job`. -/
theorem act_writes {jobId : String} {row : Job}
    (h : act rt w frame event = some (.writes jobId row, next)) :
    ∃ old now drawn, w.jobs.get? jobId = some old ∧ event = .commits now drawn ∧
      ((∃ reading snapshot run metrics rest,
          frame = .observed jobId reading snapshot run metrics rest ∧
          row = old.refreshed rt reading snapshot run metrics now) ∨
        ∃ retain checkpoints rawState run,
          frame = .stopped jobId retain checkpoints rawState run ∧
          row = old.stopped rt retain checkpoints rawState run now) := by
  unfold act at h
  split at h <;> (try split at h) <;> (try split at h) <;>
    simp only [Option.some.injEq, Prod.mk.injEq, Effect.writes.injEq, reduceCtorEq,
      false_and] at h
  · obtain ⟨⟨rfl, rfl⟩, -⟩ := h
    exact ⟨_, _, _, by assumption, rfl, .inl ⟨_, _, _, _, _, rfl, rfl⟩⟩
  · obtain ⟨⟨rfl, rfl⟩, -⟩ := h
    exact ⟨_, _, _, by assumption, rfl, .inr ⟨_, _, _, _, rfl, rfl⟩⟩

/-- Rows stay, and change only as they are written. -/
theorem act_carries {R : Job → Job → Prop} {effect : Effect} (hrefl : ∀ row, R row row)
    (hact : act rt w frame event = some (effect, next))
    (hwrites : ∀ jobId old row, w.jobs.get? jobId = some old → effect = .writes jobId row →
      R old row) : w.jobs.Carries R (effect.apply w).jobs := by
  cases effect with
  | nothing => exact Dict.Carries.refl hrefl w.jobs
  | starts => exact Dict.Carries.refl hrefl w.jobs
  | inserts jobId row =>
    obtain ⟨-, -, -, -, -, -, -, hfresh, -⟩ := act_inserts hact
    refine Dict.Carries.set hrefl fun old hold => ?_
    rw [hfresh] at hold
    cases hold
  | writes jobId row =>
    exact Dict.Carries.set hrefl fun old hold => hwrites jobId old row hold rfl

end Pandamonium.TrainingJobs

namespace Pandamonium.TrainingJobs

open Pandamonium.Library

/-- No two rows are active. -/
def AtMostOneActive (jobs : Dict String Job) : Prop :=
  ∀ id id' job job', jobs.get? id = some job → jobs.get? id' = some job' →
    job.state.active = true → job'.state.active = true → id = id'

variable (rt : Runtime)

/-- The row is there and is not active. -/
def finished (w : Store) (jobId : String) : Bool :=
  match w.jobs.get? jobId with
  | some row => !row.state.active
  | none => false

/-- The look for an active job finds none where a new row is active, or one that was over. -/
def lookHolds (w : Store) : Frame → Event → Prop
  | .accepted _ _ answer _, .commits _ _ =>
    (startState rt answer).active → activeJobId w.jobs = none
  | .observed jobId reading snapshot _ _ _, .commits _ _ =>
    (refreshState rt reading snapshot).active → finished w jobId → activeJobId w.jobs = none
  | .stopped jobId _ _ rawState _, .commits _ _ =>
    (cancelState rt rawState).active → finished w jobId → activeJobId w.jobs = none
  | _, _ => True

instance (w : Store) (frame : Frame) (event : Event) : Decidable (lookHolds rt w frame event) :=
  match frame with
  | .accepted _ _ _ _ =>
    match event with
    | .commits _ _ => inferInstanceAs (Decidable (_ → _))
    | .previewed _ | .reads | .started _ | .status _ | .measured _ | .stops _ | .noActiveJob
    | .raises => isTrue trivial
  | .observed _ _ _ _ _ _ =>
    match event with
    | .commits _ _ => inferInstanceAs (Decidable (_ → _ → _))
    | .previewed _ | .reads | .started _ | .status _ | .measured _ | .stops _ | .noActiveJob
    | .raises => isTrue trivial
  | .stopped _ _ _ _ _ =>
    match event with
    | .commits _ _ => inferInstanceAs (Decidable (_ → _ → _))
    | .previewed _ | .reads | .started _ | .status _ | .measured _ | .stops _ | .noActiveJob
    | .raises => isTrue trivial
  | .requested _ | .confirmed _ _ | .admitted _ _ | .resuming _ | .reconnecting
  | .refreshing _ _ | .fetching _ _ _ | .measuring _ _ _ _ _ | .canceling _ _
  | .stopping _ _ _ | .elsewhere => isTrue trivial

variable {rt} {w : Store} {frame : Frame} {event : Event} {next : Option Frame}

theorem activeJobId_eq_none_iff {jobs : Dict String Job} :
    activeJobId jobs = none ↔ ∀ id job, jobs.get? id = some job → job.state.active = false := by
  simp only [activeJobId, Option.map_eq_none_iff, List.find?_eq_none, List.mem_reverse,
    Bool.not_eq_true, Prod.forall, Dict.mem_items_iff]

/-- Writing a row keeps the jobs from having two active ones just when the row is not active, was
active, or finds none that is. -/
theorem atMostOneActive_set_iff {jobs : Dict String Job} (h : AtMostOneActive jobs) (jobId : String)
    (row : Job) :
    AtMostOneActive (jobs.set jobId row) ↔
      (row.state.active = true →
        (∀ old, jobs.get? jobId = some old → old.state.active = false) →
          activeJobId jobs = none) := by
  constructor
  · intro hset hrow hold
    rw [activeJobId_eq_none_iff]
    intro id job hjob
    by_contra hactive
    rw [Bool.not_eq_false] at hactive
    have hne : id ≠ jobId := by
      rintro rfl
      rw [hold job hjob] at hactive
      cases hactive
    refine hne (hset id jobId job row ?_ (Dict.get?_set_self jobs jobId row) hactive hrow)
    rw [Dict.get?_set, if_neg hne, hjob]
  · intro hcond
    -- a row other than the one written, where that one is active
    have hother : row.state.active = true → ∀ id job, id ≠ jobId → jobs.get? id = some job →
        job.state.active = true → False := by
      intro hrow id job hne hjob hactive
      by_cases hold : ∀ old, jobs.get? jobId = some old → old.state.active = false
      · rw [activeJobId_eq_none_iff.mp (hcond hrow hold) id job hjob] at hactive
        cases hactive
      · push Not at hold
        obtain ⟨old, hget, hwas⟩ := hold
        exact hne (h id jobId job old hjob hget hactive (by simpa using hwas))
    intro id id' job job' hjob hjob' hactive hactive'
    rw [Dict.get?_set] at hjob hjob'
    split at hjob <;> split at hjob'
    case isTrue.isTrue hid hid' => rw [hid, hid']
    case isTrue.isFalse hid hne =>
      obtain rfl := Option.some.inj hjob
      exact absurd hactive' (hother hactive id' job' hne hjob')
    case isFalse.isTrue hne hid' =>
      obtain rfl := Option.some.inj hjob'
      exact absurd hactive (hother hactive' id job hne hjob)
    case isFalse.isFalse => exact h id id' job job' hjob hjob' hactive hactive'

/-- Where a step writes no row, the condition says nothing. -/
theorem lookHolds_of_nothing {effect : Effect} (h : act rt w frame event = some (effect, next))
    (hinserts : ∀ jobId row, effect ≠ .inserts jobId row)
    (hwrites : ∀ jobId row, effect ≠ .writes jobId row) : lookHolds rt w frame event := by
  unfold lookHolds
  split
  case h_1 =>
    simp only [act] at h
    split at h
    · cases h
    · obtain ⟨rfl, -⟩ := Prod.mk.inj (Option.some.inj h)
      exact absurd rfl (hinserts _ _)
  case h_2 jobId _ _ _ _ _ _ _ =>
    simp only [act] at h
    intro _ hover
    unfold finished at hover
    cases hget : w.jobs.get? jobId with
    | none =>
      rw [hget] at hover
      cases hover
    | some row =>
      rw [hget] at h
      obtain ⟨rfl, -⟩ := Prod.mk.inj (Option.some.inj h)
      exact absurd rfl (hwrites _ _)
  case h_3 jobId _ _ _ _ _ _ =>
    simp only [act] at h
    intro _ hover
    unfold finished at hover
    cases hget : w.jobs.get? jobId with
    | none =>
      rw [hget] at hover
      cases hover
    | some row =>
      rw [hget] at h
      obtain ⟨rfl, -⟩ := Prod.mk.inj (Option.some.inj h)
      exact absurd rfl (hwrites _ _)
  case h_4 => trivial

/-- A step leaves at most one active job just when the condition holds of it. -/
theorem atMostOneActive_apply_iff {effect : Effect} (h : AtMostOneActive w.jobs)
    (hact : act rt w frame event = some (effect, next)) :
    AtMostOneActive (effect.apply w).jobs ↔ lookHolds rt w frame event := by
  cases effect with
  | nothing => exact iff_of_true h (lookHolds_of_nothing hact (by simp) (by simp))
  | starts => exact iff_of_true h (lookHolds_of_nothing hact (by simp) (by simp))
  | inserts jobId row =>
    obtain ⟨request, preview, answer, run, now, rfl, rfl, hfresh, rfl⟩ := act_inserts hact
    rw [Effect.apply, atMostOneActive_set_iff h]
    simp [lookHolds, newJob, hfresh]
  | writes jobId row =>
    obtain ⟨old, now, drawn, hold, rfl, hwritten⟩ := act_writes hact
    rw [Effect.apply, atMostOneActive_set_iff h]
    obtain ⟨reading, snapshot, run, metrics, rest, rfl, rfl⟩ |
      ⟨retain, checkpoints, rawState, run, rfl, rfl⟩ := hwritten
    · simp [lookHolds, Job.refreshed, finished, hold]
    · simp [lookHolds, Job.stopped, finished, hold]

/-! ## Runs -/

/-- In every run in which the look holds where a row becomes active, at most one job is active at
any time. -/
theorem atMostOneActive_of_lookHolds (rt : Runtime) {w : Serving Store Frame}
    (hw : ((service rt).system fresh).ReachableWhere (Service.under (lookHolds rt)) w) :
    AtMostOneActive w.store.jobs := by
  refine (Service.invariant (I := fun w => AtMostOneActive w.jobs) (J := fun _ _ => True) ?_
    (fun _ _ _ _ => trivial) ?_ hw).store
  · intro w hfresh id id' job job' hjob
    rw [hfresh] at hjob
    cases hjob
  · intro w frame event w' next h _ hcond hadvance
    obtain ⟨⟨effect, next'⟩, hact, heq⟩ := Option.map_eq_some_iff.mp hadvance
    obtain ⟨rfl, rfl⟩ := Prod.mk.inj heq
    exact ⟨(atMostOneActive_apply_iff h hact).mpr hcond, fun _ _ => trivial, fun _ _ => trivial⟩

/-! ## Two jobs -/

/-- The states of the jobs, in the order they were added. -/
def states (w : Serving Store Frame) : List (String × JobState) :=
  w.store.jobs.items.map fun item => (item.1, item.2.state)

/-- A second job is started when the first has completed. -/
theorem atMostOneActive_inTurn : ∃ w,
    ((service Runtime.plain).system fresh).ReachableWhere
      (Service.under (lookHolds Runtime.plain)) w ∧
    states w = [("j1", .completed), ("j2", .running)] ∧ AtMostOneActive w.store.jobs := by
  obtain ⟨w, hw, hstates⟩ := TransitionSystem.exists_reachableWhere_of_exec
    ((service Runtime.plain).system fresh) (Service.under (lookHolds Runtime.plain)) states
    (looks 1 ++ adds 1 "j1" ++ refreshes 2 "j1" (saysState "completed" []) ++
      looks 3 ++ adds 3 "j2")
    (v := [("j1", .completed), ("j2", .running)])
    (init_noJobs Runtime.plain) (by decide +kernel)
  exact ⟨w, hw, hstates, atMostOneActive_of_lookHolds Runtime.plain hw⟩

/-- Two jobs are active when both have looked before either is added. -/
theorem not_atMostOneActive_overlap : ∃ w,
    ((service Runtime.plain).system fresh).Reachable w ∧ ¬ AtMostOneActive w.store.jobs := by
  obtain ⟨w, hw, hstates⟩ := TransitionSystem.exists_reachableWhere_of_exec
    ((service Runtime.plain).system fresh) TransitionSystem.anyStep
    (fun w => ((w.store.jobs.get? "j1").map Job.state, (w.store.jobs.get? "j2").map Job.state))
    (looks 1 ++ looks 2 ++ adds 1 "j1" ++ adds 2 "j2")
    (v := (some .running, some .running))
    (init_noJobs Runtime.plain) (by decide +kernel)
  obtain ⟨hfirst, hsecond⟩ := Prod.mk.inj hstates
  obtain ⟨job, hjob, hstate⟩ := Option.map_eq_some_iff.mp hfirst
  obtain ⟨job', hjob', hstate'⟩ := Option.map_eq_some_iff.mp hsecond
  refine ⟨w, hw, fun h => ?_⟩
  have hid := h "j1" "j2" job job' hjob hjob' (by rw [hstate]; rfl) (by rw [hstate']; rfl)
  exact absurd hid (by decide)

end Pandamonium.TrainingJobs
