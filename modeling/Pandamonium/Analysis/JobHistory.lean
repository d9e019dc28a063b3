import Pandamonium.Analysis.ActiveJobs

/-!
# What becomes of a training job

The runtime answers about the run it has started last, whichever job is refreshed, and
`refresh_job` writes what it says into a row that is over as into any other: a job that has
completed runs again when it is refreshed while the runtime works on the next one
(`not_kept_refreshedAgain`).  A pending cancellation does not remember whether it asked for the
checkpoints, so they are kept either way when the job turns out to be cancelled.

`kept_of_ownAnswers` is about the runs in which the answers are about the run of the job, no row
that is over gets another state, and the cancellation of a job that turns out to be cancelled, with
checkpoints, has asked for them.
-/

set_option autoImplicit false

namespace Pandamonium.TrainingJobs

open Pandamonium.Library

/-- What is so of the jobs of one state and those of a later one. -/
structure Kept (before after : Dict String Job) : Prop where
  final : ∀ id job, before.get? id = some job → job.state.terminal = true →
    ∃ job', after.get? id = some job' ∧ job'.state = job.state
  own : ∀ id job, after.get? id = some job → ∀ run ∈ job.sources, run = job.run
  retained : ∀ id job, after.get? id = some job → job.state = .canceled →
    job.retainedArtifacts ≠ [] → job.asked = true

variable (rt : Runtime)

/-- What is answered is about the run of the job, and what is written leaves the state of a row that
is over, and keeps checkpoints of a cancelled job when it has been asked to. -/
def ownAnswers (w : Store) : Frame → Event → Prop
  | .fetching jobId _ _, .status _ => ∀ row ∈ w.jobs.get? jobId, row.run = w.current
  | .stopping jobId _ _, .stops _ => ∀ row ∈ w.jobs.get? jobId, row.run = w.current
  | .observed jobId reading snapshot _ _ _, .commits _ _ =>
    ∀ row ∈ w.jobs.get? jobId,
      (row.state.terminal = true → refreshState rt reading snapshot = row.state) ∧
        (refreshState rt reading snapshot = .canceled → reading.cancelRequested = true →
          (refreshCheckpoints reading snapshot).isEmpty = false → row.asked = true)
  | .stopped jobId _ _ rawState _, .commits _ _ =>
    ∀ row ∈ w.jobs.get? jobId, row.state.terminal = true → cancelState rt rawState = row.state
  | _, _ => True

instance (w : Store) (frame : Frame) (event : Event) :
    Decidable (ownAnswers rt w frame event) := by
  unfold ownAnswers
  split <;> infer_instance

/-! ## Rows -/

/-- A row has been told about its own run only, and keeps checkpoints when asked to. -/
structure Job.Sound (job : Job) : Prop where
  own : ∀ run ∈ job.sources, run = job.run
  retained : job.retainedArtifacts ≠ [] → job.asked = true

variable {rt} {w : Store} {frame : Frame} {event : Event} {next : Option Frame}

theorem sound_newJob (request : StartRequest) (preview : Preview) (answer : Started) (run : ℕ)
    (now : Int) : (newJob rt request preview answer run now).Sound where
  own := by simp [newJob]
  retained := by simp [newJob]

theorem Job.Sound.refreshed {row : Job} (h : row.Sound) (reading : Reading) (snapshot : Snapshot)
    (metrics : Object) (now : Int)
    (hasked : refreshState rt reading snapshot = .canceled → reading.cancelRequested = true →
      (refreshCheckpoints reading snapshot).isEmpty = false → row.asked = true) :
    (row.refreshed rt reading snapshot row.run metrics now).Sound where
  own := by
    intro run hrun
    rcases List.mem_cons.mp hrun with rfl | hrun
    · rfl
    · exact h.own run hrun
  retained := by
    intro hne
    simp only [Job.refreshed] at hne ⊢
    split at hne
    · rename_i hcanceled
      split at hne
      · rename_i hrequested
        exact hasked hcanceled hrequested (by simpa using hne)
      · exact absurd rfl hne
    · exact h.retained hne

theorem Job.Sound.stopped {row : Job} (h : row.Sound) (retain : Bool) (checkpoints : List Object)
    (rawState : String) (now : Int) :
    (row.stopped rt retain checkpoints rawState row.run now).Sound where
  own := by
    intro run hrun
    rcases List.mem_cons.mp hrun with rfl | hrun
    · rfl
    · exact h.own run hrun
  retained := by
    intro hne
    simp only [Job.stopped] at hne ⊢
    split at hne
    · split at hne
      · rename_i hretain
        simp [hretain]
      · exact absurd rfl hne
    · simp [h.retained hne]

/-! ## Frames -/

/-- The job whose row the call has read. -/
def Frame.about : Frame → Option String
  | .fetching jobId _ _ | .measuring jobId _ _ _ _ | .observed jobId _ _ _ _ _
  | .stopping jobId _ _ | .stopped jobId _ _ _ _ => some jobId
  | _ => none

/-- The run that the runtime has answered about. -/
def Frame.answeredAbout : Frame → Option ℕ
  | .measuring _ _ _ run _ | .observed _ _ _ run _ _ | .stopped _ _ _ _ run => some run
  | _ => none

/-- The row that the call has read is there, and what was answered is about its run. -/
def Frame.Reads (w : Store) (frame : Frame) : Prop :=
  ∀ jobId, frame.about = some jobId →
    ∃ row, w.jobs.get? jobId = some row ∧ ∀ run, frame.answeredAbout = some run → run = row.run

theorem Frame.Reads.of_none {frame : Frame} (h : frame.about = none) : frame.Reads w := by
  intro jobId hjobId
  rw [h] at hjobId
  cases hjobId

theorem reads_refreshNext {rest : List String} {frame' : Frame}
    (h : refreshNext rest = some frame') : frame'.Reads w := by
  cases rest with
  | nil => cases h
  | cons jobId rest =>
    obtain rfl := Option.some.inj h
    exact Frame.Reads.of_none rfl

/-- The next frame reads what is there, if what is answered is about the run of the job. -/
theorem Frame.Reads.follows {effect : Effect} {frame' : Frame} (h : frame.Reads w)
    (hown : ownAnswers rt w frame event)
    (hact : act rt w frame event = some (effect, some frame')) : frame'.Reads w := by
  unfold act at hact
  split at hact <;> (try split at hact) <;> (try split at hact) <;>
    simp only [Option.some.injEq, Prod.mk.injEq, reduceCtorEq, and_false] at hact <;>
    obtain ⟨-, hact⟩ := hact <;>
    first
    | exact reads_refreshNext hact
    | subst hact
  all_goals first
    | exact Frame.Reads.of_none rfl
    | skip
  -- what is left are the frames that are about a job: two that have read its row
  case h_2 row hrow =>
    intro id hid
    exact ⟨row, Option.some.inj hid ▸ hrow, nofun⟩
  case h_2.isFalse row hrow _ =>
    intro id hid
    exact ⟨row, Option.some.inj hid ▸ hrow, nofun⟩
  -- two with an answer about the run that was started last
  case h_9 | h_15 =>
    intro id hid
    obtain ⟨row, hrow, -⟩ := h id hid
    obtain rfl := Option.some.inj hid
    exact ⟨row, hrow, fun run hrun => (Option.some.inj hrun).symm.trans (hown row hrow).symm⟩
  -- and one that keeps the answer it has
  case h_11 => exact h

/-- Rows stay, with the runs they were made for. -/
theorem carries_run {effect : Effect} (hact : act rt w frame event = some (effect, next)) :
    w.jobs.Carries (fun row row' => row'.run = row.run) (effect.apply w).jobs := by
  refine act_carries (fun _ => rfl) hact ?_
  rintro jobId old row hold rfl
  obtain ⟨old', now, drawn, hold', -, hwritten⟩ := act_writes hact
  obtain rfl := Option.some.inj (hold'.symm.trans hold)
  obtain ⟨_, _, _, _, _, -, rfl⟩ | ⟨_, _, _, _, -, rfl⟩ := hwritten
  · rfl
  · rfl

theorem Frame.Reads.carried {w' : Store} (h : frame.Reads w)
    (hcarries : w.jobs.Carries (fun row row' => row'.run = row.run) w'.jobs) : frame.Reads w' := by
  intro jobId habout
  obtain ⟨row, hrow, hanswered⟩ := h jobId habout
  obtain ⟨row', hrow', hrun⟩ := hcarries jobId row hrow
  exact ⟨row', hrow', fun run hrun' => (hanswered run hrun').trans hrun.symm⟩

/-! ## Runs -/

theorem carries_final {effect : Effect} (hact : act rt w frame event = some (effect, next))
    (hown : ownAnswers rt w frame event) :
    w.jobs.Carries (fun row row' => row.state.terminal = true → row'.state = row.state)
      (effect.apply w).jobs := by
  refine act_carries (fun _ _ => rfl) hact ?_
  rintro jobId old row hold rfl hterminal
  obtain ⟨old', now, drawn, hold', rfl, hwritten⟩ := act_writes hact
  obtain rfl := Option.some.inj (hold'.symm.trans hold)
  obtain ⟨_, _, _, _, _, rfl, rfl⟩ | ⟨_, _, _, _, rfl, rfl⟩ := hwritten
  · exact (hown old' hold').1 hterminal
  · exact hown old' hold' hterminal

theorem sound_apply {effect : Effect}
    (h : ∀ id row, w.jobs.get? id = some row → row.Sound) (hreads : frame.Reads w)
    (hact : act rt w frame event = some (effect, next)) (hown : ownAnswers rt w frame event) :
    ∀ id row, (effect.apply w).jobs.get? id = some row → row.Sound := by
  intro id row' hget
  cases effect with
  | nothing => exact h id row' hget
  | starts => exact h id row' hget
  | inserts jobId row =>
    obtain ⟨request, preview, answer, run, now, -, -, -, rfl⟩ := act_inserts hact
    rw [Effect.apply, Dict.get?_set] at hget
    split at hget
    · obtain rfl := Option.some.inj hget
      exact sound_newJob ..
    · exact h id row' hget
  | writes jobId row =>
    obtain ⟨old, now, drawn, hold, rfl, hwritten⟩ := act_writes hact
    rw [Effect.apply, Dict.get?_set] at hget
    split at hget
    case isFalse => exact h id row' hget
    case isTrue =>
      obtain rfl := Option.some.inj hget
      obtain ⟨reading, snapshot, run, metrics, rest, rfl, rfl⟩ |
        ⟨retain, checkpoints, rawState, run, rfl, rfl⟩ := hwritten
      · obtain ⟨row, hrow, hrun⟩ := hreads jobId rfl
        obtain rfl := Option.some.inj (hold.symm.trans hrow)
        obtain rfl := hrun run rfl
        exact (h jobId old hold).refreshed reading snapshot metrics now (hown old hold).2
      · obtain ⟨row, hrow, hrun⟩ := hreads jobId rfl
        obtain rfl := Option.some.inj (hold.symm.trans hrow)
        obtain rfl := hrun run rfl
        exact (h jobId old hold).stopped retain checkpoints rawState now

/-- In every run in which the answers are about the run of the job, no row that is over gets
another state, and checkpoints of a cancelled job are kept when it has been asked to: the status
of a job that is over stays, what a job was told was about its own run, and a cancelled job has
checkpoints only if its cancellation has asked for them. -/
theorem kept_of_ownAnswers (rt : Runtime) {w w' : Serving Store Frame}
    (hw : ((service rt).system fresh).ReachableWhere (Service.under (ownAnswers rt)) w)
    (hrun : ((service rt).system fresh).RunWhere (Service.under (ownAnswers rt)) w w') :
    Kept w.store.jobs w'.store.jobs := by
  have hsound := (Service.invariant
    (I := fun w => ∀ id row, w.jobs.get? id = some row → row.Sound) (J := fun w f => f.Reads w)
    (by
      intro w hempty id row hrow
      rw [hempty] at hrow
      cases hrow)
    (by
      intro w f hentry _
      exact Frame.Reads.of_none (by cases f <;> first | rfl | cases hentry))
    (by
      intro w f e w' next h hreads hown hadvance
      obtain ⟨⟨effect, next'⟩, hact, heq⟩ := Option.map_eq_some_iff.mp hadvance
      obtain ⟨rfl, rfl⟩ := Prod.mk.inj heq
      have hcarries := carries_run hact
      refine ⟨sound_apply h hreads hact hown, ?_, fun _ h => h.carried hcarries⟩
      rintro f' rfl
      exact (hreads.follows hown hact).carried hcarries)
    (hw.continued hrun)).store
  have hfinal := Service.evolves
    (R := fun w w' => w.jobs.Carries
      (fun row row' => row.state.terminal = true → row'.state = row.state) w'.jobs)
    (fun w => Dict.Carries.refl (fun _ _ => rfl) _)
    (fun a b c h h' => h.trans (fun row row' row'' h h' hterminal =>
      (h' (h hterminal ▸ hterminal)).trans (h hterminal)) h')
    (by
      intro w f e w' next hown hadvance
      obtain ⟨⟨effect, next'⟩, hact, heq⟩ := Option.map_eq_some_iff.mp hadvance
      obtain ⟨rfl, rfl⟩ := Prod.mk.inj heq
      exact carries_final hact hown)
    hrun
  constructor
  case final =>
    intro id row hrow hterminal
    obtain ⟨row', hrow', hstate⟩ := hfinal id row hrow
    exact ⟨row', hrow', hstate hterminal⟩
  case own => exact fun id row hrow => (hsound id row hrow).own
  case retained => exact fun id row hrow _ => (hsound id row hrow).retained

/-! ## Jobs that are over -/

/-- The state of a job and how many checkpoints are kept of it. -/
def keeps (w : Serving Store Frame) (jobId : String) : Option (JobState × ℕ) :=
  (w.store.jobs.get? jobId).map fun row => (row.state, row.retainedArtifacts.length)

/-- A job has a checkpoint. -/
def saved : List Object := [[("id", .str "ckpt-1"), ("step", .int 40)]]

/-- A cancelled job is resumed. -/
def resumes (call : ℕ) (jobId resumedId : String) : List (Turn Frame Event) :=
  [.begins call (.resuming
      { jobId := jobId
        checkpointId := "ckpt-1"
        confirmFingerprint := "c41e"
        acknowledgeImplications := true }),
    .goesOn call .reads, .goesOn call (.previewed (.ok tunePreview)), .goesOn call .reads] ++
  adds call resumedId

/-- A job is cancelled, its checkpoint being kept, refreshed and resumed. -/
theorem kept_resumed : ∃ w w',
    ((service Runtime.plain).system fresh).RunWhere
      (Service.under (ownAnswers Runtime.plain)) w w' ∧
    (keeps w "j1", keeps w' "j1", keeps w' "j2") =
      (some (.canceled, 1), some (.canceled, 1), some (.running, 0)) ∧
    Kept w.store.jobs w'.store.jobs := by
  obtain ⟨w, w', hw, hrun, hkeeps⟩ := TransitionSystem.exists_runWhere_of_exec
    ((service Runtime.plain).system fresh) (Service.under (ownAnswers Runtime.plain))
    (fun w w' => (keeps w "j1", keeps w' "j1", keeps w' "j2"))
    (looks 1 ++ adds 1 "j1" ++ refreshes 2 "j1" (saysState "training" saved) ++
      cancels 3 "j1" true "stopped")
    (refreshes 4 "j1" (saysState "stopped" saved) ++ resumes 5 "j1" "j2")
    (v := (some (.canceled, 1), some (.canceled, 1), some (.running, 0)))
    (init_noJobs Runtime.plain) (by decide +kernel)
  exact ⟨w, w', hrun, hkeeps, kept_of_ownAnswers Runtime.plain hw hrun⟩

/-- A job that has completed is refreshed while the runtime works on the next one, and runs
again. -/
theorem not_kept_refreshedAgain : ∃ w w',
    ((service Runtime.plain).system fresh).Reachable w ∧
    ((service Runtime.plain).system fresh).Run w w' ∧
    ¬ Kept w.store.jobs w'.store.jobs := by
  obtain ⟨w, w', hw, hrun, hkeeps⟩ := TransitionSystem.exists_runWhere_of_exec
    ((service Runtime.plain).system fresh) TransitionSystem.anyStep
    (fun w w' => (keeps w "j1", keeps w' "j1"))
    (looks 1 ++ adds 1 "j1" ++ refreshes 2 "j1" (saysState "completed" []) ++
      looks 3 ++ adds 3 "j2")
    (refreshes 4 "j1" (saysState "running" []))
    (v := (some (.completed, 0), some (.running, 0)))
    (init_noJobs Runtime.plain) (by decide +kernel)
  obtain ⟨hbefore, hafter⟩ := Prod.mk.inj hkeeps
  obtain ⟨row, hrow, heq⟩ := Option.map_eq_some_iff.mp hbefore
  obtain ⟨hstate, -⟩ := Prod.mk.inj heq
  refine ⟨w, w', hw, hrun, fun h => ?_⟩
  obtain ⟨row', hrow', hkept⟩ := h.final "j1" row hrow (by rw [hstate]; rfl)
  rw [keeps, hrow', Option.map_some, hkept, hstate] at hafter
  cases hafter

end Pandamonium.TrainingJobs
