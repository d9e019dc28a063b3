import Pandamonium.Model.JobRuns

/-!
# Jobs that have finished

What is recorded of a finished job stays as it is, a poll answers with every job that has finished
and was neither killed nor marked, and only jobs that were one of these are pruned, whatever the
order of calls and exits (`Sound`, `Keeps`).  But `kill` does not look for the exit-code file: a job
that has finished and was not polled since is recorded as killed (`not_lawful_endedBefore`).  A
run is lawful when `kill` is called only where the file is not there or its code is recorded
(`lawful_of_killsUnfinished`).
-/

set_option autoImplicit false

namespace Pandamonium.BackgroundJobs

open Pandamonium.Library

/-- The job is recorded with this exit code, and not as killed. -/
def Job.RecordedWith (job : Job) (code : Int) : Prop :=
  job.status ≠ .running ∧ job.exitCode = some code ∧ job.killed = false

instance (job : Job) (code : Int) : Decidable (job.RecordedWith code) :=
  inferInstanceAs (Decidable (_ ∧ _))

/-- What is recorded at the end of a job. -/
def Job.outcome (job : Job) : Status × Option Int × Option Int :=
  (job.status, job.exitCode, job.endedAt)

/-- Where `kill` is called while the exit-code file is there, the job is recorded with its code. -/
def KillsLate : Answer → Prop
  | .killed _ (some code) (some job) => job.RecordedWith code
  | _ => True

instance : DecidablePred KillsLate := by
  intro answer
  unfold KillsLate
  split
  · infer_instance
  · infer_instance

/-- A poll answers with every job that was due. -/
def AnswersDue : Answer → Prop
  | .pending due jobs => ∀ id ∈ due, ∃ job ∈ jobs, job.id = id
  | _ => True

/-- What holds between two states of a run. -/
structure Lawful (w w' : World) : Prop where
  outcomes : ∀ id job job', w.jobs.get? id = some job → w'.jobs.get? id = some job' →
    job.status ≠ .running → job'.outcome = job.outcome
  kills : ∀ answer ∈ w'.answers, KillsLate answer
  polls : ∀ answer ∈ w'.answers, AnswersDue answer
  pruned : ∀ id ∈ w'.launched, w'.jobs.get? id = none → id ∈ w'.marked ∨ id ∈ w'.stopped

/-- `kill` is called where the exit-code file is not there, or its code is recorded. -/
def killsUnfinished (w : World) : Label → Prop
  | .call (.kill id) _ =>
    ∀ code ∈ w.files.get? id, ∀ job ∈ w.jobs.get? id, job.RecordedWith code
  | _ => True

instance : DecidableRel killsUnfinished := by
  intro w label
  unfold killsUnfinished
  split
  · infer_instance
  · infer_instance

/-! ## The loop of a refresh -/

/-- What the loop may do to a record. -/
structure Refreshed (job job' : Job) : Prop where
  id : job'.id = job.id
  followedUp : job'.followedUp = job.followedUp
  finished : job.status ≠ .running → job' = job

theorem Refreshed.refl (job : Job) : Refreshed job job := ⟨rfl, rfl, fun _ => rfl⟩

variable {job job' : Job} {id : String} {now : Int}

theorem Refreshed.trans {job'' : Job} (h : Refreshed job job') (h' : Refreshed job' job'') :
    Refreshed job job'' where
  id := h'.id.trans h.id
  followedUp := h'.followedUp.trans h.followedUp
  finished := by
    intro hstatus
    obtain rfl := h.finished hstatus
    exact h'.finished hstatus

theorem refreshed_refreshJob (s : Surroundings) (id : String) (job : Job) :
    Refreshed job (refreshJob s id job) := by
  unfold refreshJob
  split
  · exact .refl job
  · rename_i hrunning
    split
    · exact ⟨rfl, rfl, fun hstatus => absurd hstatus hrunning⟩
    · simp only
      split
      · exact ⟨rfl, rfl, fun hstatus => absurd hstatus hrunning⟩
      · split
        · exact ⟨rfl, rfl, fun hstatus => absurd hstatus hrunning⟩
        · exact .refl job

/-- A job whose file is there is recorded with its code. -/
theorem refreshJob_of_file {s : Surroundings} (h : (s.exitFile id).isSome) :
    (refreshJob s id job).status ≠ .running := by
  obtain ⟨code, hcode⟩ := Option.isSome_iff_exists.mp h
  unfold refreshJob
  split
  · assumption
  · rw [hcode]
    simp only
    split <;> exact nofun

/-- The loop has the jobs of the file, and will have recorded those that were due. -/
structure Scan.Follows (jobs : Jobs) (files : Dict String Int) (due : List String)
    (scan : Scan) : Prop where
  rows : ∀ id job', scan.jobs.get? id = some job' →
    ∃ job, jobs.get? id = some job ∧ Refreshed job job'
  kept : ∀ id, scan.jobs.get? id = none → jobs.get? id = none
  due : ∀ id ∈ due, ∃ job, scan.jobs.get? id = some job ∧ job.followedUp = false ∧
    (job.status = .running → id ∈ scan.todo ∧ (files.get? id).isSome)

section Follows

variable {jobs : Jobs} {files : Dict String Int} {due : List String} {scan : Scan}

theorem Scan.Follows.record (h : scan.Follows jobs files due) (hjob : scan.jobs.get? id = some job)
    (hjob' : Refreshed job job') :
    (scan.record id job').Follows jobs files due where
  rows := by
    intro id' row hrow
    simp only [Scan.record, Dict.get?_set] at hrow
    split at hrow
    · rename_i hid
      obtain rfl := Option.some.inj hrow
      obtain ⟨old, hold, hrefreshed⟩ := h.rows id job hjob
      exact ⟨old, hid ▸ hold, hrefreshed.trans hjob'⟩
    · exact h.rows id' row hrow
  kept := by
    intro id' hnone
    simp only [Scan.record, Dict.get?_set] at hnone
    split at hnone
    · cases hnone
    · exact h.kept id' hnone
  due := by
    intro id' hid'
    obtain ⟨row, hrow, hfollowed, hrunning⟩ := h.due id' hid'
    simp only [Scan.record, Dict.get?_set]
    split
    · rename_i hid
      obtain rfl : row = job := Option.some.inj ((hid ▸ hrow).symm.trans hjob)
      refine ⟨job', rfl, hjob'.followedUp.trans hfollowed, ?_⟩
      intro hstatus
      apply hrunning
      by_contra hfinished
      obtain rfl := hjob'.finished hfinished
      exact hfinished hstatus
    · exact ⟨row, hrow, hfollowed, hrunning⟩

theorem Scan.Follows.next (h : scan.Follows jobs files due) {todo : List String}
    (htodo : scan.todo = id :: todo)
    (hid : ∀ job, scan.jobs.get? id = some job → job.status = .running → files.get? id = none) :
    ({ scan with todo := todo } : Scan).Follows jobs files due where
  rows := h.rows
  kept := h.kept
  due := by
    intro id' hid'
    obtain ⟨job, hjob, hfollowed, hrunning⟩ := h.due id' hid'
    refine ⟨job, hjob, hfollowed, ?_⟩
    intro hstatus
    obtain ⟨hmem, hfile⟩ := hrunning hstatus
    refine ⟨?_, hfile⟩
    rw [htodo] at hmem
    rcases List.mem_cons.mp hmem with rfl | hmem
    · rw [hid job hjob hstatus] at hfile
      cases hfile
    · exact hmem

end Follows

theorem mem_staleIds {jobs : Jobs} :
    id ∈ staleIds now jobs ↔ ∃ job, jobs.get? id = some job ∧ stale now job := by
  simp only [staleIds, List.mem_map, List.mem_filter, Prod.exists, exists_and_right,
    exists_eq_right, Dict.mem_items_iff]

theorem followedUp_of_stale (h : stale now job) :
    job.followedUp = true := by
  unfold stale at h
  exact (Bool.and_eq_true_iff.mp h).1

/-! ## The invariant -/

/-- What a call knows is so. -/
def Frame.Current (w : World) : Frame → Prop
  | .launching job jobs => jobs = w.jobs ∧ job.id ∉ w.launched ∧ job.followedUp = false
  | .looking _ due scan => scan.Follows w.jobs w.files due
  | .probing _ due scan id job => scan.Follows w.jobs w.files due ∧ scan.jobs.get? id = some job
  | .rechecking _ due scan id job => scan.Follows w.jobs w.files due ∧ scan.jobs.get? id = some job
  | .marking _ jobs => jobs = w.jobs
  | .killing id file jobs =>
    jobs = w.jobs ∧ ∀ code ∈ file, ∀ job ∈ jobs.get? id, job.RecordedWith code

/-- What holds in every state of a run. -/
structure Sound (w : World) : Prop where
  ids : ∀ id job, w.jobs.get? id = some job → job.id = id ∧ id ∈ w.launched
  followed : ∀ id job, w.jobs.get? id = some job → job.followedUp = true →
    id ∈ w.marked ∨ id ∈ w.stopped
  pruned : ∀ id ∈ w.launched, w.jobs.get? id = none → id ∈ w.marked ∨ id ∈ w.stopped
  answers : ∀ answer ∈ w.answers, KillsLate answer ∧ AnswersDue answer
  call : ∀ frame, w.call = some frame → frame.Current w

/-- The records of a state and of a later one: one that is there later was there, and what has
finished is as it was. -/
structure Keeps (w w' : World) : Prop where
  launched : ∀ id ∈ w.launched, id ∈ w'.launched
  rows : ∀ id ∈ w.launched, ∀ job', w'.jobs.get? id = some job' →
    ∃ job, w.jobs.get? id = some job ∧ (job.status ≠ .running → job'.outcome = job.outcome)

theorem Keeps.of_jobs {w w' : World} (hjobs : w'.jobs = w.jobs)
    (hlaunched : w'.launched = w.launched) : Keeps w w' where
  launched := fun id hid => hlaunched ▸ hid
  rows := by
    intro id _ job hjob
    rw [hjobs] at hjob
    exact ⟨job, hjob, fun _ => rfl⟩

theorem Keeps.trans {w w' w'' : World} (h : Keeps w w') (h' : Keeps w' w'') : Keeps w w'' where
  launched := fun id hid => h'.launched id (h.launched id hid)
  rows := by
    intro id hid job'' hjob''
    obtain ⟨job', hjob', hout'⟩ := h'.rows id (h.launched id hid) job'' hjob''
    obtain ⟨job, hjob, hout⟩ := h.rows id hid job' hjob'
    refine ⟨job, hjob, ?_⟩
    intro hstatus
    have hsame := hout hstatus
    have hstatus' : job'.status ≠ .running := by
      rw [show job'.status = job.status from congrArg Prod.fst hsame]
      exact hstatus
    exact (hout' hstatus').trans hsame

section Steps

variable {w w' : World}

/-- The call goes on, and nothing else happens. -/
theorem Sound.goOn (h : Sound w) {frame : Frame} (hframe : frame.Current w) :
    Sound { w with call := some frame } where
  ids := h.ids
  followed := h.followed
  pruned := h.pruned
  answers := h.answers
  call := by
    rintro _ ⟨⟩
    cases frame <;> exact hframe

/-- The record of a job is rewritten, and the job marked or stopped. -/
theorem Sound.rewrite (h : Sound w) (hjob : w.jobs.get? id = some job)
    (hjobs : w'.jobs = w.jobs.set id job') (hid : job'.id = job.id)
    (hlaunched : w'.launched = w.launched)
    (hmarked : ∀ id', id' = id ∨ id' ∈ w.marked ∨ id' ∈ w.stopped →
      id' ∈ w'.marked ∨ id' ∈ w'.stopped)
    (hanswers : ∀ answer ∈ w'.answers, KillsLate answer ∧ AnswersDue answer)
    (hcall : w'.call = none) : Sound w' where
  ids := by
    intro id' row hrow
    rw [hjobs, Dict.get?_set] at hrow
    rw [hlaunched]
    split at hrow
    · rename_i hself
      obtain rfl := Option.some.inj hrow
      rw [hself, hid]
      exact h.ids id job hjob
    · exact h.ids id' row hrow
  followed := by
    intro id' row hrow hfollowed
    apply hmarked
    rw [hjobs, Dict.get?_set] at hrow
    split at hrow
    · rename_i hself
      exact Or.inl hself
    · exact Or.inr (h.followed id' row hrow hfollowed)
  pruned := by
    intro id' hid' hnone
    apply hmarked
    rw [hjobs, Dict.get?_set] at hnone
    rw [hlaunched] at hid'
    split at hnone
    · cases hnone
    · exact Or.inr (h.pruned id' hid' hnone)
  answers := hanswers
  call := by
    intro frame hframe
    rw [hcall] at hframe
    cases hframe

theorem Keeps.rewrite (hjob : w.jobs.get? id = some job) (hjobs : w'.jobs = w.jobs.set id job')
    (hlaunched : w'.launched = w.launched)
    (hout : job.status ≠ .running → job'.outcome = job.outcome) : Keeps w w' where
  launched := fun id hid => hlaunched ▸ hid
  rows := by
    intro id' _ row hrow
    rw [hjobs, Dict.get?_set] at hrow
    split at hrow
    · rename_i hself
      obtain rfl := Option.some.inj hrow
      exact ⟨job, hself ▸ hjob, hout⟩
    · exact ⟨row, hrow, fun _ => rfl⟩

theorem sound_launching (h : Sound w) {jobs : Jobs} {alive : Bool}
    (hframe : (Frame.launching job jobs).Current w) :
    Sound (w.proceed alive now (.launching job jobs)) ∧
      Keeps w (w.proceed alive now (.launching job jobs)) := by
  obtain ⟨rfl, hnew, hfollowed⟩ := hframe
  simp only [World.proceed, launch]
  constructor
  · constructor
    case ids =>
      intro id row hrow
      simp only [Dict.get?_set] at hrow
      split at hrow
      · rename_i hid
        obtain rfl := Option.some.inj hrow
        exact ⟨hid.symm, by simp [hid]⟩
      · obtain ⟨hid, hmem⟩ := h.ids id row hrow
        exact ⟨hid, List.mem_append_left _ hmem⟩
    case followed =>
      intro id row hrow htrue
      simp only [Dict.get?_set] at hrow
      split at hrow
      · obtain rfl := Option.some.inj hrow
        rw [hfollowed] at htrue
        cases htrue
      · exact h.followed id row hrow htrue
    case pruned =>
      intro id hid hnone
      simp only [Dict.get?_set] at hnone
      split at hnone
      · cases hnone
      · rename_i hne
        rcases List.mem_append.mp hid with hid | hid
        · exact h.pruned id hid hnone
        · exact absurd (List.mem_singleton.mp hid) hne
    case answers => exact h.answers
    case call => exact fun _ hcall => nomatch hcall
  · constructor
    case launched => exact fun id hid => List.mem_append_left _ hid
    case rows =>
      intro id hid row hrow
      have hne : id ≠ job.id := fun heq => hnew (heq ▸ hid)
      simp only [Dict.get?_set, if_neg hne] at hrow
      exact ⟨row, hrow, fun _ => rfl⟩

theorem sound_marking (h : Sound w) {alive : Bool} :
    Sound (w.proceed alive now (.marking id w.jobs)) ∧
      Keeps w (w.proceed alive now (.marking id w.jobs)) := by
  unfold World.proceed
  simp only
  split
  · exact ⟨⟨h.ids, h.followed, h.pruned, h.answers, by rintro _ ⟨⟩⟩, .of_jobs rfl rfl⟩
  · rename_i saved hsaved
    obtain ⟨job, hjob, rfl⟩ := Option.map_eq_some_iff.mp hsaved
    constructor
    · refine h.rewrite hjob rfl rfl rfl ?_ h.answers rfl
      rintro id' (rfl | hmarked | hstopped)
      · exact Or.inl (by simp)
      · exact Or.inl (List.mem_append_left _ hmarked)
      · exact Or.inr hstopped
    · exact Keeps.rewrite hjob rfl rfl fun _ => rfl

theorem kill_eq_some {jobs saved : Jobs} (h : kill id now jobs = some saved) :
    ∃ job, jobs.get? id = some job ∧ job.status = .running ∧ ∃ job', job'.id = job.id ∧
      saved = jobs.set id job' := by
  unfold kill at h
  split at h
  · cases h
  · rename_i job hjob
    obtain ⟨hrunning, h⟩ := Option.ite_none_right_eq_some.mp h
    obtain rfl := Option.some.inj h
    refine ⟨job, hjob, hrunning, _, ?_, rfl⟩
    rfl

/-- A job that is recorded as finished, or is not there, is not killed. -/
theorem sound_killing (h : Sound w) {file : Option Int} {alive : Bool}
    (hfile : ∀ code ∈ file, ∀ job ∈ w.jobs.get? id, job.RecordedWith code) :
    Sound (w.proceed alive now (.killing id file w.jobs)) ∧
      Keeps w (w.proceed alive now (.killing id file w.jobs)) := by
  unfold World.proceed
  simp only
  split
  · refine ⟨⟨h.ids, h.followed, h.pruned, ?_, by rintro _ ⟨⟩⟩, .of_jobs rfl rfl⟩
    intro answer hanswer
    rcases List.mem_append.mp hanswer with hanswer | hanswer
    · exact h.answers answer hanswer
    · obtain rfl := List.mem_singleton.mp hanswer
      refine ⟨?_, trivial⟩
      unfold KillsLate
      split
      · rename_i heq
        obtain ⟨-, hcode, hjob⟩ := Answer.killed.inj heq
        exact hfile _ hcode _ hjob
      · trivial
  · rename_i saved hsaved
    obtain ⟨job, hjob, hrunning, job', hid, rfl⟩ := kill_eq_some hsaved
    have hnone : file = none := by
      rw [Option.eq_none_iff_forall_not_mem]
      intro code hcode
      exact (hfile code hcode job hjob).1 hrunning
    constructor
    · refine h.rewrite hjob rfl hid rfl ?_ ?_ rfl
      · rintro id' (rfl | hmarked | hstopped)
        · exact Or.inr (by simp)
        · exact Or.inl hmarked
        · exact Or.inr (List.mem_append_left _ hstopped)
      · intro answer hanswer
        rcases List.mem_append.mp hanswer with hanswer | hanswer
        · exact h.answers answer hanswer
        · obtain rfl := List.mem_singleton.mp hanswer
          rw [hnone]
          exact ⟨trivial, trivial⟩
    · exact Keeps.rewrite hjob rfl rfl fun hstatus => absurd hrunning hstatus

/-- What is in the file when a refresh is through. -/
theorem get?_finish {asker : Request} {due : List String} {scan : Scan} (id : String) :
    (w.finish asker due scan).jobs.get? id = w.jobs.get? id ∨
      (w.finish asker due scan).jobs.get? id =
        if id ∈ staleIds scan.now scan.jobs then none else scan.jobs.get? id := by
  simp only [World.finish]
  split
  · exact Or.inr (Dict.get?_foldl_erase _ _ _)
  · exact Or.inl rfl

section Finish

variable {asker : Request} {due : List String} {scan : Scan}
  (hfollows : scan.Follows w.jobs w.files due)

include hfollows

theorem row_of_finish (hjob' : (w.finish asker due scan).jobs.get? id = some job') :
    ∃ job, w.jobs.get? id = some job ∧ Refreshed job job' := by
  rcases @get?_finish w asker due scan id with hget | hget
  · rw [hget] at hjob'
    exact ⟨job', hjob', .refl job'⟩
  · rw [hget] at hjob'
    obtain ⟨-, hjob'⟩ := Option.ite_none_left_eq_some.mp hjob'
    exact hfollows.rows id job' hjob'

/-- What is gone was followed up. -/
theorem gone_of_finish (hnone : (w.finish asker due scan).jobs.get? id = none) :
    w.jobs.get? id = none ∨ ∃ job, w.jobs.get? id = some job ∧ job.followedUp = true := by
  rcases @get?_finish w asker due scan id with hget | hget
  · exact Or.inl (hget ▸ hnone)
  · rw [hget] at hnone
    by_cases hstale : id ∈ staleIds scan.now scan.jobs
    · obtain ⟨job', hjob', hstale⟩ := mem_staleIds.mp hstale
      obtain ⟨job, hjob, hrefreshed⟩ := hfollows.rows id job' hjob'
      exact Or.inr ⟨job, hjob, hrefreshed.followedUp ▸ followedUp_of_stale hstale⟩
    · rw [if_neg hstale] at hnone
      exact Or.inl (hfollows.kept id hnone)

theorem answersDue_of_follows (h : Sound w) (htodo : scan.todo = []) :
    AnswersDue (.pending due
      (pending ((staleIds scan.now scan.jobs).foldl Dict.erase scan.jobs))) := by
  intro id hid
  obtain ⟨job, hjob, hfollowed, hrunning⟩ := hfollows.due id hid
  have hstatus : job.status ≠ .running := by
    intro hstatus
    have hmem := (hrunning hstatus).1
    rw [htodo] at hmem
    cases hmem
  have hkept : id ∉ staleIds scan.now scan.jobs := by
    intro hstale
    obtain ⟨job', hjob', hstale⟩ := mem_staleIds.mp hstale
    obtain rfl := Option.some.inj (hjob.symm.trans hjob')
    rw [followedUp_of_stale hstale] at hfollowed
    cases hfollowed
  obtain ⟨row, hrow, hrefreshed⟩ := hfollows.rows id job hjob
  refine ⟨job, ?_, hrefreshed.id.trans (h.ids id row hrow).1⟩
  refine List.mem_filter.mpr ⟨?_, by simp [hstatus, hfollowed]⟩
  refine (Dict.mem_values_iff _ job).mpr ⟨id, ?_⟩
  rw [Dict.get?_foldl_erase, if_neg hkept, hjob]

theorem sound_finish (h : Sound w) (htodo : scan.todo = []) :
    Sound (w.finish asker due scan) ∧ Keeps w (w.finish asker due scan) := by
  constructor
  · constructor
    case ids =>
      intro id job' hjob'
      obtain ⟨job, hjob, hrefreshed⟩ := row_of_finish hfollows hjob'
      obtain ⟨hid, hmem⟩ := h.ids id job hjob
      exact ⟨hrefreshed.id.trans hid, hmem⟩
    case followed =>
      intro id job' hjob' hfollowed
      obtain ⟨job, hjob, hrefreshed⟩ := row_of_finish hfollows hjob'
      exact h.followed id job hjob (hrefreshed.followedUp ▸ hfollowed)
    case pruned =>
      intro id hid hnone
      rcases gone_of_finish hfollows hnone with hnone | ⟨job, hjob, hfollowed⟩
      · exact h.pruned id hid hnone
      · exact h.followed id job hjob hfollowed
    case answers =>
      intro answer hanswer
      simp only [World.finish] at hanswer
      split at hanswer
      · rcases List.mem_append.mp hanswer with hanswer | hanswer
        · exact h.answers answer hanswer
        · obtain rfl := List.mem_singleton.mp hanswer
          exact ⟨trivial, answersDue_of_follows hfollows h htodo⟩
      · rcases List.mem_append.mp hanswer with hanswer | hanswer
        · exact h.answers answer hanswer
        · obtain rfl := List.mem_singleton.mp hanswer
          exact ⟨trivial, trivial⟩
      · exact h.answers answer hanswer
    case call => exact fun _ hcall => nomatch hcall
  · constructor
    case launched => exact fun _ hid => hid
    case rows =>
      intro id _ job' hjob'
      obtain ⟨job, hjob, hrefreshed⟩ := row_of_finish hfollows hjob'
      exact ⟨job, hjob, fun hstatus => congrArg Job.outcome (hrefreshed.finished hstatus)⟩

theorem current_look {todo : List String} (htodo : scan.todo = id :: todo) :
    (w.look asker due scan id todo).Current w := by
  unfold World.look
  split
  · rename_i hnone
    refine hfollows.next htodo ?_
    intro job hjob
    rw [hnone] at hjob
    cases hjob
  · rename_i job hjob
    have hself : ∀ job', scan.jobs.get? id = some job' → job' = job := by
      intro job' hjob'
      exact Option.some.inj (hjob'.symm.trans hjob)
    split
    · rename_i hstatus
      refine hfollows.next htodo ?_
      intro job' hjob' hrunning
      exact absurd (hself job' hjob' ▸ hrunning) hstatus
    · simp only
      split
      · rename_i hrunning
        refine ⟨hfollows.next htodo ?_, hjob⟩
        intro _ _ _
        by_contra hfile
        exact refreshJob_of_file (Option.isSome_iff_ne_none.mpr hfile) hrunning
      · rename_i hrecorded
        refine (hfollows.record hjob (refreshed_refreshJob _ id job)).next htodo ?_
        intro job' hjob' hrunning
        simp only [Scan.record, Dict.get?_set_self] at hjob'
        obtain rfl := Option.some.inj hjob'
        exact absurd hrunning hrecorded

end Finish

theorem sound_proceed (h : Sound w) {frame : Frame} (hframe : frame.Current w) (alive : Bool)
    (now : Int) : Sound (w.proceed alive now frame) ∧ Keeps w (w.proceed alive now frame) := by
  cases frame with
  | launching job jobs => exact sound_launching h hframe
  | looking asker due scan =>
    unfold World.proceed
    simp only
    split
    · rename_i htodo
      exact sound_finish hframe h htodo
    · rename_i id todo htodo
      exact ⟨h.goOn (current_look hframe htodo), .of_jobs rfl rfl⟩
  | probing asker due scan id job =>
    refine ⟨h.goOn ?_, .of_jobs rfl rfl⟩
    split
    · exact hframe.1
    · exact hframe
  | rechecking asker due scan id job =>
    unfold World.proceed
    simp only
    split
    · exact ⟨h.goOn hframe.1, .of_jobs rfl rfl⟩
    · exact ⟨h.goOn (hframe.1.record hframe.2 (refreshed_refreshJob _ id job)), .of_jobs rfl rfl⟩
  | marking id jobs =>
    obtain rfl := hframe
    exact sound_marking h
  | killing id file jobs =>
    obtain ⟨rfl, hfile⟩ := hframe
    exact sound_killing h hfile

/-- The loop begins with the jobs of the file. -/
theorem follows_scan (h : Sound w) (now : Int) :
    ({ now := now, jobs := w.jobs, changed := false, todo := w.jobs.items.map Prod.fst } :
      Scan).Follows w.jobs w.files w.due where
  rows := fun _ job hjob => ⟨job, hjob, .refl job⟩
  kept := fun _ hnone => hnone
  due := by
    intro id hid
    obtain ⟨hlaunched, hdue⟩ := List.mem_filter.mp hid
    simp only [Bool.and_eq_true, decide_eq_true_eq, World.finished, Bool.or_eq_true] at hdue
    obtain ⟨⟨hmarked, hstopped⟩, hfinished⟩ := hdue
    cases hjob : w.jobs.get? id with
    | none =>
      rcases h.pruned id hlaunched hjob with hmem | hmem
      · exact absurd hmem hmarked
      · exact absurd hmem hstopped
    | some job =>
      refine ⟨job, rfl, ?_, ?_⟩
      · by_contra hfollowed
        rcases h.followed id job hjob (eq_true_of_ne_false hfollowed) with hmem | hmem
        · exact hmarked hmem
        · exact hstopped hmem
      · intro hrunning
        refine ⟨List.mem_map.mpr ⟨(id, job), (w.jobs.mem_items_iff id job).mpr hjob, rfl⟩, ?_⟩
        rcases hfinished with hfile | hstatus
        · exact hfile
        · rw [hjob] at hstatus
          simp [hrunning] at hstatus

theorem current_begin (h : Sound w) {request : Request} (hfresh : request.fresh w = true)
    (hok : killsUnfinished w (.call request now)) :
    (w.begin now request).Current w := by
  cases request with
  | launch id sessionId command pid maxRuntime => exact ⟨rfl, of_decide_eq_true hfresh, rfl⟩
  | refresh => exact follows_scan h now
  | pendingFollowups => exact follows_scan h now
  | get id => exact follows_scan h now
  | markFollowedUp id => rfl
  | kill id => exact ⟨rfl, hok⟩

theorem Frame.Current.writes {frame : Frame} (h : frame.Current w) (id : String) (code : Int) :
    frame.Current { w with files := w.files.set id code } := by
  have hfollows : ∀ {due : List String} {scan : Scan}, scan.Follows w.jobs w.files due →
      scan.Follows w.jobs (w.files.set id code) due := by
    intro due scan hscan
    refine ⟨hscan.rows, hscan.kept, ?_⟩
    intro id' hid'
    obtain ⟨job, hjob, hfollowed, hrunning⟩ := hscan.due id' hid'
    refine ⟨job, hjob, hfollowed, ?_⟩
    intro hstatus
    obtain ⟨hmem, hfile⟩ := hrunning hstatus
    refine ⟨hmem, ?_⟩
    rw [Dict.get?_set]
    split
    · rfl
    · exact hfile
  cases frame with
  | looking => exact hfollows h
  | probing => exact ⟨hfollows h.1, h.2⟩
  | rechecking => exact ⟨hfollows h.1, h.2⟩
  | launching => exact h
  | marking => exact h
  | killing => exact h

theorem sound_step {label : Label} (h : Sound w) (hok : killsUnfinished w label)
    (hstep : step w label = some w') : Sound w' ∧ Keeps w w' := by
  cases label with
  | call request now =>
    simp only [step] at hstep
    split at hstep
    · cases hstep
    · obtain ⟨hfresh, hw'⟩ := Option.ite_none_right_eq_some.mp hstep
      obtain rfl := Option.some.inj hw'
      exact ⟨h.goOn (current_begin h hfresh hok), .of_jobs rfl rfl⟩
  | proceed alive now =>
    obtain ⟨frame, hframe, rfl⟩ := Option.map_eq_some_iff.mp hstep
    exact sound_proceed h (h.call frame hframe) alive now
  | writes id code =>
    obtain rfl := Option.some.inj hstep
    refine ⟨⟨h.ids, h.followed, h.pruned, h.answers, ?_⟩, .of_jobs rfl rfl⟩
    exact fun frame hframe => (h.call frame hframe).writes id code

end Steps

theorem sound_empty : Sound empty where
  ids := by rintro id job ⟨⟩
  followed := by rintro id job ⟨⟩
  pruned := by rintro id ⟨⟩
  answers := by rintro answer ⟨⟩
  call := by rintro frame ⟨⟩

/-- Every run is lawful in which `kill` is called only where the exit-code file is not there or its
code is recorded. -/
theorem lawful_of_killsUnfinished {w w' : World} (hw : runs.ReachableWhere killsUnfinished w)
    (hrun : runs.RunWhere killsUnfinished w w') : Lawful w w' := by
  have hstep : ∀ s l s', Sound s → killsUnfinished s l → runs.step s l = some s' →
      Sound s' ∧ Keeps s s' := fun s l s' hs hok hl => sound_step hs hok hl
  have hsound : Sound w :=
    hw.invariant (by rintro _ rfl; exact sound_empty)
      fun s l s' hs hok hl => (hstep s l s' hs hok hl).1
  have hsound' : Sound w' :=
    hrun.preserves (fun s l s' hs hok hl => (hstep s l s' hs hok hl).1) hsound
  have hkeeps : Keeps w w' :=
    hrun.evolves (I := Sound) (R := Keeps) (fun s => .of_jobs rfl rfl) (fun a b c => Keeps.trans)
      (fun s l s' hs hok hl => (hstep s l s' hs hok hl).1)
      (fun s l s' hs hok hl => (hstep s l s' hs hok hl).2) hsound
  constructor
  case outcomes =>
    intro id job job' hjob hjob' hstatus
    obtain ⟨row, hrow, hout⟩ := hkeeps.rows id (hsound.ids id job hjob).2 job' hjob'
    obtain rfl := Option.some.inj (hjob.symm.trans hrow)
    exact hout hstatus
  case kills => exact fun answer hanswer => (hsound'.answers answer hanswer).1
  case polls => exact fun answer hanswer => (hsound'.answers answer hanswer).2
  case pruned => exact hsound'.pruned

/-! ## Runs of one job -/

/-- A job is launched, and its process ends. -/
def ended : List Label :=
  [.call (.launch "4f1d" "chat" "make backup" 71 3600) 1000, .proceed true 1000, .writes "4f1d" 0]

/-- The job is polled. -/
def polled : List Label :=
  [.call .pendingFollowups 1010, .proceed true 1010, .proceed true 1010]

/-- The job is marked, and `kill` is called. -/
def markedAndKilled : List Label :=
  [.call (.markFollowedUp "4f1d") 1020, .proceed true 1020, .call (.kill "4f1d") 1030,
    .proceed true 1030]

/-- A job is polled before `kill` is called. -/
theorem lawful_polledBefore : ∃ w w',
    (w.jobs.get? "4f1d").map Job.outcome = some (.done, some 0, some 1010) ∧
      w'.answers.length = 2 ∧ Lawful w w' := by
  obtain ⟨w, w', hw, hrun, heq⟩ := TransitionSystem.exists_runWhere_of_exec runs killsUnfinished
    (fun w w' => ((w.jobs.get? "4f1d").map Job.outcome, w'.answers.length))
    (ended ++ polled) markedAndKilled (v := (some (.done, some 0, some 1010), 2)) rfl
    (by decide +kernel)
  obtain ⟨houtcome, hanswers⟩ := Prod.mk.inj heq
  exact ⟨w, w', houtcome, hanswers, lawful_of_killsUnfinished hw hrun⟩

/-- The process has ended with 0 before `kill` is called, and the job is recorded as killed. -/
theorem not_lawful_endedBefore : ∃ w, runs.Reachable w ∧ w.files.get? "4f1d" = some 0 ∧
    (w.jobs.get? "4f1d").map (fun job => (job.exitCode, job.killed)) = some (some (-1), true) ∧
      ¬ Lawful w w := by
  obtain ⟨w, hw, heq⟩ := TransitionSystem.exists_reachableWhere_of_exec runs
    TransitionSystem.anyStep
    (fun w => (w.files.get? "4f1d",
      (w.jobs.get? "4f1d").map (fun job => (job.exitCode, job.killed)),
      decide (∀ answer ∈ w.answers, KillsLate answer)))
    (ended ++ [Label.call (.kill "4f1d") 1010, .proceed true 1010])
    (v := (some 0, some (some (-1), true), false)) rfl (by decide +kernel)
  obtain ⟨hfile, hrest⟩ := Prod.mk.inj heq
  obtain ⟨hjob, hkills⟩ := Prod.mk.inj hrest
  exact ⟨w, hw, hfile, hjob, fun hlawful => of_decide_eq_false hkills hlawful.kills⟩

end Pandamonium.BackgroundJobs
