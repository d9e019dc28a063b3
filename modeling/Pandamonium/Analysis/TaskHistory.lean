import Pandamonium.Analysis.JarvisSteps

/-!
# The history of a worker task

A task is a record with a log, closed by a terminal status.  Every write of the voice agent
continues the records of the file, but two: `start_task` saves the copy it made before it
awaited the adapter, and a reused task gets another presenter in the events it already has.
-/

set_option autoImplicit false

namespace Pandamonium.Jarvis

open Pandamonium.Library

variable {cfg : Config}

/-- A task as a record: its events, closed by a terminal status, with its status and result. -/
def taskView : LogView Task Event (TaskStatus × Option String) where
  log := Task.events
  closed task := task.status.terminal
  outcome task := (task.status, task.result)

variable (cfg) in
/-- No event has come for the task that the adapter accepts, and none for a reused task that
gets another presenter. -/
def undisturbed (s : State) (l : Label) : Bool :=
  ((s.startAnswer l).all fun answer => (taskEvents s.store answer.1.taskId).isEmpty) &&
    (s.reuse l).all fun reuse => reuse.1.events.isEmpty ||
      decide (presenterLabel cfg reuse.2 = "" ∨ reuse.1.presenter = presenterLabel cfg reuse.2)

/-! ## Growth, one lemma for each kind of write -/

theorem extends_appended {task : Task} {e : Incoming} (o : Occasion)
    (hopen : ignoresEvent task e = false) : taskView.Extends task (task.appended cfg e o) := by
  refine .of_open (not_terminal_of_ignoresEvent_eq_false hopen) ?_
  simp only [taskView, events_appended]
  exact List.prefix_append _ _

theorem Store.Valid.grows_appendEvent {s s' : Store} (hs : s.Valid) {taskId : String}
    {e : Incoming} {o : Occasion} (h : Jarvis.appendEvent cfg s taskId e o = some s') :
    taskView.Grows s.tasks s'.tasks := by
  rcases tasks_appendEvent h with htasks | ⟨task, htask, hopen, htasks⟩
  · rw [htasks]
    exact .refl _
  · rw [htasks]
    refine .set fun task₀ htask₀ => ?_
    rw [hs.keyed _ _ htask, htask] at htask₀
    obtain rfl := Option.some.inj htask₀
    exact extends_appended o hopen

theorem grows_of_fresh {tasks : Dict String Task} {task : Task}
    (h : tasks.get? task.taskId = none) : taskView.Grows tasks (tasks.set task.taskId task) := by
  refine .set fun task₀ htask₀ => ?_
  rw [h] at htask₀
  cases htask₀

theorem Store.Valid.grows_bindTaskPresenter {s : Store} (hs : s.Valid) {k : String} {task : Task}
    (htask : s.tasks.get? k = some task) (hopen : task.status.terminal = false)
    {presenter : Option String}
    (h : task.events = [] ∨ presenterLabel cfg presenter = "" ∨
      task.presenter = presenterLabel cfg presenter) :
    taskView.Grows s.tasks (Jarvis.bindTaskPresenter cfg s task presenter).tasks := by
  unfold Jarvis.bindTaskPresenter
  dsimp only
  split
  · exact .refl _
  · case isFalse hlabel =>
    refine .set fun task₀ htask₀ => ?_
    have hkey : s.tasks.get? task.taskId = some task := by rw [hs.keyed _ _ htask, htask]
    obtain rfl : task = task₀ := Option.some.inj (hkey.symm.trans htask₀)
    refine .of_open hopen ?_
    have hempty : task.events = [] := h.resolve_right hlabel
    simp [taskView, Task.relabel, hempty]

/-- The copy of `start_task` replaces a task without events. -/
theorem Sound.grows_acceptStart {s : State} (hs : Sound s) {call : ℕ} {task : Task}
    (hstarting : s.Starting call task) (h : taskEvents s.store task.taskId = [])
    (remote : RemoteStart) (machine : String) (o : Occasion) :
    taskView.Grows s.store.tasks (acceptStart cfg s.store task remote machine o).tasks := by
  obtain ⟨hfresh, hearly⟩ := hs.early call task hstarting
  obtain ⟨task', htasks, -⟩ := tasks_acceptStart cfg s.store hfresh remote machine o
  rw [htasks]
  refine .set fun task₀ htask₀ => ?_
  have hempty : task₀.events = [] := by
    rw [taskEvents, htask₀] at h
    exact h
  refine .of_open (hearly task₀ htask₀ hempty) ?_
  rw [show taskView.log task₀ = [] from hempty]
  exact List.nil_prefix

theorem Sound.grows_fileStep {s : State} {l : Label} {st : Store} (hs : Sound s)
    (hok : undisturbed cfg s l = true) (h : FileStep cfg s l st) :
    taskView.Grows s.store.tasks st.tasks := by
  simp only [undisturbed, Bool.and_eq_true] at hok
  induction h with
  | same => exact .refl _
  | append h happend ih => exact ih.trans ((hs.valid_fileStep h).grows_appendEvent happend)
  | bind =>
    rw [tasks_bindStatus]
    exact .refl _
  | block hfresh => exact grows_of_fresh hfresh
  | relabel hreuse =>
    obtain ⟨⟨k, hk⟩, hopen⟩ := get?_of_reuse hreuse
    refine hs.store.grows_bindTaskPresenter hk hopen ?_
    simpa [hreuse] using hok.2
  | create hcreates => exact grows_of_fresh hcreates.fresh
  | accept hanswer =>
    obtain ⟨call, hstarting, -⟩ := starting_of_startAnswer hanswer
    refine hs.grows_acceptStart hstarting ?_ _ _ _
    simpa [hanswer] using hok.1
  | consume =>
    rcases tasks_consumeTaskResult cfg s.store _ _ _ with htasks | ⟨task, htask, htasks⟩
    · rw [htasks]
      exact .refl _
    · rw [htasks]
      refine .set fun task₀ htask₀ => ?_
      rw [hs.store.keyed _ _ htask, htask] at htask₀
      obtain rfl := Option.some.inj htask₀
      exact .of_eq rfl rfl rfl

/-! ## Runs -/

theorem grows_of_run {s s' : State}
    (hs : (machine cfg).ReachableWhere (fun s l => undisturbed cfg s l = true) s)
    (hrun : (machine cfg).RunWhere (fun s l => undisturbed cfg s l = true) s s') :
    taskView.Grows s.store.tasks s'.store.tasks :=
  hrun.evolves (I := Sound) (R := fun s s' => taskView.Grows s.store.tasks s'.store.tasks)
    (fun _ => .refl _) (fun _ _ _ => .trans)
    (fun _ _ _ hsound _ h => hsound.preserved (step_moves h))
    (fun _ _ _ hsound hok h => hsound.grows_fileStep hok (step_moves h).file)
    (sound_of_reachable hs)

/-- How the history of a task goes on: the events are kept, the new ones come after them with
increasing numbers, and from a terminal status on nothing changes. -/
def KeepsHistory (s s' : State) : Prop :=
  ∀ taskId task, s.store.tasks.get? taskId = some task →
    ∃ task', s'.store.tasks.get? taskId = some task' ∧ task.events <+: task'.events ∧
      (task'.events.map Event.seq).Pairwise (· < ·) ∧
      (task.status.terminal = true →
        task'.status = task.status ∧ task'.result = task.result ∧ task'.events = task.events)

/-- In every run in which no event comes before the adapter has accepted a task, and no task
with events gets another presenter, the history of every task is kept. -/
theorem history_kept_of_undisturbed {s s' : State}
    (hs : (machine cfg).ReachableWhere (fun s l => undisturbed cfg s l = true) s)
    (hrun : (machine cfg).RunWhere (fun s l => undisturbed cfg s l = true) s s') :
    KeepsHistory s s' := by
  intro taskId task htask
  obtain ⟨task', htask', hext⟩ := grows_of_run hs hrun taskId task htask
  have hsound : Sound s' := sound_of_reachable (hs.continued hrun)
  refine ⟨task', htask', hext.log, ?_, fun hterminal => ?_⟩
  · rw [(hsound.store.valid taskId task' htask').numbered]
    exact List.pairwise_lt_range
  · obtain ⟨-, houtcome, hlog⟩ := hext.closed hterminal
    obtain ⟨hstatus, hresult⟩ := Prod.mk.inj houtcome
    exact ⟨hstatus, hresult, hlog⟩

/-- A task is started and completes while `refresh_task` asks for its status. -/
def completedTask : List Label :=
  [.start 0 plainStart "t" 1, .acquire 0 "t" 1,
    .startAnswered 0 (plainAnswer .queued) (plainOccasion 2),
    .mirrorTurn "t", .mirrorEvent "t" (brokerEvent "p" .progress (some "half") none) (plainOccasion 3),
    .refresh 1 "t" "ada", .mirrorEvent "t" (brokerEvent "r" .result (some "done") none) (plainOccasion 4)]

/-- The status comes late, and so does an event of another source. -/
def lateAnswers : List Label :=
  [.statusAnswered 1 (plainStatus .failed none) (plainOccasion 5),
    .append "t" (brokerEvent "x" .cancelled none none) (plainOccasion 6),
    .mirrorEnded "t", .consume "t" "ada" "chat"]

/-- A task in short. -/
structure Outline where
  status : TaskStatus
  result : Option String
  /-- The numbers and types of the events. -/
  events : List (ℕ × EventType)
  deriving DecidableEq

def outline (taskId : String) (s : State) : Option Outline :=
  (s.store.tasks.get? taskId).map fun task =>
    ⟨task.status, task.result, task.events.map fun event => (event.seq, event.type)⟩

/-- The completed task stays as it is. -/
theorem history_kept_lateAnswers : ∃ s s',
    outline "t" s = some ⟨.completed, some "done", [(0, .accepted), (1, .progress), (2, .result)]⟩ ∧
      KeepsHistory s s' := by
  obtain ⟨s, s', hs, hrun, hview⟩ := (machine oneWorker).exists_runWhere_of_exec
    (fun s l => undisturbed oneWorker s l = true) (fun s _ => outline "t" s) completedTask lateAnswers
    (v := some ⟨.completed, some "done", [(0, .accepted), (1, .progress), (2, .result)]⟩)
    rfl (by decide)
  exact ⟨s, s', hview, history_kept_of_undisturbed hs hrun⟩

/-- While `start_task` awaits the adapter, the task is looked at: its mirror finds no remote
task, polls in vain until the time is up, and the task has failed. -/
def failedWhileStarting : List Label :=
  [.start 0 plainStart "t" 1, .acquire 0 "t" 1, .refresh 1 "t" "ada", .statusRaised 1,
    .mirrorTurn "t", .mirrorRaised "t", .mirrorTurn "t", .mirrorRaised "t",
    .mirrorTurn "t", .mirrorRaised "t", .pollRaised "t" true (plainOccasion 2)]

/-- Then the adapter answers, and the task is running, its error lost. -/
theorem not_history_kept_failedWhileStarting :
    ¬ ∀ cfg s s', (machine cfg).Reachable s → (machine cfg).Run s s' → KeepsHistory s s' := by
  intro hall
  obtain ⟨s, s', hs, hrun, hview⟩ := (machine oneWorker).exists_runWhere_of_exec
    TransitionSystem.anyStep (fun s s' => [outline "t" s, outline "t" s']) failedWhileStarting
    [.startAnswered 0 (plainAnswer .queued) (plainOccasion 3)]
    (v := [some ⟨.failed, none, [(0, .error)]⟩, some ⟨.running, none, [(0, .accepted)]⟩])
    rfl (by decide)
  simp only [List.cons.injEq, and_true, outline, Option.map_eq_some_iff,
    Outline.mk.injEq] at hview
  obtain ⟨⟨task, htask, hstatus, -⟩, task₁, htask₁, hstatus₁, -⟩ := hview
  obtain ⟨task', htask', -, -, hclosed⟩ := hall oneWorker s s' hs hrun "t" task htask
  obtain rfl := Option.some.inj (htask'.symm.trans htask₁)
  have hkept := (hclosed (by rw [hstatus]; rfl)).1
  rw [hstatus, hstatus₁] at hkept
  cases hkept

end Pandamonium.Jarvis
