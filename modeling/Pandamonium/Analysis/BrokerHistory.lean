import Pandamonium.Model.WorkerBroker

/-!
# The history of a task of the worker broker

`_append_event` reads the task, the check and the write under one lock, so what it writes
continues the record.  `start_task` does not read the task again after it has awaited the
adapter: it saves the copy from before the `await`, and whatever was appended meanwhile is
gone.  `FileStep` and `Moves` say what a step can do, the invariant `Sound` what the copies
are, and the history is kept in every run in which nothing is appended meanwhile.
-/

set_option autoImplicit false

namespace Pandamonium.Broker

open Pandamonium.Library

variable {cfg : Config}

/-! ## What is written -/

section Writes

@[simp] theorem tasks_saveTask (s : Store) (task : Task) :
    (saveTask s task).tasks = s.tasks.set task.taskId task := rfl

@[simp] theorem tasks_saveBinding (s : Store) (task : Task) (thread key : Option String) :
    (saveBinding s task thread key).tasks = s.tasks := by
  unfold saveBinding
  split <;> rfl

@[simp] theorem taskId_record (task : Task) (event : Event) :
    (task.record event).taskId = task.taskId := by
  simp only [Task.record, Task.observe]
  split <;> rfl

@[simp] theorem events_record (task : Task) (event : Event) :
    (task.record event).events = task.events ++ [event] := by
  simp only [Task.record, Task.observe]
  split <;> rfl

/-- `_append_event` changes nothing, or it appends an event to a task that is not terminal. -/
theorem tasks_appendEvent (s : Store) (taskId : String) (e : Incoming) (o : Occasion) :
    (appendEvent s taskId e o).tasks = s.tasks ∨ ∃ task event, s.tasks.get? taskId = some task ∧
      task.status.terminal = false ∧
      (appendEvent s taskId e o).tasks = s.tasks.set task.taskId (task.record event) := by
  unfold appendEvent
  split
  · exact .inl rfl
  · case h_2 task htask =>
    split
    · exact .inl rfl
    · case isFalse hopen =>
      simp only [ignoresEvent, Bool.or_eq_true, not_or, Bool.not_eq_true] at hopen
      refine .inr ⟨task, storedEvent task e o, htask, hopen.1.1, ?_⟩
      rw [tasks_saveBinding, tasks_saveTask, taskId_record]

/-- Every task is saved under its own id. -/
def Store.Keyed (s : Store) : Prop := ∀ k task, s.tasks.get? k = some task → task.taskId = k

theorem Store.Keyed.set {s s' : Store} (h : s.Keyed) {k : String} {task : Task}
    (htasks : s'.tasks = s.tasks.set k task) (hk : task.taskId = k) : s'.Keyed := by
  intro k' task' htask'
  rw [htasks, Dict.get?_set] at htask'
  split at htask'
  · case isTrue hk' =>
    obtain rfl := Option.some.inj htask'
    exact hk.trans hk'.symm
  · exact h k' task' htask'

theorem Store.Keyed.appendEvent {s : Store} (h : s.Keyed) (taskId : String) (e : Incoming)
    (o : Occasion) : (Broker.appendEvent s taskId e o).Keyed := by
  rcases tasks_appendEvent s taskId e o with htasks | ⟨task, event, htask, -, htasks⟩
  · intro k task hk
    exact h k task (htasks ▸ hk)
  · exact h.set htasks (taskId_record task event)

/-- The adapter has accepted a task: its copy is saved, with an event or as it is. -/
theorem tasks_acceptStart (s : Store) (task : Task) (remote : RemoteStart) (label : String)
    (o : Occasion) :
    ∃ task', (acceptStart s task remote label o).tasks = s.tasks.set task.taskId task' ∧
      task'.taskId = task.taskId := by
  simp only [acceptStart, tasks_saveBinding]
  rcases tasks_appendEvent (saveTask s (task.update remote)) (task.update remote).taskId
      (brokerEvent ("accepted:" ++ (task.update remote).taskId) .accepted
        (label ++ " accepted the task.")) o with htasks | ⟨task', event, htask', -, htasks⟩
  · exact ⟨task.update remote, htasks, rfl⟩
  · rw [tasks_saveTask, Dict.get?_set_self] at htask'
    obtain rfl := Option.some.inj htask'
    refine ⟨(task.update remote).record event, ?_, taskId_record _ _⟩
    rw [htasks, tasks_saveTask, Dict.set_set]
    rfl

end Writes

/-! ## What a step can do -/

/-- A call of `start_task` awaits the adapter. -/
def State.Starting (s : State) (call : ℕ) (task : Task) : Prop :=
  ∃ label, s.frame call = some (.starting task label)

/-- The call of `start_task` that a label resumes with an answer, and its copy of the task. -/
def State.startAnswer (s : State) : Label → Option (ℕ × Task)
  | .startAnswered call _ _ =>
    match s.frame call with
    | some (.starting task _) => some (call, task)
    | _ => none
  | _ => none

/-- A label creates this task. -/
structure State.Creates (s : State) (l : Label) (call : ℕ) (task : Task) : Prop where
  label : ∃ req now, l = .start call req task.taskId now
  queued : task.events = [] ∧ task.status = .queued
  fresh : s.store.tasks.get? task.taskId = none

/-- What a step writes. -/
inductive FileStep (s : State) (l : Label) : Store → Prop
  | same : FileStep s l s.store
  | append {st : Store} (taskId : String) (e : Incoming) (o : Occasion) (h : FileStep s l st) :
      FileStep s l (appendEvent st taskId e o)
  | create {call : ℕ} {task : Task} (h : s.Creates l call task) :
      FileStep s l (saveTask s.store task)
  | accept {call : ℕ} {task : Task} {remote : RemoteStart} {label : String} {o : Occasion}
      (h : s.startAnswer l = some (call, task)) :
      FileStep s l (acceptStart s.store task remote label o)

/-- What a step does: the calls at the adapter are those from before it, or there is one that
creates a task; a call that is answered is gone. -/
structure Moves (s : State) (l : Label) (s' : State) : Prop where
  file : FileStep s l s'.store
  starting : ∀ call task, s'.Starting call task → s.Starting call task ∨
    s.Creates l call task ∧ s'.store.tasks.get? task.taskId = some task
  answered : ∀ call task, s.startAnswer l = some (call, task) → ∀ task', ¬ s'.Starting call task'

theorem Moves.of_starting {s s' : State} {l : Label} (hfile : FileStep s l s'.store)
    (hstarting : ∀ call task, s'.Starting call task → s.Starting call task)
    (hanswer : s.startAnswer l = none) : Moves s l s' where
  file := hfile
  starting call task h := .inl (hstarting call task h)
  answered call task h := by
    rw [hanswer] at h
    cases h

section Frames

variable {s s' : State}

theorem State.Starting.of_calls_eq (h : s'.calls = s.calls) {call : ℕ} {task : Task}
    (hstarting : s'.Starting call task) : s.Starting call task := by
  obtain ⟨label, hframe⟩ := hstarting
  exact ⟨label, by rw [State.frame, ← h]; exact hframe⟩

theorem State.Starting.of_leave {call : ℕ} {call' : ℕ} {task : Task}
    (h : (s.leave call).Starting call' task) : call' ≠ call ∧ s.Starting call' task := by
  obtain ⟨label, hframe⟩ := h
  rw [State.frame, State.leave, Dict.get?_erase] at hframe
  split at hframe
  · cases hframe
  · case isFalse hne => exact ⟨hne, label, hframe⟩

theorem State.Starting.of_enter {call : ℕ} {frame : Frame} (hfree : ∀ task label, frame ≠ .starting task label)
    {call' : ℕ} {task : Task} (h : (s.enter call frame).Starting call' task) :
    s.Starting call' task := by
  obtain ⟨label, hframe⟩ := h
  rw [State.frame, State.enter, Dict.get?_set] at hframe
  split at hframe
  · exact absurd (Option.some.inj hframe) (hfree task label)
  · exact ⟨label, hframe⟩

@[simp] theorem calls_ensureMirror (s : State) (taskId : String) :
    (s.ensureMirror taskId).calls = s.calls := by
  unfold State.ensureMirror
  split
  · rfl
  · split <;> rfl

@[simp] theorem store_ensureMirror (s : State) (taskId : String) :
    (s.ensureMirror taskId).store = s.store := by
  unfold State.ensureMirror
  split
  · rfl
  · split <;> rfl

theorem State.Starting.of_ensureMirror {taskId : String} {call : ℕ} {task : Task}
    (h : (s.ensureMirror taskId).Starting call task) : s.Starting call task :=
  .of_calls_eq (calls_ensureMirror s taskId) h

end Frames

section Labels

variable {s s' : State} {l : Label}

theorem moves_start {call : ℕ} {req : StartRequest} {taskId : String} {now : ℕ}
    (h : s.start cfg call req taskId now = some s') :
    Moves s (.start call req taskId now) s' := by
  unfold State.start at h
  split at h
  · cases h
  · split at h
    · cases h
    · case isFalse hfresh =>
      obtain rfl := Option.some.inj h
      have hcreates : s.Creates (.start call req taskId now) call
          (queuedTask cfg s.store req taskId now) :=
        { label := ⟨req, now, rfl⟩
          queued := ⟨rfl, rfl⟩
          fresh := Option.not_isSome_iff_eq_none.mp hfresh }
      refine ⟨.create hcreates, ?_, fun _ _ h => by cases h⟩
      rintro call' task ⟨label, hframe⟩
      rw [State.frame, State.enter, Dict.get?_set] at hframe
      split at hframe
      · case isTrue hcall =>
        subst hcall
        cases hframe
        exact .inr ⟨hcreates, Dict.get?_set_self _ _ _⟩
      · exact .inl ⟨label, hframe⟩

variable (cfg) in
/-- `refresh_task` writes nothing before it awaits the adapter, and starts nothing. -/
theorem refresh_spec (s : State) (call : ℕ) (taskId owner : String) :
    (s.refresh cfg call taskId owner).store = s.store ∧
      ∀ call' task, (s.refresh cfg call taskId owner).Starting call' task → s.Starting call' task := by
  unfold State.refresh
  split
  · exact ⟨rfl, fun _ _ h => (State.Starting.of_leave h).2⟩
  · split
    · exact ⟨store_ensureMirror _ _,
        fun _ _ h => (State.Starting.of_leave (State.Starting.of_ensureMirror h)).2⟩
    · exact ⟨rfl, fun _ _ h => State.Starting.of_enter (fun _ _ => Frame.noConfusion) h⟩

theorem moves_refresh (hanswer : s.startAnswer l = none) (call : ℕ) (taskId owner : String) :
    Moves s l (s.refresh cfg call taskId owner) := by
  obtain ⟨hstore, hstarting⟩ := refresh_spec cfg s call taskId owner
  refine .of_starting ?_ hstarting hanswer
  rw [hstore]
  exact .same

theorem moves_reconcile (hanswer : s.startAnswer l = none) (taskId : String) :
    Moves s l (s.reconcile cfg taskId) := by
  have hcalls : (s.reconcile cfg taskId).calls = s.calls ∧ (s.reconcile cfg taskId).store = s.store := by
    unfold State.reconcile
    split
    · exact ⟨rfl, rfl⟩
    · split
      · exact ⟨rfl, rfl⟩
      · split <;> exact ⟨rfl, rfl⟩
  refine .of_starting ?_ (fun _ _ h => .of_calls_eq hcalls.1 h) hanswer
  rw [hcalls.2]
  exact .same

theorem moves_write {store : Store} (hfile : FileStep s l store) (hanswer : s.startAnswer l = none)
    {mirrors : Dict String Mirror} : Moves s l { store := store, calls := s.calls, mirrors := mirrors } :=
  .of_starting hfile (fun _ _ h => .of_calls_eq rfl h) hanswer

theorem moves_afterStream (hanswer : s.startAnswer l = none) (taskId : String) (n : ℕ) :
    Moves s l (s.afterStream cfg taskId n) := by
  unfold State.afterStream
  split
  · exact moves_write .same hanswer
  · exact moves_reconcile hanswer taskId

theorem moves_stream (hanswer : s.startAnswer l = none) (taskId : String) (n : ℕ) :
    Moves s l (s.stream cfg taskId n) := by
  unfold State.stream
  split
  · exact moves_write .same hanswer
  · split
    · exact moves_write .same hanswer
    · exact moves_write .same hanswer

theorem moves_afterPoll {store : Store} (hfile : FileStep s l store) (hanswer : s.startAnswer l = none)
    (taskId : String) (timeUp : Bool) (o : Occasion) :
    Moves s l (({ s with store := store } : State).afterPoll taskId timeUp o) := by
  unfold State.afterPoll
  split
  · exact moves_write hfile hanswer
  · split
    · exact moves_write (.append _ _ _ hfile) hanswer
    · exact moves_write hfile hanswer

theorem fileStep_applyStatus (task : Task) (remote : RemoteStatus) (o : Occasion) :
    FileStep s l (applyStatus s.store task remote o) := by
  unfold applyStatus
  split
  · exact .same
  · exact .append _ _ _ .same

theorem moves_acted (hanswer : s.startAnswer l = none) (call : ℕ) (task : Task) (owner : String)
    (action : Action) (o : Occasion) : Moves s l (s.acted cfg call task owner action o) := by
  unfold State.acted
  split
  · exact .of_starting (.append _ _ _ .same)
      (fun _ _ h => .of_calls_eq rfl (State.Starting.of_leave h).2) hanswer
  · obtain ⟨hstore, hstarting⟩ := refresh_spec cfg (s.ensureMirror task.taskId) call task.taskId owner
    refine .of_starting ?_ (fun _ _ h => .of_ensureMirror (hstarting _ _ h)) hanswer
    rw [hstore, store_ensureMirror]
    exact .same

/-- Every label is one of these kinds of steps. -/
theorem step_moves (h : step cfg s l = some s') : Moves s l s' := by
  cases l with
  | start call req taskId now =>
    simp only [step] at h
    split at h
    · cases h
    · exact moves_start h
  | startAnswered call remote o =>
    simp only [step] at h
    split at h
    · case h_1 task label hframe =>
      obtain rfl := Option.some.inj h
      have hanswer : s.startAnswer (.startAnswered call remote o) = some (call, task) := by
        simp only [State.startAnswer, hframe]
      refine ⟨?_, fun _ _ h => .inl ?_, ?_⟩
      · rw [store_ensureMirror]
        exact .accept hanswer
      · exact .of_calls_eq rfl (State.Starting.of_leave (State.Starting.of_ensureMirror h)).2
      · intro call' task' hanswer' task'' h
        rw [hanswer] at hanswer'
        cases hanswer'
        exact (State.Starting.of_leave (State.Starting.of_ensureMirror h)).1 rfl
    · cases h
  | startRaised call o =>
    simp only [step] at h
    split at h
    · obtain rfl := Option.some.inj h
      exact .of_starting (.append _ _ _ .same)
        (fun _ _ h => .of_calls_eq rfl (State.Starting.of_leave h).2) rfl
    · cases h
  | refresh call taskId owner =>
    simp only [step] at h
    split at h
    · cases h
    · obtain rfl := Option.some.inj h
      exact moves_refresh rfl call taskId owner
  | statusAnswered call remote o =>
    simp only [step] at h
    split at h
    · case h_1 task hframe =>
      obtain rfl := Option.some.inj h
      refine .of_starting ?_ (fun _ _ h => .of_calls_eq rfl
        (State.Starting.of_leave (State.Starting.of_ensureMirror h)).2) rfl
      rw [store_ensureMirror]
      exact fileStep_applyStatus task remote o
    · cases h
  | statusRaised call =>
    simp only [step] at h
    split at h
    · obtain rfl := Option.some.inj h
      refine .of_starting ?_ (fun _ _ h =>
        (State.Starting.of_leave (State.Starting.of_ensureMirror h)).2) rfl
      rw [store_ensureMirror]
      exact .same
    · cases h
  | act call taskId owner action =>
    simp only [step] at h
    split at h
    · cases h
    · split at h
      · cases h
      · split at h
        · cases h
        · obtain rfl := Option.some.inj h
          exact .of_starting .same
            (fun _ _ h => State.Starting.of_enter (fun _ _ => Frame.noConfusion) h) rfl
  | actionAnswered call o =>
    simp only [step] at h
    split at h
    · obtain rfl := Option.some.inj h
      exact moves_acted rfl call _ _ _ o
    · cases h
  | actionRaised call =>
    simp only [step] at h
    split at h
    · obtain rfl := Option.some.inj h
      exact .of_starting .same (fun _ _ h => (State.Starting.of_leave h).2) rfl
    · cases h
  | cancelled call =>
    simp only [step] at h
    split at h
    · cases h
    · obtain rfl := Option.some.inj h
      exact .of_starting .same (fun _ _ h => (State.Starting.of_leave h).2) rfl
  | mirrorTurn taskId =>
    simp only [step] at h
    split at h
    · obtain rfl := Option.some.inj h
      exact moves_stream rfl taskId _
    · obtain rfl := Option.some.inj h
      exact moves_reconcile rfl taskId
    · cases h
  | mirrorEvent taskId e o =>
    simp only [step] at h
    split at h
    · split at h
      · obtain rfl := Option.some.inj h
        exact moves_write .same rfl
      · obtain rfl := Option.some.inj h
        exact moves_write (.append taskId e o .same) rfl
    · cases h
  | mirrorEnded taskId =>
    simp only [step] at h
    split at h
    · split at h
      · obtain rfl := Option.some.inj h
        exact moves_write .same rfl
      · obtain rfl := Option.some.inj h
        exact moves_afterStream rfl taskId _
    · cases h
  | mirrorRaised taskId =>
    simp only [step] at h
    split at h
    · obtain rfl := Option.some.inj h
      exact moves_afterStream rfl taskId _
    · cases h
  | mirrorCancelled taskId =>
    simp only [step] at h
    split at h
    · cases h
    · cases h
    · obtain rfl := Option.some.inj h
      exact moves_write .same rfl
    · obtain rfl := Option.some.inj h
      exact moves_write .same rfl
  | pollAnswered taskId remote o timeUp o' =>
    simp only [step] at h
    split at h
    · obtain rfl := Option.some.inj h
      exact moves_afterPoll (fileStep_applyStatus _ remote o) rfl taskId timeUp o'
    · cases h
  | pollRaised taskId timeUp o =>
    simp only [step] at h
    split at h
    · obtain rfl := Option.some.inj h
      exact moves_afterPoll .same rfl taskId timeUp o
    · cases h

end Labels

/-! ## What holds in every state -/

/-- The invariant of the broker.  A call at the adapter has its copy from before the first
event of its task, and no other call has a copy of it. -/
structure Sound (s : State) : Prop where
  keyed : s.store.Keyed
  early : ∀ call task, s.Starting call task → task.events = [] ∧
    ∃ task', s.store.tasks.get? task.taskId = some task' ∧
      (task'.events = [] → task'.status.terminal = false)
  apart : ∀ call call' task task', s.Starting call task → s.Starting call' task' →
    task.taskId = task'.taskId → call = call'

theorem starting_of_startAnswer {s : State} {l : Label} {call : ℕ} {task : Task}
    (h : s.startAnswer l = some (call, task)) : s.Starting call task := by
  cases l with
  | startAnswered call' remote o =>
    simp only [State.startAnswer] at h
    split at h
    · case h_1 task' label hframe =>
      cases h
      exact ⟨label, hframe⟩
    · cases h
  | _ => cases h

theorem early_fileStep {s : State} {l : Label} {st : Store} (h : FileStep s l st) {taskId : String}
    (hother : ∀ call task, s.startAnswer l = some (call, task) → task.taskId ≠ taskId)
    (hearly : ∃ task, s.store.tasks.get? taskId = some task ∧
      (task.events = [] → task.status.terminal = false)) :
    ∃ task, st.tasks.get? taskId = some task ∧
      (task.events = [] → task.status.terminal = false) := by
  induction h with
  | same => exact hearly
  | append taskId' e o h ih =>
    rcases tasks_appendEvent _ taskId' e o with htasks | ⟨task, event, htask, -, htasks⟩
    · rw [htasks]
      exact ih
    · rw [htasks, Dict.get?_set]
      split
      · exact ⟨_, rfl, fun hnil => by simp at hnil⟩
      · exact ih
  | create h =>
    obtain ⟨task, htask, hopen⟩ := hearly
    refine ⟨task, ?_, hopen⟩
    rw [tasks_saveTask, Dict.get?_set, if_neg]
    · exact htask
    · rintro rfl
      rw [h.fresh] at htask
      cases htask
  | @accept call task remote label o h =>
    obtain ⟨task', htasks, -⟩ := tasks_acceptStart s.store task remote label o
    rw [htasks, Dict.get?_set, if_neg (hother call task h).symm]
    exact hearly

namespace Sound

variable {s s' : State} {l : Label} {st : Store}

theorem keyed_fileStep (hs : Sound s) (h : FileStep s l st) : st.Keyed := by
  induction h with
  | same => exact hs.keyed
  | append taskId e o h ih => exact ih.appendEvent taskId e o
  | create h => exact hs.keyed.set (tasks_saveTask _ _) rfl
  | @accept call task remote label o h =>
    obtain ⟨task', htasks, hid⟩ := tasks_acceptStart s.store task remote label o
    exact hs.keyed.set htasks hid

theorem preserved (hs : Sound s) (hmoves : Moves s l s') : Sound s' where
  keyed := hs.keyed_fileStep hmoves.file
  early call task hstarting := by
    rcases hmoves.starting call task hstarting with hold | ⟨hcreates, htask⟩
    · obtain ⟨hempty, hearly⟩ := hs.early call task hold
      refine ⟨hempty, early_fileStep hmoves.file ?_ hearly⟩
      intro call' task' hanswer hid
      obtain rfl := hs.apart call' call task' task (starting_of_startAnswer hanswer) hold hid
      exact hmoves.answered call' task' hanswer task hstarting
    · refine ⟨hcreates.queued.1, task, htask, fun _ => ?_⟩
      rw [hcreates.queued.2]
      rfl
  apart call call' task task' h h' hid := by
    have hfresh : ∀ {call call' task task'}, s.Starting call task → s.Creates l call' task' →
        task.taskId ≠ task'.taskId := by
      intro call call' task task' hold hcreates hid
      obtain ⟨-, t, ht, -⟩ := hs.early call task hold
      rw [hid, hcreates.fresh] at ht
      cases ht
    rcases hmoves.starting call task h with hold | ⟨hcreates, -⟩
    · rcases hmoves.starting call' task' h' with hold' | ⟨hcreates', -⟩
      · exact hs.apart call call' task task' hold hold' hid
      · exact absurd hid (hfresh hold hcreates')
    · rcases hmoves.starting call' task' h' with hold' | ⟨hcreates', -⟩
      · exact absurd hid.symm (hfresh hold' hcreates)
      · obtain ⟨_, _, hl⟩ := hcreates.label
        obtain ⟨_, _, hl'⟩ := hcreates'.label
        rw [hl] at hl'
        injection hl'

theorem initial : Sound State.initial where
  keyed k task h := by cases h
  early call task h := by
    obtain ⟨label, hframe⟩ := h
    cases hframe
  apart call call' task task' h := by
    obtain ⟨label, hframe⟩ := h
    cases hframe

end Sound

theorem sound_of_reachable {ok : State → Label → Prop} {s : State}
    (hs : (machine cfg).ReachableWhere ok s) : Sound s :=
  hs.invariant (fun _ h => h ▸ Sound.initial)
    fun _ _ _ hsound _ h => hsound.preserved (step_moves h)

/-! ## Growth -/

/-- A task as a record: its events, closed by a terminal status, with its status and result. -/
def taskView : LogView Task Event (TaskStatus × Option String) where
  log := Task.events
  closed task := task.status.terminal
  outcome task := (task.status, task.result)

/-- `task_events(task_id)` -/
def taskEvents (s : Store) (taskId : String) : List Event :=
  ((s.tasks.get? taskId).map Task.events).getD []

/-- No event has come for the task that the adapter accepts. -/
def undisturbed (s : State) (l : Label) : Bool :=
  (s.startAnswer l).all fun answer => (taskEvents s.store answer.2.taskId).isEmpty

theorem Store.Keyed.grows_appendEvent {s : Store} (hs : s.Keyed) (taskId : String) (e : Incoming)
    (o : Occasion) : taskView.Grows s.tasks (Broker.appendEvent s taskId e o).tasks := by
  rcases tasks_appendEvent s taskId e o with htasks | ⟨task, event, htask, hopen, htasks⟩
  · rw [htasks]
    exact .refl _
  · rw [htasks]
    refine .set fun task₀ htask₀ => ?_
    rw [hs _ _ htask, htask] at htask₀
    obtain rfl := Option.some.inj htask₀
    refine .of_open hopen ?_
    simp only [taskView, events_record]
    exact List.prefix_append _ _

theorem Sound.grows_fileStep {s : State} {l : Label} {st : Store} (hs : Sound s)
    (hok : undisturbed s l = true) (h : FileStep s l st) :
    taskView.Grows s.store.tasks st.tasks := by
  induction h with
  | same => exact .refl _
  | append taskId e o h ih => exact ih.trans ((hs.keyed_fileStep h).grows_appendEvent taskId e o)
  | create h =>
    refine .set fun task₀ htask₀ => ?_
    rw [h.fresh] at htask₀
    cases htask₀
  | @accept call task remote label o h =>
    obtain ⟨-, task₀, htask₀, hearly⟩ := hs.early call task (starting_of_startAnswer h)
    have hempty : task₀.events = [] := by simpa [undisturbed, h, taskEvents, htask₀] using hok
    obtain ⟨task', htasks, -⟩ := tasks_acceptStart s.store task remote label o
    rw [htasks]
    refine .set fun task₁ htask₁ => ?_
    obtain rfl := Option.some.inj (htask₀.symm.trans htask₁)
    refine .of_open (hearly hempty) ?_
    rw [show taskView.log task₀ = [] from hempty]
    exact List.nil_prefix

/-! ## Runs -/

/-- How the history of a task goes on: no event is lost, and a terminal task stays terminal,
with its result. -/
def KeepsRecords (s s' : State) : Prop :=
  ∀ taskId task, s.store.tasks.get? taskId = some task →
    ∃ task', s'.store.tasks.get? taskId = some task' ∧ task.events <+: task'.events ∧
      (task.status.terminal = true → task'.status.terminal = true ∧ task'.result = task.result)

/-- In every run in which no event comes before the adapter has accepted its task, the history
of every task is kept. -/
theorem records_kept_of_undisturbed {s s' : State}
    (hs : (machine cfg).ReachableWhere (fun s l => undisturbed s l = true) s)
    (hrun : (machine cfg).RunWhere (fun s l => undisturbed s l = true) s s') :
    KeepsRecords s s' := by
  intro taskId task htask
  have hgrows : taskView.Grows s.store.tasks s'.store.tasks :=
    hrun.evolves (I := Sound) (R := fun s s' => taskView.Grows s.store.tasks s'.store.tasks)
      (fun _ => .refl _) (fun _ _ _ => .trans)
      (fun _ _ _ hsound _ h => hsound.preserved (step_moves h))
      (fun _ _ _ hsound hok h => hsound.grows_fileStep hok (step_moves h).file)
      (sound_of_reachable hs)
  obtain ⟨task', htask', hext⟩ := hgrows taskId task htask
  refine ⟨task', htask', hext.log, fun hterminal => ?_⟩
  obtain ⟨hclosed, houtcome, -⟩ := hext.closed hterminal
  exact ⟨hclosed, (Prod.mk.inj houtcome).2⟩

/-- A task that completes while a status and a cancellation of it are under way. -/
def completedTask : List Label :=
  [.start 0 plainStart "t" 1, .startAnswered 0 plainAnswer (plainOccasion 2), .mirrorTurn "t",
    .refresh 1 "t" "ada", .act 2 "t" "ada" .cancel,
    .mirrorEvent "t" (brokerEvent "r" .result "done") (plainOccasion 3)]

/-- Both come back. -/
def lateAnswers : List Label :=
  [.statusAnswered 1 ⟨.failed, none, none⟩ (plainOccasion 4), .actionAnswered 2 (plainOccasion 5),
    .mirrorEnded "t"]

/-- A task in short. -/
structure Outline where
  status : TaskStatus
  result : Option String
  /-- The numbers and types of the events. -/
  events : List (ℕ × EventType)
  deriving DecidableEq

def outline (taskId : String) (s : State) : Option Outline :=
  (s.store.tasks.get? taskId).map fun task =>
    ⟨task.status, task.result, task.events.map fun event => (event.seq, event.type)⟩

/-- The completed task stays as it is. -/
theorem records_kept_lateAnswers : ∃ s s',
    outline "t" s = some ⟨.completed, some "done", [(0, .accepted), (1, .result)]⟩ ∧
      KeepsRecords s s' := by
  obtain ⟨s, s', hs, hrun, hview⟩ := (machine oneWorker).exists_runWhere_of_exec
    (fun s l => undisturbed s l = true) (fun s _ => outline "t" s) completedTask lateAnswers
    (v := some ⟨.completed, some "done", [(0, .accepted), (1, .result)]⟩) rfl (by decide)
  exact ⟨s, s', hview, records_kept_of_undisturbed hs hrun⟩

/-- While `start_task` awaits the adapter, the task is looked at: its mirror finds no remote
task, polls in vain until the time is up, and the task has failed. -/
def failedWhileStarting : List Label :=
  [.start 0 plainStart "t" 1, .refresh 1 "t" "ada", .statusRaised 1,
    .mirrorTurn "t", .mirrorRaised "t", .mirrorTurn "t", .mirrorRaised "t",
    .mirrorTurn "t", .mirrorRaised "t", .pollRaised "t" true (plainOccasion 2)]

/-- Then the adapter answers, and the task is running, its error lost. -/
theorem not_records_kept_failedWhileStarting :
    ¬ ∀ cfg s s', (machine cfg).Reachable s → (machine cfg).Run s s' → KeepsRecords s s' := by
  intro hall
  obtain ⟨s, s', hs, hrun, hview⟩ := (machine oneWorker).exists_runWhere_of_exec
    TransitionSystem.anyStep (fun s s' => [outline "t" s, outline "t" s']) failedWhileStarting
    [.startAnswered 0 plainAnswer (plainOccasion 3)]
    (v := [some ⟨.failed, none, [(0, .error)]⟩, some ⟨.running, none, [(0, .accepted)]⟩])
    rfl (by decide)
  simp only [List.cons.injEq, and_true, outline, Option.map_eq_some_iff, Outline.mk.injEq] at hview
  obtain ⟨⟨task, htask, hstatus, -⟩, task₁, htask₁, hstatus₁, -⟩ := hview
  obtain ⟨task', htask', -, hclosed⟩ := hall oneWorker s s' hs hrun "t" task htask
  obtain rfl := Option.some.inj (htask'.symm.trans htask₁)
  have hkept := (hclosed (by rw [hstatus]; rfl)).1
  rw [hstatus₁] at hkept
  cases hkept

end Pandamonium.Broker
