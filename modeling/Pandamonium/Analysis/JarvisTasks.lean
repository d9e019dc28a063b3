import Pandamonium.Model.JarvisAgent

/-!
# What the functions of the voice agent write

One group of lemmas for each function that writes the file: which record it puts under which
key, and what that record keeps of the one before.
-/

set_option autoImplicit false

namespace Pandamonium.Jarvis

open Pandamonium.Library

variable {cfg : Config}

/-- What never changes about a task. -/
def Task.identity (task : Task) : String × String × String × String × String :=
  (task.taskId, task.owner, task.sessionId, task.worker, task.workspace)

/-- The conversation that a task occupies. -/
def Task.slot (task : Task) : String × String × String :=
  (task.owner, task.sessionId, task.worker)

section Identity

variable {task task' : Task}

theorem taskId_eq_of_identity (h : task'.identity = task.identity) : task'.taskId = task.taskId :=
  congrArg Prod.fst h

theorem slot_eq_of_identity (h : task'.identity = task.identity) : task'.slot = task.slot := by
  simp only [Task.identity, Prod.mk.injEq] at h
  obtain ⟨-, ho, hs, hw, -⟩ := h
  simp only [Task.slot, ho, hs, hw]

theorem bindingKey_eq_of_identity (h : task'.identity = task.identity) :
    task'.bindingKey cfg = task.bindingKey cfg := by
  simp only [Task.identity, Prod.mk.injEq] at h
  obtain ⟨-, ho, hs, hw, hp⟩ := h
  simp only [Task.bindingKey, ho, hs, hw, hp]

end Identity

@[simp] theorem tasks_saveTask (s : Store) (task : Task) :
    (saveTask s task).tasks = s.tasks.set task.taskId task := rfl

@[simp] theorem tasks_saveWorkerBinding (s : Store) (task : Task) (thread active key : Update) :
    (saveWorkerBinding cfg s task thread active key).tasks = s.tasks := rfl

/-! ## A task and its events -/

/-- A task whose log is numbered, and whose status is terminal if its log has an end. -/
structure Task.Valid (task : Task) : Prop where
  numbered : task.events.map Event.seq = List.range task.events.length
  concluded : ∀ event ∈ task.events, event.type.terminal = true → task.status.terminal = true

theorem Task.Valid.of_events_eq_nil {task : Task} (h : task.events = []) : task.Valid where
  numbered := by rw [h]; rfl
  concluded event hmem := by rw [h] at hmem; cases hmem

@[simp] theorem identity_observe (task : Task) (event : Event) :
    (task.observe event).identity = task.identity := by
  unfold Task.observe
  split <;> rfl

@[simp] theorem events_observe (task : Task) (event : Event) :
    (task.observe event).events = task.events := by
  unfold Task.observe
  split <;> rfl

theorem terminal_status_observe (task : Task) {event : Event} (h : event.type.terminal = true) :
    (task.observe event).status.terminal = true := by
  unfold Task.observe
  cases htype : event.type <;> rw [htype] at h <;> first | rfl | cases h

@[simp] theorem identity_record (task : Task) (event : Event) (now : ℕ) :
    (task.record event now).identity = task.identity :=
  identity_observe { task with events := task.events ++ [event] } event

@[simp] theorem events_record (task : Task) (event : Event) (now : ℕ) :
    (task.record event now).events = task.events ++ [event] :=
  events_observe { task with events := task.events ++ [event] } event

variable (cfg) in
/-- The artifact of an event is all that changes about a task before the event is appended. -/
theorem storedEvent_task (task : Task) (e : Incoming) (o : Occasion) :
    (storedEvent cfg task e o).1
      = { task with artifacts := (storedEvent cfg task e o).1.artifacts } := by
  simp only [storedEvent, persistArtifact]
  split
  · split
    · rfl
    · split <;> rfl
  · rfl

theorem storedEvent_seq (task : Task) (e : Incoming) (o : Occasion) :
    (storedEvent cfg task e o).2.seq = task.events.length := by
  simp only [storedEvent, persistArtifact]
  split
  · split
    · rfl
    · split <;> rfl
  · rfl

variable {e : Incoming} {s s' : Store} {taskId : String} {o : Occasion}

theorem storedEvent_terminal (task : Task) (o : Occasion) (h : e.type.terminal = true) :
    (storedEvent cfg task e o).2.type.terminal = true := by
  have hne : e.type ≠ .artifact := by
    intro hartifact
    rw [hartifact] at h
    cases h
  simp only [storedEvent, if_neg hne]
  exact h

variable (cfg) in
/-- The record that `_append_event` saves. -/
def Task.appended (task : Task) (e : Incoming) (o : Occasion) : Task :=
  (storedEvent cfg task e o).1.record (storedEvent cfg task e o).2 o.now

variable (cfg) in
@[simp] theorem identity_appended (task : Task) (e : Incoming) (o : Occasion) :
    (task.appended cfg e o).identity = task.identity := by
  rw [Task.appended, identity_record, storedEvent_task]
  rfl

@[simp] theorem events_appended (task : Task) (e : Incoming) (o : Occasion) :
    (task.appended cfg e o).events = task.events ++ [(storedEvent cfg task e o).2] := by
  rw [Task.appended, events_record, storedEvent_task]

variable (cfg) in
/-- The record that `_append_event` saves is numbered and concluded, where nothing before it
has ended the log. -/
theorem valid_appended {task : Task} (hvalid : task.Valid) (o : Occasion)
    (hopen : ignoresEvent task e = false) : (task.appended cfg e o).Valid where
  numbered := by
    rw [events_appended, List.map_append, hvalid.numbered, List.length_append, List.map_singleton,
      storedEvent_seq, List.length_singleton, List.range_succ]
  concluded event hmem hterminal := by
    rw [events_appended, List.mem_append, List.mem_singleton] at hmem
    rcases hmem with hmem | rfl
    · simp only [ignoresEvent, Bool.or_eq_false_iff] at hopen
      have hstatus := hvalid.concluded event hmem hterminal
      rw [hopen.1.2] at hstatus
      cases hstatus
    · exact terminal_status_observe _ hterminal

/-! ## The file -/

/-- Every task is numbered and concluded, under its own id. -/
structure Store.Valid (s : Store) : Prop where
  keyed : ∀ k task, s.tasks.get? k = some task → task.taskId = k
  valid : ∀ k task, s.tasks.get? k = some task → task.Valid

theorem Store.valid_empty : Store.empty.Valid where
  keyed k task h := by cases h
  valid k task h := by cases h

theorem Store.Valid.of_tasks_eq (h : s.Valid) (htasks : s'.tasks = s.tasks) :
    s'.Valid where
  keyed k task ht := h.keyed k task (htasks ▸ ht)
  valid k task ht := h.valid k task (htasks ▸ ht)

theorem Store.Valid.set (h : s.Valid) {task : Task} (hvalid : task.Valid)
    (htasks : s'.tasks = s.tasks.set task.taskId task) : s'.Valid := by
  constructor
  · intro k task' ht
    rw [htasks, Dict.get?_set] at ht
    split at ht
    · case isTrue hk =>
      obtain rfl := Option.some.inj ht
      exact hk.symm
    · exact h.keyed k task' ht
  · intro k task' ht
    rw [htasks, Dict.get?_set] at ht
    split at ht
    · obtain rfl := Option.some.inj ht
      exact hvalid
    · exact h.valid k task' ht

/-- What a task and a later record of it have in common, whatever the condition of the run:
the identity; no event has come as long as there is none; the status once it is terminal. -/
structure Task.Follows (task task' : Task) : Prop where
  identity : task'.identity = task.identity
  silent : task'.events = [] → task.events = [] ∧ task'.status = task.status
  final : task.status.terminal = true → task'.status = task.status

theorem Task.Follows.refl (task : Task) : task.Follows task := ⟨rfl, fun h => ⟨h, rfl⟩, fun _ => rfl⟩

theorem Task.Follows.trans (a b c : Task) (h : a.Follows b) (h' : b.Follows c) : a.Follows c where
  identity := h'.identity.trans h.identity
  silent hc := by
    obtain ⟨hb, hs⟩ := h'.silent hc
    obtain ⟨ha, hs'⟩ := h.silent hb
    exact ⟨ha, hs.trans hs'⟩
  final hterminal := by
    have hb := h.final hterminal
    rw [← hb] at hterminal
    exact (h'.final hterminal).trans hb

/-- Every task of the first file is in the second one, as a later record of it. -/
def Store.Follows (s s' : Store) : Prop := s.tasks.Carries Task.Follows s'.tasks

theorem Store.Follows.refl (s : Store) : s.Follows s := Dict.Carries.refl Task.Follows.refl _

theorem Store.Follows.of_tasks_eq (h : s'.tasks = s.tasks) : s.Follows s' := by
  rw [Store.Follows, h]
  exact Store.Follows.refl s

theorem Store.Follows.set {task : Task} (htasks : s'.tasks = s.tasks.set task.taskId task)
    (h : ∀ task₀, s.tasks.get? task.taskId = some task₀ → task₀.Follows task) : s.Follows s' := by
  rw [Store.Follows, htasks]
  exact Dict.Carries.set Task.Follows.refl h

theorem Store.Valid.follows_set (hs : s.Valid) {k : String} {task task' : Task}
    (htask : s.tasks.get? k = some task) (h : task.Follows task')
    (htasks : s'.tasks = s.tasks.set task'.taskId task') : s.Follows s' := by
  refine .set htasks fun task₀ htask₀ => ?_
  rw [taskId_eq_of_identity h.identity, hs.keyed _ _ htask, htask] at htask₀
  obtain rfl := Option.some.inj htask₀
  exact h

/-! ## `_append_event` -/

@[simp] theorem tasks_recordEvent (s : Store) (task : Task) (event : Event) (now : ℕ) :
    (recordEvent cfg s task event now).tasks
      = s.tasks.set task.taskId (task.record event now) := by
  have hid : (task.record event now).taskId = task.taskId :=
    taskId_eq_of_identity (identity_record task event now)
  simp only [recordEvent]
  split
  · rw [tasks_saveTask, tasks_saveWorkerBinding, hid]
  · split
    · rw [tasks_saveTask, tasks_saveWorkerBinding, hid]
    · rw [tasks_saveTask, hid]

/-- `_append_event` returns without a change, or it records the event. -/
theorem appendEvent_cases (h : appendEvent cfg s taskId e o = some s') :
    s' = s ∨ ∃ task, s.tasks.get? taskId = some task ∧ ignoresEvent task e = false ∧
      s' = recordEvent cfg s (storedEvent cfg task e o).1 (storedEvent cfg task e o).2 o.now := by
  unfold appendEvent at h
  split at h
  · exact .inl (Option.some.inj h).symm
  · case h_2 task htask =>
    split at h
    · exact .inl (Option.some.inj h).symm
    · case isFalse hopen =>
      split at h
      · cases h
      · exact .inr ⟨task, htask, Bool.eq_false_iff.mpr hopen, (Option.some.inj h).symm⟩

theorem tasks_appendEvent (h : appendEvent cfg s taskId e o = some s') :
    s'.tasks = s.tasks ∨ ∃ task, s.tasks.get? taskId = some task ∧ ignoresEvent task e = false ∧
      s'.tasks = s.tasks.set task.taskId (task.appended cfg e o) := by
  rcases appendEvent_cases h with rfl | ⟨task, htask, hopen, rfl⟩
  · exact .inl rfl
  · have hid : (storedEvent cfg task e o).1.taskId = task.taskId := by rw [storedEvent_task]
    refine .inr ⟨task, htask, hopen, ?_⟩
    rw [tasks_recordEvent, hid]
    rfl

theorem Store.Valid.appendEvent (hs : s.Valid) (h : Jarvis.appendEvent cfg s taskId e o = some s') :
    s'.Valid := by
  rcases tasks_appendEvent h with htasks | ⟨task, htask, hopen, htasks⟩
  · exact hs.of_tasks_eq htasks
  · refine hs.set (valid_appended cfg (hs.valid _ _ htask) o hopen) ?_
    rw [htasks, taskId_eq_of_identity (identity_appended cfg task e o)]

theorem not_terminal_of_ignoresEvent_eq_false {task : Task} (h : ignoresEvent task e = false) :
    task.status.terminal = false := by
  simp only [ignoresEvent, Bool.or_eq_false_iff] at h
  exact h.1.2

theorem Task.follows_appended {task : Task} (o : Occasion) (hopen : ignoresEvent task e = false) :
    task.Follows (task.appended cfg e o) where
  identity := identity_appended cfg task e o
  silent h := by simp at h
  final h := by
    rw [not_terminal_of_ignoresEvent_eq_false hopen] at h
    cases h

theorem Store.Valid.follows_appendEvent (hs : s.Valid)
    (h : Jarvis.appendEvent cfg s taskId e o = some s') :
    s.Follows s' := by
  rcases tasks_appendEvent h with htasks | ⟨task, htask, hopen, htasks⟩
  · exact .of_tasks_eq htasks
  · rw [← taskId_eq_of_identity (identity_appended cfg task e o)] at htasks
    exact hs.follows_set htask (Task.follows_appended o hopen) htasks

theorem Store.Valid.terminal_of_appendEvent (hs : s.Valid)
    (h : Jarvis.appendEvent cfg s taskId e o = some s') (hid : e.eventId = "")
    (htype : e.type.terminal = true) {task : Task} (htask : s.tasks.get? taskId = some task) :
    ∃ task', s'.tasks.get? taskId = some task' ∧ task'.status.terminal = true := by
  by_cases hopen : ignoresEvent task e = false
  · have hartifact : e.type ≠ .artifact := by
      intro hartifact
      rw [hartifact] at htype
      cases htype
    have hkept : losesArtifact cfg task e o = false := by simp [losesArtifact, hartifact]
    have hnew : s' = recordEvent cfg s (storedEvent cfg task e o).1 (storedEvent cfg task e o).2 o.now := by
      simpa [Jarvis.appendEvent, htask, hopen, hkept, eq_comm] using h
    have hkey : (storedEvent cfg task e o).1.taskId = taskId := by
      rw [show (storedEvent cfg task e o).1.taskId = task.taskId by rw [storedEvent_task]]
      exact hs.keyed _ _ htask
    refine ⟨_, by rw [hnew, tasks_recordEvent, hkey, Dict.get?_set_self], ?_⟩
    exact terminal_status_observe _ (storedEvent_terminal task o htype)
  · have hignored : ignoresEvent task e = true := Bool.eq_true_of_not_eq_false hopen
    have hsame : s' = s := by simpa [Jarvis.appendEvent, htask, hignored, eq_comm] using h
    refine ⟨task, hsame ▸ htask, ?_⟩
    simp only [ignoresEvent, hid, bne_self_eq_false, Bool.false_and, Bool.false_or,
      Bool.or_eq_true, List.any_eq_true] at hignored
    rcases hignored with hterminal | ⟨event, hmem, hevent⟩
    · exact hterminal
    · exact (hs.valid _ _ htask).concluded event hmem hevent

/-- `_append_event` only raises on artifacts. -/
theorem appendEvent_eq_getD (s : Store) (taskId : String) (o : Occasion) (h : e.type ≠ .artifact) :
    appendEvent cfg s taskId e o = some ((appendEvent cfg s taskId e o).getD s) := by
  unfold appendEvent
  split
  · rfl
  · split
    · rfl
    · simp [losesArtifact, h]

/-! ## `start_task` -/

theorem findActiveTask_spec {owner sessionId worker : String} {task : Task}
    (h : findActiveTask s owner sessionId worker = some task) :
    (∃ k, s.tasks.get? k = some task) ∧ task.status.terminal = false := by
  have hmem := List.mem_filter.mp (mem_of_firstMax _ h)
  refine ⟨(s.tasks.mem_values_iff task).mp hmem.1, ?_⟩
  have hactive := hmem.2
  simp only [isActive, Bool.and_eq_true, Bool.not_eq_true'] at hactive
  exact hactive.1.2

theorem terminal_of_findActiveTask_eq_none {owner sessionId worker : String}
    (h : findActiveTask s owner sessionId worker = none) {k : String} {task : Task}
    (htask : s.tasks.get? k = some task) (hslot : task.slot = (owner, sessionId, worker)) :
    task.status.terminal = true := by
  have hnil := (firstMax_eq_none _).mp h
  by_contra hopen
  rw [Bool.not_eq_true] at hopen
  have hmem : task ∈ s.tasks.values.filter (isActive owner sessionId worker) := by
    refine List.mem_filter.mpr ⟨(s.tasks.mem_values_iff task).mpr ⟨k, htask⟩, ?_⟩
    simp only [Task.slot, Prod.mk.injEq] at hslot
    simp [isActive, hslot, hopen]
  rw [hnil] at hmem
  cases hmem

variable (cfg) in
/-- What `start_task` does inside the lock, up to the call of the adapter: nothing, or it
gives the active task a presenter, or it creates a task. -/
theorem openTask_cases (s : Store) (req : StartRequest) (owner taskId : String) (now : ℕ) :
    openTask cfg s req owner taskId now = (s, .over) ∨
      (∃ active, findActiveTask s owner req.sessionId req.worker = some active ∧
        refusesReuse active req = false ∧ openTask cfg s req owner taskId now
          = (bindTaskPresenter cfg s active req.presenter, .over)) ∨
      (findActiveTask s owner req.sessionId req.worker = none ∧ ∃ thread key,
        let task := queuedTask cfg req owner taskId thread key now
        openTask cfg s req owner taskId now
          = (saveWorkerBinding cfg (saveTask s task) task (.put thread) (.put (some taskId)) .keep,
            .created task)) := by
  unfold openTask
  split
  · case h_1 active hactive =>
    split
    · exact .inl rfl
    · case isFalse hreuse =>
      exact .inr (.inl ⟨active, hactive, Bool.eq_false_iff.mpr hreuse, rfl⟩)
  · case h_2 hidle =>
    dsimp only
    split
    · exact .inl rfl
    · exact .inr (.inr ⟨hidle, _, _, rfl⟩)

variable (cfg) in
/-- A reused task gets another presenter, in its record and in every event, or stays as it
is. -/
theorem tasks_bindTaskPresenter (s : Store) (task : Task) (presenter : Option String) :
    (bindTaskPresenter cfg s task presenter).tasks = s.tasks ∨ ∃ label,
      (bindTaskPresenter cfg s task presenter).tasks
        = s.tasks.set task.taskId (task.relabel label) := by
  unfold bindTaskPresenter
  dsimp only
  split
  · exact .inl rfl
  · exact .inr ⟨_, rfl⟩

theorem Task.Valid.relabel {task : Task} (h : task.Valid) (label : String) :
    (task.relabel label).Valid where
  numbered := by simpa [Task.relabel, Function.comp_def] using h.numbered
  concluded event hmem hterminal := by
    obtain ⟨event₀, hmem₀, rfl⟩ := List.mem_map.mp hmem
    exact h.concluded event₀ hmem₀ hterminal

theorem Store.Valid.bindTaskPresenter (hs : s.Valid) {k : String} {task : Task}
    (htask : s.tasks.get? k = some task) (presenter : Option String) :
    (Jarvis.bindTaskPresenter cfg s task presenter).Valid := by
  rcases tasks_bindTaskPresenter cfg s task presenter with htasks | ⟨label, htasks⟩
  · exact hs.of_tasks_eq htasks
  · exact hs.set ((hs.valid _ _ htask).relabel label) htasks

theorem Store.Valid.follows_bindTaskPresenter (hs : s.Valid) {k : String} {task : Task}
    (htask : s.tasks.get? k = some task) (presenter : Option String) :
    s.Follows (Jarvis.bindTaskPresenter cfg s task presenter) := by
  rcases tasks_bindTaskPresenter cfg s task presenter with htasks | ⟨label, htasks⟩
  · exact .of_tasks_eq htasks
  · have hrelabel : task.Follows (task.relabel label) :=
      ⟨rfl, fun hnil => ⟨List.map_eq_nil_iff.mp hnil, rfl⟩, fun _ => rfl⟩
    refine hs.follows_set htask hrelabel htasks

/-- The broker's own events on a known task: recorded, or there is nothing to record. -/
theorem tasks_appendEvent_getD {task : Task} (htask : s.tasks.get? taskId = some task)
    (o : Occasion) (h : e.type ≠ .artifact) :
    ((appendEvent cfg s taskId e o).getD s).tasks
      = if ignoresEvent task e then s.tasks else s.tasks.set task.taskId (task.appended cfg e o) := by
  have hkept : losesArtifact cfg task e o = false := by simp [losesArtifact, h]
  unfold appendEvent
  rw [htask]
  dsimp only
  split
  · rfl
  · rw [hkept, if_neg Bool.false_ne_true, Option.getD_some, tasks_recordEvent,
      show (storedEvent cfg task e o).1.taskId = task.taskId by rw [storedEvent_task]]
    rfl

variable (cfg) in
/-- The task once the adapter has accepted it, with the event that says so where the adapter
has not ended it. -/
theorem tasks_acceptStart (s : Store) {task : Task} (hfresh : task.events = []) (remote : RemoteStart)
    (machine : String) (o : Occasion) :
    ∃ task', (acceptStart cfg s task remote machine o).tasks = s.tasks.set task.taskId task' ∧
      task'.identity = task.identity ∧ task'.Valid ∧
      task'.status.terminal = remote.status.terminal := by
  have hvalid : (task.update remote).Valid := .of_events_eq_nil hfresh
  have hkey : (saveTask s (task.update remote)).tasks.get? (task.update remote).taskId
      = some (task.update remote) := by
    rw [tasks_saveTask, Dict.get?_set_self]
  have htype : ∀ text thread, (brokerEvent "" .accepted text thread).type ≠ .artifact := by
    intro text thread h
    cases h
  simp only [acceptStart, tasks_saveWorkerBinding, tasks_appendEvent_getD hkey o (htype _ _)]
  split
  · exact ⟨task.update remote, rfl, rfl, hvalid, rfl⟩
  · case isFalse hopen =>
    rw [Bool.not_eq_true] at hopen
    refine ⟨_, Dict.set_set _ _ _ _, identity_appended cfg _ _ _, valid_appended cfg hvalid o hopen, ?_⟩
    have hstatus : remote.status.terminal = false := not_terminal_of_ignoresEvent_eq_false hopen
    rw [hstatus]
    rfl

theorem Store.Valid.acceptStart (hs : s.Valid) {task : Task} (hfresh : task.events = [])
    (remote : RemoteStart) (machine : String) (o : Occasion) :
    (Jarvis.acceptStart cfg s task remote machine o).Valid := by
  obtain ⟨task', htasks, hid, hvalid, -⟩ := tasks_acceptStart cfg s hfresh remote machine o
  refine hs.set hvalid ?_
  rw [htasks, taskId_eq_of_identity hid]

variable (cfg) in
/-- `start_task` appends an error once the adapter has raised an `Exception`. -/
theorem failStart_append (s : Store) (task : Task) (text : String) (o : Occasion) :
    ∃ text', appendEvent cfg s task.taskId (brokerEvent "" .error text' none) o
      = some (failStart cfg s task text o) :=
  ⟨_, appendEvent_eq_getD s task.taskId o EventType.noConfusion⟩

/-! ## `refresh_task` and `consume_task_result` -/

theorem get?_of_requireTaskOwner {owner : String} {task : Task}
    (h : requireTaskOwner cfg s taskId owner = some task) : s.tasks.get? taskId = some task := by
  unfold requireTaskOwner at h
  dsimp only at h
  split at h
  · cases h
  · exact (Option.filter_eq_some_iff.mp h).1

@[simp] theorem tasks_bindStatus (s : Store) (task : Task) (remote : RemoteStatus) :
    (bindStatus cfg s task remote).tasks = s.tasks := by
  unfold bindStatus
  split <;> rfl

variable (cfg) in
theorem applyStatus_cases (s : Store) (task : Task) (remote : RemoteStatus) (o : Occasion) :
    applyStatus cfg s task remote o = bindStatus cfg s task remote ∨
      ∃ e, appendEvent cfg (bindStatus cfg s task remote) task.taskId e o
        = some (applyStatus cfg s task remote o) := by
  unfold applyStatus
  dsimp only
  split
  · exact .inl rfl
  · case h_2 type htype =>
    split
    · exact .inl rfl
    · refine .inr ⟨_, appendEvent_eq_getD _ _ o ?_⟩
      intro (hartifact : type = .artifact)
      rw [hartifact] at htype
      cases hstatus : remote.status <;> rw [hstatus] at htype <;> cases htype

variable (cfg) in
theorem tasks_consumeTaskResult (s : Store) (taskId owner sessionId : String) :
    (consumeTaskResult cfg s taskId owner sessionId).tasks = s.tasks ∨
      ∃ task, s.tasks.get? taskId = some task ∧
        (consumeTaskResult cfg s taskId owner sessionId).tasks
          = s.tasks.set task.taskId task.consumed := by
  unfold consumeTaskResult
  split
  · exact .inl rfl
  · case h_2 task htask =>
    dsimp only
    split
    · exact .inl rfl
    · split
      · exact .inl rfl
      · exact .inr ⟨task, get?_of_requireTaskOwner htask, rfl⟩

end Pandamonium.Jarvis
