import Pandamonium.Analysis.JarvisSteps

/-!
# The active task of a binding

A binding names the active task of its conversation.  The name is put there when the task is
created, when the adapter has accepted it, and when an event or a status brings the id of the
remote thread; it is taken away when the task ends.  `start_task` and `refresh_task` do this
after an `await`, with what they knew before it and what the adapter says.
-/

set_option autoImplicit false

namespace Pandamonium.Jarvis

open Pandamonium.Library

variable {cfg : Config}

/-- Every active task is persisted with a status that is not terminal. -/
def ActiveOpen (s : Store) : Prop :=
  ∀ key binding taskId, s.bindings.get? key = some binding → binding.activeTaskId = some taskId →
    ∃ task, s.tasks.get? taskId = some task ∧ task.status.terminal = false

variable (cfg) in
/-- The same, and the task belongs to the binding. -/
def Tracked (s : Store) : Prop :=
  ∀ key binding taskId, s.bindings.get? key = some binding → binding.activeTaskId = some taskId →
    ∃ task, s.tasks.get? taskId = some task ∧ task.status.terminal = false ∧
      task.bindingKey cfg = key

variable {s : Store} {task : Task}

theorem Tracked.activeOpen (h : Tracked cfg s) : ActiveOpen s := by
  intro key binding taskId hbinding hactive
  obtain ⟨task, htask, hopen, -⟩ := h key binding taskId hbinding hactive
  exact ⟨task, htask, hopen⟩

/-- When `start_task` resumes, neither the file nor the answer says that the task has ended;
and when `refresh_task` resumes with a thread, the file does not if the answer does not. -/
def openAnswers (s : State) (l : Label) : Bool :=
  ((s.startAnswer l).all fun answer =>
      !s.store.terminal answer.1.taskId && !answer.2.status.terminal) &&
    (s.statusAnswer l).all fun answer =>
      !truthyText answer.2.codexThreadId || answer.2.status.terminal ||
        !s.store.terminal answer.1.taskId

/-! ## One lemma for each way to write a binding -/

/-- A binding after `_save_worker_binding`: the active task of the binding that is written is
the given one, the old one, or none. -/
theorem activeTaskId_saveWorkerBinding {thread active sessionKey : Update} {key : String}
    {binding : Binding} {taskId : String}
    (hbinding : (saveWorkerBinding cfg s task thread active sessionKey).bindings.get? key
      = some binding)
    (hactive : binding.activeTaskId = some taskId) :
    (key = task.bindingKey cfg ∧ active = .put (some taskId)) ∨
      ((key = task.bindingKey cfg → active ≠ .put none) ∧
        ∃ old, s.bindings.get? key = some old ∧ old.activeTaskId = some taskId) := by
  simp only [saveWorkerBinding, Dict.get?_set] at hbinding
  split at hbinding
  · case isTrue hkey =>
    obtain rfl := Option.some.inj hbinding
    subst hkey
    have hold : ∀ {old : Option Binding}, ((old.getD ⟨"", "", "", "", none, none, none⟩).activeTaskId
        = some taskId) → ∃ b, old = some b ∧ b.activeTaskId = some taskId := by
      intro old h
      cases old with
      | none => cases h
      | some b => exact ⟨b, rfl, h⟩
    cases active with
    | keep => exact .inr ⟨fun _ h => (by cases h), hold hactive⟩
    | put value =>
      cases value with
      | none => cases hactive
      | some value =>
        simp only [Update.apply] at hactive
        split at hactive
        · exact .inr ⟨fun _ h => (by cases h), hold hactive⟩
        · exact .inl ⟨rfl, by rw [hactive]⟩
  · case isFalse hkey => exact .inr ⟨fun h => absurd h hkey, binding, hbinding, hactive⟩

/-- Writing a binding with no active task of its own, or with one that is open and belongs to
it. -/
theorem Tracked.saveWorkerBinding (h : Tracked cfg s) {thread active sessionKey : Update}
    (hactive : ∀ taskId, active = .put (some taskId) → ∃ t, s.tasks.get? taskId = some t ∧
      t.status.terminal = false ∧ t.bindingKey cfg = task.bindingKey cfg) :
    Tracked cfg (Jarvis.saveWorkerBinding cfg s task thread active sessionKey) := by
  intro key binding taskId hbinding hid
  rw [tasks_saveWorkerBinding]
  rcases activeTaskId_saveWorkerBinding hbinding hid with ⟨rfl, hput⟩ | ⟨-, old, hold, holdid⟩
  · exact hactive taskId hput
  · exact h key old taskId hold holdid

/-- The tasks change and the bindings do not: every open task has to stay open. -/
theorem Tracked.of_tasks {s' : Store} (h : Tracked cfg s) (hbindings : s'.bindings = s.bindings)
    (htasks : ∀ taskId task, s.tasks.get? taskId = some task → task.status.terminal = false →
      ∃ task', s'.tasks.get? taskId = some task' ∧ task'.status.terminal = false ∧
        task'.identity = task.identity) :
    Tracked cfg s' := by
  intro key binding taskId hbinding hid
  obtain ⟨task, htask, hopen, hkey⟩ := h key binding taskId (hbindings ▸ hbinding) hid
  obtain ⟨task', htask', hopen', hident⟩ := htasks taskId task htask hopen
  exact ⟨task', htask', hopen', (bindingKey_eq_of_identity hident).trans hkey⟩

theorem Tracked.saveTask (h : Tracked cfg s)
    (htask : ∀ task₀, s.tasks.get? task.taskId = some task₀ → task₀.status.terminal = false →
      task.status.terminal = false ∧ task.identity = task₀.identity) :
    Tracked cfg (Jarvis.saveTask s task) := by
  refine h.of_tasks rfl fun taskId task₀ htask₀ hopen => ?_
  rw [tasks_saveTask, Dict.get?_set]
  split
  · case isTrue hid =>
    subst hid
    obtain ⟨hopen', hident⟩ := htask task₀ htask₀ hopen
    exact ⟨task, rfl, hopen', hident⟩
  · exact ⟨task₀, htask₀, hopen, rfl⟩

theorem Tracked.saveTask_ended (h : Tracked cfg s) {task₀ : Task}
    (htask₀ : s.tasks.get? task.taskId = some task₀) (hident : task.identity = task₀.identity)
    (hnone : ∀ binding, s.bindings.get? (task.bindingKey cfg) = some binding →
      binding.activeTaskId = none) :
    Tracked cfg (Jarvis.saveTask s task) := by
  intro key binding taskId hbinding hid
  obtain ⟨task', htask', hopen, hkey⟩ := h key binding taskId hbinding hid
  refine ⟨task', ?_, hopen, hkey⟩
  rw [tasks_saveTask, Dict.get?_set, if_neg]
  · exact htask'
  · rintro rfl
    obtain rfl := Option.some.inj (htask'.symm.trans htask₀)
    rw [← hkey, ← bindingKey_eq_of_identity hident] at hbinding
    rw [hnone binding hbinding] at hid
    cases hid

theorem activeTaskId_eq_none_of_put_none {thread sessionKey : Update} {binding : Binding}
    (hbinding : (saveWorkerBinding cfg s task thread (.put none) sessionKey).bindings.get?
      (task.bindingKey cfg) = some binding) :
    binding.activeTaskId = none := by
  by_contra hsome
  obtain ⟨taskId, hactive⟩ := Option.ne_none_iff_exists'.mp hsome
  rcases activeTaskId_saveWorkerBinding hbinding hactive with ⟨-, hput⟩ | ⟨hne, -⟩
  · cases hput
  · exact hne rfl rfl

/-! ## The writes of the voice agent -/

theorem open_status_observe {event : Event} (htask : task.status.terminal = false)
    (h : event.type.terminal = false) : (task.observe event).status.terminal = false := by
  unfold Task.observe
  cases htype : event.type <;> rw [htype] at h <;> first | rfl | exact htask | cases h

theorem Tracked.recordEvent (h : Tracked cfg s) {task₀ : Task}
    (htask₀ : s.tasks.get? task.taskId = some task₀) (hident : task.identity = task₀.identity)
    (hopen : task.status.terminal = false) (hopen₀ : task₀.status.terminal = false) (event : Event)
    (now : ℕ) : Tracked cfg (Jarvis.recordEvent cfg s task event now) := by
  have hid : (task.record event now).taskId = task.taskId :=
    taskId_eq_of_identity (identity_record task event now)
  have hkey : (task.record event now).bindingKey cfg = task.bindingKey cfg :=
    bindingKey_eq_of_identity (identity_record task event now)
  unfold Jarvis.recordEvent
  cases hend : event.type.terminal with
  | true =>
    -- The active task is taken away with the event, whether a thread comes with it or not.
    have hended : ∀ thread : Update, Tracked cfg (Jarvis.saveTask
        (Jarvis.saveWorkerBinding cfg s task thread (.put none) .keep) (task.record event now)) := by
      intro thread
      have hbound : Tracked cfg (Jarvis.saveWorkerBinding cfg s task thread (.put none) .keep) :=
        h.saveWorkerBinding fun _ hput => by cases hput
      refine hbound.saveTask_ended ?_ ((identity_record task event now).trans hident) ?_
      · rw [tasks_saveWorkerBinding, hid, htask₀]
      · intro binding hbinding
        rw [hkey] at hbinding
        exact activeTaskId_eq_none_of_put_none hbinding
    simp only [if_true]
    split
    · exact hended _
    · exact hended _
  | false =>
    have hsaved : ∀ {st : Store}, Tracked cfg st → st.tasks = s.tasks →
        Tracked cfg (Jarvis.saveTask st (task.record event now)) := by
      intro st hst htasks
      refine hst.saveTask fun task₁ htask₁ _ => ?_
      rw [hid, htasks, htask₀] at htask₁
      obtain rfl := Option.some.inj htask₁
      exact ⟨open_status_observe hopen hend, (identity_record task event now).trans hident⟩
    simp only [Bool.false_eq_true, if_false]
    split
    · refine hsaved (h.saveWorkerBinding fun taskId hput => ?_) (tasks_saveWorkerBinding _ _ _ _ _)
      obtain rfl : task.taskId = taskId := by simpa using hput
      exact ⟨task₀, htask₀, hopen₀, (bindingKey_eq_of_identity hident).symm⟩
    · exact hsaved h rfl

theorem Tracked.appendEvent {s' : Store} (h : Tracked cfg s) (hs : s.Valid) {taskId : String}
    {e : Incoming} {o : Occasion} (happend : Jarvis.appendEvent cfg s taskId e o = some s') :
    Tracked cfg s' := by
  rcases appendEvent_cases happend with rfl | ⟨task, htask, hopen, rfl⟩
  · exact h
  · have hstored := storedEvent_task cfg task e o
    have hstatus := not_terminal_of_ignoresEvent_eq_false hopen
    have hident : (storedEvent cfg task e o).1.identity = task.identity := by
      rw [hstored]
      rfl
    have hkey : s.tasks.get? (storedEvent cfg task e o).1.taskId = some task := by
      rw [taskId_eq_of_identity hident, hs.keyed _ _ htask, htask]
    have hstored_open : (storedEvent cfg task e o).1.status.terminal = false := by
      rw [hstored]
      exact hstatus
    exact h.recordEvent hkey hident hstored_open hstatus _ _

/-- `start_task` resumes while the task is open, with an answer that leaves it open. -/
theorem Sound.tracked_acceptStart {s : State} (hs : Sound s) (h : Tracked cfg s.store) {call : ℕ}
    (hstarting : s.Starting call task) {remote : RemoteStart}
    (hopen : remote.status.terminal = false) (machine : String) (o : Occasion) :
    Tracked cfg (acceptStart cfg s.store task remote machine o) := by
  obtain ⟨task₀, htask₀, hident₀⟩ := hs.held task (holds_of_starting hstarting)
  obtain ⟨hfresh, -⟩ := hs.early call task hstarting
  obtain ⟨task', htasks, hident, -, hstatus⟩ :=
    tasks_acceptStart cfg s.store hfresh remote machine o
  have hupdated : Tracked cfg (saveTask s.store (task.update remote)) := by
    refine h.saveTask fun task₁ htask₁ _ => ⟨hopen, ?_⟩
    obtain rfl := Option.some.inj (htask₀.symm.trans htask₁)
    exact hident₀.symm
  have hupdate : (task.update remote).Valid := .of_events_eq_nil hfresh
  have hvalid : (saveTask s.store (task.update remote)).Valid := hs.store.set hupdate rfl
  unfold acceptStart at htasks ⊢
  dsimp only at htasks ⊢
  rw [tasks_saveWorkerBinding] at htasks
  refine Tracked.saveWorkerBinding ?_ fun taskId hput => ?_
  · exact hupdated.appendEvent hvalid (appendEvent_eq_getD _ _ o EventType.noConfusion)
  · obtain rfl : task.taskId = taskId := by
      injection hput with hput
      exact Option.some.inj hput
    rw [htasks, Dict.get?_set_self]
    exact ⟨task', rfl, hstatus.trans hopen, bindingKey_eq_of_identity hident⟩

/-- `refresh_task` resumes with a thread while the task is open, or with a terminal status. -/
theorem Sound.tracked_bindStatus {s : State} (hs : Sound s) (h : Tracked cfg s.store)
    (hheld : s.Holds task) {remote : RemoteStatus}
    (hopen : truthyText remote.codexThreadId = true → remote.status.terminal = false →
      s.store.terminal task.taskId = false) :
    Tracked cfg (bindStatus cfg s.store task remote) := by
  unfold bindStatus
  split
  · case isTrue hthread =>
    refine h.saveWorkerBinding fun taskId hput => ?_
    split at hput
    · cases hput
    · case isFalse hstatus =>
      obtain rfl : task.taskId = taskId := by
        injection hput with hput
        exact Option.some.inj hput
      obtain ⟨task₀, htask₀, hident⟩ := hs.held task hheld
      have hterminal := hopen hthread (Bool.eq_false_iff.mpr hstatus)
      rw [Store.terminal_eq htask₀] at hterminal
      exact ⟨task₀, htask₀, hterminal, bindingKey_eq_of_identity hident⟩
  · exact h

theorem Sound.tracked_fileStep {s : State} {l : Label} {st : Store} (hs : Sound s)
    (htracked : Tracked cfg s.store) (hok : openAnswers s l = true) (h : FileStep cfg s l st) :
    Tracked cfg st := by
  simp only [openAnswers, Bool.and_eq_true] at hok
  induction h with
  | same => exact htracked
  | append h happend ih => exact ih.appendEvent (hs.valid_fileStep h) happend
  | @bind task remote hanswer =>
    refine hs.tracked_bindStatus htracked (holds_of_statusAnswer hanswer) fun hthread hstatus => ?_
    simpa [hanswer, hthread, hstatus] using hok.2
  | block hfresh =>
    refine htracked.saveTask fun task₀ htask₀ _ => ?_
    rw [hfresh] at htask₀
    cases htask₀
  | @relabel active presenter hreuse =>
    obtain ⟨⟨k, hk⟩, hopen⟩ := get?_of_reuse hreuse
    unfold bindTaskPresenter
    dsimp only
    split
    · exact htracked
    · refine htracked.saveTask fun task₀ htask₀ hopen₀ => ?_
      have hkey : s.store.tasks.get? active.taskId = some active := by
        rw [hs.store.keyed _ _ hk, hk]
      obtain rfl : active = task₀ := Option.some.inj (hkey.symm.trans htask₀)
      exact ⟨hopen, rfl⟩
  | @create call task thread hcreates =>
    have hsaved : Tracked cfg (saveTask s.store task) := by
      refine htracked.saveTask fun task₀ htask₀ _ => ?_
      rw [hcreates.fresh] at htask₀
      cases htask₀
    refine hsaved.saveWorkerBinding fun taskId hput => ?_
    obtain rfl : task.taskId = taskId := by
      injection hput with hput
      exact Option.some.inj hput
    refine ⟨task, by rw [tasks_saveTask, Dict.get?_set_self], ?_, rfl⟩
    rw [hcreates.queued.2]
    rfl
  | @accept task remote machine o hanswer =>
    obtain ⟨call, hstarting, -⟩ := starting_of_startAnswer hanswer
    refine hs.tracked_acceptStart htracked hstarting ?_ machine o
    have hanswers := hok.1
    simp only [hanswer, Option.all_some, Bool.and_eq_true, Bool.not_eq_true'] at hanswers
    exact hanswers.2
  | @consume taskId owner sessionId =>
    unfold consumeTaskResult
    split
    · exact htracked
    · case h_2 task htask =>
      dsimp only
      split
      · exact htracked
      · split
        · exact htracked
        · refine htracked.saveTask fun task₀ htask₀ hopen₀ => ?_
          have hget := get?_of_requireTaskOwner htask
          have hkey : s.store.tasks.get? task.taskId = some task := by
            rw [hs.store.keyed _ _ hget, hget]
          obtain rfl : task = task₀ := Option.some.inj (hkey.symm.trans htask₀)
          exact ⟨hopen₀, rfl⟩

theorem Sound.terminal_fileStep {s : State} {l : Label} {st : Store} (hs : Sound s)
    (hok : openAnswers s l = true) (h : FileStep cfg s l st) {taskId : String}
    (hterminal : s.store.terminal taskId = true) : st.terminal taskId = true := by
  simp only [openAnswers, Bool.and_eq_true] at hok
  cases htask : s.store.tasks.get? taskId with
  | none =>
    rw [Store.terminal, htask] at hterminal
    cases hterminal
  | some task =>
    obtain ⟨task', htask', -, hnext⟩ := hs.keeps_fileStep h htask
    rcases hnext with hnext | ⟨copy, remote, hanswer, rfl⟩
    · rw [Store.terminal_eq htask] at hterminal
      rw [Store.terminal_eq htask', hnext.final hterminal, hterminal]
    · have hanswers := hok.1
      simp [hanswer, hterminal] at hanswers

/-! ## Runs -/

/-- The active tasks of the second state are open, and none of them had ended in the first
one. -/
def ActiveTasksOpen (s s' : State) : Prop :=
  ActiveOpen s'.store ∧ ∀ taskId, s.store.terminal taskId = true →
    ∀ key binding, s'.store.bindings.get? key = some binding → binding.activeTaskId ≠ some taskId

/-- In every run with open answers, an active task has not ended, and a task that has ended is
never made active again. -/
theorem active_tasks_open_of_openAnswers {s s' : State}
    (hs : (machine cfg).ReachableWhere (fun s l => openAnswers s l = true) s)
    (hrun : (machine cfg).RunWhere (fun s l => openAnswers s l = true) s s') :
    ActiveTasksOpen s s' := by
  have htracked : Tracked cfg s'.store := by
    refine ((hs.continued hrun).invariant (I := fun s => Sound s ∧ Tracked cfg s.store) ?_ ?_).2
    · rintro s rfl
      exact ⟨.initial, fun key binding taskId hbinding => by cases hbinding⟩
    · rintro s l s' ⟨hsound, htracked⟩ hok h
      exact ⟨hsound.preserved (step_moves h), hsound.tracked_fileStep htracked hok (step_moves h).file⟩
  refine ⟨htracked.activeOpen, fun taskId hterminal key binding hbinding hactive => ?_⟩
  have hended : Sound s' ∧ s'.store.terminal taskId = true := by
    refine hrun.preserves (I := fun s => Sound s ∧ s.store.terminal taskId = true) ?_
      ⟨sound_of_reachable hs, hterminal⟩
    rintro s l s' ⟨hsound, hterminal⟩ hok h
    exact ⟨hsound.preserved (step_moves h),
      hsound.terminal_fileStep hok (step_moves h).file hterminal⟩
  obtain ⟨task, htask, hopen⟩ := htracked.activeOpen key binding taskId hbinding hactive
  rw [Store.terminal_eq htask, hopen] at hended
  cases hended.2

/-- A task that is refreshed while it runs, and completes. -/
def refreshedTask : List Label :=
  [.start 0 plainStart "t" 1, .acquire 0 "t" 1,
    .startAnswered 0 (plainAnswer .queued) (plainOccasion 2), .refresh 1 "t" "ada",
    .statusAnswered 1 (plainStatus .running (some "thread")) (plainOccasion 3),
    .append "t" (brokerEvent "r" .result (some "done") none) (plainOccasion 4)]

/-- The conversation goes on with another task. -/
def nextTask : List Label :=
  [.refresh 2 "t" "ada", .statusAnswered 2 (plainStatus .completed (some "thread")) (plainOccasion 5),
    .start 3 plainStart "u" 6, .acquire 3 "u" 6,
    .startAnswered 3 (plainAnswer .running) (plainOccasion 7)]

/-- The active task of the conversation, and which of two tasks have ended. -/
def activeView (s : State) : Option String × Bool × Bool :=
  ((s.store.bindings.get? "v2:ada:chat:pc-codex:conversation").bind Binding.activeTaskId,
    s.store.terminal "t", s.store.terminal "u")

/-- The first task has ended when the second one is active. -/
theorem active_tasks_open_nextTask : ∃ s s',
    activeView s = (none, true, false) ∧ activeView s' = (some "u", true, false) ∧
      ActiveTasksOpen s s' := by
  obtain ⟨s, s', hs, hrun, hview⟩ := (machine oneWorker).exists_runWhere_of_exec
    (fun s l => openAnswers s l = true) (fun s s' => (activeView s, activeView s'))
    refreshedTask nextTask (v := ((none, true, false), (some "u", true, false))) rfl (by decide)
  obtain ⟨hview, hview'⟩ := Prod.mk.inj hview
  exact ⟨s, s', hview, hview', active_tasks_open_of_openAnswers hs hrun⟩

/-- A task completes while `refresh_task` awaits its status. -/
def completedWhileRefreshed : List Label :=
  [.start 0 plainStart "t" 1, .acquire 0 "t" 1,
    .startAnswered 0 (plainAnswer .queued) (plainOccasion 2), .mirrorTurn "t", .refresh 1 "t" "ada",
    .mirrorEvent "t" (brokerEvent "r" .result (some "done") none) (plainOccasion 3)]

/-- The status is from before that, and makes the task active again. -/
theorem not_active_tasks_open_completedWhileRefreshed :
    ¬ ∀ cfg s s', (machine cfg).Reachable s → (machine cfg).Run s s' → ActiveTasksOpen s s' := by
  intro hall
  obtain ⟨s, s', hs, hrun, hview⟩ := (machine oneWorker).exists_runWhere_of_exec
    TransitionSystem.anyStep (fun s s' => (s.store.terminal "t", activeView s')) completedWhileRefreshed
    [.statusAnswered 1 (plainStatus .running (some "thread")) (plainOccasion 4)]
    (v := (true, some "t", true, false)) rfl (by decide)
  simp only [activeView, Prod.mk.injEq, Option.bind_eq_some_iff] at hview
  obtain ⟨hterminal, ⟨binding, hbinding, hactive⟩, -⟩ := hview
  exact (hall oneWorker s s' hs hrun).2 "t" hterminal _ binding hbinding hactive

end Pandamonium.Jarvis
