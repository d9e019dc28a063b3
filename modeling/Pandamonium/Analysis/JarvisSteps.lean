import Pandamonium.Model.JarvisRun
import Pandamonium.Analysis.JarvisTasks

/-!
# What a step of the voice agent can do

Every label is one of a few kinds of steps: what it writes is a `FileStep`, and what it does
to the suspended calls is in `Moves`.  The results about runs are proved from these two and
never look at the coroutines.
-/

set_option autoImplicit false

namespace Pandamonium.Jarvis

open Pandamonium.Library

variable {cfg : Config}

variable {task task' : Task} {call : ℕ}

theorem Store.terminal_eq {s : Store} {taskId : String} (h : s.tasks.get? taskId = some task) :
    s.terminal taskId = task.status.terminal := by
  simp only [Store.terminal, h, Option.map_some, Option.getD_some]

/-- The copy of a task that a suspended call has. -/
def Frame.copy : Frame → Option Task
  | .waiting _ _ => none
  | .starting task _ | .refreshing task | .acting task _ _ => some task

/-- A suspended call or a mirror has this copy of a task. -/
def State.Holds (s : State) (task : Task) : Prop :=
  (∃ call frame, s.frame call = some frame ∧ frame.copy = some task) ∨
    ∃ taskId, s.mirrors.get? taskId = some (.polling task)

/-- A call of `start_task` awaits the adapter. -/
def State.Starting (s : State) (call : ℕ) (task : Task) : Prop :=
  ∃ machine, s.frame call = some (.starting task machine)

/-- The copy of the task that a label resumes `start_task` with, and the answer. -/
def State.startAnswer (s : State) : Label → Option (Task × RemoteStart)
  | .startAnswered call remote _ =>
    match s.frame call with
    | some (.starting task _) => some (task, remote)
    | _ => none
  | _ => none

/-- The copy of the task that a label resumes `refresh_task` with, and the answer. -/
def State.statusAnswer (s : State) : Label → Option (Task × RemoteStatus)
  | .statusAnswered call remote _ =>
    match s.frame call with
    | some (.refreshing task) => some (task, remote)
    | _ => none
  | .pollAnswered taskId remote _ _ _ =>
    match s.mirrors.get? taskId with
    | some (.polling task) => some (task, remote)
    | _ => none
  | _ => none

/-- The task that a label reuses for a `start_task`, with the presenter asked for. -/
def State.reuse (s : State) : Label → Option (Task × Option String)
  | .acquire call _ _ =>
    match s.frame call with
    | some (.waiting req owner) =>
      ((findActiveTask s.store owner req.sessionId req.worker).filter
        fun active => !refusesReuse active req).map (·, req.presenter)
    | _ => none
  | _ => none

/-- The call of `start_task` that a label ends at the adapter. -/
def State.startEnds (s : State) : Label → ℕ → Prop
  | .startAnswered call' _ _, call | .startRaised call' _ _, call | .cancelled call', call =>
    call' = call ∧ ∃ task, s.Starting call task
  | _, _ => False

/-- A label creates this task. -/
structure State.Creates (s : State) (l : Label) (call : ℕ) (task : Task) : Prop where
  label : ∃ now, l = .acquire call task.taskId now
  queued : task.events = [] ∧ task.status = .queued
  unlocked : s.locked (startLockKey task.owner task.sessionId task.worker) = false
  fresh : s.store.tasks.get? task.taskId = none
  idle : findActiveTask s.store task.owner task.sessionId task.worker = none

variable (cfg) in
/-- What a step writes. -/
inductive FileStep (s : State) (l : Label) : Store → Prop
  | same : FileStep s l s.store
  | append {st st' : Store} {taskId : String} {e : Incoming} {o : Occasion} (h : FileStep s l st)
      (happend : appendEvent cfg st taskId e o = some st') : FileStep s l st'
  | bind {task : Task} {remote : RemoteStatus} (h : s.statusAnswer l = some (task, remote)) :
      FileStep s l (bindStatus cfg s.store task remote)
  | block {task : Task} (hfresh : s.store.tasks.get? task.taskId = none)
      (hblocked : task.events = [] ∧ task.status = .blocked) :
      FileStep s l (saveTask s.store task)
  | relabel {active : Task} {presenter : Option String}
      (h : s.reuse l = some (active, presenter)) :
      FileStep s l (bindTaskPresenter cfg s.store active presenter)
  | create {call : ℕ} {task : Task} {thread : Update} (h : s.Creates l call task) :
      FileStep s l (saveWorkerBinding cfg (saveTask s.store task) task thread
        (.put (some task.taskId)) .keep)
  | accept {task : Task} {remote : RemoteStart} {machine : String} {o : Occasion}
      (h : s.startAnswer l = some (task, remote)) :
      FileStep s l (acceptStart cfg s.store task remote machine o)
  | consume {taskId owner sessionId : String} :
      FileStep s l (consumeTaskResult cfg s.store taskId owner sessionId)

/-! ## The suspended calls -/

section Frames

@[simp] theorem frame_enter (s : State) (call call' : ℕ) (frame : Frame) :
    (s.enter call frame).frame call' = if call' = call then some frame else s.frame call' :=
  Dict.get?_set _ _ _ _

@[simp] theorem frame_leave (s : State) (call call' : ℕ) :
    (s.leave call).frame call' = if call' = call then none else s.frame call' :=
  Dict.get?_erase _ _ _

@[simp] theorem store_enter (s : State) (call : ℕ) (frame : Frame) :
    (s.enter call frame).store = s.store := rfl

@[simp] theorem store_leave (s : State) (call : ℕ) : (s.leave call).store = s.store := rfl

@[simp] theorem store_ensureMirror (s : State) (taskId : String) :
    (s.ensureMirror taskId).store = s.store := by
  unfold State.ensureMirror
  split
  · rfl
  · split <;> rfl

/-- The second state has no more calls of `start_task` at the adapter than the first one, and
only copies that the first one has or that are persisted in the file. -/
structure Calmer (st : Store) (s s' : State) : Prop where
  starting : ∀ call task, s'.Starting call task → s.Starting call task
  copies : ∀ task, s'.Holds task → s.Holds task ∨ ∃ k, st.tasks.get? k = some task
  failed : s'.failedStarts = s.failedStarts

variable {st : Store} {s s' s'' : State}

theorem Calmer.trans (h : Calmer st s s') (h' : Calmer st s' s'') : Calmer st s s'' where
  starting call task hs := h.starting call task (h'.starting call task hs)
  copies task hs := by
    rcases h'.copies task hs with hheld | hpersisted
    · exact h.copies task hheld
    · exact .inr hpersisted
  failed := h'.failed.trans h.failed

theorem Calmer.of_frames_eq (hcalls : s'.calls = s.calls) (hmirrors : s'.mirrors = s.mirrors)
    (hfailed : s'.failedStarts = s.failedStarts) : Calmer st s s' where
  starting call task h := by
    obtain ⟨machine, hframe⟩ := h
    exact ⟨machine, by rw [State.frame, ← hcalls]; exact hframe⟩
  copies task h := by
    rw [State.Holds, hmirrors] at h
    rcases h with ⟨call, frame, hframe, hcopy⟩ | h
    · exact .inl (.inl ⟨call, frame, by rw [State.frame, ← hcalls]; exact hframe, hcopy⟩)
    · exact .inl (.inr h)
  failed := hfailed

theorem Calmer.refl : Calmer st s s := .of_frames_eq rfl rfl rfl

theorem Calmer.of_write {store : Store} (h : Calmer st { s with store := store } s') :
    Calmer st s s' := by
  have hwrite : Calmer st s { s with store := store } := .of_frames_eq rfl rfl rfl
  exact hwrite.trans h

theorem Calmer.leave (call : ℕ) : Calmer st s (s.leave call) where
  starting call' task h := by
    obtain ⟨machine, hframe⟩ := h
    rw [frame_leave] at hframe
    split at hframe
    · cases hframe
    · exact ⟨machine, hframe⟩
  copies task h := by
    refine .inl ?_
    rcases h with ⟨call', frame, hframe, hcopy⟩ | h
    · rw [frame_leave] at hframe
      split at hframe
      · cases hframe
      · exact .inl ⟨call', frame, hframe, hcopy⟩
    · exact .inr h
  failed := rfl

theorem Calmer.enter (call : ℕ) {frame : Frame} (hfree : ∀ task machine, frame ≠ .starting task machine)
    (hcopy : ∀ task, frame.copy = some task → s.Holds task ∨ ∃ k, st.tasks.get? k = some task) :
    Calmer st s (s.enter call frame) where
  starting call' task h := by
    obtain ⟨machine, hframe⟩ := h
    rw [frame_enter] at hframe
    split at hframe
    · exact absurd (Option.some.inj hframe) (hfree task machine)
    · exact ⟨machine, hframe⟩
  copies task h := by
    rcases h with ⟨call', frame', hframe, hcopy'⟩ | h
    · rw [frame_enter] at hframe
      split at hframe
      · obtain rfl := Option.some.inj hframe
        exact hcopy task hcopy'
      · exact .inl (.inl ⟨call', frame', hframe, hcopy'⟩)
    · exact .inl (.inr h)
  failed := rfl

theorem Calmer.setMirror (taskId : String) {m : Mirror}
    (hcopy : ∀ task, m = .polling task → ∃ k, st.tasks.get? k = some task) :
    Calmer st s (s.setMirror taskId m) where
  starting _ _ h := h
  copies task h := by
    rcases h with h | ⟨taskId', hm⟩
    · exact .inl (.inl h)
    · rw [State.setMirror, Dict.get?_set] at hm
      split at hm
      · exact .inr (hcopy task (Option.some.inj hm))
      · exact .inl (.inr ⟨taskId', hm⟩)
  failed := rfl

theorem Calmer.endMirror (taskId : String) : Calmer st s (s.endMirror taskId) where
  starting _ _ h := h
  copies task h := by
    refine .inl ?_
    rcases h with h | ⟨taskId', hm⟩
    · exact .inl h
    · rw [State.endMirror, Dict.get?_erase] at hm
      split at hm
      · cases hm
      · exact .inr ⟨taskId', hm⟩
  failed := rfl

theorem Calmer.ensureMirror (taskId : String) : Calmer st s (s.ensureMirror taskId) := by
  unfold State.ensureMirror
  split
  · exact .refl
  · split
    · exact .refl
    · exact .setMirror taskId fun _ h => by cases h

end Frames

/-! ## Every label -/

variable (cfg) in
/-- What a step does. -/
structure Moves (s : State) (l : Label) (s' : State) : Prop where
  file : FileStep cfg s l s'.store
  copies : ∀ task, s'.Holds task → s.Holds task ∨ ∃ k, s'.store.tasks.get? k = some task
  starting : ∀ call task, s'.Starting call task → s.Starting call task ∨
    s.Creates l call task ∧ s'.store.tasks.get? task.taskId = some task
  ended : ∀ call, s.startEnds l call → ∀ task, ¬ s'.Starting call task
  failed : ∀ taskId ∈ s'.failedStarts, taskId ∈ s.failedStarts ∨
    ∃ call task, s.Starting call task ∧ task.taskId = taskId ∧ s.startEnds l call ∧
      ((l = .cancelled call ∧ s'.store = s.store) ∨
        ∃ text o, s'.store = failStart cfg s.store task text o)

/-- A step that ends no call of `start_task` at the adapter. -/
theorem Moves.of_calmer {s s' : State} {l : Label} (hfile : FileStep cfg s l s'.store)
    (hcalmer : Calmer s'.store s s') (hends : ∀ call, ¬ s.startEnds l call) : Moves cfg s l s' where
  file := hfile
  copies := hcalmer.copies
  starting call task h := .inl (hcalmer.starting call task h)
  ended call h := absurd h (hends call)
  failed _ hmem := .inl (hcalmer.failed ▸ hmem)

/-- A call of `start_task` leaves the adapter. -/
theorem Calmer.not_starting_leave {s : State} (call : ℕ) (task : Task) :
    ¬ (s.leave call).Starting call task := by
  rintro ⟨machine, hframe⟩
  rw [frame_leave, if_pos rfl] at hframe
  cases hframe

theorem Starting.unique {s : State} (h : s.Starting call task) (h' : s.Starting call task') :
    task = task' := by
  obtain ⟨machine, hframe⟩ := h
  obtain ⟨machine', hframe'⟩ := h'
  rw [hframe] at hframe'
  cases hframe'
  rfl

section Labels

variable {s s' : State}

theorem moves_start {req : StartRequest} {taskId : String} {now : ℕ}
    (h : s.start cfg call req taskId now = some s') :
    Moves cfg s (.start call req taskId now) s' := by
  unfold State.start at h
  split at h
  · cases h
  · split at h
    · obtain rfl := Option.some.inj h
      exact .of_calmer .same (.enter call (fun _ _ => Frame.noConfusion) (fun _ h => by cases h))
        fun _ => id
    · dsimp only at h
      split at h
      · cases h
      · case isFalse hfresh =>
        obtain rfl := Option.some.inj h
        exact .of_calmer (.block (Option.not_isSome_iff_eq_none.mp hfresh) ⟨rfl, rfl⟩)
          (.of_frames_eq rfl rfl rfl) fun _ => id

theorem moves_acquire {req : StartRequest} {owner taskId : String} {now : ℕ}
    (hframe : s.frame call = some (.waiting req owner))
    (h : s.acquire cfg call req owner taskId now = some s') :
    Moves cfg s (.acquire call taskId now) s' := by
  unfold State.acquire at h
  split at h
  · cases h
  · case isFalse hunlocked =>
    split at h
    · cases h
    · case isFalse hfresh =>
      rcases openTask_cases cfg s.store req owner taskId now with
        hopen | ⟨active, hactive, hreuse, hopen⟩ | ⟨hidle, thread, key, hopen⟩
      · rw [hopen] at h
        obtain rfl := Option.some.inj h
        exact .of_calmer .same (.of_write (.leave call)) fun _ => id
      · rw [hopen] at h
        obtain rfl := Option.some.inj h
        refine .of_calmer (.relabel ?_) (.of_write (.leave call)) fun _ => id
        simp [State.reuse, hframe, hactive, hreuse]
      · rw [hopen] at h
        obtain rfl := Option.some.inj h
        have hcreates : s.Creates (.acquire call taskId now) call
            (queuedTask cfg req owner taskId thread key now) :=
          { label := ⟨now, rfl⟩
            queued := ⟨rfl, rfl⟩
            unlocked := Bool.eq_false_iff.mpr hunlocked
            fresh := Option.not_isSome_iff_eq_none.mp hfresh
            idle := hidle }
        constructor
        · exact .create hcreates
        · rintro task (⟨call', frame, hframe', hcopy⟩ | hmirror)
          · rw [frame_enter] at hframe'
            split at hframe'
            · obtain rfl := Option.some.inj hframe'
              obtain rfl := Option.some.inj hcopy
              exact .inr ⟨taskId, by simp [queuedTask]⟩
            · exact .inl (.inl ⟨call', frame, hframe', hcopy⟩)
          · exact .inl (.inr hmirror)
        · rintro call' task ⟨machine, hframe'⟩
          rw [frame_enter] at hframe'
          split at hframe'
          · case isTrue hcall =>
            subst hcall
            cases hframe'
            exact .inr ⟨hcreates, by simp⟩
          · exact .inl ⟨machine, hframe'⟩
        · exact fun call' hends => hends.elim
        · exact fun taskId' hmem => .inl hmem

theorem moves_startAnswered {machine : String} {remote : RemoteStart} {o : Occasion}
    (hframe : s.frame call = some (.starting task machine)) :
    Moves cfg s (.startAnswered call remote o)
      (({ s with store := acceptStart cfg s.store task remote machine o }.leave call).ensureMirror
        task.taskId) := by
  have hcalmer : ∀ st : Store, Calmer st s
      (({ s with store := acceptStart cfg s.store task remote machine o }.leave call).ensureMirror
        task.taskId) :=
    fun st => .of_write ((Calmer.leave call).trans (.ensureMirror task.taskId))
  refine ⟨?_, (hcalmer _).copies, fun call' task' h => .inl ((hcalmer .empty).starting call' task' h),
    ?_, fun taskId hmem => .inl ((hcalmer .empty).failed ▸ hmem)⟩
  · rw [store_ensureMirror, store_leave]
    refine .accept ?_
    simp only [State.startAnswer, hframe]
  · rintro call' ⟨rfl, -⟩ task' hstarting
    have hens : Calmer .empty ({ s with store := acceptStart cfg s.store task remote machine o }.leave call)
        (({ s with store := acceptStart cfg s.store task remote machine o }.leave call).ensureMirror
          task.taskId) := .ensureMirror task.taskId
    exact Calmer.not_starting_leave call task' (hens.starting call task' hstarting)

/-- A call of `start_task` that leaves the adapter by an exception. -/
theorem moves_failed {l : Label} {store : Store} (hstarting : s.Starting call task)
    (hends : ∀ call', s.startEnds l call' → call = call') (hend : s.startEnds l call)
    (hfile : FileStep cfg s l store) (hwhy : (l = .cancelled call ∧ store = s.store) ∨
      ∃ text o, store = failStart cfg s.store task text o) :
    Moves cfg s l
      ({ s with store := store, failedStarts := s.failedStarts ++ [task.taskId] }.leave call) := by
  set s₁ : State := { s with store := store, failedStarts := s.failedStarts ++ [task.taskId] }
  have hcalmer : ∀ st : Store, Calmer st s₁ (s₁.leave call) := fun _ => .leave call
  refine ⟨hfile, fun task' h => (hcalmer _).copies task' h,
    fun call' task' h => .inl ((hcalmer .empty).starting call' task' h), ?_, ?_⟩
  · intro call' hends' task'
    obtain rfl := hends call' hends'
    exact Calmer.not_starting_leave call task'
  · intro taskId hmem
    rcases List.mem_append.mp hmem with hmem | hmem
    · exact .inl hmem
    · rw [List.mem_singleton] at hmem
      exact .inr ⟨call, task, hstarting, hmem.symm, hend, hwhy⟩

/-- The events that `task_action` makes are no artifacts. -/
theorem actionEvent_type {requestId : String} {action : Action} {e : Incoming}
    (h : actionEvent task requestId action = some e) : e.type ≠ .artifact := by
  cases action <;> simp only [actionEvent, Option.some.injEq, reduceCtorEq] at h <;>
    subst h <;> exact EventType.noConfusion

theorem moves_acted {l : Label} {owner : String} {action : Action} {requestId : String}
    {o : Occasion} (hends : ∀ call', ¬ s.startEnds l call') :
    Moves cfg s l (s.acted cfg call task owner action requestId o) := by
  unfold State.acted
  extract_lets external event s₁
  obtain ⟨store, hs₁, hfile⟩ : ∃ store, s₁ = { s with store := store } ∧ FileStep cfg s l store := by
    cases hevent : event with
    | none => exact ⟨s.store, by simp only [s₁, hevent], .same⟩
    | some e =>
      refine ⟨_, by simp only [s₁, hevent]; rfl, FileStep.append .same (appendEvent_eq_getD _ _ o ?_)⟩
      simp only [event] at hevent
      split at hevent
      · exact actionEvent_type hevent
      · cases hevent
  clear_value s₁
  subst hs₁
  split
  · exact .of_calmer hfile (.of_write (.leave call)) hends
  · split
    · exact .of_calmer hfile (.of_write (.leave call)) hends
    · case h_2 task' htask' =>
      refine .of_calmer hfile (.of_write (.enter call (fun _ _ => Frame.noConfusion) ?_)) hends
      intro copy hcopy
      obtain rfl := Option.some.inj hcopy
      exact .inr ⟨_, get?_of_requireTaskOwner htask'⟩

theorem moves_reconcile {l : Label} (hends : ∀ call', ¬ s.startEnds l call') (taskId : String) :
    Moves cfg s l (s.reconcile cfg taskId) := by
  have hended : Moves cfg s l (s.endMirror taskId) := .of_calmer .same (.endMirror taskId) hends
  unfold State.reconcile
  split
  · exact hended
  · split
    · exact hended
    · split
      · exact hended
      · case h_2 task' htask' =>
        refine .of_calmer .same (.setMirror taskId fun copy hcopy => ?_) hends
        obtain rfl := Mirror.polling.inj hcopy
        exact ⟨_, get?_of_requireTaskOwner htask'⟩

theorem moves_afterStream {l : Label} (hends : ∀ call', ¬ s.startEnds l call') (taskId : String)
    (n : ℕ) : Moves cfg s l (s.afterStream cfg taskId n) := by
  unfold State.afterStream
  split
  · exact .of_calmer .same (.setMirror taskId fun _ h => by cases h) hends
  · exact moves_reconcile hends taskId

theorem moves_stream {l : Label} (hends : ∀ call', ¬ s.startEnds l call') (taskId : String) (n : ℕ) :
    Moves cfg s l (s.stream cfg taskId n) := by
  unfold State.stream
  split
  · exact .of_calmer .same (.endMirror taskId) hends
  · split
    · exact .of_calmer .same (.endMirror taskId) hends
    · exact .of_calmer .same (.setMirror taskId fun _ h => by cases h) hends

theorem moves_mirrorEvent {taskId : String} {n : ℕ} {e : Incoming} {o : Occasion} :
    Moves cfg s (.mirrorEvent taskId e o) (s.mirrorEvent cfg taskId n e o) := by
  unfold State.mirrorEvent
  split
  · exact .of_calmer .same (.endMirror taskId) fun _ => id
  · split
    · exact moves_afterStream (fun _ => id) taskId n
    · case h_2 store happend =>
      exact .of_calmer (.append .same happend) (.of_frames_eq rfl rfl rfl) fun _ => id

theorem moves_afterPoll {l : Label} {store : Store} (hfile : FileStep cfg s l store)
    (hends : ∀ call', ¬ s.startEnds l call') (taskId : String) (timeUp : Bool) (o : Occasion) :
    Moves cfg s l (({ s with store := store } : State).afterPoll cfg taskId timeUp o) := by
  unfold State.afterPoll
  split
  · exact .of_calmer hfile (.of_write (.endMirror taskId)) hends
  · split
    · refine .of_calmer (.append hfile (appendEvent_eq_getD _ _ o EventType.noConfusion))
        (.of_write (.endMirror taskId)) hends
    · exact .of_calmer hfile (.of_write (.setMirror taskId fun _ h => by cases h)) hends

/-- `refresh_task` once the adapter has answered. -/
theorem fileStep_applyStatus {l : Label} {remote : RemoteStatus} (o : Occasion)
    (h : s.statusAnswer l = some (task, remote)) :
    FileStep cfg s l (applyStatus cfg s.store task remote o) := by
  rcases applyStatus_cases cfg s.store task remote o with heq | ⟨e, happend⟩
  · rw [heq]
    exact .bind h
  · exact .append (.bind h) happend

/-- Every label is one of these kinds of steps. -/
theorem step_moves {l : Label} (h : step cfg s l = some s') : Moves cfg s l s' := by
  cases l with
  | start call req taskId now =>
    simp only [step] at h
    split at h
    · cases h
    · exact moves_start h
  | acquire call taskId now =>
    simp only [step] at h
    split at h
    · case h_1 req owner hframe => exact moves_acquire hframe h
    · cases h
  | startAnswered call remote o =>
    simp only [step] at h
    split at h
    · case h_1 task machine hframe =>
      obtain rfl := Option.some.inj h
      exact moves_startAnswered hframe
    · cases h
  | startRaised call text o =>
    simp only [step] at h
    split at h
    · case h_1 task machine hframe =>
      obtain rfl := Option.some.inj h
      obtain ⟨text', happend⟩ := failStart_append cfg s.store task text o
      exact moves_failed ⟨machine, hframe⟩ (fun _ hends => hends.1) ⟨rfl, task, machine, hframe⟩
        (.append .same happend) (.inr ⟨text, o, rfl⟩)
    · cases h
  | refresh call taskId owner =>
    simp only [step] at h
    split at h
    · cases h
    · split at h
      · cases h
      · case h_2 task htask =>
        obtain rfl := Option.some.inj h
        refine .of_calmer .same (.enter call (fun _ _ => Frame.noConfusion) ?_) fun _ => id
        intro copy hcopy
        obtain rfl := Option.some.inj hcopy
        exact .inr ⟨_, get?_of_requireTaskOwner htask⟩
  | statusAnswered call remote o =>
    simp only [step] at h
    split at h
    · case h_1 task hframe =>
      obtain rfl := Option.some.inj h
      refine .of_calmer ?_ (.of_write ((Calmer.leave call).trans (.ensureMirror task.taskId)))
        fun _ => id
      rw [store_ensureMirror, store_leave]
      refine fileStep_applyStatus o ?_
      simp only [State.statusAnswer, hframe]
    · cases h
  | statusRaised call =>
    simp only [step] at h
    split at h
    · case h_1 task hframe =>
      obtain rfl := Option.some.inj h
      refine .of_calmer ?_ ((Calmer.leave call).trans (.ensureMirror task.taskId)) fun _ => id
      rw [store_ensureMirror]
      exact .same
    · cases h
  | act call taskId owner action =>
    simp only [step] at h
    split at h
    · cases h
    · split at h
      · cases h
      · case h_2 task htask =>
        split at h
        · cases h
        · obtain rfl := Option.some.inj h
          refine .of_calmer .same (.enter call (fun _ _ => Frame.noConfusion) ?_) fun _ => id
          intro copy hcopy
          obtain rfl := Option.some.inj hcopy
          exact .inr ⟨_, get?_of_requireTaskOwner htask⟩
  | actionAnswered call requestId o =>
    simp only [step] at h
    split at h
    · obtain rfl := Option.some.inj h
      exact moves_acted fun _ => id
    · cases h
  | actionRaised call =>
    simp only [step] at h
    split at h
    · obtain rfl := Option.some.inj h
      exact .of_calmer .same (.leave call) fun _ => id
    · cases h
  | cancelled call =>
    simp only [step] at h
    split at h
    · cases h
    · case h_2 task machine hframe =>
      obtain rfl := Option.some.inj h
      exact moves_failed ⟨machine, hframe⟩ (fun _ hends => hends.1) ⟨rfl, task, machine, hframe⟩
        .same (.inl ⟨rfl, rfl⟩)
    · case h_3 frame hother hframe =>
      obtain rfl := Option.some.inj h
      refine .of_calmer .same (.leave call) ?_
      rintro call' ⟨rfl, task, machine, hstarting⟩
      exact hother task machine (Option.some.inj (hframe.symm.trans hstarting))
  | append taskId e o =>
    simp only [step, Option.map_eq_some_iff] at h
    obtain ⟨store, happend, rfl⟩ := h
    exact .of_calmer (.append .same happend) (.of_frames_eq rfl rfl rfl) fun _ => id
  | consume taskId owner sessionId =>
    obtain rfl := Option.some.inj h
    exact .of_calmer .consume (.of_frames_eq rfl rfl rfl) fun _ => id
  | mirrorTurn taskId =>
    simp only [step] at h
    split at h
    · obtain rfl := Option.some.inj h
      exact moves_stream (fun _ => id) taskId _
    · obtain rfl := Option.some.inj h
      exact moves_reconcile (fun _ => id) taskId
    · cases h
  | mirrorEvent taskId e o =>
    simp only [step] at h
    split at h
    · obtain rfl := Option.some.inj h
      exact moves_mirrorEvent
    · cases h
  | mirrorEnded taskId =>
    simp only [step] at h
    split at h
    · case h_1 n hmirror =>
      split at h
      · obtain rfl := Option.some.inj h
        exact .of_calmer .same (.endMirror taskId) fun _ => id
      · obtain rfl := Option.some.inj h
        exact moves_afterStream (fun _ => id) taskId n
    · cases h
  | mirrorRaised taskId =>
    simp only [step] at h
    split at h
    · case h_1 n hmirror =>
      obtain rfl := Option.some.inj h
      exact moves_afterStream (fun _ => id) taskId n
    · cases h
  | mirrorCancelled taskId =>
    simp only [step] at h
    split at h
    · cases h
    · cases h
    · obtain rfl := Option.some.inj h
      exact .of_calmer .same (.setMirror taskId fun _ h => by cases h) fun _ => id
    · obtain rfl := Option.some.inj h
      exact .of_calmer .same (.endMirror taskId) fun _ => id
  | pollAnswered taskId remote o timeUp o' =>
    simp only [step] at h
    split at h
    · case h_1 task hmirror =>
      obtain rfl := Option.some.inj h
      refine moves_afterPoll (fileStep_applyStatus o ?_) (fun _ => id) taskId timeUp o'
      simp only [State.statusAnswer, hmirror]
    · cases h
  | pollRaised taskId timeUp o =>
    simp only [step] at h
    split at h
    · obtain rfl := Option.some.inj h
      exact moves_afterPoll .same (fun _ => id) taskId timeUp o
    · cases h

end Labels

/-! ## What holds in every state -/

/-- The key of a task's start lock. -/
def Task.lockKey (task : Task) : String := startLockKey task.owner task.sessionId task.worker

theorem lockKey_eq_of_slot (h : task'.slot = task.slot) :
    task'.lockKey = task.lockKey := by
  simp only [Task.slot, Prod.mk.injEq] at h
  obtain ⟨ho, hs, hw⟩ := h
  simp only [Task.lockKey, ho, hs, hw]

theorem locked_of_starting {s : State} (h : s.Starting call task) :
    s.locked task.lockKey = true := by
  obtain ⟨machine, hframe⟩ := h
  refine List.any_eq_true.mpr ⟨_, (s.calls.mem_values_iff _).mpr ⟨call, hframe⟩, ?_⟩
  simp [Frame.lock, Task.lockKey]

/-- The invariant of the voice agent.  Every copy is a copy of a persisted task; a call at the
adapter has its copy from before the first event, and is alone in its start lock. -/
structure Sound (s : State) : Prop where
  store : s.store.Valid
  held : ∀ task, s.Holds task →
    ∃ task', s.store.tasks.get? task.taskId = some task' ∧ task'.identity = task.identity
  early : ∀ call task, s.Starting call task → task.events = [] ∧
    ∀ task', s.store.tasks.get? task.taskId = some task' → task'.events = [] →
      task'.status.terminal = false
  apart : ∀ call call' task task', s.Starting call task → s.Starting call' task' →
    task.lockKey = task'.lockKey → call = call'

theorem holds_of_starting {s : State} (h : s.Starting call task) :
    s.Holds task := by
  obtain ⟨machine, hframe⟩ := h
  exact .inl ⟨call, _, hframe, rfl⟩

theorem starting_of_startAnswer {s : State} {l : Label} {remote : RemoteStart}
    (h : s.startAnswer l = some (task, remote)) :
    ∃ call, s.Starting call task ∧ s.startEnds l call := by
  cases l with
  | startAnswered call remote' o =>
    simp only [State.startAnswer] at h
    split at h
    · case h_1 task' machine hframe =>
      cases h
      exact ⟨call, ⟨machine, hframe⟩, rfl, _, machine, hframe⟩
    · cases h
  | _ => cases h

theorem holds_of_statusAnswer {s : State} {l : Label} {remote : RemoteStatus}
    (h : s.statusAnswer l = some (task, remote)) : s.Holds task := by
  cases l with
  | statusAnswered call remote' o =>
    simp only [State.statusAnswer] at h
    split at h
    · case h_1 task' hframe =>
      cases h
      exact .inl ⟨call, _, hframe, rfl⟩
    · cases h
  | pollAnswered taskId remote' o timeUp o' =>
    simp only [State.statusAnswer] at h
    split at h
    · case h_1 task' hmirror =>
      cases h
      exact .inr ⟨taskId, hmirror⟩
    · cases h
  | _ => cases h

theorem get?_of_reuse {s : State} {l : Label} {active : Task} {presenter : Option String}
    (h : s.reuse l = some (active, presenter)) :
    (∃ k, s.store.tasks.get? k = some active) ∧ active.status.terminal = false := by
  cases l with
  | acquire call taskId now =>
    simp only [State.reuse] at h
    split at h
    · simp only [Option.map_eq_some_iff, Prod.mk.injEq] at h
      obtain ⟨task, hactive, rfl, -⟩ := h
      exact findActiveTask_spec (Option.filter_eq_some_iff.mp hactive).1
    · cases h
  | _ => cases h

theorem State.Creates.unique {s : State} {l : Label} {call' : ℕ} (h : s.Creates l call task)
    (h' : s.Creates l call' task') :
    call = call' ∧ task.taskId = task'.taskId := by
  obtain ⟨_, hl⟩ := h.label
  obtain ⟨_, hl'⟩ := h'.label
  rw [hl] at hl'
  injection hl' with hcall hid
  exact ⟨hcall, hid⟩

theorem State.Creates.startAnswer_eq_none {s : State} {l : Label} (h : s.Creates l call task) :
    s.startAnswer l = none := by
  obtain ⟨_, rfl⟩ := h.label
  rfl

namespace Sound

variable {s s' : State} {l : Label} {st : Store}

section Files

variable (hs : Sound s)
include hs

theorem call_eq {call' : ℕ} (h : s.Starting call task) (h' : s.Starting call' task')
    (hid : task.taskId = task'.taskId) : call = call' := by
  obtain ⟨t, ht, hident⟩ := hs.held task (holds_of_starting h)
  obtain ⟨t', ht', hident'⟩ := hs.held task' (holds_of_starting h')
  rw [hid, ht'] at ht
  obtain rfl := Option.some.inj ht
  refine hs.apart call call' task task' h h' (lockKey_eq_of_slot ?_)
  exact slot_eq_of_identity (hident.symm.trans hident')

theorem valid_fileStep (h : FileStep cfg s l st) : st.Valid := by
  induction h with
  | same => exact hs.store
  | append _ happend ih => exact ih.appendEvent happend
  | bind => exact hs.store.of_tasks_eq (tasks_bindStatus _ _ _)
  | block _ hblocked => exact hs.store.set (.of_events_eq_nil hblocked.1) rfl
  | relabel hreuse =>
    obtain ⟨⟨k, hk⟩, -⟩ := get?_of_reuse hreuse
    exact hs.store.bindTaskPresenter hk _
  | create hcreates => exact hs.store.set (.of_events_eq_nil hcreates.queued.1) rfl
  | accept hanswer =>
    obtain ⟨call, hstarting, -⟩ := starting_of_startAnswer hanswer
    exact hs.store.acceptStart (hs.early call _ hstarting).1 _ _ _
  | consume =>
    rcases tasks_consumeTaskResult cfg s.store _ _ _ with htasks | ⟨task, htask, htasks⟩
    · exact hs.store.of_tasks_eq htasks
    · have hvalid := hs.store.valid _ _ htask
      have hconsumed : task.consumed.Valid := ⟨hvalid.numbered, hvalid.concluded⟩
      exact hs.store.set hconsumed htasks

/-- Every task stays, as a later record of itself unless a `start_task` writes its copy. -/
theorem keeps_fileStep (h : FileStep cfg s l st) {k : String}
    (htask : s.store.tasks.get? k = some task) :
    ∃ task', st.tasks.get? k = some task' ∧ task'.identity = task.identity ∧
      (task.Follows task' ∨ ∃ copy remote, s.startAnswer l = some (copy, remote) ∧ copy.taskId = k) := by
  have hfollows : ∀ {st : Store}, s.store.Follows st →
      ∃ task', st.tasks.get? k = some task' ∧ task'.identity = task.identity ∧
        (task.Follows task' ∨
          ∃ copy remote, s.startAnswer l = some (copy, remote) ∧ copy.taskId = k) := by
    intro st hst
    obtain ⟨task', htask', hnext⟩ := hst k task htask
    exact ⟨task', htask', hnext.identity, .inl hnext⟩
  induction h with
  | same => exact hfollows (.refl _)
  | append h happend ih =>
    obtain ⟨task', htask', hident, hnext⟩ := ih
    obtain ⟨task'', htask'', hnext'⟩ := (hs.valid_fileStep h).follows_appendEvent happend k task' htask'
    exact ⟨task'', htask'', hnext'.identity.trans hident,
      hnext.imp_left fun hnext => Task.Follows.trans _ _ _ hnext hnext'⟩
  | bind => exact hfollows (.of_tasks_eq (tasks_bindStatus _ _ _))
  | block hfresh =>
    refine hfollows (.set rfl fun task₀ htask₀ => ?_)
    rw [hfresh] at htask₀
    cases htask₀
  | relabel hreuse =>
    obtain ⟨⟨k', hk'⟩, -⟩ := get?_of_reuse hreuse
    exact hfollows (hs.store.follows_bindTaskPresenter hk' _)
  | create hcreates =>
    refine hfollows (.set rfl fun task₀ htask₀ => ?_)
    rw [hcreates.fresh] at htask₀
    cases htask₀
  | accept hanswer =>
    case _ copy remote machine o =>
    obtain ⟨call, hstarting, -⟩ := starting_of_startAnswer hanswer
    obtain ⟨task', htasks, hident, -⟩ :=
      tasks_acceptStart cfg s.store (hs.early call _ hstarting).1 remote machine o
    rw [htasks, Dict.get?_set]
    split
    · case isTrue hk =>
      obtain ⟨task₀, htask₀, hident₀⟩ := hs.held copy (holds_of_starting hstarting)
      rw [← hk, htask] at htask₀
      obtain rfl := Option.some.inj htask₀
      exact ⟨task', rfl, hident.trans hident₀.symm, .inr ⟨copy, remote, hanswer, hk.symm⟩⟩
    · exact ⟨task, htask, rfl, .inl (.refl task)⟩
  | consume =>
    rcases tasks_consumeTaskResult cfg s.store _ _ _ with htasks | ⟨task₁, htask₁, htasks⟩
    · exact hfollows (.of_tasks_eq htasks)
    · have hconsumed : task₁.Follows task₁.consumed := ⟨rfl, fun h => ⟨h, rfl⟩, fun _ => rfl⟩
      exact hfollows (hs.store.follows_set htask₁ hconsumed htasks)

/-- A task that is new and not terminal is one that `start_task` has created. -/
theorem new_fileStep (h : FileStep cfg s l st) {k : String} (hnone : s.store.tasks.get? k = none)
    (htask : st.tasks.get? k = some task) (hopen : task.status.terminal = false) :
    ∃ call task', s.Creates l call task' ∧ task'.taskId = k ∧ task.identity = task'.identity := by
  -- Only the two kinds of steps that save a task under a new key are left over.
  have habsurd : ∀ {tasks : Dict String Task} {P : Prop}, tasks.get? k = none →
      tasks.get? k = some task → P := by
    intro tasks P hnone' hsome
    rw [hnone'] at hsome
    cases hsome
  induction h generalizing task with
  | same => exact habsurd hnone htask
  | @append st₀ _ _ _ _ h happend ih =>
    cases hst₀ : st₀.tasks.get? k with
    | none =>
      rcases tasks_appendEvent happend with htasks | ⟨task₁, htask₁, -, htasks⟩
      · exact habsurd (htasks ▸ hst₀) htask
      · have hkey := (hs.valid_fileStep h).keyed _ _ htask₁
        refine habsurd ?_ htask
        rw [htasks]
        exact Dict.get?_set_eq_none (hkey ▸ htask₁) _ hst₀
    | some task₀ =>
      obtain ⟨task', htask', hnext⟩ := (hs.valid_fileStep h).follows_appendEvent happend k task₀ hst₀
      obtain rfl := Option.some.inj (htask'.symm.trans htask)
      have hopen₀ : task₀.status.terminal = false := by
        by_contra hterminal
        rw [Bool.not_eq_false] at hterminal
        rw [hnext.final hterminal, hterminal] at hopen
        cases hopen
      obtain ⟨call, task'', hcreates, hid, hident⟩ :=
        ih hst₀ hopen₀ fun hnone' hsome => by rw [hnone'] at hsome; cases hsome
      exact ⟨call, task'', hcreates, hid, hnext.identity.trans hident⟩
  | bind =>
    refine habsurd ?_ htask
    rw [tasks_bindStatus, hnone]
  | block hfresh hblocked =>
    rw [tasks_saveTask, Dict.get?_set] at htask
    split at htask
    · obtain rfl := Option.some.inj htask
      rw [hblocked.2] at hopen
      cases hopen
    · exact habsurd hnone htask
  | @relabel active presenter hreuse =>
    obtain ⟨⟨k', hk'⟩, -⟩ := get?_of_reuse hreuse
    rcases tasks_bindTaskPresenter cfg s.store active presenter with htasks | ⟨label, htasks⟩
    · exact habsurd (htasks ▸ hnone) htask
    · have hkey := hs.store.keyed _ _ hk'
      refine habsurd ?_ htask
      rw [htasks]
      exact Dict.get?_set_eq_none (hkey ▸ hk') _ hnone
  | @create call task' thread hcreates =>
    rw [tasks_saveWorkerBinding, tasks_saveTask, Dict.get?_set] at htask
    split at htask
    · case isTrue hk =>
      obtain rfl := Option.some.inj htask
      exact ⟨call, task', hcreates, hk.symm, rfl⟩
    · exact habsurd hnone htask
  | @accept copy remote machine o hanswer =>
    obtain ⟨call, hstarting, -⟩ := starting_of_startAnswer hanswer
    obtain ⟨task', htasks, -⟩ :=
      tasks_acceptStart cfg s.store (hs.early call _ hstarting).1 remote machine o
    obtain ⟨task₀, htask₀, -⟩ := hs.held copy (holds_of_starting hstarting)
    refine habsurd ?_ htask
    rw [htasks]
    exact Dict.get?_set_eq_none htask₀ _ hnone
  | @consume taskId owner sessionId =>
    rcases tasks_consumeTaskResult cfg s.store taskId owner sessionId with
      htasks | ⟨task₁, htask₁, htasks⟩
    · exact habsurd (htasks ▸ hnone) htask
    · have hkey := hs.store.keyed _ _ htask₁
      refine habsurd ?_ htask
      rw [htasks]
      exact Dict.get?_set_eq_none (hkey ▸ htask₁) _ hnone

/-- A task that is not terminal after a step was not terminal before it, or a `start_task`
writes its copy, or it has been created. -/
theorem open_fileStep (h : FileStep cfg s l st) {k : String} (htask' : st.tasks.get? k = some task')
    (hopen : task'.status.terminal = false) :
    (∃ task, s.store.tasks.get? k = some task ∧ task.status.terminal = false ∧
        task'.identity = task.identity) ∨
      (∃ copy remote, s.startAnswer l = some (copy, remote) ∧ copy.taskId = k ∧
        task'.identity = copy.identity) ∨
      ∃ call task, s.Creates l call task ∧ task.taskId = k ∧ task'.identity = task.identity := by
  cases htask : s.store.tasks.get? k with
  | none => exact .inr (.inr (hs.new_fileStep h htask htask' hopen))
  | some task =>
    obtain ⟨task'', htask'', hident, hnext⟩ := hs.keeps_fileStep h htask
    obtain rfl := Option.some.inj (htask''.symm.trans htask')
    rcases hnext with hnext | ⟨copy, remote, hanswer, hid⟩
    · refine .inl ⟨task, rfl, ?_, hident⟩
      by_contra hterminal
      rw [Bool.not_eq_false] at hterminal
      rw [hnext.final hterminal, hterminal] at hopen
      cases hopen
    · refine .inr (.inl ⟨copy, remote, hanswer, hid, ?_⟩)
      obtain ⟨call, hstarting, -⟩ := starting_of_startAnswer hanswer
      obtain ⟨task₀, htask₀, hident₀⟩ := hs.held copy (holds_of_starting hstarting)
      rw [hid, htask] at htask₀
      obtain rfl := Option.some.inj htask₀
      exact hident.trans hident₀

/-- A call at the adapter that is still there after a step: no step writes its copy. -/
theorem follows_of_starting (hmoves : Moves cfg s l s') (hstarting : s.Starting call task)
    (hstill : s'.Starting call task') {t : Task} (ht : s.store.tasks.get? task.taskId = some t) :
    ∃ t', s'.store.tasks.get? task.taskId = some t' ∧ t.Follows t' := by
  obtain ⟨t', ht', -, hnext⟩ := hs.keeps_fileStep hmoves.file ht
  refine ⟨t', ht', ?_⟩
  rcases hnext with hnext | ⟨copy, remote, hanswer, hid⟩
  · exact hnext
  · obtain ⟨call₀, hstarting₀, hends⟩ := starting_of_startAnswer hanswer
    obtain rfl := hs.call_eq hstarting₀ hstarting hid
    exact absurd hstill (hmoves.ended _ hends task')

end Files

theorem preserved (hs : Sound s) (hmoves : Moves cfg s l s') : Sound s' where
  store := hs.valid_fileStep hmoves.file
  held task hheld := by
    have hvalid := hs.valid_fileStep hmoves.file
    rcases hmoves.copies task hheld with hheld | ⟨k, hk⟩
    · obtain ⟨t, ht, hident⟩ := hs.held task hheld
      obtain ⟨t', ht', hident', -⟩ := hs.keeps_fileStep hmoves.file ht
      exact ⟨t', ht', hident'.trans hident⟩
    · exact ⟨task, by rw [hvalid.keyed _ _ hk, hk], rfl⟩
  early call task hstarting := by
    rcases hmoves.starting call task hstarting with hold | ⟨hcreates, htask⟩
    · refine ⟨(hs.early call task hold).1, fun t' ht' hnil => ?_⟩
      obtain ⟨t, ht, -⟩ := hs.held task (holds_of_starting hold)
      obtain ⟨t'', ht'', hnext⟩ := hs.follows_of_starting hmoves hold hstarting ht
      obtain rfl := Option.some.inj (ht''.symm.trans ht')
      obtain ⟨hempty, hstatus⟩ := hnext.silent hnil
      rw [hstatus]
      exact (hs.early call task hold).2 t ht hempty
    · refine ⟨hcreates.queued.1, fun t' ht' _ => ?_⟩
      obtain rfl := Option.some.inj (htask.symm.trans ht')
      rw [hcreates.queued.2]
      rfl
  apart call call' task task' h h' hkey := by
    rcases hmoves.starting call task h with hold | ⟨hcreates, -⟩
    · rcases hmoves.starting call' task' h' with hold' | ⟨hcreates', -⟩
      · exact hs.apart call call' task task' hold hold' hkey
      · have hlocked := locked_of_starting hold
        rw [hkey, Task.lockKey, hcreates'.unlocked] at hlocked
        cases hlocked
    · rcases hmoves.starting call' task' h' with hold' | ⟨hcreates', -⟩
      · have hlocked := locked_of_starting hold'
        rw [← hkey, Task.lockKey, hcreates.unlocked] at hlocked
        cases hlocked
      · exact (State.Creates.unique hcreates hcreates').1

theorem initial : Sound State.initial where
  store := Store.valid_empty
  held task h := by
    rcases h with ⟨call, frame, hframe, -⟩ | ⟨taskId, hmirror⟩
    · cases hframe
    · cases hmirror
  early call task h := by
    obtain ⟨machine, hframe⟩ := h
    cases hframe
  apart call call' task task' h := by
    obtain ⟨machine, hframe⟩ := h
    cases hframe

end Sound

/-- The invariant holds in every state that is reached, whatever the condition of the run. -/
theorem sound_of_reachable {ok : State → Label → Prop} {s : State}
    (hs : (machine cfg).ReachableWhere ok s) : Sound s :=
  hs.invariant (fun _ h => h ▸ Sound.initial)
    fun _ _ _ hsound _ h => hsound.preserved (step_moves h)

end Pandamonium.Jarvis
