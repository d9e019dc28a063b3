import Pandamonium.Model.TaskScheduler

/-!
# One execution of a task

A task that is in `_executing` is not dispatched, and an execution that is not forced leaves it there
until it ends.  Stopping the task takes it out before the execution has ended, which then takes it
out once more, for an execution that came after it.
-/

set_option autoImplicit false

namespace Pandamonium.TaskExecutions

open Pandamonium.Library

variable {s s' : State} {label : Label}

/-- An execution of the task that is not forced is in progress. -/
def InProgress (s : State) (n : ℕ) (taskId : String) : Prop :=
  ∃ execution, s.executions.get? n = some execution ∧ execution.taskId = taskId ∧
    execution.forced = false

/-- At most one execution that is not forced is in progress for each task, and the task is marked
while one is. -/
structure Guarded (s : State) : Prop where
  single : ∀ n n' taskId, InProgress s n taskId → InProgress s n' taskId → n = n'
  marked : ∀ n taskId, InProgress s n taskId → taskId ∈ s.executing

/-- Whether an execution of the task that is not forced is in progress. -/
def isInProgress (s : State) (taskId : String) : Bool :=
  s.executions.values.any fun execution =>
    decide (execution.taskId = taskId) && !execution.forced

/-- The task is stopped only where no execution of it that is not forced is in progress. -/
def spares (s : State) : Label → Bool
  | .stopTask taskId => !isInProgress s taskId
  | _ => true

/-- The condition on a step is one on the runs. -/
def sparing (s : State) (label : Label) : Prop := spares s label = true

instance : DecidableRel sparing :=
  fun s label => inferInstanceAs (Decidable (spares s label = true))

/-- What the steps keep; the executions are numbered in their order. -/
structure Kept (s : State) : Prop where
  guarded : Guarded s
  numbered : ∀ n execution, s.executions.get? n = some execution → n < s.created

theorem isInProgress_of_inProgress {n : ℕ} {taskId : String} (h : InProgress s n taskId) :
    isInProgress s taskId = true := by
  obtain ⟨execution, hget, rfl, hforced⟩ := h
  refine List.any_eq_true.mpr ⟨execution, (s.executions.mem_values_iff execution).mpr ⟨n, hget⟩, ?_⟩
  rw [hforced, decide_eq_true rfl]
  rfl

/-- The executions that are in progress were so before, and what was marked still is. -/
theorem Guarded.of_subset (h : Guarded s)
    (hin : ∀ n taskId, InProgress s' n taskId → InProgress s n taskId)
    (hmarked : ∀ n taskId, InProgress s' n taskId → taskId ∈ s.executing → taskId ∈ s'.executing) :
    Guarded s' where
  single := fun n n' taskId hn hn' => h.single n n' taskId (hin n taskId hn) (hin n' taskId hn')
  marked := fun n taskId hn => hmarked n taskId hn (h.marked n taskId (hin n taskId hn))

theorem Kept.createTask (h : Kept s) (taskId : String) (forced : Bool)
    (hnew : forced = false → taskId ∈ s.executing ∧ ∀ n, ¬ InProgress s n taskId) :
    Kept (createTask taskId forced s) := by
  -- an execution that is in progress is the new one, or was before
  have hcases : ∀ n taskId', InProgress (TaskExecutions.createTask taskId forced s) n taskId' →
      (n = s.created ∧ taskId' = taskId ∧ forced = false) ∨ InProgress s n taskId' := by
    rintro n taskId' ⟨execution, hget, hid, hforced⟩
    rw [TaskExecutions.createTask, Dict.get?_set] at hget
    split at hget
    case isTrue hn =>
      obtain rfl := Option.some.inj hget
      exact .inl ⟨hn, hid.symm, hforced⟩
    case isFalse => exact .inr ⟨execution, hget, hid, hforced⟩
  refine ⟨⟨?_, ?_⟩, ?_⟩
  · intro n n' taskId' hn hn'
    obtain ⟨rfl, rfl, hforced⟩ | hbefore := hcases n taskId' hn
    · obtain ⟨rfl, -, -⟩ | hbefore' := hcases n' taskId' hn'
      · rfl
      · exact absurd hbefore' ((hnew hforced).2 n')
    · obtain ⟨rfl, rfl, hforced⟩ | hbefore' := hcases n' taskId' hn'
      · exact absurd hbefore ((hnew hforced).2 n)
      · exact h.guarded.single n n' taskId' hbefore hbefore'
  · intro n taskId' hn
    obtain ⟨-, rfl, hforced⟩ | hn := hcases n taskId' hn
    · exact (hnew hforced).1
    · exact h.guarded.marked n taskId' hn
  · intro n execution hget
    show n < s.created + 1
    rw [TaskExecutions.createTask, Dict.get?_set] at hget
    split at hget
    case isTrue hn => exact hn ▸ Nat.lt_succ_self _
    case isFalse => exact Nat.lt_succ_of_lt (h.numbered n execution hget)

theorem Kept.dispatch (h : Kept s) (taskId : String) : Kept (dispatch s taskId) := by
  rw [TaskExecutions.dispatch]
  split
  case isTrue => exact h
  case isFalse hnot =>
    have hmore : Kept { s with executing := taskId :: s.executing } :=
      ⟨h.guarded.of_subset (fun _ _ hn => hn) fun _ _ _ hmem => List.mem_cons_of_mem taskId hmem,
        h.numbered⟩
    exact hmore.createTask taskId false fun _ =>
      ⟨List.mem_cons_self, fun n hn => hnot (h.guarded.marked n taskId hn)⟩

theorem Kept.foldl_dispatch (h : Kept s) (due : List String) :
    Kept (due.foldl TaskExecutions.dispatch s) := by
  induction due generalizing s with
  | nil => exact h
  | cons taskId due ih => exact ih (h.dispatch taskId)

/-- A change of an execution that leaves whose it is and whether it is forced. -/
theorem inProgress_of_set {n n' : ℕ} {execution execution' : Execution} {taskId : String}
    (h : InProgress s' n' taskId) (hexecutions : s'.executions = s.executions.set n execution')
    (hget : s.executions.get? n = some execution) (hid : execution'.taskId = execution.taskId)
    (hforced : execution'.forced = execution.forced) : InProgress s n' taskId := by
  obtain ⟨e, he, htask, hnot⟩ := h
  rw [hexecutions, Dict.get?_set] at he
  split at he
  case isTrue hn =>
    obtain rfl := Option.some.inj he
    exact ⟨execution, hn ▸ hget, hid ▸ htask, hforced ▸ hnot⟩
  case isFalse => exact ⟨e, he, htask, hnot⟩

theorem Kept.setExecution (h : Kept s) {n : ℕ} {execution execution' : Execution}
    (hexecutions : s'.executions = s.executions.set n execution')
    (hget : s.executions.get? n = some execution) (hid : execution'.taskId = execution.taskId)
    (hforced : execution'.forced = execution.forced) (hexecuting : s'.executing = s.executing)
    (hcreated : s'.created = s.created) : Kept s' := by
  refine ⟨h.guarded.of_subset (fun _ _ hn => inProgress_of_set hn hexecutions hget hid hforced)
    fun _ _ _ hmem => hexecuting ▸ hmem, ?_⟩
  intro n' e he
  rw [hcreated]
  rw [hexecutions, Dict.get?_set] at he
  split at he
  case isTrue hn => exact hn ▸ h.numbered n execution hget
  case isFalse => exact h.numbered n' e he

theorem Kept.cancelHandle (h : Kept s) (taskId : String) : Kept (cancelHandle s taskId) := by
  rw [TaskExecutions.cancelHandle]
  split
  case h_1 => exact h
  case h_2 n _ =>
    split
    case h_1 => exact h
    case h_2 execution hget => exact h.setExecution rfl hget rfl rfl rfl rfl

theorem Kept.foldl_cancelHandle (h : Kept s) (taskIds : List String) :
    Kept (taskIds.foldl TaskExecutions.cancelHandle s) := by
  induction taskIds generalizing s with
  | nil => exact h
  | cons taskId taskIds ih => exact ih (h.cancelHandle taskId)

theorem Kept.finish (h : Kept s) {n : ℕ} {execution : Execution}
    (hget : s.executions.get? n = some execution) : Kept (finish n execution s) := by
  have hin : ∀ n' taskId, InProgress (TaskExecutions.finish n execution s) n' taskId →
      n' ≠ n ∧ InProgress s n' taskId := by
    rintro n' taskId ⟨e, he, htask, hnot⟩
    rw [TaskExecutions.finish, Dict.get?_erase] at he
    split at he
    · cases he
    case isFalse hn => exact ⟨hn, e, he, htask, hnot⟩
  refine ⟨h.guarded.of_subset (fun n' taskId hn' => (hin n' taskId hn').2) ?_, ?_⟩
  · intro n' taskId hn' hmem
    obtain ⟨hne, hn'⟩ := hin n' taskId hn'
    show taskId ∈ if execution.forced then s.executing
      else s.executing.filter fun taskId => decide (taskId ≠ execution.taskId)
    split
    case isTrue => exact hmem
    case isFalse hforced =>
      -- another execution of the task is not in progress
      refine List.mem_filter.mpr ⟨hmem, decide_eq_true fun htask => hne ?_⟩
      exact h.guarded.single n' n taskId hn'
        ⟨execution, hget, htask.symm, Bool.not_eq_true _ ▸ hforced⟩
  · intro n' e he
    rw [TaskExecutions.finish, Dict.get?_erase] at he
    split at he
    · cases he
    · exact h.numbered n' e he

theorem inProgress_of_cancelHandle {n : ℕ} {taskId taskId' : String}
    (h : InProgress (cancelHandle s taskId) n taskId') : InProgress s n taskId' := by
  rw [cancelHandle] at h
  split at h
  case h_1 => exact h
  case h_2 =>
    split at h
    case h_1 => exact h
    case h_2 execution hget => exact inProgress_of_set h rfl hget rfl rfl

theorem Kept.stopTask (h : Kept s) {taskId : String} (hspares : isInProgress s taskId = false) :
    Kept (stopTask taskId s) := by
  have hcancelled := h.cancelHandle taskId
  refine ⟨hcancelled.guarded.of_subset (fun _ _ hn => hn) fun n taskId' hn hmem => ?_,
    hcancelled.numbered⟩
  refine List.mem_filter.mpr ⟨hmem, decide_eq_true ?_⟩
  rintro rfl
  have hin : InProgress s n taskId' := inProgress_of_cancelHandle hn
  exact absurd ((isInProgress_of_inProgress hin).symm.trans hspares) Bool.noConfusion

theorem Kept.step (h : Kept s) (hspares : spares s label = true) (hstep : step s label = some s') :
    Kept s' := by
  cases label with
  | checkDueTasks due foregroundActive =>
    obtain rfl := Option.some.inj hstep
    rw [checkDueTasks]
    split
    · exact h
    · exact h.foldl_dispatch due
  | runTaskNow taskId force =>
    obtain rfl := Option.some.inj hstep
    rw [runTaskNow]
    split
    · exact h.createTask taskId true Bool.noConfusion
    · exact h.dispatch taskId
  | stopTask taskId =>
    obtain rfl := Option.some.inj hstep
    rw [spares, Bool.not_eq_true'] at hspares
    exact h.stopTask hspares
  | stopBackgroundTasks =>
    obtain rfl := Option.some.inj hstep
    exact h.foldl_cancelHandle s.executing
  | starts n =>
    rw [TaskExecutions.step] at hstep
    split at hstep
    case h_1 execution hget =>
      obtain ⟨-, hs'⟩ := Option.ite_none_left_eq_some.mp hstep
      obtain rfl := Option.some.inj hs'
      exact h.setExecution rfl hget rfl rfl rfl rfl
    case h_2 => cases hstep
  | ends n =>
    rw [TaskExecutions.step] at hstep
    split at hstep
    case h_1 execution hget =>
      obtain ⟨-, hs'⟩ := Option.ite_none_right_eq_some.mp hstep
      obtain rfl := Option.some.inj hs'
      exact h.finish hget
    case h_2 => cases hstep

theorem kept_idle : Kept .idle :=
  ⟨⟨fun _ _ _ h => absurd h.choose_spec.1.symm (Option.some_ne_none _),
    fun _ _ h => absurd h.choose_spec.1.symm (Option.some_ne_none _)⟩,
    fun _ _ h => absurd h.symm (Option.some_ne_none _)⟩

/-- In every run in which a task is stopped only where no execution of it that is not forced is in
progress, at most one such execution of each task is in progress, and the task is marked while one
is. -/
theorem guarded_of_spares (hs : scheduler.ReachableWhere sparing s) : Guarded s := by
  refine Kept.guarded (hs.invariant ?_ fun _ _ _ h hspares hstep => h.step hspares hstep)
  rintro s₀ rfl
  exact kept_idle

/-! ## Two runs -/

/-- What is in progress, and what is marked. -/
def seen (s : State) : List (ℕ × Execution) × List String := (s.executions.items, s.executing)

/-- A task that runs is not dispatched again, and is once it has ended; a forced execution runs
beside it. -/
theorem guarded_dispatched : ∃ s, scheduler.ReachableWhere sparing s ∧
    seen s = ([(1, ⟨"a", true, false, false⟩), (2, ⟨"a", false, false, false⟩)], ["a"]) ∧
    Guarded s := by
  obtain ⟨s, hs, hseen⟩ := TransitionSystem.exists_reachableWhere_of_exec scheduler sparing seen
    [.runTaskNow "a" false, .starts 0, .checkDueTasks ["a"] false, .runTaskNow "a" true, .ends 0,
      .checkDueTasks ["a"] false]
    (v := ([(1, ⟨"a", true, false, false⟩), (2, ⟨"a", false, false, false⟩)], ["a"])) rfl
    (by decide +kernel)
  exact ⟨s, hs, hseen, guarded_of_spares hs⟩

/-- A task is stopped and run again, and the first execution ends after that. -/
theorem not_guarded_stopped : ∃ s, scheduler.Reachable s ∧ ¬ Guarded s := by
  obtain ⟨s, hs, hseen⟩ := TransitionSystem.exists_reachableWhere_of_exec scheduler
    TransitionSystem.anyStep (fun s => (s.executions.get? 1, s.executions.get? 2))
    [.runTaskNow "a" false, .starts 0, .stopTask "a", .runTaskNow "a" false, .ends 0,
      .checkDueTasks ["a"] false]
    (v := (some ⟨"a", false, false, false⟩, some ⟨"a", false, false, false⟩)) rfl
    (by decide +kernel)
  obtain ⟨hfirst, hsecond⟩ := Prod.mk.inj hseen
  refine ⟨s, hs, fun h => ?_⟩
  have hsame := h.single 1 2 "a" ⟨_, hfirst, rfl, rfl⟩ ⟨_, hsecond, rfl, rfl⟩
  cases hsame

end Pandamonium.TaskExecutions
