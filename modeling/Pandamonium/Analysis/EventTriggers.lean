import Pandamonium.Model.TaskScheduler

/-!
# Executions of an event-triggered task

The trigger of a task lives in `next_run` until an execution ends and clears it.  So a crossing is
served as long as no execution clears `next_run` after a crossing that it started before, and an
execution is not repeated as long as none leaves `next_run` set without one.
-/

set_option autoImplicit false

namespace Pandamonium.TaskScheduler

open Pandamonium.Library

/-- An execution has started. -/
def Happening.starts : Happening → Bool
  | .started _ => true
  | _ => false

/-- What an execution is to be started for. -/
def Happening.triggers : Happening → Bool
  | .crossed => true
  | .putOff => true
  | _ => false

/-- The threshold has been reached, and no execution has started since then. -/
def owed (history : List Happening) : Bool :=
  (history.takeWhile fun x => !x.starts).contains .crossed

/-- What has happened since the last crossing, or since an execution was put off. -/
def sinceTrigger (history : List Happening) : List Happening :=
  history.takeWhile fun x => !x.triggers

/-- It is an execution that started, and has ended. -/
def Happening.endedIn (history : List Happening) : Happening → Bool
  | .started runId => history.contains (.ended runId)
  | _ => false

/-- An execution has ended that no crossing has come after the start of. -/
def served (history : List Happening) : Bool :=
  (sinceTrigger history).any fun x => x.endedIn (sinceTrigger history)

/-- What is owed will be done: the task is due at some time, it is executing only while an execution
of it is there, and otherwise a tick at that time or later dispatches an execution that starts. -/
def Promised (s : State) : Prop :=
  ∃ t, s.task.nextRun = some t ∧
    (s.executing = true → ∃ runId execution, s.executions.get? runId = some execution ∧
      execution.forced = false) ∧
    (s.executing = false → ∀ now, t ≤ now →
      (scheduler.exec TransitionSystem.anyStep s
        [.tick now false, .admits s.created true, .starts s.created]).map
          (fun s' => owed s'.history) = some false)

/-- Every crossing is followed by the start of an execution, or will be, and no tick dispatches the
task after an execution has ended that no crossing has come after the start of. -/
structure Triggered (s : State) : Prop where
  started : owed s.history = true → Promised s
  once : ∀ before after, s.history = after ++ .dispatched :: before → served before = false

/-- The outcome sets `next_run` to nothing. -/
def Outcome.clears : Outcome → Bool
  | .succeeds => true
  | .fails => true
  | .noop => true
  | .cancelled => true
  | _ => false

/-- The owner may run the action; no execution clears `next_run` while a crossing is owed, and none
ends and leaves the task due where no crossing has come since it started. -/
def spares (s : State) : Label → Bool
  | .admits _ allowed => allowed
  | .ends runId outcome _ =>
    match s.executions.get? runId with
    | some ⟨forced, .running loaded⟩ =>
      if outcome.clears && loaded.isSome then !owed s.history
      else if outcome.clears || outcome = .raises then
        s.task.nextRun.isNone || (forced && s.executing) || !served (.ended runId :: s.history)
      else true
    | _ => true
  | _ => true

/-! ## Histories -/

variable {h : List Happening} {runId : ℕ}

variable {x : Happening}

theorem owed_cons_of_not_starts (hstarts : x.starts = false) (hcrossed : x ≠ .crossed) :
    owed (x :: h) = owed h := by
  have hne : ((.crossed : Happening) == x) = false := by
    rw [beq_eq_false_iff_ne]
    exact hcrossed.symm
  rw [owed, List.takeWhile_cons_of_pos (by rw [hstarts]; rfl), List.contains_cons, hne,
    Bool.false_or, owed]

theorem owed_started : owed (.started runId :: h) = false := rfl

theorem served_of_triggers (hx : x.triggers = true) : served (x :: h) = false := by
  have hnone : sinceTrigger (x :: h) = [] :=
    List.takeWhile_cons_of_neg (by rw [hx]; exact Bool.false_ne_true)
  rw [served, hnone]
  rfl

theorem endedIn_cons (hended : ∀ runId, x ≠ .ended runId) (y : Happening) :
    y.endedIn (x :: h) = y.endedIn h := by
  cases y with
  | started runId =>
    have hne : ((.ended runId : Happening) == x) = false := by
      rw [beq_eq_false_iff_ne]
      exact (hended runId).symm
    show (x :: h).contains (.ended runId) = h.contains (.ended runId)
    rw [List.contains_cons, hne, Bool.false_or]
  | crossed => rfl
  | dispatched => rfl
  | ended runId => rfl
  | putOff => rfl

theorem served_cons (htriggers : x.triggers = false) (hended : ∀ runId, x ≠ .ended runId)
    (hnot : x.endedIn (sinceTrigger h) = false) :
    served (x :: h) = served h := by
  have hsince : sinceTrigger (x :: h) = x :: sinceTrigger h :=
    List.takeWhile_cons_of_pos (by rw [htriggers]; rfl)
  rw [served, hsince, List.any_cons, endedIn_cons hended, hnot, Bool.false_or, served]
  simp only [endedIn_cons hended]

theorem served_dispatched : served (.dispatched :: h) = served h :=
  served_cons rfl (fun _ => Happening.noConfusion) rfl

theorem served_started (hid : .ended runId ∉ h) : served (.started runId :: h) = served h := by
  refine served_cons rfl (fun _ => Happening.noConfusion) ?_
  refine Bool.eq_false_iff.mpr fun hcontains => hid ?_
  exact (List.takeWhile_sublist _).subset (List.contains_iff_mem.mp hcontains)

/-- A dispatch is in a history that is longer by something else just where it was. -/
theorem once_cons (hx : x ≠ .dispatched ∨ served h = false)
    (honce : ∀ before after, h = after ++ .dispatched :: before → served before = false) :
    ∀ before after, x :: h = after ++ .dispatched :: before → served before = false := by
  intro before after heq
  cases after with
  | nil =>
    obtain ⟨rfl, rfl⟩ := List.cons.inj heq
    exact hx.resolve_left fun hne => hne rfl
  | cons y after =>
    obtain ⟨-, hrest⟩ := List.cons.inj heq
    exact honce before after hrest

/-! ## Steps -/

/-- What is owed is due, what is due and not executing may be executed again, and an execution that
is there has not ended. -/
structure Kept (s : State) : Prop where
  active : s.task.status = .active
  held : s.executing = true → ∃ runId execution, s.executions.get? runId = some execution ∧
    execution.forced = false
  known : ∀ runId execution, s.executions.get? runId = some execution →
    runId < s.created ∧ .ended runId ∉ s.history
  past : ∀ runId, .ended runId ∈ s.history → runId < s.created
  owed : owed s.history = true → s.task.nextRun.isSome = true
  due : s.task.nextRun.isSome = true → s.executing = true ∨ served s.history = false
  once : ∀ before after, s.history = after ++ .dispatched :: before → served before = false

variable {s s' : State} {execution : Execution}

/-- Something happens that is not the end of an execution. -/
theorem Kept.known_cons (hs : Kept s) (hx : ∀ runId, .ended runId ≠ x) :
    ∀ runId execution, s.executions.get? runId = some execution →
      runId < s.created ∧ .ended runId ∉ x :: s.history := by
  intro runId execution hid
  obtain ⟨hlt, hended⟩ := hs.known runId execution hid
  exact ⟨hlt, List.not_mem_cons_of_ne_of_not_mem (hx runId) hended⟩

theorem Kept.past_cons (hs : Kept s) (hx : ∀ runId, .ended runId ≠ x) :
    ∀ runId, .ended runId ∈ x :: s.history → runId < s.created :=
  fun runId hended => hs.past runId ((List.mem_cons.mp hended).resolve_left (hx runId))

/-- An execution is created, and holds the task unless it was forced. -/
theorem Kept.launch (hs : Kept s) (forced : Bool) :
    Kept ({ s with executing := !forced || s.executing }.launch forced) where
  active := hs.active
  held := by
    intro hexecuting
    cases forced with
    | false => exact ⟨s.created, _, Dict.get?_set_self _ _ _, rfl⟩
    | true =>
      obtain ⟨runId, execution, hid, hforced⟩ := hs.held hexecuting
      have hne : runId ≠ s.created := Nat.ne_of_lt (hs.known runId execution hid).1
      refine ⟨runId, execution, ?_, hforced⟩
      show (s.executions.set s.created _).get? runId = _
      rw [Dict.get?_set, if_neg hne, hid]
  known := by
    intro runId execution hid
    simp only [State.launch, Dict.get?_set] at hid ⊢
    split at hid
    case isTrue heq =>
      subst heq
      exact ⟨Nat.lt_succ_self _, fun hended => Nat.lt_irrefl _ (hs.past _ hended)⟩
    case isFalse =>
      obtain ⟨hlt, hended⟩ := hs.known runId execution hid
      exact ⟨Nat.lt_succ_of_lt hlt, hended⟩
  past := fun runId hended => Nat.lt_succ_of_lt (hs.past runId hended)
  owed := hs.owed
  due := by
    intro hnext
    show (!forced || s.executing) = true ∨ _
    exact (hs.due hnext).imp (fun h => by rw [h, Bool.or_true]) id
  once := hs.once

theorem Kept.runTaskNow (hs : Kept s) (force : Bool) : Kept (runTaskNow force s) := by
  unfold TaskScheduler.runTaskNow
  cases force with
  | true => exact hs.launch true
  | false =>
    rw [if_neg Bool.false_ne_true]
    split
    · exact hs
    · exact hs.launch false

theorem Kept.handleEvent (hs : Kept s) (now : ℕ) (wired : Bool) :
    Kept (handleEvent now wired s) := by
  rw [TaskScheduler.handleEvent, if_pos hs.active]
  split
  · have hcrossed : Kept { s with
        task := { s.task with triggerCounter := 0, nextRun := some now }
        history := .crossed :: s.history } := {
      active := hs.active
      held := hs.held
      known := hs.known_cons fun _ => Happening.noConfusion
      past := hs.past_cons fun _ => Happening.noConfusion
      owed := fun _ => rfl
      due := fun _ => .inr (served_of_triggers rfl)
      once := once_cons (.inl Happening.noConfusion) hs.once }
    split
    · exact hcrossed.runTaskNow false
    · exact hcrossed
  · exact ⟨hs.active, hs.held, hs.known, hs.past, hs.owed, hs.due, hs.once⟩

theorem nextRun_of_due {task : Task} {now : ℕ} (hdue : task.due now = true) :
    task.nextRun.isSome = true := by
  have hany := (Bool.and_eq_true_iff.mp hdue).2
  cases hnext : task.nextRun with
  | none =>
    rw [hnext] at hany
    cases hany
  | some t => rfl

theorem Kept.checkDueTasks (hs : Kept s) (now : ℕ) (foreground : Bool) :
    Kept (checkDueTasks now foreground s) := by
  unfold TaskScheduler.checkDueTasks
  split
  case isFalse => exact hs
  case isTrue hdue =>
    have hserved : served s.history = false :=
      (hs.due (nextRun_of_due hdue.1)).resolve_left fun h => by rw [hdue.2] at h; cases h
    split
    · exact ⟨hs.active, hs.held, hs.known, hs.past, fun _ => rfl, fun _ => .inr hserved, hs.once⟩
    · have hdispatched : Kept { s with history := .dispatched :: s.history } := {
        active := hs.active
        held := hs.held
        known := hs.known_cons fun _ => Happening.noConfusion
        past := hs.past_cons fun _ => Happening.noConfusion
        owed := by
          rw [owed_cons_of_not_starts rfl Happening.noConfusion]
          exact hs.owed
        due := fun _ => .inr (served_dispatched.trans hserved)
        once := once_cons (.inr hserved) hs.once }
      exact hdispatched.launch false

section Executing

variable (hs : Kept s) (hid : s.executions.get? runId = some execution)
include hs hid

/-- An execution that is there goes on to another stage. -/
theorem Kept.advance (stage : Stage) :
    Kept { s with executions := s.executions.set runId { execution with stage } } where
  active := hs.active
  held := by
    intro hexecuting
    obtain ⟨runId', execution', hid', hforced⟩ := hs.held hexecuting
    by_cases heq : runId' = runId
    · subst heq
      obtain rfl := Option.some.inj (hid.symm.trans hid')
      exact ⟨runId', _, Dict.get?_set_self _ _ _, hforced⟩
    · exact ⟨runId', execution', by rw [Dict.get?_set, if_neg heq, hid'], hforced⟩
  known := by
    intro runId' execution' hid'
    rw [Dict.get?_set] at hid'
    split at hid'
    case isTrue heq =>
      subst heq
      exact hs.known _ _ hid
    case isFalse => exact hs.known runId' execution' hid'
  past := hs.past
  owed := hs.owed
  due := hs.due
  once := hs.once

theorem Kept.start :
    Kept (s.start runId execution) := by
  have hrunning := hs.advance hid (.running s.task.nextRun)
  have hended := (hs.known runId execution hid).2
  exact {
    active := hs.active
    held := hrunning.held
    known := fun runId' execution' hid' => by
      obtain ⟨hlt, hnot⟩ := hrunning.known runId' execution' hid'
      exact ⟨hlt, List.not_mem_cons_of_ne_of_not_mem Happening.noConfusion hnot⟩
    past := hs.past_cons fun _ => Happening.noConfusion
    owed := fun h => absurd (owed_started.symm.trans h) Bool.false_ne_true
    due := fun hnext => (hs.due hnext).imp id (served_started hended).trans
    once := once_cons (.inl Happening.noConfusion) hs.once }

/-- An execution is over, by its end or put off. -/
theorem Kept.leave (hx : x = .putOff ∨ x = .ended runId) {task : Task} {deferCount : ℕ}
    (hactive : task.status = .active)
    (howed : TaskScheduler.owed s.history = true → task.nextRun.isSome = true)
    (hdue : task.nextRun.isSome = true →
      (execution.forced && s.executing) = true ∨ served (x :: s.history) = false) :
    Kept { { s with history := x :: s.history }.leave runId execution with task, deferCount } where
  active := hactive
  held := by
    intro hexecuting
    obtain ⟨hforced, hheld⟩ := Bool.and_eq_true_iff.mp hexecuting
    obtain ⟨runId', execution', hid', hforced'⟩ := hs.held hheld
    have hne : runId' ≠ runId := by
      rintro rfl
      obtain rfl := Option.some.inj (hid.symm.trans hid')
      rw [hforced] at hforced'
      cases hforced'
    exact ⟨runId', execution', by rw [State.leave, Dict.get?_erase, if_neg hne, hid'], hforced'⟩
  known := by
    intro runId' execution' hid'
    rw [State.leave, Dict.get?_erase] at hid'
    split at hid'
    case isTrue => cases hid'
    case isFalse hne =>
      obtain ⟨hlt, hended⟩ := hs.known runId' execution' hid'
      refine ⟨hlt, List.not_mem_cons_of_ne_of_not_mem ?_ hended⟩
      rcases hx with rfl | rfl
      · exact Happening.noConfusion
      · exact fun heq => hne (Happening.ended.inj heq)
  past := by
    intro runId' hended
    rcases List.mem_cons.mp hended with heq | hended
    · rcases hx with rfl | rfl
      · cases heq
      · obtain rfl := Happening.ended.inj heq
        exact (hs.known _ execution hid).1
    · exact hs.past runId' hended
  owed := by
    intro h
    refine howed ?_
    rcases hx with rfl | rfl
    · rwa [← owed_cons_of_not_starts (x := .putOff) rfl Happening.noConfusion]
    · rwa [← owed_cons_of_not_starts (x := .ended runId) rfl Happening.noConfusion]
  due := hdue
  once := by
    refine once_cons (.inl ?_) hs.once
    rcases hx with rfl | rfl
    · exact Happening.noConfusion
    · exact Happening.noConfusion

theorem Kept.admitRun :
    Kept (admitRun runId execution true s) := by
  rw [TaskScheduler.admitRun, if_pos hs.active, if_pos rfl]
  split
  · exact hs.start hid
  · exact hs.advance hid .waiting

/-- An outcome that clears `next_run`, or leaves it as it is. -/
theorem Kept.ended (nextRun : Option ℕ) {deferCount : ℕ}
    (hnext : nextRun = none ∧ TaskScheduler.owed s.history = false ∨
      nextRun = s.task.nextRun ∧ (s.task.nextRun = none ∨
        (execution.forced && s.executing) = true ∨
        served (.ended runId :: s.history) = false)) :
    Kept { { s with history := .ended runId :: s.history }.leave runId execution with
      task := { s.task with nextRun }, deferCount } := by
  refine hs.leave hid (.inr rfl) hs.active ?_ ?_
  · intro howed
    rcases hnext with ⟨-, hnot⟩ | ⟨rfl, -⟩
    · rw [hnot] at howed
      cases howed
    · exact hs.owed howed
  · intro hsome
    rcases hnext with ⟨rfl, -⟩ | ⟨rfl, hnone | hagain⟩
    · cases hsome
    · have hsome' : s.task.nextRun.isSome = true := hsome
      rw [hnone] at hsome'
      cases hsome'
    · exact hagain

/-- An execution is put off, with the task due. -/
theorem Kept.putOff (nextRun : Option ℕ) {deferCount : ℕ}
    (hnext : s.task.nextRun.isSome = true → nextRun.isSome = true) :
    Kept { { s with history := .putOff :: s.history }.leave runId execution with
      task := { s.task with nextRun }, deferCount } :=
  hs.leave hid (.inl rfl) hs.active (fun howed => hnext (hs.owed howed))
    (fun _ => .inr (served_of_triggers rfl))

theorem Kept.drop (cancelled : Bool) (now : ℕ) : Kept (drop runId execution cancelled now s) := by
  unfold TaskScheduler.drop
  split
  · exact hs.putOff hid (some (now + 15 * 60)) fun _ => rfl
  · exact hs.putOff hid s.task.nextRun id

end Executing

/-- What `spares` says of the end of an execution. -/
theorem next_of_spares {forced : Bool} {loaded : Option ℕ} {outcome : Outcome} {now : ℕ}
    (hid : s.executions.get? runId = some ⟨forced, .running loaded⟩)
    (hspares : spares s (.ends runId outcome now) = true) (hclears : outcome.clears = true) :
    (if loaded = none then s.task.nextRun else none) = none ∧ owed s.history = false ∨
      (if loaded = none then s.task.nextRun else none) = s.task.nextRun ∧
        (s.task.nextRun = none ∨ (forced && s.executing) = true ∨
          served (.ended runId :: s.history) = false) := by
  simp only [spares, hid, hclears, Bool.true_and, Bool.true_or, if_true] at hspares
  cases loaded with
  | some t => exact .inl ⟨rfl, by simpa using hspares⟩
  | none => exact .inr ⟨rfl, by simpa [or_assoc] using hspares⟩

theorem Kept.finish (hs : Kept s) {forced : Bool} {loaded : Option ℕ}
    (hid : s.executions.get? runId = some ⟨forced, .running loaded⟩) {outcome : Outcome} {now : ℕ}
    (hspares : spares s (.ends runId outcome now) = true) :
    Kept (finish runId ⟨forced, .running loaded⟩ loaded outcome now s) := by
  cases outcome with
  | succeeds => exact hs.ended hid _ (next_of_spares hid hspares rfl)
  | fails => exact hs.ended hid _ (next_of_spares hid hspares rfl)
  | noop => exact hs.ended hid _ (next_of_spares hid hspares rfl)
  | cancelled => exact hs.ended hid _ (next_of_spares hid hspares rfl)
  | raises =>
    refine hs.ended hid s.task.nextRun (.inr ⟨rfl, ?_⟩)
    simpa [spares, hid, Outcome.clears, or_assoc] using hspares
  | interrupted => exact hs.putOff hid _ fun _ => rfl
  | deferred delaySeconds => exact hs.putOff hid _ fun _ => rfl

theorem Kept.step (hs : Kept s) {l : Label} (hspares : spares s l = true)
    (h : step s l = some s') : Kept s' := by
  cases l with
  | event now wired => exact Option.some.inj h ▸ hs.handleEvent now wired
  | tick now foreground => exact Option.some.inj h ▸ hs.checkDueTasks now foreground
  | runNow force => exact Option.some.inj h ▸ hs.runTaskNow force
  | admits runId allowed =>
    obtain rfl : allowed = true := hspares
    simp only [TaskScheduler.step] at h
    split at h
    case h_1 hid => exact Option.some.inj h ▸ hs.admitRun hid
    case h_2 => cases h
  | starts runId =>
    simp only [TaskScheduler.step] at h
    split at h
    case h_1 hid => exact Option.some.inj h ▸ hs.start hid
    case h_2 => cases h
  | rereads runId =>
    simp only [TaskScheduler.step] at h
    split at h
    case h_1 hid => exact Option.some.inj h ▸ hs.advance hid _
    case h_2 => cases h
  | ends runId outcome now =>
    simp only [TaskScheduler.step] at h
    split at h
    case h_1 hid =>
      obtain ⟨-, h⟩ := Option.ite_none_left_eq_some.mp h
      exact Option.some.inj h ▸ hs.finish hid hspares
    case h_2 => cases h
  | drops runId cancelled now =>
    simp only [TaskScheduler.step] at h
    split at h
    case h_1 => cases h
    case h_2 execution _ hid => exact Option.some.inj h ▸ hs.drop hid cancelled now
    case h_3 => cases h

/-! ## Runs -/

theorem kept_init (h : scheduler.init s) : Kept s := by
  obtain ⟨triggerCount, triggerCounter, rfl⟩ := h
  exact {
    active := rfl
    held := nofun
    known := fun _ _ h => absurd h.symm (Option.some_ne_none _)
    past := nofun
    owed := nofun
    due := nofun
    once := fun before after h => absurd h.symm (List.append_ne_nil_of_right_ne_nil _ nofun) }

theorem kept_of_spares (hw : scheduler.ReachableWhere (fun s l => spares s l = true) s) : Kept s :=
  hw.invariant (I := Kept) (fun _ => kept_init) fun _ _ _ hs hspares h => hs.step hspares h

/-- A tick at the time the task is due, or later, dispatches an execution that starts. -/
theorem starts_of_due (hs : Kept s) {t now : ℕ} (hnext : s.task.nextRun = some t) (hle : t ≤ now)
    (hidle : s.executing = false) :
    (scheduler.exec TransitionSystem.anyStep s
      [.tick now false, .admits s.created true, .starts s.created]).map
        (fun s' => TaskScheduler.owed s'.history) = some false := by
  have hdue : s.task.due now = true := by
    simp [Task.due, hs.active, hnext, hle]
  simp [TransitionSystem.exec, TransitionSystem.anyStep, scheduler, TaskScheduler.step,
    TaskScheduler.checkDueTasks, hdue, hidle, State.launch, TaskScheduler.admitRun, hs.active,
    State.start, owed_started]

/-- In every run where no execution clears `next_run` while a crossing is owed, and none leaves it
set without a crossing since its start, each crossing is served, and no execution is repeated. -/
theorem triggered_of_spares (hw : scheduler.ReachableWhere (fun s l => spares s l = true) s) :
    Triggered s := by
  have hs := kept_of_spares hw
  refine ⟨fun howed => ?_, hs.once⟩
  obtain ⟨t, hnext⟩ := Option.isSome_iff_exists.mp (hs.owed howed)
  exact ⟨t, hnext, hs.held, fun hidle now hle => starts_of_due hs hnext hle hidle⟩

/-! ## Three runs -/

theorem init_idle : scheduler.init (idle (some 1) 0) := ⟨some 1, 0, rfl⟩

/-- The execution with this number is admitted and starts. -/
def begun (runId : ℕ) : List Label := [.admits runId true, .starts runId]

/-- What has happened, the last first, and when the task is due. -/
def shown (s : State) : List Happening × Option ℕ × Bool :=
  (s.history, s.task.nextRun, s.executing)

/-- A task is executed, is cancelled in the queue the next time, and is executed later by a tick. -/
theorem triggered_deferred : ∃ s, scheduler.ReachableWhere (fun s l => spares s l = true) s ∧
    shown s =
      ([.ended 2, .started 2, .dispatched, .putOff, .crossed, .ended 0, .started 0, .crossed],
        none, false) ∧
    Triggered s := by
  obtain ⟨s, hs, hshown⟩ := scheduler.exists_reachableWhere_of_exec (fun s l => spares s l = true)
    shown ([Label.event 10 true] ++ begun 0 ++ [Label.ends 0 .succeeds 20, .event 30 true, .drops 1 true 40,
      .tick 1000 false] ++ begun 2 ++ [Label.ends 2 .noop 1010])
    (v := ([.ended 2, .started 2, .dispatched, .putOff, .crossed, .ended 0, .started 0, .crossed],
      none, false)) init_idle (by decide +kernel)
  exact ⟨s, hs, hshown, triggered_of_spares hs⟩

/-- The threshold is reached while an execution runs, whose end clears `next_run`. -/
theorem not_triggered_overlapping : ∃ s, scheduler.Reachable s ∧ ¬ Triggered s := by
  obtain ⟨s, hs, hshown⟩ := scheduler.exists_reachableWhere_of_exec TransitionSystem.anyStep
    shown ([Label.event 10 true] ++ begun 0 ++ [Label.event 20 true, .ends 0 .succeeds 30])
    (v := ([.ended 0, .crossed, .started 0, .crossed], none, false)) init_idle (by decide +kernel)
  obtain ⟨hhistory, hrest⟩ := Prod.mk.inj hshown
  have howed : owed s.history = true := by rw [hhistory]; rfl
  refine ⟨s, hs, fun h => ?_⟩
  obtain ⟨t, hnext, -⟩ := h.started howed
  rw [(Prod.mk.inj hrest).1] at hnext
  cases hnext

/-- An execution raises, and the next tick repeats it. -/
theorem not_triggered_raised : ∃ s, scheduler.Reachable s ∧ ¬ Triggered s := by
  obtain ⟨s, hs, hshown⟩ := scheduler.exists_reachableWhere_of_exec TransitionSystem.anyStep
    shown ([Label.event 10 true] ++ begun 0 ++ [Label.ends 0 .raises 20, .tick 60 false])
    (v := ([.dispatched, .ended 0, .started 0, .crossed], some 10, true)) init_idle
    (by decide +kernel)
  refine ⟨s, hs, fun h => ?_⟩
  have hserved := h.once [.ended 0, .started 0, .crossed] [] (Prod.mk.inj hshown).1
  have htrue : served [.ended 0, .started 0, .crossed] = true := by decide
  rw [htrue] at hserved
  cases hserved

end Pandamonium.TaskScheduler
