import Pandamonium.Analysis.JarvisSteps

/-!
# One open task for a conversation

`start_task` looks for an open task of the conversation and creates one only where there is
none, so two of them could only come from the copy that it saves when the adapter has
answered.  The start lock keeps the conversation free of other new tasks until then
(`Single.holder`).  The lock also has to be left with the task ended where the adapter has
not accepted it, and here the handler misses the cancellation of the call.
-/

set_option autoImplicit false

namespace Pandamonium.Jarvis

open Pandamonium.Library

variable {cfg : Config}

/-- Two open tasks of one owner, session and worker are the same. -/
def OneOpen (s : State) : Prop :=
  ∀ k k' task task', s.store.tasks.get? k = some task → s.store.tasks.get? k' = some task' →
    task.status.terminal = false → task'.status.terminal = false → task.slot = task'.slot → k = k'

/-- The tasks of the calls of `start_task` that have exited by an exception have ended. -/
def FailedEnded (s : State) : Prop :=
  ∀ taskId ∈ s.failedStarts, s.store.terminal taskId = true

/-- A call of `start_task` is cancelled at the adapter only when its task has ended. -/
def cancelledEnded (s : State) : Label → Bool
  | .cancelled call =>
    match s.frame call with
    | some (.starting task _) => s.store.terminal task.taskId
    | _ => true
  | _ => true

/-- The open task of a conversation, and the task of the call that is inside its start lock. -/
structure Single (s : State) : Prop where
  alone : OneOpen s
  holder : ∀ call task, s.Starting call task → ∀ k task', s.store.tasks.get? k = some task' →
    task'.status.terminal = false → task'.slot = task.slot → k = task.taskId

theorem terminal_of_creates {s : State} {l : Label} {call : ℕ} {task : Task}
    (h : s.Creates l call task) {k : String} {task' : Task}
    (htask' : s.store.tasks.get? k = some task') (hslot : task'.slot = task.slot) :
    task'.status.terminal = true :=
  terminal_of_findActiveTask_eq_none h.idle htask' hslot

theorem not_starting_of_creates {s : State} {l : Label} {call call' : ℕ} {task task' : Task}
    (h : s.Creates l call task) (hstarting : s.Starting call' task') (hslot : task'.slot = task.slot) :
    False := by
  have hlocked := locked_of_starting hstarting
  rw [lockKey_eq_of_slot hslot, Task.lockKey, h.unlocked] at hlocked
  cases hlocked

namespace Single

variable {s s' : State} {l : Label}

theorem eq_of_startAnswer (hs : Sound s) (h : Single s) (hmoves : Moves cfg s l s') {copy : Task}
    {remote : RemoteStart} (hanswer : s.startAnswer l = some (copy, remote)) {k : String}
    {task : Task} (htask : s'.store.tasks.get? k = some task) (hopen : task.status.terminal = false)
    (hslot : task.slot = copy.slot) : k = copy.taskId := by
  obtain ⟨call, hstarting, -⟩ := starting_of_startAnswer hanswer
  rcases hs.open_fileStep hmoves.file htask hopen with
    ⟨task₀, htask₀, hopen₀, hident⟩ | ⟨copy', remote', hanswer', rfl, -⟩ | ⟨_, _, hcreates, -⟩
  · exact h.holder call copy hstarting k task₀ htask₀ hopen₀
      ((slot_eq_of_identity hident).symm.trans hslot)
  · rw [hanswer] at hanswer'
    cases hanswer'
    rfl
  · rw [hcreates.startAnswer_eq_none] at hanswer
    cases hanswer

theorem eq_of_creates (hs : Sound s) (hmoves : Moves cfg s l s') {call : ℕ} {created : Task}
    (hcreates : s.Creates l call created) {k : String} {task : Task}
    (htask : s'.store.tasks.get? k = some task) (hopen : task.status.terminal = false)
    (hslot : task.slot = created.slot) : k = created.taskId := by
  rcases hs.open_fileStep hmoves.file htask hopen with
    ⟨task₀, htask₀, hopen₀, hident⟩ | ⟨copy, remote, hanswer, -⟩ | ⟨_, _, hcreates', rfl, -⟩
  · rw [terminal_of_creates hcreates htask₀ ((slot_eq_of_identity hident).symm.trans hslot)] at hopen₀
    cases hopen₀
  · rw [hcreates.startAnswer_eq_none] at hanswer
    cases hanswer
  · exact (hcreates'.unique hcreates).2

theorem preserved (hs : Sound s) (h : Single s) (hmoves : Moves cfg s l s') : Single s' where
  alone k k' task task' htask htask' hopen hopen' hslot := by
    rcases hs.open_fileStep hmoves.file htask hopen with
      ⟨task₀, htask₀, hopen₀, hident⟩ | ⟨copy, remote, hanswer, rfl, hident⟩ |
      ⟨_, _, hcreates, rfl, hident⟩
    · have hslot₀ := slot_eq_of_identity hident
      rcases hs.open_fileStep hmoves.file htask' hopen' with
        ⟨task₁, htask₁, hopen₁, hident'⟩ | ⟨copy, remote, hanswer, rfl, hident'⟩ |
        ⟨_, _, hcreates, rfl, hident'⟩
      · exact h.alone k k' task₀ task₁ htask₀ htask₁ hopen₀ hopen₁
          (hslot₀.symm.trans (hslot.trans (slot_eq_of_identity hident')))
      · exact h.eq_of_startAnswer hs hmoves hanswer htask hopen
          (hslot.trans (slot_eq_of_identity hident'))
      · exact eq_of_creates hs hmoves hcreates htask hopen
          (hslot.trans (slot_eq_of_identity hident'))
    · exact (h.eq_of_startAnswer hs hmoves hanswer htask' hopen'
        (hslot.symm.trans (slot_eq_of_identity hident))).symm
    · exact (eq_of_creates hs hmoves hcreates htask' hopen'
        (hslot.symm.trans (slot_eq_of_identity hident))).symm
  holder call task hstarting k task' htask' hopen' hslot := by
    rcases hmoves.starting call task hstarting with hold | ⟨hcreates, -⟩
    · rcases hs.open_fileStep hmoves.file htask' hopen' with
        ⟨task₀, htask₀, hopen₀, hident⟩ | ⟨copy, remote, hanswer, rfl, hident⟩ |
        ⟨_, _, hcreates, rfl, hident⟩
      · exact h.holder call task hold k task₀ htask₀ hopen₀
          ((slot_eq_of_identity hident).symm.trans hslot)
      · -- Two calls are not inside one start lock, so the answer is for this call.
        obtain ⟨call₀, hstarting₀, hends⟩ := starting_of_startAnswer hanswer
        have hkey : copy.lockKey = task.lockKey :=
          lockKey_eq_of_slot ((slot_eq_of_identity hident).symm.trans hslot)
        obtain rfl := hs.apart call₀ call copy task hstarting₀ hold hkey
        exact absurd hstarting (hmoves.ended _ hends task)
      · exact (not_starting_of_creates hcreates hold
          (hslot.symm.trans (slot_eq_of_identity hident))).elim
    · exact eq_of_creates hs hmoves hcreates htask' hopen' hslot

theorem initial : Single State.initial where
  alone k k' task task' htask := by cases htask
  holder call task h := by
    obtain ⟨machine, hframe⟩ := h
    cases hframe

end Single

/-! ## The calls that fail -/

/-- The tasks of the calls that have failed have ended, and no call at the adapter is going to
write them. -/
structure Failed (s : State) : Prop where
  ended : FailedEnded s
  gone : ∀ call task, s.Starting call task → task.taskId ∉ s.failedStarts

/-- A call that fails: its task has ended afterwards. -/
theorem terminal_of_failed {s s' : State} {l : Label} (hs : Sound s) {call : ℕ} {task : Task}
    (hstarting : s.Starting call task) (hok : cancelledEnded s l = true)
    (hwhy : (l = .cancelled call ∧ s'.store = s.store) ∨
      ∃ text o, s'.store = failStart cfg s.store task text o) :
    s'.store.terminal task.taskId = true := by
  rcases hwhy with ⟨rfl, hstore⟩ | ⟨text, o, hstore⟩
  · obtain ⟨machine, hframe⟩ := hstarting
    simp only [cancelledEnded, hframe] at hok
    rw [hstore, hok]
  · obtain ⟨task₀, htask₀, -⟩ := hs.held task (holds_of_starting hstarting)
    obtain ⟨text', happend⟩ := failStart_append cfg s.store task text o
    obtain ⟨task', htask', hterminal⟩ :=
      hs.store.terminal_of_appendEvent happend rfl rfl htask₀
    rw [hstore, Store.terminal_eq htask', hterminal]

theorem Failed.preserved {s s' : State} {l : Label} (hs : Sound s) (h : Failed s)
    (hok : cancelledEnded s l = true) (hmoves : Moves cfg s l s') : Failed s' where
  ended taskId hmem := by
    rcases hmoves.failed taskId hmem with hmem | ⟨call, task, hstarting, rfl, -, hwhy⟩
    · have hterminal := h.ended taskId hmem
      cases htask : s.store.tasks.get? taskId with
      | none =>
        rw [Store.terminal, htask] at hterminal
        cases hterminal
      | some task =>
        obtain ⟨task', htask', -, hnext⟩ := hs.keeps_fileStep hmoves.file htask
        rcases hnext with hnext | ⟨copy, remote, hanswer, rfl⟩
        · rw [Store.terminal_eq htask] at hterminal
          rw [Store.terminal_eq htask', hnext.final hterminal, hterminal]
        · obtain ⟨call, hstarting, -⟩ := starting_of_startAnswer hanswer
          exact absurd hmem (h.gone call copy hstarting)
    · exact terminal_of_failed hs hstarting hok hwhy
  gone call task hstarting hmem := by
    rcases hmoves.starting call task hstarting with hold | ⟨hcreates, -⟩
    · rcases hmoves.failed _ hmem with hmem | ⟨call', task', hstarting', hid, hends, -⟩
      · exact h.gone call task hold hmem
      · obtain rfl := hs.call_eq hstarting' hold hid
        exact hmoves.ended _ hends task hstarting
    · rcases hmoves.failed _ hmem with hmem | ⟨call', task', hstarting', hid, -, -⟩
      · have hterminal := h.ended _ hmem
        rw [Store.terminal, hcreates.fresh] at hterminal
        cases hterminal
      · obtain ⟨task₀, htask₀, -⟩ := hs.held task' (holds_of_starting hstarting')
        rw [hid, hcreates.fresh] at htask₀
        cases htask₀

/-! ## Runs -/

/-- Two open tasks of one owner, session and worker are the same in every state. -/
theorem one_open_of_reachable {ok : State → Label → Prop} {s : State}
    (hs : (machine cfg).ReachableWhere ok s) : OneOpen s := by
  have hsingle : Sound s ∧ Single s := by
    refine hs.invariant (I := fun s => Sound s ∧ Single s) ?_ ?_
    · rintro s rfl
      exact ⟨.initial, .initial⟩
    · rintro s l s' ⟨hsound, hsingle⟩ - h
      exact ⟨hsound.preserved (step_moves h), hsingle.preserved hsound (step_moves h)⟩
  exact hsingle.2.alone

/-- In every run in which calls of `start_task` are cancelled at the adapter only after their
task has ended, there is one open task for a conversation at most, and the task of a call that
has exited by an exception has ended. -/
theorem one_open_and_failed_ended {s : State}
    (hs : (machine cfg).ReachableWhere (fun s l => cancelledEnded s l = true) s) :
    OneOpen s ∧ FailedEnded s := by
  have hfailed : Sound s ∧ Failed s := by
    refine hs.invariant (I := fun s => Sound s ∧ Failed s) ?_ ?_
    · rintro s rfl
      refine ⟨.initial, fun taskId hmem => (by cases hmem), fun call task h => ?_⟩
      obtain ⟨machine, hframe⟩ := h
      cases hframe
    · rintro s l s' ⟨hsound, hfailed⟩ hok h
      exact ⟨hsound.preserved (step_moves h), hfailed.preserved hsound hok (step_moves h)⟩
  exact ⟨one_open_of_reachable hs, hfailed.2.ended⟩

/-- Two starts in one conversation: the first one fails, then the second one is accepted. -/
def startedTwice : List Label :=
  [.start 0 plainStart "t" 1, .start 1 plainStart "u" 1, .acquire 0 "t" 1,
    .startRaised 0 "no route" (plainOccasion 2), .acquire 1 "u" 3,
    .startAnswered 1 (plainAnswer .queued) (plainOccasion 4)]

/-- The calls that have failed, and which of the two tasks have ended. -/
def failedView (s : State) : List String × Bool × Bool :=
  (s.failedStarts, s.store.terminal "t", s.store.terminal "u")

/-- The task of the first start has ended, and that of the second one is open. -/
theorem one_open_and_failed_ended_startedTwice :
    ∃ s, failedView s = (["t"], true, false) ∧ OneOpen s ∧ FailedEnded s := by
  obtain ⟨s, hs, hview⟩ := (machine oneWorker).exists_reachableWhere_of_exec
    (fun s l => cancelledEnded s l = true) failedView startedTwice
    (v := (["t"], true, false)) rfl (by decide)
  exact ⟨s, hview, one_open_and_failed_ended hs⟩

/-- The tasks on file are numbered and concluded, a conversation has at most one that is open and
one call at the adapter, and every copy is of a task on file. -/
structure Consistent (s : State) : Prop where
  store : s.store.Valid
  oneOpen : OneOpen s
  oneStarting : ∀ call call' task task', s.Starting call task → s.Starting call' task' →
    task.slot = task'.slot → call = call'
  held : ∀ task, s.Holds task →
    ∃ task', s.store.tasks.get? task.taskId = some task' ∧ task'.identity = task.identity

/-- A start that is cancelled while it awaits the adapter. -/
def cancelledStart : List Label :=
  [.start 0 plainStart "t" 1, .acquire 0 "t" 1, .cancelled 0]

/-- Its task is left queued. -/
theorem not_failed_ended_cancelledStart :
    ¬ ∀ cfg s, (machine cfg).Reachable s → OneOpen s ∧ FailedEnded s := by
  intro hall
  obtain ⟨s, hs, hview⟩ := (machine oneWorker).exists_reachableWhere_of_exec
    TransitionSystem.anyStep failedView cancelledStart (v := (["t"], false, false)) rfl (by decide)
  simp only [failedView, Prod.mk.injEq] at hview
  obtain ⟨hfailed, hopen, -⟩ := hview
  have hended := (hall oneWorker s hs).2 "t" (by rw [hfailed]; exact List.mem_singleton.mpr rfl)
  rw [hopen] at hended
  cases hended

end Pandamonium.Jarvis
