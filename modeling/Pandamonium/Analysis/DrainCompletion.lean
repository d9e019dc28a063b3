import Pandamonium.Model.AgentRuns

/-!
# When a finished drain task leaves its run settled

A run is settled when its status is no longer `running` and every queue registered on it
has been given the end sentinel.  The `finally` block of `_drain` settles the run, but it
covers the `try` block only: a task cancelled before its first step, or while it waits for
the run it replaces, finishes without it.

The invariant `Inv` is kept by each of the primitive changes of the state; the step lemma
`inv_step` assembles them along the text of `agent_runs.py`, under the condition that no
cancellation reaches a task outside its `try` block.
-/

set_option autoImplicit false

namespace Pandamonium.AgentRuns

open Pandamonium.Library

/-- The run status and the sentinel of a run whose drain task is over.  A queue registered
after that is not waited on: its subscriber replays the buffer and returns. -/
def Settled (s : State) (run : Run) : Prop :=
  run.status ≠ .running ∧
    ∀ q ∈ run.subscribers, ∀ sub, s.subs q = some sub →
      none ∈ sub.put ∨ (sub.joinedLate = true ∧ sub.phase ≠ .live)

/-- Every run whose drain task has finished is settled. -/
def DrainsSettled (s : State) : Prop :=
  ∀ r run, s.runs r = some run → run.phase = .finished → Settled s run

/-- A cancellation is delivered to a drain task only inside its `try` block, and what the
generator raises there is an `Exception` or a `CancelledError`. -/
def insideTry (s : State) : Label → Bool
  | .drain r o =>
    match s.runs r with
    | none => true
    | some run =>
      match run.phase with
      | .created | .waitingPrev => !run.cancelRequested
      | .pulling => o ≠ .raisesBase
      | _ => true
  | _ => true

/-! ## What the primitive changes do -/

section Primitives

variable (s : State)

@[simp] theorem modifyRun_runs (r r' : RunId) (f : Run → Run) :
    (s.modifyRun r f).runs r' = if r' = r then (s.runs r).map f else s.runs r' := by
  simp [State.modifyRun, Function.update_apply]

@[simp] theorem modifyRun_registry (r : RunId) (f : Run → Run) :
    (s.modifyRun r f).registry = s.registry := rfl

@[simp] theorem modifySub_subs (q q' : QueueId) (f : Subscriber → Subscriber) :
    (s.modifySub q f).subs q' = if q' = q then (s.subs q).map f else s.subs q' := by
  simp [State.modifySub, Function.update_apply]

@[simp] theorem putAll_runs (queues : List QueueId) (item : Item) :
    (s.putAll queues item).runs = s.runs := rfl

theorem putAll_subs (queues : List QueueId) (item : Item) (q : QueueId) :
    (s.putAll queues item).subs q =
      if q ∈ queues then (s.subs q).map fun sub => { sub with put := sub.put ++ [item] }
      else s.subs q := rfl

end Primitives

/-! ## The invariant -/

/-- What holds of a run and its drain task, given the registry and the subscribers. -/
structure RunOk (registry : String → Option RunId) (subs : QueueId → Option Subscriber)
    (r : RunId) (run : Run) : Prop where
  /-- A task that has not started drains a live run, the session's own unless cancelled. -/
  created : run.phase = .created →
    run.status = .running ∧ (run.cancelRequested = false → registry run.session = some r)
  drains : run.phase ≠ .created → run.drained = some r
  closing : run.phase = .closing → run.status ≠ .running
  finished : run.phase = .finished → run.status ≠ .running
  owned : ∀ q ∈ run.subscribers, ∃ sub, subs q = some sub ∧ sub.run = r
  sentinel : run.phase = .finished → ∀ q ∈ run.subscribers, ∀ sub, subs q = some sub →
    sub.joinedLate = false → none ∈ sub.put

/-- What holds of a subscriber, given the runs. -/
def SubOk (runs : RunId → Option Run) (sub : Subscriber) : Prop :=
  (∃ run, runs sub.run = some run) ∧
    (sub.joinedLate = true → sub.phase ≠ .live ∧ sub.phase ≠ .flush ∧
      ∀ run, runs sub.run = some run → run.phase = .finished)

structure Inv (s : State) : Prop where
  runs : ∀ r run, s.runs r = some run → RunOk s.registry s.subs r run
  subs : ∀ q sub, s.subs q = some sub → SubOk s.runs sub
  registered : ∀ session r, s.registry session = some r →
    ∃ run, s.runs r = some run ∧ run.session = session
  freshRun : ∀ r, s.nextRun ≤ r → s.runs r = none
  freshQueue : ∀ q, s.nextQueue ≤ q → s.subs q = none

theorem Inv.settled {s : State} (h : Inv s) : DrainsSettled s := by
  intro r run hrun hfin
  refine ⟨(h.runs r run hrun).finished hfin, ?_⟩
  intro q hq sub hsub
  cases hlate : sub.joinedLate with
  | false => exact Or.inl ((h.runs r run hrun).sentinel hfin q hq sub hsub hlate)
  | true => exact Or.inr ⟨rfl, ((h.subs q sub hsub).2 hlate).1⟩

/-- No run and no subscriber: nothing to check. -/
theorem inv_empty : Inv State.empty where
  runs := by intro r run h; cases h
  subs := by intro q sub h; cases h
  registered := by intro session r h; cases h
  freshRun := fun _ _ => rfl
  freshQueue := fun _ _ => rfl

variable {r : RunId} {run : Run} {s' : State}

/-- Changing a run to one that is in order keeps the invariant, as long as the run stays
with its session and a finished task stays finished. -/
theorem Inv.modifyRun {s : State} (h : Inv s) {f : Run → Run}
    (hok : ∀ run, s.runs r = some run → RunOk s.registry s.subs r (f run))
    (hsession : ∀ run, (f run).session = run.session)
    (hfin : ∀ run, s.runs r = some run → run.phase = .finished → (f run).phase = .finished) :
    Inv (s.modifyRun r f) where
  runs := by
    intro r' run' hrun'
    by_cases hr : r' = r
    · subst hr
      simp only [modifyRun_runs, if_true, Option.map_eq_some_iff] at hrun'
      obtain ⟨run, hrun, rfl⟩ := hrun'
      exact hok run hrun
    · simp only [modifyRun_runs, hr, if_false] at hrun'
      exact h.runs r' run' hrun'
  subs := by
    intro q sub hsub
    obtain ⟨⟨run, hrun⟩, hlate⟩ := h.subs q sub hsub
    by_cases hr : sub.run = r
    · rw [hr] at hrun hlate
      refine ⟨⟨f run, by simp [hr, hrun]⟩, fun hl => ?_⟩
      obtain ⟨hlive, hflush, hphase⟩ := hlate hl
      refine ⟨hlive, hflush, fun run' hrun' => ?_⟩
      simp only [modifyRun_runs, hr, if_true, hrun, Option.map_some, Option.some.injEq] at hrun'
      subst hrun'
      exact hfin run hrun (hphase run hrun)
    · refine ⟨⟨run, by simpa [hr] using hrun⟩, fun hl => ?_⟩
      simpa [hr] using hlate hl
  registered := by
    intro session r' hreg
    obtain ⟨run, hrun, hsess⟩ := h.registered session r' hreg
    by_cases hr : r' = r
    · subst hr
      exact ⟨f run, by simp [hrun], by rw [hsession, hsess]⟩
    · exact ⟨run, by simpa [hr] using hrun, hsess⟩
  freshRun := by
    intro r' hr'
    have hnone := h.freshRun r' hr'
    by_cases hr : r' = r
    · subst hr
      simp [hnone]
    · simpa [hr] using hnone
  freshQueue := h.freshQueue

/-- Changing a subscriber without taking it off its run or forgetting what was put on its
queue keeps the invariant. -/
theorem Inv.modifySub {s : State} (h : Inv s) {q : QueueId} {f : Subscriber → Subscriber}
    (hrun : ∀ sub, (f sub).run = sub.run) (hlate : ∀ sub, (f sub).joinedLate = sub.joinedLate)
    (hput : ∀ sub, none ∈ sub.put → none ∈ (f sub).put)
    (hok : ∀ sub, s.subs q = some sub → SubOk s.runs (f sub)) : Inv (s.modifySub q f) where
  runs := by
    intro r run hr
    have hrunok := h.runs r run hr
    refine { hrunok with owned := ?_, sentinel := ?_ }
    · intro q' hq'
      obtain ⟨sub, hsub, hown⟩ := hrunok.owned q' hq'
      by_cases hqq : q' = q
      · subst hqq
        exact ⟨f sub, by simp [hsub], by rw [hrun, hown]⟩
      · exact ⟨sub, by simpa [hqq] using hsub, hown⟩
    · intro hfin q' hq' sub' hsub' hl
      by_cases hqq : q' = q
      · subst hqq
        simp only [modifySub_subs, if_true, Option.map_eq_some_iff] at hsub'
        obtain ⟨sub, hsub, rfl⟩ := hsub'
        exact hput sub (hrunok.sentinel hfin q' hq' sub hsub (by rw [← hlate]; exact hl))
      · simp only [modifySub_subs, hqq, if_false] at hsub'
        exact hrunok.sentinel hfin q' hq' sub' hsub' hl
  subs := by
    intro q' sub' hsub'
    by_cases hqq : q' = q
    · subst hqq
      simp only [modifySub_subs, if_true, Option.map_eq_some_iff] at hsub'
      obtain ⟨sub, hsub, rfl⟩ := hsub'
      exact hok sub hsub
    · simp only [modifySub_subs, hqq, if_false] at hsub'
      exact h.subs q' sub' hsub'
  registered := h.registered
  freshRun := h.freshRun
  freshQueue := by
    intro q' hq'
    have hnone := h.freshQueue q' hq'
    by_cases hqq : q' = q
    · subst hqq
      simp [hnone]
    · simpa [hqq] using hnone

theorem Inv.putAll {s : State} (h : Inv s) (queues : List QueueId) (item : Item) :
    Inv (s.putAll queues item) where
  runs := by
    intro r run hr
    have hrunok := h.runs r run hr
    refine { hrunok with owned := ?_, sentinel := ?_ }
    · intro q hq
      obtain ⟨sub, hsub, hown⟩ := hrunok.owned q hq
      by_cases hmem : q ∈ queues
      · exact ⟨{ sub with put := sub.put ++ [item] }, by simp [putAll_subs, hmem, hsub], hown⟩
      · exact ⟨sub, by simp [putAll_subs, hmem, hsub], hown⟩
    · intro hfin q hq sub' hsub' hl
      by_cases hmem : q ∈ queues
      · simp only [putAll_subs, hmem, if_true, Option.map_eq_some_iff] at hsub'
        obtain ⟨sub, hsub, rfl⟩ := hsub'
        exact List.mem_append_left _ (hrunok.sentinel hfin q hq sub hsub hl)
      · simp only [putAll_subs, hmem, if_false] at hsub'
        exact hrunok.sentinel hfin q hq sub' hsub' hl
  subs := by
    intro q sub' hsub'
    by_cases hmem : q ∈ queues
    · simp only [putAll_subs, hmem, if_true, Option.map_eq_some_iff] at hsub'
      obtain ⟨sub, hsub, rfl⟩ := hsub'
      exact h.subs q sub hsub
    · simp only [putAll_subs, hmem, if_false] at hsub'
      exact h.subs q sub' hsub'
  registered := h.registered
  freshRun := h.freshRun
  freshQueue := by
    intro q hq
    have hnone := h.freshQueue q hq
    simp [putAll_subs, hnone]

/-! ## The operations keep the invariant -/

theorem publish_inv {s : State} (h : Inv s) (r : RunId) (ev : String) : Inv (publish s r ev) := by
  unfold publish
  split
  · exact h
  · refine Inv.putAll ?_ _ _
    refine h.modifyRun ?_ (fun _ => rfl) (fun _ _ hfin => hfin)
    intro run hrun
    have hok := h.runs r run hrun
    exact ⟨hok.created, hok.drains, hok.closing, hok.finished, hok.owned, hok.sentinel⟩

theorem publish_runs (s : State) (r r' : RunId) (ev : String) :
    ∃ f : Run → List String, (publish s r ev).runs r' =
      (s.runs r').map fun run => { run with buffer := f run } := by
  unfold publish
  split
  · exact ⟨Run.buffer, by simp⟩
  · by_cases hr : r' = r
    · subst hr
      exact ⟨fun run => run.buffer ++ [ev], by simp⟩
    · exact ⟨Run.buffer, by simp [hr]⟩

theorem scheduleEvict_runs (s : State) (session : String) (r : RunId) :
    ∃ f : Run → Bool, (scheduleEvict s session).runs r =
      (s.runs r).map fun run => { run with evictArmed := f run } := by
  unfold scheduleEvict
  split
  · exact ⟨Run.evictArmed, by simp⟩
  · rename_i r₀ _
    by_cases hr : r = r₀
    · subst hr
      exact ⟨fun _ => true, by simp⟩
    · exact ⟨Run.evictArmed, by simp [hr]⟩

@[simp] theorem scheduleEvict_subs (s : State) (session : String) :
    (scheduleEvict s session).subs = s.subs := by
  unfold scheduleEvict
  split <;> rfl

theorem scheduleEvict_inv {s : State} (h : Inv s) (session : String) :
    Inv (scheduleEvict s session) := by
  unfold scheduleEvict
  split
  · exact h
  · rename_i r _
    refine h.modifyRun ?_ (fun _ => rfl) (fun _ _ hfin => hfin)
    intro run hrun
    have hok := h.runs r run hrun
    exact ⟨hok.created, hok.drains, hok.closing, hok.finished, hok.owned, hok.sentinel⟩

section Draining

variable {s : State} (h : Inv s) (hrun : s.runs r = some run)
include h hrun

/-- The `finally` block settles the run of a task that drains it, once its status has been
moved off `running`. -/
theorem finallyBlock_inv (hphase : run.phase ≠ .created) (hstatus : run.status ≠ .running)
    (session : String) :
    Inv (finallyBlock s r r session) := by
  have hput : Inv (s.putAll (s.subscribersOf r) none) := h.putAll _ _
  have harmed := scheduleEvict_inv hput session
  obtain ⟨f, hf⟩ := scheduleEvict_runs (s.putAll (s.subscribersOf r) none) session r
  refine harmed.modifyRun ?_ (fun _ => rfl) (fun _ _ _ => rfl)
  intro run' hrun'
  have hok := harmed.runs r run' hrun'
  rw [hf, putAll_runs, hrun, Option.map_some, Option.some.injEq] at hrun'
  subst hrun'
  refine ⟨by simp, fun _ => hok.drains hphase, by simp, fun _ => hstatus, hok.owned, ?_⟩
  intro _ q hq sub hsub _
  have hmem : q ∈ s.subscribersOf r := by
    simpa [State.subscribersOf, hrun] using hq
  rw [scheduleEvict_subs, putAll_subs, if_pos hmem, Option.map_eq_some_iff] at hsub
  obtain ⟨sub₀, _, rfl⟩ := hsub
  exact List.mem_append_right _ (List.mem_singleton.mpr rfl)

theorem drainFirst_inv (hphase : run.phase = .created) (hcancel : run.cancelRequested = false) :
    Inv (drainFirst s r run) := by
  have hok := h.runs r run hrun
  obtain ⟨_, hreg⟩ := hok.created hphase
  have hown := hreg hcancel
  obtain ⟨waits, hfirst⟩ : ∃ waits : Bool, drainFirst s r run = s.modifyRun r fun run =>
      { run with drained := some r, phase := if waits then .waitingPrev else .pulling } := by
    simp only [drainFirst, hcancel, Bool.false_eq_true, if_false, hown]
    exact ⟨_, rfl⟩
  rw [hfirst]
  refine h.modifyRun ?_ (fun _ => rfl) ?_
  · intro run' hrun'
    rw [hrun, Option.some.injEq] at hrun'
    subst hrun'
    cases waits <;> exact ⟨by simp, by simp, by simp, by simp, hok.owned, by simp⟩
  · intro run' hrun' hfin
    rw [hrun, Option.some.injEq] at hrun'
    subst hrun'
    rw [hphase] at hfin
    cases hfin

theorem drainAwaited_inv (hphase : run.phase = .waitingPrev) (hcancel : run.cancelRequested = false)
    (hstep : drainAwaited s r run = some s') : Inv s' := by
  have hok := h.runs r run hrun
  simp only [drainAwaited, hcancel, Bool.false_eq_true, if_false] at hstep
  split at hstep
  · cases hstep
    refine h.modifyRun ?_ (fun _ => rfl) ?_
    · intro run' hrun'
      rw [hrun, Option.some.injEq] at hrun'
      subst hrun'
      exact ⟨by simp, fun _ => hok.drains (by simp [hphase]), by simp, by simp, hok.owned, by simp⟩
    · intro run' hrun' hfin
      rw [hrun, Option.some.injEq] at hrun'
      subst hrun'
      rw [hphase] at hfin
      cases hfin
  · cases hstep

theorem setStatus_inv (hphase : run.phase = .pulling) (f : Run → RunStatus) :
    Inv (s.modifyRun r fun run => { run with status := f run }) := by
  have hok := h.runs r run hrun
  refine h.modifyRun ?_ (fun _ => rfl) (fun _ _ hfin => hfin)
  intro run' hrun'
  rw [hrun, Option.some.injEq] at hrun'
  subst hrun'
  exact ⟨fun hc => absurd hc (by simp [hphase]), hok.drains, fun hc => absurd hc (by simp [hphase]),
    fun hc => absurd hc (by simp [hphase]), hok.owned, fun hc => absurd hc (by simp [hphase])⟩

theorem drainPull_inv {o : Outcome} (hphase : run.phase = .pulling) (ho : o ≠ .raisesBase) :
    Inv (drainPull s r r run o) := by
  have hok := h.runs r run hrun
  have hdrained := hok.drains (by simp [hphase])
  cases o with
  | yields ev =>
    refine publish_inv ?_ r ev
    refine h.modifyRun ?_ (fun _ => rfl) (fun _ _ hfin => hfin)
    intro run' hrun'
    rw [hrun, Option.some.injEq] at hrun'
    subst hrun'
    exact ⟨fun hc => absurd hc (by simp [hphase]), hok.drains, hok.closing, hok.finished, hok.owned,
      hok.sentinel⟩
  | ends =>
    refine finallyBlock_inv (setStatus_inv h hrun hphase _) (r := r)
      (by rw [modifyRun_runs, if_pos rfl, hrun, Option.map_some]) (by simp [hphase]) ?_ _
    by_cases hst : run.status = .running <;> simp [hst]
  | cancelled =>
    refine (setStatus_inv h hrun hphase _).modifyRun ?_ (fun _ => rfl) ?_
    · intro run' hrun'
      rw [modifyRun_runs, if_pos rfl, hrun, Option.map_some, Option.some.injEq] at hrun'
      subst hrun'
      exact ⟨by simp, fun _ => hdrained, by simp, by simp, hok.owned, by simp⟩
    · intro run' hrun' hfin
      rw [modifyRun_runs, if_pos rfl, hrun, Option.map_some, Option.some.injEq] at hrun'
      subst hrun'
      rw [hphase] at hfin
      cases hfin
  | raises =>
    have herr := setStatus_inv h hrun hphase fun _ => .error
    have hpub := publish_inv (publish_inv herr r errorEvent) r doneEvent
    obtain ⟨f, hf⟩ := publish_runs (s.modifyRun r fun run => { run with status := .error }) r r
      errorEvent
    obtain ⟨g, hg⟩ := publish_runs (publish (s.modifyRun r fun run => { run with status := .error })
      r errorEvent) r r doneEvent
    rw [hf, modifyRun_runs, if_pos rfl, hrun] at hg
    exact finallyBlock_inv hpub hg (by simp [hphase]) (by simp) _
  | raisesBase => exact absurd rfl ho

end Draining

/-- A step of a drain task inside its `try` block, or into it, keeps the invariant. -/
theorem drain_inv {s : State} (h : Inv s) {o : Outcome} (hok : insideTry s (.drain r o) = true)
    (hstep : drain s r o = some s') : Inv s' := by
  unfold drain at hstep
  split at hstep
  · cases hstep
  · rename_i run hrun
    have hrunok := h.runs r run hrun
    simp only [insideTry, hrun] at hok
    split at hstep
    · rename_i hphase
      cases hstep
      rw [hphase] at hok
      exact drainFirst_inv h hrun hphase (by simpa using hok)
    · rename_i hphase
      rw [hphase] at hok
      exact drainAwaited_inv h hrun hphase (by simpa using hok) hstep
    · rename_i target hphase hdrained
      rw [hrunok.drains (by simp [hphase]), Option.some.injEq] at hdrained
      subst hdrained
      cases hstep
      rw [hphase] at hok
      exact drainPull_inv h hrun hphase (by simpa using hok)
    · rename_i target hphase hdrained
      rw [hrunok.drains (by simp [hphase]), Option.some.injEq] at hdrained
      subst hdrained
      cases hstep
      exact finallyBlock_inv h hrun (by simp [hphase]) (hrunok.closing hphase) _
    · cases hstep

theorem setFlags_inv {s : State} (h : Inv s) (r : RunId) (armed : Run → Bool) (f : Run → Bool)
    (hf : ∀ run, run.cancelRequested = true → f run = true) :
    Inv (s.modifyRun r fun run => { run with cancelRequested := f run, evictArmed := armed run }) := by
  refine h.modifyRun ?_ (fun _ => rfl) (fun _ _ hfin => hfin)
  intro run hrun
  have hok := h.runs r run hrun
  refine ⟨fun hc => ⟨(hok.created hc).1, fun hfalse => (hok.created hc).2 ?_⟩, hok.drains,
    hok.closing, hok.finished, hok.owned, hok.sentinel⟩
  cases hreq : run.cancelRequested with
  | false => rfl
  | true => exact absurd (hf run hreq) (by simpa using hfalse)

/-- Registering a fresh run keeps the invariant when the run it supersedes, if that has not
started, is cancelled. -/
theorem addRun_inv {s : State} (h : Inv s) {session : String} (hsession : run.session = session)
    (hphase : run.phase = .created) (hstatus : run.status = .running) (hsubs : run.subscribers = [])
    (hprev : ∀ r run', s.registry session = some r → s.runs r = some run' →
      run'.phase = .created → run'.cancelRequested = true) :
    Inv { s with
      registry := Function.update s.registry session (some s.nextRun)
      runs := Function.update s.runs s.nextRun (some run)
      nextRun := s.nextRun + 1 } where
  runs := by
    intro r run' hrun'
    by_cases hr : r = s.nextRun
    · subst hr
      simp only [Function.update_self, Option.some.injEq] at hrun'
      subst hrun'
      exact ⟨fun _ => ⟨hstatus, fun _ => by simp [hsession]⟩,
        fun hc => absurd hphase hc, by simp [hphase], by simp [hphase], by simp [hsubs],
        by simp [hphase]⟩
    · simp only [Function.update_of_ne hr] at hrun'
      have hok := h.runs r run' hrun'
      refine ⟨fun hc => ⟨(hok.created hc).1, fun hfalse => ?_⟩, hok.drains, hok.closing,
        hok.finished, hok.owned, hok.sentinel⟩
      have hreg := (hok.created hc).2 hfalse
      have hne : run'.session ≠ session := by
        intro heq
        rw [heq] at hreg
        rw [hprev r run' hreg hrun' hc] at hfalse
        cases hfalse
      simpa only [Function.update_of_ne hne] using hreg
  subs := by
    intro q sub hsub
    obtain ⟨⟨run', hrun'⟩, hlate⟩ := h.subs q sub hsub
    have hne : sub.run ≠ s.nextRun := by
      intro heq
      rw [heq, h.freshRun _ (Nat.le_refl _)] at hrun'
      cases hrun'
    simp only [SubOk, Function.update_of_ne hne]
    exact ⟨⟨run', hrun'⟩, hlate⟩
  registered := by
    intro session' r hreg
    by_cases hs : session' = session
    · subst hs
      simp only [Function.update_self, Option.some.injEq] at hreg
      subst hreg
      exact ⟨run, by simp, hsession⟩
    · simp only [Function.update_of_ne hs] at hreg
      obtain ⟨run', hrun', hsess⟩ := h.registered session' r hreg
      have hne : r ≠ s.nextRun := by
        intro heq
        rw [heq, h.freshRun _ (Nat.le_refl _)] at hrun'
        cases hrun'
      exact ⟨run', by simpa only [Function.update_of_ne hne] using hrun', hsess⟩
  freshRun := by
    intro r hr
    have hne : r ≠ s.nextRun := by
      rintro rfl
      exact Nat.not_succ_le_self _ hr
    simp only [Function.update_of_ne hne]
    exact h.freshRun r (Nat.le_of_succ_le hr)
  freshQueue := h.freshQueue

theorem taskDone_of_runs {s : State} (hrun : s.runs r = some run) :
    taskDone s r = true ↔ run.phase = .finished := by
  simp [taskDone, hrun]

section Moves

variable {s : State} (h : Inv s)
include h

/-- `start` cancels the run it supersedes unless that is done. -/
theorem start_inv (session : String) : Inv (start s session) := by
  cases hreg : s.registry session with
  | none =>
    simp only [start, hreg, Option.filter_none]
    exact addRun_inv h rfl rfl rfl rfl (fun r _ hr => by rw [hreg] at hr; cases hr)
  | some r =>
    obtain ⟨run, hrun, _⟩ := h.registered session r hreg
    by_cases hdone : taskDone s r = true
    · simp only [start, hreg, Option.filter_some, hdone, Bool.not_true, Bool.false_eq_true, if_false]
      refine addRun_inv (setFlags_inv h r (fun _ => false) Run.cancelRequested fun _ hc => hc)
        rfl rfl rfl rfl ?_
      intro r' run' hr' hrun' hc
      rw [modifyRun_registry, hreg, Option.some.injEq] at hr'
      subst hr'
      rw [modifyRun_runs, if_pos rfl, hrun, Option.map_some, Option.some.injEq] at hrun'
      subst hrun'
      rw [taskDone_of_runs hrun] at hdone
      exact absurd (hdone.symm.trans hc) (by simp)
    · simp only [start, hreg, Option.filter_some, hdone, Bool.not_false, if_true]
      refine addRun_inv (setFlags_inv (setFlags_inv h r Run.evictArmed (fun _ => true)
        fun _ _ => rfl) r (fun _ => false) Run.cancelRequested fun _ hc => hc) rfl rfl rfl rfl ?_
      intro r' run' hr' hrun' _
      rw [modifyRun_registry, modifyRun_registry, hreg, Option.some.injEq] at hr'
      subst hr'
      simp only [modifyRun_runs, if_true, hrun, Option.map_some, Option.some.injEq] at hrun'
      subst hrun'
      rfl

theorem stop_inv (session : String) : Inv (stop s session).1 := by
  unfold stop
  split
  · exact h
  · split
    · exact h
    · exact setFlags_inv h _ Run.evictArmed (fun _ => true) fun _ _ => rfl

theorem evict_inv (hstep : evict s r = some s') :
    Inv s' := by
  unfold evict at hstep
  split at hstep
  · cases hstep
  · rename_i run hrun
    have hcleared := setFlags_inv h r (fun _ => false) Run.cancelRequested fun _ hc => hc
    split at hstep
    · simp only at hstep
      split at hstep
      · rename_i hcond
        obtain ⟨hreg, hstatus, _⟩ := hcond
        cases hstep
        refine ⟨?_, hcleared.subs, ?_, hcleared.freshRun, hcleared.freshQueue⟩
        · intro r' run' hrun'
          have hok := hcleared.runs r' run' hrun'
          refine ⟨fun hc => ⟨(hok.created hc).1, fun hfalse => ?_⟩, hok.drains, hok.closing,
            hok.finished, hok.owned, hok.sentinel⟩
          have hreg' := (hok.created hc).2 hfalse
          have hne : run'.session ≠ run.session := by
            intro heq
            rw [heq, hreg, Option.some.injEq] at hreg'
            subst hreg'
            rw [modifyRun_runs, if_pos rfl, hrun, Option.map_some, Option.some.injEq] at hrun'
            subst hrun'
            exact hstatus (hok.created hc).1
          simpa only [Function.update_of_ne hne] using hreg'
        · intro session' r' hreg'
          by_cases hs : session' = run.session
          · subst hs
            simp at hreg'
          · simp only [Function.update_of_ne hs] at hreg'
            exact hcleared.registered session' r' hreg'
      · cases hstep
        exact hcleared
    · cases hstep

theorem addSub_inv {sub : Subscriber} (hsub : SubOk s.runs sub) :
    Inv { s with
      subs := Function.update s.subs s.nextQueue (some sub)
      nextQueue := s.nextQueue + 1 } where
  runs := by
    intro r run hrun
    have hok := h.runs r run hrun
    have hne : ∀ q ∈ run.subscribers, q ≠ s.nextQueue := by
      intro q hq heq
      obtain ⟨sub', hsub', _⟩ := hok.owned q hq
      rw [heq, h.freshQueue _ (Nat.le_refl _)] at hsub'
      cases hsub'
    refine { hok with owned := ?_, sentinel := ?_ }
    · intro q hq
      simpa only [Function.update_of_ne (hne q hq)] using hok.owned q hq
    · intro hfin q hq sub' hsub'
      simp only [Function.update_of_ne (hne q hq)] at hsub'
      exact hok.sentinel hfin q hq sub' hsub'
  subs := by
    intro q sub' hsub'
    by_cases hq : q = s.nextQueue
    · subst hq
      simp only [Function.update_self, Option.some.injEq] at hsub'
      subst hsub'
      exact hsub
    · simp only [Function.update_of_ne hq] at hsub'
      exact h.subs q sub' hsub'
  registered := h.registered
  freshRun := h.freshRun
  freshQueue := by
    intro q hq
    have hne : q ≠ s.nextQueue := by
      rintro rfl
      exact Nat.not_succ_le_self _ hq
    simp only [Function.update_of_ne hne]
    exact h.freshQueue q (Nat.le_of_succ_le hq)

theorem subscribe_inv (session : String) : Inv (subscribe s session) := by
  unfold subscribe
  split
  · exact h
  · rename_i r hreg
    obtain ⟨run, hrun, _⟩ := h.registered session r hreg
    let sub : Subscriber :=
      { run := r, joinedLate := taskDone s r, phase := .replay, nextSeq := 0, put := [],
        taken := 0, yielded := [] }
    have hsub : SubOk s.runs sub := by
      refine ⟨⟨run, hrun⟩, fun hl => ⟨by simp [sub], by simp [sub], fun run' hrun' => ?_⟩⟩
      exact (taskDone_of_runs hrun').mp hl
    have hadded := addSub_inv h hsub
    refine hadded.modifyRun ?_ (fun _ => rfl) (fun _ _ hfin => hfin)
    intro run' hrun'
    have hok := hadded.runs r run' hrun'
    refine ⟨hok.created, hok.drains, hok.closing, hok.finished, ?_, ?_⟩
    · intro q hq
      rcases List.mem_append.mp hq with hq | hq
      · exact hok.owned q hq
      · rw [List.mem_singleton] at hq
        subst hq
        exact ⟨sub, by simp, rfl⟩
    · intro hfin q hq sub' hsub' hl
      rcases List.mem_append.mp hq with hq | hq
      · exact hok.sentinel hfin q hq sub' hsub' hl
      · rw [List.mem_singleton] at hq
        subst hq
        simp only [Function.update_self, Option.some.injEq] at hsub'
        subst hsub'
        have hdone : taskDone s r = true := (taskDone_of_runs hrun').mpr hfin
        exact absurd (hdone.symm.trans hl) (by simp)

theorem unsubscribe_inv (q : QueueId) (sub : Subscriber) :
    Inv (unsubscribe s q sub) := by
  have hclosed : Inv (s.modifySub q fun sub => { sub with phase := .closed }) := by
    refine h.modifySub (fun _ => rfl) (fun _ => rfl) (fun _ hput => hput) ?_
    intro sub' hsub'
    obtain ⟨hrun, hlate⟩ := h.subs q sub' hsub'
    exact ⟨hrun, fun hl => ⟨by simp, by simp, (hlate hl).2.2⟩⟩
  unfold unsubscribe
  simp only
  split
  · exact hclosed
  · rename_i run hrun
    have hleft : Inv ((s.modifySub q fun sub => { sub with phase := .closed }).modifyRun sub.run
        fun run' => { run' with subscribers := run.subscribers.filter (· ≠ q) }) := by
      refine hclosed.modifyRun ?_ (fun _ => rfl) (fun _ _ hfin => hfin)
      intro run' hrun'
      rw [hrun, Option.some.injEq] at hrun'
      subst hrun'
      have hok := hclosed.runs sub.run run hrun
      have hmem : ∀ q' ∈ run.subscribers.filter (· ≠ q), q' ∈ run.subscribers :=
        fun q' hq' => (List.mem_filter.mp hq').1
      exact ⟨hok.created, hok.drains, hok.closing, hok.finished,
        fun q' hq' => hok.owned q' (hmem q' hq'),
        fun hfin q' hq' => hok.sentinel hfin q' (hmem q' hq')⟩
    split
    · exact scheduleEvict_inv hleft _
    · exact hleft

theorem advance_inv {q : QueueId} (hstep : advance s q = some s') :
    Inv s' := by
  unfold advance at hstep
  split at hstep
  · cases hstep
  rename_i sub hsub
  have hsubok := h.subs q sub hsub
  split at hstep
  · cases hstep
  rename_i run hrun
  -- a change that keeps the reader's phase, run and queue contents
  have hread : ∀ ev, Inv (yieldBuffered s q ev) := by
    intro ev
    exact h.modifySub (fun _ => rfl) (fun _ => rfl) (fun _ hput => hput) fun sub' hsub' =>
      h.subs q sub' hsub'
  -- a change of phase of a reader that was there before the drain task finished
  have hchange : sub.joinedLate = false → ∀ f : Subscriber → Subscriber,
      (∀ sub, (f sub).run = sub.run) → (∀ sub, (f sub).joinedLate = sub.joinedLate) →
      (∀ sub, (f sub).put = sub.put) → Inv (s.modifySub q f) := by
    intro hearly f hf hlate hput
    refine h.modifySub hf hlate (fun sub hmem => by rw [hput]; exact hmem) ?_
    intro sub' hsub'
    rw [hsub, Option.some.injEq] at hsub'
    subst hsub'
    refine ⟨by rw [hf]; exact hsubok.1, fun hl => ?_⟩
    rw [hlate, hearly] at hl
    cases hl
  split at hstep
  · split at hstep
    · cases hstep
      exact hread _
    · split at hstep
      · cases hstep
        exact unsubscribe_inv h q sub
      · rename_i hstatus
        cases hstep
        refine hchange ?_ _ (fun _ => rfl) (fun _ => rfl) (fun _ => rfl)
        cases hl : sub.joinedLate with
        | false => rfl
        | true =>
          exact absurd ((h.runs _ run hrun).finished ((hsubok.2 hl).2.2 run hrun)) hstatus
  · rename_i hphase
    have hearly : sub.joinedLate = false := by
      cases hl : sub.joinedLate with
      | false => rfl
      | true => exact absurd hphase (hsubok.2 hl).1
    rw [Option.map_eq_some_iff] at hstep
    obtain ⟨item, _, rfl⟩ := hstep
    refine hchange hearly _ ?_ ?_ ?_ <;>
      · intro sub'
        cases item with
        | none => rfl
        | some e =>
          simp only
          split <;> rfl
  · split at hstep
    · cases hstep
      exact hread _
    · cases hstep
      exact unsubscribe_inv h q sub
  · cases hstep

theorem timeout_inv {q : QueueId} (hstep : timeout s q = some s') :
    Inv s' := by
  unfold timeout at hstep
  split at hstep
  · cases hstep
  rename_i sub hsub
  split at hstep
  · rename_i hcond
    split at hstep
    · cases hstep
      exact h
    · cases hstep
      refine h.modifySub (fun _ => rfl) (fun _ => rfl) (fun _ hput => hput) ?_
      intro sub' hsub'
      rw [hsub, Option.some.injEq] at hsub'
      subst hsub'
      have hsubok := h.subs q sub hsub
      exact ⟨hsubok.1, fun hl => absurd hcond.1 (hsubok.2 hl).1⟩
  · cases hstep

theorem leave_inv {q : QueueId} (hstep : leave s q = some s') :
    Inv s' := by
  unfold leave at hstep
  split at hstep
  · cases hstep
  rename_i sub hsub
  split at hstep
  · cases hstep
  · cases hstep
    exact unsubscribe_inv h q sub

end Moves

/-! ## Runs -/

/-- A step that delivers no cancellation outside a `try` block keeps the invariant. -/
theorem inv_step (s : State) (l : Label) (s' : State) (h : Inv s) (hok : insideTry s l = true)
    (hstep : step s l = some s') : Inv s' := by
  cases l with
  | start session =>
    cases hstep
    exact start_inv h session
  | stop session =>
    cases hstep
    exact stop_inv h session
  | drain r o => exact drain_inv h hok hstep
  | evict r => exact evict_inv h hstep
  | subscribe session =>
    cases hstep
    exact subscribe_inv h session
  | advance q => exact advance_inv h hstep
  | timeout q => exact timeout_inv h hstep
  | leave q => exact leave_inv h hstep

/-- In every run in which cancellations reach drain tasks inside their `try` block only, a
finished drain task leaves its run settled. -/
theorem drains_settled_of_insideTry (s : State)
    (h : system.ReachableWhere (fun s l => insideTry s l = true) s) : DrainsSettled s := by
  have hinv : Inv s := h.invariant (fun s hs => by cases hs; exact inv_empty) inv_step
  exact hinv.settled

/-- A run with a subscriber, superseded while it streams, and the run that replaces it. -/
def restarted : List Label :=
  [.start "s", .subscribe "s", .drain 0 .ends, .drain 0 (.yields "a"), .start "s", .subscribe "s",
    .drain 1 .ends, .drain 0 .cancelled, .drain 0 .ends, .drain 1 .ends, .drain 1 (.yields "b"),
    .drain 1 .raises]

/-- The phases and the queues of the first two runs. -/
def firstTwo (s : State) : Option (DrainPhase × List QueueId) × Option (DrainPhase × List QueueId) :=
  ((s.runs 0).map fun run => (run.phase, run.subscribers),
    (s.runs 1).map fun run => (run.phase, run.subscribers))

/-- Both runs of `restarted` finish, with a queue registered on each, and are settled. -/
theorem drains_settled_restarted : ∃ s,
    firstTwo s = (some (.finished, [0]), some (.finished, [1])) ∧ DrainsSettled s := by
  obtain ⟨s, hreach, hview⟩ := system.exists_reachableWhere_of_exec
    (fun s l => insideTry s l = true) firstTwo restarted
    (v := (some (.finished, [0]), some (.finished, [1]))) rfl (by decide)
  exact ⟨s, hview, drains_settled_of_insideTry s hreach⟩

/-- A run stopped before the first step of its drain task. -/
def stoppedEarly : List Label := [.start "s", .subscribe "s", .stop "s", .drain 0 .ends]

/-- The task is done then, and the run it was to drain still `running`. -/
theorem not_drains_settled_stoppedEarly :
    ¬ ∀ s, system.Reachable s → DrainsSettled s := by
  intro hall
  obtain ⟨s, hreach, hview⟩ := system.exists_reachableWhere_of_exec
    TransitionSystem.anyStep (fun s => (s.runs 0).map fun run => (run.phase, run.status)) stoppedEarly
    (v := some (.finished, .running)) rfl (by decide)
  obtain ⟨run, hrun, hfields⟩ := Option.map_eq_some_iff.mp hview
  rw [Prod.mk.injEq] at hfields
  exact (hall s hreach 0 run hrun hfields.1).1 hfields.2

end Pandamonium.AgentRuns
