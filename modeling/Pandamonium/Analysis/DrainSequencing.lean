import Pandamonium.Analysis.RunSteps

/-!
# One generator of a session at a time

A drain task waits for the task of the run it replaces, and for no other.  That is enough
as long as a task that is over has only finished tasks before it: then `prev_task.done()`
says that every earlier run of the session is done with its generator (`Sequenced.link`,
`Sequenced.order`).

Two things break the chain.  A task cancelled while it still waits finishes before the one
it waits for, so the next task waits for nothing; and a run evicted from the registry while
its task still closes the generator is no longer there for `start` to wait for.
-/

set_option autoImplicit false

namespace Pandamonium.AgentRuns

open Pandamonium.Library

/-- The wrapped generator of the run is being driven or closed. -/
def Run.Busy (run : Run) : Prop := run.phase = .pulling ∨ run.phase = .closing

/-- The generators of a session are used one after the other. -/
structure InTurn (s : State) : Prop where
  alone : ∀ r r' run run', s.runs r = some run → s.runs r' = some run' →
    run'.session = run.session → run.Busy → run'.Busy → r' = r
  /-- A generator is touched only once the tasks of all earlier runs are over. -/
  after : ∀ r r' run run', s.runs r = some run → s.runs r' = some run' →
    run'.session = run.session → run.Busy → r' < r → run'.phase = .finished

/-- What the registry check of `_evict` lets through. -/
def evictable (s : State) (r : RunId) (run : Run) : Bool :=
  s.registry run.session = some r ∧ run.status ≠ .running ∧ run.subscribers = []

/-- A cancellation reaches a drain task ahead of its `try` block only when the task it waits
for is done, and no run is evicted whose task is not. -/
def handsOver (s : State) : Label → Bool
  | .drain r _ =>
    match s.runs r with
    | none => true
    | some run =>
      match run.phase with
      | .created | .waitingPrev => !run.cancelRequested || prevDone s run
      | _ => true
  | .evict r =>
    match s.runs r with
    | none => true
    | some run => !evictable s r run || run.phase = .finished
  | _ => true

/-! ## The invariant -/

/-- The runs of the session started before `r` are over. -/
def EarlierFinished (s : State) (r : RunId) (session : String) : Prop :=
  ∀ r' run', r' < r → s.runs r' = some run' → run'.session = session → run'.phase = .finished

/-- What a run was given to wait for: the run of its session just before it, or nothing when
all of them were over. -/
def Linked (s : State) (r : RunId) (run : Run) : Prop :=
  match run.prevTask with
  | none => EarlierFinished s r run.session
  | some p => (∃ prev, s.runs p = some prev ∧ prev.session = run.session) ∧
      ∀ r' run', r' < r → s.runs r' = some run' → run'.session = run.session → r' ≤ p

structure Sequenced (s : State) : Prop where
  freshRun : ∀ r, s.nextRun ≤ r → s.runs r = none
  /-- The registry names the last run of the session. -/
  registered : ∀ session r, s.registry session = some r →
    (∃ run, s.runs r = some run ∧ run.session = session) ∧
      ∀ r' run', s.runs r' = some run' → run'.session = session → r' ≤ r
  idle : ∀ session, s.registry session = none → EarlierFinished s s.nextRun session
  created : ∀ r run, s.runs r = some run → run.phase = .created → run.cancelRequested = false →
    s.registry run.session = some r
  drains : ∀ r run, s.runs r = some run → run.phase ≠ .created → run.phase ≠ .finished →
    run.drained = some r
  link : ∀ r run, s.runs r = some run → Linked s r run
  order : ∀ r run, s.runs r = some run → run.phase ≠ .created → run.phase ≠ .waitingPrev →
    EarlierFinished s r run.session

theorem sequenced_empty : Sequenced State.empty where
  freshRun := fun _ _ => rfl
  registered := by intro session r h; cases h
  idle := by intro session _ r run _ h; cases h
  created := by intro r run h; cases h
  drains := by intro r run h; cases h
  link := by intro r run h; cases h
  order := by intro r run h; cases h

variable {s s' : State} {r : RunId} {run : Run}

theorem Sequenced.lt_nextRun (h : Sequenced s) (hrun : s.runs r = some run) : r < s.nextRun := by
  by_contra hge
  have hnone := h.freshRun r (Nat.le_of_not_lt hge)
  rw [hrun] at hnone
  cases hnone

/-- `prev_task.done()` is all a task has to know. -/
theorem Sequenced.earlierFinished (h : Sequenced s) (hrun : s.runs r = some run)
    (hdone : prevDone s run = true) :
    EarlierFinished s r run.session := by
  have hlink := h.link r run hrun
  unfold Linked at hlink
  cases hprev : run.prevTask with
  | none => simpa only [hprev] using hlink
  | some p =>
    simp only [hprev] at hlink
    obtain ⟨⟨prev, hp, hsession⟩, hlast⟩ := hlink
    have hfin : prev.phase = .finished := by
      simpa [prevDone, hprev, taskDone, hp] using hdone
    have hbefore := h.order p prev hp (by simp [hfin]) (by simp [hfin])
    intro r' run' hlt hrun' hsession'
    have hle := hlast r' run' hlt hrun' hsession'
    rcases Nat.lt_or_eq_of_le hle with hlt' | heq
    · exact hbefore r' run' hlt' hrun' (hsession'.trans hsession.symm)
    · subst heq
      rw [hp, Option.some.injEq] at hrun'
      subst hrun'
      exact hfin

theorem Sequenced.inTurn (h : Sequenced s) : InTurn s := by
  have hafter : ∀ r r' run run', s.runs r = some run → s.runs r' = some run' →
      run'.session = run.session → run.Busy → r' < r → run'.phase = .finished := by
    intro r r' run run' hrun hrun' hsession hbusy hlt
    have horder : EarlierFinished s r run.session := by
      rcases hbusy with hp | hp
      · exact h.order r run hrun (by simp [hp]) (by simp [hp])
      · exact h.order r run hrun (by simp [hp]) (by simp [hp])
    exact horder r' run' hlt hrun' hsession
  have hidle : ∀ run : Run, run.phase = .finished → ¬ run.Busy := by
    intro run hfin hbusy
    rcases hbusy with hp | hp <;>
      · rw [hfin] at hp
        cases hp
  refine ⟨?_, hafter⟩
  intro r r' run run' hrun hrun' hsession hbusy hbusy'
  rcases Nat.lt_trichotomy r' r with hlt | heq | hgt
  · exact absurd hbusy' (hidle run' (hafter r r' run run' hrun hrun' hsession hbusy hlt))
  · exact heq
  · exact absurd hbusy (hidle run (hafter r' r run' run hrun' hrun hsession.symm hbusy' hgt))

/-! ## What a step leaves in place -/

/-- Runs stay, with their session and the task they wait for, and stay finished. -/
structure Ages (s s' : State) : Prop where
  kept : ∀ r run, s.runs r = some run → ∃ run', s'.runs r = some run'
  old : ∀ r run', r < s.nextRun → s'.runs r = some run' → ∃ run, s.runs r = some run ∧
    run'.session = run.session ∧ run'.prevTask = run.prevTask ∧
    (run.phase = .finished → run'.phase = .finished)

theorem EarlierFinished.ages {session : String} (h : EarlierFinished s r session) (ha : Ages s s')
    (hr : r ≤ s.nextRun) :
    EarlierFinished s' r session := by
  intro r' run' hlt hrun' hsession
  obtain ⟨run, hrun, hsess, _, hfin⟩ := ha.old r' run' (Nat.lt_of_lt_of_le hlt hr) hrun'
  exact hfin (h r' run hlt hrun (hsess.symm.trans hsession))

theorem Linked.ages {run' : Run} (h : Linked s r run) (ha : Ages s s') (hr : r ≤ s.nextRun)
    (hsession : run'.session = run.session) (hprev : run'.prevTask = run.prevTask)
    (hfresh : ∀ p prev, s.runs p = some prev → p < s.nextRun) : Linked s' r run' := by
  unfold Linked at h ⊢
  rw [hprev, hsession]
  cases hp : run.prevTask with
  | none =>
    simp only [hp] at h
    exact h.ages ha hr
  | some p =>
    simp only [hp] at h
    obtain ⟨⟨prev, hrunp, hsessp⟩, hlast⟩ := h
    refine ⟨?_, ?_⟩
    · obtain ⟨prev', hrunp'⟩ := ha.kept p prev hrunp
      obtain ⟨prev₀, hrunp₀, hsess₀, _⟩ := ha.old p prev' (hfresh p prev hrunp) hrunp'
      rw [hrunp, Option.some.injEq] at hrunp₀
      subst hrunp₀
      exact ⟨prev', hrunp', hsess₀.trans hsessp⟩
    · intro r' run₁ hlt hrun₁ hsession₁
      obtain ⟨run₀, hrun₀, hsess₀, _⟩ := ha.old r' run₁ (Nat.lt_of_lt_of_le hlt hr) hrun₁
      exact hlast r' run₀ hlt hrun₀ (hsess₀.symm.trans hsession₁)

theorem Quiet.ages (h : Quiet s s') : Ages s s' where
  kept := by
    intro r run hrun
    obtain ⟨run', hrun', _⟩ := h.kept r run hrun
    exact ⟨run', hrun'⟩
  old := by
    intro r run' _ hrun'
    cases hrun : s.runs r with
    | none =>
      rw [h.absent r hrun] at hrun'
      cases hrun'
    | some run =>
      obtain ⟨run₁, hrun₁, hcore, _⟩ := h.kept r run hrun
      rw [hrun', Option.some.injEq] at hrun₁
      subst hrun₁
      obtain ⟨_, _, hphase, hsess, hprev, _⟩ := Run.core_eq_iff.mp hcore
      exact ⟨run, rfl, hsess, hprev, fun hfin => hphase.trans hfin⟩

/-- A step that keeps the runs and the registry. -/
theorem Sequenced.of_quiet (h : Sequenced s) (hq : Quiet s s') (hreg : s'.registry = s.registry) :
    Sequenced s' := by
  have ha := hq.ages
  have hback : ∀ r run', s'.runs r = some run' → ∃ run, s.runs r = some run ∧
      run'.core = run.core ∧ (run.cancelRequested = true → run'.cancelRequested = true) := by
    intro r run' hrun'
    cases hrun : s.runs r with
    | none =>
      rw [hq.absent r hrun] at hrun'
      cases hrun'
    | some run =>
      obtain ⟨run₁, hrun₁, hcore, hreq⟩ := hq.kept r run hrun
      rw [hrun', Option.some.injEq] at hrun₁
      subst hrun₁
      exact ⟨run, rfl, hcore, hreq⟩
  refine ⟨?_, ?_, ?_, ?_, ?_, ?_, ?_⟩
  · intro r hr
    rw [hq.nextRun] at hr
    exact hq.absent r (h.freshRun r hr)
  · intro session r hr
    rw [hreg] at hr
    obtain ⟨⟨run, hrun, hsess⟩, hlast⟩ := h.registered session r hr
    refine ⟨?_, ?_⟩
    · obtain ⟨run', hrun', hcore, _⟩ := hq.kept r run hrun
      exact ⟨run', hrun', (Run.core_eq_iff.mp hcore).2.2.2.1.trans hsess⟩
    · intro r' run' hrun' hsess'
      obtain ⟨run₀, hrun₀, hcore, _⟩ := hback r' run' hrun'
      exact hlast r' run₀ hrun₀ ((Run.core_eq_iff.mp hcore).2.2.2.1.symm.trans hsess')
  · intro session hnone
    rw [hreg] at hnone
    rw [hq.nextRun]
    exact (h.idle session hnone).ages ha (Nat.le_refl _)
  · intro r run' hrun' hphase hcancel
    obtain ⟨run, hrun, hcore, hreq⟩ := hback r run' hrun'
    obtain ⟨_, _, hph, hsess, _⟩ := Run.core_eq_iff.mp hcore
    have hcancel₀ : run.cancelRequested = false := by
      cases hc : run.cancelRequested with
      | false => rfl
      | true =>
        rw [hreq hc] at hcancel
        cases hcancel
    rw [hreg, hsess]
    exact h.created r run hrun (hph.symm.trans hphase) hcancel₀
  · intro r run' hrun' hcreated hfinished
    obtain ⟨run, hrun, hcore, _⟩ := hback r run' hrun'
    obtain ⟨_, _, hph, _, _, hdrained⟩ := Run.core_eq_iff.mp hcore
    rw [hph] at hcreated hfinished
    exact hdrained.trans (h.drains r run hrun hcreated hfinished)
  · intro r run' hrun'
    obtain ⟨run, hrun, hcore, _⟩ := hback r run' hrun'
    obtain ⟨_, _, _, hsess, hprev, _⟩ := Run.core_eq_iff.mp hcore
    exact (h.link r run hrun).ages ha (Nat.le_of_lt (h.lt_nextRun hrun)) hsess hprev
      fun p prev hp => h.lt_nextRun hp
  · intro r run' hrun' hcreated hwaiting
    obtain ⟨run, hrun, hcore, _⟩ := hback r run' hrun'
    obtain ⟨_, _, hph, hsess, _⟩ := Run.core_eq_iff.mp hcore
    rw [hph] at hcreated hwaiting
    rw [hsess]
    exact (h.order r run hrun hcreated hwaiting).ages ha (Nat.le_of_lt (h.lt_nextRun hrun))

/-- Once the run the registry names is over, all runs of the session are. -/
theorem Sequenced.all_finished (h : Sequenced s) (hrun : s.runs r = some run)
    (hreg : s.registry run.session = some r) (hfin : run.phase = .finished) :
    EarlierFinished s s.nextRun run.session := by
  obtain ⟨_, hlast⟩ := h.registered run.session r hreg
  intro r' run' _ hrun' hsess
  rcases Nat.lt_or_eq_of_le (hlast r' run' hrun' hsess) with hlt | heq
  · exact h.order r run hrun (by simp [hfin]) (by simp [hfin]) r' run' hlt hrun' hsess
  · subst heq
    rw [hrun, Option.some.injEq] at hrun'
    subst hrun'
    exact hfin

/-- The finished run of a session, taken off the registry. -/
theorem Sequenced.pop (h : Sequenced s) (hrun : s.runs r = some run)
    (hreg : s.registry run.session = some r) (hfin : run.phase = .finished) :
    Sequenced { s with registry := Function.update s.registry run.session none } := by
  have hall := h.all_finished hrun hreg hfin
  refine ⟨h.freshRun, ?_, ?_, ?_, h.drains, h.link, h.order⟩
  · intro session r' hr'
    by_cases hs : session = run.session
    · subst hs
      simp only [Function.update_self] at hr'
      cases hr'
    · simp only [Function.update_of_ne hs] at hr'
      exact h.registered session r' hr'
  · intro session hnone
    by_cases hs : session = run.session
    · subst hs
      exact hall
    · simp only [Function.update_of_ne hs] at hnone
      exact h.idle session hnone
  · intro r' run' hrun' hphase hcancel
    have hreg' := h.created r' run' hrun' hphase hcancel
    have hs : run'.session ≠ run.session := by
      intro heq
      rw [heq, hreg, Option.some.injEq] at hreg'
      subst hreg'
      rw [hrun, Option.some.injEq] at hrun'
      subst hrun'
      rw [hfin] at hphase
      cases hphase
    simp only [Function.update_of_ne hs]
    exact hreg'

theorem start_registry (s : State) (session : String) :
    (start s session).registry = Function.update s.registry session (some s.nextRun) ∧
      (start s session).nextRun = s.nextRun + 1 := by
  unfold start
  cases hprev : s.registry session with
  | none => exact ⟨rfl, rfl⟩
  | some p => cases hdone : taskDone s p <;> simp [hdone, Option.filter, State.modifyRun]

/-- What the new run waits for covers every run of its session. -/
theorem Sequenced.linked_newRun (h : Sequenced s) (session : String) :
    Linked s s.nextRun (newRun s session) := by
  simp only [Linked, newRun]
  cases hreg : s.registry session with
  | none => simpa using h.idle session hreg
  | some p =>
    obtain ⟨⟨run, hrun, hsess⟩, hlast⟩ := h.registered session p hreg
    cases hdone : taskDone s p with
    | true =>
      have hfin : run.phase = .finished := by
        simpa [taskDone, hrun] using hdone
      have hall := h.all_finished hrun (by rw [hsess]; exact hreg) hfin
      rw [hsess] at hall
      simpa [Option.filter, hdone] using hall
    | false =>
      simp only [Option.filter, hdone, Bool.not_false, if_true]
      exact ⟨⟨run, hrun, hsess⟩, fun r' run' _ hrun' hsess' => hlast r' run' hrun' hsess'⟩

theorem Sequenced.start (h : Sequenced s) (session : String) :
    Sequenced (start s session) := by
  have hfresh := h.freshRun s.nextRun (Nat.le_refl _)
  have hk := start_keeps hfresh session
  obtain ⟨hreg, hnext⟩ := start_registry s session
  -- a run of the new state is the new one, or one of the old state
  have hback : ∀ r run', (AgentRuns.start s session).runs r = some run' →
      (r = s.nextRun ∧ run' = newRun s session) ∨
        (r < s.nextRun ∧ ∃ run, s.runs r = some run ∧ run'.core = run.core) := by
    intro r run' hrun'
    cases hrun : s.runs r with
    | none => exact Or.inl (start_new hrun hrun')
    | some run =>
      obtain ⟨run₁, hrun₁, hcore, _⟩ := hk r run hrun
      rw [hrun', Option.some.injEq] at hrun₁
      subst hrun₁
      exact Or.inr ⟨h.lt_nextRun hrun, run, rfl, hcore⟩
  have ha : Ages s (AgentRuns.start s session) := by
    refine ⟨fun r run hrun => ?_, fun r run' hlt hrun' => ?_⟩
    · obtain ⟨run', hrun', _⟩ := hk r run hrun
      exact ⟨run', hrun'⟩
    · rcases hback r run' hrun' with ⟨rfl, _⟩ | ⟨_, run, hrun, hcore⟩
      · exact absurd hlt (Nat.lt_irrefl _)
      · obtain ⟨_, _, hph, hsess, hprev, _⟩ := Run.core_eq_iff.mp hcore
        exact ⟨run, hrun, hsess, hprev, fun hfin => hph.trans hfin⟩
  have hnew : (AgentRuns.start s session).runs s.nextRun = some (newRun s session) := by
    rw [start_runs, if_pos rfl]
  refine ⟨?_, ?_, ?_, ?_, ?_, ?_, ?_⟩
  · intro r hr
    rw [hnext] at hr
    have hne : r ≠ s.nextRun := Nat.ne_of_gt hr
    rw [start_runs, if_neg hne, h.freshRun r (Nat.le_of_succ_le hr)]
    simp
  · intro session' r hr
    rw [hreg] at hr
    by_cases hs : session' = session
    · subst hs
      rw [Function.update_self, Option.some.injEq] at hr
      subst hr
      refine ⟨⟨_, hnew, rfl⟩, fun r' run' hrun' _ => ?_⟩
      rcases hback r' run' hrun' with ⟨rfl, _⟩ | ⟨hlt, _⟩
      · exact Nat.le_refl _
      · exact Nat.le_of_lt hlt
    · rw [Function.update_of_ne hs] at hr
      obtain ⟨⟨run, hrun, hsess⟩, hlast⟩ := h.registered session' r hr
      refine ⟨?_, fun r' run' hrun' hsess' => ?_⟩
      · obtain ⟨run', hrun', hcore, _⟩ := hk r run hrun
        exact ⟨run', hrun', (Run.core_eq_iff.mp hcore).2.2.2.1.trans hsess⟩
      · rcases hback r' run' hrun' with ⟨_, rfl⟩ | ⟨_, run₀, hrun₀, hcore⟩
        · exact absurd hsess'.symm hs
        · exact hlast r' run₀ hrun₀ ((Run.core_eq_iff.mp hcore).2.2.2.1.symm.trans hsess')
  · intro session' hnone
    rw [hreg] at hnone
    have hs : session' ≠ session := by
      rintro rfl
      rw [Function.update_self] at hnone
      cases hnone
    rw [Function.update_of_ne hs] at hnone
    intro r' run' _ hrun' hsess'
    rcases hback r' run' hrun' with ⟨_, rfl⟩ | ⟨hlt, _⟩
    · exact absurd hsess'.symm hs
    · exact (h.idle session' hnone).ages ha (Nat.le_refl _) r' run' hlt hrun' hsess'
  · intro r run' hrun' hphase hcancel
    rcases hback r run' hrun' with ⟨rfl, rfl⟩ | ⟨hlt, run, hrun, hcore⟩
    · rw [hreg]
      exact Function.update_self _ _ _
    · obtain ⟨_, _, hph, hsess, _⟩ := Run.core_eq_iff.mp hcore
      have hcreated : run.phase = .created := hph.symm.trans hphase
      -- the run in flight was cancelled, so this is another session's
      rw [start_runs, if_neg (Nat.ne_of_lt hlt), hrun] at hrun'
      have hne : s.registry session ≠ some r := by
        intro heq
        rw [if_pos heq] at hrun'
        cases hrun'
        simp [taskDone, hrun, hcreated] at hcancel
      rw [if_neg hne, Option.some.injEq] at hrun'
      subst hrun'
      have hold := h.created r run hrun hcreated hcancel
      have hs : run.session ≠ session := by
        rintro rfl
        exact hne hold
      rw [hreg, Function.update_of_ne hs]
      exact hold
  · intro r run' hrun' hcreated hfinished
    rcases hback r run' hrun' with ⟨_, rfl⟩ | ⟨_, run, hrun, hcore⟩
    · exact absurd rfl hcreated
    · obtain ⟨_, _, hph, _, _, hdrained⟩ := Run.core_eq_iff.mp hcore
      rw [hph] at hcreated hfinished
      exact hdrained.trans (h.drains r run hrun hcreated hfinished)
  · intro r run' hrun'
    rcases hback r run' hrun' with ⟨rfl, rfl⟩ | ⟨hlt, run, hrun, hcore⟩
    · exact (h.linked_newRun session).ages ha (Nat.le_refl _) rfl rfl
        fun p prev hp => h.lt_nextRun hp
    · obtain ⟨_, _, _, hsess, hprev, _⟩ := Run.core_eq_iff.mp hcore
      exact (h.link r run hrun).ages ha (Nat.le_of_lt hlt) hsess hprev
        fun p prev hp => h.lt_nextRun hp
  · intro r run' hrun' hcreated hwaiting
    rcases hback r run' hrun' with ⟨_, rfl⟩ | ⟨hlt, run, hrun, hcore⟩
    · exact absurd rfl hcreated
    · obtain ⟨_, _, hph, hsess, _⟩ := Run.core_eq_iff.mp hcore
      rw [hph] at hcreated hwaiting
      rw [hsess]
      exact (h.order r run hrun hcreated hwaiting).ages ha (Nat.le_of_lt hlt)

/-! ## Steps of a drain task -/

/-- A task moves on, to a phase it may be in; the other runs stay as they are. -/
theorem Sequenced.move (h : Sequenced s) {run' : Run} (hrun : s.runs r = some run)
    (hrun' : s'.runs r = some run')
    (hothers : ∀ r', r' ≠ r → (s'.runs r').map Run.feed = (s.runs r').map Run.feed)
    (hregistry : s'.registry = s.registry ∧ s'.nextRun = s.nextRun)
    (hidentity : run'.session = run.session ∧ run'.prevTask = run.prevTask)
    (hunfinished : run.phase ≠ .finished) (hstarted : run'.phase ≠ .created)
    (hdrained : run'.phase ≠ .finished → run'.drained = some r)
    (hentered : run'.phase ≠ .waitingPrev → EarlierFinished s r run.session) : Sequenced s' := by
  obtain ⟨hreg, hnext⟩ := hregistry
  have hlt := h.lt_nextRun hrun
  have hother : ∀ r' run₁, r' ≠ r → s'.runs r' = some run₁ → ∃ run₀, s.runs r' = some run₀ ∧
      run₁.feed = run₀.feed := by
    intro r' run₁ hne hrun₁
    have hfeed := hothers r' hne
    rw [hrun₁, Option.map_some] at hfeed
    obtain ⟨run₀, hrun₀, heq⟩ := Option.map_eq_some_iff.mp hfeed.symm
    exact ⟨run₀, hrun₀, heq.symm⟩
  have hkept : ∀ r' run₀, s.runs r' = some run₀ → ∃ run₁, s'.runs r' = some run₁ ∧
      run₁.session = run₀.session := by
    intro r' run₀ hrun₀
    by_cases hne : r' = r
    · subst hne
      rw [hrun, Option.some.injEq] at hrun₀
      subst hrun₀
      exact ⟨run', hrun', hidentity.1⟩
    · have hfeed := hothers r' hne
      rw [hrun₀, Option.map_some] at hfeed
      obtain ⟨run₁, hrun₁, heq⟩ := Option.map_eq_some_iff.mp hfeed
      exact ⟨run₁, hrun₁, (Run.core_eq_iff.mp (Run.core_of_feed heq).1).2.2.2.1⟩
  have ha : Ages s s' := by
    refine ⟨fun r' run₀ hrun₀ => ?_, fun r' run₁ _ hrun₁ => ?_⟩
    · obtain ⟨run₁, hrun₁, _⟩ := hkept r' run₀ hrun₀
      exact ⟨run₁, hrun₁⟩
    · by_cases hne : r' = r
      · subst hne
        rw [hrun', Option.some.injEq] at hrun₁
        subst hrun₁
        exact ⟨run, hrun, hidentity.1, hidentity.2, fun hfin => absurd hfin hunfinished⟩
      · obtain ⟨run₀, hrun₀, heq⟩ := hother r' run₁ hne hrun₁
        obtain ⟨_, _, hph, hsess, hprev, _⟩ := Run.core_eq_iff.mp (Run.core_of_feed heq).1
        exact ⟨run₀, hrun₀, hsess, hprev, fun hfin => hph.trans hfin⟩
  refine ⟨?_, ?_, ?_, ?_, ?_, ?_, ?_⟩
  · intro r' hr'
    rw [hnext] at hr'
    have hne : r' ≠ r := Nat.ne_of_gt (Nat.lt_of_lt_of_le hlt hr')
    have hfeed := hothers r' hne
    rw [h.freshRun r' hr', Option.map_none, Option.map_eq_none_iff] at hfeed
    exact hfeed
  · intro session r' hr'
    rw [hreg] at hr'
    obtain ⟨⟨run₀, hrun₀, hsess⟩, hlast⟩ := h.registered session r' hr'
    refine ⟨?_, fun r₂ run₂ hrun₂ hsess₂ => ?_⟩
    · obtain ⟨run₁, hrun₁, hsess₁⟩ := hkept r' run₀ hrun₀
      exact ⟨run₁, hrun₁, hsess₁.trans hsess⟩
    · by_cases hne : r₂ = r
      · subst hne
        rw [hrun', Option.some.injEq] at hrun₂
        subst hrun₂
        exact hlast r₂ run hrun (hidentity.1.symm.trans hsess₂)
      · obtain ⟨run₃, hrun₃, heq⟩ := hother r₂ run₂ hne hrun₂
        have hsess₃ := (Run.core_eq_iff.mp (Run.core_of_feed heq).1).2.2.2.1
        exact hlast r₂ run₃ hrun₃ (hsess₃.symm.trans hsess₂)
  · intro session hnone
    rw [hreg] at hnone
    rw [hnext]
    exact (h.idle session hnone).ages ha (Nat.le_refl _)
  · intro r' run₁ hrun₁ hphase hcancel
    by_cases hne : r' = r
    · subst hne
      rw [hrun', Option.some.injEq] at hrun₁
      subst hrun₁
      exact absurd hphase hstarted
    · obtain ⟨run₀, hrun₀, heq⟩ := hother r' run₁ hne hrun₁
      obtain ⟨hcore, _, hreq⟩ := Run.core_of_feed heq
      obtain ⟨_, _, hph, hsess, _⟩ := Run.core_eq_iff.mp hcore
      rw [hreg, hsess]
      exact h.created r' run₀ hrun₀ (hph.symm.trans hphase) (hreq.symm.trans hcancel)
  · intro r' run₁ hrun₁ hcreated hfinished
    by_cases hne : r' = r
    · subst hne
      rw [hrun', Option.some.injEq] at hrun₁
      subst hrun₁
      exact hdrained hfinished
    · obtain ⟨run₀, hrun₀, heq⟩ := hother r' run₁ hne hrun₁
      obtain ⟨_, _, hph, _, _, hdr⟩ := Run.core_eq_iff.mp (Run.core_of_feed heq).1
      rw [hph] at hcreated hfinished
      exact hdr.trans (h.drains r' run₀ hrun₀ hcreated hfinished)
  · intro r' run₁ hrun₁
    by_cases hne : r' = r
    · subst hne
      rw [hrun', Option.some.injEq] at hrun₁
      subst hrun₁
      exact (h.link r' run hrun).ages ha (Nat.le_of_lt hlt) hidentity.1 hidentity.2
        fun p prev hp => h.lt_nextRun hp
    · obtain ⟨run₀, hrun₀, heq⟩ := hother r' run₁ hne hrun₁
      obtain ⟨_, _, _, hsess, hprev, _⟩ := Run.core_eq_iff.mp (Run.core_of_feed heq).1
      exact (h.link r' run₀ hrun₀).ages ha (Nat.le_of_lt (h.lt_nextRun hrun₀)) hsess hprev
        fun p prev hp => h.lt_nextRun hp
  · intro r' run₁ hrun₁ hcreated hwaiting
    by_cases hne : r' = r
    · subst hne
      rw [hrun', Option.some.injEq] at hrun₁
      subst hrun₁
      rw [hidentity.1]
      exact (hentered hwaiting).ages ha (Nat.le_of_lt hlt)
    · obtain ⟨run₀, hrun₀, heq⟩ := hother r' run₁ hne hrun₁
      obtain ⟨_, _, hph, hsess, _⟩ := Run.core_eq_iff.mp (Run.core_of_feed heq).1
      rw [hph] at hcreated hwaiting
      rw [hsess]
      exact (h.order r' run₀ hrun₀ hcreated hwaiting).ages ha
        (Nat.le_of_lt (h.lt_nextRun hrun₀))

theorem Sequenced.drain (h : Sequenced s) {o : Outcome} (hok : handsOver s (.drain r o) = true)
    (hstep : drain s r o = some s') : Sequenced s' := by
  obtain ⟨run, hrun, ⟨hcancel, hphase, rfl⟩ | ⟨run', events, tail, hmove, hfans⟩⟩ := drain_cases
    (fun run hrun => h.drains r run hrun) (fun run hrun => h.created r run hrun) hstep
  · -- it leaves before its `try` block, with nothing left to wait for
    have hdone : prevDone s run = true := by
      simp only [handsOver, hrun] at hok
      rcases hphase with hp | hp
      · simpa [hp, hcancel] using hok
      · simpa [hp, hcancel] using hok
    have hunfinished : run.phase ≠ .finished := by
      rcases hphase with hp | hp <;> simp [hp]
    have hexit : (exitBeforeTry s r).runs r =
        some { run with phase := .finished, cancelRequested := false } := by
      simp [exitBeforeTry, hrun]
    refine h.move hrun hexit ?_ ⟨rfl, rfl⟩ ⟨rfl, rfl⟩ hunfinished (by simp)
      (fun hne => absurd rfl hne) fun _ => h.earlierFinished hrun hdone
    intro r' hne
    rw [exitBeforeTry, modifyRun_runs, if_neg hne]
  · refine h.move hrun hfans.after hfans.others hfans.registry hfans.identity hmove.unfinished
      hmove.started (fun _ => hmove.drained) ?_
    intro hwaiting
    rcases hmove.entered with hw | hp | hp | hdone
    · exact absurd hw hwaiting
    · exact h.order r run hrun (by simp [hp]) (by simp [hp])
    · exact h.order r run hrun (by simp [hp]) (by simp [hp])
    · exact h.earlierFinished hrun hdone

/-! ## Runs -/

theorem Sequenced.evict (h : Sequenced s) (hok : handsOver s (.evict r) = true)
    (hstep : evict s r = some s') : Sequenced s' := by
  have hdisarmed := h.of_quiet (quiet_modifyRun s r (fun run => { run with evictArmed := false })
    (fun _ _ => rfl) fun _ hreq => hreq) rfl
  unfold AgentRuns.evict at hstep
  split at hstep
  · cases hstep
  rename_i run hrun
  split at hstep
  · simp only at hstep
    split at hstep
    · rename_i hcond
      cases hstep
      have hfin : run.phase = .finished := by
        have hevict : evictable s r run = true := by
          simpa [evictable] using hcond
        simpa [handsOver, hrun, hevict] using hok
      have hrun' : (s.modifyRun r fun run => { run with evictArmed := false }).runs r =
          some { run with evictArmed := false } := by
        simp [hrun]
      have hpop := hdisarmed.pop hrun' hcond.1 hfin
      exact hpop
    · cases hstep
      exact hdisarmed
  · cases hstep

theorem sequenced_step (s : State) (l : Label) (s' : State) (h : Sequenced s)
    (hok : handsOver s l = true) (hstep : step s l = some s') : Sequenced s' := by
  cases l with
  | start session =>
    cases hstep
    exact h.start session
  | stop session =>
    cases hstep
    exact h.of_quiet (stop_quiet s session).1 (stop_registry s session)
  | drain r o => exact h.drain hok hstep
  | evict r => exact h.evict hok hstep
  | subscribe session =>
    cases hstep
    exact h.of_quiet (subscribe_quiet s session).1 (subscribe_registry s session)
  | advance q => exact h.of_quiet (advance_quiet hstep).1 (advance_registry hstep)
  | timeout q =>
    have hquiet := step_quiet (l := .timeout q) (by simp) (by simp) hstep
    exact h.of_quiet hquiet (timeout_registry hstep)
  | leave q =>
    obtain ⟨sub, _, rfl⟩ := leave_eq hstep
    exact h.of_quiet (unsubscribe_quiet s q sub).1 (unsubscribe_registry s q sub)

/-- In every run in which each task that is over has left nothing behind it to wait for, the
generators of a session are used one after the other. -/
theorem in_turn_of_handsOver (s : State)
    (h : system.ReachableWhere (fun s l => handsOver s l = true) s) : InTurn s := by
  have hseq : Sequenced s := h.invariant (fun s hs => by cases hs; exact sequenced_empty)
    sequenced_step
  exact hseq.inTurn

/-- Two restarts, each of which waits for the run before it. -/
def restartedTwice : List Label :=
  [.start "s", .drain 0 .ends, .drain 0 (.yields "a"), .start "s", .drain 1 .ends,
    .drain 0 .cancelled, .drain 0 .ends, .drain 1 .ends, .start "s", .drain 1 .cancelled,
    .drain 2 .ends, .drain 1 .ends, .drain 2 .ends]

/-- The phases of the first three runs. -/
def phases (s : State) : List (Option DrainPhase) :=
  [0, 1, 2].map fun r => (s.runs r).map Run.phase

theorem in_turn_restartedTwice : ∃ s,
    phases s = [some .finished, some .finished, some .pulling] ∧ InTurn s := by
  obtain ⟨s, hreach, hview⟩ := system.exists_reachableWhere_of_exec
    (fun s l => handsOver s l = true) phases restartedTwice
    (v := [some .finished, some .finished, some .pulling]) rfl (by decide)
  exact ⟨s, hview, in_turn_of_handsOver s hreach⟩

/-- A second restart while the first one still waits: its cancelled task is over at once, so
the third task does not wait for the first. -/
def restartedWhileWaiting : List Label :=
  [.start "s", .drain 0 .ends, .start "s", .drain 1 .ends, .drain 0 .cancelled, .start "s",
    .drain 1 .ends, .drain 2 .ends]

/-- What `InTurn` reads of the first and the third run. -/
def firstAndThird (s : State) :
    Option (String × DrainPhase) × Option (String × DrainPhase) :=
  ((s.runs 0).map fun run => (run.session, run.phase),
    (s.runs 2).map fun run => (run.session, run.phase))

/-- The first run's generator is being closed while the third one's is driven. -/
theorem not_in_turn_restartedWhileWaiting : ¬ ∀ s, system.Reachable s → InTurn s := by
  intro hall
  obtain ⟨s, hreach, hview⟩ := system.exists_reachableWhere_of_exec TransitionSystem.anyStep
    firstAndThird restartedWhileWaiting
    (v := (some ("s", .closing), some ("s", .pulling))) rfl (by decide)
  simp only [firstAndThird, Prod.mk.injEq, Option.map_eq_some_iff] at hview
  obtain ⟨⟨run, hrun, hsession, hphase⟩, run', hrun', hsession', hphase'⟩ := hview
  have hsame := (hall s hreach).alone 0 2 run run' hrun hrun' (hsession'.trans hsession.symm)
    (Or.inr hphase) (Or.inl hphase')
  cases hsame

end Pandamonium.AgentRuns
