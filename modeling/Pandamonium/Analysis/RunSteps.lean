import Mathlib.Data.List.Basic
import Pandamonium.Analysis.DrainCompletion

/-!
# What a step changes of the runs and the queues

A step either leaves the buffers alone (`Quiet`), touching at most one subscriber
(`Spares` holds of the others), or is a step of one drain task, which appends to its own
run's buffer and to the queues registered there (`Fans`).
-/

set_option autoImplicit false

namespace Pandamonium.AgentRuns

open Pandamonium.Library

/-! ## Queued events -/

/-- The queue items of a list of events, the first of which is number `n`. -/
def numbered (n : ℕ) (events : List String) : List Item :=
  (events.zipIdx n).map fun e => some (e.2, e.1)

@[simp] theorem numbered_nil (n : ℕ) : numbered n [] = [] := rfl

theorem numbered_append (n : ℕ) (xs ys : List String) :
    numbered n (xs ++ ys) = numbered n xs ++ numbered (n + xs.length) ys := by
  simp [numbered, List.zipIdx_append]

theorem getElem?_numbered (n : ℕ) (events : List String) (k : ℕ) :
    (numbered n events)[k]? = events[k]?.map fun ev => some (n + k, ev) := by
  simp [numbered, List.getElem?_zipIdx, Function.comp_def]

@[simp] theorem length_numbered (n : ℕ) (events : List String) :
    (numbered n events).length = events.length := by
  simp [numbered]

/-- A run without its queues and its flags. -/
def Run.core (run : Run) : Run :=
  { run with subscribers := [], cancelRequested := false, evictArmed := false }

theorem Run.core_eq_iff {a b : Run} :
    a.core = b.core ↔ a.buffer = b.buffer ∧ a.status = b.status ∧ a.phase = b.phase ∧
      a.session = b.session ∧ a.prevTask = b.prevTask ∧ a.drained = b.drained := by
  cases a
  cases b
  simp only [Run.core, Run.mk.injEq, and_true, true_and]
  constructor
  · rintro ⟨hsession, hbuffer, hstatus, hphase, hprev, hdrained⟩
    exact ⟨hbuffer, hstatus, hphase, hsession, hprev, hdrained⟩
  · rintro ⟨hbuffer, hstatus, hphase, hsession, hprev, hdrained⟩
    exact ⟨hsession, hbuffer, hstatus, hphase, hprev, hdrained⟩

/-! ## Steps that publish nothing -/

/-- Each run is as it was, up to its queues and flags; cancellations stay requested. -/
def Keeps (s s' : State) : Prop :=
  ∀ r run, s.runs r = some run → ∃ run', s'.runs r = some run' ∧ run'.core = run.core ∧
    (run.cancelRequested = true → run'.cancelRequested = true)

/-- And there is no new run. -/
structure Quiet (s s' : State) : Prop where
  kept : Keeps s s'
  absent : ∀ r, s.runs r = none → s'.runs r = none
  nextRun : s'.nextRun = s.nextRun

/-- One subscriber is as it was, and still registered where it was. -/
structure Spares (s s' : State) (q : QueueId) : Prop where
  sub : s'.subs q = s.subs q
  listed : ∀ r run run', s.runs r = some run → s'.runs r = some run' → q ∈ run.subscribers →
    q ∈ run'.subscribers

theorem Quiet.refl (s : State) : Quiet s s where
  kept := fun _ run hrun => ⟨run, hrun, rfl, fun hreq => hreq⟩
  absent := fun _ hnone => hnone
  nextRun := rfl

variable {s s' : State} {q : QueueId} {r : RunId} {run : Run}

theorem Quiet.trans {s₁ s₂ : State} (h : Quiet s s₁) (h' : Quiet s₁ s₂) : Quiet s s₂ where
  kept := by
    intro r run hrun
    obtain ⟨run₁, hrun₁, hcore₁, hreq₁⟩ := h.kept r run hrun
    obtain ⟨run₂, hrun₂, hcore₂, hreq₂⟩ := h'.kept r run₁ hrun₁
    exact ⟨run₂, hrun₂, hcore₂.trans hcore₁, fun hreq => hreq₂ (hreq₁ hreq)⟩
  absent := fun r hnone => h'.absent r (h.absent r hnone)
  nextRun := h'.nextRun.trans h.nextRun

theorem Spares.refl (s : State) (q : QueueId) : Spares s s q where
  sub := rfl
  listed := by
    intro r run run' hrun hrun' hq
    rw [hrun, Option.some.injEq] at hrun'
    subst hrun'
    exact hq

/-- A change of one run that its subscribers do not read. -/
theorem quiet_modifyRun (s : State) (r : RunId) (f : Run → Run)
    (hcore : ∀ run, s.runs r = some run → (f run).core = run.core)
    (hreq : ∀ run, run.cancelRequested = true → (f run).cancelRequested = true) :
    Quiet s (s.modifyRun r f) where
  kept := by
    intro r' run hrun
    by_cases hr : r' = r
    · subst hr
      exact ⟨f run, by simp [hrun], hcore run hrun, hreq run⟩
    · exact ⟨run, by simpa [hr] using hrun, rfl, fun hreq => hreq⟩
  absent := by
    intro r' hnone
    by_cases hr : r' = r
    · subst hr
      simp [hnone]
    · rw [modifyRun_runs, if_neg hr, hnone]
  nextRun := rfl

theorem spares_modifyRun (s : State) (r : RunId) (f : Run → Run) (q : QueueId)
    (hlisted : ∀ run, s.runs r = some run → q ∈ run.subscribers → q ∈ (f run).subscribers) :
    Spares s (s.modifyRun r f) q where
  sub := rfl
  listed := by
    intro r' run run' hrun hrun' hq
    by_cases hr : r' = r
    · subst hr
      simp only [modifyRun_runs, if_true, hrun, Option.map_some, Option.some.injEq] at hrun'
      subst hrun'
      exact hlisted run hrun hq
    · rw [modifyRun_runs, if_neg hr, hrun, Option.some.injEq] at hrun'
      subst hrun'
      exact hq

theorem Spares.trans {s₁ s₂ : State} (hquiet : Quiet s s₁) (h : Spares s s₁ q) (h' : Spares s₁ s₂ q) :
    Spares s s₂ q where
  sub := h'.sub.trans h.sub
  listed := by
    intro r run run₂ hrun hrun₂ hq
    obtain ⟨run₁, hrun₁, _⟩ := hquiet.kept r run hrun
    exact h'.listed r run₁ run₂ hrun₁ hrun₂ (h.listed r run run₁ hrun hrun₁ hq)

/-- A change of one subscriber leaves the runs and the other subscribers alone. -/
theorem quiet_modifySub (s : State) (q : QueueId) (f : Subscriber → Subscriber) :
    Quiet s (s.modifySub q f) := by
  obtain ⟨hkept, habsent, _⟩ := Quiet.refl s
  exact ⟨hkept, habsent, rfl⟩

theorem spares_modifySub (s : State) {q' : QueueId} (f : Subscriber → Subscriber) (hne : q' ≠ q) :
    Spares s (s.modifySub q f) q' where
  sub := by rw [modifySub_subs, if_neg hne]
  listed := by
    intro r run run' hrun hrun' hq
    have heq : s.runs r = some run' := hrun'
    rw [hrun, Option.some.injEq] at heq
    subst heq
    exact hq

theorem quiet_scheduleEvict (s : State) (session : String) : Quiet s (scheduleEvict s session) := by
  unfold scheduleEvict
  split
  · exact Quiet.refl s
  · exact quiet_modifyRun s _ _ (fun _ _ => rfl) fun _ hreq => hreq

theorem spares_scheduleEvict (s : State) (session : String) (q : QueueId) :
    Spares s (scheduleEvict s session) q := by
  unfold scheduleEvict
  split
  · exact Spares.refl s q
  · exact spares_modifyRun s _ _ q fun _ _ hq => hq

/-- The run object `start` creates. -/
def newRun (s : State) (session : String) : Run :=
  { session := session, buffer := [], subscribers := [], status := .running, phase := .created,
    prevTask := (s.registry session).filter fun r => !taskDone s r, drained := none,
    cancelRequested := false, evictArmed := false }

@[simp] theorem modifyRun_nextRun (s : State) (r : RunId) (f : Run → Run) :
    (s.modifyRun r f).nextRun = s.nextRun := rfl

@[simp] theorem modifyRun_nextQueue (s : State) (r : RunId) (f : Run → Run) :
    (s.modifyRun r f).nextQueue = s.nextQueue := rfl

/-- The runs after `start`: a new one, the one in flight with its flags changed, the others. -/
theorem start_runs (s : State) (session : String) (r : RunId) :
    (start s session).runs r =
      if r = s.nextRun then some (newRun s session)
      else if s.registry session = some r then (s.runs r).map fun run =>
        { run with cancelRequested := run.cancelRequested || !taskDone s r, evictArmed := false }
      else s.runs r := by
  unfold start newRun
  cases hprev : s.registry session with
  | none => simp [Function.update_apply]
  | some p =>
    have hflip : (p = r) = (r = p) := propext eq_comm
    cases hdone : taskDone s p with
    | true =>
      by_cases hp : r = p
      · subst hp
        simp [hdone, Option.filter, Function.update_apply]
      · simp [hp, hflip, hdone, Option.filter, Function.update_apply]
    | false =>
      by_cases hp : r = p
      · subst hp
        simp [hdone, Option.filter, Function.update_apply, Function.comp_def]
      · simp [hp, hflip, hdone, Option.filter, Function.update_apply]

@[simp] theorem start_subs (s : State) (session : String) : (start s session).subs = s.subs := by
  unfold start
  cases hprev : s.registry session with
  | none => rfl
  | some p => cases hdone : taskDone s p <;> simp [hdone, Option.filter, State.modifyRun]

theorem start_keeps (hfresh : s.runs s.nextRun = none) (session : String) :
    Keeps s (start s session) := by
  intro r run hrun
  have hne : r ≠ s.nextRun := by
    rintro rfl
    rw [hfresh] at hrun
    cases hrun
  rw [start_runs, if_neg hne, hrun]
  split
  · exact ⟨_, rfl, rfl, fun hreq => by simp [hreq]⟩
  · exact ⟨run, rfl, rfl, fun hreq => hreq⟩

/-- The only run that was not there is the new one. -/
theorem start_new {session : String} {run' : Run} (hnone : s.runs r = none)
    (hrun' : (start s session).runs r = some run') :
    r = s.nextRun ∧ run' = newRun s session := by
  rw [start_runs, hnone, Option.map_none, ite_self] at hrun'
  split at hrun'
  · rename_i hr
    cases hrun'
    exact ⟨hr, rfl⟩
  · cases hrun'

theorem start_spares (hfresh : s.runs s.nextRun = none) (session : String) (q : QueueId) :
    Spares s (start s session) q where
  sub := by rw [start_subs]
  listed := by
    intro r run run' hrun hrun' hq
    have hne : r ≠ s.nextRun := by
      rintro rfl
      rw [hfresh] at hrun
      cases hrun
    rw [start_runs, if_neg hne, hrun] at hrun'
    split at hrun'
    · cases hrun'
      exact hq
    · cases hrun'
      exact hq

theorem stop_quiet (s : State) (session : String) :
    Quiet s (stop s session).1 ∧ ∀ q, Spares s (stop s session).1 q := by
  unfold stop
  split
  · exact ⟨Quiet.refl s, Spares.refl s⟩
  · split
    · exact ⟨Quiet.refl s, Spares.refl s⟩
    · exact ⟨quiet_modifyRun s _ _ (fun _ _ => rfl) fun _ _ => rfl,
        fun q => spares_modifyRun s _ _ q fun _ _ hq => hq⟩

theorem evict_quiet (hstep : evict s r = some s') :
    Quiet s s' ∧ ∀ q, Spares s s' q := by
  have hdisarm : Quiet s (s.modifyRun r fun run => { run with evictArmed := false }) ∧
      ∀ q, Spares s (s.modifyRun r fun run => { run with evictArmed := false }) q :=
    ⟨quiet_modifyRun s r _ (fun _ _ => rfl) fun _ hreq => hreq,
      fun q => spares_modifyRun s r _ q fun _ _ hq => hq⟩
  unfold evict at hstep
  split at hstep
  · cases hstep
  · split at hstep
    · simp only at hstep
      split at hstep
      · cases hstep
        exact ⟨⟨hdisarm.1.kept, hdisarm.1.absent, rfl⟩,
          fun q => ⟨(hdisarm.2 q).sub, (hdisarm.2 q).listed⟩⟩
      · cases hstep
        exact hdisarm
    · cases hstep

/-! ## Steps of a drain task -/

/-- A run, its eviction timer aside. -/
def Run.feed (run : Run) : Run := { run with evictArmed := false }

theorem Run.core_of_feed {a b : Run} (h : a.feed = b.feed) :
    a.core = b.core ∧ a.subscribers = b.subscribers ∧ a.cancelRequested = b.cancelRequested := by
  cases a
  cases b
  simp only [Run.feed, Run.mk.injEq] at h
  simp [Run.core, h]

/-- Events appended to the buffer of one run, and items put on each of its queues. -/
structure Fans (s s' : State) (r : RunId) (run run' : Run) (events : List String)
    (items : List Item) : Prop where
  before : s.runs r = some run
  after : s'.runs r = some run'
  buffer : run'.buffer = run.buffer ++ events
  subscribers : run'.subscribers = run.subscribers
  identity : run'.session = run.session ∧ run'.prevTask = run.prevTask
  registry : s'.registry = s.registry ∧ s'.nextRun = s.nextRun
  others : ∀ r', r' ≠ r → (s'.runs r').map Run.feed = (s.runs r').map Run.feed
  queues : ∀ q, s'.subs q = if q ∈ run.subscribers
    then (s.subs q).map fun sub => { sub with put := sub.put ++ items } else s.subs q

theorem Fans.trans {s₁ s₂ : State} {run₁ run₂ : Run} {xs ys : List String}
    {items items' : List Item} (h : Fans s s₁ r run run₁ xs items)
    (h' : Fans s₁ s₂ r run₁ run₂ ys items') :
    Fans s s₂ r run run₂ (xs ++ ys) (items ++ items') where
  before := h.before
  after := h'.after
  buffer := by rw [h'.buffer, h.buffer, List.append_assoc]
  subscribers := h'.subscribers.trans h.subscribers
  identity := ⟨h'.identity.1.trans h.identity.1, h'.identity.2.trans h.identity.2⟩
  registry := ⟨h'.registry.1.trans h.registry.1, h'.registry.2.trans h.registry.2⟩
  others := fun r' hr => (h'.others r' hr).trans (h.others r' hr)
  queues := by
    intro q
    rw [h'.queues q, h.subscribers, h.queues q]
    by_cases hq : q ∈ run.subscribers
    · simp [hq, Option.map_map, Function.comp_def]
    · simp [hq]

/-- A change of the drained run that leaves its buffer and its queues alone. -/
theorem fans_modifyRun (hrun : s.runs r = some run) (f : Run → Run)
    (hbuffer : (f run).buffer = run.buffer) (hsubs : (f run).subscribers = run.subscribers)
    (hidentity : (f run).session = run.session ∧ (f run).prevTask = run.prevTask) :
    Fans s (s.modifyRun r f) r run (f run) [] [] where
  before := hrun
  after := by simp [hrun]
  buffer := by simp [hbuffer]
  subscribers := hsubs
  identity := hidentity
  registry := ⟨rfl, rfl⟩
  others := by
    intro r' hr
    rw [modifyRun_runs, if_neg hr]
  queues := by
    intro q
    have hself : (s.modifyRun r f).subs = s.subs := rfl
    rw [hself]
    simp

theorem fans_putAll (hrun : s.runs r = some run) (item : Item) :
    Fans s (s.putAll run.subscribers item) r run run [] [item] where
  before := hrun
  after := hrun
  buffer := by simp
  subscribers := rfl
  identity := ⟨rfl, rfl⟩
  registry := ⟨rfl, rfl⟩
  others := fun _ _ => rfl
  queues := fun q => putAll_subs s run.subscribers item q

theorem fans_publish (hrun : s.runs r = some run) (ev : String) :
    Fans s (publish s r ev) r run { run with buffer := run.buffer ++ [ev] } [ev]
      (numbered run.buffer.length [ev]) where
  before := hrun
  after := by simp [publish, hrun]
  buffer := rfl
  subscribers := rfl
  identity := ⟨rfl, rfl⟩
  registry := by
    simp only [publish, hrun]
    exact ⟨rfl, rfl⟩
  others := by
    intro r' hr
    simp [publish, hrun, hr]
  queues := by
    intro q
    simp only [publish, hrun, putAll_subs]
    rfl

theorem scheduleEvict_registry (s : State) (session : String) :
    (scheduleEvict s session).registry = s.registry ∧
      (scheduleEvict s session).nextRun = s.nextRun := by
  unfold scheduleEvict
  split <;> exact ⟨rfl, rfl⟩

theorem fans_scheduleEvict (hrun : s.runs r = some run) (session : String) : ∃ armed : Bool,
      Fans s (scheduleEvict s session) r run { run with evictArmed := armed } [] [] := by
  obtain ⟨f, hf⟩ := scheduleEvict_runs s session r
  refine ⟨f run, hrun, ?_, ?_, rfl, ⟨rfl, rfl⟩, scheduleEvict_registry s session, ?_, ?_⟩
  · rw [hf, hrun]
    rfl
  · simp
  · intro r' _
    obtain ⟨g, hg⟩ := scheduleEvict_runs s session r'
    rw [hg, Option.map_map]
    rfl
  · intro q
    rw [scheduleEvict_subs]
    simp

theorem fans_finallyBlock (hrun : s.runs r = some run) (session : String) :
    ∃ run', run'.status = run.status ∧ run'.phase = .finished ∧
      run'.drained = run.drained ∧ Fans s (finallyBlock s r r session) r run run' [] [none] := by
  have hsubs : s.subscribersOf r = run.subscribers := by
    simp [State.subscribersOf, hrun]
  have hput := fans_putAll hrun none
  rw [← hsubs] at hput
  obtain ⟨armed, harm⟩ := fans_scheduleEvict hput.after session
  have hend := fans_modifyRun harm.after
    (fun run => { run with phase := .finished, cancelRequested := false }) rfl rfl ⟨rfl, rfl⟩
  have hall := (hput.trans harm).trans hend
  exact ⟨{ run with evictArmed := armed, phase := .finished, cancelRequested := false }, rfl, rfl,
    rfl, hall⟩

/-- `prev_task is None or prev_task.done()` -/
def prevDone (s : State) (run : Run) : Bool := (run.prevTask.map (taskDone s)).getD true

/-- How the run of a drain task changes with a step of the task inside `_drain`. -/
structure DrainMove (s : State) (r : RunId) (run run' : Run) (events : List String)
    (tail : List Item) : Prop where
  unfinished : run.phase ≠ .finished
  started : run'.phase ≠ .created
  drained : run'.drained = some r
  /-- The generator is not touched before the previous task is done. -/
  entered : run'.phase = .waitingPrev ∨ run.phase = .pulling ∨ run.phase = .closing ∨
    prevDone s run = true
  publishing : events = [] ∨ run.phase = .pulling
  sentinel : (tail = [] ∧ run'.phase ≠ .finished) ∨ (tail = [none] ∧ run'.phase = .finished)
  settled : run.status ≠ .running → run'.status ≠ .running
  going : run'.phase ≠ .closing → run'.phase ≠ .finished →
    run.phase ≠ .closing ∧ run'.status = run.status

theorem drainFirst_fans (hrun : s.runs r = some run) (hphase : run.phase = .created)
    (hcancel : run.cancelRequested = false) (hown : s.registry run.session = some r) :
    ∃ run', DrainMove s r run run' [] [] ∧ Fans s (drainFirst s r run) r run run' [] [] := by
  have hwaits : ∀ waits : Bool, waits = !prevDone s run →
      DrainMove s r run
        { run with drained := some r, phase := if waits then .waitingPrev else .pulling } [] [] := by
    intro waits hw
    have hgoing : run.phase ≠ .closing := by simp [hphase]
    have hunfinished : run.phase ≠ .finished := by simp [hphase]
    cases waits with
    | true =>
      exact ⟨hunfinished, by simp, rfl, Or.inl rfl, Or.inl rfl, Or.inl ⟨rfl, by simp⟩,
        fun hs => hs, fun _ _ => ⟨hgoing, rfl⟩⟩
    | false =>
      have hdone : prevDone s run = true := by simpa using hw
      exact ⟨hunfinished, by simp, rfl, Or.inr (Or.inr (Or.inr hdone)), Or.inl rfl,
        Or.inl ⟨rfl, by simp⟩, fun hs => hs, fun _ _ => ⟨hgoing, rfl⟩⟩
  simp only [drainFirst, hcancel, Bool.false_eq_true, if_false, hown]
  refine ⟨_, hwaits _ ?_, fans_modifyRun hrun _ rfl rfl ⟨rfl, rfl⟩⟩
  simp only [prevDone]
  cases run.prevTask <;> rfl

theorem drainAwaited_fans (hrun : s.runs r = some run) (hphase : run.phase = .waitingPrev)
    (hdrained : run.drained = some r) (hcancel : run.cancelRequested = false)
    (hstep : drainAwaited s r run = some s') :
    ∃ run', DrainMove s r run run' [] [] ∧ Fans s s' r run run' [] [] := by
  simp only [drainAwaited, hcancel, Bool.false_eq_true, if_false] at hstep
  split at hstep
  · rename_i hdone
    cases hstep
    refine ⟨_, ?_, fans_modifyRun hrun _ rfl rfl ⟨rfl, rfl⟩⟩
    exact ⟨by simp [hphase], by simp, hdrained, Or.inr (Or.inr (Or.inr hdone)), Or.inl rfl,
      Or.inl ⟨rfl, by simp⟩, fun hs => hs, fun _ _ => ⟨by simp [hphase], rfl⟩⟩
  · cases hstep

/-- The end of a task in its `finally` block, from within the `try` block. -/
theorem drainMove_finally {run' : Run} {events : List String}
    (hphase : run.phase = .pulling ∨ run.phase = .closing) (hfin : run'.phase = .finished)
    (hdrained : run'.drained = some r) (hevents : events = [] ∨ run.phase = .pulling)
    (hsettled : run.status ≠ .running → run'.status ≠ .running) :
    DrainMove s r run run' events [none] := by
  have hunfinished : run.phase ≠ .finished := by
    rcases hphase with hp | hp <;> simp [hp]
  have hentered : run'.phase = .waitingPrev ∨ run.phase = .pulling ∨ run.phase = .closing ∨
      prevDone s run = true := by
    rcases hphase with hp | hp
    · exact Or.inr (Or.inl hp)
    · exact Or.inr (Or.inr (Or.inl hp))
  exact ⟨hunfinished, by simp [hfin], hdrained, hentered, hevents, Or.inr ⟨rfl, hfin⟩, hsettled,
    fun _ hne => absurd hfin hne⟩

theorem drainPull_fans (hrun : s.runs r = some run) (hphase : run.phase = .pulling)
    (hdrained : run.drained = some r) (o : Outcome) :
    ∃ run' events tail, DrainMove s r run run' events tail ∧
      Fans s (drainPull s r r run o) r run run' events
        (numbered run.buffer.length events ++ tail) := by
  have hunfinished : run.phase ≠ .finished := by simp [hphase]
  cases o with
  | yields ev =>
    have hflag := fans_modifyRun hrun (fun run => { run with cancelRequested := false }) rfl rfl
      ⟨rfl, rfl⟩
    have hpub := hflag.trans (fans_publish hflag.after ev)
    refine ⟨_, [ev], [], ?_, hpub⟩
    exact ⟨hunfinished, by simp [hphase], hdrained, Or.inr (Or.inl hphase), Or.inr hphase,
      Or.inl ⟨rfl, hunfinished⟩, fun hs => hs, fun _ _ => ⟨by simp [hphase], rfl⟩⟩
  | ends =>
    have hset := fans_modifyRun hrun (fun run =>
      { run with status := if run.status = .running then .done else run.status }) rfl rfl ⟨rfl, rfl⟩
    obtain ⟨run', hstatus, hfin, hown, hlast⟩ := fans_finallyBlock hset.after run.session
    refine ⟨run', [], [none], ?_, hset.trans hlast⟩
    refine drainMove_finally (Or.inl hphase) hfin (hown.trans hdrained) (Or.inl rfl) ?_
    intro hs
    rw [hstatus]
    simp [hs]
  | cancelled =>
    have hset := fans_modifyRun hrun (fun run => { run with status := .stopped }) rfl rfl ⟨rfl, rfl⟩
    have hclose := hset.trans (fans_modifyRun hset.after
      (fun run => { run with phase := .closing, cancelRequested := false }) rfl rfl ⟨rfl, rfl⟩)
    refine ⟨_, [], [], ?_, hclose⟩
    exact ⟨hunfinished, by simp, hdrained, Or.inr (Or.inl hphase), Or.inr hphase,
      Or.inl ⟨rfl, by simp⟩, by simp, fun hne => absurd rfl hne⟩
  | raises =>
    have hset := fans_modifyRun hrun (fun run => { run with status := .error }) rfl rfl ⟨rfl, rfl⟩
    have herror := hset.trans (fans_publish hset.after errorEvent)
    have hdone := herror.trans (fans_publish herror.after doneEvent)
    obtain ⟨run', hstatus, hfin, hown, hlast⟩ := fans_finallyBlock hdone.after run.session
    refine ⟨run', [errorEvent, doneEvent], [none], ?_, ?_⟩
    · refine drainMove_finally (Or.inl hphase) hfin (hown.trans hdrained) (Or.inr hphase) ?_
      intro _
      rw [hstatus]
      simp
    · have hall := hdone.trans hlast
      simpa [numbered, drainPull] using hall
  | raisesBase =>
    obtain ⟨run', hstatus, hfin, hown, hlast⟩ := fans_finallyBlock hrun run.session
    refine ⟨run', [], [none], ?_, hlast⟩
    refine drainMove_finally (Or.inl hphase) hfin (hown.trans hdrained) (Or.inl rfl) ?_
    intro hs
    rw [hstatus]
    exact hs

/-- Everything a step of a drain task can do, where the tasks drain their own runs: leave
before its `try` block, on a cancellation, or go on with `_drain`. -/
theorem drain_cases {o : Outcome}
    (hdrains : ∀ run, s.runs r = some run → run.phase ≠ .created → run.phase ≠ .finished →
      run.drained = some r)
    (hreg : ∀ run, s.runs r = some run → run.phase = .created → run.cancelRequested = false →
      s.registry run.session = some r)
    (hstep : drain s r o = some s') :
    ∃ run, s.runs r = some run ∧
      ((run.cancelRequested = true ∧ (run.phase = .created ∨ run.phase = .waitingPrev) ∧
          s' = exitBeforeTry s r) ∨
        ∃ run' events tail, DrainMove s r run run' events tail ∧
          Fans s s' r run run' events (numbered run.buffer.length events ++ tail)) := by
  unfold drain at hstep
  split at hstep
  · cases hstep
  rename_i run hrun
  refine ⟨run, hrun, ?_⟩
  have hown := hdrains run hrun
  split at hstep
  · rename_i hphase
    cases hstep
    cases hcancel : run.cancelRequested with
    | true =>
      refine Or.inl ⟨rfl, Or.inl hphase, ?_⟩
      rw [drainFirst, if_pos hcancel]
    | false =>
      obtain ⟨run', hmove, hfans⟩ :=
        drainFirst_fans hrun hphase hcancel (hreg run hrun hphase hcancel)
      exact Or.inr ⟨run', [], [], hmove, hfans⟩
  · rename_i hphase
    cases hcancel : run.cancelRequested with
    | true =>
      rw [drainAwaited, if_pos hcancel, Option.some.injEq] at hstep
      exact Or.inl ⟨rfl, Or.inr hphase, hstep.symm⟩
    | false =>
      obtain ⟨run', hmove, hfans⟩ :=
        drainAwaited_fans hrun hphase (hown (by simp [hphase]) (by simp [hphase])) hcancel hstep
      exact Or.inr ⟨run', [], [], hmove, hfans⟩
  · rename_i target hphase hdrained
    have hself := hown (by simp [hphase]) (by simp [hphase])
    rw [hself, Option.some.injEq] at hdrained
    subst hdrained
    cases hstep
    exact Or.inr (drainPull_fans hrun hphase hself o)
  · rename_i target hphase hdrained
    have hself := hown (by simp [hphase]) (by simp [hphase])
    rw [hself, Option.some.injEq] at hdrained
    subst hdrained
    cases hstep
    obtain ⟨run', hstatus, hfin, hdr, hlast⟩ := fans_finallyBlock hrun run.session
    refine Or.inr ⟨run', [], [none], ?_, hlast⟩
    refine drainMove_finally (Or.inr hphase) hfin (hdr.trans hself) (Or.inl rfl) ?_
    intro hs
    rw [hstatus]
    exact hs
  · cases hstep

/-! ## Steps of a subscriber -/

/-- An open subscriber in replay, at the end of what it has replayed, and so on: the turns
`subscribe` can take. -/
theorem advance_cases (hstep : advance s q = some s') :
    ∃ sub run, s.subs q = some sub ∧ s.runs sub.run = some run ∧
      ((∃ ev, (sub.phase = .replay ∨ sub.phase = .flush) ∧ run.buffer[sub.nextSeq]? = some ev ∧
          s' = yieldBuffered s q ev) ∨
        (sub.phase = .replay ∧ run.buffer.length ≤ sub.nextSeq ∧ run.status = .running ∧
          s' = s.modifySub q fun sub => { sub with phase := .live }) ∨
        (∃ item, sub.phase = .live ∧ sub.put[sub.taken]? = some item ∧ s' = receive s q item) ∨
        ((sub.phase = .replay ∧ run.status ≠ .running ∨ sub.phase = .flush) ∧
          run.buffer.length ≤ sub.nextSeq ∧ s' = unsubscribe s q sub)) := by
  unfold advance at hstep
  split at hstep
  · cases hstep
  rename_i sub hsub
  split at hstep
  · cases hstep
  rename_i run hrun
  refine ⟨sub, run, hsub, hrun, ?_⟩
  split at hstep
  · rename_i hphase
    split at hstep
    · rename_i ev hev
      cases hstep
      exact Or.inl ⟨ev, Or.inl hphase, hev, rfl⟩
    · rename_i hnone
      have hend := List.getElem?_eq_none_iff.mp hnone
      split at hstep
      · rename_i hstatus
        cases hstep
        exact Or.inr (Or.inr (Or.inr ⟨Or.inl ⟨hphase, hstatus⟩, hend, rfl⟩))
      · rename_i hstatus
        cases hstep
        exact Or.inr (Or.inl ⟨hphase, hend, not_not.mp hstatus, rfl⟩)
  · rename_i hphase
    obtain ⟨item, hitem, rfl⟩ := Option.map_eq_some_iff.mp hstep
    exact Or.inr (Or.inr (Or.inl ⟨item, hphase, hitem, rfl⟩))
  · rename_i hphase
    split at hstep
    · rename_i ev hev
      cases hstep
      exact Or.inl ⟨ev, Or.inr hphase, hev, rfl⟩
    · rename_i hnone
      have hend := List.getElem?_eq_none_iff.mp hnone
      cases hstep
      exact Or.inr (Or.inr (Or.inr ⟨Or.inr hphase, hend, rfl⟩))
  · cases hstep

theorem unsubscribe_quiet (s : State) (q : QueueId) (sub : Subscriber) :
    Quiet s (unsubscribe s q sub) ∧ ∀ q', q' ≠ q → Spares s (unsubscribe s q sub) q' := by
  have hclose : ∀ f, Quiet s (s.modifySub q f) := fun f => quiet_modifySub s q f
  unfold unsubscribe
  simp only
  split
  · exact ⟨hclose _, fun q' hne => spares_modifySub s _ hne⟩
  rename_i run hrun
  have hleave := quiet_modifyRun (s.modifySub q fun sub => { sub with phase := .closed }) sub.run
    (fun run' => { run' with subscribers := run.subscribers.filter (· ≠ q) }) (fun _ _ => rfl)
    fun _ hreq => hreq
  have hspares : ∀ q', q' ≠ q → Spares s
      ((s.modifySub q fun sub => { sub with phase := .closed }).modifyRun sub.run
        fun run' => { run' with subscribers := run.subscribers.filter (· ≠ q) }) q' := by
    intro q' hne
    have hrest := spares_modifyRun (s.modifySub q fun sub => { sub with phase := .closed }) sub.run
      (fun run' => { run' with subscribers := run.subscribers.filter (· ≠ q) }) q' (by
        intro run' hrun' hq'
        rw [hrun, Option.some.injEq] at hrun'
        subst hrun'
        exact List.mem_filter.mpr ⟨hq', by simpa using hne⟩)
    exact Spares.trans (hclose _) (spares_modifySub s _ hne) hrest
  have hboth := (hclose _).trans hleave
  split
  · exact ⟨hboth.trans (quiet_scheduleEvict _ _), fun q' hne =>
      Spares.trans hboth (hspares q' hne) (spares_scheduleEvict _ _ q')⟩
  · exact ⟨hboth, hspares⟩

theorem unsubscribe_sub {sub : Subscriber} (hsub : s.subs q = some sub) :
    (unsubscribe s q sub).subs q = some { sub with phase := .closed } := by
  have hclose : (s.modifySub q fun sub => { sub with phase := .closed }).subs q =
      some { sub with phase := .closed } := by
    rw [modifySub_subs, if_pos rfl, hsub]
    rfl
  unfold unsubscribe
  simp only
  split
  · exact hclose
  · split
    · rw [scheduleEvict_subs]
      exact hclose
    · exact hclose

theorem advance_quiet (hstep : advance s q = some s') :
    Quiet s s' ∧ ∀ q', q' ≠ q → Spares s s' q' := by
  have hmodify : ∀ f, Quiet s (s.modifySub q f) ∧ ∀ q', q' ≠ q → Spares s (s.modifySub q f) q' :=
    fun f => ⟨quiet_modifySub s q f, fun q' hne => spares_modifySub s f hne⟩
  obtain ⟨sub, run, _, _, hcases⟩ := advance_cases hstep
  rcases hcases with ⟨ev, _, _, rfl⟩ | ⟨_, _, _, rfl⟩ | ⟨item, _, _, rfl⟩ | ⟨_, _, rfl⟩
  · exact hmodify _
  · exact hmodify _
  · exact hmodify _
  · exact unsubscribe_quiet s q sub

/-- A timeout is a heartbeat, or ends the wait on a run that is over. -/
theorem timeout_cases (hstep : timeout s q = some s') :
    ∃ sub, s.subs q = some sub ∧ sub.phase = .live ∧ sub.put[sub.taken]? = none ∧
      (((s.runs sub.run).map Run.status = some .running ∧ s' = s) ∨
        ((s.runs sub.run).map Run.status ≠ some .running ∧
          s' = s.modifySub q fun sub => { sub with phase := .flush })) := by
  unfold timeout at hstep
  split at hstep
  · cases hstep
  rename_i sub hsub
  split at hstep
  · rename_i hcond
    refine ⟨sub, hsub, hcond.1, hcond.2, ?_⟩
    split at hstep
    · rename_i hstatus
      cases hstep
      exact Or.inl ⟨hstatus, rfl⟩
    · rename_i hstatus
      cases hstep
      exact Or.inr ⟨hstatus, rfl⟩
  · cases hstep

theorem leave_eq (hstep : leave s q = some s') :
    ∃ sub, s.subs q = some sub ∧ s' = unsubscribe s q sub := by
  unfold leave at hstep
  split at hstep
  · cases hstep
  rename_i sub hsub
  split at hstep
  · cases hstep
  · cases hstep
    exact ⟨sub, hsub, rfl⟩

theorem subscribe_quiet (s : State) (session : String) : Quiet s (subscribe s session) ∧
    ∀ q, q ≠ s.nextQueue → Spares s (subscribe s session) q := by
  unfold subscribe
  split
  · exact ⟨Quiet.refl s, fun q _ => Spares.refl s q⟩
  rename_i r _
  have hquiet := quiet_modifyRun s r (fun run =>
    { run with subscribers := run.subscribers ++ [s.nextQueue], evictArmed := false })
    (fun _ _ => rfl) fun _ hreq => hreq
  have hspares := fun q => spares_modifyRun s r (fun run =>
    { run with subscribers := run.subscribers ++ [s.nextQueue], evictArmed := false }) q
    fun _ _ hq => List.mem_append_left _ hq
  refine ⟨⟨hquiet.kept, hquiet.absent, rfl⟩, fun q hne => ⟨?_, (hspares q).listed⟩⟩
  exact Function.update_of_ne hne _ _

/-- The steps the event loop takes for one subscriber. -/
def ownStep (q : QueueId) (l : Label) : Bool := l = .advance q ∨ l = .timeout q

/-- Every step that is not one of a drain task publishes nothing. -/
theorem step_quiet {l : Label} (hdrain : ∀ r o, l ≠ .drain r o)
    (hstart : ∀ session, l ≠ .start session) (hstep : step s l = some s') : Quiet s s' := by
  cases l with
  | start session => exact absurd rfl (hstart session)
  | stop session =>
    cases hstep
    exact (stop_quiet s session).1
  | drain r o => exact absurd rfl (hdrain r o)
  | evict r => exact (evict_quiet hstep).1
  | subscribe session =>
    cases hstep
    exact (subscribe_quiet s session).1
  | advance q => exact (advance_quiet hstep).1
  | timeout q =>
    obtain ⟨sub, _, _, _, ⟨_, rfl⟩ | ⟨_, rfl⟩⟩ := timeout_cases hstep
    · exact Quiet.refl s'
    · exact quiet_modifySub s q _
  | leave q =>
    obtain ⟨sub, _, rfl⟩ := leave_eq hstep
    exact (unsubscribe_quiet s q sub).1

theorem step_keeps (hfresh : s.runs s.nextRun = none) {l : Label} (hdrain : ∀ r o, l ≠ .drain r o)
    (hstep : step s l = some s') : Keeps s s' := by
  by_cases hstart : ∃ session, l = .start session
  · obtain ⟨session, rfl⟩ := hstart
    cases hstep
    exact start_keeps hfresh session
  · exact (step_quiet hdrain (fun session heq => hstart ⟨session, heq⟩) hstep).kept

/-- It also leaves alone the subscribers it is not a step of. -/
theorem step_spares (hinv : Inv s) {l : Label} (hl : ∀ r o, l ≠ .drain r o)
    (hstep : step s l = some s') (hq : (s.subs q).isSome) (hown : ownStep q l = false)
    (hleave : l ≠ .leave q) : Spares s s' q := by
  have hother : ∀ q', l = .advance q' ∨ l = .timeout q' ∨ l = .leave q' → q ≠ q' := by
    intro q' hcases heq
    subst heq
    rcases hcases with h | h | h
    · simp [ownStep, h] at hown
    · simp [ownStep, h] at hown
    · exact hleave h
  cases l with
  | start session =>
    cases hstep
    exact start_spares (hinv.freshRun s.nextRun (Nat.le_refl _)) session q
  | stop session =>
    cases hstep
    exact (stop_quiet s session).2 q
  | drain r o => exact absurd rfl (hl r o)
  | evict r => exact (evict_quiet hstep).2 q
  | subscribe session =>
    cases hstep
    refine (subscribe_quiet s session).2 q ?_
    rintro rfl
    rw [hinv.freshQueue s.nextQueue (Nat.le_refl _)] at hq
    cases hq
  | advance q' => exact (advance_quiet hstep).2 q (hother q' (Or.inl rfl))
  | timeout q' =>
    obtain ⟨sub, _, _, _, ⟨_, rfl⟩ | ⟨_, rfl⟩⟩ := timeout_cases hstep
    · exact Spares.refl s' q
    · exact spares_modifySub s _ (hother q' (Or.inr (Or.inl rfl)))
  | leave q' =>
    obtain ⟨sub, _, rfl⟩ := leave_eq hstep
    exact (unsubscribe_quiet s q' sub).2 q (hother q' (Or.inr (Or.inr rfl)))

/-- Only `start` and `_evict` write the registry. -/
theorem unsubscribe_registry (s : State) (q : QueueId) (sub : Subscriber) :
    (unsubscribe s q sub).registry = s.registry := by
  unfold unsubscribe
  simp only
  split
  · rfl
  · split
    · exact (scheduleEvict_registry _ _).1
    · rfl

theorem stop_registry (s : State) (session : String) :
    (stop s session).1.registry = s.registry := by
  unfold stop
  split
  · rfl
  · split <;> rfl

theorem subscribe_registry (s : State) (session : String) :
    (subscribe s session).registry = s.registry := by
  unfold subscribe
  split <;> rfl

theorem advance_registry (hstep : advance s q = some s') :
    s'.registry = s.registry := by
  obtain ⟨sub, run, _, _, hcases⟩ := advance_cases hstep
  rcases hcases with ⟨ev, _, _, rfl⟩ | ⟨_, _, _, rfl⟩ | ⟨item, _, _, rfl⟩ | ⟨_, _, rfl⟩
  · rfl
  · rfl
  · rfl
  · exact unsubscribe_registry s q sub

theorem timeout_registry (hstep : timeout s q = some s') :
    s'.registry = s.registry := by
  obtain ⟨sub, _, _, _, ⟨_, rfl⟩ | ⟨_, rfl⟩⟩ := timeout_cases hstep <;> rfl

end Pandamonium.AgentRuns
