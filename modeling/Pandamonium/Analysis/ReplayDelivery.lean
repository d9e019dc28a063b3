import Pandamonium.Analysis.RunSteps

/-!
# What a subscriber is given

`subscribe` registers its queue first, replays the buffer as it grows, and then takes the
published items off the queue, skipping those it has replayed.  The queue always holds the
events of the buffer from some position on, in order, followed by the sentinel once the
drain task is over: `Tracks` says so for one subscriber and its run.

Delivery in order is read off `Tracks`; termination counts the items a subscriber still has
to take.
-/

set_option autoImplicit false

namespace Pandamonium.AgentRuns

open Pandamonium.Library

/-! ## The claims about a subscriber -/

/-- The generator of `subscribe` has returned, or was closed by its client. -/
def Closed (s : State) (q : QueueId) : Prop := ∃ sub, s.subs q = some sub ∧ sub.phase = .closed

/-- A subscriber that is not closed has a step to take, and no schedule gives it more than a
bounded number of them before it is closed. -/
structure Terminates (ok : State → Label → Prop) [DecidableRel ok] (s : State) (q : QueueId) :
    Prop where
  moves : Closed s q ∨ ∃ l, ownStep q l = true ∧ (step s l).isSome
  bounded : ∃ n, ∀ labels s', system.exec ok s labels = some s' →
    n ≤ labels.countP (ownStep q) → Closed s' q

/-- What the subscribers of a state are given, along the runs whose steps meet a condition. -/
structure Delivers (ok : State → Label → Prop) [DecidableRel ok] (s : State) : Prop where
  /-- So far: the events of the buffer from its start, in order, each once. -/
  inOrder : ∀ q sub run, s.subs q = some sub → s.runs sub.run = some run →
    sub.yielded <+: run.buffer
  /-- A generator that returns by itself has yielded the whole buffer of a finished run. -/
  whole : ∀ q sub run s', s.subs q = some sub → s.runs sub.run = some run →
    advance s q = some s' → Closed s' q → run.status ≠ .running ∧ sub.yielded = run.buffer
  /-- Nothing is published on a finished run. -/
  final : ∀ r run, s.runs r = some run → run.status ≠ .running →
    ∀ s' run', system.RunWhere ok s s' → s'.runs r = some run' → run'.buffer = run.buffer
  ends : ∀ q sub run, s.subs q = some sub → s.runs sub.run = some run →
    run.phase = .finished → Terminates ok s q

/-! ## The invariant -/

/-- What the queue of an open subscriber holds: the events from position `j` on, and the
sentinel once the drain task is over. -/
structure Queued (run : Run) (sub : Subscriber) (j : ℕ) (tail : List Item) : Prop where
  joined : j ≤ run.buffer.length
  put : sub.put = numbered j (run.buffer.drop j) ++ tail
  sentinel : tail = [] ∨ (tail = [none] ∧ run.phase = .finished)
  replay : sub.phase = .replay → sub.taken = 0
  /-- No event lies between what was yielded and what comes off the queue next. -/
  live : sub.phase = .live → j + sub.taken ≤ run.buffer.length ∧ j + sub.taken ≤ sub.nextSeq ∧
    (run.phase = .finished → tail = [none])

/-- What holds of a subscriber and the run it is registered on. -/
structure Tracks (run : Run) (q : QueueId) (sub : Subscriber) : Prop where
  given : sub.yielded = run.buffer.take sub.nextSeq
  bound : sub.nextSeq ≤ run.buffer.length
  listed : sub.phase ≠ .closed → q ∈ run.subscribers
  queued : sub.phase ≠ .closed → ∃ j tail, Queued run sub j tail
  flushed : sub.phase = .flush → run.status ≠ .running

structure Follows (s : State) : Prop where
  going : ∀ r run, s.runs r = some run → run.phase ≠ .closing → run.phase ≠ .finished →
    run.status = .running
  tracks : ∀ q sub run, s.subs q = some sub → s.runs sub.run = some run → Tracks run q sub

theorem follows_empty : Follows State.empty where
  going := by intro r run h; cases h
  tracks := by intro q sub run h; cases h

variable {q : QueueId} {sub : Subscriber} {s s' : State} {run : Run} {r : RunId}

theorem Tracks.of_core {run' : Run} (h : Tracks run q sub) (hcore : run'.core = run.core)
    (hlisted : q ∈ run.subscribers → q ∈ run'.subscribers) :
    Tracks run' q sub := by
  obtain ⟨hbuffer, hstatus, hphase, _⟩ := Run.core_eq_iff.mp hcore
  refine ⟨by rw [hbuffer]; exact h.given, by rw [hbuffer]; exact h.bound,
    fun hopen => hlisted (h.listed hopen), ?_, by rw [hstatus]; exact h.flushed⟩
  intro hopen
  obtain ⟨j, tail, hq⟩ := h.queued hopen
  refine ⟨j, tail, ?_⟩
  have hput := hq.put
  have hjoined := hq.joined
  have hsentinel := hq.sentinel
  have hlive := hq.live
  rw [← hbuffer] at hput hjoined hlive
  rw [← hphase] at hsentinel hlive
  exact ⟨hjoined, hput, hsentinel, hq.replay, hlive⟩

/-- Once a subscriber is closed, only what it was given is left to check. -/
theorem Tracks.of_closed (hclosed : sub.phase = .closed)
    (hgiven : sub.yielded = run.buffer.take sub.nextSeq) (hbound : sub.nextSeq ≤ run.buffer.length) :
    Tracks run q sub := by
  refine ⟨hgiven, hbound, ?_, ?_, ?_⟩
  · intro hopen
    exact absurd hclosed hopen
  · intro hopen
    exact absurd hclosed hopen
  · rw [hclosed]
    intro hflush
    cases hflush

/-- What was given stays given as the buffer grows. -/
theorem Tracks.given_append {run' : Run} {events : List String} (h : Tracks run q sub)
    (hbuffer : run'.buffer = run.buffer ++ events) :
    sub.yielded = run'.buffer.take sub.nextSeq ∧ sub.nextSeq ≤ run'.buffer.length := by
  have hbound := h.bound
  rw [hbuffer, List.take_append_of_le_length hbound, List.length_append]
  exact ⟨h.given, Nat.le_add_right_of_le hbound⟩

/-- Events published on a run and put on the queue of each of its subscribers. -/
theorem Tracks.fan {run' : Run} {events : List String} {tail : List Item} (h : Tracks run q sub)
    (hbuffer : run'.buffer = run.buffer ++ events) (hsubs : run'.subscribers = run.subscribers)
    (hgoing : run.phase ≠ .finished)
    (htail : (tail = [] ∧ run'.phase ≠ .finished) ∨ (tail = [none] ∧ run'.phase = .finished))
    (hstatus : run.status ≠ .running → run'.status ≠ .running) :
    Tracks run' q
      { sub with put := sub.put ++ (numbered run.buffer.length events ++ tail) } := by
  obtain ⟨hgiven, hbound⟩ := h.given_append hbuffer
  refine ⟨hgiven, hbound, fun hopen => by rw [hsubs]; exact h.listed hopen, ?_,
    fun hflush => hstatus (h.flushed hflush)⟩
  intro hopen
  obtain ⟨j, tail₀, hq⟩ := h.queued hopen
  -- the task was not over, so no sentinel was on the queue
  have hnone : tail₀ = [] := by
    rcases hq.sentinel with hs | ⟨_, hs⟩
    · exact hs
    · exact absurd hs hgoing
  have hjoined := hq.joined
  refine ⟨j, tail, ?_, ?_, ?_, hq.replay, fun hl => ?_⟩
  · rw [hbuffer, List.length_append]
    exact Nat.le_add_right_of_le hjoined
  · have hlen : j + (run.buffer.drop j).length = run.buffer.length := by
      rw [List.length_drop]
      omega
    rw [hbuffer, List.drop_append_of_le_length hjoined, numbered_append, hlen]
    simp only [hq.put, hnone, List.append_nil, List.append_assoc]
  · rcases htail with ⟨ht, _⟩ | ht
    · exact Or.inl ht
    · exact Or.inr ht
  · obtain ⟨hread, hnext, _⟩ := hq.live hl
    refine ⟨?_, hnext, ?_⟩
    · rw [hbuffer, List.length_append]
      exact Nat.le_add_right_of_le hread
    · intro hfin
      rcases htail with ⟨_, hne⟩ | ⟨ht, _⟩
      · exact absurd hfin hne
      · exact ht

/-! ## Every step keeps it -/

theorem Follows.going_of_keeps (h : Follows s) (hk : Keeps s s')
    (hnew : ∀ r run', s.runs r = none → s'.runs r = some run' → run'.status = .running) :
    ∀ r run, s'.runs r = some run → run.phase ≠ .closing → run.phase ≠ .finished →
      run.status = .running := by
  intro r run' hrun' hclosing hfinished
  cases hrun : s.runs r with
  | none => exact hnew r run' hrun hrun'
  | some run =>
    obtain ⟨run₁, hrun₁, hcore, _⟩ := hk r run hrun
    rw [hrun', Option.some.injEq] at hrun₁
    subst hrun₁
    obtain ⟨_, hstatus, hphase, _⟩ := Run.core_eq_iff.mp hcore
    rw [hphase] at hclosing hfinished
    rw [hstatus]
    exact h.going r run hrun hclosing hfinished

theorem Follows.going_of_quiet (h : Follows s) (hq : Quiet s s') :
    ∀ r run, s'.runs r = some run → run.phase ≠ .closing → run.phase ≠ .finished →
      run.status = .running := by
  refine h.going_of_keeps hq.kept ?_
  intro r run' hnone hrun'
  rw [hq.absent r hnone] at hrun'
  cases hrun'

theorem Follows.tracks_of_spares (hinv : Inv s) (h : Follows s) (hk : Keeps s s')
    (hspares : Spares s s' q) : ∀ sub run, s'.subs q = some sub →
      s'.runs sub.run = some run → Tracks run q sub := by
  intro sub run' hsub hrun'
  rw [hspares.sub] at hsub
  obtain ⟨⟨run, hrun⟩, _⟩ := hinv.subs q sub hsub
  obtain ⟨run₁, hrun₁, hcore, _⟩ := hk sub.run run hrun
  rw [hrun', Option.some.injEq] at hrun₁
  subst hrun₁
  exact (h.tracks q sub run hsub hrun).of_core hcore (hspares.listed sub.run run run' hrun hrun')

theorem Follows.start (hinv : Inv s) (h : Follows s) (session : String) :
    Follows (start s session) := by
  have hfresh := hinv.freshRun s.nextRun (Nat.le_refl _)
  have hk := start_keeps hfresh session
  refine ⟨h.going_of_keeps hk ?_, ?_⟩
  · intro r run' hnone hrun'
    rw [(start_new hnone hrun').2]
    rfl
  · intro q
    exact h.tracks_of_spares hinv hk (start_spares hfresh session q)

/-- A step that publishes nothing and touches no subscriber. -/
theorem Follows.of_quiet (hinv : Inv s) (h : Follows s) (hq : Quiet s s')
    (hspares : ∀ q, Spares s s' q) : Follows s' where
  going := h.going_of_quiet hq
  tracks := fun q => h.tracks_of_spares hinv hq.kept (hspares q)

/-- A step that publishes nothing and moves one subscriber. -/
theorem Follows.of_turn (hinv : Inv s) (h : Follows s) (hq : Quiet s s')
    (hspares : ∀ q', q' ≠ q → Spares s s' q')
    (htracks : ∀ sub run, s'.subs q = some sub → s'.runs sub.run = some run → Tracks run q sub) :
    Follows s' where
  going := h.going_of_quiet hq
  tracks := by
    intro q' sub run hsub hrun
    by_cases hqq : q' = q
    · subst hqq
      exact htracks sub run hsub hrun
    · exact h.tracks_of_spares hinv hq.kept (hspares q' hqq) sub run hsub hrun

/-- A step of a drain task inside its `try` block, or into it. -/
theorem drain_fans (hinv : Inv s) {o : Outcome} (hok : insideTry s (.drain r o) = true)
    (hstep : drain s r o = some s') :
    ∃ run run' events tail, DrainMove s r run run' events tail ∧
      Fans s s' r run run' events (numbered run.buffer.length events ++ tail) := by
  obtain ⟨run, hrun, ⟨hcancel, hphase, _⟩ | ⟨run', events, tail, hmove, hfans⟩⟩ := drain_cases
    (fun run hrun hphase _ => (hinv.runs r run hrun).drains hphase)
    (fun run hrun hphase hreq => ((hinv.runs r run hrun).created hphase).2 hreq) hstep
  · simp only [insideTry, hrun] at hok
    rcases hphase with hp | hp
    · simp [hp, hcancel] at hok
    · simp [hp, hcancel] at hok
  · exact ⟨run, run', events, tail, hmove, hfans⟩

theorem Follows.drain (hinv : Inv s) (h : Follows s) {o : Outcome}
    (hok : insideTry s (.drain r o) = true) (hstep : drain s r o = some s') : Follows s' := by
  obtain ⟨run, run', events, tail, hmove, hfans⟩ := drain_fans hinv hok hstep
  refine ⟨?_, ?_⟩
  · intro r' run₁ hrun₁ hclosing hfinished
    by_cases hr : r' = r
    · subst hr
      rw [hfans.after, Option.some.injEq] at hrun₁
      subst hrun₁
      obtain ⟨hbefore, hstatus⟩ := hmove.going hclosing hfinished
      rw [hstatus]
      exact h.going r' run hfans.before hbefore hmove.unfinished
    · have hfeed := hfans.others r' hr
      rw [hrun₁, Option.map_some] at hfeed
      obtain ⟨run₀, hrun₀, heq⟩ := Option.map_eq_some_iff.mp hfeed.symm
      obtain ⟨_, hstatus, hphase, _⟩ := Run.core_eq_iff.mp (Run.core_of_feed heq).1
      rw [← hphase] at hclosing hfinished
      rw [← hstatus]
      exact h.going r' run₀ hrun₀ hclosing hfinished
  · intro q sub' run₁ hsub' hrun₁
    rw [hfans.queues q] at hsub'
    split at hsub'
    · -- a queue of the drained run
      rename_i hq
      obtain ⟨sub, hsub, rfl⟩ := Option.map_eq_some_iff.mp hsub'
      obtain ⟨sub₀, hsub₀, hown⟩ := (hinv.runs r run hfans.before).owned q hq
      rw [hsub, Option.some.injEq] at hsub₀
      subst hsub₀
      simp only [hown, hfans.after, Option.some.injEq] at hrun₁
      subst hrun₁
      have htracks := h.tracks q sub run hsub (by rw [hown]; exact hfans.before)
      exact htracks.fan hfans.buffer hfans.subscribers hmove.unfinished hmove.sentinel
        hmove.settled
    · rename_i hq
      by_cases hown : sub'.run = r
      · -- a queue that is no longer registered
        rw [hown, hfans.after, Option.some.injEq] at hrun₁
        subst hrun₁
        have htracks := h.tracks q sub' run hsub' (by rw [hown]; exact hfans.before)
        have hclosed : sub'.phase = .closed := by
          by_contra hopen
          exact hq (htracks.listed hopen)
        obtain ⟨hgiven, hbound⟩ := htracks.given_append hfans.buffer
        exact Tracks.of_closed hclosed hgiven hbound
      · have hfeed := hfans.others sub'.run hown
        rw [hrun₁, Option.map_some] at hfeed
        obtain ⟨run₀, hrun₀, heq⟩ := Option.map_eq_some_iff.mp hfeed.symm
        obtain ⟨hcore, hsubs, _⟩ := Run.core_of_feed heq
        have htracks := h.tracks q sub' run₀ hsub' hrun₀
        exact htracks.of_core hcore.symm fun hmem => by rw [← hsubs]; exact hmem

/-- Moving one subscriber, to a state in which it still tracks its run. -/
theorem Follows.modifySub (hinv : Inv s) (h : Follows s) (hsub : s.subs q = some sub)
    (hrun : s.runs sub.run = some run) {f : Subscriber → Subscriber} (hown : (f sub).run = sub.run)
    (htracks : Tracks run q (f sub)) :
    Follows (s.modifySub q f) := by
  refine h.of_turn hinv (quiet_modifySub s q f) (fun q' hne => spares_modifySub s f hne) ?_
  intro sub' run' hsub' hrun'
  rw [modifySub_subs, if_pos rfl, hsub, Option.map_some, Option.some.injEq] at hsub'
  subst hsub'
  have hsame : s.runs sub.run = some run' := by
    rw [← hown]
    exact hrun'
  rw [hrun, Option.some.injEq] at hsame
  subst hsame
  exact htracks

theorem Follows.unsubscribe (hinv : Inv s) (h : Follows s) (hsub : s.subs q = some sub) :
    Follows (unsubscribe s q sub) := by
  obtain ⟨hquiet, hspares⟩ := unsubscribe_quiet s q sub
  refine h.of_turn hinv hquiet hspares ?_
  intro sub' run' hsub' hrun'
  rw [unsubscribe_sub hsub, Option.some.injEq] at hsub'
  subst hsub'
  obtain ⟨⟨run, hrun⟩, _⟩ := hinv.subs q sub hsub
  obtain ⟨run₁, hrun₁, hcore, _⟩ := hquiet.kept sub.run run hrun
  rw [hrun', Option.some.injEq] at hrun₁
  subst hrun₁
  have htracks := h.tracks q sub run hsub hrun
  have hbuffer := (Run.core_eq_iff.mp hcore).1
  refine Tracks.of_closed rfl ?_ ?_
  · rw [hbuffer]
    exact htracks.given
  · rw [hbuffer]
    exact htracks.bound

/-- What comes off the queue of a live subscriber is the next event of the buffer, or the
sentinel of a finished run. -/
theorem Queued.next {j : ℕ} {tail : List Item} (h : Queued run sub j tail)
    (hlive : sub.phase = .live) {item : Item} (hitem : sub.put[sub.taken]? = some item) :
    (item = none ∧ run.phase = .finished) ∨
      ∃ ev, run.buffer[j + sub.taken]? = some ev ∧ item = some (j + sub.taken, ev) := by
  obtain ⟨hread, _, _⟩ := h.live hlive
  rw [h.put] at hitem
  rcases Nat.lt_or_ge sub.taken (numbered j (run.buffer.drop j)).length with hlt | hge
  · rw [List.getElem?_append_left hlt, getElem?_numbered, List.getElem?_drop] at hitem
    obtain ⟨ev, hev, rfl⟩ := Option.map_eq_some_iff.mp hitem
    exact Or.inr ⟨ev, hev, rfl⟩
  · rw [List.getElem?_append_right hge] at hitem
    rcases h.sentinel with ht | ⟨ht, hfin⟩
    · rw [ht] at hitem
      cases hitem
    · rw [ht] at hitem
      have hnone := List.mem_singleton.mp (List.mem_of_getElem? hitem)
      exact Or.inl ⟨hnone, hfin⟩

theorem Tracks.yields {ev : String} (h : Tracks run q sub)
    (hphase : sub.phase = .replay ∨ sub.phase = .flush) (hev : run.buffer[sub.nextSeq]? = some ev) :
    Tracks run q { sub with nextSeq := sub.nextSeq + 1, yielded := sub.yielded ++ [ev] } := by
  obtain ⟨hlt, _⟩ := List.getElem?_eq_some_iff.mp hev
  have hopen : sub.phase ≠ .closed := by
    rcases hphase with hp | hp <;> simp [hp]
  refine ⟨?_, hlt, h.listed, ?_, h.flushed⟩
  · simp only [List.take_add_one, hev, h.given, Option.toList_some]
  · intro _
    obtain ⟨j, tail, hq⟩ := h.queued hopen
    refine ⟨j, tail, hq.joined, hq.put, hq.sentinel, hq.replay, ?_⟩
    intro hl
    have hnot : sub.phase ≠ .live := by
      rcases hphase with hp | hp <;> simp [hp]
    exact absurd hl hnot

/-- The subscriber leaves the replay with the whole buffer replayed, so every event that is
not on its queue was yielded. -/
theorem Tracks.goLive (h : Tracks run q sub) (hphase : sub.phase = .replay)
    (hend : run.buffer.length ≤ sub.nextSeq) (hgoing : run.phase ≠ .finished) :
    Tracks run q { sub with phase := .live } := by
  have hopen : sub.phase ≠ .closed := by simp [hphase]
  refine ⟨h.given, h.bound, fun _ => h.listed hopen, fun _ => ?_, fun hf => by cases hf⟩
  obtain ⟨j, tail, hq⟩ := h.queued hopen
  have hjoined := hq.joined
  have htaken := hq.replay hphase
  refine ⟨j, tail, hjoined, hq.put, hq.sentinel, fun hr => (by cases hr), fun _ => ?_⟩
  refine ⟨?_, ?_, fun hfin => absurd hfin hgoing⟩
  · simp only [htaken]
    omega
  · simp only [htaken]
    omega

/-- A subscriber after it took an item off its queue. -/
def received (item : Item) (sub : Subscriber) : Subscriber :=
  let sub := { sub with taken := sub.taken + 1 }
  match item with
  | none => { sub with phase := .flush }
  | some (seq, ev) =>
    if sub.nextSeq ≤ seq then
      { sub with nextSeq := seq + 1, yielded := sub.yielded ++ [ev] }
    else sub

theorem received_run (item : Item) (sub : Subscriber) : (received item sub).run = sub.run := by
  cases item with
  | none => rfl
  | some e =>
    simp only [received]
    split <;> rfl

/-- An item off the queue: the sentinel, an event already replayed, or the next one. -/
theorem Tracks.receive (h : Tracks run q sub) (hlive : sub.phase = .live)
    (hover : run.phase = .finished → run.status ≠ .running) {item : Item}
    (hitem : sub.put[sub.taken]? = some item) :
    Tracks run q (received item sub) := by
  have hopen : sub.phase ≠ .closed := by simp [hlive]
  have hnotflush : sub.phase ≠ .flush := by simp [hlive]
  obtain ⟨j, tail, hq⟩ := h.queued hopen
  obtain ⟨hread, hnext, htail⟩ := hq.live hlive
  rcases hq.next hlive hitem with ⟨rfl, hfin⟩ | ⟨ev, hev, rfl⟩
  · refine ⟨h.given, h.bound, fun _ => h.listed hopen, fun _ => ⟨j, tail, ?_⟩, fun _ => hover hfin⟩
    exact ⟨hq.joined, hq.put, hq.sentinel, fun hr => (by cases hr), fun hl => (by cases hl)⟩
  · obtain ⟨hlt, _⟩ := List.getElem?_eq_some_iff.mp hev
    have hreplay : sub.phase = .replay → sub.taken + 1 = 0 := by
      intro hr
      rw [hlive] at hr
      cases hr
    by_cases hseq : sub.nextSeq ≤ j + sub.taken
    · -- the next event: the one after those yielded
      have heq : sub.nextSeq = j + sub.taken := by omega
      rw [received, if_pos hseq]
      refine ⟨?_, hlt, fun _ => h.listed hopen, fun _ => ⟨j, tail, ?_⟩,
        fun hf => absurd hf hnotflush⟩
      · rw [List.take_add_one, hev, h.given, heq]
        rfl
      · refine ⟨hq.joined, hq.put, hq.sentinel, hreplay, fun _ => ⟨?_, ?_, htail⟩⟩
        · simp only
          omega
        · simp only
          omega
    · rw [received, if_neg hseq]
      refine ⟨h.given, h.bound, fun _ => h.listed hopen, fun _ => ⟨j, tail, ?_⟩,
        fun hf => absurd hf hnotflush⟩
      refine ⟨hq.joined, hq.put, hq.sentinel, hreplay, fun _ => ⟨?_, ?_, htail⟩⟩
      · simp only
        omega
      · simp only
        omega

section Moves

variable (hinv : Inv s) (h : Follows s)
include hinv h

theorem Follows.advance (hstep : advance s q = some s') :
    Follows s' := by
  obtain ⟨sub, run, hsub, hrun, hcases⟩ := advance_cases hstep
  have htracks := h.tracks q sub run hsub hrun
  have hover := (hinv.runs _ run hrun).finished
  rcases hcases with ⟨ev, hphase, hev, rfl⟩ | ⟨hphase, hend, hstatus, rfl⟩ |
    ⟨item, hphase, hitem, rfl⟩ | ⟨_, _, rfl⟩
  · exact h.modifySub hinv hsub hrun rfl (htracks.yields hphase hev)
  · exact h.modifySub hinv hsub hrun rfl
      (htracks.goLive hphase hend fun hfin => hover hfin hstatus)
  · exact h.modifySub hinv hsub hrun (received_run item sub)
      (htracks.receive hphase hover hitem)
  · exact h.unsubscribe hinv hsub

theorem Follows.timeout (hstep : timeout s q = some s') :
    Follows s' := by
  obtain ⟨sub, hsub, hphase, _, ⟨_, rfl⟩ | ⟨hstatus, rfl⟩⟩ := timeout_cases hstep
  · exact h
  obtain ⟨⟨run, hrun⟩, _⟩ := hinv.subs q sub hsub
  have htracks := h.tracks q sub run hsub hrun
  have hopen : sub.phase ≠ .closed := by simp [hphase]
  refine h.modifySub hinv hsub hrun rfl ?_
  refine ⟨htracks.given, htracks.bound, fun _ => htracks.listed hopen, fun _ => ?_, fun _ => ?_⟩
  · obtain ⟨j, tail, hq⟩ := htracks.queued hopen
    exact ⟨j, tail, hq.joined, hq.put, hq.sentinel, fun hr => (by cases hr),
      fun hl => (by cases hl)⟩
  · intro hrunning
    apply hstatus
    rw [hrun, Option.map_some, hrunning]

theorem Follows.subscribe (session : String) :
    Follows (subscribe s session) := by
  obtain ⟨hquiet, hspares⟩ := subscribe_quiet s session
  refine h.of_turn hinv hquiet hspares ?_
  intro sub run hsub hrun
  unfold AgentRuns.subscribe at hsub hrun
  split at hsub
  · rw [hinv.freshQueue s.nextQueue (Nat.le_refl _)] at hsub
    cases hsub
  rename_i r hreg
  obtain ⟨run₀, hrun₀, _⟩ := hinv.registered session r hreg
  simp only [hreg, modifyRun_nextQueue, Function.update_self, Option.some.injEq] at hsub hrun
  subst hsub
  rw [modifyRun_runs, if_pos rfl, hrun₀, Option.map_some, Option.some.injEq] at hrun
  subst hrun
  refine ⟨rfl, Nat.zero_le _, fun _ => List.mem_append_right _ (List.mem_singleton.mpr rfl), ?_,
    fun hf => (by cases hf)⟩
  -- registered at the end of the buffer, with nothing on the queue yet
  intro _
  refine ⟨run₀.buffer.length, [], Nat.le_refl _, ?_, Or.inl rfl, fun _ => rfl,
    fun hl => (by cases hl)⟩
  simp

end Moves

theorem follows_step {l : Label} (hinv : Inv s) (h : Follows s) (hok : insideTry s l = true)
    (hstep : step s l = some s') : Follows s' := by
  cases l with
  | start session =>
    cases hstep
    exact h.start hinv session
  | stop session =>
    cases hstep
    obtain ⟨hquiet, hspares⟩ := stop_quiet s session
    exact h.of_quiet hinv hquiet hspares
  | drain r o => exact h.drain hinv hok hstep
  | evict r =>
    obtain ⟨hquiet, hspares⟩ := evict_quiet hstep
    exact h.of_quiet hinv hquiet hspares
  | subscribe session =>
    cases hstep
    exact h.subscribe hinv session
  | advance q => exact h.advance hinv hstep
  | timeout q => exact h.timeout hinv hstep
  | leave q =>
    obtain ⟨sub, hsub, rfl⟩ := leave_eq hstep
    exact h.unsubscribe hinv hsub

/-! ## Termination -/

/-- The steps a subscriber of a finished run still has to take. -/
def work (run : Run) (sub : Subscriber) : ℕ :=
  if sub.phase = .closed then 0
  else (if sub.phase = .live then sub.put.length - sub.taken else 0) +
    (run.buffer.length - sub.nextSeq) + 1

/-- The work of one queue. -/
def workOf (s : State) (q : QueueId) : ℕ :=
  match s.subs q with
  | none => 0
  | some sub => ((s.runs sub.run).map fun run => work run sub).getD 0

theorem workOf_eq (hsub : s.subs q = some sub) (hrun : s.runs sub.run = some run) :
    workOf s q = work run sub := by
  simp only [workOf, hsub, hrun, Option.map_some, Option.getD_some]

theorem work_core {run' : Run} (hcore : run'.core = run.core) (sub : Subscriber) :
    work run' sub = work run sub := by
  rw [work, work, (Run.core_eq_iff.mp hcore).1]

/-- A subscriber of a run that is over. -/
def OnFinished (s : State) (q : QueueId) : Prop :=
  ∃ sub run, s.subs q = some sub ∧ s.runs sub.run = some run ∧ run.phase = .finished

/-- A step that spares a queue keeps its work, and its run over. -/
theorem OnFinished.of_spares (h : OnFinished s q) (hkeeps : Keeps s s') (hspares : Spares s s' q) :
    OnFinished s' q ∧ workOf s' q = workOf s q := by
  obtain ⟨sub, run, hsub, hrun, hfin⟩ := h
  obtain ⟨run', hrun', hcore, _⟩ := hkeeps sub.run run hrun
  have hsub' : s'.subs q = some sub := by rw [hspares.sub, hsub]
  have hphase := (Run.core_eq_iff.mp hcore).2.2.1
  refine ⟨⟨sub, run', hsub', hrun', hphase.trans hfin⟩, ?_⟩
  rw [workOf_eq hsub' hrun', workOf_eq hsub hrun, work_core hcore]

/-- A finished run is no drain task's any more. -/
theorem OnFinished.drain (hinv : Inv s) (h : OnFinished s q) {o : Outcome}
    (hok : insideTry s (.drain r o) = true) (hstep : drain s r o = some s') :
    OnFinished s' q ∧ workOf s' q = workOf s q := by
  obtain ⟨sub, run, hsub, hrun, hfin⟩ := h
  obtain ⟨run₀, run₀', events, tail, hmove, hfans⟩ := drain_fans hinv hok hstep
  have hne : sub.run ≠ r := by
    intro heq
    rw [heq, hfans.before, Option.some.injEq] at hrun
    subst hrun
    exact hmove.unfinished hfin
  have hfeed := hfans.others sub.run hne
  rw [hrun, Option.map_some] at hfeed
  obtain ⟨run', hrun', heq⟩ := Option.map_eq_some_iff.mp hfeed
  have hcore : run'.core = run.core := (Run.core_of_feed heq).1
  have hq : q ∉ run₀.subscribers := by
    intro hmem
    obtain ⟨sub', hsub', hown⟩ := (hinv.runs r run₀ hfans.before).owned q hmem
    rw [hsub, Option.some.injEq] at hsub'
    subst hsub'
    exact hne hown
  have hsub' : s'.subs q = some sub := by
    rw [hfans.queues q, if_neg hq, hsub]
  have hphase := (Run.core_eq_iff.mp hcore).2.2.1
  refine ⟨⟨sub, run', hsub', hrun', hphase.trans hfin⟩, ?_⟩
  rw [workOf_eq hsub' hrun', workOf_eq hsub hrun, work_core hcore]

theorem OnFinished.unsubscribe (hsub : s.subs q = some sub) (hrun : s.runs sub.run = some run)
    (hfin : run.phase = .finished) :
    OnFinished (AgentRuns.unsubscribe s q sub) q ∧
      workOf (AgentRuns.unsubscribe s q sub) q = 0 := by
  obtain ⟨hquiet, _⟩ := unsubscribe_quiet s q sub
  obtain ⟨run', hrun', hcore, _⟩ := hquiet.kept sub.run run hrun
  have hsub' := unsubscribe_sub hsub
  have hphase := (Run.core_eq_iff.mp hcore).2.2.1
  refine ⟨⟨_, run', hsub', hrun', hphase.trans hfin⟩, ?_⟩
  rw [workOf_eq hsub' hrun', work, if_pos rfl]

theorem OnFinished.modifySub (hsub : s.subs q = some sub) (hrun : s.runs sub.run = some run)
    (hfin : run.phase = .finished) {f : Subscriber → Subscriber} (hown : (f sub).run = sub.run)
    (hless : work run (f sub) + 1 ≤ work run sub) :
    OnFinished (s.modifySub q f) q ∧ workOf (s.modifySub q f) q + 1 ≤ workOf s q := by
  have hsub' : (s.modifySub q f).subs q = some (f sub) := by
    rw [modifySub_subs, if_pos rfl, hsub]
    rfl
  have hrun' : (s.modifySub q f).runs (f sub).run = some run := by
    rw [hown]
    exact hrun
  refine ⟨⟨f sub, run, hsub', hrun', hfin⟩, ?_⟩
  rw [workOf_eq hsub' hrun', workOf_eq hsub hrun]
  exact hless

/-- An item taken off the queue leaves less to do. -/
theorem work_received (hlive : sub.phase = .live) {item : Item}
    (hitem : sub.put[sub.taken]? = some item) :
    work run (received item sub) + 1 ≤ work run sub := by
  obtain ⟨hlt, _⟩ := List.getElem?_eq_some_iff.mp hitem
  have hbefore : work run sub = sub.put.length - sub.taken + (run.buffer.length - sub.nextSeq) + 1 := by
    simp [work, hlive]
  cases item with
  | none =>
    have hafter : work run (received none sub) = run.buffer.length - sub.nextSeq + 1 := by
      simp [work, received]
    omega
  | some e =>
    obtain ⟨seq, ev⟩ := e
    by_cases hseq : sub.nextSeq ≤ seq
    · have hafter : work run (received (some (seq, ev)) sub) =
          sub.put.length - (sub.taken + 1) + (run.buffer.length - (seq + 1)) + 1 := by
        simp [work, received, hseq, hlive]
      omega
    · have hafter : work run (received (some (seq, ev)) sub) =
          sub.put.length - (sub.taken + 1) + (run.buffer.length - sub.nextSeq) + 1 := by
        simp [work, received, hseq, hlive]
      omega

theorem work_pos (run : Run) (hopen : sub.phase ≠ .closed) :
    1 ≤ work run sub := by
  rw [work, if_neg hopen]
  omega

/-- Each step a subscriber of a finished run takes brings it nearer to its end. -/
theorem OnFinished.advance (hinv : Inv s) (h : OnFinished s q) (hstep : advance s q = some s') :
    OnFinished s' q ∧ workOf s' q + 1 ≤ workOf s q := by
  obtain ⟨sub₀, run₀, hsub₀, hrun₀, hfin⟩ := h
  obtain ⟨sub, run, hsub, hrun, hcases⟩ := advance_cases hstep
  rw [hsub, Option.some.injEq] at hsub₀
  subst hsub₀
  rw [hrun, Option.some.injEq] at hrun₀
  subst hrun₀
  have hover := (hinv.runs _ run hrun).finished hfin
  rcases hcases with ⟨ev, hphase, hev, rfl⟩ | ⟨_, _, hstatus, _⟩ | ⟨item, hphase, hitem, rfl⟩ |
    ⟨hphase, _, rfl⟩
  · refine OnFinished.modifySub hsub hrun hfin rfl ?_
    obtain ⟨hlt, _⟩ := List.getElem?_eq_some_iff.mp hev
    rcases hphase with hp | hp
    · simp only [work, hp]
      simp
      omega
    · simp only [work, hp]
      simp
      omega
  · exact absurd hstatus hover
  · exact OnFinished.modifySub hsub hrun hfin (received_run item sub)
      (work_received hphase hitem)
  · obtain ⟨hend, hzero⟩ := OnFinished.unsubscribe hsub hrun hfin
    have hopen : sub.phase ≠ .closed := by
      rcases hphase with ⟨hp, _⟩ | hp <;> simp [hp]
    have hpos := work_pos run hopen
    refine ⟨hend, ?_⟩
    rw [hzero, workOf_eq hsub hrun]
    exact hpos

/-- A live subscriber of a finished run has the sentinel still to take. -/
theorem Tracks.item_of_finished (h : Tracks run q sub) (hlive : sub.phase = .live)
    (hfin : run.phase = .finished) :
    ∃ item, sub.put[sub.taken]? = some item := by
  obtain ⟨j, tail, hq⟩ := h.queued (by simp [hlive])
  obtain ⟨hread, _, htail⟩ := hq.live hlive
  have hlen : sub.put.length = (run.buffer.length - j) + 1 := by
    rw [hq.put, htail hfin]
    simp
  have hlt : sub.taken < sub.put.length := by omega
  exact ⟨sub.put[sub.taken], List.getElem?_eq_getElem hlt⟩

theorem OnFinished.timeout_eq_none (hfollows : Follows s) (h : OnFinished s q) :
    timeout s q = none := by
  obtain ⟨sub, run, hsub, hrun, hfin⟩ := h
  cases hstep : timeout s q with
  | none => rfl
  | some s' =>
    obtain ⟨sub₀, hsub₀, hlive, hnone, _⟩ := timeout_cases hstep
    rw [hsub, Option.some.injEq] at hsub₀
    subst hsub₀
    obtain ⟨item, hitem⟩ := (hfollows.tracks q sub run hsub hrun).item_of_finished hlive hfin
    rw [hnone] at hitem
    cases hitem

theorem OnFinished.closed_or_advances (hfollows : Follows s) (h : OnFinished s q) :
    Closed s q ∨ (AgentRuns.advance s q).isSome := by
  obtain ⟨sub, run, hsub, hrun, hfin⟩ := h
  simp only [AgentRuns.advance, hsub, hrun]
  cases hphase : sub.phase with
  | closed => exact Or.inl ⟨sub, hsub, hphase⟩
  | replay =>
    right
    simp only
    split
    · rfl
    · split <;> rfl
  | live =>
    right
    obtain ⟨item, hitem⟩ := (hfollows.tracks q sub run hsub hrun).item_of_finished hphase hfin
    simp [hitem]
  | flush =>
    right
    simp only
    split <;> rfl

theorem OnFinished.step {l : Label} (hinv : Inv s) (hfollows : Follows s) (h : OnFinished s q)
    (hok : insideTry s l = true) (hstep : step s l = some s') :
    OnFinished s' q ∧ workOf s' q + (if ownStep q l then 1 else 0) ≤ workOf s q := by
  by_cases hdrain : ∃ r o, l = .drain r o
  · obtain ⟨r, o, rfl⟩ := hdrain
    obtain ⟨hend, heq⟩ := h.drain hinv hok hstep
    exact ⟨hend, by simp [ownStep, heq]⟩
  · have hnot : ∀ r o, l ≠ .drain r o := fun r o heq => hdrain ⟨r, o, heq⟩
    have hkeeps := step_keeps (hinv.freshRun s.nextRun (Nat.le_refl _)) hnot hstep
    have hexists : (s.subs q).isSome := by
      obtain ⟨sub, _, hsub, _⟩ := h
      rw [hsub]
      rfl
    cases hown : ownStep q l with
    | false =>
      simp only [Bool.false_eq_true, if_false, Nat.add_zero]
      by_cases hleave : l = .leave q
      · subst hleave
        obtain ⟨sub, hsub, rfl⟩ := leave_eq hstep
        obtain ⟨sub₀, run, hsub₀, hrun, hfin⟩ := h
        rw [hsub, Option.some.injEq] at hsub₀
        subst hsub₀
        obtain ⟨hend, hzero⟩ := OnFinished.unsubscribe hsub hrun hfin
        exact ⟨hend, by omega⟩
      · have hspares := step_spares hinv hnot hstep hexists hown hleave
        obtain ⟨hend, heq⟩ := h.of_spares hkeeps hspares
        exact ⟨hend, Nat.le_of_eq heq⟩
    | true =>
      simp only [if_true]
      have hcases : l = .advance q ∨ l = .timeout q := by simpa [ownStep] using hown
      rcases hcases with rfl | rfl
      · exact h.advance hinv hstep
      · have hnone := h.timeout_eq_none hfollows
        have hsome : timeout s q = some s' := hstep
        rw [hnone] at hsome
        cases hsome

theorem closed_of_workOf (h : OnFinished s q) (hwork : workOf s q = 0) :
    Closed s q := by
  obtain ⟨sub, run, hsub, hrun, _⟩ := h
  rw [workOf_eq hsub hrun] at hwork
  refine ⟨sub, hsub, ?_⟩
  by_contra hopen
  have hpos := work_pos run hopen
  omega

theorem terminates_of_finished (hinv : Inv s) (hfollows : Follows s) (h : OnFinished s q) :
    Terminates (fun s l => insideTry s l = true) s q where
  moves := by
    rcases h.closed_or_advances hfollows with hclosed | hsome
    · exact Or.inl hclosed
    · exact Or.inr ⟨.advance q, by simp [ownStep], hsome⟩
  bounded := by
    refine ⟨workOf s q, ?_⟩
    intro labels s' hexec hcount
    have hrule := TransitionSystem.exec_measure
      (fun s => Inv s ∧ Follows s ∧ OnFinished s q) (fun s => workOf s q) (ownStep q)
      (fun s l s' hI hok hstep => ⟨inv_step s l s' hI.1 hok hstep,
        follows_step hI.1 hI.2.1 hok hstep, (hI.2.2.step hI.1 hI.2.1 hok hstep).1⟩)
      (fun s l s' hI hok hstep => (hI.2.2.step hI.1 hI.2.1 hok hstep).2)
      hexec ⟨hinv, hfollows, h⟩
    obtain ⟨⟨_, _, hend⟩, hmeasure⟩ := hrule
    exact closed_of_workOf hend (by omega)

/-! ## Runs -/

section Runs

variable (hinv : Inv s) (hfollows : Follows s)
include hinv hfollows

/-- Nothing is published on a run whose status is no longer `running`. -/
theorem buffer_step {l : Label} (hok : insideTry s l = true) (hstep : step s l = some s')
    (hrun : s.runs r = some run) (hover : run.status ≠ .running) :
    ∃ run', s'.runs r = some run' ∧ run'.status ≠ .running ∧ run'.buffer = run.buffer := by
  by_cases hdrain : ∃ r o, l = .drain r o
  · obtain ⟨r₀, o, rfl⟩ := hdrain
    obtain ⟨run₀, run₀', events, tail, hmove, hfans⟩ := drain_fans hinv hok hstep
    by_cases hr : r = r₀
    · subst hr
      rw [hfans.before, Option.some.injEq] at hrun
      subst hrun
      refine ⟨run₀', hfans.after, hmove.settled hover, ?_⟩
      rcases hmove.publishing with hnone | hpulling
      · rw [hfans.buffer, hnone, List.append_nil]
      · have hgoing := hfollows.going r run₀ hfans.before (by simp [hpulling]) (by simp [hpulling])
        exact absurd hgoing hover
    · have hfeed := hfans.others r hr
      rw [hrun, Option.map_some] at hfeed
      obtain ⟨run', hrun', heq⟩ := Option.map_eq_some_iff.mp hfeed
      obtain ⟨hbuffer, hstatus, _⟩ := Run.core_eq_iff.mp (Run.core_of_feed heq).1
      exact ⟨run', hrun', by rw [hstatus]; exact hover, hbuffer⟩
  · have hnot : ∀ r o, l ≠ .drain r o := fun r o heq => hdrain ⟨r, o, heq⟩
    have hkeeps := step_keeps (hinv.freshRun s.nextRun (Nat.le_refl _)) hnot hstep
    obtain ⟨run', hrun', hcore, _⟩ := hkeeps r run hrun
    obtain ⟨hbuffer, hstatus, _⟩ := Run.core_eq_iff.mp hcore
    exact ⟨run', hrun', by rw [hstatus]; exact hover, hbuffer⟩

theorem buffer_run (hsteps : system.RunWhere (fun s l => insideTry s l = true) s s')
    (hrun : s.runs r = some run) (hover : run.status ≠ .running) :
    ∃ run', s'.runs r = some run' ∧ run'.buffer = run.buffer := by
  have hall := hsteps.preserves
    (I := fun s => Inv s ∧ Follows s ∧ ∃ run', s.runs r = some run' ∧ run'.status ≠ .running ∧
      run'.buffer = run.buffer)
    (fun s l s' hI hok hstep => by
      obtain ⟨hinv, hfollows, run₁, hrun₁, hover₁, hbuffer₁⟩ := hI
      obtain ⟨run₂, hrun₂, hover₂, hbuffer₂⟩ := buffer_step hinv hfollows hok hstep hrun₁ hover₁
      exact ⟨inv_step s l s' hinv hok hstep, follows_step hinv hfollows hok hstep, run₂, hrun₂,
        hover₂, hbuffer₂.trans hbuffer₁⟩)
    ⟨hinv, hfollows, run, hrun, hover, rfl⟩
  obtain ⟨_, _, run', hrun', _, hbuffer⟩ := hall
  exact ⟨run', hrun', hbuffer⟩

end Runs

/-- A generator that returns by itself is at the end of the buffer of a run that is over. -/
theorem Follows.whole (h : Follows s) (hsub : s.subs q = some sub)
    (hrun : s.runs sub.run = some run) (hstep : AgentRuns.advance s q = some s')
    (hclosed : Closed s' q) :
    run.status ≠ .running ∧ sub.yielded = run.buffer := by
  have htracks := h.tracks q sub run hsub hrun
  obtain ⟨sub', hsub', hphase'⟩ := hclosed
  obtain ⟨sub₀, run₀, hsub₀, hrun₀, hcases⟩ := advance_cases hstep
  rw [hsub, Option.some.injEq] at hsub₀
  subst hsub₀
  rw [hrun, Option.some.injEq] at hrun₀
  subst hrun₀
  have hmodify : ∀ f, (s.modifySub q f).subs q = some sub' → sub' = f sub := by
    intro f hf
    rw [modifySub_subs, if_pos rfl, hsub, Option.map_some, Option.some.injEq] at hf
    exact hf.symm
  rcases hcases with ⟨ev, hphase, _, rfl⟩ | ⟨_, _, _, rfl⟩ | ⟨item, hphase, _, rfl⟩ |
    ⟨hphase, hend, _⟩
  · have heq := hmodify _ hsub'
    rw [heq] at hphase'
    rcases hphase with hp | hp <;>
      · simp only at hphase'
        rw [hp] at hphase'
        cases hphase'
  · have heq := hmodify _ hsub'
    rw [heq] at hphase'
    cases hphase'
  · have heq := hmodify _ hsub'
    rw [heq] at hphase'
    cases item with
    | none => cases hphase'
    | some e =>
      simp only at hphase'
      split at hphase' <;>
        · simp only at hphase'
          rw [hphase] at hphase'
          cases hphase'
  · have hover : run.status ≠ .running := by
      rcases hphase with ⟨_, hstatus⟩ | hflush
      · exact hstatus
      · exact htracks.flushed hflush
    refine ⟨hover, ?_⟩
    rw [htracks.given, List.take_of_length_le hend]

/-- In every run in which cancellations reach drain tasks inside their `try` block only, each
subscriber is given the buffer of its run, in order, and ends after the last event. -/
theorem delivers_of_insideTry (s : State)
    (h : system.ReachableWhere (fun s l => insideTry s l = true) s) :
    Delivers (fun s l => insideTry s l = true) s := by
  have hboth : Inv s ∧ Follows s := h.invariant (I := fun s => Inv s ∧ Follows s)
    (fun s hs => by cases hs; exact ⟨inv_empty, follows_empty⟩)
    (fun s l s' hI hok hstep =>
      ⟨inv_step s l s' hI.1 hok hstep, follows_step hI.1 hI.2 hok hstep⟩)
  obtain ⟨hinv, hfollows⟩ := hboth
  refine ⟨?_, ?_, ?_, ?_⟩
  · intro q sub run hsub hrun
    rw [(hfollows.tracks q sub run hsub hrun).given]
    exact List.take_prefix _ _
  · intro q sub run s' hsub hrun hstep hclosed
    exact hfollows.whole hsub hrun hstep hclosed
  · intro r run hrun hover s' run' hsteps hrun'
    obtain ⟨run₁, hrun₁, hbuffer⟩ := buffer_run hinv hfollows hsteps hrun hover
    rw [hrun', Option.some.injEq] at hrun₁
    subst hrun₁
    exact hbuffer
  · intro q sub run hsub hrun hfin
    exact terminates_of_finished hinv hfollows ⟨sub, run, hsub, hrun, hfin⟩

/-- A subscriber that joins in mid-run, a second one that joins after it, and the end. -/
def twoReaders : List Label :=
  [.start "s", .drain 0 .ends, .drain 0 (.yields "a"), .subscribe "s", .advance 0,
    .drain 0 (.yields "b"), .subscribe "s", .advance 0, .advance 0, .drain 0 (.yields "c"),
    .advance 1, .drain 0 .ends, .advance 0, .advance 0, .advance 0, .advance 0]

/-- What the first two queues have been given. -/
def givenTo (s : State) : Option (List String × ReaderPhase) × Option (List String × ReaderPhase) :=
  ((s.subs 0).map fun sub => (sub.yielded, sub.phase),
    (s.subs 1).map fun sub => (sub.yielded, sub.phase))

/-- The first reader of `twoReaders` has been given everything, the second is on its way. -/
theorem delivers_twoReaders : ∃ s,
    givenTo s = (some (["a", "b", "c"], .closed), some (["a"], .replay)) ∧
      Delivers (fun s l => insideTry s l = true) s := by
  obtain ⟨s, hreach, hview⟩ := system.exists_reachableWhere_of_exec
    (fun s l => insideTry s l = true) givenTo twoReaders
    (v := (some (["a", "b", "c"], .closed), some (["a"], .replay))) rfl (by decide)
  exact ⟨s, hview, delivers_of_insideTry s hreach⟩

/-- The subscriber of a run stopped before the first step of its drain task. -/
def waitsForEver (s : State) :
    Option (RunId × ReaderPhase × ℕ × ℕ) × Option (RunStatus × DrainPhase) :=
  ((s.subs 0).map fun sub => (sub.run, sub.phase, sub.put.length, sub.taken),
    (s.runs 0).map fun run => (run.status, run.phase))

/-- It is sent heartbeats for ever, though the drain task is over. -/
theorem not_delivers_stoppedEarly :
    ¬ ∀ s, system.Reachable s → Delivers TransitionSystem.anyStep s := by
  intro hall
  obtain ⟨s, hreach, hview⟩ := system.exists_reachableWhere_of_exec TransitionSystem.anyStep
    waitsForEver (stoppedEarly ++ [.advance 0])
    (v := (some (0, .live, 0, 0), some (.running, .finished))) rfl (by decide)
  simp only [waitsForEver, Prod.mk.injEq, Option.map_eq_some_iff] at hview
  obtain ⟨⟨sub, hsub, hown, hphase, hput, htaken⟩, run, hrun, hstatus, hfin⟩ := hview
  have hstay : step s (.timeout 0) = some s := by
    have hempty : sub.put = [] := List.eq_nil_of_length_eq_zero hput
    simp [step, timeout, hsub, hown, hphase, hempty, hrun, hstatus]
  obtain ⟨n, hbound⟩ :=
    ((hall s hreach).ends 0 sub run hsub (by rw [hown]; exact hrun) hfin).bounded
  have hexec : system.exec TransitionSystem.anyStep s (List.replicate n (.timeout 0)) = some s := by
    clear hbound
    induction n with
    | zero => rfl
    | succ n ih =>
      rw [List.replicate_succ, TransitionSystem.exec_cons]
      exact (if_pos trivial).trans (Option.bind_eq_some_iff.mpr ⟨s, hstay, ih⟩)
  have hcount : n ≤ (List.replicate n (Label.timeout 0)).countP (ownStep 0) := by
    simp [List.countP_replicate, ownStep]
  obtain ⟨sub', hsub', hclosed⟩ := hbound _ s hexec hcount
  rw [hsub, Option.some.injEq] at hsub'
  subst hsub'
  rw [hphase] at hclosed
  cases hclosed

end Pandamonium.AgentRuns
