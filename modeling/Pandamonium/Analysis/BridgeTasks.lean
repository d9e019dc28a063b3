import Pandamonium.Model.CodexBridge

/-!
# What a task of the bridge keeps

Where no step reopens a task that is over and no event but a terminal one comes to it, the log of a
task is events that end nothing, followed by a terminal event once the status is terminal, and
nothing changes after that.  A stream has then sent a prefix of the events from its start, and all
of them when it is ended.
-/

set_option autoImplicit false

namespace Pandamonium.CodexBridge

open Pandamonium.Library

variable {d d' : Data} {s s' : Store} {w w' : Serving Store Frame}

/-- The log ends with a terminal event. -/
def EndsTerminal (events : List Event) : Prop :=
  ∃ before last, events = before ++ [last] ∧ last.type.terminal = true

/-- No event but the last one is terminal, and the last one is exactly when the status is. -/
structure Closed (d : Data) : Prop where
  ended : d.status.terminal = true → ∃ before last, d.events = before ++ [last] ∧
    last.type.terminal = true ∧ ∀ e ∈ before, e.type.terminal = false
  goingOn : d.status.terminal = false → ∀ e ∈ d.events, e.type.terminal = false

/-- A stream has sent the events from its start, in order and each once, up to some event, and all
of them when it was ended; and its next turn sends all that remain, and ends it exactly when the
task is over. -/
structure Delivered (d : Data) (r : Reader) : Prop where
  inOrder : r.sent <+: d.events.drop r.start.toNat
  ended : r.ended = true → d.status.terminal = true ∧ r.sent = d.events.drop r.start.toNat
  polled : ∃ r', r.poll d = some r' ∧ r'.sent = d.events.drop r.start.toNat ∧
    (r'.ended = true ↔ d.status.terminal = true)

/-- Of a task and of the same task later: what is over stays as it is, the log is closed, and every
stream is delivered. -/
structure Orderly (s s' : Store) : Prop where
  settled : s.data.status.terminal = true →
    s'.data.status = s.data.status ∧ s'.data.events = s.data.events
  closed : Closed s'.data
  delivered : ∀ reader r, s'.readers.get? reader = some r → Delivered s'.data r

/-- The task is not reopened by the effect, gets no event that does not end it once it is over, and
no stream begins before its first event. -/
def harmless (s : Store) : Effect → Bool
  | .appends _ type _ _ => type.terminal || !s.data.status.terminal
  | .runs => !s.data.status.terminal
  | .opens _ r => decide (0 ≤ r.start)
  | _ => true

/-- The step does nothing harmful. -/
def spares (s : Store) (frame : Frame) (o : Occurrence) : Prop :=
  ∀ after ∈ act s frame o, harmless s after.1 = true

instance (s : Store) (frame : Frame) (o : Occurrence) : Decidable (spares s frame o) :=
  inferInstanceAs (Decidable (∀ after ∈ act s frame o, harmless s after.1 = true))

/-! ## Events -/

/-- An event on a task that is over, where it ends it again, changes nothing. -/
theorem event_of_over {eventId text : String} {type : EventType}
    (hover : d.status.terminal = true) (htype : type.terminal = true) :
    d.event eventId type text = d := if_pos ⟨hover, htype⟩

theorem event_of_goingOn {eventId text : String} {type : EventType}
    (hover : d.status.terminal = false) :
    d.event eventId type text =
      { status := type.statusAfter d.status
        result := if type = .result then some text else d.result
        error := if type = .error then some text else d.error
        events := d.events ++
          [⟨d.events.length, eventId, type, String.ofList (text.toList.take 12000)⟩] } :=
  if_neg fun h => Bool.false_ne_true (hover.symm.trans h.1)

/-- An event that is terminal makes the status so, and no other does. -/
theorem terminal_statusAfter (type : EventType) {status : Status}
    (h : status.terminal = false) : (type.statusAfter status).terminal = type.terminal := by
  cases type with
  | accepted => exact h
  | progress => exact h
  | toolActivity => exact h
  | artifact => exact h
  | question => rfl
  | result => rfl
  | error => rfl
  | cancelled => rfl

theorem Closed.event (h : Closed d) {eventId text : String} {type : EventType}
    (hharmless : type.terminal = true ∨ d.status.terminal = false) :
    Closed (d.event eventId type text) := by
  cases hover : d.status.terminal with
  | true =>
    rw [event_of_over hover (hharmless.resolve_right fun h => by rw [hover] at h; cases h)]
    exact h
  | false =>
    rw [event_of_goingOn hover]
    have hbefore := h.goingOn hover
    refine ⟨fun hterminal => ?_, fun hterminal => ?_⟩
    · have htype : type.terminal = true := (terminal_statusAfter type hover).symm.trans hterminal
      exact ⟨d.events, _, rfl, htype, hbefore⟩
    · have htype : type.terminal = false := (terminal_statusAfter type hover).symm.trans hterminal
      intro e he
      rcases List.mem_append.mp he with he | he
      · exact hbefore e he
      · obtain rfl := List.mem_singleton.mp he
        exact htype

/-- The log is what it was, or one event longer and the task was going on. -/
theorem events_event {eventId text : String} {type : EventType}
    (hharmless : type.terminal = true ∨ d.status.terminal = false) :
    d.event eventId type text = d ∨
    d.status.terminal = false ∧ ∃ e, (d.event eventId type text).events = d.events ++ [e] := by
  cases hover : d.status.terminal with
  | true =>
    exact .inl (event_of_over hover
      (hharmless.resolve_right fun h => by rw [hover] at h; cases h))
  | false =>
    rw [event_of_goingOn hover]
    exact .inr ⟨rfl, _, rfl⟩

/-! ## Streams -/

/-- A stream that began at an event has sent so many from there on. -/
structure Reads (d : Data) (r : Reader) (first count : ℕ) : Prop where
  start : r.start = first
  next : r.next = first + count
  sent : r.sent = (d.events.drop first).take count
  within : count = 0 ∨ first + count ≤ d.events.length
  ended : r.ended = true → d.status.terminal = true ∧ d.events.length ≤ first + count

variable {r r' : Reader} {first count : ℕ}

theorem reads_opened {after : Int} (h : after + 1 = first) : Reads d (.opened after) first 0 where
  start := h
  next := by
    show after + 1 = _
    omega
  sent := rfl
  within := .inl rfl
  ended := nofun

section Reading

variable (h : Reads d r first count)
include h

theorem Reads.unsent :
    unsent d.events r.next = some (d.events.drop (first + count)) := by
  have hnext : r.next.toNat = first + count := by rw [h.next]; omega
  rw [CodexBridge.unsent, if_pos (by rw [h.next]; omega), hnext]

/-- What was sent with what remains is everything from the start. -/
theorem Reads.sent_append :
    r.sent ++ d.events.drop (first + count) = d.events.drop first := by
  rw [h.sent, ← List.drop_drop, List.take_append_drop]

theorem Reads.poll (hr : r.poll d = some r') :
    ∃ count', Reads d r' first count' := by
  rw [Reader.poll, h.unsent, Option.map_some] at hr
  obtain rfl := Option.some.inj hr
  have hsent := h.sent_append
  rcases Nat.le_total d.events.length (first + count) with hle | hle
  · -- there is nothing to send
    have hnone : d.events.drop (first + count) = [] := List.drop_eq_nil_of_le hle
    refine ⟨count, h.start, ?_, ?_, h.within, fun hended => ⟨hended, hle⟩⟩
    · show max r.next _ = _
      rw [h.next]
      omega
    · show r.sent ++ _ = _
      rw [hnone, List.append_nil, h.sent]
  · have hwithin : first ≤ d.events.length := by omega
    refine ⟨d.events.length - first, h.start, ?_, ?_, .inr (by omega),
      fun hended => ⟨hended, by omega⟩⟩
    · show max r.next (d.events.length : Int) = first + (d.events.length - first : ℕ)
      rw [h.next]
      omega
    · show r.sent ++ _ = _
      rw [hsent, List.take_of_length_le]
      exact Nat.le_of_eq List.length_drop

theorem Reads.cutOff (n : ℕ) :
    ∃ count', Reads d (r.cutOff d n) first count' := by
  have hlength : ((d.events.drop (first + count)).take n).length ≤
      d.events.length - (first + count) := by
    rw [List.length_take, List.length_drop]
    omega
  refine ⟨count + ((d.events.drop (first + count)).take n).length, ?_, ?_, ?_, ?_, ?_⟩
  · exact h.start
  · rw [Reader.cutOff, h.unsent]
    show r.next + _ = _
    rw [h.next, Option.getD_some]
    omega
  · rw [Reader.cutOff, h.unsent]
    show r.sent ++ _ = _
    rw [h.sent, Option.getD_some, List.take_add, List.drop_drop]
    congr 1
    rw [List.length_take, ← List.take_eq_take_min]
  · have hwithin := h.within
    omega
  · intro hended
    obtain ⟨hover, hle⟩ := h.ended hended
    exact ⟨hover, by omega⟩

/-- An event is appended to a task that goes on. -/
theorem Reads.append {e : Event} (hover : d.status.terminal = false)
    (hevents : d'.events = d.events ++ [e]) : Reads d' r first count where
  start := h.start
  next := h.next
  sent := by
    rw [h.sent, hevents]
    rcases h.within with rfl | hwithin
    · rfl
    · rw [List.drop_append_of_le_length (by omega), List.take_append_of_le_length]
      rw [List.length_drop]
      omega
  within := by
    rw [hevents, List.length_append]
    exact h.within.imp id fun hwithin => Nat.le_add_right_of_le hwithin
  ended := by
    intro hended
    rw [(h.ended hended).1] at hover
    cases hover

/-- The status of a task that goes on is changed. -/
theorem Reads.congr (hover : d.status.terminal = false) (hevents : d'.events = d.events) :
    Reads d' r first count where
  start := h.start
  next := h.next
  sent := by rw [hevents, h.sent]
  within := by rw [hevents]; exact h.within
  ended := by
    intro hended
    rw [(h.ended hended).1] at hover
    cases hover

theorem Reads.delivered : Delivered d r := by
  have hstart : r.start.toNat = first := by rw [h.start]; omega
  refine ⟨?_, ?_, ?_⟩
  · rw [hstart, h.sent]
    exact List.take_prefix _ _
  · intro hended
    obtain ⟨hover, hle⟩ := h.ended hended
    have hall := h.sent_append
    rw [List.drop_eq_nil_of_le hle, List.append_nil] at hall
    exact ⟨hover, by rw [hstart, hall]⟩
  · refine ⟨_, by rw [Reader.poll, h.unsent, Option.map_some], ?_, Iff.rfl⟩
    rw [hstart]
    exact h.sent_append

end Reading

/-! ## Steps -/

/-- Where the streams that a step opens or sends on come from. -/
def Arises (s : Store) : Effect → Prop
  | .opens _ r => ∃ after, r = .opened after
  | .sends reader r => ∃ r₀, s.readers.get? reader = some r₀ ∧
      (r₀.poll s.data = some r ∨ ∃ n, r = r₀.cutOff s.data n)
  | _ => True

variable {effect : Effect}

/-- The runner opens no stream and sends on none. -/
theorem arises_runnerStep {place : Place} {o : Occurrence} {next : Option Frame}
    (h : runnerStep s place o = some (effect, next)) : Arises s effect := by
  have hasks : ∀ message : Message, Arises s (if message.asks then .asks else .nothing) := by
    intro message
    split
    · exact trivial
    · exact trivial
  unfold runnerStep at h
  split at h
  case h_2 message => exact (Prod.mk.inj (Option.some.inj h)).1 ▸ hasks message
  case h_6 message => exact (Prod.mk.inj (Option.some.inj h)).1 ▸ hasks message
  case h_4 =>
    split at h
    · exact (Prod.mk.inj (Option.some.inj h)).1 ▸ trivial
    · exact (Prod.mk.inj (Option.some.inj h)).1 ▸ trivial
  case h_10 =>
    split at h
    · exact (Prod.mk.inj (Option.some.inj h)).1 ▸ trivial
    · exact (Prod.mk.inj (Option.some.inj h)).1 ▸ trivial
  case h_13 => cases h
  all_goals exact (Prod.mk.inj (Option.some.inj h)).1 ▸ trivial

theorem arises_act {frame : Frame} {o : Occurrence} {next : Option Frame}
    (h : act s frame o = some (effect, next)) : Arises s effect := by
  unfold act at h
  split at h
  case h_1 =>
    obtain ⟨-, h⟩ := Option.ite_none_left_eq_some.mp h
    exact (Prod.mk.inj (Option.some.inj h)).1 ▸ trivial
  case h_2 => exact arises_runnerStep h
  case h_14 saves =>
    obtain ⟨rfl, -⟩ := Prod.mk.inj (Option.some.inj h)
    split
    · exact trivial
    · exact trivial
  case h_16 after lastEventId reader =>
    obtain ⟨-, h⟩ := Option.ite_none_left_eq_some.mp h
    obtain ⟨rfl, -⟩ := Prod.mk.inj (Option.some.inj h)
    exact ⟨_, rfl⟩
  case h_17 reader _ _ =>
    obtain ⟨r, hr, h⟩ := Option.map_eq_some_iff.mp h
    cases hpoll : r.poll s.data with
    | none =>
      rw [hpoll] at h
      exact (Prod.mk.inj h).1 ▸ trivial
    | some r' =>
      rw [hpoll] at h
      obtain ⟨rfl, -⟩ := Prod.mk.inj h
      exact ⟨r, hr, .inl hpoll⟩
  case h_18 reader n =>
    obtain ⟨r, hr, h⟩ := Option.map_eq_some_iff.mp h
    obtain ⟨rfl, -⟩ := Prod.mk.inj h
    exact ⟨r, hr, .inr ⟨n, rfl⟩⟩
  case h_19 => cases h
  all_goals exact (Prod.mk.inj (Option.some.inj h)).1 ▸ trivial

/-- The log is closed, and every stream has sent what lies between its start and its position. -/
structure Good (s : Store) : Prop where
  closed : Closed s.data
  reads : ∀ reader r, s.readers.get? reader = some r → ∃ first count, Reads s.data r first count

/-- What an effect does to the task is nothing, or a task that goes on gets an event or another
status. -/
theorem data_apply (hharmless : harmless s effect = true) :
    (effect.apply s).data = s.data ∨
    s.data.status.terminal = false ∧
      ((effect.apply s).data.events = s.data.events ∨
        ∃ e, (effect.apply s).data.events = s.data.events ++ [e]) := by
  cases effect with
  | appends eventId type text saved =>
    have hboth : type.terminal = true ∨ s.data.status.terminal = false := by
      simpa [harmless] using hharmless
    exact (events_event hboth).imp id fun h => ⟨h.1, .inr h.2⟩
  | runs => exact .inr ⟨by simpa [harmless] using hharmless, .inl rfl⟩
  | nothing => exact .inl rfl
  | starts thread => exact .inl rfl
  | saves => exact .inl rfl
  | asks => exact .inl rfl
  | answers => exact .inl rfl
  | opens reader r => exact .inl rfl
  | sends reader r => exact .inl rfl

theorem closed_apply (h : Closed s.data) (hharmless : harmless s effect = true) :
    Closed (effect.apply s).data := by
  cases effect with
  | appends eventId type text saved => exact h.event (by simpa [harmless] using hharmless)
  | runs =>
    have hover : s.data.status.terminal = false := by simpa [harmless] using hharmless
    exact ⟨nofun, fun _ => h.goingOn hover⟩
  | nothing => exact h
  | starts thread => exact h
  | saves => exact h
  | asks => exact h
  | answers => exact h
  | opens reader r => exact h
  | sends reader r => exact h

theorem reads_apply (hharmless : harmless s effect = true) {r : Reader}
    (h : ∃ first count, Reads s.data r first count) :
    ∃ first count, Reads (effect.apply s).data r first count := by
  obtain ⟨first, count, h⟩ := h
  rcases data_apply hharmless with hdata | ⟨hover, hevents | ⟨e, hevents⟩⟩
  · exact ⟨first, count, hdata ▸ h⟩
  · exact ⟨first, count, h.congr hover hevents⟩
  · exact ⟨first, count, h.append hover hevents⟩

/-- A step that does nothing harmful keeps the task good. -/
theorem Good.apply (h : Good s) (hharmless : harmless s effect = true) (harises : Arises s effect) :
    Good (effect.apply s) where
  closed := closed_apply h.closed hharmless
  reads := by
    intro reader r hr
    refine reads_apply hharmless ?_
    cases effect with
    | opens opened r' =>
      obtain ⟨after, rfl⟩ := harises
      simp only [Effect.apply, Dict.get?_set] at hr
      split at hr
      · obtain rfl := Option.some.inj hr
        have hstart : 0 ≤ after + 1 := of_decide_eq_true hharmless
        exact ⟨(after + 1).toNat, 0, reads_opened (by omega)⟩
      · exact h.reads reader r hr
    | sends sent r' =>
      obtain ⟨r₀, hr₀, hsent⟩ := harises
      obtain ⟨first, count, hreads⟩ := h.reads sent r₀ hr₀
      simp only [Effect.apply, Dict.get?_set] at hr
      split at hr
      · obtain rfl := Option.some.inj hr
        rcases hsent with hpoll | ⟨n, rfl⟩
        · exact ⟨first, hreads.poll hpoll⟩
        · exact ⟨first, hreads.cutOff n⟩
      · exact h.reads reader r hr
    | nothing => exact h.reads reader r hr
    | starts thread => exact h.reads reader r hr
    | saves => exact h.reads reader r hr
    | appends eventId type text saved => exact h.reads reader r hr
    | runs => exact h.reads reader r hr
    | asks => exact h.reads reader r hr
    | answers => exact h.reads reader r hr

/-! ## Runs -/

theorem closed_queued : Closed ⟨.queued, none, none, []⟩ where
  ended := fun h => absurd h Bool.false_ne_true
  goingOn := fun _ _ he => absurd he List.not_mem_nil

theorem good_new (h : new s) : Good s := by
  obtain ⟨eventId, text, rfl⟩ := h
  exact {
    closed := closed_queued.event (.inr rfl)
    reads := fun _ _ h => absurd h.symm (Option.some_ne_none _) }

theorem advance_cases {frame : Frame} {o : Occurrence} {next : Option Frame}
    (hspares : spares s frame o) (h : service.advance s frame o = some (s', next)) :
    ∃ effect, s' = effect.apply s ∧ harmless s effect = true ∧ Arises s effect := by
  obtain ⟨⟨effect, next'⟩, hact, heq⟩ := Option.map_eq_some_iff.mp h
  obtain ⟨rfl, -⟩ := Prod.mk.inj heq
  exact ⟨effect, rfl, hspares _ hact, arises_act hact⟩

theorem good_of_spares
    (hw : (service.system new).ReachableWhere (Service.under spares) w) : Good w.store := by
  refine (Service.invariant (I := Good) (J := fun _ _ => True) (fun _ => good_new)
    (fun _ _ _ _ => trivial) ?_ hw).store
  intro s frame o s' next hgood _ hspares h
  obtain ⟨effect, rfl, hharmless, harises⟩ := advance_cases hspares h
  exact ⟨hgood.apply hharmless harises, fun _ _ => trivial, fun _ _ => trivial⟩

/-- What is over stays as it is. -/
def Settled (s s' : Store) : Prop :=
  s.data.status.terminal = true →
    s'.data.status = s.data.status ∧ s'.data.events = s.data.events

theorem settled_of_spares
    (hrun : (service.system new).RunWhere (Service.under spares) w w') :
    Settled w.store w'.store := by
  refine Service.evolves (R := Settled) (fun s _ => ⟨rfl, rfl⟩) ?_ ?_ hrun
  · intro a b c hab hbc hover
    obtain ⟨hstatus, hevents⟩ := hab hover
    obtain ⟨hstatus', hevents'⟩ := hbc (by rw [hstatus]; exact hover)
    exact ⟨hstatus'.trans hstatus, hevents'.trans hevents⟩
  · intro s frame o s' next hspares h hover
    obtain ⟨effect, rfl, hharmless, -⟩ := advance_cases hspares h
    rcases data_apply hharmless with hdata | ⟨hgoing, -⟩
    · rw [hdata]
      exact ⟨rfl, rfl⟩
    · rw [hover] at hgoing
      cases hgoing

/-- In every run whose steps neither reopen a task that is over nor append to it, nothing of the
task changes once it is over, and every stream is delivered. -/
theorem orderly_of_spares
    (hw : (service.system new).ReachableWhere (Service.under spares) w)
    (hrun : (service.system new).RunWhere (Service.under spares) w w') :
    Orderly w.store w'.store := by
  have hgood := good_of_spares (hw.continued hrun)
  refine ⟨settled_of_spares hrun, hgood.closed, fun reader r hr => ?_⟩
  obtain ⟨first, count, hreads⟩ := hgood.reads reader r hr
  exact hreads.delivered

/-! ## Two runs -/

/-- A step with an event of this id, and a file that can be written. -/
def step (call : ℕ) (eventId : String) : Turn Frame Occurrence := .goesOn call (.steps eventId true)

/-- The runner opens the task by an app server. -/
def opened : List (Turn Frame Occurrence) :=
  [.begins 1 (.begins .runner), step 1 "", .goesOn 1 (.opens false), step 1 "", step 1 "e1"]

/-- A stream of the events from the first one on. -/
def streamed : List (Turn Frame Occurrence) :=
  [.begins 2 (.connects (-1) ""), .goesOn 2 (.admits 1)]

/-- A request to cancel the task. -/
def cancelled (call : ℕ) : List (Turn Frame Occurrence) :=
  [.begins call .cancels, step call "", step call "", step call "e9"]

theorem init_created : (service.system new).init ⟨created "e0" "accepted", Dict.empty⟩ :=
  ⟨⟨"e0", "accepted", rfl⟩, rfl⟩

/-- The status, how many events there are, and how many the stream has sent. -/
def shown (w : Serving Store Frame) : Status × ℕ × Option ℕ :=
  (w.store.data.status, w.store.data.events.length,
    (w.store.readers.get? 1).map fun r => r.sent.length)

/-- A task is cancelled while it runs, and the stream is ended after that. -/
theorem orderly_cancelled : ∃ w w',
    (service.system new).ReachableWhere (Service.under spares) w ∧
    (service.system new).RunWhere (Service.under spares) w w' ∧
    (shown w, shown w') = ((.cancelled, 3, some 0), (.cancelled, 3, some 3)) ∧
    Orderly w.store w'.store := by
  obtain ⟨w, w', hw, hrun, hshown⟩ := TransitionSystem.exists_runWhere_of_exec
    (service.system new) (Service.under spares) (fun w w' => (shown w, shown w'))
    (opened ++ streamed ++ cancelled 3) [step 2 "", .goesOn 1 .turnCompletes, step 1 "", step 1 ""]
    (v := ((.cancelled, 3, some 0), (.cancelled, 3, some 3))) init_created (by decide +kernel)
  exact ⟨w, w', hw, hrun, hshown, orderly_of_spares hw hrun⟩

/-- A task is cancelled before the runner has opened it, which then sets it running. -/
theorem not_orderly_reopened : ∃ w w', (service.system new).Reachable w ∧
    (service.system new).Run w w' ∧ ¬ Orderly w.store w'.store := by
  obtain ⟨w, w', hw, hrun, hshown⟩ := TransitionSystem.exists_runWhere_of_exec
    (service.system new) TransitionSystem.anyStep (fun w w' => (shown w, shown w'))
    ([.begins 1 (.begins .runner), step 1 ""] ++ cancelled 3) [.goesOn 1 (.opens false)]
    (v := ((.cancelled, 2, none), (.running, 2, none))) init_created (by decide +kernel)
  obtain ⟨hbefore, hafter⟩ := Prod.mk.inj hshown
  have hcancelled : w.store.data.status = .cancelled := congrArg Prod.fst hbefore
  have hrunning : w'.store.data.status = .running := congrArg Prod.fst hafter
  refine ⟨w, w', hw, hrun, fun h => ?_⟩
  have hsame := (h.settled (by rw [hcancelled]; rfl)).1
  rw [hcancelled, hrunning] at hsame
  cases hsame

end Pandamonium.CodexBridge
