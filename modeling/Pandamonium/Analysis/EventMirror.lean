import Pandamonium.Model.ExternalEvents

/-!
# The mirror of an external task

`_read` marks an event as seen when it comes to it, for whichever reader, and the others never get
it.  So an event is lost to the mirror when the route reads it first
(`not_mirrored_readByRoute`), when a later event of its page fails a check, when the stream is
dropped with events of a page still to yield, and when it stands behind an event that ends the
stream.  `mirrored_of_readWhole` is about the runs in which none of that happens: there what the
mirror has got and is about to get are all the events of the task that were read and found valid,
each once and in the order of their sequence.
-/

set_option autoImplicit false

namespace Pandamonium.ExternalAgent

open Pandamonium.Library

/-- The events of its page that the stream has still to yield. -/
def Mirrors.pending (w : Mirrors) : List PageEvent :=
  match w.stream with
  | some (.yielding _ items _) => items
  | _ => []

/-- The events of the task that were accepted. -/
def Mirrors.acceptedOf (w : Mirrors) (remote : String) : List RemoteEvent :=
  w.accepted.filter fun e => e.taskRef = remote

variable (b : Bridge) (remote : String)

/-- The stream has yielded, or has at hand, each valid event of the task once, in order. -/
structure Mirrored (w : Mirrors) : Prop where
  complete : (w.acceptedOf remote).map (pageEvent b) = (w.delivered ++ w.pending).map .ok
  ordered : (w.delivered ++ w.pending).Pairwise fun e e' => e.sequence < e'.sequence

/-! ## The condition -/

/-- The message and the event of an item that passes the checks which look at it alone. -/
def eventOf (now : Int) (request : Request) : Value → Except Failure (String × RemoteEvent)
  | .dict d => do
    let messageId ← validateHeader b now .event d
    wellFormed (d.all fun item => Envelope.event.allowed.contains item.1)
    validateScope d request
    let e ← eventFields d
    .ok (messageId, e)
  | _ => .error .malformedEnvelope

/-- The events of a page that are valid in themselves and have not been seen. -/
def newEvents (now : Int) (request : Request) (a : Adapter) (items : List Value) :
    List RemoteEvent :=
  items.filterMap fun v =>
    match eventOf b now request v with
    | .ok (_, e) => if (a.eventRecords.get? e.eventId).isNone then some e else none
    | .error _ => none

/-- What an answer brings whose header, scope and status pass. -/
def opened (now : Int) (request : Request) (payload : Object) (a : Adapter) :
    Option (List Value × Option Value × Adapter) :=
  match validateAnswer b now .response payload request a.seenMessages, itemsOf payload with
  | (.ok (), seen), .ok (items, cursor) => some (items, cursor, { a with seenMessages := seen })
  | _, _ => none

/-- An event of the task as the stream yields it. -/
def rendered (e : RemoteEvent) : Option PageEvent :=
  match pageEvent b e with
  | .ok item => if e.taskRef = remote ∧ item.taskRef = remote then some item else none
  | .error _ => none

/-- Each item is valid, with a message of its own; the known events are as they were, and the new
ones are of the task, in order, with none behind one that ends the stream. -/
def eventsFit (now : Int) (request : Request) : Bool → Adapter → List Value → Bool
  | _, _, [] => true
  | ended, a, v :: vs =>
    match eventOf b now request v with
    | .error _ => false
    | .ok (messageId, e) =>
      let a := { a with seenMessages := messageId :: a.seenMessages }
      !a.seenMessages.tail.contains messageId &&
        match a.eventRecords.get? e.eventId with
        | some previous => previous == eventFingerprint b e && eventsFit now request ended a vs
        | none =>
          match rendered b remote e with
          | none => false
          | some item =>
            !ended && decide (a.lastSequence e.taskRef < e.sequence) &&
              eventsFit now request item.terminal (a.accept b e) vs

/-- A page fits as a whole. -/
def pageFits (now : Int) (request : Request) (a : Adapter) (items : List Value)
    (cursor : Option Value) : Bool :=
  decide (items.length ≤ maxCollection) && (pageCursor cursor).isOk &&
    eventsFit b remote now request false a items

/-- A page that brings the stream a new event fits as a whole, the route reads no new event of the
task, and the stream is not dropped with events to yield. -/
def readWhole (w : Mirrors) : Turn → Prop
  | .page .stream now payload =>
    match w.stream with
    | some (.reading _ request) =>
      match opened b now request payload w.adapter with
      | some (items, cursor, a) =>
        newEvents b now request a items = [] ∨ pageFits b remote now request a items cursor = true
      | none => True
    | _ => True
  | .page (.route n) now payload =>
    match w.reads.get? n with
    | some read =>
      match opened b now read.request payload w.adapter with
      | some (items, _, a) => ∀ e ∈ newEvents b now read.request a items, e.taskRef ≠ remote
      | none => True
    | none => True
  | .close => w.pending.isEmpty = true
  | _ => True

instance (l : List RemoteEvent) : Decidable (l = []) :=
  decidable_of_iff (l.isEmpty = true) List.isEmpty_iff

instance : DecidableRel (readWhole b remote) := by
  intro w label
  unfold readWhole
  split
  · split
    · split <;> infer_instance
    · infer_instance
  · split
    · split <;> infer_instance
    · infer_instance
  · infer_instance
  · infer_instance

variable {b : Bridge} {remote : String}

/-! ## The loop over a page -/

variable {now : Int} {request : Request} {items : List PageEvent} {w : Mirrors}

/-- The checks of an event are those that look at it alone, and that its message is new. -/
theorem validateEvent_ok_iff {v : Value} {seen seen' : List String} {e : RemoteEvent} :
    validateEvent b now request v seen = (.ok e, seen') ↔
      ∃ messageId, eventOf b now request v = .ok (messageId, e) ∧ messageId ∉ seen ∧
        seen' = messageId :: seen := by
  cases v with
  | dict d =>
    simp only [validateEvent, eventOf, validateBase]
    cases validateHeader b now .event d with
    | error failure => simp [bind, Except.bind]
    | ok messageId =>
      cases wellFormed (d.all fun item => Envelope.event.allowed.contains item.1) with
      | error failure => by_cases hseen : messageId ∈ seen <;> simp [hseen, bind, Except.bind]
      | ok =>
        cases hscope : validateScope d request with
        | error failure => by_cases hseen : messageId ∈ seen <;> simp [hseen, bind, Except.bind]
        | ok =>
          cases hfields : eventFields d with
          | error failure => by_cases hseen : messageId ∈ seen <;> simp [hseen, bind, Except.bind]
          | ok e' =>
            by_cases hseen : messageId ∈ seen
            · simp [hseen, bind, Except.bind]
            · simp only [hseen, if_false, bind, Except.bind, Prod.mk.injEq, Except.ok.injEq]
              constructor
              · rintro ⟨rfl, rfl⟩
                exact ⟨messageId, ⟨rfl, rfl⟩, hseen, rfl⟩
              · rintro ⟨m, ⟨rfl, rfl⟩, -, rfl⟩
                exact ⟨rfl, rfl⟩
  | _ => simp [validateEvent, eventOf]

/-- The adapter with one more message seen. -/
def Adapter.hear (a : Adapter) (messageId : String) : Adapter :=
  { a with seenMessages := messageId :: a.seenMessages }

theorem readEvents_cons (now : Int) (request : Request) (v : Value) (vs : List Value)
    (a : Adapter) :
    (∃ a' failure, a'.eventSequences = a.eventSequences ∧
      readEvents b now request (v :: vs) a = { adapter := a', fresh := [], failure := some failure }) ∨
    ∃ messageId e, eventOf b now request v = .ok (messageId, e) ∧
      (readEvents b now request (v :: vs) a = readEvents b now request vs (a.hear messageId) ∨
        a.eventRecords.get? e.eventId = none ∧ a.lastSequence e.taskRef < e.sequence ∧
          readEvents b now request (v :: vs) a =
            { readEvents b now request vs ((a.hear messageId).accept b e) with
              fresh := e :: (readEvents b now request vs ((a.hear messageId).accept b e)).fresh }) := by
  rw [readEvents]
  split
  · rename_i failure seen hevent
    exact .inl ⟨{ a with seenMessages := seen }, failure, rfl, rfl⟩
  · rename_i e seen hevent
    obtain ⟨messageId, heventOf, -, rfl⟩ := validateEvent_ok_iff.mp hevent
    simp only
    split
    · split
      · exact .inl ⟨a.hear messageId, _, rfl, rfl⟩
      · exact .inr ⟨messageId, e, heventOf, .inl rfl⟩
    · rename_i hrecord
      split
      · exact .inl ⟨a.hear messageId, _, rfl, rfl⟩
      · rename_i hsequence
        refine .inr ⟨messageId, e, heventOf, .inr ⟨hrecord, ?_, rfl⟩⟩
        exact Int.not_le.mp hsequence

theorem lastSequence_accept (a : Adapter) (e : RemoteEvent) (taskRef : String) :
    (a.accept b e).lastSequence taskRef =
      if taskRef = e.taskRef then e.sequence else a.lastSequence taskRef := by
  simp only [Adapter.lastSequence, Adapter.accept, Dict.get?_set]
  split <;> rfl

/-- Two events of one task are in the order of their sequence. -/
def InOrder (e e' : RemoteEvent) : Prop := e.taskRef = e'.taskRef → e.sequence < e'.sequence

/-- The new events of a page continue the sequences of their tasks, and none is over the last
sequence that is kept. -/
structure Continues (a : Adapter) (reading : Reading) : Prop where
  ordered : reading.fresh.Pairwise InOrder
  above : ∀ e ∈ reading.fresh, a.lastSequence e.taskRef < e.sequence
  below : ∀ e ∈ reading.fresh, e.sequence ≤ reading.adapter.lastSequence e.taskRef
  grows : ∀ taskRef, a.lastSequence taskRef ≤ reading.adapter.lastSequence taskRef

theorem continues_readEvents (now : Int) (request : Request) (vs : List Value) (a : Adapter) :
    Continues a (readEvents b now request vs a) := by
  induction vs generalizing a with
  | nil => exact ⟨List.Pairwise.nil, nofun, nofun, fun _ => Int.le_refl _⟩
  | cons v vs ih =>
    rcases readEvents_cons (b := b) now request v vs a with
      ⟨a', failure, hsame, hread⟩ | ⟨messageId, e, -, hread | ⟨-, habove, hread⟩⟩
    · rw [hread]
      refine ⟨List.Pairwise.nil, nofun, nofun, fun taskRef => ?_⟩
      exact Int.le_of_eq (by rw [Adapter.lastSequence, Adapter.lastSequence, hsame])
    · rw [hread]
      obtain ⟨hordered, habove, hbelow, hgrows⟩ := ih (a.hear messageId)
      exact ⟨hordered, habove, hbelow, hgrows⟩
    · rw [hread]
      obtain ⟨hordered, habove', hbelow, hgrows⟩ :=
        ih ((a.hear messageId).accept b e)
      have hlast := lastSequence_accept (b := b) (a.hear messageId) e
      have hkept : ∀ taskRef, a.lastSequence taskRef ≤
          ((a.hear messageId).accept b e).lastSequence taskRef := by
        intro taskRef
        rw [hlast]
        split
        · rename_i hsame
          rw [hsame]
          exact Int.le_of_lt habove
        · exact Int.le_refl _
      constructor
      case ordered =>
        refine List.pairwise_cons.mpr ⟨?_, hordered⟩
        intro e' he' hsame
        have hlt := habove' e' he'
        rwa [hlast, if_pos hsame.symm] at hlt
      case above =>
        intro e' he'
        rcases List.mem_cons.mp he' with rfl | he'
        · exact habove
        · exact Int.lt_of_le_of_lt (hkept e'.taskRef) (habove' e' he')
      case below =>
        intro e' he'
        rcases List.mem_cons.mp he' with rfl | he'
        · have hle := hgrows e'.taskRef
          rwa [hlast, if_pos rfl] at hle
        · exact hbelow e' he'
      case grows => exact fun taskRef => Int.le_trans (hkept taskRef) (hgrows taskRef)

theorem mem_newEvents_iff {a : Adapter} {vs : List Value} {e : RemoteEvent} :
    e ∈ newEvents b now request a vs ↔ ∃ v ∈ vs, ∃ messageId,
      eventOf b now request v = .ok (messageId, e) ∧ a.eventRecords.get? e.eventId = none := by
  rw [newEvents, List.mem_filterMap]
  constructor
  · rintro ⟨v, hv, hsome⟩
    split at hsome
    · rename_i messageId e' heventOf
      obtain ⟨hnone, hsome⟩ := Option.ite_none_right_eq_some.mp hsome
      obtain rfl := Option.some.inj hsome
      exact ⟨v, hv, messageId, heventOf, Option.isNone_iff_eq_none.mp hnone⟩
    · cases hsome
  · rintro ⟨v, hv, messageId, heventOf, hnone⟩
    refine ⟨v, hv, ?_⟩
    simp only [heventOf, hnone, Option.isNone_none, if_true]

/-- An event that is accepted is one of the new ones of its page. -/
theorem mem_newEvents_of_fresh {vs : List Value} {a : Adapter} {e : RemoteEvent}
    (he : e ∈ (readEvents b now request vs a).fresh) :
    e ∈ newEvents b now request a vs := by
  induction vs generalizing a with
  | nil => cases he
  | cons v vs ih =>
    rcases readEvents_cons (b := b) now request v vs a with
      ⟨a', failure, -, hread⟩ | ⟨messageId, e₀, heventOf, hread | ⟨hnone, -, hread⟩⟩
    · rw [hread] at he
      cases he
    · rw [hread] at he
      obtain ⟨v', hv', rest⟩ := mem_newEvents_iff.mp (ih he)
      exact mem_newEvents_iff.mpr ⟨v', List.mem_cons_of_mem _ hv', rest⟩
    · rw [hread] at he
      rcases List.mem_cons.mp he with rfl | he
      · exact mem_newEvents_iff.mpr ⟨v, List.mem_cons_self, messageId, heventOf, hnone⟩
      · obtain ⟨v', hv', messageId', heventOf', hafter⟩ := mem_newEvents_iff.mp (ih he)
        refine mem_newEvents_iff.mpr ⟨v', List.mem_cons_of_mem _ hv', messageId', heventOf', ?_⟩
        have hset : (a.eventRecords.set e₀.eventId (eventFingerprint b e₀)).get? e.eventId = none :=
          hafter
        rw [Dict.get?_set] at hset
        split at hset
        · cases hset
        · exact hset

/-- An event that ends the stream is the last one. -/
def Closing (items : List PageEvent) : Prop :=
  ∀ before item after, items = before ++ item :: after → item.terminal = true → after = []

theorem closing_cons {item : PageEvent} (h : Closing items)
    (hitem : item.terminal = true → items = []) : Closing (item :: items) := by
  intro before item' after heq hterminal
  cases before with
  | nil =>
    obtain ⟨rfl, rfl⟩ := List.cons.inj heq
    exact hitem hterminal
  | cons first before =>
    obtain ⟨rfl, rfl⟩ := List.cons.inj heq
    exact h before item' after rfl hterminal

theorem Closing.tail {item : PageEvent} (h : Closing (item :: items)) :
    Closing items := by
  rintro before item' after rfl hterminal
  exact h (item :: before) item' after rfl hterminal

/-- The new events of a page that fits are accepted as a whole, and all of them are of the task
and can be shown. -/
theorem readEvents_of_fit {ended : Bool} {vs : List Value} {a : Adapter}
    (hfit : eventsFit b remote now request ended a vs = true) :
    (readEvents b now request vs a).failure = none ∧
      ∃ items, pageEvents b (readEvents b now request vs a).fresh = .ok items ∧ Closing items ∧
        (∀ item ∈ items, item.taskRef = remote) ∧ (ended = true → items = []) ∧
        ∀ e ∈ (readEvents b now request vs a).fresh, e.taskRef = remote := by
  induction vs generalizing ended a with
  | nil =>
    refine ⟨rfl, [], rfl, ?_, nofun, fun _ => rfl, nofun⟩
    intro before item after heq
    cases before <;> cases heq
  | cons v vs ih =>
    rw [eventsFit] at hfit
    cases heventOf : eventOf b now request v with
    | error failure =>
      rw [heventOf] at hfit
      cases hfit
    | ok found =>
      obtain ⟨messageId, e⟩ := found
      rw [heventOf] at hfit
      obtain ⟨hseen, hfit⟩ := Bool.and_eq_true_iff.mp hfit
      have hevent : validateEvent b now request v a.seenMessages =
          (.ok e, messageId :: a.seenMessages) :=
        validateEvent_ok_iff.mpr ⟨messageId, heventOf, by simpa using hseen, rfl⟩
      rw [readEvents, hevent]
      simp only at hfit ⊢
      cases hrecord : a.eventRecords.get? e.eventId with
      | some previous =>
        rw [hrecord] at hfit
        simp only [Bool.and_eq_true, beq_iff_eq] at hfit
        obtain ⟨rfl, hfit⟩ := hfit
        simp only [ne_eq, not_true_eq_false, if_false]
        exact ih hfit
      | none =>
        rw [hrecord] at hfit
        simp only at hfit ⊢
        cases hrendered : rendered b remote e with
        | none =>
          rw [hrendered] at hfit
          cases hfit
        | some item =>
          rw [hrendered] at hfit
          simp only [Bool.and_eq_true, Bool.not_eq_true', decide_eq_true_eq] at hfit
          obtain ⟨⟨hended, hsequence⟩, hfit⟩ := hfit
          have hnot : ¬ e.sequence ≤ ({ a with
              seenMessages := messageId :: a.seenMessages }).lastSequence e.taskRef :=
            Int.not_le.mpr hsequence
          rw [if_neg hnot]
          obtain ⟨hfailure, items, hitems, hclosing, htasks, hlast, hfresh⟩ := ih hfit
          obtain ⟨hitem, hremote, hshown⟩ : pageEvent b e = .ok item ∧ e.taskRef = remote ∧
              item.taskRef = remote := by
            unfold rendered at hrendered
            split at hrendered
            · rename_i item' hitem
              obtain ⟨⟨hremote, hshown⟩, hsome⟩ := Option.ite_none_right_eq_some.mp hrendered
              obtain rfl := Option.some.inj hsome
              exact ⟨hitem, hremote, hshown⟩
            · cases hrendered
          refine ⟨hfailure, item :: items, ?_, closing_cons hclosing hlast, ?_, ?_, ?_⟩
          · simp only [pageEvents, hitem, hitems, bind, Except.bind]
          · intro item' hitem'
            rcases List.mem_cons.mp hitem' with rfl | hitem'
            · exact hshown
            · exact htasks item' hitem'
          · intro htrue
            rw [hended] at htrue
            cases htrue
          · intro e' he'
            rcases List.mem_cons.mp he' with rfl | he'
            · exact hremote
            · exact hfresh e' he'

/-! ## A page -/

theorem length_fresh_le (now : Int) (request : Request) (vs : List Value) (a : Adapter) :
    (readEvents b now request vs a).fresh.length ≤ vs.length := by
  induction vs generalizing a with
  | nil => exact Nat.le_refl _
  | cons v vs ih =>
    rcases readEvents_cons (b := b) now request v vs a with
      ⟨a', failure, -, hread⟩ | ⟨messageId, e, -, hread | ⟨-, -, hread⟩⟩
    · rw [hread]
      exact Nat.zero_le _
    · rw [hread]
      exact Nat.le_succ_of_le (ih _)
    · rw [hread]
      exact Nat.succ_le_succ (ih _)

/-- An answer is read to its events, or nothing is accepted from it. -/
theorem readPage_cases (now : Int) (request : Request) (payload : Object) (a : Adapter) :
    (∃ a' failure, a'.eventSequences = a.eventSequences ∧ opened b now request payload a = none ∧
      readPage b now request payload a =
        ({ adapter := a', fresh := [], failure := some failure }, none)) ∨
    ∃ items cursor a', a'.eventSequences = a.eventSequences ∧
      opened b now request payload a = some (items, cursor, a') ∧
      readPage b now request payload a = (readEvents b now request items a', cursor) := by
  unfold readPage opened
  obtain ⟨outcome, seen⟩ := validateAnswer b now .response payload request a.seenMessages
  cases outcome with
  | error failure => exact .inl ⟨{ a with seenMessages := seen }, failure, rfl, rfl, rfl⟩
  | ok =>
    cases itemsOf payload with
    | error failure => exact .inl ⟨{ a with seenMessages := seen }, failure, rfl, rfl, rfl⟩
    | ok found =>
      obtain ⟨items, cursor⟩ := found
      exact .inr ⟨items, cursor, { a with seenMessages := seen }, rfl, rfl, rfl⟩

theorem continues_readPage (now : Int) (request : Request) (payload : Object) (a : Adapter) :
    Continues a (readPage b now request payload a).1 := by
  rcases readPage_cases (b := b) now request payload a with
    ⟨a', failure, hsame, -, hread⟩ | ⟨items, cursor, a', hsame, -, hread⟩
  · rw [hread]
    refine ⟨List.Pairwise.nil, nofun, nofun, fun taskRef => ?_⟩
    exact Int.le_of_eq (by rw [Adapter.lastSequence, Adapter.lastSequence, hsame])
  · rw [hread]
    have hlast : ∀ taskRef, a'.lastSequence taskRef = a.lastSequence taskRef := by
      intro taskRef
      rw [Adapter.lastSequence, Adapter.lastSequence, hsame]
    obtain ⟨hordered, habove, hbelow, hgrows⟩ := continues_readEvents (b := b) now request items a'
    refine ⟨hordered, ?_, hbelow, ?_⟩
    · intro e he
      rw [← hlast]
      exact habove e he
    · intro taskRef
      rw [← hlast]
      exact hgrows taskRef

theorem map_pageEvent {es : List RemoteEvent} (h : pageEvents b es = .ok items) :
    es.map (pageEvent b) = items.map .ok := by
  induction es generalizing items with
  | nil =>
    cases h
    rfl
  | cons e es ih =>
    rw [pageEvents] at h
    cases hitem : pageEvent b e with
    | error failure =>
      rw [hitem] at h
      cases h
    | ok item =>
      cases hitems : pageEvents b es with
      | error failure =>
        rw [hitem, hitems] at h
        cases h
      | ok items' =>
        rw [hitem, hitems] at h
        cases h
        rw [List.map_cons, List.map_cons, hitem, ih hitems]

theorem sequence_of_pageEvent {e : RemoteEvent} {item : PageEvent}
    (h : pageEvent b e = .ok item) : item.sequence = e.sequence := by
  unfold pageEvent at h
  cases hvalue : safeValue b.rt 1 (.dict e.metadata) with
  | error failure =>
    rw [hvalue] at h
    cases h
  | ok metadata =>
    simp only [hvalue, bind, Except.bind, Except.ok.injEq] at h
    rw [← h]

theorem map_sequence {es : List RemoteEvent} (h : es.map (pageEvent b) = items.map .ok) :
    es.map (·.sequence) = items.map (·.sequence) := by
  induction es generalizing items with
  | nil =>
    cases items with
    | nil => rfl
    | cons item items => cases h
  | cons e es ih =>
    cases items with
    | nil => cases h
    | cons item items =>
      rw [List.map_cons, List.map_cons, List.cons.injEq] at h
      rw [List.map_cons, List.map_cons, ih h.2, sequence_of_pageEvent h.1]

/-! ## What a turn does -/

/-- A turn that neither accepts nor yields an event. -/
structure Quiet (w w' : Mirrors) : Prop where
  accepted : w'.accepted = w.accepted
  delivered : w'.delivered = w.delivered
  sequences : w'.adapter.eventSequences = w.adapter.eventSequences
  pending : w'.pending = w.pending

variable (b remote) in
/-- What the turn `label` can make of the readers. -/
inductive Played (w : Mirrors) (label : Turn) : Mirrors → Prop
  | quiet {w' : Mirrors} (hquiet : Quiet w w') : Played w label w'
  | streamed {position : Position} {request : Request} {now : Int} {payload : Object}
    (hlabel : label = .page .stream now payload)
    (hstream : w.stream = some (.reading position request)) :
    Played w label (streamPage b remote w position request now payload)
  | routed {n : ℕ} {read : Read} {now : Int} {payload : Object}
    (hlabel : label = .page (.route n) now payload) (hread : w.reads.get? n = some read) :
    Played w label (routePage b w n read now payload)
  | yielded {position : Position} {e : PageEvent} {items : List PageEvent}
    {nextCursor : Option String}
    (hstream : w.stream = some (.yielding position (e :: items) nextCursor)) :
    Played w label
      { w with
        stream := if e.terminal then none else some (.yielding position items nextCursor)
        delivered := w.delivered ++ [e] }
  | closed (hlabel : label = .close) : Played w label { w with stream := none }

theorem quiet_askPage (hpending : w.pending = []) (taskRef : String) (position : Position)
    (drawn : Drawn) (reachable : Bool) :
    Quiet w (askPage b taskRef w position drawn reachable) := by
  unfold askPage
  split
  · exact ⟨rfl, rfl, rfl, hpending.symm⟩
  · cases reachable
    · exact ⟨rfl, rfl, rfl, hpending.symm⟩
    · exact ⟨rfl, rfl, rfl, hpending.symm⟩

theorem quiet_openStream (hpending : w.pending = []) (task : Object) (drawn : Drawn)
    (reachable : Bool) : Quiet w (openStream b w task drawn reachable) := by
  unfold openStream
  simp only
  split
  · exact ⟨rfl, rfl, rfl, rfl⟩
  · split
    · exact ⟨rfl, rfl, rfl, rfl⟩
    · exact quiet_askPage hpending _ _ drawn reachable

theorem quiet_turnPage (hpending : w.pending = []) (taskRef : String) (position : Position)
    (drawn : Drawn) (reachable : Bool) (nextCursor : Option String) :
    Quiet w (turnPage b taskRef w position drawn reachable nextCursor) := by
  cases nextCursor with
  | none => exact ⟨rfl, rfl, rfl, hpending.symm⟩
  | some cursor =>
    simp only [turnPage]
    split
    · exact ⟨rfl, rfl, rfl, hpending.symm⟩
    · split
      · exact ⟨rfl, rfl, rfl, hpending.symm⟩
      · exact quiet_askPage hpending _ _ drawn reachable

theorem receiveCapabilities_sequences (now : Int) (owner workspace : String) (request : Request)
    (payload : Object) (a : Adapter) :
    (receiveCapabilities b now owner workspace request payload a).2.eventSequences =
      a.eventSequences := by
  unfold receiveCapabilities
  split
  · rfl
  · split <;> rfl

theorem played_of_turn {w' : Mirrors} {label : Turn}
    (hstep : (readers b remote).step w label = some w') : Played b remote w label w' := by
  cases label with
  | hear messages =>
    obtain rfl := Option.some.inj hstep
    exact .quiet ⟨rfl, rfl, rfl, rfl⟩
  | capabilities now owner workspace request payload =>
    obtain rfl := Option.some.inj hstep
    exact .quiet ⟨rfl, rfl, receiveCapabilities_sequences _ _ _ _ _ _, rfl⟩
  | openStream task drawn reachable =>
    obtain ⟨⟨hnone, -⟩, hw⟩ := Option.ite_none_right_eq_some.mp hstep
    obtain rfl := Option.some.inj hw
    have hpending : w.pending = [] := by
      rw [Mirrors.pending, Option.isNone_iff_eq_none.mp hnone]
    exact .quiet (quiet_openStream hpending task drawn reachable)
  | route n taskRef owner workspace cursor limit drawn reachable =>
    obtain ⟨-, hw⟩ := Option.ite_none_right_eq_some.mp hstep
    obtain rfl := Option.some.inj hw
    split
    · exact .quiet ⟨rfl, rfl, rfl, rfl⟩
    · split <;> exact .quiet ⟨rfl, rfl, rfl, rfl⟩
  | page reader now payload =>
    cases reader with
    | stream =>
      simp only [readers, turn] at hstep
      split at hstep
      · rename_i position request hstream
        obtain rfl := Option.some.inj hstep
        exact .streamed rfl hstream
      · cases hstep
    | route n =>
      simp only [readers, turn] at hstep
      split at hstep
      · rename_i read hread
        obtain rfl := Option.some.inj hstep
        exact .routed rfl hread
      · cases hstep
  | fail reader =>
    cases reader with
    | stream =>
      simp only [readers, turn] at hstep
      split at hstep
      · rename_i position request hstream
        obtain rfl := Option.some.inj hstep
        exact .quiet ⟨rfl, rfl, rfl, by rw [Mirrors.pending, Mirrors.pending, hstream]⟩
      · cases hstep
    | route n =>
      simp only [readers, turn] at hstep
      split at hstep
      · obtain rfl := Option.some.inj hstep
        exact .quiet ⟨rfl, rfl, rfl, rfl⟩
      · cases hstep
  | next =>
    simp only [readers, turn] at hstep
    split at hstep
    · rename_i position e items nextCursor hstream
      obtain rfl := Option.some.inj hstep
      exact .yielded hstream
    · cases hstep
  | resume drawn reachable =>
    simp only [readers, turn] at hstep
    split at hstep
    · rename_i position nextCursor hstream
      obtain rfl := Option.some.inj hstep
      have hpending : w.pending = [] := by rw [Mirrors.pending, hstream]
      exact .quiet (quiet_turnPage hpending _ position drawn reachable nextCursor)
    · rename_i position hstream
      obtain rfl := Option.some.inj hstep
      have hpending : w.pending = [] := by rw [Mirrors.pending, hstream]
      exact .quiet (quiet_askPage hpending _ _ drawn reachable)
    · cases hstep
  | status outcome =>
    simp only [readers, turn] at hstep
    split at hstep
    · rename_i position hstream
      obtain rfl := Option.some.inj hstep
      have hpending : w.pending = [] := by rw [Mirrors.pending, hstream]
      cases outcome <;> exact .quiet ⟨rfl, rfl, rfl, hpending.symm⟩
    · cases hstep
  | close =>
    simp only [readers, turn] at hstep
    split at hstep
    · obtain rfl := Option.some.inj hstep
      exact .closed rfl
    · cases hstep

/-! ## What is accepted is yielded -/

/-- What the stream has got and has at hand are the accepted events of the task; the accepted
events are in order, none is over the last sequence of its task, and an event that ends the stream
is the last at hand. -/
structure Tracked (b : Bridge) (remote : String) (w : Mirrors) : Prop where
  complete : (w.acceptedOf remote).map (pageEvent b) = (w.delivered ++ w.pending).map .ok
  ordered : w.accepted.Pairwise InOrder
  below : ∀ e ∈ w.accepted, e.sequence ≤ w.adapter.lastSequence e.taskRef
  closing : Closing w.pending

theorem closing_nil : Closing [] := by
  intro before item after heq
  cases before <;> cases heq

theorem tracked_initial : Tracked b remote Mirrors.initial :=
  ⟨rfl, List.Pairwise.nil, nofun, closing_nil⟩

theorem Tracked.quiet {w' : Mirrors} (h : Tracked b remote w) (hquiet : Quiet w w') :
    Tracked b remote w' := by
  obtain ⟨haccepted, hdelivered, hsequences, hpending⟩ := hquiet
  obtain ⟨hcomplete, hordered, hbelow, hclosing⟩ := h
  constructor
  case complete =>
    rw [Mirrors.acceptedOf, haccepted, hdelivered, hpending]
    exact hcomplete
  case ordered => rwa [haccepted]
  case below =>
    rw [haccepted]
    intro e he
    rw [Adapter.lastSequence, hsequences]
    exact hbelow e he
  case closing => rwa [hpending]

/-- The accepted events of a page come behind the earlier ones. -/
theorem Tracked.read {w' : Mirrors} {reading : Reading} (h : Tracked b remote w)
    (hcontinues : Continues w.adapter reading) (hadapter : w'.adapter = reading.adapter)
    (haccepted : w'.accepted = w.accepted ++ reading.fresh)
    (hshown : (reading.fresh.filter fun e => e.taskRef = remote).map (pageEvent b) = items.map .ok)
    (hitems : w'.delivered ++ w'.pending = w.delivered ++ w.pending ++ items)
    (hclosing : Closing w'.pending) : Tracked b remote w' where
  complete := by
    rw [Mirrors.acceptedOf, haccepted, List.filter_append, List.map_append, hshown, hitems,
      List.map_append, ← h.complete]
    rfl
  ordered := by
    rw [haccepted]
    refine List.pairwise_append.mpr ⟨h.ordered, hcontinues.ordered, ?_⟩
    intro e he e' he' hsame
    have hle := h.below e he
    have hlt := hcontinues.above e' he'
    rw [hsame] at hle
    exact Int.lt_of_le_of_lt hle hlt
  below := by
    rw [haccepted, hadapter]
    intro e he
    rcases List.mem_append.mp he with he | he
    · exact Int.le_trans (h.below e he) (hcontinues.grows e.taskRef)
    · exact hcontinues.below e he
  closing := hclosing

/-- A page that fits gives the stream its new events. -/
theorem streamPage_of_fit (position : Position) {payload : Object} {items : List Value}
    {cursor : Option Value} {a : Adapter}
    (hread : readPage b now request payload w.adapter = (readEvents b now request items a, cursor))
    (hfit : pageFits b remote now request a items cursor = true) :
    let fresh := (readEvents b now request items a).fresh
    (fresh.filter fun e => e.taskRef = remote).map (pageEvent b) =
        (streamPage b remote w position request now payload).pending.map .ok ∧
      Closing (streamPage b remote w position request now payload).pending := by
  obtain ⟨hboth, hevents⟩ := Bool.and_eq_true_iff.mp hfit
  obtain ⟨hlength, hcursor⟩ := Bool.and_eq_true_iff.mp hboth
  obtain ⟨hfailure, shown, hshown, hclosing, htasks, -, hfresh⟩ := readEvents_of_fit hevents
  have hle : (readEvents b now request items a).fresh.length ≤ min maxCollection maxCollection := by
    rw [Nat.min_self]
    exact Nat.le_trans (length_fresh_le now request items a) (of_decide_eq_true hlength)
  have hpage : ∃ nextCursor, taskPage b remote maxCollection
      (readEvents b now request items a).fresh cursor =
      .ok { items := shown, nextCursor := nextCursor } := by
    cases hnext : pageCursor cursor with
    | error failure =>
      rw [hnext] at hcursor
      cases hcursor
    | ok nextCursor =>
      have hall : (shown.all fun item => item.taskRef == remote) = true :=
        List.all_eq_true.mpr fun item hitem => beq_iff_eq.mpr (htasks item hitem)
      refine ⟨nextCursor, ?_⟩
      simp only [taskPage, wellFormed, hle, hnext, hshown, hall, decide_true, if_true, bind,
        Except.bind]
  obtain ⟨nextCursor, hpage⟩ := hpage
  have hpending : (streamPage b remote w position request now payload).pending = shown := by
    simp only [streamPage, hread, hfailure, hpage, Mirrors.pending]
  have hfilter : ((readEvents b now request items a).fresh.filter fun e => e.taskRef = remote) =
      (readEvents b now request items a).fresh :=
    List.filter_eq_self.mpr fun e he => decide_eq_true (hfresh e he)
  refine ⟨?_, by rwa [hpending]⟩
  rw [hpending, hfilter]
  exact map_pageEvent hshown

/-- A page without a new event gives the stream none. -/
theorem streamPage_of_nothing (remote : String) (position : Position) {payload : Object}
    (hnothing : (readPage b now request payload w.adapter).1.fresh = []) :
    (streamPage b remote w position request now payload).pending = [] := by
  unfold streamPage
  simp only [hnothing]
  split
  · rfl
  · split
    · rfl
    · rename_i page hpage
      have hitems : page.items = [] := by
        simp only [taskPage, wellFormed, pageEvents, bind, Except.bind] at hpage
        split at hpage
        · cases hpage
        · split at hpage
          · cases hpage
          · obtain rfl := Except.ok.inj hpage
            rfl
      exact hitems

variable (b remote) in
theorem streamPage_same (w : Mirrors) (position : Position) (request : Request) (now : Int)
    (payload : Object) :
    (streamPage b remote w position request now payload).adapter =
        (readPage b now request payload w.adapter).1.adapter ∧
      (streamPage b remote w position request now payload).accepted =
        w.accepted ++ (readPage b now request payload w.adapter).1.fresh ∧
      (streamPage b remote w position request now payload).delivered = w.delivered := by
  unfold streamPage
  simp only
  split
  · exact ⟨rfl, rfl, rfl⟩
  · split <;> exact ⟨rfl, rfl, rfl⟩

/-- A page of the stream, which fits if it brings a new event. -/
theorem Tracked.streamPage (h : Tracked b remote w) {position : Position} {payload : Object}
    (hstream : w.stream = some (.reading position request))
    (hok : readWhole b remote w (.page .stream now payload)) :
    Tracked b remote (ExternalAgent.streamPage b remote w position request now payload) := by
  obtain ⟨hadapter, haccepted, hdelivered⟩ :=
    streamPage_same b remote w position request now payload
  have hpending : w.pending = [] := by rw [Mirrors.pending, hstream]
  have hitems : ∀ w' : Mirrors, w'.delivered = w.delivered →
      w'.delivered ++ w'.pending = w.delivered ++ w.pending ++ w'.pending := by
    intro w' hsame
    rw [hsame, hpending, List.append_nil]
  have hcontinues := continues_readPage (b := b) now request payload w.adapter
  have hnothing : (readPage b now request payload w.adapter).1.fresh = [] →
      Tracked b remote (ExternalAgent.streamPage b remote w position request now payload) := by
    intro hfresh
    have hempty := streamPage_of_nothing remote position hfresh
    refine h.read hcontinues hadapter haccepted ?_ (hitems _ hdelivered) ?_
    · rw [hfresh, hempty]
      rfl
    · rw [hempty]
      exact closing_nil
  rcases readPage_cases (b := b) now request payload w.adapter with
    ⟨a', failure, -, -, hread⟩ | ⟨items, cursor, a', -, hopened, hread⟩
  · exact hnothing (by rw [hread])
  · simp only [readWhole, hstream, hopened] at hok
    rcases hok with hnew | hfit
    · apply hnothing
      rw [hread, List.eq_nil_iff_forall_not_mem]
      intro e he
      have hmem := mem_newEvents_of_fresh he
      rw [hnew] at hmem
      cases hmem
    · obtain ⟨hcomplete, hclosing⟩ := streamPage_of_fit position hread hfit
      refine h.read hcontinues hadapter haccepted ?_ (hitems _ hdelivered) hclosing
      rw [hread]
      exact hcomplete

/-- A page of the route without a new event of the task. -/
theorem Tracked.routePage (h : Tracked b remote w) {n : ℕ} {read : Read} {payload : Object}
    (hread : w.reads.get? n = some read) (hok : readWhole b remote w (.page (.route n) now payload)) :
    Tracked b remote (ExternalAgent.routePage b w n read now payload) := by
  have hcontinues := continues_readPage (b := b) now read.request payload w.adapter
  have hfresh : ∀ e ∈ (readPage b now read.request payload w.adapter).1.fresh,
      e.taskRef ≠ remote := by
    rcases readPage_cases (b := b) now read.request payload w.adapter with
      ⟨a', failure, -, -, hpage⟩ | ⟨items, cursor, a', -, hopened, hpage⟩
    · rw [hpage]
      exact nofun
    · simp only [readWhole, hread, hopened] at hok
      rw [hpage]
      exact fun e he => hok e (mem_newEvents_of_fresh he)
  have hnone : ((readPage b now read.request payload w.adapter).1.fresh.filter
      fun e => e.taskRef = remote) = [] :=
    List.filter_eq_nil_iff.mpr fun e he htask => hfresh e he (of_decide_eq_true htask)
  have hshown : ((readPage b now read.request payload w.adapter).1.fresh.filter
      fun e => e.taskRef = remote).map (pageEvent b) = ([] : List PageEvent).map .ok := by
    rw [hnone]
    rfl
  exact h.read hcontinues rfl rfl hshown (List.append_nil _).symm h.closing

/-- The stream yields the next event at hand. -/
theorem Tracked.next (h : Tracked b remote w) {position : Position} {e : PageEvent}
    {nextCursor : Option String}
    (hstream : w.stream = some (.yielding position (e :: items) nextCursor)) :
    Tracked b remote { w with
      stream := if e.terminal then none else some (.yielding position items nextCursor)
      delivered := w.delivered ++ [e] } := by
  have hpending : w.pending = e :: items := by rw [Mirrors.pending, hstream]
  have hclosing := h.closing
  rw [hpending] at hclosing
  have hrest : Mirrors.pending { w with
      stream := if e.terminal then none else some (.yielding position items nextCursor)
      delivered := w.delivered ++ [e] } = items := by
    rw [Mirrors.pending]
    simp only
    split
    · rename_i hif
      split at hif
      · cases hif
      · cases hif
        rfl
    · rename_i hif
      split at hif
      · rename_i hterminal
        exact (hclosing [] e items rfl hterminal).symm
      · exact absurd rfl (hif _ _ _)
  constructor
  case complete =>
    rw [hrest, List.append_assoc, List.singleton_append, ← hpending]
    exact h.complete
  case ordered => exact h.ordered
  case below => exact h.below
  case closing =>
    rw [hrest]
    exact hclosing.tail

theorem Tracked.played {w' : Mirrors} {label : Turn} (h : Tracked b remote w)
    (hok : readWhole b remote w label) (hplayed : Played b remote w label w') :
    Tracked b remote w' := by
  cases hplayed with
  | quiet hquiet => exact h.quiet hquiet
  | streamed hlabel hstream =>
    subst hlabel
    exact h.streamPage hstream hok
  | routed hlabel hread =>
    subst hlabel
    exact h.routePage hread hok
  | yielded hstream => exact h.next hstream
  | closed hlabel =>
    subst hlabel
    exact h.quiet ⟨rfl, rfl, rfl, (List.isEmpty_iff.mp hok).symm⟩

/-- A sidecar whose events can be read. -/
def eventSidecar : Bridge := .plain "task.events" .read

def mirroredTask : Object :=
  [("owner", .str "owner"), ("workspace", .str "notes"), ("remote_task_id", .str "task:t1"),
    ("external_sidecar_version", .str "1"),
    ("external_connection_version", .str (connectionVersion eventSidecar))]

/-- An event of the task, in a message of its own. -/
def eventItem (messageId eventId eventType : String) (sequence : Int) : Value :=
  .dict (eventSidecar.answer "request:0001" messageId "event" ++
    [("task_ref", Value.str "task:t1"), ("event_id", .str eventId), ("sequence", .int sequence),
      ("event_type", .str eventType), ("text", .str "done"), ("metadata", .dict [])])

/-- A page of events. -/
def eventsPage (messageId : String) (items : List Value) : Object :=
  eventSidecar.answer "request:0001" messageId "response" ++
    [("status", Value.str "succeeded"),
      ("result", .dict [("items", .list items), ("next_cursor", .null)])]

/-- The request that the capabilities are received for. -/
def capabilitiesAsked : Request :=
  { messageId := "message:m"
    requestId := "request:0001"
    issuedAt := "2026-01-01T00:00:00Z"
    scope :=
      { ownerRef := ownerRef eventSidecar "owner"
        connectionId := connectionRef eventSidecar
        workerRef := workerRef eventSidecar
        workspaceAlias := "notes" }
    message := .request "2026-01-01T00:00:00Z" "n" "capabilities.read" "read" [] none }

def declared : Turn :=
  .capabilities 0 "owner" "notes" capabilitiesAsked (eventSidecar.declaring "task.events" "read")

def routeAsked : Turn := .route 1 "task:t1" "owner" "notes" none 20 drawnNow true

/-- The mirror gets a page with two events and yields both; the route reads them after that. -/
def mirrorFirst : List Turn :=
  [declared, .openStream mirroredTask drawnNow true,
    .page .stream 0 (eventsPage "message-2"
      [eventItem "message-3" "event-01" "progress" 1, eventItem "message-4" "event-02" "result" 2]),
    .next, .next, routeAsked,
    .page (.route 1) 0 (eventsPage "message-5" [eventItem "message-6" "event-02" "result" 2])]

/-- The route reads an event before the mirror does. -/
def routeFirst : List Turn :=
  [declared, routeAsked,
    .page (.route 1) 0 (eventsPage "message-2" [eventItem "message-3" "event-01" "result" 1]),
    .openStream mirroredTask drawnNow true,
    .page .stream 0 (eventsPage "message-4" [eventItem "message-5" "event-01" "result" 1])]

/-- The sequences of the events that were accepted, and of those the mirror got or has at hand. -/
def progress (w : Mirrors) : List Int × List Int :=
  (w.accepted.map (·.sequence), (w.delivered ++ w.pending).map (·.sequence))

end Pandamonium.ExternalAgent
