import Pandamonium.Library.TransitionSystem
import Pandamonium.Model.ExternalAdapter

/-!
# The events of an external task

Pages of events are read by the mirror's stream (`events`) and by the route
(`external_worker_task_events`), both through `task_events` of one adapter.  `_read` goes over the
events of a page and marks each new one as seen before it looks at the next, and what it returns is
the new ones.

A reader whose scope has no capabilities yet gets them in a step of their own.  Other calls of the
adapter add messages to the ones seen, and the answer to `status` is given by its outcome.  The
world keeps the events that were accepted and the ones that were yielded, in order, which the source
does not.
-/

set_option autoImplicit false

namespace Pandamonium.ExternalAgent

open Pandamonium.Library

/-- An event whose checks pass. -/
structure RemoteEvent where
  taskRef : String
  eventId : String
  sequence : Int
  eventType : String
  text : String
  metadata : Object

/-- An event of a page. -/
structure PageEvent where
  taskRef : String
  eventId : String
  sequence : Int
  eventType : String
  text : String
  metadata : Value

structure Page where
  items : List PageEvent
  nextCursor : Option String

variable (b : Bridge)

/-! ## The checks of a page -/

def eventTypes : List String :=
  ["accepted", "progress", "tool_activity", "question", "approval_required", "result", "error",
    "cancelled"]

/-- The checks of `_read` on the fields of an event. -/
def eventFields (d : Object) : Except Failure RemoteEvent := do
  let some taskRef := textOf d "task_ref" | .error .malformedEnvelope
  wellFormed (isTaskRef taskRef)
  let some eventId := textOf d "event_id" | .error .malformedEnvelope
  wellFormed (isRequestId eventId)
  let some (.int sequence) := d.get? "sequence" | .error .malformedEnvelope
  wellFormed (decide (0 ≤ sequence))
  let some eventType ← hashable d "event_type" | .error .malformedEnvelope
  wellFormed (eventTypes.contains eventType)
  let some text := textOf d "text" | .error .malformedEnvelope
  let some (.dict metadata) := d.get? "metadata" | .error .malformedEnvelope
  .ok
    { taskRef := taskRef
      eventId := eventId
      sequence := sequence
      eventType := eventType
      text := text
      metadata := metadata }

/-- The checks of one event of a page, with the messages seen. -/
def validateEvent (now : Int) (request : Request) (v : Value) (seen : List String) :
    Except Failure RemoteEvent × List String :=
  match v with
  | .dict d =>
    match validateBase b now .event d seen with
    | (.error failure, seen) => (.error failure, seen)
    | (.ok (), seen) =>
      ((validateScope d request).bind fun _ => eventFields d, seen)
  | _ => (.error .malformedEnvelope, seen)

/-- The fingerprint of an event. -/
def eventFingerprint (e : RemoteEvent) : String :=
  b.digest
    [("task_ref", .str e.taskRef), ("event_id", .str e.eventId), ("sequence", .int e.sequence),
      ("event_type", .str e.eventType), ("text", .str e.text), ("metadata", .dict e.metadata)]

/-- `self._event_sequences.get(task_ref, -1)` -/
def Adapter.lastSequence (a : Adapter) (taskRef : String) : Int :=
  (a.eventSequences.get? taskRef).getD (-1)

/-- A new event is marked as seen. -/
def Adapter.accept (a : Adapter) (e : RemoteEvent) : Adapter :=
  { a with
    eventRecords := a.eventRecords.set e.eventId (eventFingerprint b e)
    eventSequences := a.eventSequences.set e.taskRef e.sequence }

/-- What the loop of `_read` comes to: the new events up to the exception, if there is one. -/
structure Reading where
  adapter : Adapter
  fresh : List RemoteEvent
  failure : Option Failure

/-- The loop of `_read` over the events of a page. -/
def readEvents (now : Int) (request : Request) : List Value → Adapter → Reading
  | [], a => { adapter := a, fresh := [], failure := none }
  | v :: vs, a =>
    match validateEvent b now request v a.seenMessages with
    | (.error failure, seen) =>
      { adapter := { a with seenMessages := seen }, fresh := [], failure := some failure }
    | (.ok e, seen) =>
      let a := { a with seenMessages := seen }
      match a.eventRecords.get? e.eventId with
      | some previous =>
        if previous ≠ eventFingerprint b e then
          { adapter := a, fresh := [], failure := some .replayDetected }
        else readEvents now request vs a
      | none =>
        if e.sequence ≤ a.lastSequence e.taskRef then
          { adapter := a, fresh := [], failure := some .replayDetected }
        else
          let rest := readEvents now request vs (a.accept b e)
          { rest with fresh := e :: rest.fresh }

/-- The events and the cursor of an answer to a read. -/
def itemsOf (payload : Object) : Except Failure (List Value × Option Value) := do
  wellFormed (hasText payload "status" "succeeded")
  let result ← resultOf payload
  let some (.list items) := result.get? "items" | .error .malformedEnvelope
  .ok (items, result.get? "next_cursor")

/-- `_read` of the events, when the answer is there. -/
def readPage (now : Int) (request : Request) (payload : Object) (a : Adapter) :
    Reading × Option Value :=
  match validateAnswer b now .response payload request a.seenMessages with
  | (.error failure, seen) =>
    ({ adapter := { a with seenMessages := seen }, fresh := [], failure := some failure }, none)
  | (.ok (), seen) =>
    match itemsOf payload with
    | .error failure =>
      ({ adapter := { a with seenMessages := seen }, fresh := [], failure := some failure }, none)
    | .ok (items, cursor) =>
      (readEvents b now request items { a with seenMessages := seen }, cursor)

/-- The fields of an event that `_page` keeps. -/
def pageEvent (e : RemoteEvent) : Except Failure PageEvent := do
  let metadata ← safeValue b.rt 1 (.dict e.metadata)
  .ok
    { taskRef := safeText b.rt (.str e.taskRef)
      eventId := safeText b.rt (.str e.eventId)
      sequence := e.sequence
      eventType := safeText b.rt (.str e.eventType)
      text := safeText b.rt (.str e.text)
      metadata := metadata }

/-- The loop of `_page`. -/
def pageEvents : List RemoteEvent → Except Failure (List PageEvent)
  | [] => .ok []
  | e :: es => do
    let item ← pageEvent b e
    let items ← pageEvents es
    .ok (item :: items)

/-- The cursor of a page. -/
def pageCursor : Option Value → Except Failure (Option String)
  | none | some .null => .ok none
  | some (.str cursor) =>
    if isCursor cursor then .ok (some cursor) else .error .malformedEnvelope
  | _ => .error .malformedEnvelope

/-- `_page` and the last check of `_task_page`. -/
def taskPage (taskRef : String) (limit : ℕ) (fresh : List RemoteEvent) (cursor : Option Value) :
    Except Failure Page := do
  wellFormed (decide (fresh.length ≤ min limit maxCollection))
  let nextCursor ← pageCursor cursor
  let items ← pageEvents b fresh
  wellFormed (items.all fun item => item.taskRef == taskRef)
  .ok { items := items, nextCursor := nextCursor }

/-- `task_events` up to its request, when the capabilities are there. -/
def eventsRequest (a : Adapter) (drawn : Drawn) (taskRef owner workspace : String)
    (cursor : Option String) (limit : ℕ) : Except Failure Request := do
  wellFormed (isTaskRef taskRef)
  wellFormed (decide (1 ≤ limit ∧ limit ≤ maxCollection))
  wellFormed (cursor.all isCursor)
  let _ ← capabilityPolicy b a "task.events" owner workspace
  requestEnvelope b drawn "task.events" owner workspace
    [("task_ref", .str taskRef), ("cursor", (cursor.map Value.str).getD .null),
      ("limit", .int limit)]
    .read none none

/-! ## The readers -/

/-- Where the stream is in its pages. -/
structure Position where
  owner : String
  workspace : String
  cursor : Option String
  seenCursors : List String
  pageNumber : ℕ
  deriving DecidableEq, Repr

/-- The first page. -/
def Position.restart (position : Position) : Position :=
  { position with cursor := none, seenCursors := [], pageNumber := 0 }

/-- Where a stream stands. -/
inductive Phase
  /-- It waits for a page. -/
  | reading (position : Position) (request : Request)
  /-- It has these events of a page still to yield. -/
  | yielding (position : Position) (items : List PageEvent) (nextCursor : Option String)
  /-- It waits for the answer to `status`. -/
  | asking (position : Position)
  | sleeping (position : Position)

/-- A read of the route that waits for its page. -/
structure Read where
  taskRef : String
  limit : ℕ
  request : Request

structure Mirrors where
  adapter : Adapter
  stream : Option Phase
  reads : Dict ℕ Read
  accepted : List RemoteEvent
  delivered : List PageEvent
  /-- What the reads of the route returned. -/
  results : List (ℕ × Page)

/-- What the answer to `status` comes to. -/
inductive StatusOutcome
  | active
  /-- It yields the event of a terminal status and ends. -/
  | terminal
  | raised
  deriving DecidableEq, Repr

inductive Reader
  | stream
  | route (n : ℕ)
  deriving DecidableEq, Repr

inductive Turn
  /-- Another call adds messages to the ones seen. -/
  | hear (messages : List String)
  /-- The capabilities of a scope are received. -/
  | capabilities (now : Int) (owner workspace : String) (request : Request) (payload : Object)
  /-- `events(task)` is asked for its first event. -/
  | openStream (task : Object) (drawn : Drawn) (reachable : Bool)
  | route (n : ℕ) (taskRef owner workspace : String) (cursor : Option String) (limit : ℕ)
    (drawn : Drawn) (reachable : Bool)
  | page (reader : Reader) (now : Int) (payload : Object)
  /-- The transport raises, or the reader is cancelled while it waits. -/
  | fail (reader : Reader)
  /-- The stream yields the next event. -/
  | next
  /-- The stream goes on behind the last event of a page, or after its sleep. -/
  | resume (drawn : Drawn) (reachable : Bool)
  | status (outcome : StatusOutcome)
  /-- The stream is dropped where it stands. -/
  | close

/-- The types of the events that end a stream. -/
def PageEvent.terminal (e : PageEvent) : Bool :=
  ["result", "error", "cancelled"].contains e.eventType

/-- The stream asks for the page at its position. -/
def askPage (taskRef : String) (w : Mirrors) (position : Position) (drawn : Drawn)
    (reachable : Bool) : Mirrors :=
  match eventsRequest b w.adapter drawn taskRef position.owner position.workspace position.cursor
      maxCollection with
  | .error _ => { w with stream := none }
  | .ok request =>
    { w with stream := if reachable then some (.reading position request) else none }

/-- The beginning of `events`. -/
def openStream (w : Mirrors) (task : Object) (drawn : Drawn) (reachable : Bool) : Mirrors :=
  let owner := ownerOf b task
  let workspace := workspaceOf b task
  match capabilityPolicy b w.adapter "task.events" owner workspace with
  | .error _ => w
  | .ok policy =>
    if task.text b.rt "external_sidecar_version" ≠ policy.sidecarVersion ∨
        task.text b.rt "external_connection_version" ≠ policy.connectionVersion then w
    else askPage b (task.text b.rt "remote_task_id") w
      { owner := owner, workspace := workspace, cursor := none, seenCursors := [], pageNumber := 0 }
      drawn reachable

/-- The stream behind the last event of a page. -/
def turnPage (taskRef : String) (w : Mirrors) (position : Position) (drawn : Drawn)
    (reachable : Bool) : Option String → Mirrors
  | none => { w with stream := some (.asking position) }
  | some cursor =>
    if position.cursor = some cursor ∨ cursor ∈ position.seenCursors then
      { w with stream := none }
    else if maxCollection ≤ position.pageNumber + 1 then { w with stream := none }
    else askPage b taskRef w
      { position with
        cursor := some cursor
        seenCursors := cursor :: position.seenCursors
        pageNumber := position.pageNumber + 1 }
      drawn reachable

/-- The stream has received a page. -/
def streamPage (taskRef : String) (w : Mirrors) (position : Position) (request : Request)
    (now : Int) (payload : Object) : Mirrors :=
  let (reading, cursor) := readPage b now request payload w.adapter
  let w := { w with adapter := reading.adapter, accepted := w.accepted ++ reading.fresh }
  match reading.failure with
  | some _ => { w with stream := none }
  | none =>
    match taskPage b taskRef maxCollection reading.fresh cursor with
    | .error _ => { w with stream := none }
    | .ok page => { w with stream := some (.yielding position page.items page.nextCursor) }

/-- A read of the route has received its page, which it returns. -/
def routePage (w : Mirrors) (n : ℕ) (read : Read) (now : Int) (payload : Object) : Mirrors :=
  let (reading, cursor) := readPage b now read.request payload w.adapter
  let page : Except Failure Page := match reading.failure with
    | some failure => .error failure
    | none => taskPage b read.taskRef read.limit reading.fresh cursor
  { w with
    adapter := reading.adapter
    accepted := w.accepted ++ reading.fresh
    reads := w.reads.erase n
    results := match page with
      | .ok page => (n, page) :: w.results
      | .error _ => w.results }

/-- The turns of the mirror of one remote task and of the other readers. -/
def turn (remote : String) (w : Mirrors) : Turn → Option Mirrors
  | .hear messages =>
    some { w with
      adapter := { w.adapter with seenMessages := messages ++ w.adapter.seenMessages } }
  | .capabilities now owner workspace request payload =>
    some { w with
      adapter := (receiveCapabilities b now owner workspace request payload w.adapter).2 }
  | .openStream task drawn reachable =>
    if w.stream.isNone ∧ task.text b.rt "remote_task_id" = remote then
      some (openStream b w task drawn reachable)
    else none
  | .route n taskRef owner workspace cursor limit drawn reachable =>
    if (w.reads.get? n).isNone then
      some (match eventsRequest b w.adapter drawn taskRef owner workspace cursor limit with
        | .error _ => w
        | .ok request =>
          if reachable then
            { w with
              reads := w.reads.set n { taskRef := taskRef, limit := limit, request := request } }
          else w)
    else none
  | .page .stream now payload =>
    match w.stream with
    | some (.reading position request) =>
      some (streamPage b remote w position request now payload)
    | _ => none
  | .page (.route n) now payload =>
    match w.reads.get? n with
    | some read => some (routePage b w n read now payload)
    | none => none
  | .fail .stream =>
    match w.stream with
    | some (.reading _ _) => some { w with stream := none }
    | _ => none
  | .fail (.route n) =>
    match w.reads.get? n with
    | some _ => some { w with reads := w.reads.erase n }
    | none => none
  | .next =>
    match w.stream with
    | some (.yielding position (e :: items) nextCursor) =>
      some { w with
        stream := if e.terminal then none else some (.yielding position items nextCursor)
        delivered := w.delivered ++ [e] }
    | _ => none
  | .resume drawn reachable =>
    match w.stream with
    | some (.yielding position [] nextCursor) =>
      some (turnPage b remote w position drawn reachable nextCursor)
    | some (.sleeping position) =>
      some (askPage b remote w position.restart drawn reachable)
    | _ => none
  | .status outcome =>
    match w.stream with
    | some (.asking position) =>
      some { w with
        stream := match outcome with
          | .active => some (.sleeping position)
          | .terminal => none
          | .raised => none }
    | _ => none
  | .close =>
    match w.stream with
    | some _ => some { w with stream := none }
    | none => none

/-- An adapter that has read no events. -/
def Mirrors.initial : Mirrors :=
  { adapter := Adapter.fresh
    stream := none
    reads := Dict.empty
    accepted := []
    delivered := []
    results := [] }

/-- The readers of the events of an adapter, with the mirror of one remote task. -/
def readers (remote : String) : TransitionSystem Mirrors Turn where
  init := fun w => w = Mirrors.initial
  step := turn b remote

end Pandamonium.ExternalAgent
