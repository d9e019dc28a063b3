import Pandamonium.Library.Calls
import Pandamonium.Library.ChangeLedger

/-!
# Calendars on a CalDAV server

Three flows work on the events of one owner: the local operations of `calendar_routes.py` and of the
agent's calendar tool, the write-back of `caldav_writeback.py`, and the pull of `caldav_sync.py`.
A step is a transaction on the tables or an answer of the server.  The pull looks at the rows one by
one and writes what it has assigned to them when it commits; a column it has assigned what it had
read is not written.

What the server answers is arbitrary, as others use it too.  A ledger says here what the last local
change of an event of a CalDAV calendar was and whether the server has taken it.  The calendars
themselves, the colour and the tags of an event are left out.
-/

set_option autoImplicit false

namespace Pandamonium.CalendarSync

open Pandamonium.Library

/-! ## Rows -/

/-- What an event says.  Times are in seconds. -/
structure Fields where
  summary : String
  description : String
  location : String
  dtstart : Int
  dtend : Int
  allDay : Bool
  isUtc : Bool
  rrule : String
  recurrenceExdates : List String
  deriving DecidableEq, Repr

/-- `caldav_sync_pending` -/
inductive Pending
  | create
  | update
  deriving DecidableEq, Repr

/-- A row of `calendar_events`. -/
structure Event where
  calendarId : String
  fields : Fields
  status : String
  origin : Option String
  remoteHref : Option String
  remoteEtag : Option String
  caldavSyncPending : Option Pending
  deriving DecidableEq, Repr

/-- A row of `caldav_deleted_events`. -/
structure Tombstone where
  calendarId : String
  remoteHref : Option String
  remoteEtag : Option String
  summary : String
  lastError : Option String
  deriving DecidableEq, Repr

/-- A local change of an event. -/
inductive Change
  | edited (fields : Fields)
  /-- The event is deleted, with a tombstone or without. -/
  | deleted (tombstone : Bool)
  deriving DecidableEq, Repr

def Change.isDeletion : Change → Bool
  | .edited _ => false
  | .deleted _ => true

structure Store where
  events : Dict String Event
  tombstones : Dict String Tombstone
  ledger : Ledger String Change

/-! ## Local operations -/

section

variable (caldav : String → Bool)

/-- `create_event` -/
def createEvent (uid calendarId : String) (fields : Fields) (w : Store) : Store :=
  { w with
    events := w.events.set uid
      { calendarId := calendarId
        fields := fields
        status := "confirmed"
        origin := none
        remoteHref := none
        remoteEtag := none
        caldavSyncPending := if caldav calendarId then some .create else none }
    ledger := if caldav calendarId then w.ledger.record uid (.edited fields) else w.ledger }

/-- `update_event`, and the deletion of an occurrence: what the row says is edited. -/
def updateEvent (uid : String) (edit : Fields → Fields) (row : Event) (w : Store) : Store :=
  { w with
    events := w.events.set uid
      { row with
        fields := edit row.fields
        caldavSyncPending :=
          if caldav row.calendarId then some .update else row.caldavSyncPending }
    ledger :=
      if caldav row.calendarId then w.ledger.record uid (.edited (edit row.fields))
      else w.ledger }

/-- The deletion of the event is pushed; the agent's tool only does so when it has been to the
server. -/
def leavesTombstone (byTool : Bool) (row : Event) : Bool :=
  caldav row.calendarId && (!byTool || row.remoteHref.isSome)

/-- `delete_event` -/
def deleteEvent (uid : String) (byTool : Bool) (row : Event) (w : Store) : Store :=
  { events := w.events.erase uid
    tombstones :=
      if leavesTombstone caldav byTool row then
        w.tombstones.set uid
          { calendarId := row.calendarId
            remoteHref := row.remoteHref
            remoteEtag := row.remoteEtag
            summary := row.fields.summary
            lastError := none }
      else w.tombstones
    ledger :=
      if caldav row.calendarId then
        w.ledger.record uid (.deleted (leavesTombstone caldav byTool row))
      else w.ledger }

/-! ## Write-back -/

/-- A push of an event or of its deletion, and what a failed one marks the event with. -/
structure Push where
  uid : String
  delete : Bool
  marks : Option Pending
  deriving DecidableEq, Repr

/-- `_load_event_for_writeback` and `_load_delete_for_writeback`: the calendar, and the payload
where an event is pushed. -/
def load (push : Push) (w : Store) : Option (String × Option Fields) :=
  match push.delete, w.tombstones.get? push.uid with
  | true, some tombstone => some (tombstone.calendarId, none)
  | _, _ =>
    match w.events.get? push.uid with
    | some row =>
      if caldav row.calendarId then
        some (row.calendarId, if push.delete then none else some row.fields)
      else none
    | none => none

/-- The change is the one that is pushed with this payload. -/
def carries (payload : Option Fields) : Change → Bool
  | .edited fields => payload == some fields
  | .deleted _ => payload.isNone

/-- The number of the change that the push carries. -/
def Push.stamp (push : Push) (payload : Option Fields) (w : Store) : Option ℕ :=
  w.ledger.stamp push.uid (carries payload)

/-- What `push_event` returns, or what is made of its exception. -/
inductive Result
  | ok (href etag : String)
  | failed (error : String)
  deriving DecidableEq, Repr

/-- `text or None` -/
def orNone (text : String) : Option String := if text = "" then none else some text

/-- `_persist_writeback_result` -/
def persist (push : Push) (result : Result) (w : Store) : Store :=
  match push.delete, result with
  | true, .ok _ _ => { w with tombstones := w.tombstones.erase push.uid }
  | true, .failed error =>
    match w.tombstones.get? push.uid with
    | some tombstone =>
      { w with
        tombstones := w.tombstones.set push.uid
          { tombstone with lastError := some (String.ofList (error.toList.take 500)) } }
    | none => w
  | false, .ok href etag =>
    match w.events.get? push.uid with
    | some row =>
      { w with
        events := w.events.set push.uid
          { row with
            remoteHref := orNone href <|> row.remoteHref
            remoteEtag := orNone etag <|> row.remoteEtag
            caldavSyncPending := none } }
    | none => w
  | false, .failed _ => w

/-- A failed push marks the event behind its commit. -/
def mark (uid : String) (pending : Pending) (w : Store) : Store :=
  match w.events.get? uid with
  | some row => { w with events := w.events.set uid { row with caldavSyncPending := some pending } }
  | none => w

/-- `_pending_writeback_uids`: what `push_pending_events` pushes. -/
def pendingWriteback (w : Store) : List Push :=
  (w.events.items.filter fun item => caldav item.2.calendarId && item.2.status != "cancelled" &&
      (item.2.caldavSyncPending.isSome || item.2.remoteHref.isNone)).map
    (fun item => { uid := item.1, delete := false, marks := none }) ++
  w.tombstones.items.map fun item => { uid := item.1, delete := true, marks := none }

end

/-! ## Pull -/

/-- `_ensure_positive_duration` -/
def ensurePositiveDuration (start finish : Int) (allDay : Bool) : Int :=
  if finish ≤ start then start + (if allDay then 86400 else 3600) else finish

/-- A component that the server returns. -/
structure Component where
  uid : String
  /-- Its start, whether that is a date, and whether it has a time zone. -/
  dtstart : Option (Int × Bool × Bool)
  dtend : Option Int
  summary : String
  description : String
  location : String
  rrule : String
  href : String
  etag : String
  deriving DecidableEq, Repr

/-- What the server returns in answer to `date_search`. -/
inductive Fetched
  /-- The object is no iCalendar text. -/
  | unreadable
  | component (c : Component)
  deriving DecidableEq, Repr

/-- What a component assigns to the columns of a row. -/
structure Pulled where
  fields : Fields
  remoteHref : Option String
  remoteEtag : Option String
  deriving DecidableEq, Repr

/-- What the loop makes of a component, `none` where it has no start. -/
def Component.pulled (c : Component) : Option Pulled :=
  c.dtstart.map fun (start, allDay, zoned) =>
    { fields :=
        { summary := c.summary
          description := c.description
          location := c.location
          dtstart := start
          dtend := ensurePositiveDuration start
            (c.dtend.getD (start + if allDay then 86400 else 3600)) allDay
          allDay := allDay
          isUtc := !allDay && zoned
          rrule := c.rrule
          recurrenceExdates := [] }
      remoteHref := orNone c.href
      remoteEtag := orNone c.etag }

/-- What the session holds for an identifier. -/
inductive Plan
  | insert (pulled : Pulled)
  | update (read : Event) (pulled : Pulled)
  deriving DecidableEq, Repr

/-- The column is written when it has been assigned another value than was read. -/
def column {α : Type} [DecidableEq α] (read assigned current : α) : α :=
  if assigned = read then current else assigned

/-- The row behind an `UPDATE` with what was assigned. -/
def merge (read : Event) (pulled : Pulled) (current : Event) : Event where
  calendarId := current.calendarId
  fields :=
    { summary := column read.fields.summary pulled.fields.summary current.fields.summary
      description :=
        column read.fields.description pulled.fields.description current.fields.description
      location := column read.fields.location pulled.fields.location current.fields.location
      dtstart := column read.fields.dtstart pulled.fields.dtstart current.fields.dtstart
      dtend := column read.fields.dtend pulled.fields.dtend current.fields.dtend
      allDay := column read.fields.allDay pulled.fields.allDay current.fields.allDay
      isUtc := column read.fields.isUtc pulled.fields.isUtc current.fields.isUtc
      rrule := column read.fields.rrule pulled.fields.rrule current.fields.rrule
      recurrenceExdates := current.fields.recurrenceExdates }
  status := current.status
  origin := column read.origin (some "caldav") current.origin
  remoteHref := column read.remoteHref pulled.remoteHref current.remoteHref
  remoteEtag := column read.remoteEtag pulled.remoteEtag current.remoteEtag
  caldavSyncPending := column read.caldavSyncPending none current.caldavSyncPending

/-- The calendar and the window of a pull. -/
structure Window where
  calendarId : String
  start : Int
  finish : Int
  deriving DecidableEq, Repr

/-- What the loop over the objects has come to. -/
structure Pulling where
  plans : Dict String Plan
  seenUids : List String
  parseFailed : Bool

/-- `_find_existing_event` and what is done with what it finds, for one component. -/
def plan (window : Window) (uid : String) (pulled : Pulled) (w : Store)
    (plans : Dict String Plan) : Dict String Plan :=
  match plans.get? uid with
  | some (.insert _) => plans.set uid (.insert pulled)
  | some (.update read _) => plans.set uid (.update read pulled)
  | none =>
    match (w.events.get? uid).filter fun row => row.calendarId = window.calendarId with
    | none => plans.set uid (.insert pulled)
    | some row =>
      if row.caldavSyncPending.isSome then plans else plans.set uid (.update row pulled)

/-- One round of the loop over the objects. -/
def pullObject (window : Window) (w : Store) (s : Pulling) : Fetched → Pulling
  | .unreadable => { s with parseFailed := true }
  | .component c =>
    let seen := { s with seenUids := c.uid :: s.seenUids }
    match c.pulled with
    | none => seen
    | some pulled => { seen with plans := plan window c.uid pulled w s.plans }

/-- One statement of the commit, `none` where it fails: a row is there that is to be added, or is
not there that is to be changed. -/
def write (window : Window) (events : Dict String Event) (item : String × Plan) :
    Option (Dict String Event) :=
  match item.2, events.get? item.1 with
  | .insert pulled, none =>
    some (events.set item.1
      { calendarId := window.calendarId
        fields := pulled.fields
        status := "confirmed"
        origin := some "caldav"
        remoteHref := pulled.remoteHref
        remoteEtag := pulled.remoteEtag
        caldavSyncPending := none })
  | .insert _, some _ => none
  | .update read pulled, some current => some (events.set item.1 (merge read pulled current))
  -- no statement where nothing has been assigned
  | .update read pulled, none => if merge read pulled read = read then some events else none

/-- The commit of what the loop has assigned, `none` where it is rolled back. -/
def writeAll (window : Window) (plans : Dict String Plan) (events : Dict String Event) :
    Option (Dict String Event) :=
  plans.items.foldlM (write window) events

/-- The rows that have gone from the server. -/
def stale (window : Window) (seenUids : List String) (w : Store) : List String :=
  (w.events.items.filter fun item =>
    item.2.calendarId == window.calendarId && item.2.origin == some "caldav" &&
      decide (window.start ≤ item.2.fields.dtstart) && decide (item.2.fields.dtstart ≤ window.finish) &&
      item.2.remoteHref.isSome && item.2.caldavSyncPending.isNone &&
      !seenUids.contains item.1).map Prod.fst

/-! ## The steps of a call -/

/-- Where a call is, with what it has read. -/
inductive Frame
  /-- A local operation has been called. -/
  | creating (uid calendarId : String) (fields : Fields)
  | updating (uid : String) (edit : Fields → Fields)
  | deleting (uid : String) (byTool : Bool)
  /-- `push_pending_events` has been called. -/
  | pushingPending
  /-- An event is to be pushed, and the rest behind it. -/
  | sending (push : Push) (rest : List Push)
  /-- Its row has been read. -/
  | carrying (push : Push) (calendarId : String) (payload : Option Fields) (stamp : Option ℕ)
      (rest : List Push)
  /-- The server has answered. -/
  | recording (push : Push) (stamp : Option ℕ) (result : Result) (rest : List Push)
  /-- The push has failed. -/
  | marking (uid : String) (pending : Pending) (rest : List Push)
  /-- `_sync_blocking` has come to a calendar. -/
  | pulling (window : Window)
  /-- The server has returned these objects. -/
  | reading (window : Window) (objects : List Fetched) (pulling : Pulling)
  /-- The commit is done. -/
  | sweeping (window : Window) (seenUids : List String)
  /-- The rows that have gone from the server are read. -/
  | pruning (uids : List String)

/-- What a call takes its next step on. -/
inductive Occurrence
  /-- Rows are read. -/
  | reads
  /-- Rows are written. -/
  | commits
  /-- The server takes what is pushed, and says so. -/
  | applied (href etag : String)
  /-- It does, and the answer is lost. -/
  | lost (error : String)
  /-- It does not. -/
  | refused (error : String)
  /-- There are no credentials, or the account may only be read. -/
  | skips
  /-- The address of the account is not allowed, or something is raised in front of the push. -/
  | rejects
  /-- The server returns what is in the window. -/
  | fetched (objects : List Fetched)
  /-- Something is raised, and the transaction rolled back. -/
  | raises

/-- What a step does to the store. -/
inductive Effect
  | nothing
  | creates (uid calendarId : String) (fields : Fields)
  | updates (uid : String) (edit : Fields → Fields) (row : Event)
  | deletes (uid : String) (byTool : Bool) (row : Event)
  | delivers (uid : String) (stamp : Option ℕ)
  | records (push : Push) (result : Result)
  | marks (uid : String) (pending : Pending)
  | writes (events : Dict String Event)
  | prunes (uids : List String)

section

variable (caldav : String → Bool)

/-- The store behind an effect. -/
def Effect.apply (w : Store) : Effect → Store
  | .nothing => w
  | .creates uid calendarId fields => createEvent caldav uid calendarId fields w
  | .updates uid edit row => updateEvent caldav uid edit row w
  | .deletes uid byTool row => deleteEvent caldav uid byTool row w
  | .delivers uid stamp => { w with ledger := w.ledger.settle uid stamp }
  | .records push result => persist push result w
  | .marks uid pending => mark uid pending w
  | .writes events => { w with events := events }
  | .prunes uids => { w with events := uids.foldl Dict.erase w.events }

/-- The next push. -/
def pushNext : List Push → Option Frame
  | [] => none
  | push :: rest => some (.sending push rest)

/-- What is done about a push that has failed. -/
def afterFailure (push : Push) (rest : List Push) : Option Frame :=
  match push.marks with
  | some pending => some (.marking push.uid pending rest)
  | none => pushNext rest

/-- What is done behind the answer of the server. -/
def afterResult (push : Push) (result : Result) (rest : List Push) : Option Frame :=
  match result with
  | .ok _ _ => pushNext rest
  | .failed _ => afterFailure push rest

/-- What a call does with an occurrence, and what it does next. -/
def act (w : Store) : Frame → Occurrence → Option (Effect × Option Frame)
  | .creating uid calendarId fields, .commits =>
    -- the identifier is drawn, and nothing has had it
    match w.events.get? uid, w.ledger.entries.get? uid with
    | none, none =>
      some (.creates uid calendarId fields,
        if caldav calendarId then
          some (.sending { uid := uid, delete := false, marks := some .create } [])
        else none)
    | _, _ => none
  | .updating uid edit, .commits =>
    match w.events.get? uid with
    | none => some (.nothing, none)
    | some row =>
      some (.updates uid edit row,
        if caldav row.calendarId then
          some (.sending { uid := uid, delete := false, marks := some .update } [])
        else none)
  | .deleting uid byTool, .commits =>
    match w.events.get? uid with
    | none => some (.nothing, none)
    | some row =>
      some (.deletes uid byTool row,
        if leavesTombstone caldav byTool row then
          some (.sending { uid := uid, delete := true, marks := none } [])
        else none)
  | .pushingPending, .reads => some (.nothing, pushNext (pendingWriteback caldav w))
  | .sending push rest, .reads =>
    match load caldav push w with
    | none => some (.nothing, pushNext rest)
    | some (calendarId, payload) =>
      some (.nothing, some (.carrying push calendarId payload (push.stamp payload w) rest))
  | .sending push rest, .rejects => some (.nothing, afterFailure push rest)
  | .carrying push _ _ stamp rest, .applied href etag =>
    some (.delivers push.uid stamp, some (.recording push stamp (.ok href etag) rest))
  | .carrying push _ _ stamp rest, .lost error =>
    some (.delivers push.uid stamp, some (.recording push stamp (.failed error) rest))
  | .carrying push _ _ stamp rest, .refused error =>
    some (.nothing, some (.recording push stamp (.failed error) rest))
  | .carrying _ _ _ _ rest, .skips => some (.nothing, pushNext rest)
  | .carrying push _ _ _ rest, .rejects => some (.nothing, afterFailure push rest)
  | .recording push _ result rest, .commits =>
    some (.records push result, afterResult push result rest)
  -- what is raised here is logged
  | .recording push _ result rest, .raises => some (.nothing, afterResult push result rest)
  | .marking uid pending rest, .commits => some (.marks uid pending, pushNext rest)
  | .marking _ _ rest, .raises => some (.nothing, pushNext rest)
  | .pulling window, .fetched objects =>
    some (.nothing, some (.reading window objects
      { plans := Dict.empty, seenUids := [], parseFailed := false }))
  | .pulling _, .raises => some (.nothing, none)
  | .reading window (object :: objects) s, .reads =>
    some (.nothing, some (.reading window objects (pullObject window w s object)))
  | .reading window [] s, .commits =>
    match writeAll window s.plans w.events with
    | none => some (.nothing, none)
    | some events =>
      some (.writes events, if s.parseFailed then none else some (.sweeping window s.seenUids))
  | .reading _ _ _, .raises => some (.nothing, none)
  | .sweeping window seenUids, .reads => some (.nothing, some (.pruning (stale window seenUids w)))
  | .sweeping _ _, .raises => some (.nothing, none)
  | .pruning uids, .commits => some (.prunes uids, none)
  | .pruning _, .raises => some (.nothing, none)
  | _, _ => none

/-- The frames that a call begins with. -/
def Frame.entry : Frame → Bool
  | .creating _ _ _ | .updating _ _ | .deleting _ _ | .pushingPending => true
  | .pulling window => caldav window.calendarId
  | _ => false

/-- The three flows as a service. -/
def service : Service Store Frame Occurrence where
  entry := Frame.entry caldav
  advance := fun w frame event => (act caldav w frame event).map fun after =>
    (after.1.apply caldav w, after.2)

end

/-- No local change is on its way. -/
def settled (w : Store) : Prop := w.ledger = Ledger.empty

/-! ## Calls to run the steps with -/

/-- No event and no call. -/
def noEvents : Serving Store Frame where
  store := { events := Dict.empty, tombstones := Dict.empty, ledger := Ledger.empty }
  calls := Dict.empty

theorem init_noEvents (caldav : String → Bool) :
    ((service caldav).system settled).init noEvents := ⟨rfl, rfl⟩

/-- An hour with this title. -/
def hour (summary : String) : Fields where
  summary := summary
  description := ""
  location := ""
  dtstart := 1000
  dtend := 4600
  allDay := false
  isUtc := true
  rrule := ""
  recurrenceExdates := []

/-- The same, as the server returns it. -/
def returned (uid summary : String) : Fetched :=
  .component
    { uid := uid
      dtstart := some (1000, false, true)
      dtend := some 4600
      summary := summary
      description := ""
      location := ""
      rrule := ""
      href := "/dav/" ++ uid
      etag := "1" }

/-- An event is created, and its row is read for the push. -/
def creates (call : ℕ) (uid summary : String) : List (Turn Frame Occurrence) :=
  [.begins call (.creating uid "caldav-1" (hour summary)), .goesOn call .commits,
    .goesOn call .reads]

/-- An event is given another title, and its row is read for the push. -/
def renames (call : ℕ) (uid summary : String) : List (Turn Frame Occurrence) :=
  [.begins call (.updating uid fun fields => { fields with summary := summary }),
    .goesOn call .commits, .goesOn call .reads]

/-- An event is deleted, and its tombstone is read for the push. -/
def removes (call : ℕ) (uid : String) : List (Turn Frame Occurrence) :=
  [.begins call (.deleting uid false), .goesOn call .commits, .goesOn call .reads]

/-- The server takes what is pushed, and this is recorded. -/
def succeeds (call : ℕ) (uid : String) : List (Turn Frame Occurrence) :=
  [.goesOn call (.applied ("/dav/" ++ uid) "1"), .goesOn call .commits]

/-- The server does not take it, and this is recorded. -/
def fails (call : ℕ) : List (Turn Frame Occurrence) :=
  [.goesOn call (.refused "timeout"), .goesOn call .commits]

/-- The calendar is pulled, as the server returns this object. -/
def pulls (call : ℕ) (object : Fetched) : List (Turn Frame Occurrence) :=
  [.begins call (.pulling { calendarId := "caldav-1", start := 0, finish := 9000 }),
    .goesOn call (.fetched [object]), .goesOn call .reads, .goesOn call .commits]

end Pandamonium.CalendarSync

/-!
## The pull of a calendar

`_sync_blocking` at one calendar, from the answer of the server to the end: the loop over the
objects and their components, the commit, and the deletion of the rows that have gone.  The
components of an object come one after the other, the overrides of single occurrences among them.
-/

namespace Pandamonium.CalendarSync

open Pandamonium.Library

/-- A `VEVENT` of an object. -/
structure Part where
  component : Component
  /-- `RECURRENCE-ID`, of an override. -/
  recurrenceId : Option Int

/-- What the server returns, `none` where it is no iCalendar text. -/
abbrev CalendarObject := Option (List Part)

/-- `ical.walk()`, of the objects one after the other. -/
def partsOf (objects : List CalendarObject) : List Part := objects.flatMap fun object =>
  object.getD []

/-- What the loop comes to in an object. -/
def fetchedOf : CalendarObject → List Fetched
  | none => [.unreadable]
  | some parts => parts.map fun part => .component part.component

/-- What the server returns for a list of objects. -/
def listing (objects : List CalendarObject) : List Fetched := objects.flatMap fetchedOf

/-- The loop over the objects. -/
def pullObjects (window : Window) (w : Store) (fetched : List Fetched) : Pulling :=
  fetched.foldl (pullObject window w) { plans := Dict.empty, seenUids := [], parseFailed := false }

/-- The rows behind the pull, `none` where its commit fails. -/
def pull (window : Window) (w : Store) (objects : List CalendarObject) :
    Option (Dict String Event) :=
  let s := pullObjects window w (listing objects)
  (writeAll window s.plans w.events).map fun events =>
    -- `_should_prune_window`
    if s.parseFailed then events
    else (stale window s.seenUids { w with events := events }).foldl Dict.erase events

/-- A call to its end, when nothing else happens meanwhile. -/
def alone (caldav : String → Bool) : Frame → Store → List Occurrence → Option Store
  | _, _, [] => none
  | frame, w, event :: events =>
    match act caldav w frame event with
    | none => none
    | some (effect, none) => if events.isEmpty then some (effect.apply caldav w) else none
    | some (effect, some next) => alone caldav next (effect.apply caldav w) events

/-- What a call does to the tables, when its steps find these stores and meet with this. -/
def effects (caldav : String → Bool) : Frame → List (Store × Occurrence) → List Effect
  | _, [] => []
  | frame, (w, event) :: rest =>
    match act caldav w frame event with
    | none => []
    | some (effect, none) => [effect]
    | some (effect, some next) => effect :: effects caldav next rest

end Pandamonium.CalendarSync
