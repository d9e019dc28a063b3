import Pandamonium.Library.RoseTree
import Pandamonium.Model.CalendarSync

/-!
# Calendar objects

What `caldav_writeback.py` writes to a CalDAV server for a row, and what the pull of
`caldav_sync.py` reads from an object of the server.

The `icalendar` package and the texts it reads and writes are parameters, as is `strptime`.  A
component is a tree of blocks: the properties of a component stand in its block, under names in
capitals, and the components inside it are its subtrees.
-/

set_option autoImplicit false

namespace Pandamonium.CalendarObjects

open Pandamonium.Library
open Pandamonium.CalendarSync (Fields)

/-! ## Components -/

def day : Int := 86400

def hour : Int := 3600

/-- A `date`, a `datetime` without a time zone, or the instant of one with a time zone.  Days count
from an epoch, times and instants are seconds since then. -/
inductive When
  | date (day : Int)
  | naive (time : Int)
  | aware (instant : Int)
  deriving DecidableEq, Repr

/-- `dt.date()` -/
def dateOf (time : Int) : When := .date (time / day)

/-- A component without the components inside it. -/
structure Block (P : Type) where
  name : String
  properties : Dict String P

abbrev Component (P : Type) := RoseTree (Block P)

/-- `component.walk(name)` -/
def walk {P : Type} (component : Component P) (name : String) : List (Block P) :=
  component.labels.filter fun block => block.name = name

/-- The `icalendar` package over its property values and its texts. -/
structure ICalendar (P T : Type) where
  vText : String → P
  vDDDTypes : When → P
  /-- All the dates added under one name. -/
  vDDDLists : List When → P
  /-- `vRecur.from_ical`, where it does not raise. -/
  vRecur : String → Option P
  /-- `str(value)` -/
  str : P → String
  /-- `bool(value)` -/
  truthy : P → Bool
  /-- `value.dt` of a date, where there is one. -/
  dt : P → Option When
  /-- `value.to_ical().decode()`, where there is one. -/
  valueToIcal : P → Option String
  /-- `calendar.to_ical().decode("utf-8")` -/
  toIcal : Component P → T
  /-- `Calendar.from_ical`, where it does not raise. -/
  fromIcal : T → Option (Component P)
  /-- `datetime.strptime`, where it does not raise. -/
  strptime : String → String → Option Int
  str_vText (s : String) : str (vText s) = s
  truthy_vDDDTypes (w : When) : truthy (vDDDTypes w) = true
  dt_vDDDTypes (w : When) : dt (vDDDTypes w) = some w
  fromIcal_toIcal (component : Component P) : fromIcal (toIcal component) = some component

/-- A row of `calendar_events` with its key. -/
structure EventRow where
  uid : String
  fields : Fields
  deriving DecidableEq, Repr

section

variable {P T : Type} (I : ICalendar P T)

/-! ## Write-back -/

/-- What is added as `dtstart` and as `dtend`. -/
def startAndEnd (fields : Fields) : When × When :=
  if fields.allDay then (dateOf fields.dtstart, dateOf fields.dtend)
  else if fields.isUtc then (.aware fields.dtstart, .aware fields.dtend)
  else (.naive fields.dtstart, .naive fields.dtend)

/-- `s[:n]` -/
def sliceTo (n : ℕ) (s : String) : String := String.ofList (s.toList.take n)

/-- The `exdate` of a text, where it can be parsed. -/
def exdateOf (fields : Fields) (exdate : String) : Option When :=
  if fields.allDay then (I.strptime (sliceTo 10 exdate) "%Y-%m-%d").map dateOf
  else
    (I.strptime (sliceTo 16 exdate) "%Y-%m-%dT%H:%M").map fun time =>
      if fields.isUtc then .aware time else .naive time

/-- `ve.add(name, value)`, where there is something to add. -/
def add (name : String) (value : Option P) (ve : Dict String P) : Dict String P :=
  match value with
  | some value => ve.set name value
  | none => ve

/-- The text, unless it is empty. -/
def nonempty (s : String) : Option String := if s = "" then none else some s

/-- The properties of the event that `build_event_ical` adds. -/
def buildEvent (ev : EventRow) : Dict String P :=
  let exdates := ev.fields.recurrenceExdates.filterMap (exdateOf I ev.fields)
  let ve := Dict.empty.set "UID" (I.vText ev.uid)
  let ve := ve.set "SUMMARY" (I.vText ev.fields.summary)
  let ve := add "DESCRIPTION" ((nonempty ev.fields.description).map I.vText) ve
  let ve := add "LOCATION" ((nonempty ev.fields.location).map I.vText) ve
  let ve := ve.set "DTSTART" (I.vDDDTypes (startAndEnd ev.fields).1)
  let ve := ve.set "DTEND" (I.vDDDTypes (startAndEnd ev.fields).2)
  let ve := add "RRULE" ((nonempty ev.fields.rrule).bind I.vRecur) ve
  add "EXDATE" (if exdates = [] then none else some (I.vDDDLists exdates)) ve

/-- The calendar that `build_event_ical` encodes. -/
def buildCalendar (ev : EventRow) : Component P :=
  let properties := Dict.empty.set "PRODID" (I.vText "-//Pandamonium//CalDAV write-back//EN")
  .node ⟨"VCALENDAR", properties.set "VERSION" (I.vText "2.0")⟩
    [.node ⟨"VEVENT", buildEvent I ev⟩ []]

/-- `build_event_ical` -/
def buildEventIcal (ev : EventRow) : T := I.toIcal (buildCalendar I ev)

/-- `str(component.get("UID") or "") == uid and "RECURRENCE-ID" not in component`, of an event -/
def isMaster (uid : String) (block : Block P) : Bool :=
  block.name = "VEVENT" &&
    (((block.properties.get? "UID").filter I.truthy).map I.str).getD "" = uid &&
    (block.properties.get? "RECURRENCE-ID").isNone

/-- The names that the merge replaces. -/
def owned : List String :=
  ["SUMMARY", "DESCRIPTION", "LOCATION", "DTSTART", "DTEND", "RRULE", "EXDATE"]

/-- One turn of the loop of `_merge_event_ical`. -/
def takeOver (replacement : Dict String P) (properties : Dict String P) (name : String) :
    Dict String P :=
  add name (replacement.get? name) (properties.erase name)

/-- The calendar with the owned properties of its master taken from the replacement. -/
def mergeInto (uid : String) (replacement : Dict String P) (calendar : Component P) : Component P :=
  calendar.map fun block =>
    if isMaster I uid block then
      { block with properties := owned.foldl (takeOver replacement) block.properties }
    else block

/-- `_merge_event_ical` -/
def mergeEventIcal (existing : T) (ev : EventRow) : Except String T :=
  match I.fromIcal existing with
  | none => .error "remote event data is not iCalendar text"
  | some calendar =>
    if calendar.label.name ≠ "VCALENDAR" then
      .error "remote event data is not a VCALENDAR"
    else if (calendar.labels.filter (isMaster I ev.uid)).length ≠ 1 then
      .error "remote master VEVENT is missing or ambiguous"
    else
      match (I.fromIcal (buildEventIcal I ev)).map (walk · "VEVENT") with
      | some (replacement :: _) =>
        .ok (I.toIcal (mergeInto I ev.uid replacement.properties calendar))
      | _ => .error "list index out of range"

/-! ## Pull -/

/-- What the pull assigns to a row. -/
structure Pulled where
  summary : String
  description : String
  location : String
  dtstart : Int
  dtend : Int
  allDay : Bool
  isUtc : Bool
  rrule : String
  deriving DecidableEq, Repr

/-- A row the pull assigns to; without a uid it is a new row under a new `uuid4`. -/
structure Reading where
  uid : Option String
  pulled : Pulled
  deriving DecidableEq, Repr

/-- `_to_utc_naive` -/
def toUtcNaive : When → Int × Bool
  | .aware instant => (instant, false)
  | .naive time => (time, false)
  | .date d => (d * day, true)

/-- `_ensure_positive_duration` -/
def ensurePositiveDuration (start stop : Int) (allDay : Bool) : Int :=
  if stop ≤ start then start + (if allDay then day else hour) else stop

/-- `str(comp.get(name, ""))` -/
def strAt (name : String) (comp : Dict String P) : String := ((comp.get? name).map I.str).getD ""

/-- `comp.get(name)`, where it counts as true. -/
def truthyAt (name : String) (comp : Dict String P) : Option P := (comp.get? name).filter I.truthy

/-- The end before it is clamped, where nothing raises. -/
def readEnd (start : Int) (allDay : Bool) (comp : Dict String P) : Option Int :=
  match truthyAt I "DTEND" comp with
  | some dtendP => (I.dt dtendP).map fun dtend => (toUtcNaive dtend).1
  | none => some (start + (if allDay then day else hour))

/-- The recurrence, where nothing raises. -/
def readRrule (comp : Dict String P) : Option String :=
  match truthyAt I "RRULE" comp with
  | some rrule => I.valueToIcal rrule
  | none => some ""

/-- What the pull reads from an event with this start, where nothing raises. -/
def readFrom (dtstart : When) (comp : Dict String P) : Option Reading :=
  let (start, allDay) := toUtcNaive dtstart
  match readEnd I start allDay comp, readRrule I comp with
  | some stop, some rrule =>
    some
      { uid := nonempty (strAt I "UID" comp)
        pulled :=
          { summary := strAt I "SUMMARY" comp
            description := strAt I "DESCRIPTION" comp
            location := strAt I "LOCATION" comp
            dtstart := start
            dtend := ensurePositiveDuration start stop allDay
            allDay := allDay
            isUtc := match dtstart with
              | .aware _ => true
              | _ => false
            rrule := rrule } }
  | _, _ => none

/-- One turn of the pull at an event: nothing is read where it has no start, and `none` is an
exception. -/
def readEvent (comp : Dict String P) : Option (Option Reading) :=
  match truthyAt I "DTSTART" comp with
  | none => some none
  | some dtstartP => (I.dt dtstartP).bind fun dtstart => (readFrom I dtstart comp).map some

/-- The loop of the pull over `ical.walk()`. -/
def readAll : List (Block P) → Option (List Reading)
  | [] => some []
  | comp :: comps =>
    if comp.name ≠ "VEVENT" then readAll comps
    else
      match readEvent I comp.properties, readAll comps with
      | some reading, some readings => some (reading.toList ++ readings)
      | _, _ => none

/-- The pull of one object, where nothing raises; an object that cannot be parsed is passed over. -/
def pull (object : T) : Option (List Reading) :=
  match I.fromIcal object with
  | none => some []
  | some ical => readAll I ical.labels

/-- What is in the row after the pull, where the object has assigned to it. -/
def rowAfter (uid : String) (readings : List Reading) : Option Pulled :=
  ((readings.filter fun reading => reading.uid = some uid).getLast?).map Reading.pulled

end

end Pandamonium.CalendarObjects
