import Pandamonium.Model.CalendarObjects

/-!
# What is written for a row and read back

The pull reads from the object that was written for a row what the row says, exactly where the end
of the event is behind its start, an event of whole days starts and ends at midnight, the package
gives the recurrence back as it is, and, where the object is merged into one that others have
written, no later event of the object has the same uid and says something else.

A `VEVENT` that overrides one occurrence has the uid of its master, and the pull assigns it to the
same row.
-/

set_option autoImplicit false

namespace Pandamonium.CalendarObjects

open Pandamonium.Library
open Pandamonium.CalendarSync (Fields)

/-! ## What is to come back -/

/-- The owned fields of a row, as the pull reads them. -/
structure Owned where
  summary : String
  dtstart : Int
  dtend : Int
  allDay : Bool
  rrule : String
  location : String
  description : String
  deriving DecidableEq

def ownedOf (fields : Fields) : Owned :=
  { summary := fields.summary
    dtstart := fields.dtstart
    dtend := fields.dtend
    allDay := fields.allDay
    rrule := fields.rrule
    location := fields.location
    description := fields.description }

def Pulled.owned (pulled : Pulled) : Owned :=
  { summary := pulled.summary
    dtstart := pulled.dtstart
    dtend := pulled.dtend
    allDay := pulled.allDay
    rrule := pulled.rrule
    location := pulled.location
    description := pulled.description }

section

variable {P T : Type} (I : ICalendar P T)

/-- The pull of the object leaves the owned fields of the row as they are. -/
def GivesBack (ev : EventRow) (object : T) : Prop :=
  ∃ readings pulled, pull I object = some readings ∧
    rowAfter ev.uid readings = some pulled ∧ pulled.owned = ownedOf ev.fields

/-- The owned properties of the masters taken out. -/
def disown (uid : String) (block : Block P) : Block P :=
  if isMaster I uid block then { block with properties := owned.foldl Dict.erase block.properties }
  else block

def isOverride (block : Block P) : Bool :=
  block.name = "VEVENT" && (block.properties.get? "RECURRENCE-ID").isSome

/-- Apart from the owned properties of the master the merged calendar is the one that was there;
what overrides an occurrence is unchanged. -/
structure LeavesRest (uid : String) (calendar merged : Component P) : Prop where
  rest : merged.map (disown I uid) = calendar.map (disown I uid)
  overrides : merged.labels.filter isOverride = calendar.labels.filter isOverride

/-- What is written for the row, alone or into an existing object, is read back; the merge leaves
the rest of the object. -/
def RoundTrips (ev : EventRow) (existing : T) : Prop :=
  GivesBack I ev (buildEventIcal I ev) ∧
    ∀ object, mergeEventIcal I existing ev = .ok object →
      GivesBack I ev object ∧
        ∃ calendar merged, I.fromIcal existing = some calendar ∧
          I.fromIcal object = some merged ∧ LeavesRest I ev.uid calendar merged

/-! ## When it comes back -/

/-- The fields of the row are among those an object can carry. -/
structure Encodable (ev : EventRow) : Prop where
  uid : ev.uid ≠ ""
  positive : ev.fields.dtstart < ev.fields.dtend
  midnight : ev.fields.allDay = true → day ∣ ev.fields.dtstart ∧ day ∣ ev.fields.dtend
  rrule : ev.fields.rrule = "" ∨
    ∃ value, I.vRecur ev.fields.rrule = some value ∧ I.truthy value = true ∧
      I.valueToIcal value = some ev.fields.rrule

/-- Where the merge finds its master, the other events of the object can be read, and those behind
the master do not leave anything else in the row. -/
def Unmasked (ev : EventRow) (existing : T) : Prop :=
  ∀ calendar before master after, I.fromIcal existing = some calendar →
    calendar.label.name = "VCALENDAR" → calendar.labels = before ++ master :: after →
    calendar.labels.filter (isMaster I ev.uid) = [master] →
    (readAll I before).isSome ∧ ∃ readings, readAll I after = some readings ∧
      ∀ pulled, rowAfter ev.uid readings = some pulled → pulled.owned = ownedOf ev.fields

/-! ## The properties of the written event -/

@[simp] theorem get?_add (name : String) (value : Option P) (ve : Dict String P) (key : String) :
    (add name value ve).get? key = if key = name then value.or (ve.get? key) else ve.get? key := by
  cases value with
  | none => simp [add]
  | some value => simp [add, Dict.get?_set]

theorem get?_buildEvent_uid (ev : EventRow) :
    (buildEvent I ev).get? "UID" = some (I.vText ev.uid) := by
  simp [buildEvent, Dict.get?_set]

theorem get?_buildEvent_summary (ev : EventRow) :
    (buildEvent I ev).get? "SUMMARY" = some (I.vText ev.fields.summary) := by
  simp [buildEvent, Dict.get?_set]

theorem get?_empty (key : String) : (Dict.empty : Dict String P).get? key = none := rfl

theorem get?_buildEvent_description (ev : EventRow) :
    (buildEvent I ev).get? "DESCRIPTION" = (nonempty ev.fields.description).map I.vText := by
  simp [buildEvent, Dict.get?_set, get?_empty]

theorem get?_buildEvent_location (ev : EventRow) :
    (buildEvent I ev).get? "LOCATION" = (nonempty ev.fields.location).map I.vText := by
  simp [buildEvent, Dict.get?_set, get?_empty]

theorem get?_buildEvent_dtstart (ev : EventRow) :
    (buildEvent I ev).get? "DTSTART" = some (I.vDDDTypes (startAndEnd ev.fields).1) := by
  simp [buildEvent, Dict.get?_set]

theorem get?_buildEvent_dtend (ev : EventRow) :
    (buildEvent I ev).get? "DTEND" = some (I.vDDDTypes (startAndEnd ev.fields).2) := by
  simp [buildEvent]

theorem get?_buildEvent_rrule (ev : EventRow) :
    (buildEvent I ev).get? "RRULE" = (nonempty ev.fields.rrule).bind I.vRecur := by
  simp [buildEvent, Dict.get?_set, get?_empty]

/-- The properties that the pull reads beside the uid are those of the written event. -/
def Written (ev : EventRow) (comp : Dict String P) : Prop :=
  ∀ name ∈ owned, comp.get? name = (buildEvent I ev).get? name

/-! ## Reading it -/

/-- The recurrence that is read from the written event. -/
def writtenRrule (rrule : String) : Option String :=
  match ((nonempty rrule).bind I.vRecur).filter I.truthy with
  | some value => I.valueToIcal value
  | none => some ""

/-- What is read from the written event, with this recurrence. -/
def writtenPulled (fields : Fields) (rrule : String) : Pulled :=
  let start := (toUtcNaive (startAndEnd fields).1).1
  let stop := (toUtcNaive (startAndEnd fields).2).1
  { summary := fields.summary
    description := fields.description
    location := fields.location
    dtstart := start
    dtend := ensurePositiveDuration start stop fields.allDay
    allDay := fields.allDay
    isUtc := !fields.allDay && fields.isUtc
    rrule := rrule }

theorem allDay_startAndEnd (fields : Fields) :
    (toUtcNaive (startAndEnd fields).1).2 = fields.allDay := by
  cases h : fields.allDay <;> cases h' : fields.isUtc <;>
    simp [startAndEnd, h, h', toUtcNaive, dateOf]

theorem str_nonempty (s : String) : (((nonempty s).map I.vText).map I.str).getD "" = s := by
  by_cases h : s = ""
  · simp [nonempty, h]
  · simp [nonempty, h, I.str_vText]

variable {ev : EventRow}

theorem readEvent_of_written {comp : Dict String P} (h : Written I ev comp) :
    readEvent I comp = (writtenRrule I ev.fields.rrule).map fun rrule =>
      some ⟨nonempty (strAt I "UID" comp), writtenPulled ev.fields rrule⟩ := by
  have hstart : truthyAt I "DTSTART" comp = some (I.vDDDTypes (startAndEnd ev.fields).1) := by
    simp [truthyAt, h "DTSTART" (by decide), get?_buildEvent_dtstart, I.truthy_vDDDTypes]
  have hstop : truthyAt I "DTEND" comp = some (I.vDDDTypes (startAndEnd ev.fields).2) := by
    simp [truthyAt, h "DTEND" (by decide), get?_buildEvent_dtend, I.truthy_vDDDTypes]
  have hrrule : readRrule I comp = writtenRrule I ev.fields.rrule := by
    have hvalue : truthyAt I "RRULE" comp =
        ((nonempty ev.fields.rrule).bind I.vRecur).filter I.truthy := by
      rw [truthyAt, h "RRULE" (by decide), get?_buildEvent_rrule]
    exact congrArg (fun value => match value with
      | some rrule => I.valueToIcal rrule
      | none => some "") hvalue
  have hsummary : strAt I "SUMMARY" comp = ev.fields.summary := by
    simp [strAt, h "SUMMARY" (by decide), get?_buildEvent_summary, I.str_vText]
  have hdescription : strAt I "DESCRIPTION" comp = ev.fields.description := by
    rw [strAt, h "DESCRIPTION" (by decide), get?_buildEvent_description, str_nonempty]
  have hlocation : strAt I "LOCATION" comp = ev.fields.location := by
    rw [strAt, h "LOCATION" (by decide), get?_buildEvent_location, str_nonempty]
  simp only [readEvent, hstart, I.dt_vDDDTypes, Option.bind_some, readFrom, readEnd, hstop,
    Option.map_some, hrrule]
  cases writtenRrule I ev.fields.rrule with
  | none => rfl
  | some rrule =>
    simp only [Option.map_some, writtenPulled, allDay_startAndEnd, hsummary, hdescription,
      hlocation]
    congr 4
    cases h : ev.fields.allDay <;> cases h' : ev.fields.isUtc <;> simp [startAndEnd, h, h', dateOf]

/-! ## Times and recurrences that come back -/

/-- The start and the end come back exactly where the end is later, and where the days are whole if
the event is of whole days. -/
theorem times_eq_iff (fields : Fields) :
    ((toUtcNaive (startAndEnd fields).1).1 = fields.dtstart ∧
        ensurePositiveDuration (toUtcNaive (startAndEnd fields).1).1
          (toUtcNaive (startAndEnd fields).2).1 fields.allDay = fields.dtend) ↔
      fields.dtstart < fields.dtend ∧
        (fields.allDay = true → day ∣ fields.dtstart ∧ day ∣ fields.dtend) := by
  cases h : fields.allDay with
  | true =>
    simp only [startAndEnd, h, if_true, dateOf, toUtcNaive, ensurePositiveDuration, day,
      true_implies]
    constructor
    · rintro ⟨hstart, hstop⟩
      split at hstop <;> omega
    · rintro ⟨hlt, hstart, hstop⟩
      have hstart' : fields.dtstart / 86400 * 86400 = fields.dtstart := by omega
      have hstop' : fields.dtend / 86400 * 86400 = fields.dtend := by omega
      rw [hstart', hstop', if_neg (by omega)]
      exact ⟨rfl, rfl⟩
  | false =>
    have hboth : (toUtcNaive (startAndEnd fields).1).1 = fields.dtstart ∧
        (toUtcNaive (startAndEnd fields).2).1 = fields.dtend := by
      cases h' : fields.isUtc <;> simp [startAndEnd, h, h', toUtcNaive]
    rw [hboth.1, hboth.2]
    simp only [ensurePositiveDuration, hour, Bool.false_eq_true, false_implies, and_true, true_and,
      if_false]
    constructor
    · intro hstop
      split at hstop <;> omega
    · intro hlt
      rw [if_neg (by omega)]

theorem writtenRrule_eq_some_iff (rrule : String) :
    writtenRrule I rrule = some rrule ↔ rrule = "" ∨
      ∃ value, I.vRecur rrule = some value ∧ I.truthy value = true ∧
        I.valueToIcal value = some rrule := by
  by_cases h : rrule = ""
  · simp [h, writtenRrule, nonempty]
  · cases hvalue : I.vRecur rrule with
    | none => simp [writtenRrule, nonempty, h, hvalue, Ne.symm h]
    | some value =>
      cases htruthy : I.truthy value
      · simp [writtenRrule, nonempty, h, hvalue, htruthy, Ne.symm h, Option.filter]
      · simp [writtenRrule, nonempty, h, hvalue, htruthy, Option.filter]

theorem owned_written_iff (fields : Fields) (rrule : String) :
    (writtenPulled fields rrule).owned = ownedOf fields ↔
      (fields.dtstart < fields.dtend ∧
        (fields.allDay = true → day ∣ fields.dtstart ∧ day ∣ fields.dtend)) ∧
      rrule = fields.rrule := by
  rw [← times_eq_iff]
  simp only [writtenPulled, Pulled.owned, ownedOf, Owned.mk.injEq, true_and, and_true]
  tauto

/-! ## Reading objects -/

theorem readAll_append (comps comps' : List (Block P)) :
    readAll I (comps ++ comps') =
      (readAll I comps).bind fun readings => (readAll I comps').map (readings ++ ·) := by
  induction comps with
  | nil => simp [readAll]
  | cons comp comps ih =>
    rw [List.cons_append, readAll, readAll, ih]
    by_cases hname : comp.name = "VEVENT"
    · rw [if_neg (not_not_intro hname), if_neg (not_not_intro hname)]
      cases readEvent I comp.properties with
      | none => simp
      | some reading =>
        cases readAll I comps with
        | none => simp
        | some readings =>
          cases readAll I comps' with
          | none => simp
          | some readings' => simp
    · rw [if_pos hname, if_pos hname]

variable (uid : String)

theorem rowAfter_append (readings readings' : List Reading) :
    rowAfter uid (readings ++ readings') = (rowAfter uid readings').or (rowAfter uid readings) := by
  simp only [rowAfter, List.filter_append, List.getLast?_append, Option.map_or]

theorem rowAfter_self (pulled : Pulled) :
    rowAfter uid [⟨some uid, pulled⟩] = some pulled := by
  simp [rowAfter]

theorem readAll_event {event : Block P} (hname : event.name = "VEVENT")
    (h : Written I ev event.properties) :
    readAll I [event] = (writtenRrule I ev.fields.rrule).map fun rrule =>
      [⟨nonempty (strAt I "UID" event.properties), writtenPulled ev.fields rrule⟩] := by
  rw [readAll, if_neg (not_not_intro hname), readEvent_of_written I h]
  cases writtenRrule I ev.fields.rrule <;> rfl

theorem Encodable.writtenRrule (h : Encodable I ev) :
    writtenRrule I ev.fields.rrule = some ev.fields.rrule :=
  (writtenRrule_eq_some_iff I _).mpr h.rrule

theorem Encodable.owned (h : Encodable I ev) :
    (writtenPulled ev.fields ev.fields.rrule).owned = ownedOf ev.fields :=
  (owned_written_iff _ _).mpr ⟨⟨h.positive, h.midnight⟩, rfl⟩

theorem Encodable.readAll_event {event : Block P} (henc : Encodable I ev)
    (hname : event.name = "VEVENT") (h : Written I ev event.properties)
    (huid : strAt I "UID" event.properties = ev.uid) :
    readAll I [event] = some [⟨some ev.uid, writtenPulled ev.fields ev.fields.rrule⟩] := by
  rw [CalendarObjects.readAll_event I hname h, henc.writtenRrule, huid, nonempty, if_neg henc.uid]
  rfl

/-- Where the written event stands among others, it is what the last of those behind it leaves. -/
theorem givesBack_among_iff {object : T} {calendar : Component P} {before after : List (Block P)}
    {event : Block P} (henc : Encodable I ev) (hobject : I.fromIcal object = some calendar)
    (hlabels : calendar.labels = before ++ event :: after) (hname : event.name = "VEVENT")
    (h : Written I ev event.properties) (huid : strAt I "UID" event.properties = ev.uid) :
    GivesBack I ev object ↔
      (readAll I before).isSome ∧ ∃ readings, readAll I after = some readings ∧
        ∀ pulled, rowAfter ev.uid readings = some pulled → pulled.owned = ownedOf ev.fields := by
  have hpull : pull I object = (readAll I before).bind fun readings =>
      (readAll I after).map fun readings' =>
        readings ++ ⟨some ev.uid, writtenPulled ev.fields ev.fields.rrule⟩ :: readings' := by
    have hsplit : calendar.labels = before ++ ([event] ++ after) := hlabels
    simp only [pull, hobject, hsplit, readAll_append, henc.readAll_event I hname h huid,
      Option.bind_some, Option.map_map]
    rfl
  have hrow (readings readings' : List Reading) :
      rowAfter ev.uid
          (readings ++ ⟨some ev.uid, writtenPulled ev.fields ev.fields.rrule⟩ :: readings') =
        (rowAfter ev.uid readings').or (some (writtenPulled ev.fields ev.fields.rrule)) := by
    rw [rowAfter_append, ← List.singleton_append, rowAfter_append, rowAfter_self, Option.or_assoc]
    rfl
  constructor
  · rintro ⟨all, pulled, hall, hpulled, howned⟩
    rw [hpull] at hall
    obtain ⟨readings, hbefore, hrest⟩ := Option.bind_eq_some_iff.mp hall
    obtain ⟨readings', hafter, rfl⟩ := Option.map_eq_some_iff.mp hrest
    rw [hrow] at hpulled
    refine ⟨by rw [hbefore]; rfl, readings', hafter, fun pulled' hpulled' => ?_⟩
    rw [hpulled', Option.some_or, Option.some.injEq] at hpulled
    rw [hpulled, howned]
  · rintro ⟨hbefore, readings', hafter, hagree⟩
    obtain ⟨readings, hbefore⟩ := Option.isSome_iff_exists.mp hbefore
    rw [hbefore, hafter] at hpull
    cases hlast : rowAfter ev.uid readings' with
    | none => exact ⟨_, _, hpull, by rw [hrow, hlast]; rfl, henc.owned⟩
    | some pulled => exact ⟨_, pulled, hpull, by rw [hrow, hlast]; rfl, hagree pulled hlast⟩

/-! ## The object of the row alone -/

theorem pull_buildEventIcal (ev : EventRow) :
    pull I (buildEventIcal I ev) = (writtenRrule I ev.fields.rrule).map fun rrule =>
      [⟨nonempty ev.uid, writtenPulled ev.fields rrule⟩] := by
  have huid : strAt I "UID" (buildEvent I ev) = ev.uid := by
    rw [strAt, get?_buildEvent_uid, Option.map_some, I.str_vText]
    rfl
  have hevent := @readAll_event _ _ I ev ⟨"VEVENT", buildEvent I ev⟩ rfl fun _ _ => rfl
  rw [huid] at hevent
  rw [pull, buildEventIcal, I.fromIcal_toIcal, ← hevent]
  exact if_pos (show "VCALENDAR" ≠ "VEVENT" by decide)

theorem givesBack_buildEventIcal_iff (ev : EventRow) :
    GivesBack I ev (buildEventIcal I ev) ↔ Encodable I ev := by
  constructor
  · rintro ⟨readings, pulled, hpull, hrow, howned⟩
    rw [pull_buildEventIcal] at hpull
    obtain ⟨rrule, hrrule, rfl⟩ := Option.map_eq_some_iff.mp hpull
    by_cases huid : ev.uid = ""
    · simp [rowAfter, nonempty, huid] at hrow
    · rw [nonempty, if_neg huid, rowAfter_self] at hrow
      obtain rfl := Option.some.inj hrow
      obtain ⟨⟨hpositive, hmidnight⟩, rfl⟩ := (owned_written_iff _ _).mp howned
      exact ⟨huid, hpositive, hmidnight, (writtenRrule_eq_some_iff I _).mp hrrule⟩
  · intro henc
    have hpull := pull_buildEventIcal I ev
    rw [henc.writtenRrule, nonempty, if_neg henc.uid] at hpull
    exact ⟨_, _, hpull, rowAfter_self _ _, henc.owned⟩

/-! ## The merged object -/

theorem get?_takeOver (replacement properties : Dict String P) (names : List String)
    (key : String) :
    (names.foldl (takeOver replacement) properties).get? key =
      if key ∈ names then replacement.get? key else properties.get? key := by
  induction names generalizing properties with
  | nil => simp
  | cons name names ih =>
    rw [List.foldl_cons, ih, takeOver, get?_add, Dict.get?_erase]
    by_cases hmem : key ∈ names
    · simp [hmem]
    · by_cases hkey : key = name
      · simp [hkey]
      · simp [hmem, hkey]

theorem filter_takeOver (replacement properties : Dict String P) {names : List String}
    (hnames : ∀ name ∈ names, name ∈ owned) :
    (names.foldl (takeOver replacement) properties).items.filter (fun e => decide (e.1 ∉ owned)) =
      properties.items.filter fun e => decide (e.1 ∉ owned) := by
  induction names generalizing properties with
  | nil => rfl
  | cons name names ih =>
    have hname := hnames name (List.mem_cons_self ..)
    have herase : (properties.erase name).items.filter (fun e => decide (e.1 ∉ owned)) =
        properties.items.filter fun e => decide (e.1 ∉ owned) := by
      rw [Dict.erase, List.filter_filter]
      refine List.filter_congr fun e _ => ?_
      by_cases he : e.1 = name
      · simp [he, hname]
      · simp [he]
    rw [List.foldl_cons, ih _ fun name' h => hnames name' (List.mem_cons_of_mem _ h), takeOver]
    cases replacement.get? name with
    | none => exact herase
    | some value =>
      refine Eq.trans ?_ herase
      exact Dict.filter_assign _ _ _ fun w => by simp [hname]

/-- The block as the merge leaves it. -/
def amended (uid : String) (replacement : Dict String P) (block : Block P) : Block P :=
  if isMaster I uid block then
    { block with properties := owned.foldl (takeOver replacement) block.properties }
  else block

theorem isMaster_takeOver (replacement : Dict String P) (block : Block P) :
    isMaster I uid { block with properties := owned.foldl (takeOver replacement) block.properties } =
      isMaster I uid block := by
  have huid := get?_takeOver replacement block.properties owned "UID"
  have hoverride := get?_takeOver replacement block.properties owned "RECURRENCE-ID"
  rw [if_neg (by decide)] at huid hoverride
  simp only [isMaster, huid, hoverride]

theorem disown_amended (replacement : Dict String P) (block : Block P) :
    disown I uid (amended I uid replacement block) = disown I uid block := by
  by_cases hmaster : isMaster I uid block = true
  · have hproperties : owned.foldl Dict.erase (owned.foldl (takeOver replacement) block.properties) =
        owned.foldl Dict.erase block.properties := by
      refine Dict.eq_of_items_eq ?_
      rw [Dict.items_foldl_erase, Dict.items_foldl_erase]
      exact filter_takeOver replacement block.properties fun _ h => h
    simp only [amended, hmaster, if_true, disown, isMaster_takeOver, hproperties]
  · rw [amended, if_neg hmaster]

theorem amended_of_isOverride (replacement : Dict String P) {block : Block P}
    (h : isOverride block = true) : amended I uid replacement block = block := by
  simp only [isOverride, Bool.and_eq_true] at h
  refine if_neg fun hmaster => ?_
  simp [isMaster, Option.isNone_iff_eq_none] at hmaster
  simp [hmaster] at h

theorem isOverride_amended (replacement : Dict String P) (block : Block P) :
    isOverride (amended I uid replacement block) = isOverride block := by
  by_cases hmaster : isMaster I uid block = true
  · have hoverride := get?_takeOver replacement block.properties owned "RECURRENCE-ID"
    rw [if_neg (by decide)] at hoverride
    simp only [amended, hmaster, if_true, isOverride, hoverride]
  · rw [amended, if_neg hmaster]

theorem leavesRest_mergeInto (replacement : Dict String P) (calendar : Component P) :
    LeavesRest I uid calendar (mergeInto I uid replacement calendar) where
  rest := by
    have h : mergeInto I uid replacement calendar = calendar.map (amended I uid replacement) := rfl
    rw [h, RoseTree.map_map]
    exact congrArg calendar.map (funext fun block => disown_amended I uid replacement block)
  overrides := by
    have h : mergeInto I uid replacement calendar = calendar.map (amended I uid replacement) := rfl
    rw [h, RoseTree.labels_map, List.filter_map]
    have hsame : isOverride ∘ amended I uid replacement = isOverride :=
      funext fun block => isOverride_amended I uid replacement block
    rw [hsame]
    refine (List.map_congr_left fun block hblock => ?_).trans (List.map_id _)
    exact amended_of_isOverride I uid replacement (List.mem_filter.mp hblock).2

theorem mergeEventIcal_eq_ok_iff (existing : T) (ev : EventRow) (object : T) :
    mergeEventIcal I existing ev = .ok object ↔
      ∃ calendar, I.fromIcal existing = some calendar ∧ calendar.label.name = "VCALENDAR" ∧
        (calendar.labels.filter (isMaster I ev.uid)).length = 1 ∧
        I.toIcal (mergeInto I ev.uid (buildEvent I ev) calendar) = object := by
  have hbuilt : (I.fromIcal (buildEventIcal I ev)).map (walk · "VEVENT") =
      some [⟨"VEVENT", buildEvent I ev⟩] := by
    rw [buildEventIcal, I.fromIcal_toIcal]
    rfl
  unfold mergeEventIcal
  rw [hbuilt]
  cases hexisting : I.fromIcal existing with
  | none => simp
  | some calendar =>
    simp only [Option.some.injEq, exists_eq_left']
    by_cases hname : calendar.label.name = "VCALENDAR"
    · by_cases hmasters : (calendar.labels.filter (isMaster I ev.uid)).length = 1
      · simp [hname, hmasters]
      · simp [hname, hmasters]
    · simp [hname]

/-- Where there is one master, the merge changes nothing before and behind it. -/
theorem labels_mergeInto {uid : String} (replacement : Dict String P) {calendar : Component P}
    {before after : List (Block P)} {master : Block P}
    (hlabels : calendar.labels = before ++ master :: after)
    (hmasters : calendar.labels.filter (isMaster I uid) = [master]) :
    isMaster I uid master = true ∧
      (mergeInto I uid replacement calendar).labels =
        before ++ amended I uid replacement master :: after := by
  have hmaster : isMaster I uid master = true := by
    have hmem : master ∈ calendar.labels.filter (isMaster I uid) := by
      rw [hmasters]
      exact List.mem_singleton_self master
    exact (List.mem_filter.mp hmem).2
  have hlength := congrArg List.length hmasters
  rw [hlabels, List.filter_append, List.filter_cons_of_pos hmaster, List.length_append,
    List.length_cons, List.length_singleton] at hlength
  have hkept {blocks : List (Block P)} (h : (blocks.filter (isMaster I uid)).length = 0) :
      blocks.map (amended I uid replacement) = blocks := by
    have hnone := List.filter_eq_nil_iff.mp (List.eq_nil_of_length_eq_zero h)
    refine (List.map_congr_left fun block hblock => ?_).trans (List.map_id _)
    exact if_neg (hnone block hblock)
  have h : mergeInto I uid replacement calendar = calendar.map (amended I uid replacement) := rfl
  refine ⟨hmaster, ?_⟩
  rw [h, RoseTree.labels_map, hlabels, List.map_append, List.map_cons, hkept (by omega),
    hkept (by omega)]

theorem strAt_uid_of_isMaster {uid : String} {master : Block P} (huid : uid ≠ "")
    (h : isMaster I uid master = true) : strAt I "UID" master.properties = uid := by
  simp only [isMaster, Bool.and_eq_true, decide_eq_true_eq] at h
  obtain ⟨⟨-, hstr⟩, -⟩ := h
  cases hvalue : master.properties.get? "UID" with
  | none =>
    rw [hvalue] at hstr
    exact absurd hstr.symm huid
  | some value =>
    rw [hvalue, Option.filter_some] at hstr
    split at hstr
    · rw [strAt, hvalue, hstr.symm]
    · exact absurd hstr.symm huid

/-- What the merged object gives back is decided by the other events of the object. -/
theorem givesBack_mergeInto_iff {calendar : Component P} {before after : List (Block P)}
    {master : Block P} (henc : Encodable I ev)
    (hlabels : calendar.labels = before ++ master :: after)
    (hmasters : calendar.labels.filter (isMaster I ev.uid) = [master]) :
    GivesBack I ev (I.toIcal (mergeInto I ev.uid (buildEvent I ev) calendar)) ↔
      (readAll I before).isSome ∧ ∃ readings, readAll I after = some readings ∧
        ∀ pulled, rowAfter ev.uid readings = some pulled → pulled.owned = ownedOf ev.fields := by
  obtain ⟨hmaster, hmerged⟩ := labels_mergeInto I (buildEvent I ev) hlabels hmasters
  rw [amended, if_pos hmaster] at hmerged
  refine givesBack_among_iff I henc (I.fromIcal_toIcal _) hmerged ?_ ?_ ?_
  · simp only [isMaster, Bool.and_eq_true, decide_eq_true_eq] at hmaster
    exact hmaster.1.1
  · intro name hname
    rw [get?_takeOver, if_pos hname]
  · have huid := strAt_uid_of_isMaster I henc.uid hmaster
    rw [strAt, get?_takeOver, if_neg (by decide)]
    exact huid

/-- What is written for a row is read back, and the rest of the object is left, exactly where the
row can be encoded and no other event of the object hides it. -/
theorem roundTrips_iff (ev : EventRow) (existing : T) :
    RoundTrips I ev existing ↔ Encodable I ev ∧ Unmasked I ev existing := by
  constructor
  · rintro ⟨hbuilt, hmerged⟩
    have henc := (givesBack_buildEventIcal_iff I ev).mp hbuilt
    refine ⟨henc, fun calendar before master after hexisting hname hlabels hmasters => ?_⟩
    have hmerge := (mergeEventIcal_eq_ok_iff I existing ev _).mpr
      ⟨calendar, hexisting, hname, by rw [hmasters]; rfl, rfl⟩
    exact (givesBack_mergeInto_iff I henc hlabels hmasters).mp (hmerged _ hmerge).1
  · rintro ⟨henc, hunmasked⟩
    refine ⟨(givesBack_buildEventIcal_iff I ev).mpr henc, fun object hmerge => ?_⟩
    obtain ⟨calendar, hexisting, hname, hlength, rfl⟩ :=
      (mergeEventIcal_eq_ok_iff I existing ev object).mp hmerge
    obtain ⟨master, hmasters⟩ := List.length_eq_one_iff.mp hlength
    obtain ⟨before, after, hlabels, -, -, -⟩ := List.filter_eq_cons_iff.mp hmasters
    refine ⟨(givesBack_mergeInto_iff I henc hlabels hmasters).mpr
      (hunmasked calendar before master after hexisting hname hlabels hmasters), ?_⟩
    exact ⟨calendar, _, hexisting, I.fromIcal_toIcal _, leavesRest_mergeInto I _ _ calendar⟩

end

/-! ## A moved occurrence -/

/-- The values of a package that keeps what it is given. -/
inductive Value
  | text (s : String)
  | moment (w : When)
  | moments (ws : List When)
  | recur (s : String)
  deriving DecidableEq, Repr

/-- The package on texts that are the components themselves. -/
def plainICalendar : ICalendar Value (Component Value) where
  vText := .text
  vDDDTypes := .moment
  vDDDLists := .moments
  vRecur s := if s = "" then none else some (.recur s)
  str
    | .text s => s
    | _ => ""
  truthy
    | .text s => s ≠ ""
    | _ => true
  dt
    | .moment w => some w
    | _ => none
  valueToIcal
    | .recur s => some s
    | _ => none
  toIcal component := component
  fromIcal := some
  strptime _ _ := none
  str_vText _ := rfl
  truthy_vDDDTypes _ := rfl
  dt_vDDDTypes _ := rfl
  fromIcal_toIcal _ := rfl

/-- A weekly hour. -/
def standup : EventRow :=
  { uid := "standup"
    fields :=
      { summary := "Standup"
        description := ""
        location := ""
        dtstart := 1781100000
        dtend := 1781103600
        allDay := false
        isUtc := true
        rrule := "FREQ=WEEKLY"
        recurrenceExdates := [] } }

/-- The second week begins two hours later. -/
def movedOccurrence : Block Value :=
  ⟨"VEVENT",
    ((((Dict.empty.set "UID" (.text "standup")).set "SUMMARY" (.text "Standup")).set
      "RECURRENCE-ID" (.moment (.aware 1781704800))).set
      "DTSTART" (.moment (.aware 1781712000))).set "DTEND" (.moment (.aware 1781715600))⟩

/-- The object of the server with the moved occurrence behind the weekly hour. -/
def standupWithMoved : Component Value :=
  .node ⟨"VCALENDAR", Dict.empty⟩
    [.node ⟨"VEVENT", buildEvent plainICalendar standup⟩ [], .node movedOccurrence []]

theorem not_roundTrips_moved : ¬ RoundTrips plainICalendar standup standupWithMoved := by
  intro h
  obtain ⟨readings, pulled, hpull, hrow, howned⟩ := (h.2 _ rfl).1
  have hstart : ((pull plainICalendar (mergeInto plainICalendar standup.uid
      (buildEvent plainICalendar standup) standupWithMoved)).bind (rowAfter standup.uid)).map
        Pulled.dtstart = some 1781712000 := by
    decide
  have hread : pull plainICalendar (mergeInto plainICalendar standup.uid
      (buildEvent plainICalendar standup) standupWithMoved) = some readings := hpull
  rw [hread, Option.bind_some, hrow, Option.map_some, Option.some.injEq] at hstart
  have hsame : pulled.dtstart = standup.fields.dtstart := congrArg Owned.dtstart howned
  rw [hstart] at hsame
  exact absurd hsame (by decide)

end Pandamonium.CalendarObjects
