import Pandamonium.Analysis.CalendarChanges

/-!
# The masters of recurring events

All components of a recurring event have its uid, and the pull assigns each to the same row, so the
last one stays: an override behind its master puts the one occurrence in the place of the event
(`not_storesMasters_override`).  The rows are those of the masters when the last component of each
uid says the same as its master (`pullsMasters_iff`).  What is pruned is in no component of a
listing in which everything could be read, whatever else happens to the rows meanwhile.
-/

set_option autoImplicit false

namespace Pandamonium.CalendarSync

open Pandamonium.Library

/-- The start, the end, the title and the recurrence rule are the same. -/
def Fields.SameEvent (a b : Fields) : Prop :=
  a.dtstart = b.dtstart ∧ a.dtend = b.dtend ∧ a.summary = b.summary ∧ a.rrule = b.rrule

instance (a b : Fields) : Decidable (a.SameEvent b) := inferInstanceAs (Decidable (_ ∧ _))

/-- The row of the event has a local change that is to be pushed: the pull leaves it alone. -/
def Waits (window : Window) (w : Store) (uid : String) : Prop :=
  ∃ row ∈ w.events.get? uid, row.calendarId = window.calendarId ∧ row.caldavSyncPending.isSome

instance (window : Window) (w : Store) (uid : String) : Decidable (Waits window w uid) :=
  inferInstanceAs (Decidable (∃ _ ∈ _, _))

/-- The rows say of each event what its master says. -/
def StoresMasters (window : Window) (w : Store) (objects : List CalendarObject)
    (events : Dict String Event) : Prop :=
  ∀ part ∈ partsOf objects, part.recurrenceId = none → ¬ Waits window w part.component.uid →
    ∀ pulled ∈ part.component.pulled,
      ∃ row ∈ events.get? part.component.uid, row.fields.SameEvent pulled.fields

instance (window : Window) (w : Store) (objects : List CalendarObject)
    (events : Dict String Event) : Decidable (StoresMasters window w objects events) :=
  inferInstanceAs (Decidable (∀ _ ∈ _, _))

/-- Rows are pruned only when every object could be read, and only when their uid is in none. -/
def PrunesAbsent (caldav : String → Bool) (window : Window) (objects : List CalendarObject) :
    Prop :=
  ∀ w steps uids,
    Effect.prunes uids ∈
        effects caldav (.pulling window) ((w, .fetched (listing objects)) :: steps) →
      (∀ object ∈ objects, object ≠ none) ∧
        ∀ uid ∈ uids, ∀ part ∈ partsOf objects, part.component.uid ≠ uid

/-- What the last component with this uid and a start assigns. -/
def lastOf (uid : String) (parts : List Part) : Option Pulled :=
  (parts.filterMap fun part =>
    if part.component.uid = uid then part.component.pulled else none).getLast?

/-- The last component of each event says the same as its master. -/
def MastersPrevail (window : Window) (w : Store) (objects : List CalendarObject) : Prop :=
  ∀ part ∈ partsOf objects, part.recurrenceId = none → ¬ Waits window w part.component.uid →
    ∀ pulled ∈ part.component.pulled, ∀ last ∈ lastOf part.component.uid (partsOf objects),
      last.fields.SameEvent pulled.fields

instance (window : Window) (w : Store) (objects : List CalendarObject) :
    Decidable (MastersPrevail window w objects) :=
  inferInstanceAs (Decidable (∀ _ ∈ _, _))

/-! ## A call alone -/

/-- What the call meets with after the answer of the server. -/
def meets (objects : List CalendarObject) (parseFailed : Bool) : List Occurrence :=
  List.replicate (listing objects).length .reads ++
    .commits :: if parseFailed then [] else [.reads, .commits]

theorem alone_reading (caldav : String → Bool) (window : Window) (w : Store)
    (fetched : List Fetched) (s : Pulling) (events : List Occurrence) :
    alone caldav (.reading window fetched s) w
        (List.replicate fetched.length .reads ++ events) =
      alone caldav (.reading window [] (fetched.foldl (pullObject window w) s)) w events := by
  induction fetched generalizing s with
  | nil => rfl
  | cons object fetched ih => exact ih (pullObject window w s object)

variable {events : Dict String Event}

/-- What a component assigns to the row of this uid. -/
def assigned (uid : String) : Fetched → Option Pulled
  | .unreadable => none
  | .component c => if c.uid = uid then c.pulled else none

/-- What the session holds for a uid when this is assigned. -/
def planOf (window : Window) (w : Store) (uid : String) (pulled : Pulled) : Plan :=
  match (w.events.get? uid).filter fun row => row.calendarId = window.calendarId with
  | none => .insert pulled
  | some row => .update row pulled

section Loop

variable {window : Window} {w : Store} {uid : String}

theorem get?_plan_of_ne {pulled : Pulled} {plans : Dict String Plan} {uid' : String}
    (hne : uid ≠ uid') : (plan window uid' pulled w plans).get? uid = plans.get? uid := by
  unfold plan
  split
  · rw [Dict.get?_set, if_neg hne]
  · rw [Dict.get?_set, if_neg hne]
  · split
    · rw [Dict.get?_set, if_neg hne]
    · split
      · rfl
      · rw [Dict.get?_set, if_neg hne]

theorem get?_plan_self {pulled : Pulled} {plans : Dict String Plan}
    (hwaits : ¬ Waits window w uid)
    (hplans : plans.get? uid = none ∨
      ∃ before, plans.get? uid = some (planOf window w uid before)) :
    (plan window uid pulled w plans).get? uid = some (planOf window w uid pulled) := by
  unfold plan
  cases hrow : (w.events.get? uid).filter fun row => row.calendarId = window.calendarId with
  | none =>
    have hplanOf : ∀ pulled, planOf window w uid pulled = .insert pulled := by
      intro pulled
      simp only [planOf, hrow]
    rcases hplans with hnone | ⟨before, hbefore⟩
    · rw [hnone, hplanOf]
      exact Dict.get?_set_self _ _ _
    · rw [hbefore, hplanOf, hplanOf]
      exact Dict.get?_set_self _ _ _
  | some row =>
    have hplanOf : ∀ pulled, planOf window w uid pulled = .update row pulled := by
      intro pulled
      simp only [planOf, hrow]
    rcases hplans with hnone | ⟨before, hbefore⟩
    · have hidle : row.caldavSyncPending.isSome = false := by
        obtain ⟨hmem, hcalendar⟩ := Option.filter_eq_some_iff.mp hrow
        by_contra hsome
        exact hwaits ⟨row, hmem, of_decide_eq_true hcalendar, eq_true_of_ne_false hsome⟩
      rw [hnone, hplanOf]
      simp only [hidle]
      exact Dict.get?_set_self _ _ _
    · rw [hbefore, hplanOf, hplanOf]
      exact Dict.get?_set_self _ _ _

/-- What the loop holds for a uid is what was assigned last. -/
theorem get?_plans (hwaits : ¬ Waits window w uid) (fetched : List Fetched) :
    (pullObjects window w fetched).plans.get? uid =
      (fetched.filterMap (assigned uid)).getLast?.map (planOf window w uid) := by
  induction fetched using List.reverseRecOn with
  | nil => rfl
  | append_singleton fetched object ih =>
    unfold pullObjects at ih ⊢
    rw [List.foldl_append, List.filterMap_append]
    cases object with
    | unreadable =>
      rw [List.filterMap_cons_none rfl, List.filterMap_nil, List.append_nil]
      exact ih
    | component c =>
      by_cases hself : c.uid = uid
      · cases hpulled : c.pulled with
        | none =>
          rw [List.filterMap_cons_none (by simp [assigned, hpulled]), List.filterMap_nil,
            List.append_nil]
          simp only [List.foldl_cons, List.foldl_nil, pullObject, hpulled]
          exact ih
        | some pulled =>
          rw [List.filterMap_cons_some (b := pulled) (by simp [assigned, hself, hpulled]),
            List.filterMap_nil, List.getLast?_concat, Option.map_some]
          simp only [List.foldl_cons, List.foldl_nil, pullObject, hpulled]
          rw [hself]
          apply get?_plan_self hwaits
          rw [ih]
          cases (fetched.filterMap (assigned uid)).getLast? with
          | none => exact Or.inl rfl
          | some before => exact Or.inr ⟨before, rfl⟩
      · rw [List.filterMap_cons_none (by simp [assigned, hself]), List.filterMap_nil,
          List.append_nil]
        simp only [List.foldl_cons, List.foldl_nil, pullObject]
        cases c.pulled with
        | none => exact ih
        | some pulled =>
          dsimp only
          rw [get?_plan_of_ne (Ne.symm hself)]
          exact ih

end Loop

theorem filterMap_listing (uid : String) (objects : List CalendarObject) :
    (listing objects).filterMap (assigned uid) = (partsOf objects).filterMap fun part =>
      if part.component.uid = uid then part.component.pulled else none := by
  induction objects with
  | nil => rfl
  | cons object objects ih =>
    unfold listing partsOf at ih ⊢
    rw [List.flatMap_cons, List.flatMap_cons, List.filterMap_append, List.filterMap_append, ih]
    congr 1
    cases object with
    | none => rfl
    | some parts => simp [fetchedOf, List.filterMap_map, Function.comp_def, assigned]

/-! ## What the loop has seen -/

/-- The loop has been through these. -/
structure Pulling.Seen (s : Pulling) (done : List Fetched) : Prop where
  uids : ∀ c, Fetched.component c ∈ done → c.uid ∈ s.seenUids
  failed : Fetched.unreadable ∈ done → s.parseFailed = true

theorem Pulling.Seen.pullObject {window : Window} {w : Store} {s : Pulling} {done : List Fetched}
    (h : s.Seen done) (object : Fetched) :
    (pullObject window w s object).Seen (done ++ [object]) := by
  cases object with
  | unreadable =>
    constructor
    case uids =>
      intro c hc
      rcases List.mem_append.mp hc with hc | hc
      · exact h.uids c hc
      · cases List.mem_singleton.mp hc
    case failed => exact fun _ => rfl
  | component c =>
    have hseen :
        (CalendarSync.pullObject window w s (.component c)).seenUids = c.uid :: s.seenUids ∧
        (CalendarSync.pullObject window w s (.component c)).parseFailed = s.parseFailed := by
      simp only [CalendarSync.pullObject]
      cases c.pulled with
      | none => exact ⟨rfl, rfl⟩
      | some pulled => exact ⟨rfl, rfl⟩
    constructor
    case uids =>
      intro c' hc'
      rw [hseen.1]
      rcases List.mem_append.mp hc' with hc' | hc'
      · exact List.mem_cons_of_mem _ (h.uids c' hc')
      · obtain rfl := Fetched.component.inj (List.mem_singleton.mp hc')
        exact List.mem_cons_self
    case failed =>
      intro hmem
      rw [hseen.2]
      rcases List.mem_append.mp hmem with hmem | hmem
      · exact h.failed hmem
      · cases List.mem_singleton.mp hmem

theorem seen_pullObjects {window : Window} {w : Store} (fetched : List Fetched) :
    (pullObjects window w fetched).Seen fetched := by
  induction fetched using List.reverseRecOn with
  | nil => exact ⟨nofun, nofun⟩
  | append_singleton fetched object ih =>
    unfold pullObjects at ih ⊢
    rw [List.foldl_append]
    exact ih.pullObject object

theorem mem_listing {objects : List CalendarObject} {part : Part} (h : part ∈ partsOf objects) :
    Fetched.component part.component ∈ listing objects := by
  obtain ⟨object, hobject, hpart⟩ := List.mem_flatMap.mp h
  refine List.mem_flatMap.mpr ⟨object, hobject, ?_⟩
  cases object with
  | none => cases hpart
  | some parts => exact List.mem_map.mpr ⟨part, hpart, rfl⟩

/-! ## The rows -/

theorem Fields.SameEvent.trans {a b c : Fields} (h : a.SameEvent b) (h' : b.SameEvent c) :
    a.SameEvent c :=
  ⟨h.1.trans h'.1, h.2.1.trans h'.2.1, h.2.2.1.trans h'.2.2.1, h.2.2.2.trans h'.2.2.2⟩

theorem Fields.SameEvent.symm {a b : Fields} (h : a.SameEvent b) : b.SameEvent a :=
  ⟨h.1.symm, h.2.1.symm, h.2.2.1.symm, h.2.2.2.symm⟩

theorem column_self {α : Type} [DecidableEq α] (read assigned : α) :
    column read assigned read = assigned := by
  unfold column
  split
  · rename_i heq
    exact heq.symm
  · rfl

theorem sameEvent_merge (row : Event) (pulled : Pulled) :
    (merge row pulled row).fields.SameEvent pulled.fields := by
  refine ⟨?_, ?_, ?_, ?_⟩
  all_goals exact column_self _ _

theorem fields_of_insert {window : Window} {events' : Dict String Event} {uid : String}
    {pulled : Pulled} (h : write window events (uid, .insert pulled) = some events') :
    ∃ row ∈ events'.get? uid, row.fields = pulled.fields := by
  unfold write at h
  cases hrow : events.get? uid with
  | none =>
    simp only [hrow] at h
    obtain rfl := Option.some.inj h
    exact ⟨_, Dict.get?_set_self _ _ _, rfl⟩
  | some row =>
    simp only [hrow] at h
    cases h

section Rows

variable {window : Window} {w : Store} {objects : List CalendarObject} {uid : String}

/-- What is held for a uid is in its row behind the commit. -/
theorem row_of_writeAll {plans : Dict String Plan} {last : Pulled}
    (h : writeAll window plans w.events = some events)
    (hplan : plans.get? uid = some (planOf window w uid last)) :
    ∃ row ∈ events.get? uid, row.fields.SameEvent last.fields := by
  have hwrites := (Dict.get?_foldlM
    (R := fun (_ : String) (plan : Plan) before after => plan.Writes window before after ∧
      ∀ pulled, plan = .insert pulled → ∃ row ∈ after, row.fields = pulled.fields)
    (fun _ _ _ _ hwrite => ⟨⟨(writes_write hwrite).1, by
      rintro pulled rfl
      exact fields_of_insert hwrite⟩, (writes_write hwrite).2⟩) plans.nodup h uid).2 _ hplan
  unfold planOf at hwrites
  split at hwrites
  · obtain ⟨row, hrow, hfields⟩ := hwrites.2 last rfl
    exact ⟨row, hrow, hfields ▸ ⟨rfl, rfl, rfl, rfl⟩⟩
  · rename_i row hrow
    obtain ⟨hmem, -⟩ := Option.filter_eq_some_iff.mp hrow
    have hafter : events.get? uid = some (merge row last row) := by
      rw [show events.get? uid = _ from hwrites.1, hmem]
      rfl
    exact ⟨_, hafter, sameEvent_merge row last⟩

/-- The row of an event says what was assigned last. -/
theorem row_of_pull (hpull : pull window w objects = some events) {part : Part}
    (hpart : part ∈ partsOf objects) (hwaits : ¬ Waits window w part.component.uid) {last : Pulled}
    (hlast : lastOf part.component.uid (partsOf objects) = some last) :
    ∃ row ∈ events.get? part.component.uid, row.fields.SameEvent last.fields := by
  obtain ⟨committed, hcommitted, rfl⟩ := Option.map_eq_some_iff.mp hpull
  have hplan := get?_plans hwaits (listing objects)
  rw [filterMap_listing, show List.getLast? _ = some last from hlast] at hplan
  obtain ⟨row, hrow, hsame⟩ := row_of_writeAll hcommitted hplan
  refine ⟨row, ?_, hsame⟩
  split
  · exact hrow
  · -- what has been seen is not pruned
    have hseen := (@seen_pullObjects window w (listing objects)).uids _ (mem_listing hpart)
    rw [Dict.get?_foldl_erase, if_neg]
    · exact hrow
    · intro hstale
      obtain ⟨item, hitem, hid⟩ := List.mem_map.mp hstale
      obtain ⟨-, hcond⟩ := List.mem_filter.mp hitem
      rw [hid] at hcond
      simp [hseen] at hcond

theorem lastOf_isSome {part : Part} (hpart : part ∈ partsOf objects) {pulled : Pulled}
    (hpulled : pulled ∈ part.component.pulled) :
    ∃ last, lastOf part.component.uid (partsOf objects) = some last := by
  have hmem : pulled ∈ (partsOf objects).filterMap fun other =>
      if other.component.uid = part.component.uid then other.component.pulled else none := by
    refine List.mem_filterMap.mpr ⟨part, hpart, ?_⟩
    rw [if_pos rfl]
    exact hpulled
  exact Option.isSome_iff_exists.mp (List.getLast?_isSome.mpr (List.ne_nil_of_mem hmem))

theorem storesMasters_iff (hpull : pull window w objects = some events) :
    StoresMasters window w objects events ↔ MastersPrevail window w objects := by
  constructor
  · intro hstores part hpart hmaster hwaits pulled hpulled last hlast
    obtain ⟨row, hrow, hsame⟩ := hstores part hpart hmaster hwaits pulled hpulled
    obtain ⟨row', hrow', hsame'⟩ := row_of_pull hpull hpart hwaits hlast
    obtain rfl := Option.some.inj (hrow.symm.trans hrow')
    exact hsame'.symm.trans hsame
  · intro hprevail part hpart hmaster hwaits pulled hpulled
    obtain ⟨last, hlast⟩ := lastOf_isSome hpart hpulled
    obtain ⟨row, hrow, hsame⟩ := row_of_pull hpull hpart hwaits hlast
    exact ⟨row, hrow, hsame.trans (hprevail part hpart hmaster hwaits pulled hpulled last hlast)⟩

end Rows

/-! ## What is pruned -/

/-- Everything could be read, and the uids are in no component. -/
def AbsentFrom (fetched : List Fetched) (uids : List String) : Prop :=
  Fetched.unreadable ∉ fetched ∧ ∀ c, Fetched.component c ∈ fetched → c.uid ∉ uids

/-- A call that goes on from this listing. -/
def Frame.Lists (fetched : List Fetched) : Frame → Prop
  | .reading _ objects s => ∃ done, done ++ objects = fetched ∧ s.Seen done
  | .sweeping _ seenUids =>
    Fetched.unreadable ∉ fetched ∧ ∀ c, Fetched.component c ∈ fetched → c.uid ∈ seenUids
  | .pruning uids => AbsentFrom fetched uids
  | _ => False

theorem Frame.Lists.act {caldav : String → Bool} {w : Store} {fetched : List Fetched}
    {frame : Frame} (h : frame.Lists fetched) {event : Occurrence} {effect : Effect}
    {next : Option Frame} (hact : act caldav w frame event = some (effect, next)) :
    (∀ uids, effect = .prunes uids → AbsentFrom fetched uids) ∧
      ∀ frame', next = some frame' → frame'.Lists fetched := by
  cases frame with
  | reading window objects s =>
    obtain ⟨done, hdone, hseen⟩ := h
    cases objects with
    | nil =>
      rw [List.append_nil] at hdone
      cases event with
      | commits =>
        simp only [CalendarSync.act] at hact
        split at hact
        · obtain ⟨rfl, rfl⟩ := Prod.mk.inj (Option.some.inj hact)
          exact ⟨fun _ h => (by cases h), fun _ h => (by cases h)⟩
        · obtain ⟨rfl, rfl⟩ := Prod.mk.inj (Option.some.inj hact)
          refine ⟨fun _ h => (by cases h), ?_⟩
          intro frame' hframe'
          obtain ⟨hparsed, hframe'⟩ := Option.ite_none_left_eq_some.mp hframe'
          obtain rfl := Option.some.inj hframe'
          exact hdone ▸ ⟨fun hmem => hparsed (hseen.failed hmem), hseen.uids⟩
      | raises =>
        obtain ⟨rfl, rfl⟩ := Prod.mk.inj (Option.some.inj hact)
        exact ⟨fun _ h => (by cases h), fun _ h => (by cases h)⟩
      | _ => cases hact
    | cons object objects =>
      cases event with
      | reads =>
        obtain ⟨rfl, rfl⟩ := Prod.mk.inj (Option.some.inj hact)
        refine ⟨fun _ h => (by cases h), ?_⟩
        rintro frame' ⟨⟩
        exact ⟨done ++ [object], by rw [List.append_assoc, ← hdone]; rfl, hseen.pullObject object⟩
      | raises =>
        obtain ⟨rfl, rfl⟩ := Prod.mk.inj (Option.some.inj hact)
        exact ⟨fun _ h => (by cases h), fun _ h => (by cases h)⟩
      | _ => cases hact
  | sweeping window seenUids =>
    cases event with
    | reads =>
      obtain ⟨rfl, rfl⟩ := Prod.mk.inj (Option.some.inj hact)
      refine ⟨fun _ h => (by cases h), ?_⟩
      rintro frame' ⟨⟩
      refine ⟨h.1, ?_⟩
      intro c hc hstale
      obtain ⟨item, hitem, hid⟩ := List.mem_map.mp hstale
      obtain ⟨-, hcond⟩ := List.mem_filter.mp hitem
      rw [hid] at hcond
      simp [h.2 c hc] at hcond
    | raises =>
      obtain ⟨rfl, rfl⟩ := Prod.mk.inj (Option.some.inj hact)
      exact ⟨fun _ h => (by cases h), fun _ h => (by cases h)⟩
    | _ => cases hact
  | pruning uids =>
    cases event with
    | commits =>
      obtain ⟨rfl, rfl⟩ := Prod.mk.inj (Option.some.inj hact)
      refine ⟨?_, fun _ h => (by cases h)⟩
      rintro _ ⟨⟩
      exact h
    | raises =>
      obtain ⟨rfl, rfl⟩ := Prod.mk.inj (Option.some.inj hact)
      exact ⟨fun _ h => (by cases h), fun _ h => (by cases h)⟩
    | _ => cases hact
  | _ => cases h

theorem absentFrom_effects {caldav : String → Bool} {fetched : List Fetched} {uids : List String}
    {steps : List (Store × Occurrence)} {frame : Frame} (h : frame.Lists fetched)
    (hprunes : Effect.prunes uids ∈ effects caldav frame steps) : AbsentFrom fetched uids := by
  induction steps generalizing frame with
  | nil => cases hprunes
  | cons step steps ih =>
    obtain ⟨w, event⟩ := step
    unfold effects at hprunes
    split at hprunes
    · cases hprunes
    · rename_i effect hact
      obtain rfl := (List.mem_singleton.mp hprunes).symm
      exact (h.act hact).1 uids rfl
    · rename_i effect next hact
      rcases List.mem_cons.mp hprunes with rfl | hprunes
      · exact (h.act hact).1 uids rfl
      · exact ih ((h.act hact).2 next rfl) hprunes

theorem prunesAbsent (caldav : String → Bool) (window : Window) (objects : List CalendarObject) :
    PrunesAbsent caldav window objects := by
  intro w steps uids hprunes
  have hlists : (Frame.reading window (listing objects)
      { plans := Dict.empty, seenUids := [], parseFailed := false }).Lists (listing objects) :=
    ⟨[], rfl, nofun, nofun⟩
  obtain ⟨hread, habsent⟩ :=
    absentFrom_effects hlists ((List.mem_cons.mp hprunes).resolve_left nofun)
  constructor
  · rintro object hobject rfl
    exact hread (List.mem_flatMap.mpr ⟨none, hobject, List.mem_singleton_self _⟩)
  · intro uid huid part hpart heq
    exact habsent _ (mem_listing hpart) (heq ▸ huid)

/-- A pull whose commit goes through stores what the masters say, and prunes only what is gone,
exactly when the last component of each event says the same as its master. -/
theorem pullsMasters_iff (caldav : String → Bool) {window : Window} {w : Store}
    {objects : List CalendarObject} {events : Dict String Event}
    (hpull : pull window w objects = some events) :
    StoresMasters window w objects events ∧ PrunesAbsent caldav window objects ↔
      MastersPrevail window w objects := by
  rw [and_iff_left (prunesAbsent caldav window objects)]
  exact storesMasters_iff hpull

/-! ## A meeting that is moved once -/

def standup : Component where
  uid := "standup"
  dtstart := some (1000, false, true)
  dtend := some 4600
  summary := "Standup"
  description := ""
  location := ""
  rrule := "FREQ=WEEKLY"
  href := "/dav/standup"
  etag := "1"

/-- One occurrence has another time and another title, and no rule. -/
def moved : Component :=
  { standup with
    dtstart := some (612000, false, true)
    dtend := some 615600
    summary := "Standup, moved"
    rrule := "" }

def masterPart : Part := ⟨standup, none⟩

def overridePart : Part := ⟨moved, some 605800⟩

def wholeWindow : Window where
  calendarId := "caldav-1"
  start := 0
  finish := 700000

theorem pullsMasters_overrideFirst : ∃ events,
    pull wholeWindow noEvents.store [some [overridePart, masterPart]] = some events ∧
      StoresMasters wholeWindow noEvents.store [some [overridePart, masterPart]] events ∧
      PrunesAbsent everyCalendar wholeWindow [some [overridePart, masterPart]] := by
  have hsome : (pull wholeWindow noEvents.store [some [overridePart, masterPart]]).isSome := by
    decide +kernel
  obtain ⟨events, hpull⟩ := Option.isSome_iff_exists.mp hsome
  exact ⟨events, hpull, (pullsMasters_iff everyCalendar hpull).mpr (by decide +kernel)⟩

/-- The override comes behind the master, and its row is the one occurrence. -/
theorem not_storesMasters_override : ∃ events,
    pull wholeWindow noEvents.store [some [masterPart, overridePart]] = some events ∧
      (events.get? "standup").map (fun row => (row.fields.dtstart, row.fields.rrule)) =
        some (612000, "") ∧
      ¬ (StoresMasters wholeWindow noEvents.store [some [masterPart, overridePart]] events ∧
        PrunesAbsent everyCalendar wholeWindow [some [masterPart, overridePart]]) := by
  have hsome : (pull wholeWindow noEvents.store [some [masterPart, overridePart]]).map
      (fun events =>
        ((events.get? "standup").map (fun row => (row.fields.dtstart, row.fields.rrule)),
          decide (StoresMasters wholeWindow noEvents.store [some [masterPart, overridePart]]
            events))) = some (some (612000, ""), false) := by decide +kernel
  obtain ⟨events, hpull, heq⟩ := Option.map_eq_some_iff.mp hsome
  obtain ⟨hrow, hstores⟩ := Prod.mk.inj heq
  exact ⟨events, hpull, hrow, fun h => of_decide_eq_false hstores h.1⟩

end Pandamonium.CalendarSync
