import Pandamonium.Model.CalendarSync

/-!
# Local changes of calendar events

A push that has succeeded clears the pending flag of its event without a look at what the row says
by then, so an edit that is made while the push is under way is no longer pushed
(`not_unharmed_overtaken`).  In the same way it deletes the tombstone of an event.  The pull looks
at the flag when it reads a row and writes when it commits, and it does not look at tombstones.

`unharmed_of_spares` is about the runs in which each of these writes meets no change that is still to
be pushed, or one that it leaves as it is.
-/

set_option autoImplicit false

namespace Pandamonium.CalendarSync

open Pandamonium.Library

/-- The change is there: the row of what was edited, with its pending flag, and no row of what was
deleted, with its tombstone. -/
def Change.There (row : Option Event) (tombstone : Option Tombstone) : Change → Prop
  | .edited fields => ∃ r, row = some r ∧ r.fields = fields ∧ r.caldavSyncPending.isSome = true
  | .deleted leaves => row = none ∧ (leaves = true → tombstone.isSome = true)

/-- The last local change of the event is there, or has been pushed. -/
def Unharmed (w : Store) (uid : String) : Prop :=
  ∀ change, w.ledger.Waiting uid change →
    change.There (w.events.get? uid) (w.tombstones.get? uid)

/-- Recording a push of this kind leaves the change as it is. -/
def Push.spares (push : Push) : Change → Bool
  | .edited _ => push.delete
  | .deleted tombstone => !push.delete || !tombstone

/-- What the pull writes for an event leaves the change as it is. -/
def Plan.spares (row : Option Event) : Plan → Change → Prop
  | .insert _, change => change.isDeletion = false
  | .update read pulled, .edited _ => ∀ r ∈ row, (merge read pulled r).fields = r.fields
  | .update _ _, .deleted _ => True

instance (row : Option Event) (plan : Plan) (change : Change) :
    Decidable (plan.spares row change) := by
  unfold Plan.spares
  split <;> infer_instance

/-- The push that is recorded was of the last change, or this has been pushed, or is left as it is;
what the pull writes or prunes has no change that is still to be pushed, or leaves it as it is. -/
def spares (w : Store) : Frame → Occurrence → Prop
  | .recording push stamp (.ok _ _) _, .commits =>
    ∀ e ∈ w.ledger.entries.get? push.uid,
      some e.serial = stamp ∨ e.delivered = true ∨ push.spares e.change = true
  | .reading window [] s, .commits =>
    (writeAll window s.plans w.events).isSome = true →
      ∀ item ∈ s.plans.items, ∀ e ∈ w.ledger.entries.get? item.1,
        e.delivered = true ∨ item.2.spares (w.events.get? item.1) e.change
  | .pruning uids, .commits =>
    ∀ uid ∈ uids, ∀ e ∈ w.ledger.entries.get? uid,
      e.delivered = true ∨ e.change.isDeletion = true
  | _, _ => True

instance (w : Store) (frame : Frame) (event : Occurrence) : Decidable (spares w frame event) := by
  unfold spares
  split <;> infer_instance

/-! ## Events -/

variable {caldav : String → Bool} {w w' : Store} {uid : String}

/-- The changes of an event are unharmed, and it is one of a CalDAV calendar if it has had any. -/
structure Sound (caldav : String → Bool) (w : Store) (uid : String) : Prop where
  unharmed : Unharmed w uid
  home : ∀ row e, w.events.get? uid = some row → w.ledger.entries.get? uid = some e →
    caldav row.calendarId = true

theorem Sound.of_none (h : w.ledger.entries.get? uid = none) : Sound caldav w uid where
  unharmed := by
    rintro change ⟨e, he, -⟩
    rw [h] at he
    cases he
  home := by
    intro row e _ he
    rw [h] at he
    cases he

/-- An event without a row is sound, if the change that has not been pushed is its deletion. -/
theorem Sound.of_gone (hgone : w.events.get? uid = none)
    (h : ∀ change, w.ledger.Waiting uid change → ∃ leaves, change = .deleted leaves ∧
      (leaves = true → (w.tombstones.get? uid).isSome = true)) : Sound caldav w uid where
  unharmed := by
    intro change hw
    obtain ⟨leaves, rfl, hstays⟩ := h change hw
    exact ⟨hgone, hstays⟩
  home := by
    intro row e hrow _
    rw [hgone] at hrow
    cases hrow

/-- An event with a row is sound, if this has the change that has not been pushed. -/
theorem Sound.of_row {row : Event} (hrow : w.events.get? uid = some row)
    (hhome : ∀ e, w.ledger.entries.get? uid = some e → caldav row.calendarId = true)
    (h : ∀ change, w.ledger.Waiting uid change →
      change = .edited row.fields ∧ row.caldavSyncPending.isSome = true) : Sound caldav w uid where
  unharmed := by
    intro change hw
    obtain ⟨rfl, hpending⟩ := h change hw
    exact ⟨row, hrow, rfl, hpending⟩
  home := by
    intro row' e hrow' he
    obtain rfl := Option.some.inj (hrow.symm.trans hrow')
    exact hhome e he

/-- The change of an event with a row that has not been pushed is in the row. -/
theorem Sound.waiting_row (h : Sound caldav w uid) {row : Event}
    (hrow : w.events.get? uid = some row) {change : Change} (hw : w.ledger.Waiting uid change) :
    change = .edited row.fields ∧ row.caldavSyncPending.isSome = true := by
  have hthere := h.unharmed change hw
  rw [hrow] at hthere
  cases change with
  | edited fields =>
    obtain ⟨r, hr, rfl, hpending⟩ := hthere
    obtain rfl := Option.some.inj hr
    exact ⟨rfl, hpending⟩
  | deleted leaves =>
    obtain ⟨hnone, -⟩ := hthere
    cases hnone

/-- That of an event without a row is its deletion. -/
theorem Sound.waiting_gone (h : Sound caldav w uid) (hgone : w.events.get? uid = none)
    {change : Change} (hw : w.ledger.Waiting uid change) :
    ∃ leaves, change = .deleted leaves ∧
      (leaves = true → (w.tombstones.get? uid).isSome = true) := by
  have hthere := h.unharmed change hw
  rw [hgone] at hthere
  cases change with
  | edited fields =>
    obtain ⟨r, hr, -⟩ := hthere
    cases hr
  | deleted leaves => exact ⟨leaves, rfl, hthere.2⟩

/-- An event stays sound whose row and tombstone stay, and whose change stays or is pushed. -/
theorem Sound.mono (h : Sound caldav w uid) (hevents : w'.events.get? uid = w.events.get? uid)
    (htombstones : (w.tombstones.get? uid).isSome = true → (w'.tombstones.get? uid).isSome = true)
    (hentries : ∀ e', w'.ledger.entries.get? uid = some e' → ∃ e,
      w.ledger.entries.get? uid = some e)
    (hwaiting : ∀ change, w'.ledger.Waiting uid change → w.ledger.Waiting uid change) :
    Sound caldav w' uid := by
  cases hrow : w.events.get? uid with
  | none =>
    refine Sound.of_gone (hevents.trans hrow) fun change hw => ?_
    obtain ⟨leaves, rfl, hstays⟩ := h.waiting_gone hrow (hwaiting change hw)
    exact ⟨leaves, rfl, fun hl => htombstones (hstays hl)⟩
  | some row =>
    refine Sound.of_row (hevents.trans hrow) (fun e' he' => ?_) fun change hw => ?_
    · obtain ⟨e, he⟩ := hentries e' he'
      exact h.home row e hrow he
    · exact h.waiting_row hrow (hwaiting change hw)

/-- An event that a step does not touch stays sound. -/
theorem Sound.congr (h : Sound caldav w uid) (hevents : w'.events.get? uid = w.events.get? uid)
    (htombstones : w'.tombstones.get? uid = w.tombstones.get? uid)
    (hledger : w'.ledger.entries.get? uid = w.ledger.entries.get? uid) : Sound caldav w' uid := by
  refine h.mono hevents (fun hs => htombstones ▸ hs) (fun e' he' => ⟨e', hledger ▸ he'⟩) ?_
  rintro change ⟨e, he, hchange⟩
  exact ⟨e, hledger ▸ he, hchange⟩

/-! ## Local operations -/

/-- A local operation has no other event changed. -/
theorem entries_local {l : Ledger String Change} {change : Change} {p : Prop} [Decidable p]
    {uid' : String} (hne : uid' ≠ uid) :
    (if p then l.record uid change else l).entries.get? uid' = l.entries.get? uid' := by
  split
  · rw [Ledger.entries_record, if_neg hne]
  · rfl

/-- Without a CalDAV calendar the event has had no change. -/
theorem Sound.no_entry (h : Sound caldav w uid) {row : Event} (hrow : w.events.get? uid = some row)
    (hcaldav : ¬ caldav row.calendarId = true) : w.ledger.entries.get? uid = none := by
  rw [Option.eq_none_iff_forall_ne_some]
  exact fun e he => hcaldav (h.home row e hrow he)

theorem sound_createEvent {calendarId : String} {fields : Fields}
    (h : ∀ uid, Sound caldav w uid) (hfresh : w.ledger.entries.get? uid = none) (uid' : String) :
    Sound caldav (createEvent caldav uid calendarId fields w) uid' := by
  by_cases hne : uid' = uid
  case neg =>
    exact (h uid').congr (by rw [createEvent, Dict.get?_set, if_neg hne]) rfl (entries_local hne)
  case pos =>
    subst hne
    by_cases hcaldav : caldav calendarId = true
    · refine Sound.of_row (Dict.get?_set_self ..) (fun _ _ => hcaldav) fun change hw => ?_
      simp only [createEvent, if_pos hcaldav, Ledger.waiting_record_self] at hw
      subst hw
      exact ⟨rfl, by simp [hcaldav]⟩
    · exact Sound.of_none (by simp only [createEvent, if_neg hcaldav, hfresh])

theorem sound_updateEvent {edit : Fields → Fields} {row : Event}
    (h : ∀ uid, Sound caldav w uid) (hrow : w.events.get? uid = some row) (uid' : String) :
    Sound caldav (updateEvent caldav uid edit row w) uid' := by
  by_cases hne : uid' = uid
  case neg =>
    exact (h uid').congr (by rw [updateEvent, Dict.get?_set, if_neg hne]) rfl (entries_local hne)
  case pos =>
    subst hne
    by_cases hcaldav : caldav row.calendarId = true
    · refine Sound.of_row (Dict.get?_set_self ..) (fun _ _ => hcaldav) fun change hw => ?_
      simp only [updateEvent, if_pos hcaldav, Ledger.waiting_record_self] at hw
      subst hw
      exact ⟨rfl, by simp [hcaldav]⟩
    · refine Sound.of_none ?_
      simp only [updateEvent, if_neg hcaldav, (h uid').no_entry hrow hcaldav]

theorem sound_deleteEvent {byTool : Bool} {row : Event}
    (h : ∀ uid, Sound caldav w uid) (hrow : w.events.get? uid = some row) (uid' : String) :
    Sound caldav (deleteEvent caldav uid byTool row w) uid' := by
  by_cases hne : uid' = uid
  case neg =>
    refine (h uid').congr (by rw [deleteEvent, Dict.get?_erase, if_neg hne]) ?_ (entries_local hne)
    simp only [deleteEvent]
    split
    · rw [Dict.get?_set, if_neg hne]
    · rfl
  case pos =>
    subst hne
    by_cases hcaldav : caldav row.calendarId = true
    · refine Sound.of_gone (by rw [deleteEvent, Dict.get?_erase, if_pos rfl]) fun change hw => ?_
      simp only [deleteEvent, if_pos hcaldav, Ledger.waiting_record_self] at hw
      subst hw
      refine ⟨_, rfl, fun hleaves => ?_⟩
      rw [deleteEvent, if_pos hleaves, Dict.get?_set_self]
      rfl
    · refine Sound.of_none ?_
      simp only [deleteEvent, if_neg hcaldav, (h uid').no_entry hrow hcaldav]

/-! ## Pushes -/

theorem sound_settle {stamp : Option ℕ} (h : ∀ uid, Sound caldav w uid) (uid' : String) :
    Sound caldav { w with ledger := w.ledger.settle uid stamp } uid' := by
  refine (h uid').mono rfl id (fun e' he' => ?_) fun change => Ledger.waiting_of_settle
  obtain ⟨e, he, -⟩ := Ledger.entries_settle he'
  exact ⟨e, he⟩

theorem sound_mark {pending : Pending} (h : ∀ uid, Sound caldav w uid) (uid' : String) :
    Sound caldav (mark uid pending w) uid' := by
  unfold mark
  split
  case h_2 => exact h uid'
  case h_1 row hrow =>
    by_cases hne : uid' = uid
    case neg => exact (h uid').congr (by rw [Dict.get?_set, if_neg hne]) rfl rfl
    case pos =>
      subst hne
      refine Sound.of_row (Dict.get?_set_self ..) (fun e he => (h uid').home row e hrow he) ?_
      exact fun change hw => ⟨((h uid').waiting_row hrow hw).1, rfl⟩

/-- What is recorded of a push that has failed. -/
theorem sound_persist_failed {push : Push} {error : String} (h : ∀ uid, Sound caldav w uid)
    (uid' : String) : Sound caldav (persist push (.failed error) w) uid' := by
  cases hdelete : push.delete with
  | false =>
    simp only [persist, hdelete]
    exact h uid'
  | true =>
    simp only [persist, hdelete]
    split
    case h_2 => exact h uid'
    case h_1 tombstone htombstone =>
      refine (h uid').mono rfl (fun hsome => ?_) (fun e he => ⟨e, he⟩) fun _ hw => hw
      rw [Dict.get?_set]
      split
      · rfl
      · exact hsome

/-- What is recorded of a push that has succeeded, if it leaves the change as it is that has not
been pushed. -/
theorem sound_persist_ok {push : Push} {href etag : String} (h : ∀ uid, Sound caldav w uid)
    (hspares : ∀ change, w.ledger.Waiting push.uid change → push.spares change = true)
    (uid' : String) : Sound caldav (persist push (.ok href etag) w) uid' := by
  cases hdelete : push.delete with
  | true =>
    simp only [persist, hdelete]
    by_cases hne : uid' = push.uid
    case neg => exact (h uid').congr rfl (by rw [Dict.get?_erase, if_neg hne]) rfl
    case pos =>
      subst hne
      cases hrow : w.events.get? push.uid with
      | some row =>
        exact Sound.of_row hrow (fun e he => (h _).home row e hrow he)
          fun change hw => (h _).waiting_row hrow hw
      | none =>
        refine Sound.of_gone hrow fun change hw => ?_
        obtain ⟨leaves, rfl, -⟩ := (h _).waiting_gone hrow hw
        have hleaves := hspares _ hw
        simp only [Push.spares, hdelete, Bool.not_true, Bool.false_or, Bool.not_eq_eq_eq_not]
          at hleaves
        exact ⟨leaves, rfl, fun hl => absurd hl (by simp [hleaves])⟩
  | false =>
    simp only [persist, hdelete]
    split
    case h_2 => exact h uid'
    case h_1 row hrow =>
      by_cases hne : uid' = push.uid
      case neg => exact (h uid').congr (by rw [Dict.get?_set, if_neg hne]) rfl rfl
      case pos =>
        subst hne
        refine Sound.of_row (Dict.get?_set_self ..) (fun e he => (h _).home row e hrow he) ?_
        intro change hw
        obtain ⟨rfl, -⟩ := (h _).waiting_row hrow hw
        exact absurd (hspares _ hw) (by simp [Push.spares, hdelete])

/-! ## Pulls -/

/-- What the commit of a pull makes of a row. -/
def Plan.Writes (window : Window) (plan : Plan) (before after : Option Event) : Prop :=
  match plan with
  | .insert _ => before = none ∧ ∃ row, after = some row ∧ row.calendarId = window.calendarId
  | .update read pulled => after = before.map (merge read pulled)

theorem writes_write {window : Window} {events events' : Dict String Event} {plan : Plan}
    (h : write window events (uid, plan) = some events') :
    plan.Writes window (events.get? uid) (events'.get? uid) ∧
      ∀ uid', uid' ≠ uid → events'.get? uid' = events.get? uid' := by
  unfold write at h
  split at h
  case h_1 pulled hplan hnone =>
    obtain rfl := Option.some.inj h
    dsimp only at hplan hnone
    subst hplan
    refine ⟨⟨hnone, _, Dict.get?_set_self .., rfl⟩, fun uid' hne => ?_⟩
    rw [Dict.get?_set, if_neg hne]
  case h_2 => cases h
  case h_3 read pulled current hplan hrow =>
    obtain rfl := Option.some.inj h
    dsimp only at hplan hrow
    subst hplan
    refine ⟨?_, fun uid' hne => ?_⟩
    · rw [Plan.Writes, hrow, Dict.get?_set_self]
      rfl
    · rw [Dict.get?_set, if_neg hne]
  case h_4 read pulled hplan hnone =>
    obtain ⟨-, h⟩ := Option.ite_none_right_eq_some.mp h
    obtain rfl := Option.some.inj h
    dsimp only at hplan hnone
    subst hplan
    exact ⟨by rw [Plan.Writes, hnone]; rfl, fun _ _ => rfl⟩

theorem get?_writeAll {window : Window} {plans : Dict String Plan}
    {events events' : Dict String Event} (h : writeAll window plans events = some events')
    (uid : String) :
    (plans.get? uid = none → events'.get? uid = events.get? uid) ∧
      ∀ plan, plans.get? uid = some plan →
        plan.Writes window (events.get? uid) (events'.get? uid) :=
  Dict.get?_foldlM (R := fun (_ : String) (plan : Plan) => plan.Writes window)
    (fun _ _ _ _ hwrite => writes_write hwrite) plans.nodup h uid

theorem sound_writeAll {window : Window} {plans : Dict String Plan} {events : Dict String Event}
    (h : ∀ uid, Sound caldav w uid) (hcaldav : caldav window.calendarId = true)
    (hread : ∀ uid read pulled, plans.get? uid = some (.update read pulled) →
      read.caldavSyncPending = none)
    (hspares : ∀ uid plan, plans.get? uid = some plan → ∀ change, w.ledger.Waiting uid change →
      plan.spares (w.events.get? uid) change)
    (hwrites : writeAll window plans w.events = some events) (uid : String) :
    Sound caldav { w with events := events } uid := by
  obtain ⟨hnone, hsome⟩ := get?_writeAll hwrites uid
  cases hplan : plans.get? uid with
  | none => exact (h uid).congr (hnone hplan) rfl rfl
  | some plan =>
    have hwritten := hsome plan hplan
    cases plan with
    | insert pulled =>
      obtain ⟨hgone, row, hrow, hcalendar⟩ := hwritten
      refine Sound.of_row hrow (fun _ _ => hcalendar ▸ hcaldav) fun change hw => ?_
      obtain ⟨leaves, rfl, -⟩ := (h uid).waiting_gone hgone hw
      cases hspares uid _ hplan _ hw
    | update read pulled =>
      cases hbefore : w.events.get? uid with
      | none =>
        refine (h uid).congr ?_ rfl rfl
        rw [hwritten, hbefore]
        rfl
      | some current =>
        rw [hbefore] at hwritten
        refine Sound.of_row hwritten (fun e he => (h uid).home current e hbefore he) ?_
        intro change hw
        obtain ⟨rfl, hpending⟩ := (h uid).waiting_row hbefore hw
        refine ⟨?_, ?_⟩
        · exact congrArg Change.edited (hspares uid _ hplan _ hw current hbefore).symm
        · simpa [merge, column, hread uid read pulled hplan] using hpending

theorem sound_prune {uids : List String} (h : ∀ uid, Sound caldav w uid)
    (hspares : ∀ uid ∈ uids, ∀ change, w.ledger.Waiting uid change → change.isDeletion = true)
    (uid : String) : Sound caldav { w with events := uids.foldl Dict.erase w.events } uid := by
  by_cases hmem : uid ∈ uids
  case neg => exact (h uid).congr (by rw [Dict.get?_foldl_erase, if_neg hmem]) rfl rfl
  case pos =>
    refine Sound.of_gone (by rw [Dict.get?_foldl_erase, if_pos hmem]) fun change hw => ?_
    cases change with
    | edited fields => cases hspares uid hmem _ hw
    | deleted leaves => exact ⟨leaves, rfl, ((h uid).unharmed _ hw).2⟩

/-! ## Steps -/

variable {frame : Frame} {event : Occurrence} {effect : Effect} {next : Option Frame}

/-- Where an effect comes from. -/
def Effect.From (w : Store) (frame : Frame) (event : Occurrence) : Effect → Prop
  | .creates uid _ _ => w.ledger.entries.get? uid = none
  | .updates uid _ row | .deletes uid _ row => w.events.get? uid = some row
  | .records push result =>
    ∃ stamp rest, frame = .recording push stamp result rest ∧ event = .commits
  | .writes events =>
    ∃ window s, frame = .reading window [] s ∧ event = .commits ∧
      writeAll window s.plans w.events = some events
  | .prunes uids => frame = .pruning uids ∧ event = .commits
  | .nothing | .delivers _ _ | .marks _ _ => True

theorem act_from (h : act caldav w frame event = some (effect, next)) :
    effect.From w frame event := by
  unfold act at h
  split at h <;> (try split at h) <;>
    simp only [Option.some.injEq, Prod.mk.injEq, reduceCtorEq] at h <;>
    obtain ⟨rfl, -⟩ := h
  all_goals first
    | trivial
    | assumption
    | exact ⟨_, _, rfl, rfl⟩
    | exact ⟨rfl, rfl⟩
    | exact ⟨_, _, rfl, rfl, by assumption⟩

/-- What a call has read is as it was read, and what it has delivered is delivered. -/
def Frame.Sound (caldav : String → Bool) (w : Store) : Frame → Prop
  | .carrying _ _ _ stamp _ => w.ledger.Given stamp
  | .recording push stamp result _ =>
    w.ledger.Given stamp ∧
      ∀ href etag, result = .ok href etag → w.ledger.Covers push.uid stamp
  | .pulling window => caldav window.calendarId = true
  | .reading window _ s =>
    caldav window.calendarId = true ∧
      ∀ uid read pulled, s.plans.get? uid = some (.update read pulled) →
        read.caldavSyncPending = none
  | _ => True

theorem Frame.Sound.later {w' : Store} (h : frame.Sound caldav w)
    (hlater : w.ledger.Later w'.ledger) : frame.Sound caldav w' := by
  cases frame with
  | carrying push calendarId payload stamp rest => exact Ledger.Given.later h hlater
  | recording push stamp result rest =>
    obtain ⟨hgiven, hcovers⟩ := h
    exact ⟨hgiven.later hlater, fun href etag hok => (hcovers href etag hok).later hgiven hlater⟩
  | _ => exact h

theorem ledger_persist (push : Push) (result : Result) (w : Store) :
    (persist push result w).ledger = w.ledger := by
  unfold persist
  split
  · rfl
  · split <;> rfl
  · split <;> rfl
  · rfl

theorem ledger_mark (uid : String) (pending : Pending) (w : Store) :
    (mark uid pending w).ledger = w.ledger := by
  unfold mark
  split <;> rfl

theorem later_local {l : Ledger String Change} {uid : String} {change : Change} {p : Prop}
    [Decidable p] : l.Later (if p then l.record uid change else l) := by
  split
  · exact Ledger.later_record
  · exact Ledger.Later.refl l

theorem later_apply (effect : Effect) : w.ledger.Later (effect.apply caldav w).ledger := by
  cases effect with
  | creates uid calendarId fields => exact later_local
  | updates uid edit row => exact later_local
  | deletes uid byTool row => exact later_local
  | delivers uid stamp => exact Ledger.later_settle
  | records push result =>
    rw [Effect.apply, ledger_persist]
    exact Ledger.Later.refl w.ledger
  | marks uid pending =>
    rw [Effect.apply, ledger_mark]
    exact Ledger.Later.refl w.ledger
  | _ => exact Ledger.Later.refl w.ledger

/-- The loop assigns to rows that it has read without a pending flag. -/
theorem pending_pullObject {window : Window} {s : Pulling} {object : Fetched}
    (h : ∀ uid read pulled, s.plans.get? uid = some (.update read pulled) →
      read.caldavSyncPending = none) :
    ∀ uid read pulled, (pullObject window w s object).plans.get? uid = some (.update read pulled) →
      read.caldavSyncPending = none := by
  intro uid read pulled
  cases object with
  | unreadable => exact h uid read pulled
  | component c =>
    simp only [pullObject]
    cases c.pulled with
    | none => exact h uid read pulled
    | some pulled' =>
      dsimp only
      unfold plan
      split
      case h_1 =>
        rw [Dict.get?_set]
        split
        · rintro ⟨⟩
        · exact h uid read pulled
      case h_2 read' pulled₀ hplan =>
        rw [Dict.get?_set]
        split
        · intro heq
          obtain ⟨rfl, -⟩ := Plan.update.inj (Option.some.inj heq)
          exact h _ _ _ hplan
        · exact h uid read pulled
      case h_3 =>
        split
        · rw [Dict.get?_set]
          split
          · rintro ⟨⟩
          · exact h uid read pulled
        · split
          · exact h uid read pulled
          · rename_i row hrow hpending
            rw [Dict.get?_set]
            split
            · intro heq
              obtain ⟨rfl, -⟩ := Plan.update.inj (Option.some.inj heq)
              simpa using hpending
            · exact h uid read pulled

theorem sound_pushNext {rest : List Push} {frame' : Frame} (h : pushNext rest = some frame') :
    frame'.Sound caldav w := by
  cases rest with
  | nil => cases h
  | cons push rest =>
    obtain rfl := Option.some.inj h
    trivial

theorem sound_afterFailure {push : Push} {rest : List Push} {frame' : Frame}
    (h : afterFailure push rest = some frame') : frame'.Sound caldav w := by
  unfold afterFailure at h
  split at h
  · obtain rfl := Option.some.inj h
    trivial
  · exact sound_pushNext h

theorem sound_afterResult {push : Push} {result : Result} {rest : List Push} {frame' : Frame}
    (h : afterResult push result rest = some frame') : frame'.Sound caldav w := by
  cases result with
  | ok href etag => exact sound_pushNext h
  | failed error => exact sound_afterFailure h

theorem Frame.Sound.follows {frame' : Frame} (h : frame.Sound caldav w)
    (hact : act caldav w frame event = some (effect, some frame')) :
    frame'.Sound caldav (effect.apply caldav w) := by
  unfold act at hact
  split at hact <;> (try split at hact) <;>
    simp only [Option.some.injEq, Prod.mk.injEq, Option.ite_none_right_eq_some,
      Option.ite_none_left_eq_some, reduceCtorEq, and_false] at hact <;>
    obtain ⟨rfl, hact⟩ := hact
  all_goals first
    | exact sound_pushNext hact
    | exact sound_afterFailure hact
    | exact sound_afterResult hact
    | (obtain ⟨-, rfl⟩ := hact; trivial)
    | subst hact
  -- the row is read for a push
  case h_2 => exact Ledger.given_stamp _
  -- the server has taken what was pushed, or has not
  case h_7 => exact ⟨Ledger.Given.later h Ledger.later_settle, fun _ _ _ => Ledger.covers_settle _⟩
  case h_8 => exact ⟨Ledger.Given.later h Ledger.later_settle, fun _ _ _ => Ledger.covers_settle _⟩
  case h_9 => exact ⟨h, nofun⟩
  -- the objects are there, and the loop goes over them
  case h_16 =>
    refine ⟨h, fun uid read pulled hplan => ?_⟩
    exact absurd hplan.symm (Option.some_ne_none _)
  case h_18 => exact ⟨h.1, pending_pullObject h.2⟩

/-! ## Runs -/

/-- A step keeps the events sound, if what it writes spares the changes that have not been
pushed. -/
theorem sound_apply (h : ∀ uid, Sound caldav w uid) (hframe : frame.Sound caldav w)
    (hact : act caldav w frame event = some (effect, next)) (hspares : spares w frame event)
    (uid : String) : Sound caldav (effect.apply caldav w) uid := by
  have hfrom := act_from hact
  cases effect with
  | nothing => exact h uid
  | creates uid' calendarId fields => exact sound_createEvent h hfrom uid
  | updates uid' edit row => exact sound_updateEvent h hfrom uid
  | deletes uid' byTool row => exact sound_deleteEvent h hfrom uid
  | delivers uid' stamp => exact sound_settle h uid
  | marks uid' pending => exact sound_mark h uid
  | records push result =>
    obtain ⟨stamp, rest, rfl, rfl⟩ := hfrom
    cases result with
    | failed error => exact sound_persist_failed h uid
    | ok href etag =>
      refine sound_persist_ok h (fun change hw => ?_) uid
      obtain ⟨e, he, rfl, hdelivered⟩ := hw
      obtain hlast | hpushed | hkept := hspares e he
      · rw [hframe.2 href etag rfl e he hlast] at hdelivered
        cases hdelivered
      · rw [hpushed] at hdelivered
        cases hdelivered
      · exact hkept
  | writes events =>
    obtain ⟨window, s, rfl, rfl, hwrites⟩ := hfrom
    refine sound_writeAll h hframe.1 hframe.2 (fun uid' plan hplan change hw => ?_) hwrites uid
    obtain ⟨e, he, rfl, hdelivered⟩ := hw
    obtain hpushed | hkept := hspares (by rw [hwrites]; rfl) (uid', plan)
      ((s.plans.mem_items_iff uid' plan).mpr hplan) e he
    · rw [hpushed] at hdelivered
      cases hdelivered
    · exact hkept
  | prunes uids =>
    obtain ⟨rfl, rfl⟩ := hfrom
    refine sound_prune h (fun uid' hmem change hw => ?_) uid
    obtain ⟨e, he, rfl, hdelivered⟩ := hw
    obtain hpushed | hkept := hspares uid' hmem e he
    · rw [hpushed] at hdelivered
      cases hdelivered
    · exact hkept

/-- In every run whose recorded pushes, pulls and prunes spare the changes that have not been
pushed, no such change is overwritten, undone or marked as synced. -/
theorem unharmed_of_spares (caldav : String → Bool) {w : Serving Store Frame}
    (hw : ((service caldav).system settled).ReachableWhere (Service.under spares) w)
    (uid : String) : Unharmed w.store uid := by
  refine ((Service.invariant (I := fun w => ∀ uid, Sound caldav w uid)
    (J := fun w f => f.Sound caldav w) ?_ ?_ ?_ hw).store uid).unharmed
  · intro w hsettled uid
    exact Sound.of_none (by rw [hsettled]; rfl)
  · intro w f hentry _
    cases f with
    | pulling window => exact hentry
    | creating _ _ _ | updating _ _ | deleting _ _ | pushingPending => trivial
    | _ => cases hentry
  · intro w f e w' next h hframe hspares hadvance
    obtain ⟨⟨effect, next'⟩, hact, heq⟩ := Option.map_eq_some_iff.mp hadvance
    obtain ⟨rfl, rfl⟩ := Prod.mk.inj heq
    refine ⟨sound_apply h hframe hact hspares, ?_, fun _ h => h.later (later_apply effect)⟩
    rintro f' rfl
    exact hframe.follows hact

/-! ## Edits and deletions in the way of pushes and pulls -/

/-- The title of an event and its pending flag. -/
def shows (w : Serving Store Frame) (uid : String) : Option (String × Option Pending) :=
  (w.store.events.get? uid).map fun row => (row.fields.summary, row.caldavSyncPending)

/-- The last change of an event, and whether it has been pushed. -/
def last (w : Serving Store Frame) (uid : String) : Option (Change × Bool) :=
  (w.store.ledger.entries.get? uid).map fun e => (e.change, e.delivered)

/-- All calendars are on the server. -/
def everyCalendar : String → Bool := fun _ => true

/-- An event is renamed while the server cannot be reached, and then pulled as it was. -/
theorem unharmed_pulled : ∃ w,
    ((service everyCalendar).system settled).ReachableWhere (Service.under spares) w ∧
    (shows w "e1", last w "e1") =
      (some ("dinner", some .update), some (.edited (hour "dinner"), false)) ∧
    Unharmed w.store "e1" := by
  obtain ⟨w, hw, hshows⟩ := TransitionSystem.exists_reachableWhere_of_exec
    ((service everyCalendar).system settled) (Service.under spares)
    (fun w => (shows w "e1", last w "e1"))
    (creates 1 "e1" "lunch" ++ succeeds 1 "e1" ++ renames 2 "e1" "dinner" ++ fails 2 ++
      [Turn.goesOn 2 .commits] ++ pulls 3 (returned "e1" "lunch") ++
      [Turn.goesOn 3 .reads, .goesOn 3 .commits])
    (v := (some ("dinner", some .update), some (.edited (hour "dinner"), false)))
    (init_noEvents everyCalendar) (by decide +kernel)
  exact ⟨w, hw, hshows, unharmed_of_spares everyCalendar hw "e1"⟩

/-- An event is renamed while it is pushed, and the push says that it is synced. -/
theorem not_unharmed_overtaken : ∃ w,
    ((service everyCalendar).system settled).Reachable w ∧ ¬ Unharmed w.store "e1" := by
  obtain ⟨w, hw, hshows⟩ := TransitionSystem.exists_reachableWhere_of_exec
    ((service everyCalendar).system settled) TransitionSystem.anyStep
    (fun w => (shows w "e1", last w "e1"))
    (creates 1 "e1" "lunch" ++ renames 2 "e1" "dinner" ++ succeeds 1 "e1")
    (v := (some ("dinner", none), some (.edited (hour "dinner"), false)))
    (init_noEvents everyCalendar) (by decide +kernel)
  obtain ⟨hrow, hlast⟩ := Prod.mk.inj hshows
  obtain ⟨e, he, hentry⟩ := Option.map_eq_some_iff.mp hlast
  obtain ⟨hchange, hdelivered⟩ := Prod.mk.inj hentry
  refine ⟨w, hw, fun h => ?_⟩
  obtain ⟨row, hget, -, hpending⟩ := h _ ⟨e, he, hchange, hdelivered⟩
  rw [shows, hget, Option.map_some] at hrow
  obtain ⟨-, hnone⟩ := Prod.mk.inj (Option.some.inj hrow)
  rw [hnone] at hpending
  cases hpending

-- An event that is deleted while the server cannot be reached is there again when it is pulled.
example :
    (((service everyCalendar).system settled).exec TransitionSystem.anyStep noEvents
      (creates 1 "e1" "lunch" ++ succeeds 1 "e1" ++ removes 2 "e1" ++ fails 2 ++
        pulls 3 (returned "e1" "lunch"))).map (fun w => (shows w "e1", last w "e1")) =
    some (some ("lunch", none), some (.deleted true, false)) := by
  decide +kernel

end Pandamonium.CalendarSync
