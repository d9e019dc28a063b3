import Pandamonium.Model.SessionMessages

/-!
# The two copies of a session's messages

A message whose row could not be written stays in memory without a database id.  From then on the
count that goes with the next message is not that of the rows, and the first messages in memory are
not those of the table; and a replacement that fails has given its messages ids that no row has.
Where no step meets such a message the two copies agree.
-/

set_option autoImplicit false

namespace Pandamonium.SessionMessages

open Pandamonium.Library Pandamonium.History

variable {s s' : State} {objects objects' : ℕ → ChatMessage} {history : List ℕ}
  {rows : List (String × DbMessage)} {messages : List (ℕ × String)} {r : ℕ} {id : String}

/-- The object is that of the row. -/
def Shows (objects : ℕ → ChatMessage) (r : ℕ) (e : String × DbMessage) : Prop :=
  (objects r).dbId = some e.1 ∧ (objects r).role = e.2.role ∧
    persistable (objects r).content = e.2.content

/-- The object has a database id. -/
def isPersisted (objects : ℕ → ChatMessage) (r : ℕ) : Bool := (objects r).dbId.isSome

/-- The messages in memory that have a database id are the rows in their order, and the count is
that of the rows. -/
structure Agree (s : State) : Prop where
  shown : List.Forall₂ (Shows s.objects) (s.history.filter (isPersisted s.objects)) s.inOrder
  counted : s.messageCount = s.rows.items.length

/-- A message whose row is written is new and comes last, after messages that all have rows; one
whose row is not written has no id from elsewhere; no message without a row is among the first ones
where the others are cut off; a replacement lists no object twice, and if it fails, it has given no
message of the session an id. -/
def spares (s : State) : Label → Bool
  | .creates _ => true
  | .addMessage r msgId msgTime committed =>
    if committed ∧ s.rows.get? msgId = none then
      decide (r ∉ s.history) && s.history.all (isPersisted s.objects) &&
        s.rows.items.all fun e => decide (e.2.timestamp ≤ msgTime)
    else !isPersisted s.objects r
  | .truncateMessages keepCount committed =>
    decide (keepCount < 0 ∨ committed = false) ||
      decide ((s.history.take keepCount.toNat).filter (isPersisted s.objects) =
        (s.history.filter (isPersisted s.objects)).take keepCount.toNat)
  | .deleteMessage _ _ => true
  | .replaceMessages messages _ raises =>
    match raises with
    | some n => (messages.take n).all fun message => decide (message.1 ∉ s.history)
    | none =>
      if (messages.map Prod.snd).Nodup then decide (messages.map Prod.fst).Nodup
      else messages.all fun message => decide (message.1 ∉ s.history)

/-- The condition on a step is one on the runs. -/
def sparing (s : State) (label : Label) : Prop := spares s label = true

instance : DecidableRel sparing :=
  fun s label => inferInstanceAs (Decidable (spares s label = true))

/-! ## Objects and rows -/

/-- The objects of the history are what they were. -/
theorem shown_of_eqOn (h : List.Forall₂ (Shows objects) (history.filter (isPersisted objects)) rows)
    (heq : ∀ r ∈ history, objects' r = objects r) :
    List.Forall₂ (Shows objects') (history.filter (isPersisted objects')) rows := by
  induction history generalizing rows with
  | nil =>
    cases h
    exact .nil
  | cons r history ih =>
    have hr := heq r List.mem_cons_self
    have hsame : isPersisted objects' r = isPersisted objects r := by
      rw [isPersisted, isPersisted, hr]
    rw [List.filter_cons] at h ⊢
    rw [hsame]
    split at h
    case isTrue hp =>
      rw [if_pos hp]
      cases h with
      | cons hshows hrest =>
        refine .cons ?_ (ih hrest fun r' hr' => heq r' (List.mem_cons_of_mem r hr'))
        rw [Shows, hr]
        exact hshows
    case isFalse hp =>
      rw [if_neg hp]
      exact ih h fun r' hr' => heq r' (List.mem_cons_of_mem r hr')

theorem stamp_of_ne {r' : ℕ} (h : r' ≠ r) (objects : ℕ → ChatMessage) (id : String) :
    stamp objects r id r' = objects r' := Function.update_of_ne h _ _

/-- Only the id of an object changes. -/
theorem stamp_same (objects : ℕ → ChatMessage) (r r' : ℕ) (id : String) :
    (stamp objects r id r').role = (objects r').role ∧
      (stamp objects r id r').content = (objects r').content := by
  by_cases h : r' = r
  · subst h
    rw [stamp, Function.update_self]
    exact ⟨rfl, rfl⟩
  · rw [stamp_of_ne h]
    exact ⟨rfl, rfl⟩

theorem stampAll_of_not_mem (h : r ∉ messages.map Prod.fst) (objects : ℕ → ChatMessage) :
    stampAll objects messages r = objects r := by
  induction messages generalizing objects with
  | nil => rfl
  | cons message messages ih =>
    obtain ⟨hne, hrest⟩ := not_or.mp (mt List.mem_cons.mpr h)
    show stampAll (stamp objects message.1 message.2) messages r = objects r
    rw [ih hrest, stamp_of_ne hne]

theorem stampAll_same (objects : ℕ → ChatMessage) (messages : List (ℕ × String)) (r : ℕ) :
    (stampAll objects messages r).role = (objects r).role ∧
      (stampAll objects messages r).content = (objects r).content := by
  induction messages generalizing objects with
  | nil => exact ⟨rfl, rfl⟩
  | cons message messages ih =>
    obtain ⟨hrole, hcontent⟩ := ih (stamp objects message.1 message.2)
    obtain ⟨hrole', hcontent'⟩ := stamp_same objects message.1 r message.2
    exact ⟨hrole.trans hrole', hcontent.trans hcontent'⟩

/-- Objects that are listed once have the ids they were given. -/
theorem dbId_stampAll (hnodup : (messages.map Prod.fst).Nodup) (hmem : (r, id) ∈ messages)
    (objects : ℕ → ChatMessage) : (stampAll objects messages r).dbId = some id := by
  induction messages generalizing objects with
  | nil => cases hmem
  | cons message messages ih =>
    obtain ⟨hnot, hnodup⟩ := List.nodup_cons.mp hnodup
    obtain rfl | hmem := List.mem_cons.mp hmem
    · show (stampAll (stamp objects r id) messages r).dbId = some id
      rw [stampAll_of_not_mem hnot, stamp, Function.update_self]
    · exact ih hnodup hmem _

/-- The rows of a list of messages are those of its objects. -/
theorem shows_newRows (now : ℕ)
    (h : ∀ message ∈ messages, (objects' message.1).dbId = some message.2 ∧
      (objects' message.1).role = (objects message.1).role ∧
      (objects' message.1).content = (objects message.1).content) :
    List.Forall₂ (Shows objects') (messages.map Prod.fst) (newRows objects messages now) := by
  induction messages generalizing now with
  | nil => exact .nil
  | cons message messages ih =>
    obtain ⟨hid, hrole, hcontent⟩ := h message List.mem_cons_self
    refine .cons ⟨hid, hrole, ?_⟩ (ih (now + 1) fun m hm => h m (List.mem_cons_of_mem message hm))
    rw [hcontent]
    rfl

theorem le_of_mem_newRows {now : ℕ} {e : String × DbMessage}
    (h : e ∈ newRows objects messages now) : now ≤ e.2.timestamp := by
  induction messages generalizing now with
  | nil => cases h
  | cons message messages ih =>
    obtain rfl | hmem := List.mem_cons.mp h
    · exact Nat.le_refl now
    · exact (Nat.le_succ now).trans (ih hmem)

/-- The rows of a list of messages are in its order. -/
theorem orderedBy_newRows (objects : ℕ → ChatMessage) (messages : List (ℕ × String)) (now : ℕ) :
    orderedBy (fun e => e.2.timestamp) (newRows objects messages now) =
      newRows objects messages now := by
  induction messages generalizing now with
  | nil => rfl
  | cons message messages ih =>
    rw [newRows, orderedBy_cons, ih]
    exact insertBy_of_forall_le fun e he => (Nat.le_succ now).trans (le_of_mem_newRows he)

theorem length_inOrder (s : State) : s.inOrder.length = s.rows.items.length :=
  (perm_orderedBy _ s.rows.items).length_eq

/-- The rows whose keys are not among those behind are those before. -/
theorem filter_not_mem_drop {rows : List (String × DbMessage)} (hnodup : (rows.map Prod.fst).Nodup)
    (n : ℕ) : (rows.filter fun e => decide (e.1 ∉ (rows.drop n).map Prod.fst)) = rows.take n := by
  have hbefore : ∀ e ∈ rows.take n, e.1 ∉ (rows.drop n).map Prod.fst := by
    rw [← List.take_append_drop n rows, List.map_append] at hnodup
    intro e he hbehind
    exact List.disjoint_of_nodup_append hnodup (List.mem_map_of_mem he) hbehind
  have hbehind : ∀ e ∈ rows.drop n, ¬ e.1 ∉ (rows.drop n).map Prod.fst :=
    fun e he hnot => hnot (List.mem_map_of_mem he)
  have hsplit : (rows.take n ++ rows.drop n).filter
      (fun e => decide (e.1 ∉ (rows.drop n).map Prod.fst)) = rows.take n := by
    rw [List.filter_append, List.filter_eq_self.mpr fun e he => decide_eq_true (hbefore e he),
      List.filter_eq_nil_iff.mpr fun e he => by simpa using hbehind e he, List.append_nil]
  rwa [List.take_append_drop] at hsplit

/-! ## What the operations keep -/

/-- The two copies agree, and the objects of the history are in use. -/
structure Kept (s : State) : Prop where
  agree : Agree s
  used : ∀ r ∈ s.history, r < s.created

/-- A history that is empty has no rows, so nothing is loaded. -/
theorem getSession_eq (h : Agree s) : getSession s = { s with cachedCount := s.messageCount } := by
  rw [getSession]
  split
  case isFalse => rfl
  case isTrue hempty =>
    have hhistory : s.history = [] := List.isEmpty_iff.mp hempty.1
    have hrows : s.rows.items = [] := by
      have hlength := h.shown.length_eq
      rw [hhistory, length_inOrder] at hlength
      exact List.length_eq_zero_iff.mp hlength.symm
    rw [loadSessionFromDb, hrows, hhistory]
    simp only [List.length_nil, Nat.add_zero, List.range'_zero, List.getElem?_nil, ite_self]

theorem Kept.refreshed (h : Kept s) : Kept { s with cachedCount := s.messageCount } :=
  ⟨⟨h.agree.shown, h.agree.counted⟩, h.used⟩

theorem Kept.creates (h : Kept s) (m : ChatMessage) :
    Kept { s with objects := Function.update s.objects s.created m, created := s.created + 1 } := by
  refine ⟨⟨shown_of_eqOn h.agree.shown fun r hr => ?_, h.agree.counted⟩, fun r hr => ?_⟩
  · exact Function.update_of_ne (Nat.ne_of_lt (h.used r hr)) _ _
  · exact Nat.lt_succ_of_lt (h.used r hr)

theorem Kept.addMessage (h : Kept s) {msgId : String} {msgTime : ℕ} {committed : Bool}
    (hr : r < s.created) (hspares : spares s (.addMessage r msgId msgTime committed) = true) :
    Kept (addMessage r msgId msgTime committed s) := by
  have hused : ∀ r' ∈ s.history ++ [r], r' < s.created := by
    intro r' hr'
    obtain hr' | hr' := List.mem_append.mp hr'
    · exact h.used r' hr'
    · exact List.mem_singleton.mp hr' ▸ hr
  rw [spares] at hspares
  rw [SessionMessages.addMessage, getSession_eq h.agree]
  dsimp only
  rw [persistMessage]
  split at hspares
  case isTrue hwritten =>
    obtain ⟨⟨hnew, hall⟩, hlast⟩ : (r ∉ s.history ∧
        ∀ r' ∈ s.history, isPersisted s.objects r' = true) ∧
        ∀ e ∈ s.rows.items, e.2.timestamp ≤ msgTime := by
      simpa only [Bool.and_eq_true, decide_eq_true_eq, List.all_eq_true] using hspares
    rw [if_pos hwritten]
    refine ⟨⟨?_, ?_⟩, hused⟩
    · have hbefore : List.Forall₂ (Shows (stamp s.objects r msgId))
          (s.history.filter (isPersisted (stamp s.objects r msgId))) s.inOrder := by
        refine shown_of_eqOn h.agree.shown fun r' hr' => stamp_of_ne ?_ _ _
        rintro rfl
        exact hnew hr'
      have hshows : Shows (stamp s.objects r msgId) r (msgId, (s.objects r).row msgTime) := by
        rw [Shows, stamp, Function.update_self]
        exact ⟨rfl, rfl, rfl⟩
      have hpersisted : isPersisted (stamp s.objects r msgId) r = true := by
        rw [isPersisted, hshows.1]
        rfl
      dsimp only
      rw [State.inOrder, Dict.items_set_of_get?_eq_none hwritten.2, orderedBy_concat hlast,
        List.filter_append, List.filter_cons_of_pos hpersisted]
      exact List.rel_append hbefore (.cons hshows .nil)
    · -- all messages before have rows
      have hlength := h.agree.shown.length_eq
      rw [List.filter_eq_self.mpr hall, length_inOrder] at hlength
      dsimp only
      rw [Dict.items_set_of_get?_eq_none hwritten.2, List.length_append, List.length_append, hlength]
      rfl
  case isFalse hwritten =>
    rw [if_neg hwritten]
    refine ⟨⟨?_, h.agree.counted⟩, hused⟩
    rw [Bool.not_eq_true'] at hspares
    dsimp only
    rw [List.filter_append, List.filter_cons_of_neg (by rw [hspares]; exact Bool.false_ne_true),
      List.filter_nil, List.append_nil]
    exact h.agree.shown

theorem Kept.truncateMessages (h : Kept s) {keepCount : Int} {committed : Bool}
    (hspares : spares s (.truncateMessages keepCount committed) = true) :
    Kept (truncateMessages keepCount committed s) := by
  rw [SessionMessages.truncateMessages, getSession_eq h.agree]
  dsimp only
  split
  case isTrue => exact h.refreshed
  case isFalse hkeep =>
    rw [spares, decide_eq_false hkeep, Bool.false_or, decide_eq_true_eq] at hspares
    have hrows : orderedBy (fun e => e.2.timestamp)
        (((s.inOrder.drop keepCount.toNat).map Prod.fst).foldl Dict.erase s.rows).items =
        s.inOrder.take keepCount.toNat := by
      have hnodup : (s.inOrder.map Prod.fst).Nodup :=
        ((perm_orderedBy _ s.rows.items).map Prod.fst).nodup_iff.mpr s.rows.nodup
      rw [Dict.items_foldl_erase, orderedBy_filter]
      exact filter_not_mem_drop hnodup keepCount.toNat
    refine ⟨⟨?_, ?_⟩, fun r hr => h.used r (List.mem_of_mem_take hr)⟩
    · dsimp only [State.inOrder] at hrows ⊢
      rw [hrows, hspares]
      exact List.forall₂_take keepCount.toNat h.agree.shown
    · have hlength := congrArg List.length hrows
      rw [(perm_orderedBy _ _).length_eq, List.length_take] at hlength
      exact hlength.symm

theorem Kept.deleteMessage (h : Kept s) (messageId : String) (committed : Bool) :
    Kept (deleteMessage messageId committed s) := by
  rw [SessionMessages.deleteMessage, getSession_eq h.agree]
  dsimp only
  split
  case isTrue => exact h.refreshed
  case isFalse =>
    refine ⟨⟨?_, rfl⟩, fun r hr => h.used r (List.mem_filter.mp hr).1⟩
    show List.Forall₂ (Shows s.objects) _ (orderedBy _ (s.rows.erase messageId).items)
    rw [Dict.erase, orderedBy_filter, List.filter_filter]
    -- the two filters of the history in the other order
    have hcomm : (s.history.filter fun r => isPersisted s.objects r &&
        decide ((s.objects r).dbId.getD "" ≠ messageId)) =
        (s.history.filter (isPersisted s.objects)).filter fun r =>
          decide ((s.objects r).dbId.getD "" ≠ messageId) := by
      rw [List.filter_filter]
      exact List.filter_congr fun r _ => Bool.and_comm _ _
    rw [hcomm]
    refine List.rel_filter (fun r e hshows => ?_) h.agree.shown
    dsimp only
    rw [hshows.1]
    exact Iff.rfl

theorem Kept.replaceMessages (h : Kept s) {now : ℕ} {raises : Option ℕ}
    (hused : ∀ message ∈ messages, message.1 < s.created)
    (hspares : spares s (.replaceMessages messages now raises) = true) :
    Kept (replaceMessages messages now raises s) := by
  -- a replacement that fails, of messages that are not of the session
  have hfails : ∀ messages : List (ℕ × String), (∀ message ∈ messages, message.1 ∉ s.history) →
      Kept { s with cachedCount := s.messageCount, objects := stampAll s.objects messages } := by
    intro messages hothers
    refine ⟨⟨shown_of_eqOn h.agree.shown fun r hr => ?_, h.agree.counted⟩, h.used⟩
    refine stampAll_of_not_mem (fun hmem => ?_) s.objects
    obtain ⟨message, hmessage, rfl⟩ := List.mem_map.mp hmem
    exact hothers message hmessage hr
  unfold SessionMessages.replaceMessages
  simp only [getSession_eq h.agree]
  cases raises with
  | some n =>
    simp only [spares, List.all_eq_true, decide_eq_true_eq] at hspares
    exact hfails (messages.take n) hspares
  | none =>
    rw [spares] at hspares
    split at hspares
    case isFalse hids =>
      simp only [List.all_eq_true, decide_eq_true_eq] at hspares
      rw [dif_neg hids]
      exact hfails messages hspares
    case isTrue hids =>
      have hnodup := of_decide_eq_true hspares
      rw [dif_pos hids]
      have hstamped : ∀ message ∈ messages,
          (stampAll s.objects messages message.1).dbId = some message.2 ∧
          (stampAll s.objects messages message.1).role = (s.objects message.1).role ∧
          (stampAll s.objects messages message.1).content = (s.objects message.1).content :=
        fun message hmessage =>
          ⟨dbId_stampAll hnodup hmessage s.objects, stampAll_same s.objects messages message.1⟩
      refine ⟨⟨?_, ?_⟩, ?_⟩
      · show List.Forall₂ (Shows (stampAll s.objects messages)) _
          (orderedBy _ (newRows s.objects messages now))
        rw [orderedBy_newRows, List.filter_eq_self.mpr]
        · exact shows_newRows now hstamped
        · intro r hr
          obtain ⟨message, hmessage, rfl⟩ := List.mem_map.mp hr
          rw [isPersisted, (hstamped message hmessage).1]
          rfl
      · show messages.length = (newRows s.objects messages now).length
        have hlength := congrArg List.length (keys_newRows s.objects messages now)
        rw [List.length_map, List.length_map] at hlength
        exact hlength.symm
      · intro r hr
        obtain ⟨message, hmessage, rfl⟩ := List.mem_map.mp hr
        exact hused message hmessage

theorem Kept.step (h : Kept s) {label : Label} (hspares : spares s label = true)
    (hstep : step s label = some s') : Kept s' := by
  cases label with
  | creates m =>
    obtain rfl := Option.some.inj hstep
    exact h.creates m
  | addMessage r msgId msgTime committed =>
    obtain ⟨hr, hs'⟩ := Option.ite_none_right_eq_some.mp hstep
    obtain rfl := Option.some.inj hs'
    exact h.addMessage hr hspares
  | truncateMessages keepCount committed =>
    obtain rfl := Option.some.inj hstep
    exact h.truncateMessages hspares
  | deleteMessage messageId committed =>
    obtain rfl := Option.some.inj hstep
    exact h.deleteMessage messageId committed
  | replaceMessages messages now raises =>
    obtain ⟨hused, hs'⟩ := Option.ite_none_right_eq_some.mp hstep
    obtain rfl := Option.some.inj hs'
    exact h.replaceMessages
      (fun message hmessage => of_decide_eq_true (List.all_eq_true.mp hused message hmessage)) hspares

theorem kept_new : Kept .new := ⟨⟨.nil, rfl⟩, nofun⟩

/-- In every run in which no step meets a message without a row where that matters, the messages in
memory that have a database id are the rows in their order, and the count is that of the rows. -/
theorem persists_of_spares (hs : manager.ReachableWhere sparing s) : Agree s := by
  refine Kept.agree (hs.invariant ?_ fun _ _ _ h hspares hstep => h.step hspares hstep)
  rintro s₀ rfl
  exact kept_new

/-! ## Two runs -/

/-- A message is added, one is not written and the first is deleted, and a replacement has an object
of the session in its list. -/
theorem agree_replaced : ∃ s, manager.ReachableWhere sparing s ∧
    (s.history, s.rows.items, s.messageCount) =
      ([1, 2], [("d", ⟨"user", "b", 3⟩), ("e", ⟨"system", "c", 4⟩)], 2) ∧ Agree s := by
  obtain ⟨s, hs, hseen⟩ := TransitionSystem.exists_reachableWhere_of_exec manager sparing
    (fun s => (s.history, s.rows.items, s.messageCount))
    [.creates ⟨"user", "a", none⟩, .addMessage 0 "x" 1 true, .creates ⟨"user", "b", none⟩,
      .addMessage 1 "y" 2 false, .deleteMessage "x" true, .creates ⟨"system", "c", none⟩,
      .replaceMessages [(1, "d"), (2, "e")] 3 none]
    (v := ([1, 2], [("d", ⟨"user", "b", 3⟩), ("e", ⟨"system", "c", 4⟩)], 2)) rfl
    (by decide +kernel)
  exact ⟨s, hs, hseen, persists_of_spares hs⟩

/-- The first message is not written, and the second one is counted with it. -/
theorem not_agree_counted : ∃ s, manager.Reachable s ∧ ¬ Agree s := by
  obtain ⟨s, hs, hseen⟩ := TransitionSystem.exists_reachableWhere_of_exec manager
    TransitionSystem.anyStep (fun s => (s.rows.items, s.messageCount))
    [.creates ⟨"user", "a", none⟩, .creates ⟨"user", "b", none⟩, .addMessage 0 "x" 1 false,
      .addMessage 1 "y" 2 true]
    (v := ([("y", ⟨"user", "b", 2⟩)], 2)) rfl (by decide +kernel)
  obtain ⟨hrows, hcount⟩ := Prod.mk.inj hseen
  refine ⟨s, hs, fun h => ?_⟩
  have hcounted := h.counted
  rw [hrows, hcount] at hcounted
  cases hcounted

end Pandamonium.SessionMessages
