import Pandamonium.Model.MessageReplacement

/-!
# What a replacement that fails leaves

The rows of a failed transaction are rolled back, and the history is replaced after the commit only.
But a message object has its new metadata and its new database id as soon as its row has been made,
and nothing takes them back.
-/

set_option autoImplicit false

namespace Pandamonium.MessageReplacement

open Pandamonium.Library

variable {codec : Codec} {objects objects' : ℕ → ChatMessage} {messages : List (ℕ × String)}
  {s s' : State} {r : ℕ} {id : String}

/-- The history in memory, the metadata of the messages that there were, the rows of the messages
and the counts in the row of the session are what they were.  The time of the last access, which
`get_session` notes in a transaction of its own, is left out. -/
structure Unchanged (s s' : State) : Prop where
  history : s'.session.map Session.history = s.session.map Session.history
  metadata : ∀ r < s.created, (s'.objects r).metadata = (s.objects r).metadata
  messages : s'.messages = s.messages
  counts : s'.dbSession.map (fun row => (row.messageCount, row.updatedAt, row.lastMessageAt)) =
    s.dbSession.map (fun row => (row.messageCount, row.updatedAt, row.lastMessageAt))

section Condition

variable (codec)

/-- Where the call fails in its transaction nothing has changed. -/
def Atomic (messages : List (ℕ × String)) (now : ℕ) (accessed : Option ℕ) (raises : Option Point)
    (s : State) : Prop :=
  (replaceMessages codec messages now accessed raises s).2 = .failed →
    Unchanged s (replaceMessages codec messages now accessed raises s).1

/-- Where the transaction raises, ids that are not different included. -/
def failsAt (messages : List (ℕ × String)) : Option Point → Option Point
  | some point => some point
  | none => if (messages.map Prod.snd).Nodup then none else some .commit

/-- The history is in memory, or there is nothing to be read. -/
def Hydrated (s : State) : Prop :=
  ∃ session, s.session = some session ∧
    (session.history ≠ [] ∨ session.messageCount = 0 ∨ s.messages.items = [])

/-- No message has been given an id, and none has been given metadata that it does not have. -/
def Spares (objects : ℕ → ChatMessage) (messages : List (ℕ × String)) : Point → Prop
  | .before => True
  | .metadata i => messages.take i = []
  | .row i => messages.take i = [] ∧ ∀ message ∈ messages[i]?,
      (objects message.1).metadata = some (messageMetadata codec (objects message.1) message.2)
  | .commit => messages = []

end Condition

/-! ## Objects -/

theorem objects_stamp_of_ne {r' : ℕ} (h : r' ≠ r) :
    stamp codec objects r id r' = objects r' := Function.update_of_ne h _ _

theorem metadata_stamp : ((stamp codec objects r id) r).metadata =
    some ((messageMetadata codec (objects r) id).set "_db_id" (.str id)) := by
  rw [stamp, Function.update_self]

/-- The database id of a message. -/
def ChatMessage.dbId (m : ChatMessage) : Option Value := m.metadata.bind fun d => d.get? "_db_id"

theorem dbId_stamp : ((stamp codec objects r id) r).dbId = some (.str id) := by
  rw [ChatMessage.dbId, metadata_stamp, Option.bind_some, Object.get?_set, if_pos rfl]

/-- A message that was given an id has one of those that it was given. -/
theorem dbId_stampAll (h : r ∈ messages.map Prod.fst) (objects : ℕ → ChatMessage) :
    ∃ id, (r, id) ∈ messages ∧ ((stampAll codec objects messages) r).dbId = some (.str id) := by
  induction messages using List.reverseRecOn with
  | nil => cases h
  | append_singleton messages message ih =>
    rw [stampAll, List.foldl_append, List.foldl_cons, List.foldl_nil]
    obtain ⟨r', id'⟩ := message
    by_cases hsame : r = r'
    · subst hsame
      exact ⟨id', List.mem_append_right _ List.mem_cons_self, dbId_stamp⟩
    · rw [objects_stamp_of_ne hsame]
      have hmem : r ∈ messages.map Prod.fst := by
        rw [List.map_append, List.mem_append] at h
        exact h.resolve_right fun h => hsame (List.mem_singleton.mp h)
      obtain ⟨id, hid, hdb⟩ := ih hmem
      exact ⟨id, List.mem_append_left _ hid, hdb⟩

/-- Messages that were given new ids do not have the ids that they had. -/
theorem eq_nil_of_stampAll (hfresh : ∀ message ∈ messages,
      (objects message.1).dbId ≠ some (.str message.2))
    (h : ∀ message ∈ messages,
      ((stampAll codec objects messages) message.1).dbId = (objects message.1).dbId) :
    messages = [] := by
  by_contra hne
  obtain ⟨message, rest, rfl⟩ := List.exists_cons_of_ne_nil hne
  obtain ⟨id, hid, hdb⟩ := @dbId_stampAll codec (message :: rest) message.1
    (List.mem_map_of_mem List.mem_cons_self) objects
  exact hfresh (message.1, id) hid (hdb ▸ (h message List.mem_cons_self).symm)

theorem get?_pop (d : Object) {key key' : String} (h : key' ≠ key) :
    (pop d key).get? key' = d.get? key' := by
  induction d with
  | nil => rfl
  | cons item d ih =>
    obtain ⟨k, v⟩ := item
    by_cases hk : k = key
    · have hne : k ≠ key' := fun heq => h (heq.symm.trans hk)
      rw [pop, List.filter_cons_of_neg (by simpa using hk), Object.get?, if_neg hne]
      exact ih
    · rw [pop, List.filter_cons_of_pos (by simpa using hk), Object.get?, Object.get?]
      split
      · rfl
      · exact ih

/-- Metadata are made with the database id that a message has. -/
theorem get?_messageMetadata (m : ChatMessage) (messageId : String) :
    (messageMetadata codec m messageId).get? "_db_id" = m.dbId := by
  have hpop : (pop (m.metadata.getD []) "sound_cues").get? "_db_id" = m.dbId := by
    rw [get?_pop _ (by decide), ChatMessage.dbId]
    cases m.metadata <;> rfl
  unfold messageMetadata
  dsimp only
  split
  · split
    · exact hpop
    · rw [Object.get?_set, if_neg (by decide)]
      exact hpop
  · exact hpop

theorem dbId_annotate (r' : ℕ) : ((annotate codec objects r id) r').dbId = (objects r').dbId := by
  by_cases h : r' = r
  · subst h
    rw [annotate, ChatMessage.dbId, Function.update_self]
    exact get?_messageMetadata _ _
  · rw [annotate, Function.update_of_ne h]

theorem dbId_of_metadata {m m' : ChatMessage} (h : m.metadata = m'.metadata) : m.dbId = m'.dbId := by
  rw [ChatMessage.dbId, ChatMessage.dbId, h]

theorem objectsAt_row {i : ℕ} {message : ℕ × String} (h : messages[i]? = some message) :
    objectsAt codec objects messages (.row i) =
      annotate codec (stampAll codec objects (messages.take i)) message.1 message.2 := by
  simp only [objectsAt, h]

theorem objectsAt_row_of_none {i : ℕ} (h : messages[i]? = none) :
    objectsAt codec objects messages (.row i) = stampAll codec objects (messages.take i) := by
  simp only [objectsAt, h]

/-- Where the transaction raises, the metadata are what they were exactly where no message had been
given any that it does not have. -/
theorem metadata_objectsAt_iff {created : ℕ} (hmem : ∀ message ∈ messages, message.1 < created)
    (hfresh : ∀ message ∈ messages, (objects message.1).dbId ≠ some (.str message.2))
    (point : Point) :
    (∀ r < created, ((objectsAt codec objects messages point) r).metadata =
        (objects r).metadata) ↔ Spares codec objects messages point := by
  cases point with
  | before => exact ⟨fun _ => trivial, fun _ _ _ => rfl⟩
  | metadata i =>
    refine ⟨fun h => eq_nil_of_stampAll (fun message hm => hfresh message (List.mem_of_mem_take hm))
      fun message hm => dbId_of_metadata (h _ (hmem message (List.mem_of_mem_take hm))), ?_⟩
    intro h r _
    rw [objectsAt, show messages.take i = [] from h]
    rfl
  | row i =>
    have hnone : (∀ r < created, ((objectsAt codec objects messages (.row i)) r).metadata =
        (objects r).metadata) → messages.take i = [] := by
      intro h
      refine @eq_nil_of_stampAll codec _ _
        (fun message hm => hfresh message (List.mem_of_mem_take hm)) fun message hm => ?_
      have hsame := dbId_of_metadata (h _ (hmem message (List.mem_of_mem_take hm)))
      cases hrow : messages[i]? with
      | some message' => rwa [objectsAt_row hrow, dbId_annotate] at hsame
      | none => rwa [objectsAt_row_of_none hrow] at hsame
    constructor
    · intro h
      have hnil := hnone h
      refine ⟨hnil, fun message hmessage => ?_⟩
      have hsame := h message.1 (hmem message (List.mem_of_getElem? hmessage))
      rw [objectsAt_row hmessage, hnil, annotate, Function.update_self] at hsame
      exact hsame.symm
    · rintro ⟨hnil, hsame⟩ r _
      cases hrow : messages[i]? with
      | none =>
        rw [objectsAt_row_of_none hrow, hnil]
        rfl
      | some message =>
        rw [objectsAt_row hrow, hnil]
        by_cases hr : r = message.1
        · subst hr
          rw [annotate, Function.update_self]
          exact (hsame message hrow).symm
        · rw [annotate, Function.update_of_ne hr]
          rfl
  | commit =>
    refine ⟨fun h => eq_nil_of_stampAll hfresh
      fun message hm => dbId_of_metadata (h _ (hmem message hm)), ?_⟩
    intro h r _
    rw [objectsAt, show messages = [] from h]
    rfl

theorem spares_congr (h : ∀ message ∈ messages, objects' message.1 = objects message.1)
    (point : Point) : Spares codec objects' messages point ↔ Spares codec objects messages point := by
  cases point with
  | row i =>
    refine and_congr_right fun _ => forall_congr' fun message => forall_congr' fun hmessage => ?_
    rw [h message (List.mem_of_getElem? hmessage)]
  | _ => exact Iff.rfl

/-! ## Reading the session -/

/-- What `get_session` makes of a session that has a row. -/
theorem getSession_of_row {dbSession : DbSession} (h : s.dbSession = some dbSession)
    (accessed : Option ℕ) : ∃ s₁, getSession codec accessed s = some s₁ ∧
      s₁.dbSession = some { dbSession with
        lastAccessed := accessed.getD dbSession.lastAccessed } ∧
      s₁.messages = s.messages ∧ (∀ r < s.created, s₁.objects r = s.objects r) ∧
      (s₁.session.map Session.history = s.session.map Session.history ↔ Hydrated s) := by
  rw [getSession, h]
  refine ⟨_, rfl, rfl, ?_, ?_, ?_⟩
  · dsimp only
    split <;> rfl
  · intro r hr
    dsimp only
    split
    · rw [loadSessionFromDb]
      dsimp only
      rw [if_neg (by omega)]
    · rfl
  · dsimp only
    split
    · rename_i hloads
      cases hsession : s.session with
      | none =>
        refine iff_of_false (fun h => by cases h) fun h => ?_
        obtain ⟨session, hsome, -⟩ := h
        rw [hsession] at hsome
        cases hsome
      | some session =>
        simp only [State.loads, hsession, Bool.and_eq_true, List.isEmpty_iff,
          decide_eq_true_eq] at hloads
        have hlength : (orderedBy (fun e : String × DbMessage => e.2.timestamp)
            s.messages.items).length = s.messages.items.length :=
          (perm_orderedBy _ _).length_eq
        simp only [loadSessionFromDb, Option.map_some, hloads.1, hlength, Option.some.injEq,
          List.range'_eq_nil_iff, List.length_eq_zero_iff]
        constructor
        · exact fun hnone => ⟨session, hsession, .inr (.inr hnone)⟩
        · rintro ⟨session', hsome, hsession'⟩
          obtain rfl := Option.some.inj (hsession.symm.trans hsome)
          exact (hsession'.resolve_left fun h => h hloads.1).resolve_left fun h => by omega
    · rename_i hloads
      cases hsession : s.session with
      | none =>
        rw [State.loads, hsession] at hloads
        exact absurd rfl hloads
      | some session =>
        refine iff_of_true rfl ⟨session, hsession, ?_⟩
        simp only [State.loads, hsession] at hloads
        by_cases hempty : session.history = []
        · rw [hempty] at hloads
          exact .inr (.inl (by simpa using hloads))
        · exact .inl hempty

/-! ## A call that fails -/

/-- A call that fails leaves everything as it was exactly where the history was in memory and no
message had been given any metadata yet. -/
theorem atomic_iff (codec : Codec) {messages : List (ℕ × String)} {s : State}
    (hmem : ∀ message ∈ messages, message.1 < s.created)
    (hfresh : ∀ message ∈ messages, (s.objects message.1).dbId ≠ some (.str message.2))
    (now : ℕ) (accessed : Option ℕ) (raises : Option Point) :
    Atomic codec messages now accessed raises s ↔
      ∀ point ∈ failsAt messages raises, s.dbSession.isSome = true →
        Hydrated s ∧ Spares codec s.objects messages point := by
  cases hrow : s.dbSession with
  | none =>
    refine iff_of_true (fun hfailed => ?_) fun _ _ h => by cases h
    rw [replaceMessages, getSession, hrow] at hfailed
    dsimp only at hfailed
    split at hfailed
    · cases hfailed
    · rename_i s₁ hs₁
      split at hs₁
      · cases hs₁
      · obtain rfl := Option.some.inj hs₁
        rw [hrow] at hfailed
        cases hfailed
  | some dbSession =>
    obtain ⟨s₁, hget, hdb, hmessages, hobjects, hhistory⟩ :=
      @getSession_of_row codec s dbSession hrow accessed
    -- what the call comes to where the transaction raises, and where it does not
    have hfails : ∀ point ∈ failsAt messages raises,
        replaceMessages codec messages now accessed raises s =
          ({ s₁ with objects := objectsAt codec s₁.objects messages point }, .failed) := by
      intro point hpoint
      rw [replaceMessages, hget]
      dsimp only
      rw [hdb]
      cases raises with
      | some point' =>
        obtain rfl := Option.some.inj hpoint
        rfl
      | none =>
        simp only [failsAt, Option.mem_def] at hpoint
        split at hpoint
        · cases hpoint
        · rename_i hdistinct
          obtain rfl := Option.some.inj hpoint
          simp only [hdistinct, dif_neg, not_false_eq_true]
    have hpasses : failsAt messages raises = none →
        (replaceMessages codec messages now accessed raises s).2 = .replaced := by
      intro hnone
      rw [replaceMessages, hget]
      dsimp only
      rw [hdb]
      cases raises with
      | some point' => cases hnone
      | none =>
        simp only [failsAt] at hnone
        split at hnone
        · rename_i hdistinct
          simp only [hdistinct, dif_pos]
        · cases hnone
    cases hpoint : failsAt messages raises with
    | none =>
      refine iff_of_true (fun hfailed => ?_) fun _ h => by cases h
      rw [hpasses hpoint] at hfailed
      cases hfailed
    | some point =>
      rw [Atomic, hfails point hpoint]
      have hmetadata := @metadata_objectsAt_iff codec s₁.objects messages s.created hmem
        (fun message hm => by
          rw [hobjects _ (hmem message hm)]
          exact hfresh message hm) point
      rw [spares_congr fun message hm => hobjects _ (hmem message hm)] at hmetadata
      constructor
      · intro h point' hpoint' _
        obtain rfl := Option.some.inj hpoint'
        have hunchanged := h rfl
        refine ⟨hhistory.mp hunchanged.history, hmetadata.mp fun r hr => ?_⟩
        rw [hobjects r hr]
        exact hunchanged.metadata r hr
      · intro h _
        obtain ⟨hhydrated, hspares⟩ := h point rfl rfl
        refine ⟨hhistory.mpr hhydrated, fun r hr => ?_, hmessages, ?_⟩
        · rw [← hobjects r hr]
          exact hmetadata.mpr hspares r hr
        · show s₁.dbSession.map _ = s.dbSession.map _
          rw [hdb, hrow]
          rfl

/-! ## A history that is compacted -/

/-- No cues, and texts that are kept as they are. -/
def plainCodec : Codec where
  soundCues := fun _ _ => []
  persistableMessageContent := fun content _ =>
    match content with
    | .str text => text
    | _ => ""
  dumps := fun _ => "metadata"
  loads := fun _ => []
  parseMsgContent := .str
  messageTimestampIso := fun _ => "time"

/-- One message in the history, whose row is there, and a summary that is not in it. -/
def someState : State where
  objects := fun r =>
    if r = 0 then ⟨"user", .str "hello", some [("_db_id", .str "old")]⟩
    else ⟨"system", .str "summary", some [("compacted", .bool true)]⟩
  created := 2
  session := some ⟨[0], 1⟩
  messages := Dict.empty.set "old" ⟨"user", "hello", none, 0⟩
  dbSession := some ⟨1, 0, 0, some 0⟩

/-- The summary in front of the message. -/
def compacted : List (ℕ × String) := [(1, "new"), (0, "newer")]

theorem atomic_compacted : (∀ message ∈ compacted, message.1 < someState.created) ∧
    (Atomic plainCodec compacted 1 none (some .before) someState ↔
      ∀ point ∈ failsAt compacted (some .before), someState.dbSession.isSome = true →
        Hydrated someState ∧ Spares plainCodec someState.objects compacted point) := by
  have hfresh : ∀ message ∈ compacted,
      (someState.objects message.1).dbId ≠ some (.str message.2) := by
    simp [compacted, someState, ChatMessage.dbId, Object.get?]
  exact ⟨by decide, atomic_iff plainCodec (by decide) hfresh 1 none (some .before)⟩

/-- The commit fails, and the message of the history has an id that no row has. -/
theorem not_atomic_commit :
    ¬ Atomic plainCodec compacted 1 none (some .commit) someState := by
  intro h
  have hsame := (h rfl).metadata 0 (by decide)
  have hdb := dbId_of_metadata hsame
  simp [ChatMessage.dbId, replaceMessages, getSession, someState, State.loads, objectsAt, stampAll,
    compacted, stamp, messageMetadata, pop, Object.set, Object.get?, Function.update] at hdb

end Pandamonium.MessageReplacement
