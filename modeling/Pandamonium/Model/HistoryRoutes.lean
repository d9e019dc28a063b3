import Pandamonium.Library.Dict
import Pandamonium.Library.Regex
import Pandamonium.Library.StableOrder
import Pandamonium.Library.TransitionSystem
import Pandamonium.Model.Value

/-!
# The history of a session and its rows

A session keeps its messages in memory and as rows of a table.  A message in memory names its row by
the `_db_id` in its metadata; the order of the rows is that of their timestamps.  Each route changes
both copies, and finds what it changes in each of them in its own way: by id, by index, by being the
last of the assistant's messages, or by being among the last four.
-/

set_option autoImplicit false

namespace Pandamonium.History

open Pandamonium.Library

abbrev Metadata := Dict String Value

/-- A `ChatMessage` in memory. -/
structure Message where
  role : String
  content : String
  metadata : Option Metadata

/-- A row of `chat_messages`, without its id. -/
structure Row where
  role : String
  content : String
  metadata : Option Metadata
  timestamp : ℕ

/-- The rows are in the order they were inserted in. -/
structure Session where
  history : List Message
  rows : Dict String Row

/-- `.order_by(DbChatMessage.timestamp)` -/
def Session.inOrder (s : Session) : List (String × Row) :=
  orderedBy (fun e => e.2.timestamp) s.rows.items

/-- `meta.get("_db_id")` -/
def Message.dbId (m : Message) : Option Value :=
  m.metadata.bind fun metaData => metaData.get? "_db_id"

def Message.hasId (id : String) (m : Message) : Bool :=
  match m.dbId with
  | some (.str id') => decide (id' = id)
  | _ => false

/-- `meta.update(other)` -/
def updated (metaData other : Metadata) : Metadata :=
  other.items.foldl (fun metaData item => metaData.set item.1 item.2) metaData

/-- `_db_to_session`: the rows as messages in memory. -/
def loaded (rows : Dict String Row) : Session where
  history := (orderedBy (fun e => e.2.timestamp) rows.items).map fun e =>
    ⟨e.2.role, e.2.content, some ((e.2.metadata.getD Dict.empty).set "_db_id" (.str e.1))⟩
  rows := rows

/-! ## Adding a message -/

/-- A text whatever the case of its letters; `re.IGNORECASE` also takes a long s for an s. -/
def anyCase (text : String) : Regex :=
  text.toList.foldr
    (fun x r => .seq (.char fun y => y.toLower == x || (x == 's' && y.toNat == 0x17f)) r) .epsilon

/-- `[A-Za-z0-9+/=]`, whatever the case. -/
def base64Char (x : Char) : Bool :=
  x.isAlphanum || decide (x ∈ ['+', '/', '=']) ||
    decide (x.toNat ∈ [0x130, 0x131, 0x17f, 0x212a])

/-- `DATA_URL_RE` -/
def dataUrl : Regex :=
  .sequence [anyCase "data:",
    .plus (.char fun x => !(isSpace x || decide (x ∈ [';', ',', '"', '\'']))),
    anyCase ";base64,", .plus (.char base64Char)]

/-- `persistable_message_content`, of a text. -/
def persistable (content : String) : String :=
  if (Regex.lit ";base64,").search content then
    dataUrl.sub "[inline media omitted from persisted history]" content
  else content

/-- A message that is added, with the id and the time that its row gets. -/
structure NewMessage where
  id : String
  now : ℕ
  role : String
  content : String
  metadata : Option Metadata

/-- `session_manager.add_message`.  Where the row cannot be inserted the message stays. -/
def NewMessage.addTo (m : NewMessage) (s : Session) : Session :=
  let metaData := m.metadata.getD Dict.empty
  if (s.rows.get? m.id).isSome then
    { s with history := s.history ++ [⟨m.role, m.content, some metaData⟩] }
  else
    { history := s.history ++ [⟨m.role, m.content, some (metaData.set "_db_id" (.str m.id))⟩]
      rows := s.rows.set m.id ⟨m.role, persistable m.content, some metaData, m.now⟩ }

/-- `add_message` -/
def addMessage (m : NewMessage) (s : Session) : Session :=
  if m.content = "" then s else m.addTo s

/-! ## Editing and deleting -/

def markedEdited (metaData : Option Metadata) : Option Metadata :=
  some ((metaData.getD Dict.empty).set "edited" (.bool true))

def Row.edited (content : String) (row : Row) : Row :=
  { row with content, metadata := markedEdited row.metadata }

/-- The first message that has the id is edited. -/
def editFirst (msgId content : String) : List Message → List Message
  | [] => []
  | m :: history =>
    if m.hasId msgId then
      { m with content, metadata := markedEdited m.metadata } :: history
    else m :: editFirst msgId content history

/-- `edit_message` -/
def editMessage (msgId content : String) (s : Session) : Session :=
  match s.rows.get? msgId with
  | none => s
  | some row =>
    { history := editFirst msgId content s.history
      rows := s.rows.set msgId (row.edited content) }

/-- `delete_messages` by ids -/
def deleteIds (msgIds : List String) (s : Session) : Session where
  history := s.history.filter fun m => !msgIds.any fun id => m.hasId id
  rows := msgIds.foldl Dict.erase s.rows

/-- One index of `delete_messages`, where `ids` are those of the rows before. -/
def deleteAt (ids : List String) (s : Session) (idx : Int) : Session :=
  if 0 ≤ idx then
    { history := if idx < s.history.length then s.history.eraseIdx idx.toNat else s.history
      rows :=
        match ids[idx.toNat]? with
        | some id => s.rows.erase id
        | none => s.rows }
  else s

/-- `delete_messages` by indices -/
def deleteIndices (indices : List Int) (s : Session) : Session :=
  (indices.insertionSort fun i j => j ≤ i).foldl (deleteAt (s.inOrder.map Prod.fst)) s

/-- `delete_messages` -/
def deleteMessages (msgIds : List String) (indices : List Int) (s : Session) : Session :=
  if msgIds ≠ [] then deleteIds msgIds s
  else if indices ≠ [] then deleteIndices indices s
  else s

/-! ## The assistant's last messages -/

/-- The indices of what has a property. -/
def indicesOf {α : Type} (p : α → Bool) (l : List α) : List ℕ :=
  (l.zipIdx.filter fun e => p e.1).map Prod.snd

/-- `indices[-2], indices[-1]` -/
def lastTwo {α : Type} (l : List α) : Option (α × α) :=
  match l.reverse with
  | last :: first :: _ => some (first, last)
  | _ => none

/-- The hidden message that asked to continue. -/
def continues (role content : String) : Bool :=
  decide (role = "user") && (Regex.lit "previous response was interrupted").search content

/-- What a merge leaves in memory, with the content and metadata of the merged message. -/
def mergeHistory (separator : String) (history : List Message) :
    Option (List Message × String × Metadata) := do
  let (idx1, idx2) ← lastTwo (indicesOf (fun m => decide (m.role = "assistant")) history)
  let msg1 ← history[idx1]?
  let msg2 ← history[idx2]?
  let content := msg1.content ++ separator ++ msg2.content
  let metaData := (updated (msg1.metadata.getD Dict.empty) (msg2.metadata.getD Dict.empty)).erase
    "stopped"
  let merged := (history.set idx1 { msg1 with content, metadata := some metaData }).eraseIdx idx2
  let between := history[idx2 - 1]?.any fun m => continues m.role m.content
  some (if idx1 < idx2 - 1 ∧ between then merged.eraseIdx (idx2 - 1) else merged, content, metaData)

/-- What a merge does to the rows: `_merge_continue_rows_to_delete`. -/
def mergeRows (content : String) (metaData : Metadata) (s : Session) :
    Option (Dict String Row) := do
  let rows := s.inOrder
  let (i1, i2) ← lastTwo (indicesOf (fun e => decide (e.2.role = "assistant")) rows)
  let (id1, db1) ← rows[i1]?
  let (id2, _) ← rows[i2]?
  let merged := (s.rows.set id1 { db1 with content, metadata := some metaData }).erase id2
  match rows[i2 - 1]? with
  | some (id, between) =>
    some (if i1 < i2 - 1 ∧ continues between.role between.content then merged.erase id else merged)
  | none => some merged

/-- `merge_last_assistant` -/
def mergeLastAssistant (separator : String) (s : Session) : Session :=
  match mergeHistory separator s.history with
  | none => s
  | some (history, content, metaData) =>
    { history, rows := (mergeRows content metaData s).getD s.rows }

def Row.withUpdate (metaUpdate : Metadata) (row : Row) : Row :=
  { row with metadata := some (updated (row.metadata.getD Dict.empty) metaUpdate) }

def Message.withUpdate (metaUpdate : Metadata) (m : Message) : Message :=
  { m with metadata := some (updated (m.metadata.getD Dict.empty) metaUpdate) }

/-- `update_last_meta` -/
def updateLastMeta (metaUpdate : Metadata) (s : Session) : Session where
  history :=
    match (indicesOf (fun m : Message => decide (m.role = "assistant")) s.history).getLast? with
    | none => s.history
    | some idx => s.history.modify idx fun m => m.withUpdate metaUpdate
  rows :=
    match (s.inOrder.filter fun e => decide (e.2.role = "assistant")).getLast? with
    | none => s.rows
    | some (id, row) => s.rows.set id (row.withUpdate metaUpdate)

/-! ## Requests -/

inductive Request
  | addMessage (m : NewMessage)
  | editMessage (msgId content : String)
  | deleteMessages (msgIds : List String) (indices : List Int)
  | mergeLastAssistant (separator : String)
  | updateLastMeta (metaUpdate : Metadata)

/-- What a request does; one that is refused does nothing. -/
def handle (s : Session) : Request → Session
  | .addMessage m => addMessage m s
  | .editMessage msgId content => if msgId = "" then s else editMessage msgId content s
  | .deleteMessages msgIds indices => deleteMessages msgIds indices s
  | .mergeLastAssistant separator => mergeLastAssistant separator s
  | .updateLastMeta metaUpdate => updateLastMeta metaUpdate s

/-- The requests on a session that begins as it is given. -/
def routes (init : Session → Prop) : TransitionSystem Session Request where
  init := init
  step := fun s request => some (handle s request)

/-! ## Compaction by hand -/

/-- `keep_count` -/
def keepCount : ℕ := 4

/-- What is chosen while a session is compacted: the summary, and the ids and the time of the two
rows that are inserted. -/
structure Compaction where
  summary : String
  systemId : String
  visibleId : String
  now : ℕ

/-- `session.history[:-keep_count]` -/
def older {α : Type} (l : List α) : List α := l.take (l.length - keepCount)

/-- `session.history[-keep_count:]` -/
def recent {α : Type} (l : List α) : List α := l.drop (l.length - keepCount)

/-- `system_summary`, which is hidden. -/
def Compaction.systemSummary (c : Compaction) (history : List Message) : Message where
  role := "system"
  content := "[Conversation summary — " ++ toString (older history).length ++
    " earlier messages were compacted]\n\n" ++ c.summary
  metadata := some ((Dict.empty.set "compacted" (.bool true)).set "hidden" (.bool true))

/-- `summary_msg` -/
def visibleSummary (history : List Message) : Message where
  role := "assistant"
  content := "**Conversation compacted** — " ++ toString (older history).length ++
    " messages summarized, " ++ toString (recent history).length ++ " kept."
  metadata := some ((Dict.empty.set "compacted" (.bool true)).set "messages_removed"
    (.int (older history).length))

/-- The row of a message that is inserted now. -/
def Message.rowAt (m : Message) (now : ℕ) : Row := ⟨m.role, m.content, m.metadata, now⟩

/-- The session after these messages came while the summary was awaited. -/
def arrive (arrivals : List NewMessage) (s : Session) : Session :=
  arrivals.foldl (fun s m => m.addTo s) s

/-- `compact_session`, with the messages that come while the summary is awaited. -/
def compactSession (c : Compaction) (arrivals : List NewMessage) (s : Session) : Session :=
  if s.history.length < 6 then arrive arrivals s
  else
    -- What is kept is chosen before the summary is awaited, and what is deleted after that.
    let dbMsgs := (arrive arrivals s).inOrder
    let kept := ((older dbMsgs).map Prod.fst).foldl Dict.erase (arrive arrivals s).rows
    let system := c.systemSummary s.history
    let visible := visibleSummary s.history
    { history := [system, visible] ++ recent s.history
      rows := (kept.set c.systemId (system.rowAt c.now)).set c.visibleId (visible.rowAt c.now) }

end Pandamonium.History
