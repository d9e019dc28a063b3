import Pandamonium.Model.HistoryRoutes

/-!
# The messages of a session and their table

The session manager keeps the messages of a session in memory and in a table, with their number in
the row of the session.  A message in memory is an object, which a caller may have in another list as
well, and its database id is given to the object.  Each write may fail, and is then rolled back and
reported in a log.
-/

set_option autoImplicit false

namespace Pandamonium.SessionMessages

open Pandamonium.Library Pandamonium.History

/-- A `ChatMessage`, with the `_db_id` of its metadata. -/
structure ChatMessage where
  role : String
  content : String
  dbId : Option String
  deriving DecidableEq, Repr

/-- A row of `chat_messages`, without its id. -/
structure DbMessage where
  role : String
  content : String
  timestamp : ℕ
  deriving DecidableEq, Repr

/-- A session, and the objects that there are; those from `created` on are not in use. -/
structure State where
  objects : ℕ → ChatMessage
  created : ℕ
  /-- `session.history` -/
  history : List ℕ
  /-- `session.message_count` -/
  cachedCount : ℕ
  rows : Dict String DbMessage
  /-- `message_count` in the row of the session -/
  messageCount : ℕ

/-- `.order_by(DbChatMessage.timestamp)` -/
def State.inOrder (s : State) : List (String × DbMessage) :=
  orderedBy (fun e => e.2.timestamp) s.rows.items

/-- `_load_session_from_db`: each row becomes a new object. -/
def loadSessionFromDb (s : State) : State :=
  let rows := s.rows.items
  { s with
    objects := fun r =>
      match if s.created ≤ r then rows[r - s.created]? else none with
      | some e => ⟨e.2.role, e.2.content, some e.1⟩
      | none => s.objects r
    created := s.created + rows.length
    history := List.range' s.created rows.length
    cachedCount := s.messageCount }

/-- `get_session`, which fills a history that is empty, and refreshes the count. -/
def getSession (s : State) : State :=
  let s := if s.history.isEmpty ∧ 0 < s.cachedCount then loadSessionFromDb s else s
  { s with cachedCount := s.messageCount }

/-- The object is given its database id. -/
def stamp (objects : ℕ → ChatMessage) (r : ℕ) (id : String) : ℕ → ChatMessage :=
  Function.update objects r { objects r with dbId := some id }

/-- The row for a message. -/
def ChatMessage.row (m : ChatMessage) (timestamp : ℕ) : DbMessage :=
  ⟨m.role, persistable m.content, timestamp⟩

/-- `_persist_message`; an id that is taken is an error as well. -/
def persistMessage (r : ℕ) (msgId : String) (msgTime : ℕ) (committed : Bool) (s : State) : State :=
  if committed ∧ s.rows.get? msgId = none then
    { s with
      rows := s.rows.set msgId ((s.objects r).row msgTime)
      messageCount := s.history.length
      objects := stamp s.objects r msgId }
  else s

/-- `add_message` -/
def addMessage (r : ℕ) (msgId : String) (msgTime : ℕ) (committed : Bool) (s : State) : State :=
  let s := getSession s
  persistMessage r msgId msgTime committed
    { s with history := s.history ++ [r], cachedCount := s.history.length + 1 }

/-- `truncate_messages` -/
def truncateMessages (keepCount : Int) (committed : Bool) (s : State) : State :=
  let s := getSession s
  if keepCount < 0 ∨ committed = false then s
  else
    { s with
      rows := ((s.inOrder.drop keepCount.toNat).map Prod.fst).foldl Dict.erase s.rows
      messageCount := min keepCount.toNat s.inOrder.length
      history := s.history.take keepCount.toNat }

/-- `delete_message` -/
def deleteMessage (messageId : String) (committed : Bool) (s : State) : State :=
  let s := getSession s
  if messageId = "" ∨ s.rows.get? messageId = none ∨ committed = false then s
  else
    let rows := s.rows.erase messageId
    let history := s.history.filter fun r => decide (((s.objects r).dbId.getD "") ≠ messageId)
    { s with rows, messageCount := rows.items.length, history, cachedCount := history.length }

/-- The objects after they were given their ids, one after the other. -/
def stampAll (objects : ℕ → ChatMessage) (messages : List (ℕ × String)) : ℕ → ChatMessage :=
  messages.foldl (fun objects message => stamp objects message.1 message.2) objects

/-- The rows of a list of messages, a microsecond apart. -/
def newRows (objects : ℕ → ChatMessage) : List (ℕ × String) → ℕ → List (String × DbMessage)
  | [], _ => []
  | (r, id) :: messages, now => (id, (objects r).row now) :: newRows objects messages (now + 1)

theorem keys_newRows (objects : ℕ → ChatMessage) (messages : List (ℕ × String)) (now : ℕ) :
    (newRows objects messages now).map Prod.fst = messages.map Prod.snd := by
  induction messages generalizing now with
  | nil => rfl
  | cons message messages ih => exact congrArg (message.2 :: ·) (ih (now + 1))

/-- `replace_messages`, with the ids that are made up for the messages.  It raises when so many
messages were given their ids, or commits; ids that are not different are an error as well. -/
def replaceMessages (messages : List (ℕ × String)) (now : ℕ) (raises : Option ℕ) (s : State) : State :=
  let s := getSession s
  match raises with
  | some n => { s with objects := stampAll s.objects (messages.take n) }
  | none =>
    if h : (messages.map Prod.snd).Nodup then
      { s with
        objects := stampAll s.objects messages
        rows := ⟨newRows s.objects messages now, (keys_newRows s.objects messages now).symm ▸ h⟩
        messageCount := messages.length
        history := messages.map Prod.fst
        cachedCount := messages.length }
    else { s with objects := stampAll s.objects messages }

inductive Label
  /-- A caller makes an object. -/
  | creates (m : ChatMessage)
  | addMessage (r : ℕ) (msgId : String) (msgTime : ℕ) (committed : Bool)
  | truncateMessages (keepCount : Int) (committed : Bool)
  | deleteMessage (messageId : String) (committed : Bool)
  | replaceMessages (messages : List (ℕ × String)) (now : ℕ) (raises : Option ℕ)

def step (s : State) : Label → Option State
  | .creates m =>
    some { s with objects := Function.update s.objects s.created m, created := s.created + 1 }
  | .addMessage r msgId msgTime committed =>
    if r < s.created then some (addMessage r msgId msgTime committed s) else none
  | .truncateMessages keepCount committed => some (truncateMessages keepCount committed s)
  | .deleteMessage messageId committed => some (deleteMessage messageId committed s)
  | .replaceMessages messages now raises =>
    if messages.all fun message => decide (message.1 < s.created) then
      some (replaceMessages messages now raises s)
    else none

/-- A session without messages. -/
def State.new : State := ⟨fun _ => ⟨"", "", none⟩, 0, [], 0, Dict.empty, 0⟩

def manager : TransitionSystem State Label where
  init := fun s => s = .new
  step := step

end Pandamonium.SessionMessages
