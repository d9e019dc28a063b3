import Pandamonium.Library.Dict
import Pandamonium.Library.StableOrder
import Pandamonium.Model.Value

/-!
# Replacing the messages of a session

`replace_messages` of `SessionManager`, with the metadata of the messages as a whole.  A message in
memory is an object that the history of the session and the list of a caller may share.  The rows
are written in one transaction, which can fail at each of its steps; on the way each message is
given its metadata and then its database id.
-/

set_option autoImplicit false

namespace Pandamonium.MessageReplacement

open Pandamonium.Library

/-- A `ChatMessage`; its database id is the `_db_id` of its metadata. -/
structure ChatMessage where
  role : String
  content : Value
  metadata : Option Object

/-- A row of `chat_messages`, without its id. -/
structure DbMessage where
  role : String
  content : String
  metaData : Option String
  timestamp : ℕ
  deriving DecidableEq, Repr

/-- The row of the session. -/
structure DbSession where
  messageCount : ℕ
  updatedAt : ℕ
  lastAccessed : ℕ
  lastMessageAt : Option ℕ
  deriving DecidableEq, Repr

/-- The session in memory. -/
structure Session where
  history : List ℕ
  messageCount : ℕ
  deriving DecidableEq, Repr

/-- The objects that there are, of which those from `created` on are not in use, the session in
memory, and the rows. -/
structure State where
  objects : ℕ → ChatMessage
  created : ℕ
  session : Option Session
  messages : Dict String DbMessage
  dbSession : Option DbSession

/-- What a row is written with and read with: the cues of a text under the id of its message, the
content that is kept, and the texts of metadata, contents and times. -/
structure Codec where
  soundCues : String → String → List Value
  persistableMessageContent : Value → Object → String
  dumps : Object → String
  loads : String → Object
  parseMsgContent : String → Value
  messageTimestampIso : ℕ → String

/-- `d.pop(key, None)` -/
def pop (d : Object) (key : String) : Object := d.filter fun item => item.1 ≠ key

variable (codec : Codec)

/-! ## Reading -/

/-- A message that is read from its row. -/
def DbMessage.read (id : String) (row : DbMessage) : ChatMessage :=
  let metadata := Object.set ((row.metaData.map codec.loads).getD []) "_db_id" (.str id)
  { role := row.role
    content := codec.parseMsgContent row.content
    metadata := some (if (metadata.get? "timestamp").isSome then metadata
      else metadata.set "timestamp" (.str (codec.messageTimestampIso row.timestamp))) }

/-- `_load_session_from_db`, of a session that has a row: each row of a message becomes a new
object. -/
def loadSessionFromDb (dbSession : DbSession) (s : State) : State :=
  let rows := orderedBy (fun e => e.2.timestamp) s.messages.items
  { s with
    objects := fun r =>
      match if s.created ≤ r then rows[r - s.created]? else none with
      | some e => e.2.read codec e.1
      | none => s.objects r
    created := s.created + rows.length
    session := some ⟨List.range' s.created rows.length, dbSession.messageCount⟩ }

/-- Whether `get_session` reads the messages from their rows. -/
def State.loads (s : State) : Bool :=
  match s.session with
  | none => true
  | some session => session.history.isEmpty && decide (0 < session.messageCount)

/-- `get_session`, with the time at which the access is noted, where that succeeds; `none` where it
raises. -/
def getSession (accessed : Option ℕ) (s : State) : Option State :=
  match s.dbSession with
  | none => if s.loads then none else some s
  | some dbSession =>
    let s := if s.loads then loadSessionFromDb codec dbSession s else s
    some { s with
      session := s.session.map fun session =>
        { session with messageCount := dbSession.messageCount }
      dbSession := some { dbSession with lastAccessed := accessed.getD dbSession.lastAccessed } }

/-! ## Writing -/

/-- `message_metadata` -/
def messageMetadata (m : ChatMessage) (messageId : String) : Object :=
  let result := pop (m.metadata.getD []) "sound_cues"
  match m.role, m.content with
  | "assistant", .str text =>
    match codec.soundCues text messageId with
    | [] => result
    | cues => result.set "sound_cues" (.list cues)
  | _, _ => result

/-- The object with the metadata that its row is made of. -/
def annotate (objects : ℕ → ChatMessage) (r : ℕ) (messageId : String) : ℕ → ChatMessage :=
  Function.update objects r
    { objects r with metadata := some (messageMetadata codec (objects r) messageId) }

/-- The object with its database id as well. -/
def stamp (objects : ℕ → ChatMessage) (r : ℕ) (messageId : String) : ℕ → ChatMessage :=
  Function.update objects r
    { objects r with
      metadata := some ((messageMetadata codec (objects r) messageId).set "_db_id"
        (.str messageId)) }

/-- The objects after they were given their ids, one after the other. -/
def stampAll (objects : ℕ → ChatMessage) (messages : List (ℕ × String)) : ℕ → ChatMessage :=
  messages.foldl (fun objects message => stamp codec objects message.1 message.2) objects

/-- The row of a message that has its metadata. -/
def ChatMessage.row (m : ChatMessage) (metadata : Object) (timestamp : ℕ) : DbMessage where
  role := m.role
  content := codec.persistableMessageContent m.content metadata
  metaData := if metadata.isEmpty then none else some (codec.dumps metadata)
  timestamp

/-- The rows of a list of messages, a microsecond apart. -/
def newRows (objects : ℕ → ChatMessage) : List (ℕ × String) → ℕ → List (String × DbMessage)
  | [], _ => []
  | (r, id) :: messages, now =>
    (id, (objects r).row codec (messageMetadata codec (objects r) id) now) ::
      newRows (stamp codec objects r id) messages (now + 1)

theorem keys_newRows (objects : ℕ → ChatMessage) (messages : List (ℕ × String)) (now : ℕ) :
    (newRows codec objects messages now).map Prod.fst = messages.map Prod.snd := by
  induction messages generalizing objects now with
  | nil => rfl
  | cons message messages ih => exact congrArg (message.2 :: ·) (ih _ (now + 1))

/-- Where the transaction raises. -/
inductive Point
  /-- Before the first message is looked at again: the query, a reservation or the deletion. -/
  | before
  /-- When the metadata of a message is made. -/
  | metadata (i : ℕ)
  /-- When the row of a message is made, which then has its metadata. -/
  | row (i : ℕ)
  | commit
  deriving DecidableEq, Repr

/-- The objects as they are when it raises. -/
def objectsAt (objects : ℕ → ChatMessage) (messages : List (ℕ × String)) :
    Point → ℕ → ChatMessage
  | .before => objects
  | .metadata i => stampAll codec objects (messages.take i)
  | .row i =>
    match messages[i]? with
    | some message => annotate codec (stampAll codec objects (messages.take i)) message.1 message.2
    | none => stampAll codec objects (messages.take i)
  | .commit => stampAll codec objects messages

inductive Outcome
  /-- `get_session` has raised. -/
  | keyError
  /-- The session has no row. -/
  | missing
  /-- The transaction was rolled back. -/
  | failed
  | replaced
  deriving DecidableEq, Repr

/-- `replace_messages`, with the ids that are made up for the messages and the point where the
transaction raises; ids that are not different make the commit raise. -/
def replaceMessages (messages : List (ℕ × String)) (now : ℕ) (accessed : Option ℕ)
    (raises : Option Point) (s : State) : State × Outcome :=
  match getSession codec accessed s with
  | none => (s, .keyError)
  | some s =>
    match s.dbSession with
    | none => (s, .missing)
    | some _ =>
      match raises with
      | some point => ({ s with objects := objectsAt codec s.objects messages point }, .failed)
      | none =>
        if h : (messages.map Prod.snd).Nodup then
          ({ s with
              objects := stampAll codec s.objects messages
              messages := ⟨newRows codec s.objects messages now,
                (keys_newRows codec s.objects messages now).symm ▸ h⟩
              dbSession := some ⟨messages.length, now, now, some now⟩
              session := some ⟨messages.map Prod.fst, messages.length⟩ }, .replaced)
        else ({ s with objects := objectsAt codec s.objects messages .commit }, .failed)

end Pandamonium.MessageReplacement
