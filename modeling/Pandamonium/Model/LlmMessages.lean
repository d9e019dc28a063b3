import Pandamonium.Library.Regex
import Pandamonium.Model.Value

/-!
# Messages for a provider

`_sanitize_llm_messages` drops what is not a message, pairs each tool call with its answers, and
merges neighbouring messages of the user; the callers then put all system messages first, as one.
A content is a text, or a list of blocks.  What is not looked at is of any type.
-/

set_option autoImplicit false

namespace Pandamonium.LlmMessages

open Pandamonium.Library

inductive Block (β : Type)
  | text (text : String)
  /-- A block of another type. -/
  | other (value : β)
  deriving DecidableEq, Repr

inductive Content (β : Type)
  | text (text : String)
  | blocks (items : List (Block β))
  deriving DecidableEq, Repr

structure ToolCall (β : Type) where
  id : Option String
  body : β
  deriving DecidableEq, Repr

/-- A message; a key whose value is `None` is one that is not there. -/
structure Message (β : Type) where
  role : String
  content : Option (Content β)
  /-- `none` is for what is not a dictionary. -/
  toolCalls : List (Option (ToolCall β))
  toolCallId : Option String
  /-- The other keys. -/
  extras : List (String × β)
  deriving DecidableEq, Repr

inductive PyError
  | attributeError | typeError
  deriving DecidableEq, Repr

variable {β : Type}

def Message.isTool (m : Message β) : Bool := decide (m.role = "tool")

def Message.isUser (m : Message β) : Bool := decide (m.role = "user")

def Message.isSystem (m : Message β) : Bool := decide (m.role = "system")

def Message.isAssistant (m : Message β) : Bool := decide (m.role = "assistant")

/-- It is the assistant's and has tool calls. -/
def Message.callsTools (m : Message β) : Bool := m.isAssistant && !m.toolCalls.isEmpty

/-- A message with a role and a text. -/
def Message.plain (role text : String) : Message β := ⟨role, some (.text text), [], none, []⟩

/-! ## What is sent at all -/

/-- `allowed`, without the keys that are fields. -/
def allowed : List String := ["name", "function_call", "reasoning_content"]

/-- The message goes on to the repair. -/
def Message.isKept (m : Message β) : Bool :=
  if m.role = "" then false
  else if m.isAssistant then m.content.isSome || !m.toolCalls.isEmpty
  else if m.isTool then m.content.isSome && m.toolCallId.isSome
  else m.content.isSome

/-- `cleaned`; what is not a dictionary is `none`. -/
def cleaned (messages : List (Option (Message β))) : List (Message β) :=
  ((messages.filterMap id).filter Message.isKept).map fun m =>
    { m with extras := m.extras.filter fun extra => decide (extra.1 ∈ allowed) }

/-! ## Calls and their answers -/

/-- `call_ids` -/
def Message.callIds (m : Message β) : List String :=
  m.toolCalls.filterMap fun tc => tc.bind fun call => call.id.filter fun id => decide (id ≠ "")

/-- `str(tool_call_id or "")` -/
def Message.answeredId (m : Message β) : String := m.toolCallId.getD ""

/-- `tool_batch`: the tool messages that answer an id, the first one for each. -/
def toolBatch (expected : List String) : List String → List (Message β) → List (Message β)
  | _, [] => []
  | answeredIds, m :: rest =>
    if m.answeredId ∈ expected ∧ m.answeredId ∉ answeredIds then
      m :: toolBatch expected (m.answeredId :: answeredIds) rest
    else toolBatch expected answeredIds rest

/-- The answers of a message among those that come after it. -/
def Message.answers (m : Message β) (rest : List (Message β)) : List (Message β) :=
  toolBatch m.callIds [] (rest.takeWhile Message.isTool)

/-- `(content or "").strip()`, for which a list has no method. -/
def stripped : Option (Content β) → Except PyError String
  | none => .ok ""
  | some (.text text) => .ok (strip text)
  | some (.blocks []) => .ok ""
  | some (.blocks (_ :: _)) => .error .attributeError

/-- The call is one of the ids, as `str` writes what it has for an id. -/
def isAnswered (ids : List String) : Option (ToolCall β) → Bool
  | none => false
  | some call => decide (call.id.getD "None" ∈ ids)

/-- `pruned_calls` -/
def Message.pruned (m : Message β) (batch : List (Message β)) : Message β :=
  { m with toolCalls := m.toolCalls.filter (isAnswered (batch.map Message.answeredId)) }

/-- `repaired` -/
def repaired : List (Message β) → Except PyError (List (Message β))
  | [] => .ok []
  | m :: rest =>
    if m.isTool then repaired rest
    else if m.callsTools then
      -- the tool messages behind it that are not taken are passed over like orphans
      let batch := m.answers rest
      if batch.isEmpty then do
        let text ← stripped m.content
        let others ← repaired rest
        pure (if text ≠ "" then { m with toolCalls := [] } :: others else others)
      else do
        let others ← repaired rest
        pure (m.pruned batch :: (batch ++ others))
    else do
      let others ← repaired rest
      pure (m :: others)

/-! ## Neighbouring messages of the user -/

/-- `_is_untrusted_context_content`, of a text -/
def isUntrustedText (text : String) : Bool :=
  "UNTRUSTED SOURCE DATA\n".toList.isPrefixOf text.toList ||
    (Regex.lit "<<<UNTRUSTED_SOURCE_DATA>>>").search text

/-- `_is_untrusted_context_content` -/
def isUntrustedContextContent : Option (Content β) → Bool
  | none => false
  | some (.text text) => isUntrustedText text
  | some (.blocks items) => items.any fun
    | .text text => isUntrustedText text
    | .other _ => false

/-- `_REFERENCE_CONTEXT_BOUNDARY` -/
def referenceContextBoundary : String := "Reference context received."

/-- `_as_content_blocks` -/
def asContentBlocks : Option (Content β) → List (Block β)
  | none => []
  | some (.text text) => if text = "" then [] else [.text text]
  | some (.blocks items) => items

/-- `"\n\n".join(parts)` -/
def joined : List String → String
  | [] => ""
  | [part] => part
  | part :: part' :: parts => part ++ "\n\n" ++ joined (part' :: parts)

def Content.isList : Content β → Bool
  | .text _ => false
  | .blocks _ => true

/-- `str(content) if content is not None else ""`, of a content that is not a list -/
def contentText : Option (Content β) → String
  | some (.text text) => text
  | _ => ""

/-- The content of two messages that are merged. -/
def mergedContent (last item : Option (Content β)) : Option (Content β) :=
  if last.any Content.isList || item.any Content.isList then
    match asContentBlocks last ++ asContentBlocks item with
    | [] => none
    | blocks => some (.blocks blocks)
  else
    let text := joined ([contentText last, contentText item].filter fun part => decide (part ≠ ""))
    if text = "" then none else some (.text text)

/-- The messages after the last one that was put in `merged`. -/
def mergeInto (last : Message β) : List (Message β) → List (Message β)
  | [] => [last]
  | item :: rest =>
    if last.isUser && item.isUser then
      if isUntrustedContextContent last.content then
        last :: .plain "assistant" referenceContextBoundary :: mergeInto item rest
      else mergeInto { last with content := mergedContent last.content item.content } rest
    else last :: mergeInto item rest

/-- `merged` -/
def merged : List (Message β) → List (Message β)
  | [] => []
  | item :: rest => mergeInto item rest

/-- `_sanitize_llm_messages` -/
def sanitizeLlmMessages (messages : List (Option (Message β))) :
    Except PyError (List (Message β)) := do
  let repaired ← repaired (cleaned messages)
  pure (merged repaired)

/-! ## The system message -/

/-- `m.get("content") or ""`, as a part of a text that is joined -/
def systemPart (m : Message β) : Except PyError String :=
  match m.content with
  | none => .ok ""
  | some (.text text) => .ok text
  | some (.blocks []) => .ok ""
  | some (.blocks (_ :: _)) => .error .typeError

/-- The consolidation in `llm_call`, `llm_call_async` and `stream_llm`. -/
def consolidated (messages : List (Message β)) : Except PyError (List (Message β)) := do
  let sysParts ← (messages.filter Message.isSystem).mapM systemPart
  let nonSys := messages.filter fun m => !m.isSystem
  pure (if sysParts.isEmpty then nonSys else .plain "system" (joined sysParts) :: nonSys)

/-- What is sent to the provider. -/
def prepared (messages : List (Option (Message β))) : Except PyError (List (Message β)) := do
  let messages ← sanitizeLlmMessages messages
  consolidated messages

end Pandamonium.LlmMessages
