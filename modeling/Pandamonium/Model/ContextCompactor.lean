import Mathlib.Algebra.Group.Nat.Even
import Mathlib.Algebra.Ring.Nat
import Pandamonium.Model.Value

/-!
# Trimming a conversation to a context window

`context_compactor.py` fits the messages of a turn into the model's input window:
`_apply_class_budgets` gives each context class a ceiling, `trim_for_context` then drops the
unprotected messages of the lowest priority until the rest fits, `_sanitize_tool_messages`
repairs what that did to the tool calls, and the messages left are shrunk.  The tags come
from `model_context.annotate_context_messages`, the ceilings from `context_budget.py`.

A message keeps the entries these functions read.  An annotated copy carries the position of
the message it is a copy of; no pass reads it but to name the message.  What
`trim_mcp_result` makes of a tool result is the parameter `project`.
-/

set_option autoImplicit false

namespace Pandamonium.ContextCompactor

/-! ## Messages -/

/-- One part of a multimodal content. -/
inductive Block
  | text (text : String)
  /-- A part of another type, such as an image. -/
  | other
  deriving DecidableEq, Repr

/-- `message["content"]` -/
inductive Content
  | none
  | text (text : String)
  | blocks (items : List Block)
  deriving DecidableEq, Repr

/-- The arguments of a tool call. -/
inductive Arguments
  | text (text : String)
  /-- Arguments that are no string of a `function` entry, as `str` prints them. -/
  | printed (text : String)
  deriving DecidableEq, Repr

structure ToolCall where
  id : String
  name : String
  arguments : Arguments
  deriving DecidableEq, Repr

/-- `metadata["jos_context"]`; the class is empty where the tag names none. -/
structure ContextTag where
  contextClass : String
  inferred : Bool
  deriving DecidableEq, Repr

structure Metadata where
  josContext : Option ContextTag
  source : String
  /-- `metadata.get("trusted") is False` -/
  untrusted : Bool
  researchSpinoffFrom : Bool
  compacted : Bool
  deriving DecidableEq, Repr

structure Message where
  role : String
  content : Content
  toolCalls : List ToolCall
  toolCallId : String
  metadata : Metadata
  /-- `message.get("_protected")` -/
  isProtected : Bool
  deriving DecidableEq, Repr

/-- A copy of the message at `position`. -/
structure Mounted extends Message where
  position : ℕ
  deriving DecidableEq, Repr

/-- `role == "assistant" and message.get("tool_calls")` -/
def Message.callsTools (m : Message) : Bool := m.role = "assistant" && !m.toolCalls.isEmpty

/-- `role == "tool"` -/
def Message.isTool (m : Message) : Bool := m.role = "tool"

/-! ## Token estimates -/

/-- `int(len(text) * 0.3)` -/
def textTokens (text : String) : ℕ := text.length * 3 / 10

def Arguments.asText : Arguments → String
  | .text s => s
  | .printed s => s

def Content.tokens : Content → ℕ
  | .none => 0
  | .text s => textTokens s
  | .blocks items => (items.map fun
    | .text s => textTokens s
    | .other => 0).sum

def ToolCall.tokens (call : ToolCall) : ℕ :=
  4 + (call.name.length + call.arguments.asText.length) * 3 / 10

/-- `estimate_tokens([message])` -/
def Message.tokens (m : Message) : ℕ :=
  4 + m.content.tokens + (m.toolCalls.map ToolCall.tokens).sum

/-- `estimate_tokens` -/
def estimateTokens (messages : List Mounted) : ℕ := (messages.map fun m => m.tokens).sum

/-! ## Truncation -/

/-- `int(n * 0.7)`: the product of the two doubles is rounded to 53 bits, ties to even. -/
def timesSevenTenths (n : ℕ) : ℕ :=
  let product := n * 6305039478318694
  let unit := 2 ^ (product.log2 - 52)
  let quotient := product / unit
  let rest := product % unit
  let rounded := if unit < 2 * rest ∨ (2 * rest = unit ∧ quotient % 2 = 1) then quotient + 1
    else quotient
  rounded * unit / 2 ^ 53

/-- `int(n / 0.3)` -/
def overThreeTenths (n : ℕ) : ℕ := n * 10 / 3

def omittedText : String :=
  "[Current user message omitted: it exceeded the model context window.]"

def pastedNotice : String :=
  "[Notice: the pasted message was too large for this model's context window, so Pandamonium " ++
    "kept the beginning and end.]"

def rstrip (cs : List Char) : List Char := (cs.reverse.dropWhile isSpace).reverse

def lstrip (cs : List Char) : List Char := cs.dropWhile isSpace

/-- `_truncate_text_to_token_budget` -/
def truncateTextToTokenBudget (text : String) (tokenBudget : ℕ) : String :=
  if tokenBudget ≤ 32 then omittedText
  else
    let maxChars := max 200 (overThreeTenths (tokenBudget - 16))
    if text.length ≤ maxChars then text
    else
      let notice := "\n\n" ++ pastedNotice
      let keepChars := max 200 (maxChars - notice.length)
      let headLen := max 100 (timesSevenTenths keepChars)
      let tailLen := max 80 (keepChars - headLen)
      String.ofList (rstrip (text.toList.take headLen)) ++ notice ++ "\n\n" ++
        String.ofList (lstrip (text.toList.drop (text.length - tailLen)))

/-- `_message_text_token_estimate` -/
def messageTextTokenEstimate (text : String) : ℕ := textTokens text + 4

/-- `_truncate_tool_call_args`, after the content has been truncated. -/
def truncateToolCallArgs (m : Message) (tokenBudget : ℕ) : Message :=
  let contentTokens := 4 + m.content.tokens
  let perCall := max 16 ((tokenBudget - contentTokens) / m.toolCalls.length)
  { m with
    toolCalls := m.toolCalls.map fun call =>
      match call.arguments with
      | .text text =>
        if perCall < textTokens text then
          { call with
            arguments := .text ("\x7b\"_truncated_for_context\": " ++ toString text.length ++ "\x7d") }
        else call
      | .printed _ => call }

/-- The loop over the parts of a multimodal content. -/
def truncateBlocks : ℕ → List Block → List Block
  | _, [] => []
  | remaining, .other :: items => .other :: truncateBlocks remaining items
  | remaining, .text text :: items =>
    let truncated := truncateTextToTokenBudget text remaining
    .text truncated :: truncateBlocks (remaining - messageTextTokenEstimate truncated) items

/-- `text.replace(old, new)`, on the characters of a text; `fuel` bounds its length. -/
def replaceChars (old new : List Char) : ℕ → List Char → List Char
  | 0, cs => cs
  | _, [] => []
  | fuel + 1, c :: cs =>
    if old.isPrefixOf (c :: cs) then new ++ replaceChars old new fuel ((c :: cs).drop old.length)
    else c :: replaceChars old new fuel cs

def replaceText (text old new : String) : String :=
  String.ofList (replaceChars old.toList new.toList text.length text.toList)

def sourceOmittedText : String := "[Context source omitted: it exceeded its attention budget.]"

def sourceNotice : String :=
  "[Notice: this context source exceeded its attention budget, so Pandamonium " ++
    "kept the beginning and end.]"

variable (project : String → ℕ → Option String)

/-- What becomes of the content in `_truncate_message_to_token_budget`. -/
def truncateContent (tokenBudget : ℕ) : Content → Content
  | .none => .none
  | .text s =>
    .text ((project s (overThreeTenths (tokenBudget - 16))).getD
      (truncateTextToTokenBudget s tokenBudget))
  | .blocks items => .blocks (truncateBlocks tokenBudget items)

/-- `_truncate_message_to_token_budget` -/
def truncateMessageToTokenBudget (m : Message) (tokenBudget : ℕ) : Message :=
  let m := { m with content := truncateContent project tokenBudget m.content }
  if m.toolCalls.isEmpty then m else truncateToolCallArgs m tokenBudget

/-- The notices of `_truncate_context_message`. -/
def noticeContent : Content → Content
  | .text s =>
    .text (replaceText (replaceText s omittedText sourceOmittedText) pastedNotice sourceNotice)
  | content => content

/-- `_truncate_context_message` -/
def truncateContextMessage (m : Mounted) (tokenBudget : ℕ) (notice : Bool) : Mounted :=
  let out := truncateMessageToTokenBudget project m.toMessage tokenBudget
  { m with
    toMessage := { out with content := if notice then noticeContent out.content else out.content } }

/-! ## Context classes -/

/-- `DEFAULT_CLASS_BUDGET_PERCENT` -/
def defaultClassBudgetPercent : List (String × ℕ) :=
  [("conversation", 45), ("working_state", 35), ("recalled_memory", 15),
    ("retrieved_knowledge", 25), ("derived_knowledge", 10), ("tool_catalog", 20),
    ("tool_result", 30), ("extension_state", 20), ("time", 5)]

/-- `context_class_budget_percent`, where `value` is what the setting gives for a name, and of
that what `int` makes of it. -/
def contextClassBudgetPercent (value : String → Option (Option ℤ)) : List (String × ℕ) :=
  defaultClassBudgetPercent.map fun (name, percent) =>
    let raw := if name = "extension_state" then (value name).or (value "oracle_state")
      else value name
    (name, match raw with
      | some (some p) => (max 1 (min p 100)).toNat
      | _ => percent)

/-- `_UNTRUSTED_SOURCE_CLASSES` -/
def untrustedSourceClasses : List (List String × String) :=
  [(["karpathywiki", "derived wiki"], "derived_knowledge"),
    (["saved memory"], "recalled_memory"),
    (["active editor", "active email", "uploaded files"], "working_state"),
    (["tool execution results", "tool result"], "tool_result"),
    (["mcp tools", "integrations", "skills", "available skills"], "tool_catalog"),
    (["extension.", "oracle"], "extension_state")]

/-- `text.startswith(start)` -/
def startsWith (text start : String) : Bool := start.toList.isPrefixOf text.toList

/-- The class `_context_tag` gives a message without a tag; `lower` is `str.lower`. -/
def inferredClass (lower : String → String) (m : Message) : String :=
  if m.metadata.untrusted then
    let source := lower (strip m.metadata.source)
    ((untrustedSourceClasses.find? fun (starts, _) => starts.any (startsWith source)).map
      Prod.snd).getD "retrieved_knowledge"
  else if m.metadata.researchSpinoffFrom then "retrieved_knowledge"
  else if m.metadata.compacted ||
      (match m.content with
        | .text text => startsWith text "[Conversation summary"
        | _ => false) then "conversation"
  else if m.role = "tool" then "tool_result"
  else if m.role = "system" then "identity_policy"
  else "conversation"

/-- Whether a message can be the operator's current turn. -/
def mayBeOperator (m : Message) : Bool :=
  m.role = "user" && !m.metadata.untrusted &&
    !(match m.metadata.josContext with
      | some tag => tag.contextClass ∈ ["time", "working_state", "retrieved_knowledge",
          "recalled_memory", "tool_catalog"]
      | none => false)

/-- The tag of the copy `annotate_context_messages` makes; `latest` says whether the message is
the last that can be the operator's. -/
def annotated (lower : String → String) (m : Message) (latest : Bool) : ContextTag :=
  match m.metadata.josContext with
  | some tag => tag
  | none =>
    let inferred := inferredClass lower m
    { contextClass := if latest && inferred = "conversation" then "operator_intent" else inferred
      inferred := true }

/-- `annotate_context_messages`, from the message at `position` on. -/
def annotateFrom (lower : String → String) : ℕ → List Message → List Mounted
  | _, [] => []
  | position, m :: rest =>
    let latest := mayBeOperator m && !rest.any mayBeOperator
    { m with
      metadata := { m.metadata with josContext := some (annotated lower m latest) }
      position := position } :: annotateFrom lower (position + 1) rest

/-- `annotate_context_messages` -/
def annotateContextMessages (lower : String → String) (messages : List Message) : List Mounted :=
  annotateFrom lower 0 messages

/-- `_message_context_class` -/
def Message.contextClass (m : Message) : String :=
  match m.metadata.josContext with
  | some tag => if tag.contextClass = "" then "unknown" else tag.contextClass
  | none => "unknown"

/-- `tag.get("inferred")` -/
def Message.inferred (m : Message) : Bool :=
  (m.metadata.josContext.map ContextTag.inferred).getD false

/-! ## Class ceilings -/

/-- `max(64, int(class_base * percentages[context_class] / 100))` -/
def classCeiling (classBase percent : ℕ) : ℕ := max 64 (classBase * percent / 100)

/-- `_apply_class_budgets`: what is left of each ceiling, and the messages kept.  The newest
message of a class comes first, so the tail of the list is done before its head. -/
def applyClassBudgets (percentages : List (String × ℕ)) (classBase : ℕ) :
    List Mounted → (String → ℕ) × List Mounted
  | [] => (fun c => classCeiling classBase ((percentages.lookup c).getD 0), [])
  | m :: newer =>
    let (left, kept) := applyClassBudgets percentages classBase newer
    let c := m.contextClass
    if (percentages.lookup c).isNone then (left, m :: kept)
    else if m.tokens ≤ left c then
      (fun c' => if c' = c then left c - m.tokens else left c', m :: kept)
    else if 64 ≤ left c then
      (fun c' => if c' = c then 0 else left c',
        truncateContextMessage project m (left c) true :: kept)
    else (left, kept)

/-! ## Tool calls and their results -/

/-- The first pass of `_sanitize_tool_messages`: `inBatch` says whether the last message kept is
a call or one of its results. -/
def dropOrphans : Bool → List Mounted → List Mounted
  | _, [] => []
  | inBatch, m :: rest =>
    if m.isTool then if inBatch then m :: dropOrphans inBatch rest else dropOrphans inBatch rest
    else m :: dropOrphans m.callsTools rest

/-- Whether the next message is a tool result. -/
def startsWithTool : List Mounted → Bool
  | [] => false
  | m :: _ => m.isTool

/-- The second pass: a call without results loses its calls, and goes if nothing is left of it.
`none` is the `AttributeError` that `.strip()` raises on a list. -/
def dropDangling : List Mounted → Option (List Mounted)
  | [] => some []
  | m :: rest =>
    (dropDangling rest).bind fun kept =>
      if m.callsTools && !startsWithTool rest then
        match m.content with
        | .none => some kept
        | .text text =>
          if strip text = "" then some kept else some ({ m with toolCalls := [] } :: kept)
        | .blocks items => if items.isEmpty then some kept else none
      else some (m :: kept)

/-- `_sanitize_tool_messages` -/
def sanitizeToolMessages (messages : List Mounted) : Option (List Mounted) :=
  dropDangling (dropOrphans false messages)

/-- `_active_tool_pair_indices`: the positions of the last call and of the results right behind
it. -/
def activeToolPair : List Mounted → List ℕ
  | [] => []
  | m :: rest =>
    if rest.any (·.callsTools) then activeToolPair rest
    else if m.callsTools then
      m.position :: (rest.takeWhile (·.isTool)).map Mounted.position
    else []

/-! ## Trimming -/

/-- `_DROP_PRIORITY.get(context_class, 5)` -/
def dropPriority (contextClass : String) : ℕ :=
  ([("derived_knowledge", 0), ("retrieved_knowledge", 10), ("recalled_memory", 20),
    ("tool_catalog", 30), ("conversation", 40), ("time", 50), ("working_state", 60),
    ("extension_state", 70), ("tool_result", 80)].lookup contextClass).getD 5

/-- `first_system_index` -/
def firstSystem (messages : List Mounted) : Option ℕ :=
  (messages.find? fun m => m.role = "system").map Mounted.position

/-- The protection test of `trim_for_context`, on the messages it selects from. -/
def isProtectedIn (messages : List Mounted) (m : Mounted) : Bool :=
  m.position ∈ activeToolPair messages ∨
    m.contextClass ∈ ["policy", "operator_intent", "presentation"] ∨
    (m.contextClass = "identity_policy" ∧
      (m.inferred = false ∨ firstSystem messages = some m.position)) ∨
    m.isProtected ∨ m.metadata.researchSpinoffFrom

/-- The order of the sort keys `(priority, index)`. -/
def keyLe (a b : Mounted) : Bool :=
  dropPriority a.contextClass < dropPriority b.contextClass ||
    (dropPriority a.contextClass = dropPriority b.contextClass && a.position ≤ b.position)

/-- `candidates` -/
def candidates (messages : List Mounted) : List Mounted :=
  (messages.filter fun m => !isProtectedIn messages m).mergeSort keyLe

/-- The loop over the candidates. -/
def dropLowest (budget : ℕ) : List Mounted → List Mounted → List Mounted
  | [], kept => kept
  | m :: rest, kept =>
    if estimateTokens kept ≤ budget then kept
    else dropLowest budget rest (kept.filter (·.position ≠ m.position))

/-- The inner loop over the positions below `n`, from the last one back. -/
def shrinkClass (budget : ℕ) (contextClass : String) : ℕ → List Mounted → List Mounted
  | 0, messages => messages
  | n + 1, messages =>
    if estimateTokens messages ≤ budget then messages
    else
      match messages[n]? with
      | none => shrinkClass budget contextClass n messages
      | some m =>
        if m.contextClass ≠ contextClass then shrinkClass budget contextClass n messages
        else
          let target := max 64 (m.tokens - (estimateTokens messages - budget))
          let m := truncateContextMessage project m target (contextClass ≠ "operator_intent")
          shrinkClass budget contextClass n (messages.set n m)

def shrinkOrder : List String :=
  ["working_state", "retrieved_knowledge", "derived_knowledge", "recalled_memory", "tool_result",
    "extension_state", "time", "policy", "identity_policy", "operator_intent"]

/-- The loop over `shrink_order`. -/
def shrink (budget : ℕ) (messages : List Mounted) : List Mounted :=
  shrinkOrder.foldl (fun messages c => shrinkClass project budget c messages.length messages) messages

/-- The tokens `trim_for_context` trims to. -/
def tokenBudget (contextLength reserveTokens : ℤ) : ℕ :=
  (max (contextLength - max reserveTokens 0) 64).toNat

/-- What `trim_for_context` is called with, and the settings it reads. -/
structure Limits where
  contextLength : ℤ
  reserveTokens : ℤ
  classBudgetBase : Option ℤ
  percentages : List (String × ℕ)

def Limits.budget (limits : Limits) : ℕ := tokenBudget limits.contextLength limits.reserveTokens

/-- `class_base` -/
def Limits.classBase (limits : Limits) : ℕ :=
  (max (limits.classBudgetBase.getD limits.budget) 0).toNat

/-- `trim_for_context` -/
def trimForContext (lower : String → String) (limits : Limits) (messages : List Message) :
    Option (List Mounted) :=
  let result := (applyClassBudgets project limits.percentages limits.classBase
    (annotateContextMessages lower messages)).2
  if estimateTokens result ≤ limits.budget then sanitizeToolMessages result
  else
    (sanitizeToolMessages (dropLowest limits.budget (candidates result) result)).bind fun kept =>
      sanitizeToolMessages (shrink project limits.budget kept)

end Pandamonium.ContextCompactor

/-!
## Compacting a conversation

`maybe_compact` summarises the older half of the messages that are about to be sent, and
`_update_session_history` cuts the history of the session accordingly.  The list that is sent is
assembled from copies of the history's messages and from others, such as the preface; a copy carries
the object it is a copy of, which nothing reads.

Whether the window is full is a comparison of floats, and a parameter here; so is what the model
answers when it is asked for the summary.
-/

namespace Pandamonium.ContextCompactor

/-- A `ChatMessage`, which is an object of its own. -/
structure HistoryMessage where
  ref : ℕ
  role : String
  content : String
  deriving DecidableEq, Repr

/-- `session.history`; no object is in it twice. -/
structure History where
  messages : List HistoryMessage
  nodup : (messages.map HistoryMessage.ref).Nodup

/-- A message that is about to be sent, and the object of the history it is a copy of. -/
structure Assembled extends Message where
  copyOf : Option ℕ
  deriving DecidableEq, Repr

/-- The message that takes the place of the older half. -/
def summaryMessage (summary : String) : Assembled :=
  { role := "system"
    content := .text
      ("[Conversation summary — earlier messages were compacted]\n" ++ summary)
    toolCalls := []
    toolCallId := ""
    metadata :=
      { josContext := some ⟨"conversation", false⟩, source := "", untrusted := false,
        researchSpinoffFrom := false, compacted := true }
    isProtected := false
    copyOf := none }

/-- `_update_session_history`; `ref` is the object of the summary. -/
def updateSessionHistory (history : List HistoryMessage) (splitPoint : ℕ) (summary : String)
    (systemMsgCount ref : ℕ) : List HistoryMessage :=
  let effectiveSplit := systemMsgCount + splitPoint
  if history.length ≤ effectiveSplit then history
  else
    history.take systemMsgCount ++
      [⟨ref, "system", "[Conversation summary]\n" ++ summary⟩] ++ history.drop effectiveSplit

/-- `system_msgs` -/
def systemMsgs (messages : List Assembled) : List Assembled :=
  messages.filter fun m => m.role = "system"

/-- `convo_msgs` -/
def convoMsgs (messages : List Assembled) : List Assembled :=
  messages.filter fun m => m.role ≠ "system"

/-- `split_point` -/
def splitPoint (messages : List Assembled) : ℕ := (convoMsgs messages).length / 2

/-- `older` -/
def older (messages : List Assembled) : List Assembled :=
  (convoMsgs messages).take (splitPoint messages)

/-- `recent` -/
def recent (messages : List Assembled) : List Assembled :=
  (convoMsgs messages).drop (splitPoint messages)

/-- What `maybe_compact` gives back, and the history afterwards. -/
structure Compaction where
  messages : List Assembled
  history : List HistoryMessage
  wasCompacted : Bool

/-- `maybe_compact`: `summary` is what the model answers, if it does, and `none` stands for the
`TypeError`. -/
def maybeCompact (crowded : ℕ → ℕ → Bool) (contextLength : ℕ) (messages : List Assembled)
    (history : List HistoryMessage) (summary : Option String) (ref : ℕ) : Option Compaction :=
  let used := (messages.map fun m => m.tokens).sum
  let unchanged : Compaction := ⟨messages, history, false⟩
  if !crowded used contextLength then some unchanged
  else if (convoMsgs messages).length < 4 then some unchanged
  -- the earlier summaries are counted by `in`, which takes no null content
  else if (systemMsgs messages).any fun m => m.content = .none then none
  else
    match summary with
    | none => some unchanged
    | some summary =>
      some
        { messages := systemMsgs messages ++ [summaryMessage summary] ++ recent messages
          history := updateSessionHistory history (splitPoint messages) summary
            (systemMsgs messages).length ref
          wasCompacted := true }

end Pandamonium.ContextCompactor
