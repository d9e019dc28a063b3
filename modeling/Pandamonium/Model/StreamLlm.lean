import Pandamonium.Library.StableOrder
import Pandamonium.Library.TransitionSystem
import Pandamonium.Model.ContentRouting
import Pandamonium.Model.Json

/-!
# Streams from the providers

`stream_llm` reads the lines of a provider's answer and yields events, in one loop for each kind of
provider.  Each loop accumulates the tool calls and yields them in one event.  The guard against
repeated tokens is a parameter; a stream that it stops, or that the transport breaks off, ends with
an error.
-/

set_option autoImplicit false

namespace Pandamonium.StreamLlm

open Pandamonium.Library

/-- An accumulated call. -/
structure Call where
  id : String
  name : String
  arguments : String
  /-- `extra_content`, as it came. -/
  extraContent : Option String
  deriving DecidableEq, Repr

/-- What is yielded; a `usage` has the counts of the input's and the output's tokens. -/
inductive Event
  | delta (text : String) (thinking : Bool)
  | toolCallDelta (index : ℕ) (name argDelta : String)
  | toolCalls (calls : List Call)
  | usage (inputTokens outputTokens : ℕ)
  | error (text : String)
  | done
  deriving DecidableEq, Repr

/-- `_stream_delta_event` for each part. -/
def deltas (parts : List Part) : List Event :=
  parts.map fun part => .delta (String.ofList part.1) part.2

/-- The `tool_calls` event, if any calls were accumulated. -/
def emitToolCalls (calls : List Call) : List Event :=
  if calls.isEmpty then [] else [.toolCalls calls]

/-- The calls in the order of their slots. -/
def inSlotOrder (acc : Dict ℕ Call) : List Call := (orderedBy Prod.fst acc.items).map Prod.snd

/-- The tools whose arguments are streamed. -/
def docTools : List String := ["create_document", "update_document", "edit_document"]

/-- The event for arguments that are streamed. -/
def argDelta (index : ℕ) (name argDelta : String) : List Event :=
  if argDelta ≠ "" ∧ name ∈ docTools then [.toolCallDelta index name argDelta] else []

/-- `_DegenerateStreamGuard.check`: the error of a stream that is stopped. -/
structure Guard (τ : Type) where
  check : τ → String → τ × Option String

/-! ## OpenAI-compatible providers -/

/-- An element of `tool_calls`; a text that is missing or null is empty. -/
structure Fragment where
  index : Option ℕ
  id : String
  name : String
  arguments : String
  extraContent : Option String
  deriving DecidableEq, Repr

/-- A block of structured content. -/
inductive Block
  | text (text : String)
  | thinking (texts : List String)
  | other
  deriving DecidableEq, Repr

inductive Content
  | text (text : String)
  | blocks (blocks : List Block)
  deriving DecidableEq, Repr

structure Delta where
  reasoningContent : String
  reasoning : String
  thinking : String
  content : Content
  /-- An element may be null. -/
  toolCalls : List (Option Fragment)
  deriving DecidableEq, Repr

/-- A chunk's JSON object: its usage, the delta of its first choice, if there are choices and the
first is not null, and its text. -/
structure Chunk where
  usage : Option (ℕ × ℕ)
  choice : Option (Option Delta)
  text : Option String
  deriving DecidableEq, Repr

/-- What a line of the answer is read as. -/
inductive Line
  /-- Not a data line, or one whose data are blank or cannot be read. -/
  | skipped
  /-- `data: [DONE]` -/
  | done
  /-- Data that do not start with a brace. -/
  | raw (text : String)
  | chunk (chunk : Chunk)
  deriving DecidableEq, Repr

/-- `bool(content)` -/
def Content.truthy : Content → Bool
  | .text value => value ≠ ""
  | .blocks items => !items.isEmpty

/-- The text of a block. -/
def Block.texts : Block → List String
  | .text value => [value]
  | _ => []

/-- The thinking of a block. -/
def Block.thoughts : Block → List String
  | .thinking values => values
  | _ => []

/-- `_normalize_mistral_content`: the text and the thinking. -/
def Content.normalized : Content → String × String
  | .text value => (value, "")
  | .blocks items =>
    (String.join (items.flatMap Block.texts), String.join (items.flatMap Block.thoughts))

/-- `_delta_has_output` -/
def Delta.hasOutput (delta : Delta) : Bool :=
  delta.content.truthy || delta.reasoningContent ≠ "" || delta.reasoning ≠ "" ||
    delta.thinking ≠ "" || !delta.toolCalls.isEmpty

/-- The reasoning of a delta. -/
def Delta.allReasoning (delta : Delta) : String :=
  let reasoning :=
    if delta.reasoningContent ≠ "" then delta.reasoningContent
    else if delta.reasoning ≠ "" then delta.reasoning
    else delta.thinking
  reasoning ++ delta.content.normalized.2

/-- `_tc_acc` and `_tc_last_idx`, where -1 is none. -/
structure ToolSlots where
  acc : Dict ℕ Call
  lastIdx : Option ℕ

def ToolSlots.new : ToolSlots := ⟨Dict.empty, none⟩

/-- `max(_tc_acc, default=-1) + 1` -/
def nextSlot (acc : Dict ℕ Call) : ℕ :=
  match (acc.items.map Prod.fst).max? with
  | none => 0
  | some last => last + 1

/-- The slot that a fragment is of. -/
def ToolSlots.slot (s : ToolSlots) (tc : Fragment) : ℕ :=
  match tc.index with
  | some idx => idx
  | none =>
    match s.lastIdx with
    | none => nextSlot s.acc
    | some last => if tc.name ≠ "" then nextSlot s.acc else last

/-- What is in a slot before anything is put there. -/
def Call.blank : Call := ⟨"", "", "", none⟩

/-- The call with what the fragment brings. -/
def Call.add (call : Call) (tc : Fragment) : Call where
  id := if tc.id ≠ "" then tc.id else call.id
  name := if tc.name ≠ "" then tc.name else call.name
  arguments := call.arguments ++ tc.arguments
  extraContent := if tc.extraContent.isSome then tc.extraContent else call.extraContent

/-- A fragment is put in its slot. -/
def ToolSlots.add (s : ToolSlots) (tc : Fragment) : ToolSlots :=
  let idx := s.slot tc
  { acc := s.acc.set idx (((s.acc.get? idx).getD .blank).add tc), lastIdx := some idx }

/-- The loop over the fragments of a delta. -/
def ToolSlots.collect (s : ToolSlots) : List (Option Fragment) → List Event × ToolSlots
  | [] => ([], s)
  | none :: tcs => s.collect tcs
  | some tc :: tcs =>
    let name := (((s.acc.get? (s.slot tc)).getD .blank).add tc).name
    let rest := (s.add tc).collect tcs
    (argDelta (s.slot tc) name tc.arguments ++ rest.1, rest.2)

/-- What the loop keeps between the lines. -/
structure OpenAi (τ : Type) where
  slots : ToolSlots
  guard : τ
  routing : Routing

section OpenAi

variable {τ : Type} (guard : Guard τ)

/-- The reasoning and the content of a delta: what is yielded, and the next state, `none` where the
guard stops the stream; and whether the rest of the delta is skipped. -/
def speak (s : OpenAi τ) (reasoning content : String) : List Event × Option (OpenAi τ) × Bool :=
  let checked := if reasoning = "" then (s.guard, none) else guard.check s.guard reasoning
  match checked.2 with
  | some message => ([.error message], none, false)
  | none =>
    let s := { s with guard := checked.1 }
    let events := if reasoning = "" then [] else [.delta reasoning true]
    if content = "" then (events, some s, false)
    else
      let content := stripVisibleChatTemplateArtifacts content
      if content = "" then (events, some s, true)
      else
        let checked := guard.check s.guard content
        match checked.2 with
        | some message => (events ++ [.error message], none, false)
        | none =>
          let routed := routeContent s.routing content.toList
          (events ++ deltas routed.1,
            some { s with guard := checked.1, routing := routed.2 }, false)

/-- A delta. -/
def takeDelta (s : OpenAi τ) (delta : Delta) : List Event × Option (OpenAi τ) :=
  match speak guard s delta.allReasoning delta.content.normalized.1 with
  | (events, none, _) => (events, none)
  | (events, some s, true) => (events, some s)
  | (events, some s, false) =>
    let collected := s.slots.collect delta.toolCalls
    (events ++ collected.1, some { s with slots := collected.2 })

/-- A text outside the deltas. -/
def takeText (s : OpenAi τ) (text : String) : List Event × Option (OpenAi τ) :=
  let fed := feedRouter s.routing text.toList
  (deltas fed.1, some { s with routing := fed.2 })

/-- A chunk. -/
def takeChunk (s : OpenAi τ) (chunk : Chunk) : List Event × Option (OpenAi τ) :=
  let hasOutput := (chunk.choice.bind fun choice => choice.map Delta.hasOutput).getD false
  match chunk.usage, hasOutput, chunk.choice, chunk.text with
  | some (input, output), false, _, _ => ([.usage input output], some s)
  | _, _, some (some delta), _ => takeDelta guard s delta
  | _, _, some none, _ => ([], some s)
  | _, _, none, some text => takeText s text
  | _, _, none, none => ([], some s)

/-- The events at the end of the stream. -/
def OpenAi.ended (s : OpenAi τ) : List Event :=
  deltas (flushRouter s.routing) ++ (emitToolCalls (inSlotOrder s.slots.acc) ++ [.done])

/-- The loop of the OpenAI-compatible branch. -/
def openAi : Transducer (OpenAi τ) Line Event where
  step s line :=
    match line with
    | .skipped => ([], some s)
    | .done => (s.ended, none)
    | .raw text => takeText s text
    | .chunk chunk => takeChunk guard s chunk
  close := OpenAi.ended

end OpenAi

/-! ## Anthropic -/

inductive ContentBlock
  | toolUse (id name : String)
  | other
  deriving DecidableEq, Repr

inductive BlockDelta
  | text (text : String)
  | inputJson (partialJson : String)
  | other
  deriving DecidableEq, Repr

/-- An event of the provider. -/
inductive AnthropicEvent
  | contentBlockStart (index : Option ℕ) (block : ContentBlock)
  | contentBlockDelta (index : Option ℕ) (delta : BlockDelta)
  | messageStart (inputTokens : ℕ)
  | messageDelta (outputTokens : ℕ)
  | messageStop
  | error (message : String)
  | other
  deriving DecidableEq, Repr

/-- What the loop keeps between the events; an index of -1 is none. -/
structure Anthropic where
  toolBlocks : Dict ℕ Call
  blockIdx : Option ℕ
  inputTokens : ℕ
  outputTokens : ℕ

def Anthropic.new : Anthropic := ⟨Dict.empty, none, 0, 0⟩

/-- `content_block_start` -/
def Anthropic.startBlock (s : Anthropic) (index : Option ℕ) (block : ContentBlock) : Anthropic :=
  let next := match s.blockIdx with
    | none => 0
    | some last => last + 1
  let idx := index.getD next
  match block with
  | .toolUse id name =>
    let id := if id ≠ "" then id else "call_" ++ toString idx
    { s with blockIdx := some idx, toolBlocks := s.toolBlocks.set idx ⟨id, name, "", none⟩ }
  | .other => { s with blockIdx := some idx }

/-- `input_json_delta` -/
def Anthropic.addJson (s : Anthropic) (index : Option ℕ) (partialJson : String) :
    List Event × Anthropic :=
  match index.or s.blockIdx with
  | none => ([], s)
  | some idx =>
    match s.toolBlocks.get? idx with
    | none => ([], s)
    | some call =>
      (argDelta idx call.name partialJson,
        { s with
          toolBlocks := s.toolBlocks.set idx
            { call with arguments := call.arguments ++ partialJson } })

/-- The events at `message_stop`. -/
def Anthropic.stopped (s : Anthropic) : List Event :=
  let usage :=
    if s.inputTokens ≠ 0 ∨ s.outputTokens ≠ 0 then [.usage s.inputTokens s.outputTokens] else []
  emitToolCalls (inSlotOrder s.toolBlocks) ++ (usage ++ [.done])

/-- The loop of the Anthropic branch. -/
def anthropic : Transducer Anthropic AnthropicEvent Event where
  step s event :=
    match event with
    | .contentBlockStart index block => ([], some (s.startBlock index block))
    | .contentBlockDelta _ (.text text) =>
      (if text ≠ "" then [.delta text false] else [], some s)
    | .contentBlockDelta index (.inputJson partialJson) =>
      let added := s.addJson index partialJson
      (added.1, some added.2)
    | .contentBlockDelta _ .other => ([], some s)
    | .messageStart inputTokens => ([], some { s with inputTokens })
    | .messageDelta outputTokens => ([], some { s with outputTokens })
    | .messageStop => (s.stopped, none)
    | .error message => ([.error message], none)
    | .other => ([], some s)
  close _ := [.done]

/-! ## Ollama -/

/-- An element of `tool_calls`. -/
structure OllamaCall where
  id : String
  name : String
  arguments : Value

/-- A line of the answer. -/
structure OllamaLine where
  thinking : String
  content : String
  toolCalls : List OllamaCall
  done : Bool
  promptEvalCount : Option ℕ
  evalCount : Option ℕ

/-- What the loop keeps between the lines. -/
structure Ollama where
  toolCalls : List Call
  harmonyRouter : HarmonyRouter

def Ollama.new : Ollama := ⟨[], HarmonyRouter.new⟩

/-- `json.dumps(arguments or {})` -/
def argumentsText (arguments : Value) : String :=
  Json.dumps Json.Format.standard (if arguments.truthy then arguments else .dict [])

/-- A call is appended. -/
def addCall (calls : List Call) (tc : OllamaCall) : List Call :=
  if tc.name = "" then calls
  else
    let id := if tc.id ≠ "" then tc.id else "call_" ++ toString calls.length
    calls ++ [⟨id, tc.name, argumentsText tc.arguments, none⟩]

/-- The events at the line that is done. -/
def Ollama.ended (s : Ollama) (line : OllamaLine) : List Event :=
  let usage :=
    if line.promptEvalCount.isSome ∨ line.evalCount.isSome then
      [.usage (line.promptEvalCount.getD 0) (line.evalCount.getD 0)]
    else []
  deltas s.harmonyRouter.flush.1 ++ (emitToolCalls s.toolCalls ++ (usage ++ [.done]))

/-- The loop of the Ollama branch. -/
def ollama : Transducer Ollama OllamaLine Event where
  step s line :=
    let fed := s.harmonyRouter.feed line.content.toList
    let events := (if line.thinking ≠ "" then [.delta line.thinking true] else []) ++ deltas fed.1
    let s := { toolCalls := line.toolCalls.foldl addCall s.toolCalls, harmonyRouter := fed.2 }
    if line.done then (events ++ s.ended line, none) else (events, some s)
  close s := deltas s.harmonyRouter.flush.1 ++ [.done]

/-! ## The branches -/

/-- An answer of a provider, by the kind of the provider. -/
inductive Answer
  | openAi (thinkingModel : Bool) (lines : List Line)
  | anthropic (events : List AnthropicEvent)
  | ollama (lines : List OllamaLine)

/-- `stream_llm`, from the answer on; the guard is in the given state. -/
def streamLlm {τ : Type} (guard : Guard τ) (start : τ) : Answer → List Event
  | .openAi thinkingModel lines =>
    (StreamLlm.openAi guard).run ⟨.new, start, .new thinkingModel⟩ lines
  | .anthropic events => StreamLlm.anthropic.run .new events
  | .ollama lines => StreamLlm.ollama.run .new lines

end Pandamonium.StreamLlm
