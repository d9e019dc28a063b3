import Pandamonium.Model.ContentRouting
import Pandamonium.Model.ToolSchemas

/-!
# Tool calls in fenced blocks

The part of `tool_parsing.py` that is about fenced blocks: `_TOOL_BLOCK_RE` with its two uses, in
`parse_tool_blocks` and in `strip_tool_blocks`.  What the two functions do about the other dialects
is a parameter, as is the search for a lookup that was put into a fence of code by mistake.
-/

set_option autoImplicit false

namespace Pandamonium.ToolText

open Pandamonium.Library
open Pandamonium.StreamLlm (findText foldCase litIgnoringCase)

/-! ## The markup of DeepSeek -/

/-- `\s*` -/
def spaces : Regex := .star (.char isSpace)

/-- `[｜|]+` -/
def pipes : Regex := .plus (.set "｜|")

/-- `<`, a slash for an end tag, and the mark between its pipes. -/
def dsmlTag (slash : Bool) (tail : List Regex) : Regex :=
  .sequence ([.lit "<", spaces] ++ (if slash then [.lit "/", spaces] else []) ++
    [pipes, spaces, litIgnoringCase "dsml", spaces, pipes, spaces] ++ tail)

/-- `["\']` -/
def isQuote (x : Char) : Bool := x = '"' || x = '\''

/-- `<parameter name=\1>`, where the group is the first quoted text of the match. -/
def parameterTag (matched : List Char) : List Char :=
  let quoted := matched.dropWhile fun x => !isQuote x
  let name := quoted.tail.takeWhile fun x => !isQuote x
  "<parameter name=".toList ++ quoted.head?.toList ++ name ++
    (quoted.tail.drop name.length).head?.toList ++ ['>']

/-- `_normalize_dsml` -/
def normalizeDsml (text : String) : String :=
  if (findText "DSML".toList text.toList).isNone then text
  else
    let close : List Regex := [spaces, .lit ">"]
    let t := (dsmlTag false (litIgnoringCase "tool_calls" :: close)).sub "<tool_call>" text
    let t := (dsmlTag true (litIgnoringCase "tool_calls" :: close)).sub "</tool_call>" t
    let named (tag : String) : List Regex :=
      [litIgnoringCase tag, .plus (.char isSpace), litIgnoringCase "name="]
    let t := (dsmlTag false (named "invoke")).sub "<invoke name=" t
    let t := (dsmlTag true (litIgnoringCase "invoke" :: close)).sub "</invoke>" t
    let quoted : List Regex := [.char isQuote, .plus (.notSet "\"'"), .char isQuote]
    let rest : List Regex := [.star (.notSet ">"), .lit ">"]
    let t := ((dsmlTag false (named "parameter" ++ quoted ++ rest)).replace parameterTag t).2
    (dsmlTag true (litIgnoringCase "parameter" :: close)).sub "</parameter>" t

/-! ## The fence -/

/-- A match of `_TOOL_BLOCK_RE` with its groups. -/
structure Fence where
  raw : List Char
  tag : List Char
  inline : Option (List Char)
  body : List Char
  deriving DecidableEq, Repr

/-- The text at the start of another one under `re.IGNORECASE`, and what is behind it. -/
def takeIgnoringCase (text : List Char) (cs : List Char) : Option (List Char × List Char) :=
  if (cs.take text.length).map foldCase = text then some (cs.splitAt text.length) else none

def ticks : List Char := ['`', '`', '`']

def isBlankOrTab (x : Char) : Bool := x = ' ' || x = '\t'

/-- `\r?\n?` -/
def skipNewline (cs : List Char) : List Char :=
  let cs := if cs.head? = some '\r' then cs.tail else cs
  if cs.head? = some '\n' then cs.tail else cs

/-- `(?=\r?\n|```)` -/
def atLineEnd (cs : List Char) : Bool :=
  "\r\n".toList.isPrefixOf cs || "\n".toList.isPrefixOf cs || ticks.isPrefixOf cs

/-- What is before and behind the first occurrence of a text. -/
def splitAtText (text : List Char) (cs : List Char) : Option (List Char × List Char) :=
  (findText text cs).map fun i => (cs.take i, cs.drop (i + text.length))

/-- The rest of the match behind the inline group: the body, and what is behind the fence. -/
def readBody (cs : List Char) : Option (List Char × List Char) :=
  let cs := cs.dropWhile isBlankOrTab
  if atLineEnd cs then splitAtText ticks (skipNewline cs) else none

/-- The inline group, as short as it can be. -/
def readInline : List Char → Option (List Char × List Char × List Char)
  | [] => none
  | x :: cs =>
    match readBody (x :: cs) with
    | some (body, rest) => some ([], body, rest)
    | none => if x = '\n' then none else (readInline cs).map fun m => (x :: m.1, m.2)

/-- The match behind the tag. -/
def readAfterTag (cs : List Char) : Option (Option (List Char) × List Char × List Char) :=
  match cs.dropWhile isBlankOrTab with
  | x :: cs =>
    if x = '\x7b' ∨ x = '[' then (readInline cs).map fun m => (some (x :: m.1), m.2)
    else (readBody (x :: cs)).map fun m => (none, m)
  | [] => none

section

variable (rt : Runtime) (floats : Json.FloatText)

/-- `_TOOL_BLOCK_RE` behind its ticks. -/
def readTagged (cs : List Char) : Option (Fence × List Char) :=
  toolTags.findSome? fun tag =>
    match takeIgnoringCase tag.toList cs with
    | none => none
    | some (word, behind) =>
      if (behind.head?.map fun x => rt.isWord x || x = '-') = some true then none
      else
        (readAfterTag behind).map fun (inline, body, rest) =>
          (⟨ticks ++ cs.take (cs.length - rest.length), word, inline, body⟩, rest)

/-- A match of `_TOOL_BLOCK_RE` at the start of a text, and what is behind it. -/
def readFence (cs : List Char) : Option (Fence × List Char) :=
  if ticks.isPrefixOf cs then readTagged rt (cs.drop 3) else none

/-- A character that no fence matches, or a fence. -/
inductive Piece
  | plain (x : Char)
  | fence (m : Fence)

/-- The loop of `finditer` and of `sub`; the number bounds its turns. -/
def scan : ℕ → List Char → List Piece
  | 0, _ => []
  | _ + 1, [] => []
  | fuel + 1, x :: cs =>
    match readFence rt (x :: cs) with
    | some (m, rest) => .fence m :: scan fuel rest
    | none => .plain x :: scan fuel cs

def pieces (text : String) : List Piece := scan rt text.toList.length text.toList

/-- `_TOOL_BLOCK_RE.finditer(text)` -/
def fences (text : String) : List Fence :=
  (pieces rt text).filterMap fun
    | .plain _ => none
    | .fence m => some m

/-- `_CODE_FENCE_TAGS` -/
def codeFenceTags : List String := ["bash", "python"]

/-- `_fenced_tool_call` -/
def fencedToolCall (m : Fence) : Option (String × String) :=
  let tag := rt.lower (String.ofList m.tag)
  let inline := strip (String.ofList (m.inline.getD []))
  let body := strip (String.ofList m.body)
  if inline = "" then some (tag, body)
  else if tag ∈ codeFenceTags then none
  else
    let content := if body = "" then inline else inline ++ "\n" ++ body
    if (Json.loads floats content).isSome then some (tag, content) else none

/-- `_strip_executed_fence` -/
def stripExecutedFence (m : Fence) : List Char :=
  if (fencedToolCall rt floats m).isSome then [] else m.raw

/-! ## Calls inside a fence -/

/-- A start tag with a name: `<tag\s+name=["\'](\w+)["\']>`. -/
def readNamedTag (tag : String) (cs : List Char) : Option (List Char × List Char) := do
  let (_, cs) ← takeIgnoringCase ('<' :: tag.toList) cs
  let behind := cs.dropWhile isSpace
  guard (behind.length < cs.length)
  let (_, cs) ← takeIgnoringCase "name=".toList behind
  guard (cs.head?.any isQuote)
  let name := cs.tail.takeWhile rt.isWord
  let behind := cs.tail.drop name.length
  guard (name ≠ [] ∧ behind.head?.any isQuote ∧ behind.tail.head? = some '>')
  some (name, behind.tail.tail)

/-- The first place where a reader finds something. -/
def searchFirst {α : Type} (read : List Char → Option α) : List Char → Option α
  | [] => read []
  | x :: cs =>
    match read (x :: cs) with
    | some found => some found
    | none => searchFirst read cs

/-- `_iter_named_blocks`; the number bounds its turns. -/
def namedBlocks (opening : List Char → Option (List Char × List Char)) (closing : List Char) :
    ℕ → List Char → List (List Char × List Char)
  | 0, _ => []
  | fuel + 1, cs =>
    match searchFirst opening cs with
    | none => []
    | some (name, behind) =>
      match searchFirst (fun cs => takeIgnoringCase closing cs) behind with
      | none => []
      | some (_, rest) =>
        let length := behind.length - rest.length - closing.length
        (name, behind.take length) :: namedBlocks opening closing fuel rest

/-- `_iter_xml_invoke` -/
def iterXmlInvoke (text : List Char) : List (List Char × List Char) :=
  let opening (cs : List Char) :=
    (readNamedTag rt "invoke" cs).map fun m => (m.1, m.2.dropWhile isSpace)
  namedBlocks opening "</invoke>".toList text.length text

/-- The parameters of a call, the last of each name. -/
def invokeParams (body : List Char) : Object :=
  (namedBlocks (readNamedTag rt "parameter") "</parameter>".toList body.length body).foldl
    (fun params m =>
      Object.set params (String.ofList m.1) (.str (strip (String.ofList m.2)))) []

/-- `_parse_xml_invoke` -/
def parseXmlInvoke (inv : List Char × List Char) : Except Raised (Option ToolBlock) :=
  functionCallToToolBlock rt (rt.lower (String.ofList inv.1)) (invokeParams rt inv.2)

/-! ## The two functions -/

variable (misfenced : String → String → Option ToolBlock)

/-- What `parse_tool_blocks` appends for a fence. -/
def blocksOf (m : Fence) : Except Raised (List ToolBlock) :=
  match fencedToolCall rt floats m with
  | none => .ok []
  | some (tag, content) =>
    if content = "" then .ok (if tag ∈ builtinEmailTools then [⟨tag, .str ""⟩] else [])
    else if (findText "<invoke".toList content.toList).isSome then
      ((iterXmlInvoke rt content.toList).mapM (parseXmlInvoke rt)).map List.reduceOption
    else .ok [((if tag ∈ codeFenceTags then misfenced tag content else none).getD
      ⟨tag, .str content⟩)]

/-- The blocks of the fences. -/
def fencedBlocks (text : String) : Except Raised (List ToolBlock) :=
  ((fences rt text).mapM (blocksOf rt floats misfenced)).map List.flatten

/-- `parse_tool_blocks`, where the other dialects are only looked for if no fence has given a
block. -/
def parseToolBlocks (others : String → Except Raised (List ToolBlock)) (text : String) :
    Except Raised (List ToolBlock) :=
  let text := normalizeDsml text
  match fencedBlocks rt floats misfenced text with
  | .error raised => .error raised
  | .ok [] => others text
  | .ok blocks => .ok blocks

/-- `_TOOL_BLOCK_RE.sub(_strip_executed_fence, text)` -/
def withoutExecuted (text : String) : String :=
  String.ofList ((pieces rt text).flatMap fun
    | .plain x => [x]
    | .fence m => stripExecutedFence rt floats m)

/-- `strip_tool_blocks`, with what it takes away of the other dialects. -/
def stripToolBlocks (others : String → String) (text : String) : String :=
  others (withoutExecuted rt floats (normalizeDsml text))

end

end Pandamonium.ToolText
