import Pandamonium.Library.Regex
import Pandamonium.Model.Value

/-!
# Routing streamed text

The text of an answer comes in deltas.  What is visible and what is thinking is told apart by think
tags at its beginning, or by the channels of the harmony format once a marker of it is seen; what is
left of chat templates is removed from each delta before.
-/

set_option autoImplicit false

namespace Pandamonium.StreamLlm

open Pandamonium.Library

/-- `str.lower`, as far as ASCII letters come out of it, and the one letter that becomes two. -/
def lower (cs : List Char) : List Char :=
  cs.flatMap fun x =>
    if x = '\u0130' then ['i', '\u0307'] else if x = '\u212a' then ['k'] else [x.toLower]

/-- `str.lstrip` -/
def lstrip (cs : List Char) : List Char := cs.dropWhile isSpace

/-- `str.find` -/
def findText (text : List Char) : List Char → Option ℕ
  | [] => if text.isEmpty then some 0 else none
  | x :: cs =>
    if text.isPrefixOf (x :: cs) then some 0 else (findText text cs).map fun i => i + 1

/-- The letter that `re.IGNORECASE` takes a character for. -/
def foldCase (x : Char) : Char :=
  if x = '\u017f' then 's' else if x = '\u212a' then 'k'
  else if x = '\u0130' || x = '\u0131' then 'i' else x.toLower

/-- The characters of a text under `re.IGNORECASE`, for a text in lower case. -/
def litIgnoringCase (text : String) : Regex :=
  text.toList.foldr (fun x r => .seq (.char fun y => foldCase y == x) r) .epsilon

/-! ## Chat templates -/

/-- `assistan(?:t)?` -/
def assistantWord : Regex := .seq (litIgnoringCase "assistan") (.opt (litIgnoringCase "t"))

/-- `_VISIBLE_CHAT_TEMPLATE_ARTIFACT_RE` -/
def visibleChatTemplateArtifact : Regex :=
  let bar := Regex.lit "|"
  Regex.choice [
    Regex.sequence [.plus (litIgnoringCase "|end|"), .opt bar, assistantWord, .opt bar],
    Regex.sequence [bar, assistantWord, bar],
    Regex.sequence [litIgnoringCase "<|im_start|>", .star (.char isSpace),
      litIgnoringCase "assistant"],
    litIgnoringCase "<|im_end|>"]

/-- `_strip_visible_chat_template_artifacts` -/
def stripVisibleChatTemplateArtifacts (text : String) : String :=
  visibleChatTemplateArtifact.sub "" text

/-! ## The harmony format -/

/-- `_HARMONY_MARKERS`, where a marker comes after those that it begins; the pattern for them
matches the first of these. -/
def harmonyMarkers : List String :=
  ["<|channel|>analysis", "<|channel|>commentary", "<|channel|>final", "<|start|>assistant",
    "<|start|>system", "<|start|>user", "<|start|>tool", "<|start|>", "<|message|>", "<|end|>",
    "<|return|>", "<|call|>"]

/-- `_HARMONY_MAX_MARKER_LEN` -/
def harmonyMaxMarkerLen : ℕ := (harmonyMarkers.map String.length).foldl max 0

/-- `_harmony_suffix_hold_len` -/
def harmonySuffixHoldLen (text : List Char) : ℕ :=
  let limit := min text.length (harmonyMaxMarkerLen - 1)
  let held := ((List.range limit).map fun n => n + 1).reverse.find? fun n =>
    harmonyMarkers.any fun marker => (text.drop (text.length - n)).isPrefixOf marker.toList
  held.getD 0

/-- `_HARMONY_MARKER_RE.search`: what is before the marker, the marker, and what is after it. -/
def searchMarker : List Char → Option (List Char × String × List Char)
  | [] => none
  | x :: cs =>
    match harmonyMarkers.find? fun marker => marker.toList.isPrefixOf (x :: cs) with
    | some marker => some ([], marker, (x :: cs).drop marker.length)
    | none => (searchMarker cs).map fun found => (x :: found.1, found.2)

/-- `_HarmonyStreamRouter` -/
structure HarmonyRouter where
  buf : List Char
  seenHarmony : Bool
  channel : Option String
  inMessage : Bool
  deriving DecidableEq, Repr

/-- A piece of text, and whether it is thinking. -/
abbrev Part := List Char × Bool

def HarmonyRouter.new : HarmonyRouter := ⟨[], false, none, false⟩

/-- `_append_text`: what the text adds. -/
def HarmonyRouter.appendText (r : HarmonyRouter) (text : List Char) : List Part :=
  if text.isEmpty then []
  else if !r.seenHarmony then [(text, false)]
  else if r.inMessage then
    [(text, r.channel = some "analysis" || r.channel = some "commentary")]
  else []

/-- `_handle_marker` -/
def HarmonyRouter.handleMarker (r : HarmonyRouter) (marker : String) : HarmonyRouter :=
  let r := { r with seenHarmony := true }
  if "<|channel|>".toList.isPrefixOf marker.toList then
    let channel := String.ofList (marker.toList.drop "<|channel|>".length)
    { r with channel := some channel, inMessage := false }
  else if marker = "<|message|>" then { r with inMessage := true }
  else if marker = "<|end|>" || marker = "<|return|>" || marker = "<|call|>" then
    { r with inMessage := false, channel := none }
  else { r with inMessage := false }

/-- The markers of the buffer one after the other; the number bounds the steps. -/
def HarmonyRouter.drainMarkers : ℕ → HarmonyRouter → List Part × HarmonyRouter
  | 0, r => ([], r)
  | n + 1, r =>
    match searchMarker r.buf with
    | none => ([], r)
    | some (before, marker, after) =>
      let rest := drainMarkers n { r.handleMarker marker with buf := after }
      (r.appendText before ++ rest.1, rest.2)

/-- `_drain` -/
def HarmonyRouter.drain (r : HarmonyRouter) (final : Bool) : List Part × HarmonyRouter :=
  let drained := r.drainMarkers (r.buf.length + 1)
  let buf := drained.2.buf
  let hold := if final then 0 else harmonySuffixHoldLen buf
  let emit := buf.take (buf.length - hold)
  (drained.1 ++ drained.2.appendText emit, { drained.2 with buf := buf.drop (buf.length - hold) })

/-- `feed` -/
def HarmonyRouter.feed (r : HarmonyRouter) (text : List Char) : List Part × HarmonyRouter :=
  if text.isEmpty then ([], r) else ({ r with buf := r.buf ++ text }).drain false

/-- `flush` -/
def HarmonyRouter.flush (r : HarmonyRouter) : List Part × HarmonyRouter := r.drain true

/-! ## Think tags -/

/-- What the OpenAI-compatible branch keeps between the deltas. -/
structure Routing where
  thinkingModel : Bool
  firstContentSent : Bool
  inThinkTag : Bool
  thinkOpenStripped : Bool
  harmonyRouter : HarmonyRouter
  harmonyActive : Bool
  deriving DecidableEq, Repr

def Routing.new (thinkingModel : Bool) : Routing :=
  ⟨thinkingModel, false, false, false, HarmonyRouter.new, false⟩

/-- Whether the text starts with a closing think tag, or with the given start of one. -/
def startsWithTag (tag : String) (text : List Char) : Bool :=
  tag.toList.isPrefixOf (lower (lstrip text))

/-- `_format_routed_content` -/
def formatRoutedContent (s : Routing) : List Part → List Part × Routing
  | [] => ([], s)
  | (part, true) :: parts =>
    let rest := formatRoutedContent s parts
    ((part, true) :: rest.1, rest.2)
  | (part, false) :: parts =>
    let repaired := s.thinkingModel && !s.firstContentSent && startsWithTag "</think" part
    let part := if repaired then "<think>".toList ++ part else part
    let rest := formatRoutedContent { s with firstContentSent := true } parts
    ((part, false) :: rest.1, rest.2)

/-- What goes through the harmony router. -/
def feedRouter (s : Routing) (text : List Char) : List Part × Routing :=
  let fed := s.harmonyRouter.feed text
  formatRoutedContent { s with harmonyRouter := fed.2 } fed.1

/-- What the router still holds where the stream ends. -/
def flushRouter (s : Routing) : List Part :=
  (formatRoutedContent s s.harmonyRouter.flush.1).1

/-- `<mm:think(\s+[^>]*)?>` -/
def mmThinkOpen : Regex :=
  Regex.sequence [litIgnoringCase "<mm:think",
    .opt (.seq (.plus (.char isSpace)) (.star (.notSet ">"))), Regex.lit ">"]

/-- The two substitutions of the think tags' alias. -/
def replaceMmThink (content : List Char) : List Char :=
  let opened := mmThinkOpen.replace
    (fun found => "<think".toList ++ found.drop "<mm:think".length) (String.ofList content)
  ((litIgnoringCase "</mm:think>").sub "</think>" opened.2).toList

/-- The text without the opening tag it starts with, if the tag ends in it. -/
def dropTag (text : List Char) : List Char :=
  match findText ">".toList (lower text) with
  | none => text
  | some tagEnd => text.drop (tagEnd + 1)

/-- A part that is yielded where it is not empty. -/
def part (text : List Char) (thinking : Bool) : List Part :=
  if text.isEmpty then [] else [(text, thinking)]

/-- A delta of an answer whose thinking is in a think tag. -/
def routeInThinkTag (s : Routing) (content stripped : List Char) : List Part × Routing :=
  match findText "</think>".toList (lower content) with
  | some closeIdx =>
    let thinkPart := content.take closeIdx
    let thinkPart := if s.thinkOpenStripped then thinkPart else dropTag thinkPart
    let regularPart := content.drop (closeIdx + "</think>".length)
    let sent := s.firstContentSent || !regularPart.isEmpty
    (part thinkPart true ++ part regularPart false,
      { s with thinkOpenStripped := true, inThinkTag := false, firstContentSent := sent })
  | none =>
    let content :=
      if s.thinkOpenStripped || (findText ">".toList (lower stripped)).isNone then content
      else dropTag stripped
    (part content true, { s with thinkOpenStripped := true })

/-- What comes of a delta's content, after the chat templates are removed. -/
def routeContent (s : Routing) (content : List Char) : List Part × Routing :=
  let content := replaceMmThink content
  let stripped := lstrip content
  if s.harmonyActive || (findText "<|".toList content).isSome then
    feedRouter { s with harmonyActive := true } content
  else
    let opens := !s.firstContentSent && !s.thinkingModel && !s.inThinkTag &&
      startsWithTag "<think" content
    let s := { s with
      thinkingModel := s.thinkingModel || opens, inThinkTag := s.inThinkTag || opens }
    if s.inThinkTag then routeInThinkTag s content stripped
    else
      let repaired := s.thinkingModel && !s.firstContentSent && startsWithTag "</think" content
      let content := if repaired then "<think>".toList ++ content else content
      ([(content, false)], { s with firstContentSent := true })

end Pandamonium.StreamLlm
