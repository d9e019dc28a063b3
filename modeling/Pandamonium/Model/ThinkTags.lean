import Pandamonium.Model.ActionEffect
import Pandamonium.Library.AngleTags

/-!
# Stripping the reasoning of a model

`strip_think` of `src/text_helpers.py` and what it calls.  Every tag that its patterns look for is
an opening angle bracket, characters that are no angle brackets, and a closing one, so that a
pattern says which insides it takes.  Texts are lists of characters.
-/

set_option autoImplicit false

namespace Pandamonium.ThinkTags

open Library

/-! ## Tags -/

/-- What `re.IGNORECASE` takes for a lower-case letter of a pattern: the letter, its capital, and
the Kelvin sign for `k`, both Turkish letters for `i` and the long s for `s`.  Other characters
stand for themselves. -/
def isLetter (letter x : Char) : Bool :=
  x == letter || x == letter.toUpper || (letter == 'k' && x.toNat == 0x212a) ||
    (letter == 'i' && (x.toNat == 0x130 || x.toNat == 0x131)) || (letter == 's' && x.toNat == 0x17f)

/-- What is behind a word of a pattern at the front of a text. -/
def dropWord : List Char → List Char → Option (List Char)
  | [], cs => some cs
  | _ :: _, [] => none
  | letter :: word, x :: cs => if isLetter letter x then dropWord word cs else none

theorem length_of_dropWord {word cs rest : List Char} (h : dropWord word cs = some rest) :
    rest.length ≤ cs.length := by
  induction word generalizing cs with
  | nil =>
    cases h
    exact le_refl _
  | cons letter word ih =>
    cases cs with
    | nil => cases h
    | cons x cs =>
      rw [dropWord] at h
      split at h
      · exact Nat.le_succ_of_le (ih h)
      · cases h

/-- `_THINK_TAG_NAME` -/
def thinkTagName : List (List Char) := ["think".toList, "thinking".toList, "thought".toList]

/-- A name, and behind it what a class takes. -/
def named (names : List (List Char)) (behind : List Char → Bool) (body : List Char) : Bool :=
  names.any fun name => (dropWord name body).any behind

/-- `\s[^<>]*` -/
def isAttributes (cs : List Char) : Bool := cs.head?.any isSpace

/-- `(?:\s[^<>]*)?` -/
def isOptAttributes (cs : List Char) : Bool := cs.isEmpty || isAttributes cs

/-- `/` and then what a class takes. -/
def slashed (p : List Char → Bool) : List Char → Bool
  | [] => false
  | x :: body => x == '/' && p body

/-- The inside of `_THINK_OPEN_TAG_RE` and of `_THINK_OPEN_RE` -/
def isThinkOpenTag : List Char → Bool := named thinkTagName isOptAttributes

/-- The inside of `_THINK_CLOSE_TAG_RE` -/
def isThinkCloseTag : List Char → Bool := slashed (named thinkTagName List.isEmpty)

/-- The inside of `_THINK_TAG_RE` -/
def isThinkTag (body : List Char) : Bool :=
  named thinkTagName (fun _ => true) body || slashed (named thinkTagName fun _ => true) body

/-- The inside of `_THINK_ATTR_RE` -/
def isThinkAttr : List Char → Bool := named thinkTagName isAttributes

/-- The inside of `_THINK_ATTR_CLOSE_RE` -/
def isThinkAttrClose : List Char → Bool := slashed (named thinkTagName isAttributes)

/-- The inside of `_THOUGHT_TAG_OPEN_RE` -/
def isThoughtTagOpen : List Char → Bool := named ["thought".toList] isOptAttributes

/-- The inside of `_THOUGHT_TAG_CLOSE_RE` -/
def isThoughtTagClose : List Char → Bool := slashed (named ["thought".toList] List.isEmpty)

/-- The inside of `<\|channel>` -/
def isChannelOpen : List Char → Bool := named ["|channel".toList] List.isEmpty

/-- The inside of `<channel\|>` -/
def isChannelClose : List Char → Bool := named ["channel|".toList] List.isEmpty

/-- A pattern of tags alone. -/
def alone (p : List Char → Bool) : Pattern Char (List Char) := tagPattern p fun _ => false

theorem length_of_channel {name : List Char} (cs : List Char) (found : Unit) (rest : List Char)
    (h : (match leadingTag cs with
      | none => none
      | some (body, rest) =>
        if isChannelOpen body then (dropWord name rest).map fun rest => ((), rest.dropWhile isSpace)
        else none) = some (found, rest)) : rest.length < cs.length := by
  split at h
  · cases h
  · rename_i body behind htag
    split at h
    · obtain ⟨later, hword, heq⟩ := Option.map_eq_some_iff.mp h
      cases heq
      have htag := length_of_leadingTag htag
      have hword := length_of_dropWord hword
      have hspace := (List.dropWhile_sublist isSpace (l := later)).length_le
      omega
    · cases h

/-- `<\|channel>`, the name of a channel and `\s*\n?` -/
def channelPattern (name : List Char) : Pattern Char Unit where
  matchAt cs :=
    match leadingTag cs with
    | none => none
    | some (body, rest) =>
      if isChannelOpen body then (dropWord name rest).map fun rest => ((), rest.dropWhile isSpace)
      else none
  shrinks := length_of_channel _ _ _

/-- `_GEMMA_THOUGHT_CHANNEL_OPEN_RE`; `_GEMMA_THOUGHT_OPEN_RE` starts like this and goes on to the
end of the text, as `_THINK_OPEN_RE` does. -/
def gemmaThoughtChannelOpen : Pattern Char Unit := channelPattern "thought".toList

/-- `_GEMMA_RESPONSE_OPEN_RE` -/
def gemmaResponseOpen : Pattern Char Unit := channelPattern "response".toList

/-- `_replace_gemma_thought` -/
def replaceGemmaThought (inner : List Char) : List Char :=
  let thought := stripChars inner
  if thought ≠ [] then "<think>".toList ++ thought ++ "</think>\n".toList else []

/-- `normalize_thinking_markup` -/
def normalizeThinkingMarkup (text : List Char) : List Char :=
  let out := (alone isThoughtTagOpen).sub
    (fun body => '<' :: ("think".toList ++ body.drop 7 ++ ['>'])) text
  let out := (alone isThoughtTagClose).sub (fun _ => "</think>".toList) out
  let out := gemmaThoughtChannelOpen.subDelimited (tagPattern isChannelClose isSpace)
    replaceGemmaThought out
  let out := gemmaResponseOpen.subDelimited (alone isChannelClose) id out
  let out := gemmaResponseOpen.sub (fun _ => []) out
  (alone isChannelClose).sub (fun _ => []) out

/-! ## Prose -/

/-- What is left of a text behind `header.*?` up to the first place where a class holds, or to the
end. -/
def dropUntil (stops : List Char → Bool) : List Char → List Char
  | [] => []
  | x :: cs => if stops (x :: cs) then x :: cs else dropUntil stops cs

/-- `\n\n#` or `\n\n\*\*` -/
def atHeading (cs : List Char) : Bool :=
  "\n\n#".toList.isPrefixOf cs || "\n\n**".toList.isPrefixOf cs

/-- `\n\n#` or `\n\n\*\*[A-Z]` -/
def atCapital (cs : List Char) : Bool :=
  "\n\n#".toList.isPrefixOf cs ||
    ("\n\n**".toList.isPrefixOf cs && (cs.drop 4).head?.any fun x => 'A' ≤ x ∧ x ≤ 'Z')

/-- `_QWEN_THINKING_RE.sub("", out)` -/
def dropQwenThinking (out : List Char) : List Char :=
  match dropWord "thinking process:".toList out with
  | none => out
  | some rest => dropUntil atHeading rest

/-- `_re.sub("", out)` for a pattern of `_PROMPT_ECHO_RES` -/
def dropPromptEcho (header : List Char) (out : List Char) : List Char :=
  if header.isPrefixOf out then dropUntil atCapital (out.drop header.length) else out

/-- The passes of `prompt_echo`. -/
def dropEchoes (out : List Char) : List Char :=
  dropPromptEcho "We need to".toList
    (dropPromptEcho "The user asks:".toList (dropQwenThinking out))

/-- A text of a pattern with `re.IGNORECASE`. -/
def word (text : String) : Regex :=
  text.toList.foldr (fun x r => .seq (.char (isLetter x)) r) .epsilon

def someWord (texts : List String) : Regex := .choice (texts.map word)

/-- `_REASONING_PREFIX_RE` -/
def reasoningPrefix (rt : Runtime) : Regex :=
  .sequence
    [spaces,
      .choice
        [.sequence
          [word "the user ", someWord ["wants", "is", "asks", "needs", "wrote", "said", "told",
            "messaged", "requested"]],
        .sequence
          [word "i ", someWord ["need", "should", "have", "'ll", "will", "am going"],
            .opt (word " to"), word " ",
            someWord ["write", "draft", "reply", "respond", "read", "check", "look", "review",
              "consider", "think", "provide", "generate", "produce", "craft", "compose",
              "acknowledge", "summarize", "answer", "give", "keep", "aim", "make", "address",
              "focus", "use", "just", "simply", "analyze", "format", "create", "build", "note",
              "decide"]],
        .sequence
          [word "let me ", someWord ["think", "look", "see", "check", "read", "review", "consider",
            "draft", "write", "analyze", "format", "summarize", "create", "produce", "craft",
            "note", "extract", "identify", "figure"]],
        .sequence [word "looking at ", someWord ["the", "this", "that"]],
        .sequence
          [someWord ["okay", "alright", "hmm", "right", "so", "well", "first", "next", "now"],
            .opt (.set ",."), someSpace,
            someWord ["the", "i", "let", "so", "now", "this", "here"]],
        .sequence [word "based on ", someWord ["the", "this", "what", "context"]],
        .sequence
          [word "to ", someWord ["draft", "write", "reply", "respond", "summarize", "answer"]]],
      rt.boundary]

/-- `_REASONING_PREFIX_RE.match(p)` -/
def isReasoning (rt : Runtime) (paragraph : List Char) : Bool :=
  !((reasoningPrefix rt).ends ⟨none, paragraph⟩).isEmpty

/-- `_strip_reasoning_prose` -/
def stripReasoningProse (rt : Runtime) (text : List Char) : List Char :=
  if stripChars text = [] then text
  else
    let paragraphs := splitBlankLines 0 (stripChars text)
    if paragraphs.length ≤ 1 then text
    else if (paragraphs.takeWhile (isReasoning rt)).length = 0 then text
    else
      let keep := paragraphs.dropWhile (isReasoning rt)
      if keep ≠ [] then stripChars ("\n\n".toList.intercalate keep) else text

/-- `strip_think` -/
def stripThink (rt : Runtime) (prose promptEcho : Bool) (text : List Char) : List Char :=
  if text = [] then []
  else
    let text := normalizeThinkingMarkup text
    let text := gemmaThoughtChannelOpen.upTo text
    let text := (alone isThinkAttr).sub (fun _ => "<think>".toList) text
    let text := (alone isThinkAttrClose).sub (fun _ => "</think>".toList) text
    let out := (alone isThinkOpenTag).subDelimited (tagPattern isThinkCloseTag isSpace)
      (fun _ => []) text
    let out := (alone isThinkOpenTag).upTo out
    let out := (tagPattern isThinkTag isSpace).sub (fun _ => []) out
    let out := if promptEcho then dropEchoes out else out
    let out := if prose then stripReasoningProse rt out else out
    stripChars out

end Pandamonium.ThinkTags
