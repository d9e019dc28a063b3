import Pandamonium.Model.ActionEffect

/-!
# Screening of training content

`screen_content` refuses a text in which it finds a credential, and else removes addresses, phone
numbers and what looks like a secret, and says how many of each.
-/

set_option autoImplicit false

namespace Pandamonium.TrainingDatasets

open Pandamonium.Library

/-- What the interpreter provides. -/
structure Interpreter where
  runtime : Runtime
  /-- `\d` -/
  isDigit : Char → Bool
  /-- `hashlib.sha256(text.encode("utf-8")).hexdigest()` -/
  sha256 : String → String

structure TrainingDataError where
  code : String
  message : String
  statusCode : ℕ
  deriving DecidableEq, Repr

/-- `MAX_ITEM_CHARS` -/
def maxItemChars : ℕ := 64000

section Patterns

variable (it : Interpreter)

/-- A class of ASCII letters, digits and these characters. -/
def wordsAnd (upper lower digits : Bool) (chars : String) : Regex :=
  .char fun x =>
    (upper && decide ('A' ≤ x) && decide (x ≤ 'Z')) ||
      (lower && decide ('a' ≤ x) && decide (x ≤ 'z')) ||
      (digits && decide ('0' ≤ x) && decide (x ≤ '9')) || chars.toList.contains x

/-- `[A-Za-z0-9._~+/=-]` where the case is ignored. -/
def bearerClass : Regex :=
  .char fun x =>
    ("abcdefghijklmnopqrstuvwxyz0123456789._~+/=-".toList.any
      (it.runtime.sameIgnoringCase x))

/-- `\d` -/
def digit : Regex := .char it.isDigit

/-- `[^\s'\",;\x7d]` -/
def bareClass : Regex := .char fun x => !isSpace x && !"'\",;\x7d".toList.contains x

/-- `['\"]?` -/
def optQuote : Regex := .opt (.set "'\"")

/-- `_REJECT_PATTERNS` -/
def rejectPatterns : List (Regex × String) :=
  [(.sequence
      [.lit "-----BEGIN ", .star (wordsAnd true false false " "), .lit "PRIVATE KEY-----"],
    "private key block"),
    (.sequence
      [it.runtime.boundary, .lit "AKIA", .times 16 (wordsAnd true false true ""),
        it.runtime.boundary],
    "AWS access key"),
    (.sequence
      [it.runtime.boundary, .lit "gh", .set "pousr", .lit "_",
        .atLeast 20 (wordsAnd true true true "_"), it.runtime.boundary],
    "GitHub token"),
    (.sequence
      [it.runtime.boundary, .lit "xox", .set "baprs", .lit "-",
        .atLeast 12 (wordsAnd true true true "-"), it.runtime.boundary],
    "Slack token"),
    (.sequence
      [it.runtime.boundary,
        .choice
          [it.runtime.litI "password", it.runtime.litI "passwd", it.runtime.litI "pwd",
            it.runtime.litI "secret",
            .sequence [it.runtime.litI "api", .opt (.set "_-"), it.runtime.litI "key"],
            .sequence [it.runtime.litI "access", .opt (.set "_-"), it.runtime.litI "token"],
            .sequence [it.runtime.litI "refresh", .opt (.set "_-"), it.runtime.litI "token"],
            .sequence [it.runtime.litI "client", .opt (.set "_-"), it.runtime.litI "secret"]],
        it.runtime.boundary, spaces, .set ":=", spaces, optQuote, .atLeast 4 bareClass],
    "credential assignment"),
    (.sequence
      [it.runtime.boundary, it.runtime.litI "ssn", it.runtime.boundary, spaces, .opt (.set ":="),
        spaces, .times 3 (digit it), .lit "-", .times 2 (digit it), .lit "-",
        .times 4 (digit it)],
    "government ID number"),
    (.sequence
      [it.runtime.boundary, .times 4 (digit it), .set " -", .times 4 (digit it), .set " -",
        .times 4 (digit it), .set " -", .times 4 (digit it), it.runtime.boundary],
    "payment card number")]

/-- `_PII_REDACT_PATTERNS` -/
def piiRedactPatterns : List (Regex × String × String) :=
  [(.sequence
      [it.runtime.boundary, .plus (wordsAnd true true true "._%+-"), .lit "@",
        .plus (wordsAnd true true true ".-"), .lit ".", .atLeast 2 (wordsAnd true true false ""),
        it.runtime.boundary],
    "[email]", "email_addresses"),
    (.sequence
      [.opt (.sequence
          [.lit "+", digit it, .opt (digit it), .opt (digit it), .opt (.set " .-")]),
        .lit "(", .times 3 (digit it), .lit ")", .opt (.set " .-"), .times 3 (digit it),
        .opt (.set " .-"), .times 4 (digit it),
        .look fun _ after => !(after.map it.isDigit).getD false],
    "[phone]", "phone_numbers")]

/-- The groups of `_SECRET_TEXT_PATTERNS`, which are kept, and what follows them. -/
def secretTextPatterns : List (Regex × Regex) :=
  [(.sequence [it.runtime.boundary, it.runtime.litI "Bearer", someSpace],
      .atLeast 8 (bearerClass it)),
    (.epsilon, .sequence
      [it.runtime.boundary,
        .choice
          [.sequence [.lit "sk-", .atLeast 12 (wordsAnd true true true "_-")],
            .sequence
              [.lit "gh", .set "pousr", .lit "_", .atLeast 12 (wordsAnd true true true "_")],
            .sequence
              [.lit "xox", .set "baprs", .lit "-", .atLeast 12 (wordsAnd true true true "-")]],
        it.runtime.boundary]),
    (.sequence
      [it.runtime.boundary,
        .choice
          [.sequence [it.runtime.litI "api", .opt (.set "_-"), it.runtime.litI "key"],
            it.runtime.litI "token", it.runtime.litI "secret", it.runtime.litI "password",
            it.runtime.litI "credential"],
        spaces, .set ":=", spaces, optQuote],
      .atLeast 4 bareClass)]

end Patterns

/-- `redact_secret_text` -/
def redactSecretText (it : Interpreter) (value : String) : String :=
  (secretTextPatterns it).foldl
    (fun text pattern => ((Regex.seq pattern.1 pattern.2).replace
      (fun found => pattern.1.leading found ++ "[redacted]".toList) text).2)
    value

/-- What screening makes of a text. -/
inductive Screened
  | refused (reason : String)
  | cleaned (text : String) (redactions : List (String × ℕ))
  deriving DecidableEq, Repr

/-- One round of the loop over the patterns, on the text and the counts. -/
def redactPattern (s : String × List (String × ℕ)) (pattern : Regex × String × String) :
    String × List (String × ℕ) :=
  let replaced := pattern.1.replace (fun _ => pattern.2.1.toList) s.1
  (replaced.2, if replaced.1 = 0 then s.2 else s.2 ++ [(pattern.2.2, replaced.1)])

/-- `screen_content` -/
def screenContent (it : Interpreter) (value : String) : Except TrainingDataError Screened :=
  if strip value = "" then
    .error ⟨"empty_content", "The selected item has no text to review.", 400⟩
  else if maxItemChars < value.toList.length then
    .error
      ⟨"item_too_large",
        "The selected item is larger than the " ++ toString maxItemChars ++
          " character review limit.", 400⟩
  else
    match (rejectPatterns it).find? fun pattern => pattern.1.search value with
    | some pattern => .ok (.refused pattern.2)
    | none =>
      let cleaned := (piiRedactPatterns it).foldl redactPattern (value, [])
      let secretCleaned := redactSecretText it cleaned.1
      if secretCleaned ≠ cleaned.1 then
        .ok (.cleaned secretCleaned (cleaned.2 ++ [("secrets", 1)]))
      else .ok (.cleaned cleaned.1 cleaned.2)

/-- ASCII text, and texts that are their own digests. -/
def Interpreter.plain : Interpreter where
  runtime := Runtime.plain
  isDigit := Char.isDigit
  sha256 := id

end Pandamonium.TrainingDatasets
