import Pandamonium.Library.Dict
import Pandamonium.Model.ActionEffect

/-!
# The external-agent bridge

What `ExternalAgentReadOnlyAdapter` sends and how it checks what comes back: the envelopes, the
checks of a payload's header, scope, error and capabilities, and the checks of an action's
arguments.  A check raises the code of an `ExternalAgentBridgeError`, or the `TypeError` of looking
a list or an object up in a set.
-/

set_option autoImplicit false

namespace Pandamonium.ExternalAgent

open Pandamonium.Library

/-- The codes of `ExternalAgentBridgeError`, and the one other exception of a check. -/
inductive Failure
  | malformedEnvelope
  | incompatibleProtocol
  | oversizedPayload
  | staleRequest
  | replayDetected
  | unauthorized
  | wrongOwner
  | wrongWorkspace
  | capabilityDisabled
  | pathEscape
  | symlinkEscape
  | rateLimited
  | timeout
  | sidecarUnavailable
  | internalError
  | credentialUnavailable
  | endpointPolicyRejected
  /-- `TypeError` -/
  | unhashable
  deriving DecidableEq, Repr

/-- `_STABLE_ERRORS` -/
def Failure.stable : String → Option Failure
  | "malformed_envelope" => some .malformedEnvelope
  | "incompatible_protocol" => some .incompatibleProtocol
  | "oversized_payload" => some .oversizedPayload
  | "stale_request" => some .staleRequest
  | "replay_detected" => some .replayDetected
  | "unauthorized" => some .unauthorized
  | "wrong_owner" => some .wrongOwner
  | "wrong_workspace" => some .wrongWorkspace
  | "capability_disabled" => some .capabilityDisabled
  | "path_escape" => some .pathEscape
  | "symlink_escape" => some .symlinkEscape
  | "rate_limited" => some .rateLimited
  | "timeout" => some .timeout
  | "sidecar_unavailable" => some .sidecarUnavailable
  | "internal_error" => some .internalError
  | _ => none

/-- `EXTERNAL_AGENT_PROTOCOL` -/
def protocol : String := "pandamonium.external-agent-sidecar.v1"

/-- `_MAX_COLLECTION` -/
def maxCollection : ℕ := 64

/-- `_MAX_DEPTH` -/
def maxDepth : ℕ := 16

/-- `_MAX_STRING` -/
def maxString : ℕ := 12000

/-- `_MAX_CLOCK_SKEW`, in microseconds. -/
def maxClockSkew : Int := 5 * 60 * 1000000

/-- `EXTERNAL_READ_CAPABILITIES` -/
def readCapabilities : List String :=
  ["agent.catalog", "task.catalog", "task.events", "task.transcript"]

/-! ## Patterns -/

/-- A first character and then so many others. -/
def matches' (first rest : Char → Bool) (least most : ℕ) (s : String) : Bool :=
  match s.toList with
  | [] => false
  | x :: xs => first x && decide (least ≤ xs.length ∧ xs.length ≤ most) && xs.all rest

def isLower (x : Char) : Bool := decide ('a' ≤ x ∧ x ≤ 'z')

def isAsciiAlnum (x : Char) : Bool :=
  decide (('a' ≤ x ∧ x ≤ 'z') ∨ ('A' ≤ x ∧ x ≤ 'Z') ∨ ('0' ≤ x ∧ x ≤ '9'))

/-- `_REFERENCE` -/
def isReference : String → Bool :=
  matches' isLower (fun x => isLower x || x.isDigit || "._:-".toList.contains x) 2 127

/-- `_REQUEST_ID` -/
def isRequestId : String → Bool :=
  matches' isAsciiAlnum (fun x => isAsciiAlnum x || "._:-".toList.contains x) 7 127

/-- `_CURSOR` -/
def isCursor : String → Bool :=
  matches' isAsciiAlnum (fun x => isAsciiAlnum x || "._~:-".toList.contains x) 0 1999

/-- `text.startswith(start)` -/
def startsWith (text start : String) : Bool := start.toList.isPrefixOf text.toList

/-- `text.startswith("task:") and _REFERENCE.fullmatch(text)` -/
def isTaskRef (text : String) : Bool := startsWith text "task:" && isReference text

/-- A character of a class in which `re.I` ignores the case. -/
def classI (rt : Runtime) (p : Char → Bool) (sample : List Char) : Regex :=
  .char fun x => p x || sample.any fun y => rt.sameIgnoringCase y x

/-- `r{n,}` -/
def atLeast (n : ℕ) (r : Regex) : Regex :=
  .sequence (List.replicate n r ++ [.star r])

def asciiLetters : List Char := "abcdefghijklmnopqrstuvwxyz".toList

/-- `[A-Za-z0-9...]` with `re.I`. -/
def wordClass (rt : Runtime) (others : String) : Regex :=
  classI rt (fun x => isAsciiAlnum x || others.toList.contains x) asciiLetters

/-- `\s` -/
def blank : Regex := .char isSpace

/-- `_SECRET_KEY` -/
def secretKey (rt : Runtime) : Regex :=
  .choice
    [rt.litI "token", rt.litI "secret", rt.litI "password", rt.litI "credential",
      rt.litI "authorization", rt.litI "auth_ref",
      .sequence [rt.litI "api", .opt (.set "_-"), rt.litI "key"],
      .sequence [rt.litI "private", .opt (.set "_-"), rt.litI "key"]]

/-- `_SECRET_VALUE` -/
def secretValue (rt : Runtime) : Regex :=
  .sequence
    [.wordBoundary rt.isWord,
      .choice
        [rt.litI "token", rt.litI "secret", rt.litI "password", rt.litI "authorization",
          .sequence [rt.litI "api", .opt (.set "_-"), rt.litI "key"]],
      .star blank, .set ":=", .star blank,
      .plus (.char fun x => !isSpace x && x != ',' && x != ';')]

/-- `_RAW_SECRET_VALUE` -/
def rawSecretValue (rt : Runtime) : Regex :=
  let alnum := fun x : Char => isAsciiAlnum x || asciiLetters.any fun y => rt.sameIgnoringCase y x
  .sequence
    [.look fun before _ => !(before.map alnum).getD false,
      .choice
        [.sequence [rt.litI "bearer", .plus blank, atLeast 8 (wordClass rt "._~+/=-")],
          .sequence [rt.litI "sk-", atLeast 8 (wordClass rt "_-")],
          .sequence [rt.litI "gh", classI rt (fun _ => false) "pousr".toList, .set "_",
            atLeast 8 (wordClass rt "_")],
          .sequence [rt.litI "xox", classI rt (fun _ => false) "baprs".toList, .set "-",
            atLeast 8 (wordClass rt "-")]],
      .look fun _ after => !(after.map alnum).getD false]

/-- `_ABSOLUTE_PATH` -/
def absolutePathPattern (rt : Runtime) : Regex :=
  .sequence
    [.look fun before _ => !(before.map rt.isWord).getD false,
      atLeast 2 (.sequence
        [.set "/", .plus (.char fun x => isAsciiAlnum x || "._~@+-".toList.contains x)])]

/-- `_WINDOWS_PATH` -/
def windowsPath (rt : Runtime) : Regex :=
  let plain : Regex := .plus (.char fun x => !isSpace x && x != '\\')
  .sequence
    [.wordBoundary rt.isWord, classI rt (fun _ => false) asciiLetters, .set ":", .set "\\",
      .star (.sequence [plain, .set "\\"]), plain]

/-- `_FORBIDDEN_ACTION_KEY` -/
def forbiddenActionKey (rt : Runtime) : Regex :=
  .sequence
    [.alt .start (.set "_"),
      .choice (["endpoint", "url", "host", "port", "path", "paths", "cwd", "directory", "root",
        "command", "shell", "auth", "auth_ref", "token", "secret", "password", "credential",
        "api_key", "private_key"].map rt.litI),
      .choice
        [.look fun _ after => after.isNone,
          .seq (.set "\n") (.look fun _ after => after.isNone), .set "_"]]

/-! ## Values -/

mutual

/-- `_validate_bounded_value` -/
def validateBoundedValue (depth : ℕ) : Value → Except Failure Unit
  | .str s => if depth ≤ maxDepth ∧ s.length ≤ maxString then .ok () else .error .malformedEnvelope
  | .list items =>
    if depth ≤ maxDepth ∧ items.length ≤ maxCollection then validateBoundedItems (depth + 1) items
    else .error .malformedEnvelope
  | .dict items =>
    if depth ≤ maxDepth ∧ items.length ≤ maxCollection then
      validateBoundedMembers (depth + 1) items
    else .error .malformedEnvelope
  | _ => if depth ≤ maxDepth then .ok () else .error .malformedEnvelope

def validateBoundedItems (depth : ℕ) : List Value → Except Failure Unit
  | [] => .ok ()
  | item :: items => do
    validateBoundedValue depth item
    validateBoundedItems depth items

def validateBoundedMembers (depth : ℕ) : List (String × Value) → Except Failure Unit
  | [] => .ok ()
  | (key, item) :: items =>
    if key = "" ∨ 100 < key.length then .error .malformedEnvelope
    else do
      validateBoundedValue depth item
      validateBoundedMembers depth items

end

mutual

/-- `visit` in `_validate_action_arguments`. -/
def visit (rt : Runtime) : Value → Except Failure Unit
  | .str s =>
    if s.toList.contains '\x00' || (absolutePathPattern rt).search s || (windowsPath rt).search s then
      .error .pathEscape
    else if (secretValue rt).search s || (rawSecretValue rt).search s then .error .unauthorized
    else .ok ()
  | .list items => visitItems rt items
  | .dict items => visitMembers rt items
  | _ => .ok ()

def visitItems (rt : Runtime) : List Value → Except Failure Unit
  | [] => .ok ()
  | item :: items => do
    visit rt item
    visitItems rt items

def visitMembers (rt : Runtime) : List (String × Value) → Except Failure Unit
  | [] => .ok ()
  | (key, item) :: items =>
    if (forbiddenActionKey rt).search key || (secretKey rt).search key then
      .error .malformedEnvelope
    else do
      visit rt item
      visitMembers rt items

end

/-- The argument names of an action. -/
def allowedArguments : String → Option (List String)
  | "task.start" => some ["prompt", "permission_mode"]
  | "task.steer" => some ["prompt"]
  | "task.reply" => some ["answers"]
  | "task.cancel" => some ["reason"]
  | "task.status.read" => some []
  | _ => none

/-- `set(d) == set(keys)` -/
def hasKeys (d : Object) (keys : List String) : Bool :=
  d.all (fun item => keys.contains item.1) && keys.all fun key => (d.get? key).isSome

/-- `isinstance(v, str) and v.strip()` -/
def isNonblank : Option Value → Bool
  | some (.str s) => strip s != ""
  | _ => false

def isText : Value → Bool
  | .str _ => true
  | _ => false

/-- An answer is a text or a nonempty list of texts. -/
def isAnswer : Value → Bool
  | .str _ => true
  | .list items => !items.isEmpty && items.all isText
  | _ => false

/-- The checks of `_validate_action_arguments` behind `visit`. -/
def argumentsFit (capability : String) (arguments : Object) : Bool :=
  if capability = "task.start" then
    isNonblank (arguments.get? "prompt") &&
      match arguments.get? "permission_mode" with
      | some (.str mode) => mode == "read_only" || mode == "workspace_write"
      | _ => false
  else if capability = "task.steer" then isNonblank (arguments.get? "prompt")
  else if capability = "task.reply" then
    match arguments.get? "answers" with
    | some (.dict answers) =>
      !answers.isEmpty && answers.all fun answer => answer.1 != "" && isAnswer answer.2
    | _ => false
  else true

/-- `_validate_action_arguments` -/
def validateActionArguments (rt : Runtime) (capability : String) (arguments : Object) :
    Except Failure Unit :=
  match allowedArguments capability with
  | none => .error .malformedEnvelope
  | some keys =>
    if hasKeys arguments keys then do
      validateBoundedValue 0 (.dict arguments)
      visit rt (.dict arguments)
      if argumentsFit capability arguments then .ok () else .error .malformedEnvelope
    else .error .malformedEnvelope

/-- `text.split()` -/
def words (cs : List Char) : List (List Char) :=
  (cs.foldr
    (fun x parts =>
      if isSpace x then [] :: parts
      else match parts with
        | [] => [[x]]
        | part :: parts => (x :: part) :: parts)
    [[]]).filter fun part => !part.isEmpty

/-- `_safe_text` -/
def safeText (rt : Runtime) (value : Value) : String :=
  let text := if value.truthy then value.text rt else ""
  let joined := (List.intersperse [' '] (words text.toList)).flatten.take maxString
  [secretValue rt, rawSecretValue rt, absolutePathPattern rt, windowsPath rt].foldl
    (fun text pattern => pattern.sub "[redacted]" text) (String.ofList joined)

mutual

/-- `_safe_value` -/
def safeValue (rt : Runtime) (depth : ℕ) : Value → Except Failure Value
  | .str s =>
    if depth ≤ maxDepth then .ok (.str (safeText rt (.str s))) else .error .malformedEnvelope
  | .list items =>
    if depth ≤ maxDepth ∧ items.length ≤ maxCollection then do
      let items ← safeItems rt (depth + 1) items
      .ok (.list items)
    else .error .malformedEnvelope
  | .dict items =>
    if depth ≤ maxDepth ∧ items.length ≤ maxCollection then do
      let items ← safeMembers rt (depth + 1) items
      .ok (.dict items)
    else .error .malformedEnvelope
  | value => if depth ≤ maxDepth then .ok value else .error .malformedEnvelope

def safeItems (rt : Runtime) (depth : ℕ) : List Value → Except Failure (List Value)
  | [] => .ok []
  | item :: items => do
    let item ← safeValue rt depth item
    let items ← safeItems rt depth items
    .ok (item :: items)

def safeMembers (rt : Runtime) (depth : ℕ) :
    List (String × Value) → Except Failure (List (String × Value))
  | [] => .ok []
  | (key, item) :: items =>
    if key = "" ∨ 100 < key.length ∨ (secretKey rt).search key then safeMembers rt depth items
    else do
      let item ← safeValue rt depth item
      let items ← safeMembers rt depth items
      .ok ((key, item) :: items)

end

end Pandamonium.ExternalAgent
