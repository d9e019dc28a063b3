import Pandamonium.Model.Json

/-!
# Results of actions

`build_action_result` of `src/action_protocol.py`: what a runner returned, in one form.
-/

set_option autoImplicit false

namespace Pandamonium.ActionResults

open Pandamonium.Json (dumps Format)

/-- `MAX_RESULT_BYTES` -/
def maxResultBytes : ℕ := 65536

/-- `MAX_SUMMARY_CHARS` -/
def maxSummaryChars : ℕ := 4000

/-- `_READ_ONLY` -/
def readOnlyNames : List String :=
  ["get_workspace", "inspect_network", "read_file", "grep", "glob", "ls", "web_search", "web_fetch",
    "get_runtime_status", "read_agent_task", "search_jarvis_knowledge", "read_calendar",
    "list_sessions", "search_chats", "list_email_accounts", "list_emails", "read_email",
    "manage_books"]

/-- `_EVIDENCE_KEYS` -/
def evidenceKeys : List String :=
  ["task_id", "worker", "workspace", "event_id", "artifact_id", "artifact_key", "document_id",
    "doc_id", "path", "research_session_id", "exit_code", "status"]

/-- `ACTION_STATUSES` -/
def actionStatuses : List String :=
  ["succeeded", "failed", "denied", "cancelled", "timed_out", "unknown"]

/-- `_json_size` -/
def jsonSize (v : Value) : ℕ := (dumps Format.compact v).utf8ByteSize

/-- Whether an entry is there and true. -/
def holds (result : Object) (key : String) : Bool := ((result.get? key).map Value.truthy).getD false

/-- `result.get(key) is False` -/
def isFalse (result : Object) (key : String) : Bool :=
  match result.get? key with
  | some (.bool b) => !b
  | _ => false

/-- `value in (None, 0)` -/
def isNoneOrZero : Value → Bool
  | .null => true
  | .bool b => !b
  | .int i => i == 0
  | .float repr => repr == "0.0" || repr == "-0.0"
  | _ => false

/-- `value in (None, "", [], {})` -/
def isBlank : Value → Bool
  | .null => true
  | .str s => s == ""
  | .list items => items.isEmpty
  | .dict items => items.isEmpty
  | _ => false

variable (rt : Runtime)

/-- `_status_for` -/
def statusFor (result : Object) : String :=
  let explicit := mapChars (fun x => if x = '-' then '_' else x) (rt.lower (result.text rt "status"))
  if explicit ∈ actionStatuses then explicit
  else if explicit ∈ ["timeout", "timedout"] || holds result "timed_out" then "timed_out"
  else if explicit ∈ ["canceled", "cancelled"] || holds result "cancelled" ||
    holds result "canceled" then "cancelled"
  else if explicit ∈ ["outcome_unknown", "indeterminate"] || holds result "outcome_unknown" then
    "unknown"
  else if holds result "blocked" || holds result "denied" then "denied"
  else if holds result "error" || isFalse result "success" || isFalse result "ok" then "failed"
  else if isNoneOrZero ((result.get? "exit_code").getD .null) then "succeeded"
  else "failed"

/-- The entries of a result under the evidence keys. -/
def evidenceValues (result : Object) : Object :=
  evidenceKeys.filterMap fun key => (result.get? key).map fun value => (key, value)

/-- `_bounded_structured` -/
def boundedStructured (value : Object) : Object :=
  if jsonSize (.dict value) ≤ maxResultBytes then value
  else
    ((evidenceValues value).set "truncated" (.bool true)).set "original_bytes"
      (.int (jsonSize (.dict value)))

/-- `text[:MAX_SUMMARY_CHARS]` -/
def clip (text : String) : String := String.ofList (text.toList.take maxSummaryChars)

/-- `status.replace("_", " ")` -/
def spacedStatus (status : String) : String :=
  mapChars (fun x => if x = '_' then ' ' else x) status

/-- `_summary` -/
def summary (result : Object) (status description : String) : String :=
  match ["summary", "error", "output", "stdout", "response", "content", "results"].findSome? fun key =>
    (result.get? key).filter fun value => !isBlank value with
  | some (.str s) => clip s
  | some value => clip (dumps Format.standard value)
  | none => clip (if description ≠ "" then description else spacedStatus status)

/-- The result of an action, in one form. -/
structure ActionResult where
  requestId : Value
  callId : Value
  status : String
  summary : String
  structured : Object
  evidence : Object
  startedAt : String
  finishedAt : String
  retrySafe : Bool
  error : Option (String × String)

/-- `dict(raw_result) if isinstance(raw_result, Mapping) else {"error": ...}` -/
def payloadOf : Value → Object
  | .dict items => items
  | _ => [("error", .str "Runner returned a non-object result")]

/-- Whether the action may be repeated. -/
def retrySafeFor (call result : Object) (status : String) : Bool :=
  if status ∈ ["succeeded", "denied", "cancelled", "unknown"] then false
  else
    match (result.get? "retry_safe").getD .null with
    | .null => status == "failed" && decide (call.text rt "name" ∈ readOnlyNames)
    | explicit => explicit.truthy

/-- The category and the detail of an error. -/
def errorFor (result : Object) (status : String) : Option (String × String) :=
  if status = "succeeded" then none
  else
    let detail :=
      if holds result "error" || holds result "detail" then
        result.firstText rt ["error", "detail"]
      else spacedStatus status
    some (status, clip detail)

/-- `build_action_result` -/
def buildActionResult (call : Object) (rawResult : Value)
    (startedAt finishedAt description : String) : ActionResult :=
  let result := payloadOf rawResult
  let status := statusFor rt result
  { requestId := (call.get? "request_id").getD .null
    callId := (call.get? "call_id").getD .null
    status
    summary := summary result status description
    structured := boundedStructured result
    evidence := [("kind", .str "native_result"), ("verified", .bool (status ≠ "unknown"))] ++
      evidenceValues result
    startedAt
    finishedAt
    retrySafe := retrySafeFor rt call result status
    error := errorFor rt result status }

end Pandamonium.ActionResults
