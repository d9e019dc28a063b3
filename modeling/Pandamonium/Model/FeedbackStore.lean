import Pandamonium.Library.Calls

/-!
# Submitting a bug report

A submit request claims its key in the store, calls GitHub, and marks the key with what came of the
call.  The claim and the mark are each one step under the lock of the store, and nothing keeps the
requests apart between the two.  A claim that is pending is given again when it is ten minutes old.
Whether GitHub has created something is one thing, and what the client makes of the answer another.
-/

set_option autoImplicit false

namespace Pandamonium.Feedback

open Pandamonium.Library

inductive Status
  | pending | submitted | failed
  deriving DecidableEq, Repr

/-- A record of `submissions`; times are in seconds. -/
structure Record where
  status : Status
  draftId : String
  fingerprint : String
  claimedAt : ℕ
  issueUrl : String
  issueNumber : ℕ
  error : String
  deriving DecidableEq, Repr

/-- `{}` -/
def Record.blank : Record := ⟨.failed, "", "", 0, "", 0, ""⟩

/-- `_PENDING_TTL_SECONDS` -/
def pendingTtl : ℕ := 10 * 60

structure Store where
  submissions : Dict String Record
  /-- What was created on GitHub, an issue or a comment each: the key it was created for. -/
  posts : List String

/-- What `claim_submission` says. -/
inductive Claim
  | claimed | submitted | inProgress
  deriving DecidableEq, Repr

/-- What a claim of the record gives. -/
def claimState (record : Option Record) (now : ℕ) : Claim :=
  match record with
  | none => .claimed
  | some record =>
    if record.status = .submitted then .submitted
    else if record.status = .pending ∧ now < record.claimedAt + pendingTtl then .inProgress
    else .claimed

/-- `claim_submission`, where it gives the claim. -/
def claimed (key draftId fingerprint : String) (now : ℕ) (s : Store) : Store :=
  let record := (s.submissions.get? key).getD .blank
  let record := { record with status := .pending, claimedAt := now, draftId, fingerprint }
  { s with submissions := s.submissions.set key record }

/-- `mark_submitted` -/
def markSubmitted (key issueUrl : String) (issueNumber : ℕ) (s : Store) : Store :=
  let record := (s.submissions.get? key).getD .blank
  let record := { record with status := .submitted, issueUrl, issueNumber }
  { s with submissions := s.submissions.set key record }

/-- `mark_failed` -/
def markFailed (key error : String) (s : Store) : Store :=
  let record := (s.submissions.get? key).getD .blank
  let record := { record with
    status := .failed, error := String.ofList (error.toList.take 200) }
  { s with submissions := s.submissions.set key record }

/-! ## GitHub -/

/-- What of an answer's payload is read; a number or a text that is missing is 0 or empty. -/
structure Payload where
  number : ℕ
  htmlUrl : String
  deriving DecidableEq, Repr

/-- What comes of a request to GitHub. -/
inductive Answer
  /-- The token was not given, with the code of the error. -/
  | noToken (code : String)
  /-- The transport, or anything else, raises. -/
  | raised
  /-- A response, whose payload may be unreadable. -/
  | response (status : ℕ) (payload : Option Payload)
  deriving DecidableEq, Repr

/-- How a call of the client ends. -/
inductive Reply
  | issue (url : String) (number : ℕ)
  /-- A `GitHubIssuesError`, or a `FeedbackValidationError`. -/
  | error (code : String)
  /-- Another exception. -/
  | raised
  deriving DecidableEq, Repr

/-- `_error_for_status` -/
def errorForStatus (status : ℕ) : String :=
  if status = 401 then "github_auth_failed"
  else if status = 403 then "github_forbidden"
  else if status = 404 then "github_not_found"
  else if status = 422 then "github_rejected"
  else if status = 429 then "github_rate_limited"
  else if 500 ≤ status then "github_unavailable"
  else "github_error"

/-- `_request`, and what is made of the payload. -/
def request (answer : Answer) (read : Payload → Reply) : Reply :=
  match answer with
  | .noToken code => .error code
  | .raised => .raised
  | .response status payload =>
    if 400 ≤ status then .error (errorForStatus status)
    else
      match payload with
      | none => .error "github_bad_response"
      | some payload => read payload

/-- `create_issue` -/
def createIssue (answer : Answer) : Reply :=
  request answer fun payload =>
    if payload.number = 0 ∨ payload.htmlUrl = "" then .error "github_bad_response"
    else .issue payload.htmlUrl payload.number

/-- `add_issue_comment` -/
def addIssueComment (repo : String) (issueNumber : ℕ) (answer : Answer) : Reply :=
  if issueNumber = 0 then .error "invalid_issue"
  else request answer fun _ =>
    .issue ("https://github.com/" ++ repo ++ "/issues/" ++ toString issueNumber) issueNumber

/-! ## Requests -/

/-- `decision` -/
inductive Decision
  | new
  | existing (issueNumber : ℕ)
  deriving DecidableEq, Repr

/-- Where a call is. -/
inductive Frame
  | claims (key draftId fingerprint : String) (decision : Decision)
  /-- The key is claimed, and GitHub is called next. -/
  | posts (key : String) (decision : Decision)
  /-- Before the key is marked. -/
  | marksSubmitted (key issueUrl : String) (issueNumber : ℕ)
  | marksFailed (key error : String)
  deriving DecidableEq, Repr

inductive Occurrence
  | claims (now : ℕ)
  /-- The issue to comment on is not among the duplicates. -/
  | notFound
  /-- The call to GitHub: whether something was created, and the answer. -/
  | answers (created : Bool) (answer : Answer)
  /-- The mark is written. -/
  | marks
  /-- The step raises. -/
  | raises
  deriving DecidableEq, Repr

/-- Where the call goes on after GitHub. -/
def afterReply (key : String) : Reply → Option Frame
  | .issue url number => some (.marksSubmitted key url number)
  | .error code => some (.marksFailed key code)
  | .raised => none

/-- The decision's call of the client. -/
def Decision.reply (repo : String) (decision : Decision) (answer : Answer) : Reply :=
  match decision with
  | .new => createIssue answer
  | .existing issueNumber => addIssueComment repo issueNumber answer

/-- Whether the request that creates something is sent. -/
def Decision.sends : Decision → Answer → Bool
  | _, .noToken _ => false
  | .existing issueNumber, _ => decide (issueNumber ≠ 0)
  | .new, _ => true

/-- `feedback_submit` -/
def advance (repo : String) (s : Store) : Frame → Occurrence → Option (Store × Option Frame)
  | .claims key draftId fingerprint decision, .claims now =>
    match claimState (s.submissions.get? key) now with
    | .claimed => some (claimed key draftId fingerprint now s, some (.posts key decision))
    | .submitted => some (s, none)
    | .inProgress => some (s, none)
  | .posts key (.existing _), .notFound => some (s, some (.marksFailed key "duplicate_not_found"))
  | .posts key decision, .answers created answer =>
    some (if created && decision.sends answer then { s with posts := key :: s.posts } else s,
      afterReply key (decision.reply repo answer))
  | .posts _ _, .raises => some (s, none)
  | .marksSubmitted key issueUrl issueNumber, .marks =>
    some (markSubmitted key issueUrl issueNumber s, none)
  | .marksFailed key error, .marks => some (markFailed key error s, none)
  | .marksSubmitted _ _ _, .raises => some (s, none)
  | .marksFailed _ _, .raises => some (s, none)
  | _, _ => none

/-- The calls begin with their claim. -/
def Frame.entry : Frame → Bool
  | .claims _ _ _ _ => true
  | _ => false

/-- The submit requests, for a repository. -/
def service (repo : String) : Service Store Frame Occurrence where
  entry := Frame.entry
  advance := advance repo

/-- The store is new. -/
def new (s : Store) : Prop := s = ⟨Dict.empty, []⟩

end Pandamonium.Feedback
