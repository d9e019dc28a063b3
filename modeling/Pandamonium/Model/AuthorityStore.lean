import Pandamonium.Library.Dict
import Pandamonium.Model.ActionEffect

/-!
# The authority store

`AuthorityStore` of `authority_protocol.py`: decisions and receipts in two insertion-ordered
tables of one persisted document, and the executable calls that wait for an approval in a
table of the process.  Each function here is the body of one section under the store's
lock, from the state it reads to the state it writes; `decide` is three pieces, because it
takes the lock twice.  Times are in microseconds, as `datetime` has them, and the texts the
source compares sort as the times do.
-/

set_option autoImplicit false

namespace Pandamonium

open Pandamonium.Library

abbrev Time := ℕ

/-- `timedelta(minutes=10)` -/
def tenMinutes : Time := 600 * 1000000

inductive AccessMode
  | askForApproval
  | approveForMe
  | fullAccess
  deriving DecidableEq, Repr

/-- What the process reads from its machine and its settings. -/
structure Machine where
  /-- `socket.gethostname()` -/
  hostname : String
  /-- `getpass.getuser()` -/
  username : String
  /-- `configured_agent_id()` -/
  configuredAgentId : String
  /-- The access mode in a user's preferences, `none` where they cannot be read. -/
  storedAccessMode : String → Option String

/-- `access_mode_for` -/
def accessModeFor (machine : Machine) (operator : String) : AccessMode :=
  let identity := strip operator
  if identity = "" then .askForApproval
  else match machine.storedAccessMode identity with
    | some "approve_for_me" => .approveForMe
    | some "full_access" => .fullAccess
    | _ => .askForApproval

/-- `_APPROVE_FOR_ME_SAFE_EFFECTS` -/
def ActionEffect.approveForMeSafe : ActionEffect → Bool
  | .read | .reversibleWrite | .externalPublicationOrCommunication
  | .outsideWorkspaceBoundary => true
  | _ => false

/-- `_PUBLIC_READS` -/
def publicReads : List String := ["web_search", "web_fetch", "get_runtime_status"]

/-- A decision's `decision` field. -/
inductive Verdict
  | allow
  | deny
  | approvalRequired
  deriving DecidableEq, Repr

/-- A decision's `status` field, absent until it is resolved or found expired. -/
inductive DecisionStatus
  | unset
  | resolved
  | expired
  deriving DecidableEq, Repr

inductive Choice
  | approve
  | deny
  deriving DecidableEq, Repr

def Choice.ofText : String → Option Choice
  | "approve" => some .approve
  | "deny" => some .deny
  | _ => none

inductive Scope
  | once
  | session
  | timeBounded
  | persistent
  deriving DecidableEq, Repr

/-- The members of `APPROVAL_SCOPES`. -/
def Scope.ofText : String → Option Scope
  | "once" => some .once
  | "session" => some .session
  | "time_bounded" => some .timeBounded
  | "persistent" => some .persistent
  | _ => none

def Scope.text : Scope → String
  | .once => "once"
  | .session => "session"
  | .timeBounded => "time_bounded"
  | .persistent => "persistent"

inductive ReceiptStatus
  | active
  | expired
  | consumed
  | revoked
  deriving DecidableEq, Repr

/-- What `_runtime_binding` returns. -/
structure Binding where
  host : String
  user : String
  workspace : Option String
  deriving DecidableEq

/-- The fields of a persisted decision that the store reads or returns to be acted on. -/
structure Decision where
  decisionId : String
  operatorId : Option String
  agentId : String
  sessionId : Option String
  requestId : String
  argumentFingerprint : String
  actionEffect : Option ActionEffect
  gateReason : Option ActionEffect
  permissionMode : String
  accessMode : AccessMode
  decision : Verdict
  policyBasis : String
  receiptId : Option String
  approvalDecisionId : Option String
  execution : Binding
  createdAt : Time
  expiresAt : Time
  status : DecisionStatus
  resolvedAt : Option Time

/-- The fields of a persisted receipt that the store reads. -/
structure Receipt where
  receiptId : String
  decisionId : String
  operatorId : String
  agentId : String
  sessionId : Option String
  requestId : String
  argumentFingerprint : String
  actionEffect : Option ActionEffect
  execution : Binding
  decision : Choice
  scope : Scope
  status : ReceiptStatus
  issuedAt : Time
  expiresAt : Option Time

/-- An entry of `_pending_actions`. -/
structure PendingAction where
  decisionId : String
  call : ActionCall
  binding : Binding

structure Store where
  decisions : Dict String Decision
  receipts : Dict String Receipt
  pendingActions : Dict String PendingAction

def Store.empty : Store := ⟨.empty, .empty, .empty⟩

/-- What the store's methods raise, and the errors they put in a reply. -/
inductive AuthorityError
  | decisionNotFound
  | decisionNotPending
  | decisionExpired
  | decisionAlreadyResolved
  | invalidChoice
  | invalidScope
  | executionContextUnavailable
  | executionContextChanged
  | receiptNotFound
  deriving DecidableEq, Repr

def AuthorityError.text : AuthorityError → String
  | .decisionNotFound => "authority_decision_not_found"
  | .decisionNotPending => "authority_decision_not_pending"
  | .decisionExpired => "authority_decision_expired"
  | .decisionAlreadyResolved => "authority_decision_already_resolved"
  | .invalidChoice => "invalid_authority_choice"
  | .invalidScope => "invalid_authority_scope"
  | .executionContextUnavailable => "authority_execution_context_unavailable"
  | .executionContextChanged => "authority_execution_context_changed"
  | .receiptNotFound => "authority_receipt_not_found"

/-- The errors of `resolve` that a reply reports as stale. -/
def AuthorityError.isStale : AuthorityError → Bool
  | .executionContextUnavailable | .executionContextChanged | .decisionExpired => true
  | _ => false

/-! ## Small pieces -/

/-- `_runtime_binding` -/
def runtimeBinding (machine : Machine) (configuredWorkspace : Option String) : Binding where
  host := machine.hostname
  user := machine.username
  workspace :=
    let workspace := strip (configuredWorkspace.getD "")
    if workspace = "" then none else some workspace

/-- `_binding_matches` -/
def bindingMatches (left right : Binding) : Bool :=
  left.host == right.host && left.user == right.user

/-- `str(decision.get("session_id") or "")` -/
def Decision.session (d : Decision) : String := d.sessionId.getD ""

/-- An `approval_required` decision that is neither resolved nor marked expired. -/
def Decision.isOpen (d : Decision) : Bool :=
  decide (d.decision = .approvalRequired) && decide (d.status = .unset)

/-- `isOpen`, for an operator's session. -/
def Decision.isOpenFor (operatorId sessionId : String) (d : Decision) : Bool :=
  d.isOpen && decide (d.operatorId = some operatorId) && decide (d.session = sessionId)

/-- Mark a decision as expired when it is one of those looked at and its time has come. -/
def Decision.expireIf (looked : Decision → Bool) (now : Time) (d : Decision) : Decision :=
  if looked d && decide (d.expiresAt ≤ now) then { d with status := .expired } else d

/-- Whether a receipt has an expiry and it has come. -/
def Receipt.isPast (now : Time) (r : Receipt) : Bool :=
  match r.expiresAt with
  | none => false
  | some expires => decide (expires ≤ now)

/-- The expiry scan of `_matching_receipt`, on one receipt. -/
def Receipt.expireIf (now : Time) (r : Receipt) : Receipt :=
  if r.status = .active && r.isPast now then { r with status := .expired } else r

/-- Mark the decision stored under an id as expired. -/
def Store.markExpired (s : Store) (decisionId : String) (d : Decision) : Store :=
  { s with decisions := s.decisions.set decisionId { d with status := .expired } }

/-- `_active_pending`, with the decisions it found expired written back. -/
def activePending (s : Store) (operatorId sessionId : String) (now : Time) :
    Store × List Decision :=
  let looked := Decision.isOpenFor operatorId sessionId
  let s := { s with decisions := s.decisions.mapValues (Decision.expireIf looked now) }
  (s, (s.decisions.values.filter looked).insertionSort fun a b => a.createdAt ≤ b.createdAt)

/-! ## `decide` -/

/-- The arguments of a `decide` call. -/
structure Request where
  call : ActionCall
  operatorId : Option String
  sessionId : Option String
  disabledReason : Option String
  nativeApprovalGate : Bool
  configuredWorkspace : Option String

/-- `classified_call` -/
def Request.classifiedCall (req : Request) : ActionCall :=
  match req.configuredWorkspace with
  | none => req.call
  | some workspace =>
    if workspace = "" then req.call
    else
      { req.call with
        capabilityPolicy :=
          Dict.assign "configured_workspace" (.str workspace) req.call.capabilityPolicy }

/-- The locals of a `decide` call, once it has read the clock, the settings and the call. -/
structure Intake where
  now : Time
  operator : String
  agentId : String
  session : String
  requestId : String
  accessMode : AccessMode
  effect : Option ActionEffect
  mode : String
  fingerprint : String
  decisionId : String

def intake (rt : Runtime) (machine : Machine) (now : Time) (req : Request) (decisionId : String) :
    Intake :=
  let operator := strip (req.operatorId.getD "")
  { now := now
    operator := operator
    agentId := if req.call.agentId = "" then machine.configuredAgentId else req.call.agentId
    session := req.sessionId.getD ""
    requestId := req.call.requestId
    accessMode := accessModeFor machine operator
    effect := actionEffectFor rt req.classifiedCall
    mode := permissionModeFor rt req.call
    fingerprint := rt.sha256 req.call.name req.call.target req.call.arguments
    decisionId := decisionId }

/-- The verdict and basis of a call that does not reach the approval gate. -/
def ungatedVerdict (req : Request) (i : Intake) : Option (Verdict × String) :=
  if i.operator = "" ∧ i.effect = some .read ∧ req.call.name ∈ publicReads then
    some (.allow, "public_non_owner_read")
  else if i.operator = "" then some (.deny, "authenticated_operator_required")
  else if req.disabledReason.getD "" ≠ "" then some (.deny, req.disabledReason.getD "")
  else match i.effect with
    | none => some (.deny, "unclassified_capability")
    | some effect =>
      if i.accessMode = .fullAccess then some (.allow, "access_mode:full_access")
      else if i.accessMode = .approveForMe ∧ effect.approveForMeSafe then
        some (.allow, "access_mode:approve_for_me")
      else if effect = .read then some (.allow, "owner_scoped_read")
      else if req.nativeApprovalGate then some (.allow, "native_staged_approval")
      else if effect = .reversibleWrite then some (.allow, "authenticated_explicit_request")
      else none

/-- The conditions of `_matching_receipt` on a receipt that the expiry scan left active. -/
def Receipt.matches (i : Intake) (binding : Binding) (r : Receipt) : Bool :=
  decide (r.status = .active) && decide (r.operatorId = i.operator) &&
    decide (r.agentId = i.agentId) && decide (r.argumentFingerprint = i.fingerprint) &&
    decide (r.actionEffect = i.effect) && bindingMatches r.execution binding &&
    decide (r.execution.workspace.getD "" = binding.workspace.getD "") &&
    !(decide (r.decision = .deny) && decide (r.requestId ≠ i.requestId)) &&
    !(decide (r.scope = .session) && decide (r.sessionId ≠ some i.session))

/-- `_matching_receipt`: the expired receipts are marked, and the newest match is returned. -/
def matchingReceipt (s : Store) (i : Intake) (binding : Binding) : Store × Option Receipt :=
  let s := { s with receipts := s.receipts.mapValues (Receipt.expireIf i.now) }
  (s, firstMax Receipt.issuedAt (s.receipts.values.filter (Receipt.matches i binding)))

/-- How the locked check of `decide` goes on. -/
inductive Check
  /-- It returns the pending decision for the same call. -/
  | returned (row : Decision)
  | decided (verdict : Verdict) (basis : String) (receipt : Option Receipt)

/-- `decide` under its first lock. -/
def decideCheck (s : Store) (i : Intake) (binding : Binding) : Store × Check :=
  match matchingReceipt s i binding with
  | (s, some receipt) =>
    match receipt.decision with
    | .deny => (s, .decided .deny "denial_receipt" (some receipt))
    | .approve =>
      let s := { s with pendingActions := s.pendingActions.erase receipt.decisionId }
      let s :=
        if receipt.scope = .once then
          { s with receipts := s.receipts.set receipt.receiptId { receipt with status := .consumed } }
        else s
      (s, .decided .allow ("approval_receipt:" ++ receipt.scope.text) (some receipt))
  | (s, none) =>
    match activePending s i.operator i.session i.now with
    | (s, active) =>
      match active.find? fun row => decide (row.argumentFingerprint = i.fingerprint) with
      | some row => (s, .returned row)
      | none =>
        if active = [] then (s, .decided .approvalRequired "exact_operator_approval" none)
        else (s, .decided .deny "authority_decision_already_pending" none)

/-- `record` in `decide` -/
def decisionRecord (i : Intake) (binding : Binding) (verdict : Verdict) (basis : String)
    (receipt : Option Receipt) : Decision where
  decisionId := i.decisionId
  operatorId := if i.operator = "" then none else some i.operator
  agentId := i.agentId
  sessionId := if i.session = "" then none else some i.session
  requestId := i.requestId
  argumentFingerprint := i.fingerprint
  actionEffect := i.effect
  gateReason := i.effect.filter ActionEffect.separateGate
  permissionMode := i.mode
  accessMode := i.accessMode
  decision := verdict
  policyBasis := basis
  receiptId := receipt.map Receipt.receiptId
  approvalDecisionId := receipt.map Receipt.decisionId
  execution := binding
  createdAt := i.now
  expiresAt := i.now + tenMinutes
  status := .unset
  resolvedAt := none

/-- `decide` under its second lock. -/
def decideRecord (s : Store) (req : Request) (record : Decision) : Store :=
  { s with
    decisions := s.decisions.set record.decisionId record
    pendingActions :=
      if record.decision = .approvalRequired then
        s.pendingActions.set record.decisionId
          { decisionId := record.decisionId, call := req.call, binding := record.execution }
      else s.pendingActions }

/-- `decide` with nothing else running: the decision it returns and the state after it. -/
def decideCall (rt : Runtime) (machine : Machine) (s : Store) (now : Time) (req : Request)
    (decisionId : String) : Store × Decision :=
  let i := intake rt machine now req decisionId
  let binding := runtimeBinding machine req.configuredWorkspace
  let outcome := match ungatedVerdict req i with
    | some (verdict, basis) => (s, Check.decided verdict basis none)
    | none => decideCheck s i binding
  match outcome with
  | (s, .returned row) => (s, row)
  | (s, .decided verdict basis receipt) =>
    let record := decisionRecord i binding verdict basis receipt
    (decideRecord s req record, record)

/-! ## `resolve` and `revoke` -/

/-- The part of `resolve` that an approval must pass: the error and the state it leaves. -/
def approvalRefused (machine : Machine) (s : Store) (decisionId : String) (d : Decision) :
    Option (Store × AuthorityError) :=
  match s.pendingActions.get? decisionId with
  | none => some (s.markExpired decisionId d, .executionContextUnavailable)
  | some pending =>
    if pending.binding.host = machine.hostname ∧ pending.binding.user = machine.username then none
    else
      let s := { s with pendingActions := s.pendingActions.erase decisionId }
      some (s.markExpired decisionId d, .executionContextChanged)

/-- `receipt` in `resolve` -/
def receiptFor (decisionId : String) (d : Decision) (operatorId receiptId : String)
    (choice : Choice) (scope : Scope) (now : Time) (ttlSeconds : Int) : Receipt where
  receiptId := receiptId
  decisionId := decisionId
  operatorId := operatorId
  agentId := d.agentId
  sessionId := d.sessionId
  requestId := d.requestId
  argumentFingerprint := d.argumentFingerprint
  actionEffect := d.actionEffect
  execution := d.execution
  decision := choice
  scope := scope
  status := .active
  issuedAt := now
  expiresAt :=
    if scope = .timeBounded then some (now + (min (max ttlSeconds 1) 86400).toNat * 1000000)
    else none

/-- The end of `resolve`: the decision is resolved by a new receipt. -/
def settle (s : Store) (d : Decision) (receipt : Receipt) : Store where
  decisions := s.decisions.set receipt.decisionId
    { d with
      status := .resolved
      resolvedAt := some receipt.issuedAt
      receiptId := some receipt.receiptId }
  receipts := s.receipts.set receipt.receiptId receipt
  pendingActions :=
    if receipt.decision = .deny then s.pendingActions.erase receipt.decisionId
    else s.pendingActions

/-- `resolve` -/
def resolve (machine : Machine) (s : Store) (now : Time) (receiptId decisionId operatorId : String)
    (choice scope : String) (ttlSeconds : Int) : Store × Except AuthorityError Receipt :=
  match s.decisions.get? decisionId with
  | none => (s, .error .decisionNotFound)
  | some d =>
    if d.operatorId ≠ some operatorId then (s, .error .decisionNotFound)
    else if !d.isOpen then (s, .error .decisionNotPending)
    else if d.expiresAt ≤ now then (s.markExpired decisionId d, .error .decisionExpired)
    else match Choice.ofText choice with
      | none => (s, .error .invalidChoice)
      | some choice =>
        match Scope.ofText scope with
        | none => (s, .error .invalidScope)
        | some scope =>
          match (if choice = .approve then approvalRefused machine s decisionId d else none) with
          | some (s, err) => (s, .error err)
          | none =>
            let receipt := receiptFor decisionId d operatorId receiptId choice scope now ttlSeconds
            (settle s d receipt, .ok receipt)

/-- `revoke` -/
def revoke (s : Store) (receiptId operatorId : String) : Store × Except AuthorityError Receipt :=
  match s.receipts.get? receiptId with
  | none => (s, .error .receiptNotFound)
  | some r =>
    if r.operatorId ≠ operatorId then (s, .error .receiptNotFound)
    else
      let revoked := { r with status := .revoked }
      ({ s with receipts := s.receipts.set receiptId revoked }, .ok revoked)

/-- `list_state` -/
def listState (s : Store) (now : Time) (operatorId : String) :
    Store × List Decision × List Receipt :=
  let s := { s with decisions := s.decisions.mapValues (Decision.expireIf Decision.isOpen now) }
  (s, s.decisions.values.filter fun d => decide (d.operatorId = some operatorId),
    s.receipts.values.filter fun r => decide (r.operatorId = operatorId))

/-! ## Replies -/

/-- The `choice` of a reply. -/
inductive ReplyChoice
  | made (choice : String)
  | stale
  | repeated
  deriving DecidableEq

/-- What `resolve_natural_reply` and `resolve_explicit_reply` return. -/
structure Reply where
  choice : ReplyChoice
  decision : Decision
  receipt : Option Receipt
  error : Option AuthorityError
  pendingAction : Option PendingAction

/-- `NATURAL_APPROVAL_REPLIES` -/
def naturalApprovalReplies : String → Option Choice
  | "yes" | "yeah" | "yep" | "approved" | "approve" | "go ahead" | "do it" | "proceed" =>
    some .approve
  | "no" | "nope" | "deny" | "denied" | "cancel" | "stop" => some .deny
  | _ => none

/-- `text.split()` for texts of lower-case letters and spaces. -/
def words : List Char → List (List Char) :=
  fun text => (text.foldr
    (fun x parts =>
      if x = ' ' then [] :: parts
      else match parts with
        | [] => [[x]]
        | part :: parts => (x :: part) :: parts)
    [[]]).filter fun part => !part.isEmpty

/-- `" ".join(re.sub(r"[^a-z ]", " ", text.lower()).split())` -/
def plainReply (rt : Runtime) (text : String) : String :=
  " ".intercalate <|
    (words ((rt.lower text).toList.map fun x => if 'a' ≤ x ∧ x ≤ 'z' then x else ' ')).map
      String.ofList

/-- Drop a leading `"please "`. -/
def dropLeadingPlease (value : List Char) : List Char :=
  if "please ".toList.isPrefixOf value then value.drop 7 else value

/-- Drop a trailing `" please"`. -/
def dropTrailingPlease (value : List Char) : List Char :=
  if " please".toList.isSuffixOf value then value.take (value.length - 7) else value

/-- `natural_approval_choice` -/
def naturalApprovalChoice (rt : Runtime) (text : String) : Option Choice :=
  naturalApprovalReplies <|
    String.ofList (dropTrailingPlease (dropLeadingPlease (plainReply rt text).toList))

/-- A choice as `resolve` receives it. -/
def Choice.text : Choice → String
  | .approve => "approve"
  | .deny => "deny"

/-- The approval that `_resumable_approval` looks for on one decision. -/
def resumableReceipt (s : Store) (operatorId sessionId : String) (now : Time) (d : Decision) :
    Option (Decision × Receipt × PendingAction) :=
  if d.operatorId = some operatorId ∧ d.session = sessionId ∧ d.status = .resolved then
    match s.receipts.get? (d.receiptId.getD ""), s.pendingActions.get? d.decisionId with
    | some r, some pending =>
      if r.decision = .approve ∧ r.status = .active ∧ r.isPast now = false then
        some (d, r, pending)
      else none
    | _, _ => none
  else none

/-- `_resumable_approval` -/
def resumableApproval (s : Store) (operatorId sessionId : String) (now : Time) :
    Option (Decision × Receipt × PendingAction) :=
  match s.decisions.values.filterMap (resumableReceipt s operatorId sessionId now) with
  | [found] => some found
  | _ => none

/-- Whether a decision counts as just resolved when an approval is repeated. -/
def recentlyResolved (operatorId sessionId : String) (now : Time) (d : Decision) : Bool :=
  decide (d.operatorId = some operatorId) && decide (d.session = sessionId) &&
    decide (d.status = .resolved) && decide (d.decision = .approvalRequired) &&
    match d.resolvedAt with
    | none => false
    | some resolvedAt => decide (now - resolvedAt ≤ tenMinutes)

/-- The reply to an approval when nothing is pending: an approval that was not used yet, or
one repeated in so many words. -/
def replyWithoutPending (rt : Runtime) (s : Store) (now : Time) (text operatorId sessionId : String) :
    Option Reply :=
  match resumableApproval s operatorId sessionId now with
  | some (d, r, pending) => some ⟨.made "approve", d, some r, none, some pending⟩
  | none =>
    let recent :=
      if plainReply rt text ∈ ["approve", "approved"] then
        s.decisions.values.filter (recentlyResolved operatorId sessionId now)
      else []
    (firstMax (fun d => d.resolvedAt.getD 0) recent).map fun d =>
      ⟨.repeated, d, none, some .decisionAlreadyResolved, none⟩

/-- Report what `resolve` did about a decision, or let its error through. -/
def replyOf (s : Store) (d : Decision) (choice : String) (pending : Option PendingAction) :
    Except AuthorityError Receipt → Store × Except AuthorityError (Option Reply)
  | .ok r => (s, .ok (some ⟨.made choice, d, some r, none, pending⟩))
  | .error err =>
    if err.isStale then (s, .ok (some ⟨.stale, d, none, some err, none⟩)) else (s, .error err)

/-- `resolve_natural_reply`.  The method reads the clock again after its scan for pending
decisions, at `later`. -/
def resolveNaturalReply (rt : Runtime) (machine : Machine) (s : Store) (now later : Time)
    (receiptId text operatorId sessionId : String) :
    Store × Except AuthorityError (Option Reply) :=
  match naturalApprovalChoice rt text with
  | none => (s, .ok none)
  | some choice =>
    match activePending s operatorId sessionId now with
    | (s, active) =>
      match active with
      | [d] =>
        match resolve machine s later receiptId d.decisionId operatorId choice.text "once" 900 with
        | (s, outcome) => replyOf s d choice.text (s.pendingActions.get? d.decisionId) outcome
      | [] =>
        if choice = .approve then
          (s, .ok (replyWithoutPending rt s later text operatorId sessionId))
        else (s, .ok none)
      | _ => (s, .ok none)

/-- `resolve_explicit_reply`, which reads the clock again in `resolve`, at `later`. -/
def resolveExplicitReply (machine : Machine) (s : Store) (now later : Time)
    (receiptId decisionId operatorId sessionId choice scope : String) :
    Store × Except AuthorityError (Option Reply) :=
  match s.decisions.get? decisionId with
  | none => (s, .error .decisionNotFound)
  | some d =>
    if d.operatorId ≠ some operatorId ∨ d.session ≠ sessionId then (s, .error .decisionNotFound)
    else if d.status = .resolved then
      (s, .ok (some ⟨.repeated, d, none, some .decisionAlreadyResolved, none⟩))
    else if d.status = .expired ∨ d.expiresAt ≤ now then
      (s.markExpired decisionId d,
        .ok (some ⟨.stale, { d with status := .expired }, none, some .decisionExpired, none⟩))
    else if d.decision ≠ .approvalRequired then
      (s, .ok (some ⟨.stale, d, none, some .decisionNotPending, none⟩))
    else
      let pending := s.pendingActions.get? decisionId
      match resolve machine s later receiptId decisionId operatorId choice scope 900 with
      | (s, outcome) =>
        replyOf s d choice (if choice = "approve" then pending else none) outcome

end Pandamonium
