import Pandamonium.Model.ExternalAgent

/-!
# The external-agent adapter

The state of `ExternalAgentReadOnlyAdapter` and what its methods compute between two suspension
points: the envelope a request is sent in, the checks of the answer, the capabilities a sidecar
declares, the authorization of an action and its fingerprint.  Whoever checks a header adds the
message to the ones seen, also when a later check fails, so the checks return the messages seen
beside their outcome.
-/

set_option autoImplicit false

namespace Pandamonium.ExternalAgent

open Pandamonium.Library

/-- The connection, and the functions of the interpreter. -/
structure Bridge where
  rt : Runtime
  /-- `hashlib.sha256(text.encode("utf-8")).hexdigest()` -/
  sha256 : String → String
  /-- The same of `json.dumps(d, sort_keys=True, separators=(",", ":"))`. -/
  digest : Object → String
  /-- The moment a text with an offset stands for, in microseconds. -/
  fromisoformat : String → Option Int
  /-- `_timestamp` -/
  timestamp : Int → String
  worker : String
  endpoint : String
  authRef : String
  networkPolicy : String
  configuredWorkspaces : List String
  configuredCapabilities : Dict String ActionEffect
  /-- In microseconds. -/
  timeout : Int

/-- `_ACTION_EFFECTS` -/
def effectText : ActionEffect → String
  | .read => "read"
  | .reversibleWrite => "reversible_write"
  | .destructiveOrDifficultToRecover => "destructive_or_difficult_to_recover"
  | .externalPublicationOrCommunication => "external_publication_or_communication"
  | .purchase => "purchase"
  | .credentialOrAuthChange => "credential_or_auth_change"
  | .privilegeExpansion => "privilege_expansion"
  | .outsideWorkspaceBoundary => "outside_workspace_boundary"

/-! ## References and digests -/

variable (b : Bridge)

/-- `_scoped_ref` -/
def scopedRef (kind value : String) : String :=
  kind ++ ":" ++ mapChars (fun x => if x = '_' then '-' else x) (b.rt.lower value)

/-- `_owner_ref` -/
def ownerRef (owner : String) : String :=
  "owner:o" ++ String.ofList ((b.sha256 (strip owner)).toList.take 32)

/-- `_stable_wire_id` of a nonempty text. -/
def stableWireId (kind value : String) : String := kind ++ ":" ++ b.sha256 value

def connectionRef : String := scopedRef b "connection" b.worker

def workerRef : String := scopedRef b "worker" b.worker

def connectionVersion : String :=
  b.digest
    [("endpoint", .str b.endpoint), ("auth_ref", .str b.authRef),
      ("network_policy", .str b.networkPolicy),
      ("workspaces", .list (b.configuredWorkspaces.map .str)),
      ("capabilities",
        .dict (b.configuredCapabilities.items.map fun e => (e.1, .str (effectText e.2))))]

/-! ## Envelopes -/

structure Scope where
  ownerRef : String
  connectionId : String
  workerRef : String
  workspaceAlias : String
  deriving DecidableEq, Repr

/-- `_scope` -/
def scope (owner workspace : String) : Except Failure Scope :=
  if workspace ∉ b.configuredWorkspaces then .error .wrongWorkspace
  else if strip owner = "" then .error .wrongOwner
  else .ok
    { ownerRef := ownerRef b owner
      connectionId := connectionRef b
      workerRef := workerRef b
      workspaceAlias := workspace }

/-- What an envelope asks for. -/
inductive Message
  | request (expiresAt nonce capability effect : String) (arguments : Object)
    (taskRef : Option String)
  | cancel (taskRef targetRequestId reason : String)

structure Request where
  messageId : String
  requestId : String
  issuedAt : String
  scope : Scope
  message : Message

/-- The time, and the identifiers that `uuid4` draws. -/
structure Drawn where
  now : Int
  message : String
  request : String
  nonce : String
  deriving DecidableEq, Repr

/-- `_request_envelope` -/
def requestEnvelope (drawn : Drawn) (capability owner workspace : String) (arguments : Object)
    (effect : ActionEffect) (taskRef stableId : Option String) : Except Failure Request :=
  if (b.configuredCapabilities.get? capability).isNone ∧ capability ≠ "capabilities.read" then
    .error .capabilityDisabled
  else do
    let scope ← scope b owner workspace
    .ok
      { messageId := "message:" ++ drawn.message
        requestId := match stableId with
          | some stableId => stableWireId b "request" stableId
          | none => "request:" ++ drawn.request
        issuedAt := b.timestamp drawn.now
        scope := scope
        message := .request (b.timestamp (drawn.now + min b.timeout 30000000))
          (match stableId with
            | some stableId => "nonce-" ++ b.sha256 stableId
            | none => drawn.nonce)
          capability (effectText effect) arguments taskRef }

/-- `_cancel_envelope` -/
def cancelEnvelope (drawn : Drawn) (owner workspace taskRef targetRequestId stableId : String) :
    Except Failure Request := do
  let scope ← scope b owner workspace
  .ok
    { messageId := "message:" ++ drawn.message
      requestId := stableWireId b "request" stableId
      issuedAt := b.timestamp drawn.now
      scope := scope
      message := .cancel taskRef targetRequestId "operator_request" }

/-- What a payload is sent as. -/
inductive Envelope
  | health
  | capabilities
  | response
  | error
  | event
  deriving DecidableEq, Repr

def Envelope.text : Envelope → String
  | .health => "health"
  | .capabilities => "capabilities"
  | .response => "response"
  | .error => "error"
  | .event => "event"

/-- The fields an envelope may have. -/
def Envelope.allowed : Envelope → List String
  | .health =>
    ["protocol_version", "envelope", "message_id", "request_id", "issued_at",
      "sidecar_id", "sidecar_version", "protocol_compatible", "status", "checked_at"]
  | .capabilities =>
    ["protocol_version", "envelope", "message_id", "request_id", "issued_at",
      "owner_ref", "connection_id", "worker_ref", "workspace_alias", "agent_ref",
      "sidecar_id", "sidecar_version", "capabilities"]
  | .response =>
    ["protocol_version", "envelope", "message_id", "request_id", "issued_at",
      "owner_ref", "connection_id", "worker_ref", "workspace_alias", "agent_ref",
      "status", "task_ref", "result"]
  | .error =>
    ["protocol_version", "envelope", "message_id", "request_id", "issued_at",
      "code", "retryable", "detail"]
  | .event =>
    ["protocol_version", "envelope", "message_id", "request_id", "issued_at",
      "owner_ref", "connection_id", "worker_ref", "workspace_alias", "agent_ref",
      "task_ref", "event_id", "sequence", "event_type", "text", "metadata"]

/-- `d.get(key) == text` -/
def hasText (d : Object) (key text : String) : Bool :=
  match d.get? key with
  | some (.str s) => s == text
  | _ => false

/-- The text of a field, `none` where it is not one. -/
def textOf (d : Object) (key : String) : Option String :=
  match d.get? key with
  | some (.str s) => some s
  | _ => none

/-- A field that is looked up in a set of texts. -/
def hashable (d : Object) (key : String) : Except Failure (Option String) :=
  match d.get? key with
  | some (.str s) => .ok (some s)
  | some (.list _) | some (.dict _) => .error .unhashable
  | _ => .ok none

/-- `isinstance(d.get(key), bool)` -/
def isBool (d : Object) (key : String) : Bool :=
  match d.get? key with
  | some (.bool _) => true
  | _ => false

/-- `d.get(key) is True` -/
def isTrue (d : Object) (key : String) : Bool :=
  match d.get? key with
  | some (.bool x) => x
  | _ => false

/-- A check that raises `malformed_envelope`. -/
def wellFormed (condition : Bool) : Except Failure Unit :=
  if condition then .ok () else .error .malformedEnvelope

/-- `_parse_timestamp` -/
def parseTimestamp (text : String) : Except Failure Int :=
  if 40 < text.length then .error .malformedEnvelope
  else
    let text := text.toList.flatMap fun x => if x = 'Z' then "+00:00".toList else [x]
    match b.fromisoformat (String.ofList text) with
    | some moment => .ok moment
    | none => .error .malformedEnvelope

/-- `_validate_base` up to the messages seen, with the message's identifier. -/
def validateHeader (now : Int) (expected : Envelope) (payload : Object) : Except Failure String := do
  let some version := textOf payload "protocol_version" | .error .malformedEnvelope
  if version ≠ protocol then .error .incompatibleProtocol
  let some envelope := textOf payload "envelope" | .error .malformedEnvelope
  let some messageId := textOf payload "message_id" | .error .malformedEnvelope
  let some requestId := textOf payload "request_id" | .error .malformedEnvelope
  let some issuedAt := textOf payload "issued_at" | .error .malformedEnvelope
  wellFormed (envelope != "" && messageId != "" && requestId != "" && issuedAt != "")
  wellFormed (isRequestId messageId && isRequestId requestId)
  wellFormed (envelope == expected.text)
  let issuedAt ← parseTimestamp b issuedAt
  if maxClockSkew < (now - issuedAt).natAbs then .error .staleRequest
  .ok messageId

/-- `_validate_base` -/
def validateBase (now : Int) (expected : Envelope) (payload : Object) (seen : List String) :
    Except Failure Unit × List String :=
  match validateHeader b now expected payload with
  | .error failure => (.error failure, seen)
  | .ok messageId =>
    if messageId ∈ seen then (.error .replayDetected, seen)
    else (wellFormed (payload.all fun item => expected.allowed.contains item.1), messageId :: seen)

/-- `_validate_scope`, for a request without an agent. -/
def validateScope (payload : Object) (request : Request) : Except Failure Unit :=
  if !hasText payload "request_id" request.requestId then .error .malformedEnvelope
  else if !hasText payload "owner_ref" request.scope.ownerRef then .error .wrongOwner
  else if !hasText payload "workspace_alias" request.scope.workspaceAlias then
    .error .wrongWorkspace
  else wellFormed
    (hasText payload "connection_id" request.scope.connectionId &&
      hasText payload "worker_ref" request.scope.workerRef &&
      match payload.get? "agent_ref" with
      | none | some .null => true
      | _ => false)

/-- The exception of an error envelope whose header passes. -/
def errorOf (payload : Object) (request : Request) : Failure :=
  if !hasText payload "request_id" request.requestId then .malformedEnvelope
  else match hashable payload "code" with
    | .error failure => failure
    | .ok code =>
      match code.bind Failure.stable with
      | none => .malformedEnvelope
      | some failure =>
        if isBool payload "retryable" &&
            ((textOf payload "detail").any fun detail =>
              decide (1 ≤ detail.length ∧ detail.length ≤ 500))
        then failure else .malformedEnvelope

/-- `_validate_error`, which always raises. -/
def validateError (now : Int) (payload : Object) (request : Request) (seen : List String) :
    Failure × List String :=
  match validateBase b now .error payload seen with
  | (.error failure, seen) => (failure, seen)
  | (.ok (), seen) => (errorOf payload request, seen)

/-- The checks of an answer that every request makes first. -/
def validateAnswer (now : Int) (expected : Envelope) (payload : Object) (request : Request)
    (seen : List String) : Except Failure Unit × List String :=
  if hasText payload "envelope" "error" then
    let (failure, seen) := validateError b now payload request seen
    (.error failure, seen)
  else
    match validateBase b now expected payload seen with
    | (.error failure, seen) => (.error failure, seen)
    | (.ok (), seen) => (validateScope payload request, seen)

/-! ## Capabilities -/

/-- A capability the sidecar declares. -/
structure Declaration where
  name : String
  effect : ActionEffect
  authorization : String
  reversible : Bool
  enabled : Bool
  deriving DecidableEq, Repr

/-- A capability that may be used. -/
structure Policy where
  name : String
  effect : ActionEffect
  authorization : String
  reversible : Bool
  deriving DecidableEq, Repr

/-- The checks of one declaration. -/
def readDeclaration (declared : List String) : Value → Except Failure Declaration
  | .dict d => do
    wellFormed (hasKeys d ["name", "effect", "authorization", "reversible", "enabled"])
    let some name := textOf d "name" | .error .malformedEnvelope
    wellFormed (isReference name)
    let some effect := (← hashable d "effect").bind ActionEffect.ofText | .error .malformedEnvelope
    let some authorization ← hashable d "authorization" | .error .malformedEnvelope
    wellFormed (["explicit_request", "separate_gate", "denied"].contains authorization)
    wellFormed (isBool d "reversible" && isBool d "enabled")
    wellFormed (!declared.contains name)
    .ok
      { name := name
        effect := effect
        authorization := authorization
        reversible := isTrue d "reversible"
        enabled := isTrue d "enabled" }
  | _ => .error .malformedEnvelope

/-- What a declaration leaves of the configured capability. -/
def policyOf (d : Declaration) : Option Policy :=
  let reading := readCapabilities.contains d.name || d.name == "task.status.read"
  match b.configuredCapabilities.get? d.name with
  | none => none
  | some configured =>
    if !d.enabled || (reading && d.effect != .read) then none
    else
      let floor := if reading then .read else .reversibleWrite
      let effect := (strictest [configured, d.effect, floor]).getD configured
      let required := if effect.separateGate then "separate_gate" else "explicit_request"
      if d.authorization != required || !d.reversible then none
      else some
        { name := d.name
          effect := effect
          authorization := required
          reversible := true }

/-- The loop over the declarations. -/
def readDeclarations (declared : List String) (live : Dict String Policy) :
    List Value → Except Failure (Dict String Policy)
  | [] => .ok live
  | v :: vs => do
    let d ← readDeclaration declared v
    let live := match policyOf b d with
      | some policy => live.set d.name policy
      | none => live
    readDeclarations (d.name :: declared) live vs

/-- The capabilities of an answer and the version of its sidecar. -/
def capabilitiesOf (payload : Object) : Except Failure (Dict String Policy × String) := do
  let some sidecarId := textOf payload "sidecar_id" | .error .malformedEnvelope
  wellFormed (isReference sidecarId)
  let some version := textOf payload "sidecar_version" | .error .malformedEnvelope
  wellFormed (decide (1 ≤ version.length ∧ version.length ≤ 80))
  let some (.list declarations) := payload.get? "capabilities" | .error .malformedEnvelope
  wellFormed (decide (declarations.length ≤ maxCollection))
  let live ← readDeclarations b [] Dict.empty declarations
  let effective := b.configuredCapabilities.items.foldl
    (fun effective (name, _) =>
      match live.get? name with
      | some policy => effective.set name policy
      | none => effective)
    Dict.empty
  .ok (effective, version)

/-! ## The adapter -/

/-- The result of an action. -/
structure ActionResult where
  requestId : String
  taskRef : Option String
  status : String
  result : Value

structure Adapter where
  seenMessages : List String
  liveCapabilities : Dict (String × String) (Dict String Policy)
  sidecarVersions : Dict (String × String) String
  eventRecords : Dict String String
  eventSequences : Dict String Int
  actionResults : Dict String (String × ActionResult)

/-- `ExternalAgentReadOnlyAdapter(configuration)` -/
def Adapter.fresh : Adapter :=
  { seenMessages := []
    liveCapabilities := Dict.empty
    sidecarVersions := Dict.empty
    eventRecords := Dict.empty
    eventSequences := Dict.empty
    actionResults := Dict.empty }

/-- The key of the capabilities of an owner in a workspace. -/
def scopeKey (owner workspace : String) : String × String := (ownerRef b owner, workspace)

/-- The request of `_capabilities`. -/
def capabilitiesRequest (drawn : Drawn) (owner workspace : String) : Except Failure Request :=
  requestEnvelope b drawn "capabilities.read" owner workspace [] .read none none

/-- What `_capabilities` does with the answer. -/
def receiveCapabilities (now : Int) (owner workspace : String) (request : Request)
    (payload : Object) (a : Adapter) : Except Failure Unit × Adapter :=
  match validateAnswer b now .capabilities payload request a.seenMessages with
  | (.error failure, seen) => (.error failure, { a with seenMessages := seen })
  | (.ok (), seen) =>
    match capabilitiesOf b payload with
    | .error failure => (.error failure, { a with seenMessages := seen })
    | .ok (effective, version) =>
      (.ok (),
        { a with
          seenMessages := seen
          liveCapabilities := a.liveCapabilities.set (scopeKey b owner workspace) effective
          sidecarVersions := a.sidecarVersions.set (scopeKey b owner workspace) version })

/-- What `_capability_policy` returns. -/
structure CapabilityPolicy where
  policy : Policy
  sidecarVersion : String
  connectionVersion : String
  connectionId : String
  workerRef : String

/-- `_capability_policy`, when the capabilities are there. -/
def capabilityPolicy (a : Adapter) (capability owner workspace : String) :
    Except Failure CapabilityPolicy :=
  match (a.liveCapabilities.get? (scopeKey b owner workspace)).bind fun live =>
    live.get? capability with
  | none => .error .capabilityDisabled
  | some policy => .ok
      { policy := policy
        sidecarVersion := (a.sidecarVersions.get? (scopeKey b owner workspace)).getD ""
        connectionVersion := connectionVersion b
        connectionId := connectionRef b
        workerRef := workerRef b }

/-! ## Actions -/

/-- What an action is bound to. -/
structure Binding where
  effect : String
  capability : String
  sidecarVersion : String
  connectionVersion : String
  authorityRef : String
  requestId : String
  callId : String
  deriving DecidableEq, Repr

def bindingOf (rt : Runtime) (task : Object) : Binding :=
  { effect := task.firstText rt ["_action_effect", "action_effect"]
    capability := task.firstText rt ["_action_capability", "action_capability"]
    sidecarVersion := task.firstText rt ["_action_sidecar_version", "external_sidecar_version"]
    connectionVersion :=
      task.firstText rt ["_action_connection_version", "external_connection_version"]
    authorityRef := task.firstText rt ["_action_authority_ref", "authority_ref"]
    requestId := task.firstText rt ["_action_request_id", "request_id"]
    callId := task.firstText rt ["_action_call_id", "call_id"] }

/-- `all(binding.values())` -/
def Binding.complete (binding : Binding) : Bool :=
  [binding.effect, binding.capability, binding.sidecarVersion, binding.connectionVersion,
    binding.authorityRef, binding.requestId, binding.callId].all (· != "")

/-- The owner and the workspace of a task. -/
def ownerOf (task : Object) : String := task.text b.rt "owner"

def workspaceOf (task : Object) : String := task.text b.rt "workspace"

/-- `_authorized_action`, when the capabilities are there. -/
def authorizedAction (a : Adapter) (capability : String) (task : Object) :
    Except Failure (CapabilityPolicy × Binding) := do
  let policy ← capabilityPolicy b a capability (ownerOf b task) (workspaceOf b task)
  let binding := bindingOf b.rt task
  if !binding.complete then .error .unauthorized
  if binding.effect ≠ effectText policy.policy.effect ∨ binding.capability ≠ capability ∨
      binding.sidecarVersion ≠ policy.sidecarVersion ∨
      binding.connectionVersion ≠ policy.connectionVersion then
    .error .staleRequest
  .ok (policy, binding)

/-- A request that is ready to be sent, with its fingerprint and the task it is about. -/
structure Prepared where
  request : Request
  fingerprint : String
  taskRef : Option String

/-- `_action_request` between its authorization and its look at the results. -/
def prepareAction (a : Adapter) (capability : String) (task arguments : Object) (drawn : Drawn) :
    Except Failure Prepared := do
  let (policy, binding) ← authorizedAction b a capability task
  let remote := task.text b.rt "remote_task_id"
  let taskRef := if remote = "" then none else some remote
  wellFormed (capability == "task.start" || taskRef.any isTaskRef)
  let stableId := binding.requestId ++ ":" ++ capability ++ ":" ++ taskRef.getD "new"
  let request ← requestEnvelope b drawn capability (ownerOf b task) (workspaceOf b task) arguments
    policy.policy.effect taskRef (some stableId)
  .ok
    { request := request
      fingerprint := b.digest
        [("request_id", .str request.requestId), ("owner_ref", .str request.scope.ownerRef),
          ("connection_id", .str request.scope.connectionId),
          ("worker_ref", .str request.scope.workerRef),
          ("workspace_alias", .str request.scope.workspaceAlias),
          ("capability", .str capability), ("effect", .str (effectText policy.policy.effect)),
          ("task_ref", (taskRef.map Value.str).getD .null), ("arguments", .dict arguments),
          ("sidecar_version", .str policy.sidecarVersion),
          ("connection_version", .str policy.connectionVersion),
          ("authority_ref", .str binding.authorityRef),
          ("canonical_request_id", .str binding.requestId)]
      taskRef := taskRef }

/-- `cancel` between its authorization and its look at the results. -/
def prepareCancel (a : Adapter) (task : Object) (drawn : Drawn) : Except Failure Prepared := do
  let (policy, binding) ← authorizedAction b a "task.cancel" task
  let taskRef := task.text b.rt "remote_task_id"
  let targetRequestId := task.text b.rt "external_start_request_id"
  wellFormed (isTaskRef taskRef && isRequestId targetRequestId)
  let stableId := binding.requestId ++ ":task.cancel:" ++ taskRef
  let request ← cancelEnvelope b drawn (ownerOf b task) (workspaceOf b task) taskRef
    targetRequestId stableId
  .ok
    { request := request
      fingerprint := b.digest
        [("request_id", .str request.requestId), ("owner_ref", .str request.scope.ownerRef),
          ("connection_id", .str request.scope.connectionId),
          ("worker_ref", .str request.scope.workerRef),
          ("workspace_alias", .str request.scope.workspaceAlias),
          ("task_ref", .str taskRef), ("target_request_id", .str targetRequestId),
          ("reason", .str "operator_request"), ("effect", .str (effectText policy.policy.effect)),
          ("sidecar_version", .str policy.sidecarVersion),
          ("connection_version", .str policy.connectionVersion),
          ("authority_ref", .str binding.authorityRef),
          ("canonical_request_id", .str binding.requestId)]
      taskRef := some taskRef }

/-- The status of an answer to an action. -/
def acceptedStatus (payload : Object) : Except Failure String := do
  let some status ← hashable payload "status" | .error .malformedEnvelope
  wellFormed (status == "accepted" || status == "succeeded")
  .ok status

/-- The result of an answer to an action. -/
def resultOf (payload : Object) : Except Failure Object :=
  match payload.get? "result" with
  | some (.dict result) => .ok result
  | _ => .error .malformedEnvelope

/-- The checks of `_action_request` behind the scope of the answer. -/
def actionResult (capability : String) (prepared : Prepared) (payload : Object) :
    Except Failure ActionResult := do
  let status ← acceptedStatus payload
  let answered := textOf payload "task_ref"
  if capability = "task.start" then wellFormed (answered.any isTaskRef)
  else match payload.get? "task_ref" with
    | none | some .null => .ok ()
    | _ => wellFormed (answered.isSome && answered == prepared.taskRef)
  let result ← resultOf payload
  let result ← safeValue b.rt 0 (.dict result)
  .ok
    { requestId := prepared.request.requestId
      taskRef := (answered.filter fun taskRef => taskRef != "").or prepared.taskRef
      status := status
      result := result }

/-- The checks of `cancel` behind the scope of the answer. -/
def cancelResult (prepared : Prepared) (payload : Object) : Except Failure ActionResult := do
  let status ← acceptedStatus payload
  let answered ← hashable payload "task_ref"
  match payload.get? "task_ref" with
    | none | some .null => .ok ()
    | _ => wellFormed (answered.isSome && answered == prepared.taskRef)
  let result ← resultOf payload
  let result ← safeValue b.rt 0 (.dict result)
  .ok
    { requestId := prepared.request.requestId
      taskRef := prepared.taskRef
      status := status
      result := result }

/-! ## A connection to run the definitions with -/

/-- Texts and objects are their own digests, there is one moment, and one capability. -/
def Bridge.plain (capability : String) (effect : ActionEffect) : Bridge :=
  { rt := Runtime.plain
    sha256 := id
    digest := fun d => (Value.dict d).plainRepr
    fromisoformat := fun text => if text = "2026-01-01T00:00:00+00:00" then some 0 else none
    timestamp := fun _ => "2026-01-01T00:00:00Z"
    worker := "remote"
    endpoint := "https://s/v1"
    authRef := "file:/k"
    networkPolicy := "private"
    configuredWorkspaces := ["notes"]
    configuredCapabilities := Dict.empty.set capability effect
    timeout := 10000000 }

def drawnNow : Drawn := { now := 0, message := "m", request := "0001", nonce := "n" }

/-- The fields of an answer to a request of `owner` in `notes`. -/
def Bridge.answer (requestId messageId envelope : String) : Object :=
  [("protocol_version", .str protocol), ("envelope", .str envelope), ("message_id", .str messageId),
    ("request_id", .str requestId), ("issued_at", .str "2026-01-01T00:00:00Z"),
    ("owner_ref", .str (ownerRef b "owner")), ("connection_id", .str (connectionRef b)),
    ("worker_ref", .str (workerRef b)), ("workspace_alias", .str "notes")]

/-- A sidecar that declares one capability. -/
def Bridge.declaring (capability effect : String) : Object :=
  b.answer "request:0001" "message-1" "capabilities" ++
    [("sidecar_id", Value.str "sidecar"), ("sidecar_version", .str "1"),
      ("capabilities", .list [.dict
        [("name", .str capability), ("effect", .str effect),
          ("authorization", .str "explicit_request"), ("reversible", .bool true),
          ("enabled", .bool true)]])]

end Pandamonium.ExternalAgent
