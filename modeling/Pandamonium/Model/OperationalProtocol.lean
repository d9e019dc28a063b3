import Mathlib.Data.List.DropRight
import Pandamonium.Library.Dict
import Pandamonium.Library.TransitionSystem
import Pandamonium.Model.Value

/-!
# Operational events and component versions

`operational_protocol.py` appends events to a log that is read back from its end, and keeps for
every component the record of its active version and the history of the ones before.

An event has the entries that are searched for; the texts of its actor, usage, evidence and error
are left out.  What `redact_secrets` and `sha256` make of a configuration are parameters.
-/

set_option autoImplicit false

namespace Pandamonium.Operational

open Pandamonium.Library

/-! ## Events -/

/-- `_EVENT_TYPES` -/
inductive EventType
  | started
  | progress
  | result
  | approval
  | health
  | recovery
  | promotion
  | rollback
  | response
  deriving DecidableEq, Repr

/-- `OUTCOME_STATES` -/
inductive Outcome
  | succeeded
  | failed
  | denied
  | cancelled
  | timedOut
  | unknown
  | degraded
  | unavailable
  deriving DecidableEq, Repr

/-- The statuses that `record` accepts: the outcomes, `AUDIT_STATES` and three more. -/
inductive EventStatus
  | outcome (o : Outcome)
  | requested
  | authorized
  | executed
  | running
  | approvalRequired
  | healthy
  deriving DecidableEq, Repr

/-- `OUTCOME_STATES - {"unknown"}` -/
def EventStatus.definitive : EventStatus → Bool
  | .outcome o => o ≠ .unknown
  | _ => false

structure Event where
  eventId : String
  requestId : Option String
  sessionId : Option String
  callId : Option String
  operatorId : Option String
  eventType : EventType
  status : EventStatus
  deriving DecidableEq, Repr

/-- The lines of the log, the oldest first; each event has an id of its own. -/
structure EventStore where
  maxEvents : ℕ
  events : List Event
  nodup : (events.map Event.eventId).Nodup

namespace EventStore

/-- `ProtocolEventStore(max_events=...)` -/
def create (maxEvents : ℤ) : EventStore := ⟨(max maxEvents 100).toNat, [], List.nodup_nil⟩

/-- `record`; the id of the event is a new one. -/
def record (s : EventStore) (e : Event) (hnew : e.eventId ∉ s.events.map Event.eventId) :
    EventStore where
  maxEvents := s.maxEvents
  events := s.events ++ [e]
  nodup := by
    rw [List.map_append, List.nodup_append]
    refine ⟨s.nodup, List.pairwise_singleton _ _, ?_⟩
    intro x hx y hy
    rw [List.map_singleton, List.mem_singleton] at hy
    subst hy
    exact ne_of_mem_of_not_mem hx hnew

/-- What `reconcile_unknown` records, and `none` for its `ValueError`. -/
def reconciliation (eventId callId : String) (status : EventStatus)
    (requestId sessionId operatorId : Option String) : Option Event :=
  if status.definitive then
    some { eventId, requestId, sessionId, operatorId, status,
           callId := some callId
           eventType := .recovery }
  else none

/-- `wanted is None or row.get(...) == wanted` -/
def matching (wanted value : Option String) : Bool := wanted = none || value = wanted

/-- `query` -/
def query (s : EventStore) (operatorId requestId sessionId : Option String) (limit : ℤ) :
    List Event :=
  let limit := (min (max limit 1) 1000).toNat
  let rows := s.events.rtake s.maxEvents
  let filtered := rows.filter fun row =>
    matching operatorId row.operatorId && matching requestId row.requestId &&
      matching sessionId row.sessionId
  filtered.rtake limit

/-- `row.get("event_type") == "recovery" and row.get("status") in OUTCOME_STATES - {"unknown"}` -/
def recovers (row : Event) : Bool := row.eventType = .recovery && row.status.definitive

/-- `row.get("event_type") == "result" and row.get("status") == "unknown"` -/
def isUnknown (row : Event) : Bool := row.eventType = .result && row.status = .outcome .unknown

/-- `unresolved_unknowns` -/
def unresolvedUnknowns (s : EventStore) (operatorId : Option String) : List Event :=
  let rows := s.query operatorId none none 1000
  let resolved := (rows.filter recovers).map Event.callId
  rows.filter fun row => isUnknown row && row.callId ∉ resolved

end EventStore

/-! ## Component versions -/

inductive RecordStatus
  | active
  | superseded
  | rolledBack
  deriving DecidableEq, Repr

/-- A version of a component. -/
structure VersionRecord where
  recordId : String
  component : String
  version : String
  configuration : Object
  configurationFingerprint : String
  compatibility : String
  rollbackRef : Option String
  previousRecordId : Option String
  promotedAt : ℕ
  status : RecordStatus
  rollbackOf : Option String
  restoredFrom : Option String

structure Slot where
  active : Option VersionRecord
  history : List VersionRecord

/-- What `rollback` looks through: the active record, then the history. -/
def Slot.candidates (slot : Slot) : List VersionRecord := slot.active.toList ++ slot.history

/-- `state["components"]` -/
abbrev Registry := Dict String Slot

/-- What `promote` is called with. -/
structure Promotion where
  component : String
  version : String
  configuration : Object
  compatibility : String
  rollbackRef : Option String

section

variable (redact : Object → Object) (sha256 : Object → String)

/-- The slot of a component, a new one where there is none. -/
def slotOf (state : Registry) (component : String) : Slot :=
  (state.get? component).getD ⟨none, []⟩

/-- The record that `promote` makes. -/
def newRecord (p : Promotion) (previous : Option VersionRecord) (recordId : String) (now : ℕ) :
    VersionRecord :=
  { recordId := recordId
    component := p.component
    version := p.version
    configuration := redact p.configuration
    configurationFingerprint := sha256 p.configuration
    compatibility := p.compatibility
    rollbackRef := p.rollbackRef
    previousRecordId := previous.map VersionRecord.recordId
    promotedAt := now
    status := .active
    rollbackOf := none
    restoredFrom := none }

/-- `promote`; `recordId` is what `uuid4` gives. -/
def promote (state : Registry) (p : Promotion) (recordId : String) (now : ℕ) : Registry :=
  let slot := slotOf state p.component
  let record := newRecord redact sha256 p slot.active recordId now
  let history :=
    match slot.active with
    | some previous => slot.history ++ [{ previous with status := .superseded }]
    | none => slot.history
  state.set p.component ⟨some record, history⟩

end

/-- The copy of the target that `rollback` makes active. -/
def restoredRecord (target current : VersionRecord) (recordId : String) (now : ℕ) :
    VersionRecord :=
  { target with
    recordId := recordId
    previousRecordId := some current.recordId
    promotedAt := now
    status := .active
    rollbackOf := some current.recordId
    restoredFrom := some target.recordId }

/-- `rollback`, and `none` where it raises. -/
def rollback (state : Registry) (component targetRecordId recordId : String) (now : ℕ) :
    Option Registry := do
  let slot ← state.get? component
  let target ← slot.candidates.find? fun row => row.recordId = targetRecordId
  let current ← slot.active
  some (state.set component
    ⟨some (restoredRecord target current recordId now),
      slot.history ++ [{ current with status := .rolledBack }]⟩)

/-- The ids of all records. -/
def recordIds (state : Registry) : List String :=
  state.values.flatMap fun slot => slot.candidates.map VersionRecord.recordId

/-- One call of the registry, with what `uuid4` and the clock give it. -/
inductive RegistryCall
  | promote (p : Promotion) (recordId : String) (now : ℕ)
  | rollback (component targetRecordId recordId : String) (now : ℕ)

/-- The id that `uuid4` gives in the call. -/
def RegistryCall.recordId : RegistryCall → String
  | .promote _ recordId _ => recordId
  | .rollback _ _ recordId _ => recordId

/-- The calls one after the other, each with a new id; a call that raises changes nothing. -/
def registrySystem (redact : Object → Object) (sha256 : Object → String) :
    TransitionSystem Registry RegistryCall where
  init := fun state => state = Dict.empty
  step := fun state call =>
    if call.recordId ∈ recordIds state then none
    else
      match call with
      | .promote p recordId now => some (promote redact sha256 state p recordId now)
      | .rollback component targetRecordId recordId now =>
        some ((rollback state component targetRecordId recordId now).getD state)

end Pandamonium.Operational
