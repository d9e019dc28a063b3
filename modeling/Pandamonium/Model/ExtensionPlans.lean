import Pandamonium.Library.Calls

/-!
# Plans of the extension lifecycle

An operation on an extension is previewed as a plan and then executed.  `execute_plan` looks at the
plan, asks the authority store unless the plan says that it is authorized, and marks the plan, all in
one section under the lock; it carries the operation out without it; and it writes how that went in
a second section.  Changing the configuration of an extension ends its open plans.

The store counts what the claims are about: the decisions that allowed a plan, and the times it was
carried out.  What an operation does is in `ExtensionLifecycle`.
-/

set_option autoImplicit false

namespace Pandamonium.ExtensionPlans

open Pandamonium.Library

inductive PlanStatus
  | pendingApproval | executing | completed | failed | configurationChanged
  deriving DecidableEq, Repr

structure Plan where
  extensionId : String
  operatorId : Option String
  status : PlanStatus
  authorized : Bool
  authorityRef : Option String
  /-- The `configuration_fingerprint`, where the plan has one. -/
  configurationFingerprint : Option (Option String)
  /-- Whether the operation succeeded, where there is a `result`. -/
  result : Option Bool
  deriving DecidableEq, Repr

structure Store where
  /-- The `plans` of the lifecycle file. -/
  plans : Dict String Plan
  /-- The plan of each decision that allowed `execute_plan` to go on. -/
  approvals : List String
  /-- The plan of each operation that was carried out. -/
  executions : List String

/-- What `decide` answers. -/
inductive Verdict
  | allow | approvalRequired | deny
  deriving DecidableEq, Repr

/-- What a section under the lock meets. -/
structure Section where
  readable : Bool
  writable : Bool

/-- What the first section of `execute_plan` meets besides. -/
structure Surroundings where
  /-- The fingerprint of the configuration as it is, `none` where it cannot be taken. -/
  fingerprint : Option String
  /-- The plan makes a valid action call. -/
  callable : Bool
  verdict : Verdict
  decisionId : String

/-- Where a call is. -/
inductive Frame
  /-- `preview_source` or `preview_lifecycle`, with the id and the plan it has made. -/
  | previews (planId extensionId operatorId : String) (fingerprint : Option (Option String))
  /-- The update of a configuration. -/
  | configures (extensionId operatorId : String)
  /-- `execute_plan` before its first section. -/
  | executes (planId operatorId : String)
  /-- Before the operation. -/
  | carriesOut (planId : String) (plan : Plan)
  /-- Before the second section. -/
  | records (planId : String) (plan : Plan) (succeeded : Bool)

inductive Event
  /-- A section that writes the state it reads. -/
  | locks (sec : Section)
  /-- The first section of `execute_plan`. -/
  | starts (sec : Section) (met : Surroundings)
  /-- The operation is carried out, and may have found the plans unreadable when it wrote. -/
  | operates (succeeds keepsPlans : Bool)
  /-- The process ends. -/
  | dies

/-- `_read_state` -/
def readPlans (sec : Section) (s : Store) : Dict String Plan :=
  if sec.readable then s.plans else Dict.empty

/-- `_write_state`, which leaves the file where it raises. -/
def writePlans (sec : Section) (plans : Dict String Plan) (s : Store) : Store :=
  if sec.writable then { s with plans } else s

/-- A plan that was previewed. -/
def newPlan (extensionId operatorId : String) (fingerprint : Option (Option String)) : Plan where
  extensionId
  operatorId := some operatorId
  status := .pendingApproval
  authorized := false
  authorityRef := none
  configurationFingerprint := fingerprint
  result := none

/-- The plans after the configuration of an extension was changed, `none` where one is being
executed. -/
def configurationChanged (extensionId operatorId : String) (plans : Dict String Plan) :
    Option (Dict String Plan) :=
  if plans.values.any fun plan => plan.status = .executing ∧ plan.extensionId = extensionId then
    none
  else
    some (plans.mapValues fun plan =>
      if plan.extensionId = extensionId ∧ plan.operatorId = some operatorId ∧
          plan.status ≠ .completed then
        { plan with status := .configurationChanged }
      else plan)

/-- Whether `execute_plan` comes to ask whether the plan is authorized. -/
def mayStart (met : Surroundings) (operatorId : String) (plan : Plan) : Bool :=
  (plan.operatorId = none || plan.operatorId = some operatorId) &&
    plan.status ≠ .configurationChanged && plan.status ≠ .completed &&
    (match plan.configurationFingerprint with
      | none => true
      | some fingerprint => met.fingerprint.isSome && fingerprint = met.fingerprint) &&
    met.callable

/-- The plan is marked, and where that is written the call goes on. -/
def begins (sec : Section) (planId operatorId : String) (plan : Plan) (s : Store) :
    Store × Option Frame :=
  let plan := { plan with operatorId := some operatorId, status := .executing }
  (writePlans sec ((readPlans sec s).set planId plan) s,
    if sec.writable then some (.carriesOut planId plan) else none)

/-- The first section of `execute_plan`. -/
def start (sec : Section) (met : Surroundings) (planId operatorId : String) (s : Store) :
    Store × Option Frame :=
  match (readPlans sec s).get? planId with
  | none => (s, none)
  | some plan =>
    if mayStart met operatorId plan = false then (s, none)
    else if plan.authorized then begins sec planId operatorId plan s
    else match met.verdict with
      | .allow =>
        begins sec planId operatorId
          { plan with authorized := true, authorityRef := some met.decisionId }
          { s with approvals := planId :: s.approvals }
      | .approvalRequired => (s, none)
      | .deny => (s, none)

/-- The second section of `execute_plan`. -/
def record (sec : Section) (planId : String) (plan : Plan) (succeeded : Bool) (s : Store) : Store :=
  let plans := readPlans sec s
  let current := (plans.get? planId).getD plan
  writePlans sec
    (plans.set planId
      { current with
        status := if succeeded then .completed else .failed
        result := some succeeded }) s

/-- One step of a call. -/
def advance (s : Store) : Frame → Event → Option (Store × Option Frame)
  | _, .dies => some (s, none)
  | .previews planId extensionId operatorId fingerprint, .locks sec =>
    if (s.plans.get? planId).isSome then none
    else
      some (writePlans sec
        ((readPlans sec s).set planId (newPlan extensionId operatorId fingerprint)) s, none)
  | .configures extensionId operatorId, .locks sec =>
    match configurationChanged extensionId operatorId (readPlans sec s) with
    | none => some (s, none)
    | some plans => some (writePlans sec plans s, none)
  | .executes planId operatorId, .starts sec met => some (start sec met planId operatorId s)
  | .carriesOut planId plan, .operates succeeds keepsPlans =>
    some
      ({ s with
          executions := planId :: s.executions
          plans := if keepsPlans then s.plans else Dict.empty },
        some (.records planId plan succeeds))
  | .records planId plan succeeded, .locks sec => some (record sec planId plan succeeded s, none)
  | _, _ => none

/-- The calls begin as previews, changes of a configuration, and executions. -/
def Frame.entry : Frame → Bool
  | .previews _ _ _ _ => true
  | .configures _ _ => true
  | .executes _ _ => true
  | .carriesOut _ _ => false
  | .records _ _ _ => false

def service : Service Store Frame Event where
  entry := Frame.entry
  advance := advance

/-- No decision was made and nothing carried out. -/
def unused (s : Store) : Prop := s.approvals = [] ∧ s.executions = []

end Pandamonium.ExtensionPlans
