import Mathlib.Data.Rat.Floor
import Mathlib.Data.List.Sort
import Mathlib.Data.String.Basic
import Pandamonium.Library.Dict
import Pandamonium.Model.Value
import Pandamonium.Library.TransitionSystem

/-!
# Learning candidates

`LearningCandidateStore` keeps candidates, promotions and monitoring in one state.  Each operation
is a function of the state that was read to the state that is written, or an exception.

What is derived from an artifact alone (its redacted form, its conflicts, its risk, its digest) and
the rounding of rates are functions of `Artifacts`, over which everything is stated.
-/

set_option autoImplicit false

namespace Pandamonium.Learning

open Pandamonium.Library

/-- `CANDIDATE_STATUSES` -/
inductive Status
  | draft
  | evaluating
  | approved
  | rejected
  | demoted
  | superseded
  deriving DecidableEq, Repr

/-- The functions of the module that look at artifacts and numbers only. -/
structure Artifacts where
  rt : Runtime
  /-- `normalize_artifact` of an object. -/
  normalize : Object → Object
  /-- `normalize_artifact` of a list. -/
  normalizeList : List Value → List Value
  /-- `_normalise_text` -/
  normalizeText : String → String
  /-- `artifact_conflicts` -/
  conflicts : Object → String → List String
  /-- `classify_risk` -/
  classifyRisk : Object → List String → String
  /-- `_fingerprint` -/
  fingerprint : Object → String
  /-- `_producer_record` -/
  producerRecord : Value → Option ℚ → Object
  /-- `round(a / b, n)` -/
  rate : ℚ → ℚ → ℕ → ℚ

structure Evaluation where
  verdict : String
  cases : List Object
  evaluator : Object
  runtimeVersion : String
  sampleSize : ℕ
  passed : ℕ
  passRate : ℚ
  corroborated : Bool
  independentReview : Bool
  evaluatedAt : String

structure Demotion where
  operatorId : String
  reason : String
  demotedAt : String

structure Candidate where
  candidateId : String
  type : String
  ownerScope : String
  sourceRefs : List Value
  producer : Object
  capabilities : List String
  risk : String
  status : Status
  version : String
  parentCandidateId : Option String
  artifact : Object
  artifactFingerprint : String
  conflicts : List String
  evaluation : Option Evaluation
  demotion : Option Demotion
  createdAt : String
  updatedAt : String

inductive PromotionStatus
  | active
  | superseded
  | demoted
  | rolledBack
  deriving DecidableEq, Repr

structure Promotion where
  promotionId : String
  candidateId : String
  ownerScope : String
  artifactType : String
  artifactName : String
  artifact : Object
  artifactFingerprint : String
  version : String
  sourceRefs : List Value
  evaluation : Evaluation
  operatorId : String
  automatic : Bool
  risk : String
  promotedAt : String
  status : PromotionStatus
  previousPromotionId : Option String
  rollbackOf : Option String
  restoredFrom : Option String

structure Metrics where
  uses : ℕ
  successes : ℕ
  failures : ℕ
  latencyTotal : ℚ
  regressions : ℕ
  successRate : ℚ
  averageLatency : ℚ
  updatedAt : String

structure Store where
  candidates : Dict String Candidate
  promotions : List Promotion
  monitoring : Dict String Metrics

def Store.empty : Store := ⟨.empty, [], .empty⟩

inductive Failure
  /-- `ValueError` -/
  | value (message : String)
  /-- `KeyError` -/
  | key (message : String)
  /-- `TypeError` -/
  | type
  deriving DecidableEq, Repr

/-- Artifacts that are kept as they are, without conflicts and of the lowest risk. -/
def Artifacts.plain : Artifacts where
  rt := Runtime.plain
  normalize := id
  normalizeList := id
  normalizeText := id
  conflicts := fun _ _ => []
  classifyRisk := fun _ _ => "read_only_guidance"
  fingerprint := fun artifact => (Value.dict artifact).plainRepr
  producerRecord := fun producer _ => [("id", producer), ("kind", .str "model")]
  rate := fun x y n => ⌊x / y * 10 ^ n⌋ / 10 ^ n

variable (a : Artifacts)

/-! ## Candidates -/

/-- The arguments of `create_candidate`. -/
structure CreateRequest where
  candidateType : String
  ownerScope : String
  artifact : Object
  sourceRefs : List Value
  producer : Value
  capabilities : List Value
  confidence : Option ℚ
  version : String
  parentCandidateId : Option String
  candidateId : Option String

/-- What a `for` loop goes over, where `or []` has been applied to a value. -/
def itemsOf : Option Value → Except Failure (List Value)
  | some (.list items) => .ok items
  | some (.dict items) => .ok (items.map fun item => .str item.1)
  | some (.str text) => .ok (text.toList.map fun c => .str (String.singleton c))
  | some v => if v.truthy then .error .type else .ok []
  | none => .ok []

/-- The candidate that `create_candidate` makes, before it looks at the state. -/
def newCandidate (r : CreateRequest) (drawn now : String) : Except Failure Candidate := do
  if strip r.ownerScope = "" then
    throw (.value "candidate_owner_scope_required")
  let normalized := a.normalize r.artifact
  let conflicts := a.conflicts normalized r.ownerScope
  let items ← if r.capabilities = [] then itemsOf (Object.get? normalized "requires_toolsets")
    else pure r.capabilities
  let texts := (items.map (Value.text a.rt)).filter (· ≠ "")
  let caps := texts.dedup.insertionSort (· ≤ ·)
  return {
    candidateId := match r.candidateId with
      | some id => if id = "" then drawn else id
      | none => drawn
    type := String.ofList
      ((if r.candidateType = "" then "procedure" else r.candidateType).toList.take 80)
    ownerScope := r.ownerScope
    sourceRefs := a.normalizeList (r.sourceRefs.take 50)
    producer := a.producerRecord r.producer r.confidence
    capabilities := caps
    risk := a.classifyRisk normalized caps
    status := if conflicts = [] then .draft else .rejected
    version := if r.version = "" then "1.0.0" else r.version
    parentCandidateId := r.parentCandidateId
    artifact := normalized
    artifactFingerprint := a.fingerprint normalized
    conflicts := conflicts
    evaluation := none
    demotion := none
    createdAt := now
    updatedAt := now }

/-- The section of `create_candidate` under the lock. -/
def insertCandidate (candidate : Candidate) (s : Store) : Except Failure Store :=
  if (s.candidates.get? candidate.candidateId).isSome then .error (.value "candidate_id_exists")
  else .ok { s with candidates := s.candidates.set candidate.candidateId candidate }

/-- The candidate of an owner, who may be left open. -/
def ownedCandidate (s : Store) (candidateId : String) (ownerScope : Option String) :
    Except Failure Candidate :=
  match s.candidates.get? candidateId with
  | none => .error (.key "candidate_not_found")
  | some candidate =>
    if ownerScope = none ∨ ownerScope = some candidate.ownerScope then .ok candidate
    else .error (.key "candidate_not_found")

def Store.setCandidate (s : Store) (candidate : Candidate) : Store :=
  { s with candidates := s.candidates.set candidate.candidateId candidate }

/-! ## Evaluation -/

/-- `EVALUATION_VERDICTS` -/
def evaluationVerdicts : List String :=
  ["pass", "fail", "evaluator_failure", "unavailable", "inconclusive", "unknown"]

/-- A case as it is recorded. -/
def normalizeCase (raw : Object) : Object :=
  let row := a.normalize raw
  let verdict := a.rt.lower (let text := row.text a.rt "verdict"; if text = "" then "unknown" else text)
  let verdict :=
    if verdict = "needs_work" then "fail"
    else if verdict = "error" then "evaluator_failure"
    else verdict
  let verdict := if verdict ∈ evaluationVerdicts then verdict else "unknown"
  let role := a.rt.lower (let text := row.text a.rt "role"; if text = "" then "original" else text)
  (row.set "verdict" (.str verdict)).set "role" (.str role)

/-- `row["verdict"] == verdict`, of a case as it is recorded. -/
def hasVerdict (verdict : String) (row : Object) : Bool := row.text a.rt "verdict" = verdict

/-- `row.get("evidence_kind") in kinds` -/
def hasEvidence (kinds : List String) (row : Object) : Bool :=
  match Object.get? row "evidence_kind" with
  | some (.str kind) => kind ∈ kinds
  | _ => false

/-- `evaluate` of the recorded cases of a candidate. -/
def evaluationOf (candidate : Candidate) (cases : List Object) (evaluator : Object)
    (runtimeVersion now : String) : Evaluation :=
  let passing := cases.filter (hasVerdict a "pass")
  let allPassed := !cases.isEmpty && cases.all (hasVerdict a "pass")
  let covered := ["original", "boundary", "negative"].all fun role =>
    passing.any fun row => row.text a.rt "role" = role
  let actionOriginal := passing.any fun row =>
    row.text a.rt "role" = "original" && hasEvidence ["native_test", "integration_test"] row
  let corroborated := passing.any
    (hasEvidence ["deterministic", "native_test", "integration_test"])
  let producerId := candidate.producer.text a.rt "id"
  let independent := passing.any fun row => row.text a.rt "evaluator_id" ≠ producerId
  let verdict :=
    if cases.any (hasVerdict a "evaluator_failure") then "evaluator_failure"
    else if cases.any (hasVerdict a "unavailable") then "unavailable"
    else if cases.any (hasVerdict a "unknown") then "unknown"
    else if cases.any (hasVerdict a "inconclusive") then "inconclusive"
    else if allPassed && covered && corroborated && independent &&
      (candidate.risk = "read_only_guidance" || actionOriginal) && candidate.conflicts = [] then
      "pass"
    else "fail"
  { verdict := verdict
    cases := cases
    evaluator := evaluator
    runtimeVersion := runtimeVersion
    sampleSize := cases.length
    passed := passing.length
    passRate := if cases = [] then 0 else a.rate passing.length cases.length 4
    corroborated := corroborated
    independentReview := independent
    evaluatedAt := now }

/-- `evaluate` -/
def evaluate (candidateId : String) (cases : List Object) (evaluator : Object)
    (runtimeVersion : String) (ownerScope : Option String) (now : String) (s : Store) :
    Except Failure Store := do
  let candidate ← ownedCandidate s candidateId ownerScope
  let evaluation :=
    evaluationOf a candidate (cases.map (normalizeCase a)) evaluator runtimeVersion now
  return s.setCandidate
    { candidate with
      evaluation := some evaluation
      status := if evaluation.verdict = "pass" then .evaluating else .rejected
      updatedAt := now }

/-! ## Promotion -/

/-- `policy` of `promote`, with its defaults. -/
structure Policy where
  minimumCases : Int := 3
  minimumPassRate : ℚ := 1

/-- The name of the artifact of a candidate. -/
def artifactName (candidate : Candidate) : String :=
  let name := candidate.artifact.text a.rt "name"
  if name = "" then candidate.candidateId else name

/-- The checks of `promote`; the evaluation that is promoted. -/
def promotionChecks (candidate : Candidate) (operatorId : String) (automatic : Bool)
    (policy : Policy) : Except Failure Evaluation :=
  match candidate.evaluation with
  | none => .error (.value "evaluation_pass_required")
  | some evaluation =>
    if evaluation.verdict ≠ "pass" then .error (.value "evaluation_pass_required")
    else if candidate.conflicts ≠ [] then .error (.value "candidate_policy_conflict")
    else if candidate.producer.text a.rt "kind" ≠ "operator" ∧
        candidate.producer.text a.rt "id" = operatorId then
      .error (.value "producer_cannot_self_approve")
    else if (evaluation.sampleSize : Int) < max 3 policy.minimumCases ∨
        evaluation.passRate < max 0 (min 1 policy.minimumPassRate) then
      .error (.value "promotion_evidence_below_policy")
    else if !evaluation.corroborated ∨ !evaluation.independentReview then
      .error (.value "independent_corroboration_required")
    else if automatic ∧ candidate.risk ≠ "read_only_guidance" then
      .error (.value "risk_requires_operator_review")
    else .ok evaluation

/-- Another approved candidate of the same owner, type and name is superseded. -/
def supersedeCandidate (candidate : Candidate) (now : String) (other : Candidate) : Candidate :=
  if other.candidateId ≠ candidate.candidateId ∧ other.ownerScope = candidate.ownerScope ∧
      other.type = candidate.type ∧ artifactName a other = artifactName a candidate ∧
      other.status = .approved then
    { other with status := .superseded, updatedAt := now }
  else other

/-- The active promotions of one owner, type and name. -/
def isActive (ownerScope artifactType name : String) (p : Promotion) : Bool :=
  p.ownerScope = ownerScope && p.artifactType = artifactType && p.artifactName = name &&
    p.status = .active

/-- `promote` -/
def promote (candidateId operatorId : String) (ownerScope : Option String) (automatic : Bool)
    (policy : Policy) (learningEnabled : Bool) (drawn now : String) (s : Store) :
    Except Failure Store := do
  if !learningEnabled then
    throw (.value "learning_disabled")
  let candidate ← ownedCandidate s candidateId ownerScope
  let evaluation ← promotionChecks a candidate operatorId automatic policy
  let name := artifactName a candidate
  let active := isActive candidate.ownerScope candidate.type name
  let record : Promotion :=
    { promotionId := drawn
      candidateId := candidateId
      ownerScope := candidate.ownerScope
      artifactType := candidate.type
      artifactName := name
      artifact := candidate.artifact
      artifactFingerprint := candidate.artifactFingerprint
      version := candidate.version
      sourceRefs := candidate.sourceRefs
      evaluation := evaluation
      operatorId := operatorId
      automatic := automatic
      risk := candidate.risk
      promotedAt := now
      status := .active
      previousPromotionId := ((s.promotions.filter active).getLast?).map Promotion.promotionId
      rollbackOf := none
      restoredFrom := none }
  let superseding : Store :=
    { s with
      candidates := s.candidates.mapValues (supersedeCandidate a candidate now)
      promotions := (s.promotions.map fun p =>
        if active p then { p with status := .superseded } else p) ++ [record] }
  return superseding.setCandidate { candidate with status := .approved, updatedAt := now }

/-- `demote` -/
def demote (candidateId operatorId reason : String) (ownerScope : Option String) (now : String)
    (s : Store) : Except Failure Store := do
  let candidate ← ownedCandidate s candidateId ownerScope
  let demotion : Demotion :=
    { operatorId := operatorId
      reason := String.ofList ((a.normalizeText reason).toList.take 500)
      demotedAt := now }
  let demoted : Store :=
    { s with
      promotions := s.promotions.map fun p =>
        if p.candidateId = candidateId ∧ p.status = .active then { p with status := .demoted }
        else p }
  return demoted.setCandidate
    { candidate with status := .demoted, demotion := some demotion, updatedAt := now }

/-- The first promotion that meets a condition is changed. -/
def amendFirst (p : Promotion → Bool) (f : Promotion → Promotion) : List Promotion → List Promotion
  | [] => []
  | record :: records =>
    if p record then f record :: records else record :: amendFirst p f records

/-- `rollback` -/
def rollback (ownerScope artifactType name targetPromotionId operatorId drawn now : String)
    (s : Store) : Except Failure Store :=
  let related := fun p : Promotion =>
    p.ownerScope = ownerScope && p.artifactType = artifactType && p.artifactName = name
  match s.promotions.find? fun p => related p && p.promotionId = targetPromotionId with
  | none => .error (.key "rollback_target_not_found")
  | some target =>
    let active := isActive ownerScope artifactType name
    let restored : Promotion :=
      -- the copy is taken when the active one has been marked, which may be the target itself
      { target with
        promotionId := drawn
        operatorId := operatorId
        automatic := false
        promotedAt := now
        status := .active
        rollbackOf := (s.promotions.find? active).map Promotion.promotionId
        restoredFrom := some targetPromotionId }
    let s := { s with
      promotions := amendFirst active (fun p => { p with status := .rolledBack }) s.promotions ++
        [restored] }
    .ok (match s.candidates.get? restored.candidateId with
      | none => s
      | some candidate =>
        s.setCandidate { candidate with status := .approved, updatedAt := now })

/-- `record_outcome` -/
def recordOutcome (candidateId : String) (succeeded : Bool) (latencySeconds : ℚ)
    (regression : Bool) (ownerScope : Option String) (now : String) (s : Store) :
    Except Failure Store := do
  let _ ← ownedCandidate s candidateId ownerScope
  let metrics := (s.monitoring.get? candidateId).getD
    { uses := 0
      successes := 0
      failures := 0
      latencyTotal := 0
      regressions := 0
      successRate := 0
      averageLatency := 0
      updatedAt := now }
  let uses := metrics.uses + 1
  let successes := if succeeded then metrics.successes + 1 else metrics.successes
  let latencyTotal := metrics.latencyTotal + max latencySeconds 0
  return { s with
    monitoring := s.monitoring.set candidateId
      { uses := uses
        successes := successes
        failures := if succeeded then metrics.failures else metrics.failures + 1
        latencyTotal := latencyTotal
        regressions := if regression then metrics.regressions + 1 else metrics.regressions
        successRate := a.rate successes uses 4
        averageLatency := a.rate latencyTotal uses 6
        updatedAt := now } }

end Pandamonium.Learning

/-!
## Runs of the learning store

An operation of `LearningCandidateStore` reads the whole state under the lock, changes it and writes
it, so it is one step.  A file that cannot be read is taken for an empty one, and what raises,
also the write, leaves the file as it was.
-/

namespace Pandamonium.Learning

open Pandamonium.Library

inductive Request
  | createCandidate (r : CreateRequest) (drawn now : String)
  | evaluate (candidateId : String) (cases : List Object) (evaluator : Object)
      (runtimeVersion : String) (ownerScope : Option String) (now : String)
  | promote (candidateId operatorId : String) (ownerScope : Option String) (automatic : Bool)
      (policy : Policy) (learningEnabled : Bool) (drawn now : String)
  | demote (candidateId operatorId reason : String) (ownerScope : Option String) (now : String)
  | rollback (ownerScope artifactType artifactName targetPromotionId operatorId drawn now : String)
  | recordOutcome (candidateId : String) (succeeded : Bool) (latencySeconds : ℚ)
      (regression : Bool) (ownerScope : Option String) (now : String)

variable (a : Artifacts)

/-- `create_candidate` -/
def createCandidate (r : CreateRequest) (drawn now : String) (s : Store) : Except Failure Store := do
  let candidate ← newCandidate a r drawn now
  insertCandidate candidate s

def Request.perform : Request → Store → Except Failure Store
  | .createCandidate r drawn now => Learning.createCandidate a r drawn now
  | .evaluate candidateId cases evaluator runtimeVersion ownerScope now =>
    Learning.evaluate a candidateId cases evaluator runtimeVersion ownerScope now
  | .promote candidateId operatorId ownerScope automatic policy learningEnabled drawn now =>
    Learning.promote a candidateId operatorId ownerScope automatic policy learningEnabled drawn now
  | .demote candidateId operatorId reason ownerScope now =>
    Learning.demote a candidateId operatorId reason ownerScope now
  | .rollback ownerScope artifactType artifactName targetPromotionId operatorId drawn now =>
    Learning.rollback ownerScope artifactType artifactName targetPromotionId operatorId drawn now
  | .recordOutcome candidateId succeeded latencySeconds regression ownerScope now =>
    Learning.recordOutcome a candidateId succeeded latencySeconds regression ownerScope now

/-- A request, and whether the file can be read and written. -/
structure Turn where
  request : Request
  readable : Bool
  writable : Bool

/-- `_read` -/
def Turn.reads (turn : Turn) (s : Store) : Store := if turn.readable then s else Store.empty

/-- The file after a turn. -/
def Turn.leaves (turn : Turn) (s : Store) : Store :=
  match turn.request.perform a (turn.reads s) with
  | .ok s' => if turn.writable then s' else s
  | .error _ => s

def learning : TransitionSystem Store Turn where
  init s := s = Store.empty
  step s turn := some (turn.leaves a s)

/-! ## Slots -/

/-- The owner, the type and the name under which a promotion is active. -/
def Promotion.slot (p : Promotion) : String × String × String :=
  (p.ownerScope, p.artifactType, p.artifactName)

def Candidate.slot (candidate : Candidate) : String × String × String :=
  (candidate.ownerScope, candidate.type, artifactName a candidate)

end Pandamonium.Learning
