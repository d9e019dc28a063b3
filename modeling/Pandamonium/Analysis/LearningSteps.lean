import Pandamonium.Library.FailingReads
import Pandamonium.Model.LearningStore

/-!
# What an operation of the learning store writes

Each operation that returns has found its candidate, or its promotion, and writes one new state.  A
candidate never changes its owner, its type, its artifact, its producer and its risk, and a promotion
is always of a candidate that is there.
-/

set_option autoImplicit false

namespace Pandamonium.Learning

open Pandamonium.Library

variable {a : Artifacts} {s s' : Store} {candidateId : String} {ownerScope : Option String}
variable {candidate : Candidate} {now : String}

/-! ## The operations -/

/-- The owner of a request may be left open. -/
def OwnedBy (ownerScope : Option String) (candidate : Candidate) : Prop :=
  ownerScope = none ∨ ownerScope = some candidate.ownerScope

instance : Decidable (OwnedBy ownerScope candidate) :=
  inferInstanceAs (Decidable (_ ∨ _))

theorem ownedCandidate_eq_ok :
    ownedCandidate s candidateId ownerScope = .ok candidate ↔
      s.candidates.get? candidateId = some candidate ∧ OwnedBy ownerScope candidate := by
  unfold ownedCandidate
  constructor
  · intro h
    split at h
    · cases h
    · split at h
      · cases h
        exact ⟨by assumption, by assumption⟩
      · cases h
  · rintro ⟨hget, howned⟩
    rw [hget]
    exact if_pos howned

/-- What is never changed in a candidate. -/
structure Candidate.Follows (c c' : Candidate) : Prop where
  ownerScope : c'.ownerScope = c.ownerScope
  type : c'.type = c.type
  artifact : c'.artifact = c.artifact
  candidateId : c'.candidateId = c.candidateId
  producer : c'.producer = c.producer
  risk : c'.risk = c.risk
  conflicts : c'.conflicts = c.conflicts

theorem Candidate.Follows.refl (c : Candidate) : c.Follows c :=
  ⟨rfl, rfl, rfl, rfl, rfl, rfl, rfl⟩

theorem Candidate.Follows.slot {c c' : Candidate} (h : c.Follows c') : c'.slot a = c.slot a := by
  simp only [Candidate.slot, artifactName, h.ownerScope, h.type, h.artifact, h.candidateId]

/-- What is never changed in a promotion. -/
structure Promotion.Follows (p p' : Promotion) : Prop where
  candidateId : p'.candidateId = p.candidateId
  slot : p'.slot = p.slot
  evaluation : p'.evaluation = p.evaluation

/-- What is drawn up is not approved and not evaluated. -/
theorem newCandidate_eq_ok {r : CreateRequest} {drawn : String}
    (h : newCandidate a r drawn now = .ok candidate) :
    candidate.status ≠ .approved ∧ candidate.evaluation = none := by
  unfold newCandidate at h
  dsimp only at h
  split at h
  · cases h
  · have hdraft : ∀ conflicts : List String,
        (if conflicts = [] then Status.draft else .rejected) ≠ .approved := by
      intro conflicts
      split <;> simp
    split at h
    · obtain ⟨items, -, h⟩ := bind_eq_ok h
      cases h
      exact ⟨hdraft _, rfl⟩
    · cases h
      exact ⟨hdraft _, rfl⟩

theorem createCandidate_eq_ok {r : CreateRequest} {drawn : String}
    (h : createCandidate a r drawn now s = .ok s') :
    ∃ candidate, s.candidates.get? candidate.candidateId = none ∧
      candidate.status ≠ .approved ∧ candidate.evaluation = none ∧
      s' = s.setCandidate candidate := by
  obtain ⟨candidate, hnew, hinsert⟩ := bind_eq_ok h
  obtain ⟨hstatus, hevaluation⟩ := newCandidate_eq_ok hnew
  unfold insertCandidate at hinsert
  split at hinsert
  · cases hinsert
  · cases hinsert
    exact ⟨candidate, Option.not_isSome_iff_eq_none.mp ‹_›, hstatus, hevaluation, rfl⟩

/-- The candidate with the evaluation of the cases recorded. -/
def Candidate.evaluated (a : Artifacts) (cases : List Object) (evaluator : Object)
    (runtimeVersion now : String) (candidate : Candidate) : Candidate :=
  let evaluation :=
    evaluationOf a candidate (cases.map (normalizeCase a)) evaluator runtimeVersion now
  { candidate with
    evaluation := some evaluation
    status := if evaluation.verdict = "pass" then .evaluating else .rejected
    updatedAt := now }

theorem status_evaluated (cases : List Object) (evaluator : Object) (runtimeVersion : String) :
    (candidate.evaluated a cases evaluator runtimeVersion now).status ≠ .approved := by
  unfold Candidate.evaluated
  dsimp only
  split <;> simp

theorem evaluate_eq_ok {cases : List Object} {evaluator : Object} {runtimeVersion : String} :
    evaluate a candidateId cases evaluator runtimeVersion ownerScope now s = .ok s' ↔
      ∃ candidate, s.candidates.get? candidateId = some candidate ∧ OwnedBy ownerScope candidate ∧
        s' = s.setCandidate (candidate.evaluated a cases evaluator runtimeVersion now) := by
  constructor
  · intro h
    obtain ⟨candidate, hcandidate, hs'⟩ := bind_eq_ok h
    obtain ⟨hget, howned⟩ := ownedCandidate_eq_ok.mp hcandidate
    cases hs'
    exact ⟨candidate, hget, howned, rfl⟩
  · rintro ⟨candidate, hget, howned, rfl⟩
    rw [evaluate, ownedCandidate_eq_ok.mpr ⟨hget, howned⟩]
    rfl

theorem promotionChecks_eq_ok {operatorId : String} {automatic : Bool} {policy : Policy}
    {evaluation : Evaluation}
    (h : promotionChecks a candidate operatorId automatic policy = .ok evaluation) :
    candidate.evaluation = some evaluation ∧ evaluation.verdict = "pass" := by
  unfold promotionChecks at h
  split at h
  · cases h
  · next hevaluation =>
    split_ifs at h with hverdict
    cases h
    exact ⟨hevaluation, not_not.mp hverdict⟩

/-- The promotion that `promote` records. -/
def Candidate.promotion (a : Artifacts) (candidateId operatorId : String) (automatic : Bool)
    (drawn now : String) (evaluation : Evaluation) (s : Store) (candidate : Candidate) :
    Promotion :=
  let name := artifactName a candidate
  { promotionId := drawn
    candidateId := candidateId
    ownerScope := candidate.ownerScope
    artifactType := candidate.type
    artifactName := name
    artifact := candidate.artifact
    artifactFingerprint := candidate.artifactFingerprint
    version := candidate.version
    sourceRefs := candidate.sourceRefs
    evaluation := evaluation
    operatorId := operatorId
    automatic := automatic
    risk := candidate.risk
    promotedAt := now
    status := .active
    previousPromotionId :=
      ((s.promotions.filter (isActive candidate.ownerScope candidate.type name)).getLast?).map
        Promotion.promotionId
    rollbackOf := none
    restoredFrom := none }

/-- The candidate, in use. -/
def Candidate.approved (now : String) (candidate : Candidate) : Candidate :=
  { candidate with status := .approved, updatedAt := now }

/-- The candidate, no longer in use. -/
def Candidate.demoted (demotion : Demotion) (now : String) (candidate : Candidate) : Candidate :=
  { candidate with status := .demoted, demotion := some demotion, updatedAt := now }

/-- The active promotions of a candidate are demoted. -/
def demoteAll (candidateId : String) (promotions : List Promotion) : List Promotion :=
  promotions.map fun p =>
    if p.candidateId = candidateId ∧ p.status = .active then { p with status := .demoted } else p

/-- The active promotions of a slot are superseded. -/
def supersede (slot : String × String × String) (promotions : List Promotion) : List Promotion :=
  promotions.map fun p =>
    if isActive slot.1 slot.2.1 slot.2.2 p then { p with status := .superseded } else p

theorem promote_eq_ok {operatorId : String} {automatic : Bool} {policy : Policy}
    {learningEnabled : Bool} {drawn : String} :
    promote a candidateId operatorId ownerScope automatic policy learningEnabled drawn now s =
        .ok s' ↔
      learningEnabled = true ∧ ∃ candidate evaluation,
        s.candidates.get? candidateId = some candidate ∧ OwnedBy ownerScope candidate ∧
        promotionChecks a candidate operatorId automatic policy = .ok evaluation ∧
        s' = { s with
          candidates := (s.candidates.mapValues (supersedeCandidate a candidate now)).set
            candidate.candidateId (candidate.approved now)
          promotions := supersede (candidate.slot a) s.promotions ++
            [candidate.promotion a candidateId operatorId automatic drawn now evaluation s] } := by
  constructor
  · intro h
    cases learningEnabled with
    | false => cases h
    | true =>
      obtain ⟨candidate, hcandidate, h⟩ := bind_eq_ok h
      obtain ⟨evaluation, hchecks, h⟩ := bind_eq_ok h
      obtain ⟨hget, howned⟩ := ownedCandidate_eq_ok.mp hcandidate
      cases h
      exact ⟨rfl, candidate, evaluation, hget, howned, hchecks, rfl⟩
  · rintro ⟨rfl, candidate, evaluation, hget, howned, hchecks, rfl⟩
    unfold promote
    rw [ownedCandidate_eq_ok.mpr ⟨hget, howned⟩]
    show promotionChecks a candidate operatorId automatic policy >>= _ = _
    rw [hchecks]
    rfl

theorem demote_eq_ok {operatorId reason : String}
    (h : demote a candidateId operatorId reason ownerScope now s = .ok s') :
    ∃ candidate demotion, s.candidates.get? candidateId = some candidate ∧
      s' = { s with
        candidates := s.candidates.set candidate.candidateId (candidate.demoted demotion now)
        promotions := demoteAll candidateId s.promotions } := by
  obtain ⟨candidate, hcandidate, h⟩ := bind_eq_ok h
  obtain ⟨hget, -⟩ := ownedCandidate_eq_ok.mp hcandidate
  cases h
  exact ⟨candidate, _, hget, rfl⟩

/-- The promotion that `rollback` records. -/
def Promotion.restored (operatorId drawn now : String) (rollbackOf : Option String)
    (target : Promotion) : Promotion :=
  { target with
    promotionId := drawn
    operatorId := operatorId
    automatic := false
    promotedAt := now
    status := .active
    rollbackOf := rollbackOf
    restoredFrom := some target.promotionId }

/-- The promotion that `rollback` restores. -/
def rollbackTarget (s : Store) (slot : String × String × String) (targetPromotionId : String) :
    Option Promotion :=
  s.promotions.find? fun p => decide (p.slot = slot) && decide (p.promotionId = targetPromotionId)

/-- The active promotion that `rollback` marks. -/
def rolledBack (s : Store) (slot : String × String × String) : Option Promotion :=
  s.promotions.find? (isActive slot.1 slot.2.1 slot.2.2)

/-- A promotion is restored and its candidate approved. -/
def Store.restore (slot : String × String × String) (target : Promotion)
    (operatorId drawn now : String) (s : Store) : Store :=
  { s with
    candidates :=
      match s.candidates.get? target.candidateId with
      | none => s.candidates
      | some candidate => s.candidates.set candidate.candidateId (candidate.approved now)
    promotions :=
      amendFirst (isActive slot.1 slot.2.1 slot.2.2) (fun p => { p with status := .rolledBack })
        s.promotions ++
      [target.restored operatorId drawn now ((rolledBack s slot).map Promotion.promotionId)] }

theorem rollback_eq_ok {ownerScope artifactType name targetPromotionId operatorId drawn : String} :
    rollback ownerScope artifactType name targetPromotionId operatorId drawn now s = .ok s' ↔
      ∃ target, rollbackTarget s (ownerScope, artifactType, name) targetPromotionId = some target ∧
        s' = s.restore (ownerScope, artifactType, name) target operatorId drawn now := by
  have hfind : s.promotions.find? (fun p =>
      (decide (p.ownerScope = ownerScope) && decide (p.artifactType = artifactType) &&
        decide (p.artifactName = name)) && decide (p.promotionId = targetPromotionId)) =
      rollbackTarget s (ownerScope, artifactType, name) targetPromotionId := by
    rw [rollbackTarget]
    congr 1
    funext p
    simp [Promotion.slot, Prod.ext_iff, Bool.and_assoc]
  unfold rollback
  dsimp only
  rw [hfind]
  cases htarget : rollbackTarget s (ownerScope, artifactType, name) targetPromotionId with
  | none => simp
  | some target =>
    have hid : target.promotionId = targetPromotionId := by
      have h := List.find?_some htarget
      simp only [Bool.and_eq_true, decide_eq_true_eq] at h
      exact h.2
    subst hid
    simp only [Except.ok.injEq, Option.some.injEq, exists_eq_left']
    rw [eq_comm]
    cases hcandidate : s.candidates.get? target.candidateId with
    | none => simp [Store.restore, hcandidate, Promotion.restored, rolledBack]
    | some candidate =>
      simp [Store.restore, hcandidate, Promotion.restored, rolledBack, Store.setCandidate,
        Candidate.approved]

theorem recordOutcome_eq_ok {succeeded regression : Bool} {latencySeconds : ℚ}
    (h : recordOutcome a candidateId succeeded latencySeconds regression ownerScope now s =
      .ok s') : s'.candidates = s.candidates ∧ s'.promotions = s.promotions := by
  obtain ⟨candidate, -, h⟩ := bind_eq_ok h
  cases h
  exact ⟨rfl, rfl⟩

end Pandamonium.Learning
