import Pandamonium.Analysis.ActivePromotions

/-!
# The promotion gate

What an evaluation that passes says of its cases, and which promotions are ever active.  A case
without an evaluator counts as one by another evaluator than the producer, so a candidate can be
promoted that nobody else is named to have evaluated.  `rollback` looks at the promotions alone, and
`evaluate` does not look at them.
-/

set_option autoImplicit false

namespace Pandamonium.Learning

open Pandamonium.Library

variable {a : Artifacts} {s s' : Store} {candidate : Candidate} {now : String}
variable {cases : List Object}

/-! ## Evaluations -/

/-- A case that passes, by an evaluator that is named and is not the producer. -/
def Independent (a : Artifacts) (candidate : Candidate) (row : Object) : Prop :=
  hasVerdict a "pass" row = true ∧ row.text a.rt "evaluator_id" ≠ "" ∧
    row.text a.rt "evaluator_id" ≠ candidate.producer.text a.rt "id"

/-- The evaluation passed, it covers the three kinds of cases, it has an independent case, and a
candidate whose risk is above read-only has been tested. -/
structure Gate (a : Artifacts) (candidate : Candidate) (e : Evaluation) : Prop where
  passed : e.verdict = "pass"
  covers : ∀ role ∈ ["original", "boundary", "negative"],
    ∃ row ∈ e.cases, hasVerdict a "pass" row = true ∧ row.text a.rt "role" = role
  independent : ∃ row ∈ e.cases, Independent a candidate row
  tested : candidate.risk ≠ "read_only_guidance" → ∃ row ∈ e.cases,
    hasVerdict a "pass" row = true ∧ hasEvidence ["native_test", "integration_test"] row = true

/-- What the evaluation of a candidate asks of the cases it is given. -/
structure Passes (a : Artifacts) (candidate : Candidate) (cases : List Object) : Prop where
  all : ∀ row ∈ cases, hasVerdict a "pass" row = true
  covers : ∀ role ∈ ["original", "boundary", "negative"],
    ∃ row ∈ cases, row.text a.rt "role" = role
  corroborated : ∃ row ∈ cases,
    hasEvidence ["deterministic", "native_test", "integration_test"] row = true
  other : ∃ row ∈ cases, row.text a.rt "evaluator_id" ≠ candidate.producer.text a.rt "id"
  tested : candidate.risk = "read_only_guidance" ∨ ∃ row ∈ cases,
    row.text a.rt "role" = "original" ∧ hasEvidence ["native_test", "integration_test"] row = true
  unopposed : candidate.conflicts = []

theorem hasVerdict_unique {verdict verdict' : String} {row : Object}
    (h : hasVerdict a verdict row = true) (hne : verdict' ≠ verdict) :
    hasVerdict a verdict' row = false := by
  simp only [hasVerdict, decide_eq_true_eq, decide_eq_false_iff_not] at h ⊢
  rw [h]
  exact Ne.symm hne

/-- The last condition of `evaluate`, where every case passes. -/
theorem passes_iff : Passes a candidate cases ↔
    (∀ row ∈ cases, hasVerdict a "pass" row = true) ∧
      ((!cases.isEmpty && cases.all (hasVerdict a "pass")) &&
        (["original", "boundary", "negative"].all fun role =>
          cases.any fun row => row.text a.rt "role" = role) &&
        cases.any (hasEvidence ["deterministic", "native_test", "integration_test"]) &&
        (cases.any fun row => row.text a.rt "evaluator_id" ≠ candidate.producer.text a.rt "id") &&
        (candidate.risk = "read_only_guidance" || cases.any fun row =>
          row.text a.rt "role" = "original" && hasEvidence ["native_test", "integration_test"] row) &&
        candidate.conflicts = []) = true := by
  simp only [Bool.and_eq_true, Bool.or_eq_true, List.all_eq_true, List.any_eq_true,
    decide_eq_true_eq, Bool.not_eq_true', List.isEmpty_eq_false_iff]
  constructor
  · intro h
    obtain ⟨row, hrow, -⟩ := h.other
    exact ⟨h.all, ⟨⟨⟨⟨⟨List.ne_nil_of_mem hrow, h.all⟩, h.covers⟩, h.corroborated⟩, h.other⟩,
      h.tested⟩, h.unopposed⟩
  · rintro ⟨hall, ⟨⟨⟨⟨⟨-, -⟩, hcovers⟩, hcorroborated⟩, hother⟩, htested⟩, hunopposed⟩
    exact ⟨hall, hcovers, hcorroborated, hother, htested, hunopposed⟩

/-- An evaluation passes exactly when its cases do. -/
theorem verdict_evaluationOf_iff (evaluator : Object) (runtimeVersion : String) :
    (evaluationOf a candidate cases evaluator runtimeVersion now).verdict = "pass" ↔
      Passes a candidate cases := by
  rw [passes_iff]
  constructor
  · intro h
    simp only [evaluationOf] at h
    split_ifs at h with _ _ _ _ hpasses
    · exact absurd h (by decide)
    · exact absurd h (by decide)
    · exact absurd h (by decide)
    · exact absurd h (by decide)
    · have hall : ∀ row ∈ cases, hasVerdict a "pass" row = true := by
        simp only [Bool.and_eq_true, List.all_eq_true] at hpasses
        exact hpasses.1.1.1.1.1.2
      rw [List.filter_eq_self.mpr hall] at hpasses
      exact ⟨hall, hpasses⟩
    · exact absurd h (by decide)
  · rintro ⟨hall, hpasses⟩
    have hnone : ∀ verdict, "pass" ≠ verdict → ¬ cases.any (hasVerdict a verdict) = true := by
      intro verdict hne
      simp only [List.any_eq_true, not_exists, not_and, Bool.not_eq_true]
      exact fun row hrow => hasVerdict_unique (hall row hrow) hne.symm
    simp only [evaluationOf]
    rw [if_neg (hnone _ (by decide)), if_neg (hnone _ (by decide)), if_neg (hnone _ (by decide)),
      if_neg (hnone _ (by decide)), List.filter_eq_self.mpr hall, if_pos hpasses]

theorem gate_of_passes {e : Evaluation} (hpassed : e.verdict = "pass")
    (hpasses : Passes a candidate e.cases)
    (hindependent : ∃ row ∈ e.cases, Independent a candidate row) : Gate a candidate e where
  passed := hpassed
  covers role hrole := by
    obtain ⟨row, hrow, hcovers⟩ := hpasses.covers role hrole
    exact ⟨row, hrow, hpasses.all row hrow, hcovers⟩
  independent := hindependent
  tested hrisk := by
    obtain ⟨row, hrow, -, hevidence⟩ := hpasses.tested.resolve_left hrisk
    exact ⟨row, hrow, hpasses.all row hrow, hevidence⟩

variable {candidate' : Candidate} {request : Request}

theorem Passes.follows (hfollows : candidate.Follows candidate') (h : Passes a candidate cases) :
    Passes a candidate' cases :=
  ⟨h.all, h.covers, h.corroborated, hfollows.producer ▸ h.other, hfollows.risk ▸ h.tested,
    hfollows.conflicts ▸ h.unopposed⟩

theorem independent_iff (hfollows : candidate.Follows candidate') (row : Object) :
    Independent a candidate' row ↔ Independent a candidate row := by
  simp only [Independent, hfollows.producer]

theorem gate_iff (hfollows : candidate.Follows candidate') (e : Evaluation) :
    Gate a candidate' e ↔ Gate a candidate e := by
  constructor
  · rintro ⟨hpassed, hcovers, hindependent, htested⟩
    refine ⟨hpassed, hcovers, ?_, hfollows.risk ▸ htested⟩
    simpa only [independent_iff hfollows] using hindependent
  · rintro ⟨hpassed, hcovers, hindependent, htested⟩
    refine ⟨hpassed, hcovers, ?_, hfollows.risk.symm ▸ htested⟩
    simpa only [independent_iff hfollows] using hindependent

/-! ## What is recorded -/

/-- The candidates that were there keep what is never changed, and their evaluation. -/
def KeepsEvaluations (s s' : Store) : Prop :=
  s.candidates.Carries (fun c c' => c.Follows c' ∧ c'.evaluation = c.evaluation) s'.candidates

theorem Linked.keepsEvaluations_set (h : Linked a s) {id : String}
    (hget : s.candidates.get? id = some candidate) (hfollows : candidate.Follows candidate')
    (hevaluation : candidate'.evaluation = candidate.evaluation) :
    s.candidates.Carries (fun c c' => c.Follows c' ∧ c'.evaluation = c.evaluation)
      (s.candidates.set candidate.candidateId candidate') := by
  refine Dict.Carries.set (fun c => ⟨.refl c, rfl⟩) fun c hc => ?_
  rw [h.keyed id candidate hget, hget] at hc
  cases hc
  exact ⟨hfollows, hevaluation⟩

theorem evaluation_supersedeCandidate (other : Candidate) :
    (supersedeCandidate a candidate now other).evaluation = other.evaluation := by
  unfold supersedeCandidate
  split <;> rfl

theorem Linked.keepsEvaluations (h : Linked a s) (hperform : request.perform a s = .ok s')
    (hother : ∀ candidateId cases evaluator runtimeVersion ownerScope now,
      request ≠ .evaluate candidateId cases evaluator runtimeVersion ownerScope now) :
    KeepsEvaluations s s' := by
  cases request with
  | createCandidate r drawn now =>
    obtain ⟨candidate, hfree, -, -, rfl⟩ := createCandidate_eq_ok hperform
    refine Dict.Carries.set (fun c => ⟨.refl c, rfl⟩) fun c hc => ?_
    rw [hfree] at hc
    cases hc
  | evaluate candidateId cases evaluator runtimeVersion ownerScope now =>
    exact absurd rfl (hother _ _ _ _ _ _)
  | promote candidateId operatorId ownerScope automatic policy learningEnabled drawn now =>
    obtain ⟨-, candidate, evaluation, hget, -, -, rfl⟩ := promote_eq_ok.mp hperform
    intro id c hc
    dsimp only
    rw [Dict.get?_set]
    split
    · next heq =>
      rw [heq, h.keyed _ _ hget, hget] at hc
      cases hc
      exact ⟨_, rfl, follows_approved, rfl⟩
    · rw [Dict.get?_mapValues, hc]
      exact ⟨_, rfl, follows_supersedeCandidate c, evaluation_supersedeCandidate c⟩
  | demote candidateId operatorId reason ownerScope now =>
    obtain ⟨candidate, demotion, hget, rfl⟩ := demote_eq_ok hperform
    exact h.keepsEvaluations_set hget follows_demoted rfl
  | rollback ownerScope artifactType name targetPromotionId operatorId drawn now =>
    obtain ⟨target, htarget, rfl⟩ := rollback_eq_ok.mp hperform
    obtain ⟨candidate, hget, -, hcandidates⟩ :=
      h.restore_candidates htarget operatorId drawn now
    rw [KeepsEvaluations, hcandidates, ← h.keyed _ _ hget]
    exact h.keepsEvaluations_set hget follows_approved rfl
  | recordOutcome candidateId succeeded latencySeconds regression ownerScope now =>
    rw [KeepsEvaluations, (recordOutcome_eq_ok hperform).1]
    exact Dict.Carries.refl (fun c => ⟨.refl c, rfl⟩) _

/-- The candidate that was there, and has the same evaluation. -/
def Had (s : Store) (id : String) (c' : Candidate) : Prop :=
  ∃ c, s.candidates.get? id = some c ∧ c.Follows c' ∧ c'.evaluation = c.evaluation

theorem Linked.had_set (h : Linked a s) {id : String} (hget : s.candidates.get? id = some candidate)
    (hfollows : candidate.Follows candidate')
    (hevaluation : candidate'.evaluation = candidate.evaluation) {k : String} {c' : Candidate}
    (hc' : (s.candidates.set candidate.candidateId candidate').get? k = some c') : Had s k c' := by
  rw [Dict.get?_set, h.keyed _ _ hget] at hc'
  split at hc'
  · next heq =>
    cases hc'
    exact ⟨candidate, heq ▸ hget, hfollows, hevaluation⟩
  · exact ⟨c', hc', .refl c', rfl⟩

/-- A candidate has what it had, or what it is given has passed where it says so. -/
theorem Linked.evaluation_perform (h : Linked a s) (hperform : request.perform a s = .ok s')
    {id : String} {c' : Candidate} (hc' : s'.candidates.get? id = some c') :
    Had s id c' ∨ ∀ e ∈ c'.evaluation, e.verdict = "pass" → Passes a c' e.cases := by
  cases request with
  | createCandidate r drawn now =>
    obtain ⟨candidate, -, -, hnone, rfl⟩ := createCandidate_eq_ok hperform
    rw [Store.setCandidate, Dict.get?_set] at hc'
    split at hc'
    · cases hc'
      refine .inr fun e he => ?_
      rw [hnone] at he
      cases he
    · exact .inl ⟨c', hc', .refl c', rfl⟩
  | evaluate candidateId cases evaluator runtimeVersion ownerScope now =>
    obtain ⟨candidate, hget, -, rfl⟩ := evaluate_eq_ok.mp hperform
    rw [Store.setCandidate, Dict.get?_set] at hc'
    split at hc'
    · cases hc'
      refine .inr fun e he hpassed => ?_
      cases he
      exact ((verdict_evaluationOf_iff _ _).mp hpassed).follows
        (follows_evaluated cases evaluator runtimeVersion)
    · exact .inl ⟨c', hc', .refl c', rfl⟩
  | promote candidateId operatorId ownerScope automatic policy learningEnabled drawn now =>
    obtain ⟨-, candidate, evaluation, hget, -, -, rfl⟩ := promote_eq_ok.mp hperform
    dsimp only at hc'
    rw [Dict.get?_set, h.keyed _ _ hget] at hc'
    split at hc'
    · next heq =>
      cases hc'
      exact .inl ⟨candidate, heq ▸ hget, follows_approved, rfl⟩
    · rw [Dict.get?_mapValues, Option.map_eq_some_iff] at hc'
      obtain ⟨c, hc, rfl⟩ := hc'
      exact .inl ⟨c, hc, follows_supersedeCandidate c, evaluation_supersedeCandidate c⟩
  | demote candidateId operatorId reason ownerScope now =>
    obtain ⟨candidate, demotion, hget, rfl⟩ := demote_eq_ok hperform
    exact .inl (h.had_set hget follows_demoted rfl hc')
  | rollback ownerScope artifactType name targetPromotionId operatorId drawn now =>
    obtain ⟨target, htarget, rfl⟩ := rollback_eq_ok.mp hperform
    obtain ⟨candidate, hget, -, hcandidates⟩ :=
      h.restore_candidates htarget operatorId drawn now
    rw [hcandidates, ← h.keyed _ _ hget] at hc'
    exact .inl (h.had_set hget follows_approved rfl hc')
  | recordOutcome candidateId succeeded latencySeconds regression ownerScope now =>
    rw [(recordOutcome_eq_ok hperform).1] at hc'
    exact .inl ⟨c', hc', .refl c', rfl⟩

/-- An evaluation that says that it passed has passed, at the candidates and at the promotions, and
every promotion has one that does. -/
structure Recorded (a : Artifacts) (s : Store) : Prop where
  evaluated : ∀ id c, s.candidates.get? id = some c → ∀ e ∈ c.evaluation, e.verdict = "pass" →
    Passes a c e.cases
  promoted : ∀ p ∈ s.promotions, ∃ c, s.candidates.get? p.candidateId = some c ∧
    p.evaluation.verdict = "pass" ∧ Passes a c p.evaluation.cases

theorem recorded_empty : Recorded a Store.empty where
  evaluated _ _ h := by cases h
  promoted _ h := by cases h

theorem Recorded.perform (hlinked : Linked a s) (h : Recorded a s)
    (hperform : request.perform a s = .ok s') : Recorded a s' := by
  constructor
  · intro id c' hc' e he hpassed
    obtain ⟨c, hc, hfollows, hevaluation⟩ | hpasses := hlinked.evaluation_perform hperform hc'
    · exact (h.evaluated id c hc e (hevaluation ▸ he) hpassed).follows hfollows
    · exact hpasses e he hpassed
  · intro p' hp'
    obtain ⟨hkept, -⟩ := hlinked.kept_perform hperform
    obtain ⟨p, hp, hfollows⟩ | ⟨c, hc, -, hevaluation, hpassed, -⟩ :=
      promotions_perform hperform hp'
    · obtain ⟨c, hc, hpassed, hpasses⟩ := h.promoted p hp
      obtain ⟨c', hc', hcfollows⟩ := hkept _ c hc
      rw [hfollows.candidateId, hfollows.evaluation]
      exact ⟨c', hc', hpassed, hpasses.follows hcfollows⟩
    · obtain ⟨c', hc', hcfollows⟩ := hkept _ c hc
      exact ⟨c', hc', hpassed, (h.evaluated _ c hc _ hevaluation hpassed).follows hcfollows⟩

/-! ## The promotions' own evaluations -/

/-- Every promotion is of a candidate for which the evaluation it was made with meets the gate. -/
def RecordGated (a : Artifacts) (s : Store) : Prop :=
  ∀ p ∈ s.promotions, ∃ c, s.candidates.get? p.candidateId = some c ∧ Gate a c p.evaluation

/-- The candidate that is promoted has an independent case. -/
def NamesOther (a : Artifacts) (s : Store) (candidateId : String) (ownerScope : Option String) :
    Prop :=
  ∀ c ∈ s.candidates.get? candidateId, OwnedBy ownerScope c →
    ∀ e ∈ c.evaluation, e.verdict = "pass" → ∃ row ∈ e.cases, Independent a c row

def Request.SparesRecords (a : Artifacts) (s : Store) : Request → Prop
  | .promote candidateId _ ownerScope _ _ _ _ _ => NamesOther a s candidateId ownerScope
  | _ => True

theorem recordGated_perform (hlinked : Linked a s) (hrecorded : Recorded a s) (h : RecordGated a s)
    (hspares : request.SparesRecords a s) (hperform : request.perform a s = .ok s') :
    RecordGated a s' := by
  intro p' hp'
  obtain ⟨hkept, -⟩ := hlinked.kept_perform hperform
  obtain ⟨p, hp, hfollows⟩ | ⟨c, hc, -, hevaluation, hpassed, hpromotes⟩ :=
    promotions_perform hperform hp'
  · obtain ⟨c, hc, hgate⟩ := h p hp
    obtain ⟨c', hc', hcfollows⟩ := hkept _ c hc
    rw [hfollows.candidateId, hfollows.evaluation]
    exact ⟨c', hc', (gate_iff hcfollows _).mpr hgate⟩
  · obtain ⟨c', hc', hcfollows⟩ := hkept _ c hc
    have hindependent : ∃ row ∈ p'.evaluation.cases, Independent a c row := by
      cases request with
      | promote candidateId operatorId ownerScope automatic policy learningEnabled drawn now =>
        obtain ⟨rfl, howned⟩ := hpromotes
        exact hspares c hc howned _ hevaluation hpassed
      | _ => exact hpromotes.elim
    have hpasses := hrecorded.evaluated _ c hc _ hevaluation hpassed
    exact ⟨c', hc', (gate_iff hcfollows _).mpr (gate_of_passes hpassed hpasses hindependent)⟩

/-! ## The candidates' evaluations -/

/-- Every active promotion is of a candidate whose evaluation meets the gate. -/
def Gated (a : Artifacts) (s : Store) : Prop :=
  ∀ p ∈ s.promotions, p.status = .active → ∃ c, s.candidates.get? p.candidateId = some c ∧
    ∃ e, c.evaluation = some e ∧ Gate a c e

/-- A candidate is promoted only where it has an independent case, restored only where its evaluation
meets the gate, and evaluated again while it is in use only with cases that do. -/
def Request.SparesGate (a : Artifacts) (s : Store) : Request → Prop
  | .evaluate candidateId cases _ _ ownerScope _ =>
    ∀ c ∈ s.candidates.get? candidateId, OwnedBy ownerScope c →
      (∃ p ∈ s.promotions, p.status = .active ∧ p.candidateId = candidateId) →
        Passes a c (cases.map (normalizeCase a)) ∧
          ∃ row ∈ cases.map (normalizeCase a), Independent a c row
  | .promote candidateId _ ownerScope _ _ _ _ _ => NamesOther a s candidateId ownerScope
  | .rollback ownerScope artifactType artifactName targetPromotionId _ _ _ =>
    ∀ target ∈ rollbackTarget s (ownerScope, artifactType, artifactName) targetPromotionId,
      ∀ c ∈ s.candidates.get? target.candidateId, ∃ e ∈ c.evaluation, Gate a c e
  | _ => True

/-- Where the evaluations are kept and no promotion becomes active, the gate still holds. -/
theorem Gated.keeps (h : Gated a s) (hkeeps : KeepsEvaluations s s') {p : Promotion}
    (hp : p ∈ s.promotions) (hactive : p.status = .active) :
    ∃ c, s'.candidates.get? p.candidateId = some c ∧ ∃ e, c.evaluation = some e ∧ Gate a c e := by
  obtain ⟨c, hc, e, he, hgate⟩ := h p hp hactive
  obtain ⟨c', hc', hfollows, hevaluation⟩ := hkeeps _ c hc
  exact ⟨c', hc', e, hevaluation.trans he, (gate_iff hfollows e).mpr hgate⟩

theorem active_supersede {slot : String × String × String} {promotions : List Promotion}
    {p' : Promotion} (hp' : p' ∈ supersede slot promotions) (hactive : p'.status = .active) :
    p' ∈ promotions := by
  obtain ⟨p, hp, rfl⟩ := List.mem_map.mp hp'
  split at hactive
  · cases hactive
  · next hne =>
    rw [if_neg hne]
    exact hp

theorem active_demoteAll {id : String} {promotions : List Promotion} {p' : Promotion}
    (hp' : p' ∈ demoteAll id promotions) (hactive : p'.status = .active) : p' ∈ promotions := by
  obtain ⟨p, hp, rfl⟩ := List.mem_map.mp hp'
  split at hactive
  · cases hactive
  · next hne =>
    rw [if_neg hne]
    exact hp

theorem active_amendFirst {q : Promotion → Bool} {promotions : List Promotion} {p' : Promotion}
    (hp' : p' ∈ amendFirst q (fun p => { p with status := .rolledBack }) promotions)
    (hactive : p'.status = .active) : p' ∈ promotions := by
  induction promotions with
  | nil => cases hp'
  | cons p promotions ih =>
    unfold amendFirst at hp'
    split at hp'
    · obtain rfl | hp' := List.mem_cons.mp hp'
      · cases hactive
      · exact List.mem_cons_of_mem p hp'
    · obtain rfl | hp' := List.mem_cons.mp hp'
      · exact List.mem_cons_self
      · exact List.mem_cons_of_mem p (ih hp')

theorem gated_evaluate_iff {candidateId runtimeVersion : String} {evaluator : Object}
    {ownerScope : Option String} (hlinked : Linked a s) (h : Gated a s)
    (hevaluate : evaluate a candidateId cases evaluator runtimeVersion ownerScope now s = .ok s') :
    Gated a s' ↔
      (Request.evaluate candidateId cases evaluator runtimeVersion ownerScope now).SparesGate
        a s := by
  obtain ⟨candidate, hget, howned, rfl⟩ := evaluate_eq_ok.mp hevaluate
  have hid := hlinked.keyed _ _ hget
  have hfollows := @follows_evaluated a candidate now cases evaluator runtimeVersion
  have hspares : (Request.evaluate candidateId cases evaluator runtimeVersion ownerScope
      now).SparesGate a s ↔
      ((∃ p ∈ s.promotions, p.status = .active ∧ p.candidateId = candidateId) →
        Passes a candidate (cases.map (normalizeCase a)) ∧
          ∃ row ∈ cases.map (normalizeCase a), Independent a candidate row) := by
    simp only [Request.SparesGate, hget, Option.mem_def, Option.some.injEq, forall_eq', howned,
      true_implies]
  have hevaluated : ∀ k, (s.setCandidate
      (candidate.evaluated a cases evaluator runtimeVersion now)).candidates.get? k =
        if k = candidateId then
          some (candidate.evaluated a cases evaluator runtimeVersion now)
        else s.candidates.get? k := by
    intro k
    rw [Store.setCandidate, Dict.get?_set, ← hid]
    rfl
  rw [hspares]
  constructor
  · rintro h' ⟨p, hp, hactive, hpid⟩
    obtain ⟨c, hc, e, he, hgate⟩ := h' p hp hactive
    rw [hevaluated, if_pos hpid] at hc
    cases hc
    cases he
    rw [gate_iff hfollows] at hgate
    exact ⟨(verdict_evaluationOf_iff _ _).mp hgate.passed, hgate.independent⟩
  · intro hspared p hp hactive
    rw [hevaluated]
    split
    · next hpid =>
      obtain ⟨hpasses, hindependent⟩ := hspared ⟨p, hp, hactive, hpid⟩
      refine ⟨_, rfl, _, rfl, (gate_iff hfollows _).mpr ?_⟩
      exact gate_of_passes ((verdict_evaluationOf_iff _ _).mpr hpasses) hpasses hindependent
    · exact h p hp hactive

theorem gated_promote_iff {candidateId operatorId drawn : String} {ownerScope : Option String}
    {automatic learningEnabled : Bool} {policy : Policy} (hlinked : Linked a s)
    (hrecorded : Recorded a s) (h : Gated a s)
    (hpromote : promote a candidateId operatorId ownerScope automatic policy learningEnabled drawn
      now s = .ok s') : Gated a s' ↔ NamesOther a s candidateId ownerScope := by
  have hkeeps : KeepsEvaluations s s' := hlinked.keepsEvaluations
    (show (Request.promote candidateId operatorId ownerScope automatic policy learningEnabled drawn
      now).perform a s = .ok s' from hpromote) nofun
  obtain ⟨-, candidate, evaluation, hget, howned, hchecks, rfl⟩ := promote_eq_ok.mp hpromote
  obtain ⟨hevaluation, hpassed⟩ := promotionChecks_eq_ok hchecks
  obtain ⟨c', hc', hfollows, hsame⟩ := hkeeps _ candidate hget
  constructor
  · intro h' c hc _ e he _
    obtain rfl := Option.some.inj (hget.symm.trans hc)
    obtain ⟨c'', hc'', e', he', hgate⟩ := h' _ (List.mem_append_right _ List.mem_cons_self) rfl
    obtain rfl := Option.some.inj (hc'.symm.trans hc'')
    obtain rfl := Option.some.inj (he.symm.trans (hsame.symm.trans he'))
    exact ((gate_iff hfollows e).mp hgate).independent
  · intro hnames p' hp' hactive
    obtain hp' | hp' := List.mem_append.mp hp'
    · exact h.keeps hkeeps (active_supersede hp' hactive) hactive
    · rw [List.mem_singleton.mp hp']
      have hpasses := hrecorded.evaluated _ _ hget _ hevaluation hpassed
      refine ⟨c', hc', evaluation, hsame.trans hevaluation, (gate_iff hfollows evaluation).mpr ?_⟩
      exact gate_of_passes hpassed hpasses (hnames _ hget howned _ hevaluation hpassed)

theorem gated_rollback_iff
    {ownerScope artifactType name targetPromotionId operatorId drawn : String}
    (hlinked : Linked a s) (h : Gated a s)
    (hrollback : rollback ownerScope artifactType name targetPromotionId operatorId drawn now s =
      .ok s') :
    Gated a s' ↔ (Request.rollback ownerScope artifactType name targetPromotionId operatorId drawn
      now).SparesGate a s := by
  have hkeeps : KeepsEvaluations s s' := hlinked.keepsEvaluations
    (show (Request.rollback ownerScope artifactType name targetPromotionId operatorId drawn
      now).perform a s = .ok s' from hrollback) nofun
  obtain ⟨target, htarget, rfl⟩ := rollback_eq_ok.mp hrollback
  obtain ⟨candidate, hget, -⟩ := hlinked.owned target (mem_of_rollbackTarget htarget).1
  obtain ⟨c', hc', hfollows, hsame⟩ := hkeeps _ candidate hget
  have hspares : (Request.rollback ownerScope artifactType name targetPromotionId operatorId drawn
      now).SparesGate a s ↔ ∃ e ∈ candidate.evaluation, Gate a candidate e := by
    simp only [Request.SparesGate, htarget, hget, Option.mem_def, Option.some.injEq, forall_eq']
  rw [hspares]
  constructor
  · intro h'
    obtain ⟨c'', hc'', e, he, hgate⟩ := h' _ (List.mem_append_right _ List.mem_cons_self) rfl
    obtain rfl := Option.some.inj (hc'.symm.trans hc'')
    exact ⟨e, hsame.symm.trans he, (gate_iff hfollows e).mp hgate⟩
  · rintro ⟨e, he, hgate⟩ p' hp' hactive
    obtain hp' | hp' := List.mem_append.mp hp'
    · exact h.keeps hkeeps (active_amendFirst hp' hactive) hactive
    · rw [List.mem_singleton.mp hp']
      exact ⟨c', hc', e, hsame.trans he, (gate_iff hfollows e).mpr hgate⟩

/-- A request that returns keeps the gate exactly where it spares it. -/
theorem gated_perform_iff (hlinked : Linked a s) (hrecorded : Recorded a s) (h : Gated a s)
    (hperform : request.perform a s = .ok s') :
    Gated a s' ↔ request.SparesGate a s := by
  cases request with
  | createCandidate r drawn now =>
    have hkeeps := hlinked.keepsEvaluations hperform nofun
    obtain ⟨candidate, -, -, -, rfl⟩ := createCandidate_eq_ok hperform
    exact iff_of_true (fun p hp hactive => h.keeps hkeeps hp hactive) trivial
  | evaluate candidateId cases evaluator runtimeVersion ownerScope now =>
    exact gated_evaluate_iff hlinked h hperform
  | promote candidateId operatorId ownerScope automatic policy learningEnabled drawn now =>
    exact gated_promote_iff hlinked hrecorded h hperform
  | demote candidateId operatorId reason ownerScope now =>
    have hkeeps := hlinked.keepsEvaluations hperform nofun
    obtain ⟨candidate, demotion, -, rfl⟩ := demote_eq_ok hperform
    exact iff_of_true
      (fun p hp hactive => h.keeps hkeeps (active_demoteAll hp hactive) hactive) trivial
  | rollback ownerScope artifactType artifactName targetPromotionId operatorId drawn now =>
    exact gated_rollback_iff hlinked h hperform
  | recordOutcome candidateId succeeded latencySeconds regression ownerScope now =>
    have hkeeps := hlinked.keepsEvaluations hperform nofun
    refine iff_of_true (fun p hp hactive => h.keeps hkeeps ?_ hactive) trivial
    rw [← (recordOutcome_eq_ok hperform).2]
    exact hp

/-! ## Every run -/

/-- Where a file is written, what is promoted names another evaluator. -/
def SparesRecordsTurn (a : Artifacts) (s : Store) (turn : Turn) : Prop :=
  turn.writable = true → turn.request.SparesRecords a (turn.reads s)

/-- Where a file is written, its request spares the gate. -/
def SparesGateTurn (a : Artifacts) (s : Store) (turn : Turn) : Prop :=
  turn.writable = true → turn.request.SparesGate a (turn.reads s)

theorem Recorded.reads (h : Recorded a s) (turn : Turn) : Recorded a (turn.reads s) := by
  unfold Turn.reads
  split
  · exact h
  · exact recorded_empty

theorem Recorded.leaves (hlinked : Linked a s) (h : Recorded a s) (turn : Turn) :
    Recorded a (turn.leaves a s) := by
  obtain hsame | ⟨-, hperform⟩ := leaves_cases a turn s
  · rw [hsame]
    exact h
  · exact (h.reads turn).perform (hlinked.reads turn) hperform

theorem RecordGated.leaves (hlinked : Linked a s) (hrecorded : Recorded a s)
    (h : RecordGated a s) {turn : Turn} (hspares : SparesRecordsTurn a s turn) :
    RecordGated a (turn.leaves a s) := by
  obtain hsame | ⟨hwritable, hperform⟩ := leaves_cases a turn s
  · rw [hsame]
    exact h
  · refine recordGated_perform (hlinked.reads turn) (hrecorded.reads turn) ?_ (hspares hwritable)
      hperform
    unfold Turn.reads
    split
    · exact h
    · exact fun _ hp => absurd hp List.not_mem_nil

theorem Gated.reads (h : Gated a s) (turn : Turn) : Gated a (turn.reads s) := by
  unfold Turn.reads
  split
  · exact h
  · exact fun _ hp => absurd hp List.not_mem_nil

theorem Gated.leaves (hlinked : Linked a s) (hrecorded : Recorded a s) (h : Gated a s) {turn : Turn}
    (hspares : SparesGateTurn a s turn) : Gated a (turn.leaves a s) := by
  obtain hsame | ⟨hwritable, hperform⟩ := leaves_cases a turn s
  · rw [hsame]
    exact h
  · exact (gated_perform_iff (hlinked.reads turn) (hrecorded.reads turn) (h.reads turn)
      hperform).mpr (hspares hwritable)

/-- What the empty store has and every turn of a kind keeps, in a run of them. -/
theorem holds_of_leaves {ok : Store → Turn → Prop} {Q : Store → Prop} (hempty : Q .empty)
    (hleaves : ∀ {s}, Linked a s → Recorded a s → Q s → ∀ {turn}, ok s turn → Q (turn.leaves a s))
    (h : (learning a).ReachableWhere ok s) : (Linked a s ∧ Recorded a s) ∧ Q s := by
  refine TransitionSystem.ReachableWhere.invariant
    (I := fun s => (Linked a s ∧ Recorded a s) ∧ Q s) ?_ ?_ h
  · rintro s rfl
    exact ⟨⟨linked_empty, recorded_empty⟩, hempty⟩
  · rintro s turn s' ⟨⟨hlinked, hrecorded⟩, hgated⟩ hspares hstep
    obtain rfl := Option.some.inj hstep
    exact ⟨⟨hlinked.leaves turn, hrecorded.leaves hlinked turn⟩,
      hleaves hlinked hrecorded hgated hspares⟩

/-- Where only candidates with an independent case are promoted, every promotion of a run meets the
gate with the evaluation it was made with.  Where the candidates in use keep such an evaluation, the
active ones meet it with the evaluation that is recorded now; the next operation that is written
keeps it so exactly where it spares the gate too. -/
theorem gated_of_spares (a : Artifacts) :
    (∀ s, (learning a).ReachableWhere (SparesRecordsTurn a) s → RecordGated a s) ∧
      ∀ s, (learning a).ReachableWhere (SparesGateTurn a) s → Gated a s ∧
        ∀ (turn : Turn) (s' : Store), turn.writable = true →
          turn.request.perform a (turn.reads s) = .ok s' →
            (Gated a s' ↔ turn.request.SparesGate a (turn.reads s)) := by
  constructor
  · intro s h
    exact (holds_of_leaves (fun _ hp => absurd hp List.not_mem_nil) RecordGated.leaves h).2
  · intro s h
    have hall := holds_of_leaves (fun _ hp => absurd hp List.not_mem_nil) Gated.leaves h
    refine ⟨hall.2, fun turn s' _ hperform => ?_⟩
    exact gated_perform_iff (hall.1.1.reads turn) (hall.1.2.reads turn) (hall.2.reads turn) hperform

/-! ## Two reports -/

instance (row : Object) : Decidable (Independent a candidate row) :=
  inferInstanceAs (Decidable (_ ∧ _ ∧ _))

instance : Decidable (Passes a candidate cases) :=
  decidable_of_iff
    ((∀ row ∈ cases, hasVerdict a "pass" row = true) ∧
      (∀ role ∈ ["original", "boundary", "negative"],
        ∃ row ∈ cases, row.text a.rt "role" = role) ∧
      (∃ row ∈ cases,
        hasEvidence ["deterministic", "native_test", "integration_test"] row = true) ∧
      (∃ row ∈ cases, row.text a.rt "evaluator_id" ≠ candidate.producer.text a.rt "id") ∧
      (candidate.risk = "read_only_guidance" ∨ ∃ row ∈ cases, row.text a.rt "role" = "original" ∧
        hasEvidence ["native_test", "integration_test"] row = true) ∧
      candidate.conflicts = [])
    ⟨fun ⟨h₁, h₂, h₃, h₄, h₅, h₆⟩ => ⟨h₁, h₂, h₃, h₄, h₅, h₆⟩,
      fun h => ⟨h.all, h.covers, h.corroborated, h.other, h.tested, h.unopposed⟩⟩

instance (e : Evaluation) : Decidable (Gate a candidate e) :=
  decidable_of_iff
    (e.verdict = "pass" ∧
      (∀ role ∈ ["original", "boundary", "negative"],
        ∃ row ∈ e.cases, hasVerdict a "pass" row = true ∧ row.text a.rt "role" = role) ∧
      (∃ row ∈ e.cases, Independent a candidate row) ∧
      (candidate.risk ≠ "read_only_guidance" → ∃ row ∈ e.cases, hasVerdict a "pass" row = true ∧
        hasEvidence ["native_test", "integration_test"] row = true))
    ⟨fun ⟨h₁, h₂, h₃, h₄⟩ => ⟨h₁, h₂, h₃, h₄⟩,
      fun h => ⟨h.passed, h.covers, h.independent, h.tested⟩⟩

instance (candidateId : String) (ownerScope : Option String) :
    Decidable (NamesOther a s candidateId ownerScope) :=
  inferInstanceAs (Decidable (∀ c ∈ _, _ → ∀ e ∈ _, _ → ∃ row ∈ _, _))

instance (s : Store) : DecidablePred (Request.SparesRecords a s) := fun request =>
  match request with
  | .promote .. => inferInstanceAs (Decidable (NamesOther a s _ _))
  | .createCandidate .. => inferInstanceAs (Decidable True)
  | .evaluate .. => inferInstanceAs (Decidable True)
  | .demote .. => inferInstanceAs (Decidable True)
  | .rollback .. => inferInstanceAs (Decidable True)
  | .recordOutcome .. => inferInstanceAs (Decidable True)

instance (s : Store) : DecidablePred (Request.SparesGate a s) := fun request =>
  match request with
  | .evaluate .. => inferInstanceAs (Decidable (∀ c ∈ _, _ → (∃ p ∈ _, _) → _ ∧ ∃ row ∈ _, _))
  | .promote .. => inferInstanceAs (Decidable (NamesOther a s _ _))
  | .rollback .. => inferInstanceAs (Decidable (∀ target ∈ _, ∀ c ∈ _, ∃ e ∈ _, Gate a c e))
  | .createCandidate .. => inferInstanceAs (Decidable True)
  | .demote .. => inferInstanceAs (Decidable True)
  | .recordOutcome .. => inferInstanceAs (Decidable True)

instance : DecidableRel (SparesRecordsTurn a) := fun _ _ => inferInstanceAs (Decidable (_ → _))

instance : DecidableRel (SparesGateTurn a) := fun _ _ => inferInstanceAs (Decidable (_ → _))

/-- A procedure is drawn up, evaluated by nobody who is named, and promoted. -/
def unreviewed : List Turn :=
  let passing (role : String) : Object :=
    [("role", .str role), ("verdict", .str "pass"), ("evidence_kind", .str "native_test")]
  [served (.createCandidate ⟨"skill", "ada", [("name", .str "brew")], [], .str "m", [], none, "1",
      none, some "a"⟩ "x" "t"),
    served (.evaluate "a" [passing "original", passing "boundary", passing "negative"] [] "r" none
      "t"),
    served (.promote "a" "ada" none false {} true "p1" "t")]

/-- No case names its evaluator. -/
def unnamed (e : Evaluation) : Bool :=
  e.cases.all fun row => row.text Runtime.plain "evaluator_id" = ""

theorem not_gate_of_unnamed {e : Evaluation} (h : unnamed e = true) :
    ¬ Gate .plain candidate e := by
  intro hgate
  obtain ⟨row, hrow, -, hnamed, -⟩ := hgate.independent
  exact hnamed (of_decide_eq_true (List.all_eq_true.mp h row hrow))

/-- The procedure is evaluated again and restored. -/
theorem gated_reviewed :
    (∃ s, (learning .plain).ReachableWhere (SparesRecordsTurn .plain) s ∧
      s.promotions.length = 2 ∧ RecordGated .plain s) ∧
    ∃ s, (learning .plain).ReachableWhere (SparesGateTurn .plain) s ∧
      s.promotions.length = 2 ∧ Gated .plain s := by
  constructor
  · obtain ⟨s, hs, hseen⟩ := TransitionSystem.exists_reachableWhere_of_exec (learning .plain)
      (SparesRecordsTurn .plain) (fun s => s.promotions.length)
      (adopted "a" "p1" ++ [restored "p1"]) (v := 2) rfl (by decide +kernel)
    exact ⟨s, hs, hseen, (gated_of_spares .plain).1 s hs⟩
  · obtain ⟨s, hs, hseen⟩ := TransitionSystem.exists_reachableWhere_of_exec (learning .plain)
      (SparesGateTurn .plain) (fun s => s.promotions.length)
      (adopted "a" "p1" ++ [restored "p1"]) (v := 2) rfl (by decide +kernel)
    exact ⟨s, hs, hseen, ((gated_of_spares .plain).2 s hs).1⟩

/-- Every promotion is of a candidate on file, in its slot, by an evaluation that has passed. -/
def PromotesPassed (a : Artifacts) (s : Store) : Prop :=
  ∀ p ∈ s.promotions, ∃ c, s.candidates.get? p.candidateId = some c ∧ p.slot = c.slot a ∧
    p.evaluation.verdict = "pass" ∧ Passes a c p.evaluation.cases

theorem promotesPassed_of_reachable (h : (learning a).Reachable s) : PromotesPassed a s := by
  obtain ⟨⟨hlinked, hrecorded⟩, -⟩ :=
    holds_of_leaves (Q := fun _ => True) trivial (fun _ _ _ _ _ => trivial) h
  intro p hp
  obtain ⟨c, hc, hpassed⟩ := hrecorded.promoted p hp
  obtain ⟨c', hc', hslot⟩ := hlinked.owned p hp
  obtain rfl := Option.some.inj (hc.symm.trans hc')
  exact ⟨c, hc, hslot, hpassed⟩

theorem promotesPassed_unreviewed : ∃ s, s.promotions.length = 1 ∧ PromotesPassed .plain s := by
  obtain ⟨s, hs, hseen⟩ := TransitionSystem.exists_reachableWhere_of_exec (learning .plain)
    TransitionSystem.anyStep (fun s => s.promotions.length) unreviewed (v := 1) rfl
    (by decide +kernel)
  exact ⟨s, hseen, promotesPassed_of_reachable hs⟩

/-- The report that names nobody is enough. -/
theorem not_gated_unreviewed : ∃ s, (learning .plain).Reachable s ∧
    ¬ RecordGated .plain s ∧ ¬ Gated .plain s := by
  obtain ⟨s, hs, hseen⟩ := TransitionSystem.exists_reachableWhere_of_exec (learning .plain)
    TransitionSystem.anyStep
    (fun s => (s.promotions.any fun p =>
        p.candidateId = "a" && p.status = .active && unnamed p.evaluation,
      ((s.candidates.get? "a").bind Candidate.evaluation).all unnamed))
    unreviewed (v := (true, true)) rfl (by decide +kernel)
  obtain ⟨hpromotion, hcandidate⟩ := Prod.mk.inj hseen
  obtain ⟨p, hp, hseen⟩ := List.any_eq_true.mp hpromotion
  simp only [Bool.and_eq_true, decide_eq_true_eq] at hseen
  obtain ⟨⟨hid, hactive⟩, hunnamed⟩ := hseen
  refine ⟨s, hs, fun h => ?_, fun h => ?_⟩
  · obtain ⟨c, -, hgate⟩ := h p hp
    exact not_gate_of_unnamed hunnamed hgate
  · obtain ⟨c, hc, e, he, hgate⟩ := h p hp hactive
    rw [hid] at hc
    rw [hc, Option.bind_some, he] at hcandidate
    exact not_gate_of_unnamed hcandidate hgate

end Pandamonium.Learning
