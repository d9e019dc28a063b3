import Mathlib.Data.List.Count
import Pandamonium.Analysis.LearningSteps

/-!
# Approved candidates and active promotions

`promote` and `demote` keep both views of what is in use: the status of the candidate and the active
promotion of its slot.  `evaluate` writes the status alone, and `rollback` leaves the candidate of
the promotion that it rolls back approved.
-/

set_option autoImplicit false

namespace Pandamonium.Learning

open Pandamonium.Library

variable {a : Artifacts} {s s' : Store} {candidate : Candidate} {now : String}
variable {promotions promotions' : List Promotion} {slot : String × String × String}

/-! ## Active promotions -/

/-- `isActive`, of a slot. -/
def activeIn (slot : String × String × String) (p : Promotion) : Bool :=
  decide (p.slot = slot) && decide (p.status = .active)

theorem isActive_eq (slot : String × String × String) :
    isActive slot.1 slot.2.1 slot.2.2 = activeIn slot := by
  obtain ⟨owner, type, name⟩ := slot
  funext p
  simp [isActive, activeIn, Promotion.slot, Prod.ext_iff, Bool.and_assoc]

theorem activeIn_iff {p : Promotion} :
    activeIn slot p = true ↔ p.slot = slot ∧ p.status = .active := by
  simp [activeIn]

/-- The candidate is the one of an active promotion of the slot. -/
def HoldsActive (promotions : List Promotion) (slot : String × String × String)
    (candidateId : String) : Prop :=
  ∃ p ∈ promotions, activeIn slot p = true ∧ p.candidateId = candidateId

/-- A candidate is approved exactly where it is the candidate of the active promotion of its slot,
and no slot has more than one. -/
structure Agrees (a : Artifacts) (s : Store) : Prop where
  approved : ∀ id candidate, s.candidates.get? id = some candidate →
    (candidate.status = .approved ↔ HoldsActive s.promotions (candidate.slot a) id)
  single : ∀ slot, s.promotions.countP (activeIn slot) ≤ 1

/-! ## Every reachable state -/

/-- What is never changed in a candidate, and whom the promotions are of. -/
structure Linked (a : Artifacts) (s : Store) : Prop where
  keyed : ∀ id candidate, s.candidates.get? id = some candidate → candidate.candidateId = id
  owned : ∀ p ∈ s.promotions, ∃ candidate, s.candidates.get? p.candidateId = some candidate ∧
    p.slot = candidate.slot a

theorem linked_empty : Linked a Store.empty where
  keyed _ _ h := by cases h
  owned _ h := by cases h

/-- The candidates that were there keep what is never changed. -/
def Kept (candidates candidates' : Dict String Candidate) : Prop :=
  candidates.Carries Candidate.Follows candidates'

theorem keyed_set {candidates : Dict String Candidate}
    (h : ∀ id c, candidates.get? id = some c → c.candidateId = id) {key : String}
    (hkey : candidate.candidateId = key) :
    ∀ id c, (candidates.set key candidate).get? id = some c → c.candidateId = id := by
  intro id c hc
  rw [Dict.get?_set] at hc
  split at hc
  · cases hc
    exact hkey.trans (Eq.symm ‹_›)
  · exact h id c hc

theorem Linked.kept_set (h : Linked a s) {id : String}
    (hget : s.candidates.get? id = some candidate) {candidate' : Candidate}
    (hfollows : candidate.Follows candidate') :
    Kept s.candidates (s.candidates.set candidate.candidateId candidate') := by
  refine Dict.Carries.set Candidate.Follows.refl fun c hc => ?_
  rw [h.keyed id candidate hget, hget] at hc
  cases hc
  exact hfollows

theorem follows_supersedeCandidate (other : Candidate) :
    other.Follows (supersedeCandidate a candidate now other) := by
  unfold supersedeCandidate
  split <;> exact ⟨rfl, rfl, rfl, rfl, rfl, rfl, rfl⟩

theorem follows_evaluated (cases : List Object) (evaluator : Object) (runtimeVersion : String) :
    candidate.Follows (candidate.evaluated a cases evaluator runtimeVersion now) :=
  ⟨rfl, rfl, rfl, rfl, rfl, rfl, rfl⟩

theorem follows_approved : candidate.Follows (candidate.approved now) :=
  ⟨rfl, rfl, rfl, rfl, rfl, rfl, rfl⟩

theorem follows_demoted {demotion : Demotion} :
    candidate.Follows (candidate.demoted demotion now) :=
  ⟨rfl, rfl, rfl, rfl, rfl, rfl, rfl⟩

theorem mem_supersede {p' : Promotion} (hp' : p' ∈ supersede slot promotions) :
    ∃ p ∈ promotions, p.Follows p' := by
  obtain ⟨p, hp, rfl⟩ := List.mem_map.mp hp'
  refine ⟨p, hp, ?_⟩
  split <;> exact ⟨rfl, rfl, rfl⟩

theorem mem_demoteAll {id : String} {p' : Promotion} (hp' : p' ∈ demoteAll id promotions) :
    ∃ p ∈ promotions, p.Follows p' := by
  obtain ⟨p, hp, rfl⟩ := List.mem_map.mp hp'
  refine ⟨p, hp, ?_⟩
  split <;> exact ⟨rfl, rfl, rfl⟩

variable {f : Promotion → Promotion} {request : Request}

theorem mem_amendFirst {q : Promotion → Bool} (hf : ∀ p : Promotion, p.Follows (f p))
    {p' : Promotion} (hp' : p' ∈ amendFirst q f promotions) :
    ∃ p ∈ promotions, p.Follows p' := by
  induction promotions with
  | nil => cases hp'
  | cons p promotions ih =>
    unfold amendFirst at hp'
    split at hp'
    · obtain rfl | hp' := List.mem_cons.mp hp'
      · exact ⟨p, List.mem_cons_self, hf p⟩
      · exact ⟨p', List.mem_cons_of_mem p hp', rfl, rfl, rfl⟩
    · obtain rfl | hp' := List.mem_cons.mp hp'
      · exact ⟨p', List.mem_cons_self, rfl, rfl, rfl⟩
      · obtain ⟨p₀, hp₀, hfollows⟩ := ih hp'
        exact ⟨p₀, List.mem_cons_of_mem p hp₀, hfollows⟩

theorem mem_of_rollbackTarget {targetPromotionId : String} {target : Promotion}
    (h : rollbackTarget s slot targetPromotionId = some target) :
    target ∈ s.promotions ∧ target.slot = slot := by
  refine ⟨List.mem_of_find?_eq_some h, ?_⟩
  have hfound := List.find?_some h
  simp only [Bool.and_eq_true, decide_eq_true_eq] at hfound
  exact hfound.1

/-- A restored promotion's candidate is there, and is approved. -/
theorem Linked.restore_candidates (h : Linked a s) {targetPromotionId : String}
    {target : Promotion} (htarget : rollbackTarget s slot targetPromotionId = some target)
    (operatorId drawn now : String) :
    ∃ candidate, s.candidates.get? target.candidateId = some candidate ∧
      candidate.slot a = slot ∧
      (s.restore slot target operatorId drawn now).candidates =
        s.candidates.set target.candidateId (candidate.approved now) := by
  obtain ⟨hmem, hslot⟩ := mem_of_rollbackTarget htarget
  obtain ⟨candidate, hget, hpslot⟩ := h.owned target hmem
  refine ⟨candidate, hget, hpslot.symm.trans hslot, ?_⟩
  have hid := h.keyed _ _ hget
  simp only [Store.restore, hget, hid]

/-! ### One operation -/

/-- What was there is kept, and every candidate is under its own name. -/
theorem Linked.kept_perform (h : Linked a s) (hperform : request.perform a s = .ok s') :
    Kept s.candidates s'.candidates ∧
      ∀ id c, s'.candidates.get? id = some c → c.candidateId = id := by
  cases request with
  | createCandidate r drawn now =>
    obtain ⟨candidate, hfree, -, -, rfl⟩ := createCandidate_eq_ok hperform
    refine ⟨Dict.Carries.set Candidate.Follows.refl fun c hc => ?_, keyed_set h.keyed rfl⟩
    rw [hfree] at hc
    cases hc
  | evaluate candidateId cases evaluator runtimeVersion ownerScope now =>
    obtain ⟨candidate, hget, -, rfl⟩ := evaluate_eq_ok.mp hperform
    exact ⟨h.kept_set hget (follows_evaluated cases evaluator runtimeVersion),
      keyed_set h.keyed rfl⟩
  | promote candidateId operatorId ownerScope automatic policy learningEnabled drawn now =>
    obtain ⟨-, candidate, evaluation, hget, -, -, rfl⟩ := promote_eq_ok.mp hperform
    have hid := h.keyed _ _ hget
    refine ⟨fun id c hc => ?_, keyed_set (fun id c hc => ?_) rfl⟩
    · dsimp only
      rw [Dict.get?_set]
      split
      · next heq =>
        rw [heq, hid, hget] at hc
        cases hc
        exact ⟨_, rfl, follows_approved⟩
      · rw [Dict.get?_mapValues, hc]
        exact ⟨_, rfl, follows_supersedeCandidate c⟩
    · rw [Dict.get?_mapValues, Option.map_eq_some_iff] at hc
      obtain ⟨c₀, hc₀, rfl⟩ := hc
      exact (follows_supersedeCandidate c₀).candidateId.trans (h.keyed id c₀ hc₀)
  | demote candidateId operatorId reason ownerScope now =>
    obtain ⟨candidate, demotion, hget, rfl⟩ := demote_eq_ok hperform
    exact ⟨h.kept_set hget follows_demoted, keyed_set h.keyed rfl⟩
  | rollback ownerScope artifactType name targetPromotionId operatorId drawn now =>
    obtain ⟨target, htarget, rfl⟩ := rollback_eq_ok.mp hperform
    obtain ⟨candidate, hget, -, hcandidates⟩ :=
      h.restore_candidates htarget operatorId drawn now
    have hid := h.keyed _ _ hget
    rw [hcandidates]
    refine ⟨?_, keyed_set h.keyed hid⟩
    rw [← hid]
    exact h.kept_set hget follows_approved
  | recordOutcome candidateId succeeded latencySeconds regression ownerScope now =>
    rw [(recordOutcome_eq_ok hperform).1]
    exact ⟨Dict.Carries.refl Candidate.Follows.refl _, h.keyed⟩

/-- The request promotes the candidate. -/
def Request.Promotes (candidate : Candidate) (id : String) : Request → Prop
  | .promote candidateId _ ownerScope _ _ _ _ _ => candidateId = id ∧ OwnedBy ownerScope candidate
  | _ => False

/-- A promotion was there, or it is of the candidate that is promoted, which has passed. -/
theorem promotions_perform (hperform : request.perform a s = .ok s') {p' : Promotion}
    (hp' : p' ∈ s'.promotions) :
    (∃ p ∈ s.promotions, p.Follows p') ∨
      ∃ c, s.candidates.get? p'.candidateId = some c ∧ p'.slot = c.slot a ∧
        c.evaluation = some p'.evaluation ∧ p'.evaluation.verdict = "pass" ∧
        request.Promotes c p'.candidateId := by
  have hsame : ∀ p ∈ s.promotions, ∃ p₀ ∈ s.promotions, p₀.Follows p :=
    fun p hp => ⟨p, hp, rfl, rfl, rfl⟩
  cases request with
  | createCandidate r drawn now =>
    obtain ⟨candidate, -, -, -, rfl⟩ := createCandidate_eq_ok hperform
    exact .inl (hsame p' hp')
  | evaluate candidateId cases evaluator runtimeVersion ownerScope now =>
    obtain ⟨candidate, -, -, rfl⟩ := evaluate_eq_ok.mp hperform
    exact .inl (hsame p' hp')
  | promote candidateId operatorId ownerScope automatic policy learningEnabled drawn now =>
    obtain ⟨-, candidate, evaluation, hget, howned, hchecks, rfl⟩ := promote_eq_ok.mp hperform
    obtain hp' | hp' := List.mem_append.mp hp'
    · exact .inl (mem_supersede hp')
    · rw [List.mem_singleton.mp hp']
      obtain ⟨hevaluation, hpassed⟩ := promotionChecks_eq_ok hchecks
      exact .inr ⟨candidate, hget, rfl, hevaluation, hpassed, rfl, howned⟩
  | demote candidateId operatorId reason ownerScope now =>
    obtain ⟨candidate, demotion, -, rfl⟩ := demote_eq_ok hperform
    exact .inl (mem_demoteAll hp')
  | rollback ownerScope artifactType name targetPromotionId operatorId drawn now =>
    obtain ⟨target, htarget, rfl⟩ := rollback_eq_ok.mp hperform
    obtain hp' | hp' := List.mem_append.mp hp'
    · have hf : ∀ p : Promotion, p.Follows { p with status := .rolledBack } :=
        fun _ => ⟨rfl, rfl, rfl⟩
      exact .inl (mem_amendFirst hf hp')
    · rw [List.mem_singleton.mp hp']
      exact .inl ⟨target, (mem_of_rollbackTarget htarget).1, rfl, rfl, rfl⟩
  | recordOutcome candidateId succeeded latencySeconds regression ownerScope now =>
    rw [(recordOutcome_eq_ok hperform).2] at hp'
    exact .inl (hsame p' hp')

theorem Linked.perform (h : Linked a s) (hperform : request.perform a s = .ok s') :
    Linked a s' := by
  obtain ⟨hkept, hkeyed⟩ := h.kept_perform hperform
  refine ⟨hkeyed, fun p' hp' => ?_⟩
  obtain ⟨p, hp, hfollows⟩ | ⟨c, hc, hslot, -⟩ := promotions_perform hperform hp'
  · obtain ⟨c, hc, hpslot⟩ := h.owned p hp
    obtain ⟨c', hc', hsame⟩ := hkept _ c hc
    exact ⟨c', hfollows.candidateId ▸ hc', (hfollows.slot.trans hpslot).trans hsame.slot.symm⟩
  · obtain ⟨c', hc', hsame⟩ := hkept _ c hc
    exact ⟨c', hc', hslot.trans hsame.slot.symm⟩

theorem Linked.reads (h : Linked a s) (turn : Turn) : Linked a (turn.reads s) := by
  unfold Turn.reads
  split
  · exact h
  · exact linked_empty

/-- A turn writes what its request makes of what it has read, or nothing. -/
theorem leaves_cases (a : Artifacts) (turn : Turn) (s : Store) :
    turn.leaves a s = s ∨ turn.writable = true ∧
      turn.request.perform a (turn.reads s) = .ok (turn.leaves a s) := by
  unfold Turn.leaves
  cases hperform : turn.request.perform a (turn.reads s) with
  | error failure => exact .inl rfl
  | ok s' =>
    cases hwritable : turn.writable with
    | false => exact .inl rfl
    | true => exact .inr ⟨rfl, rfl⟩

theorem Linked.leaves (h : Linked a s) (turn : Turn) : Linked a (turn.leaves a s) := by
  obtain hsame | ⟨-, hperform⟩ := leaves_cases a turn s
  · rw [hsame]
    exact h
  · exact (h.reads turn).perform hperform

/-! ## What becomes of the active promotions -/

theorem holdsActive_append {p : Promotion} {id : String} :
    HoldsActive (promotions ++ [p]) slot id ↔
      HoldsActive promotions slot id ∨ activeIn slot p = true ∧ p.candidateId = id := by
  simp [HoldsActive, or_and_right, exists_or]

theorem countP_eq_zero_iff : promotions.countP (activeIn slot) = 0 ↔
    ∀ id, ¬ HoldsActive promotions slot id := by
  rw [List.countP_eq_zero]
  constructor
  · rintro h id ⟨p, hp, hactive, -⟩
    exact h p hp hactive
  · exact fun h p hp hactive => h p.candidateId ⟨p, hp, hactive, rfl⟩

/-- The slot has one active promotion, of the candidate; in every other slot are the same. -/
structure Replaces (slot : String × String × String) (id : String)
    (promotions promotions' : List Promotion) : Prop where
  holds : ∀ slot' id', HoldsActive promotions' slot' id' ↔
    slot' = slot ∧ id' = id ∨ slot' ≠ slot ∧ HoldsActive promotions slot' id'
  count : ∀ slot', promotions'.countP (activeIn slot') =
    if slot' = slot then 1 else promotions.countP (activeIn slot')

/-- The active promotions of the slot are gone and one is appended. -/
theorem replaces_of_cleared {cleared : List Promotion} {p : Promotion}
    (hactive : activeIn slot p = true)
    (hcleared : cleared.countP (activeIn slot) = 0)
    (hother : ∀ slot', slot' ≠ slot →
      (∀ id, HoldsActive cleared slot' id ↔ HoldsActive promotions slot' id) ∧
        cleared.countP (activeIn slot') = promotions.countP (activeIn slot')) :
    Replaces slot p.candidateId promotions (cleared ++ [p]) where
  holds slot' id' := by
    rw [holdsActive_append]
    by_cases hslot : slot' = slot
    · subst hslot
      have hnone := countP_eq_zero_iff.mp hcleared id'
      simp [hnone, hactive, eq_comm]
    · have hp : activeIn slot' p = false := by
        rw [← Bool.not_eq_true, activeIn_iff]
        rintro ⟨hp, -⟩
        exact hslot (hp.symm.trans (activeIn_iff.mp hactive).1)
      simp [hslot, hp, (hother slot' hslot).1 id']
  count slot' := by
    rw [List.countP_append, List.countP_singleton]
    by_cases hslot : slot' = slot
    · subst hslot
      rw [hcleared, if_pos hactive, if_pos rfl]
    · have hp : ¬ activeIn slot' p = true := by
        rw [activeIn_iff]
        rintro ⟨hp, -⟩
        exact hslot (hp.symm.trans (activeIn_iff.mp hactive).1)
      rw [if_neg hp, if_neg hslot, (hother slot' hslot).2, Nat.add_zero]

/-- A change that takes a promotion out of the active ones of its slot leaves the other slots. -/
theorem activeIn_of_ne {p : Promotion} (p' : Promotion) (hp : activeIn slot p = true)
    (hslot : p'.slot = p.slot) {slot' : String × String × String} (hne : slot' ≠ slot) :
    activeIn slot' p = false ∧ activeIn slot' p' = false := by
  have hin := (activeIn_iff.mp hp).1
  simp [activeIn, hslot, hin, Ne.symm hne]

theorem replaces_supersede {p : Promotion} (hactive : activeIn slot p = true) :
    Replaces slot p.candidateId promotions (supersede slot promotions ++ [p]) := by
  have hmap : ∀ slot' x, activeIn slot'
      (if isActive slot.1 slot.2.1 slot.2.2 x then { x with status := .superseded } else x) =
        if slot' = slot then false else activeIn slot' x := by
    intro slot' x
    rw [isActive_eq]
    by_cases hx : activeIn slot x = true
    · rw [if_pos hx]
      split
      · simp [activeIn]
      · next hne =>
        obtain ⟨hx', hx''⟩ := activeIn_of_ne { x with status := .superseded } hx rfl hne
        rw [hx', hx'']
    · rw [if_neg hx]
      split
      · next heq => rw [heq, Bool.not_eq_true _ |>.mp hx]
      · rfl
  refine replaces_of_cleared hactive ?_ fun slot' hne => ⟨fun id => ?_, ?_⟩
  · rw [supersede, List.countP_map, List.countP_eq_zero]
    intro x _
    simp only [Function.comp_apply]
    rw [hmap, if_pos rfl]
    exact Bool.false_ne_true
  · simp only [HoldsActive, supersede, List.mem_map, exists_exists_and_eq_and]
    refine exists_congr fun x => and_congr_right fun _ => ?_
    rw [hmap, if_neg hne]
    split <;> rfl
  · rw [supersede, List.countP_map]
    refine List.countP_congr fun x _ => ?_
    simp only [Function.comp_apply]
    rw [hmap, if_neg hne]

theorem countP_amendFirst {q r : Promotion → Bool} (h : ∀ x, q x = true → r (f x) = r x) :
    (amendFirst q f promotions).countP r = promotions.countP r := by
  induction promotions with
  | nil => rfl
  | cons x promotions ih =>
    unfold amendFirst
    split
    · next hx => rw [List.countP_cons, List.countP_cons, h x hx]
    · rw [List.countP_cons, List.countP_cons, ih]

theorem countP_amendFirst_self {q : Promotion → Bool} (h : ∀ x, q (f x) = false) :
    (amendFirst q f promotions).countP q = promotions.countP q - 1 := by
  induction promotions with
  | nil => rfl
  | cons x promotions ih =>
    unfold amendFirst
    split
    · next hx => rw [List.countP_cons, List.countP_cons, h, if_pos hx]; simp
    · next hx => rw [List.countP_cons, List.countP_cons, ih, if_neg hx, Nat.add_zero, Nat.add_zero]

theorem exists_mem_amendFirst_iff {q : Promotion → Bool} {P : Promotion → Prop}
    (h : ∀ x, q x = true → (P (f x) ↔ P x)) :
    (∃ x ∈ amendFirst q f promotions, P x) ↔ ∃ x ∈ promotions, P x := by
  induction promotions with
  | nil => rfl
  | cons x promotions ih =>
    unfold amendFirst
    split
    · next hx => simp only [List.mem_cons, exists_eq_or_imp, h x hx]
    · simp only [List.mem_cons, exists_eq_or_imp, ih]

/-- Where the slot had one active promotion at most, the restored one is the only one. -/
theorem replaces_restore {target : Promotion} {operatorId drawn : String}
    (hsingle : s.promotions.countP (activeIn slot) ≤ 1) (htarget : target.slot = slot) :
    Replaces slot target.candidateId s.promotions
      (s.restore slot target operatorId drawn now).promotions := by
  have hactive : activeIn slot (target.restored operatorId drawn now
      ((rolledBack s slot).map Promotion.promotionId)) = true := activeIn_iff.mpr ⟨htarget, rfl⟩
  have hreplaces := @replaces_of_cleared s.promotions slot
    (amendFirst (activeIn slot) (fun p => { p with status := .rolledBack }) s.promotions) _ hactive
  rw [Store.restore, isActive_eq]
  refine hreplaces ?_ fun slot' hne => ⟨fun id => ?_, ?_⟩
  · rw [countP_amendFirst_self fun x => by simp [activeIn]]
    omega
  · refine exists_mem_amendFirst_iff fun x hx => ?_
    obtain ⟨hx', hx''⟩ := activeIn_of_ne { x with status := .rolledBack } hx rfl hne
    simp [hx', hx'']
  · refine countP_amendFirst fun x hx => ?_
    obtain ⟨hx', hx''⟩ := activeIn_of_ne { x with status := .rolledBack } hx rfl hne
    rw [hx', hx'']

theorem find?_of_countP_le_one {q : Promotion → Bool} (h : promotions.countP q ≤ 1)
    {p : Promotion} (hp : p ∈ promotions) (hq : q p = true) : promotions.find? q = some p := by
  induction promotions with
  | nil => cases hp
  | cons x promotions ih =>
    rw [List.countP_cons] at h
    by_cases hx : q x = true
    · rw [if_pos hx] at h
      have hnone : promotions.countP q = 0 := by omega
      obtain rfl | hp := List.mem_cons.mp hp
      · exact List.find?_cons_of_pos hq
      · exact absurd hq (List.countP_eq_zero.mp hnone p hp)
    · rw [if_neg hx] at h
      obtain rfl | hp := List.mem_cons.mp hp
      · exact absurd hq hx
      · rw [List.find?_cons_of_neg hx]
        exact ih h hp

/-! ## One operation -/

/-- The candidate of the new active promotion is approved, another of its slot is not. -/
theorem Agrees.replaced {id : String} (h : Agrees a s)
    (hreplaces : Replaces slot id s.promotions s'.promotions)
    (hcandidates : ∀ k c', s'.candidates.get? k = some c' →
      k = id ∧ c'.slot a = slot ∧ c'.status = .approved ∨
      k ≠ id ∧ ∃ c, s.candidates.get? k = some c ∧ c'.slot a = c.slot a ∧
        (c'.status = .approved ↔ c.slot a ≠ slot ∧ c.status = .approved)) :
    Agrees a s' where
  approved k c' hc' := by
    rw [hreplaces.holds]
    obtain ⟨hk, hslot, hstatus⟩ | ⟨hk, c, hc, hslot, hstatus⟩ := hcandidates k c' hc'
    · simp [hk, hslot, hstatus]
    · rw [hslot, hstatus, h.approved k c hc]
      simp [hk]
  single slot' := by
    rw [hreplaces.count]
    split
    · exact Nat.le_refl 1
    · exact h.single slot'

theorem Agrees.createCandidate {r : CreateRequest} {drawn : String} (hlinked : Linked a s)
    (h : Agrees a s) (hcreate : createCandidate a r drawn now s = .ok s') : Agrees a s' := by
  obtain ⟨candidate, hfree, hstatus, -, rfl⟩ := createCandidate_eq_ok hcreate
  refine ⟨fun id c hc => ?_, h.single⟩
  rw [Store.setCandidate, Dict.get?_set] at hc
  split at hc
  · next heq =>
    cases hc
    refine iff_of_false hstatus ?_
    rintro ⟨p, hp, -, hid⟩
    obtain ⟨c, hc, -⟩ := hlinked.owned p hp
    rw [hid, heq, hfree] at hc
    cases hc
  · exact h.approved id c hc

theorem Agrees.promote {candidateId operatorId drawn : String} {ownerScope : Option String}
    {automatic learningEnabled : Bool} {policy : Policy} (hlinked : Linked a s) (h : Agrees a s)
    (hpromote : promote a candidateId operatorId ownerScope automatic policy learningEnabled drawn
      now s = .ok s') : Agrees a s' := by
  obtain ⟨-, candidate, evaluation, hget, -, -, rfl⟩ := promote_eq_ok.mp hpromote
  have hid := hlinked.keyed _ _ hget
  have hreplaces : Replaces (candidate.slot a) candidateId s.promotions
      (supersede (candidate.slot a) s.promotions ++
        [candidate.promotion a candidateId operatorId automatic drawn now evaluation s]) :=
    @replaces_supersede _ _ (candidate.promotion a _ _ _ _ _ _ s) (activeIn_iff.mpr ⟨rfl, rfl⟩)
  refine h.replaced hreplaces fun k c' hc' => ?_
  dsimp only at hc'
  rw [Dict.get?_set, hid] at hc'
  split at hc'
  · next heq =>
    cases hc'
    exact .inl ⟨heq, rfl, rfl⟩
  · next hne =>
    rw [Dict.get?_mapValues, Option.map_eq_some_iff] at hc'
    obtain ⟨c, hc, rfl⟩ := hc'
    refine .inr ⟨hne, c, hc, (follows_supersedeCandidate c).slot, ?_⟩
    have hcid : c.candidateId ≠ candidate.candidateId := by
      rw [hlinked.keyed k c hc, hid]
      exact hne
    unfold supersedeCandidate
    split
    · next hc => simp [Candidate.slot, hc.2.1, hc.2.2.1, hc.2.2.2.1]
    · next hc =>
      simp only [Candidate.slot, Prod.mk.injEq, ne_eq]
      tauto

theorem Agrees.demote {candidateId operatorId reason : String} {ownerScope : Option String}
    (hlinked : Linked a s) (h : Agrees a s)
    (hdemote : demote a candidateId operatorId reason ownerScope now s = .ok s') :
    Agrees a s' := by
  obtain ⟨candidate, demotion, hget, rfl⟩ := demote_eq_ok hdemote
  have hid := hlinked.keyed _ _ hget
  have hmap : ∀ slot p, activeIn slot
      (if p.candidateId = candidateId ∧ p.status = .active then { p with status := .demoted }
        else p) = true ↔ activeIn slot p = true ∧ p.candidateId ≠ candidateId := by
    intro slot p
    rw [activeIn_iff, activeIn_iff]
    split
    · next hp => simp [hp.1]
    · next hp => tauto
  constructor
  · intro k c' hc'
    have hholds : HoldsActive (demoteAll candidateId s.promotions) (c'.slot a) k ↔
        HoldsActive s.promotions (c'.slot a) k ∧ k ≠ candidateId := by
      simp only [HoldsActive, demoteAll, List.mem_map, exists_exists_and_eq_and, hmap]
      constructor
      · rintro ⟨p, hp, ⟨hactive, hne⟩, hk⟩
        have hk' : p.candidateId = k := by
          rw [← hk]
          split <;> rfl
        exact ⟨⟨p, hp, hactive, hk'⟩, hk' ▸ hne⟩
      · rintro ⟨⟨p, hp, hactive, rfl⟩, hne⟩
        refine ⟨p, hp, ⟨hactive, hne⟩, ?_⟩
        split <;> rfl
    dsimp only at hc' ⊢
    rw [hholds]
    rw [Dict.get?_set, hid] at hc'
    split at hc'
    · next heq =>
      cases hc'
      exact iff_of_false nofun fun hk => hk.2 heq
    · next hne =>
      rw [h.approved k c' hc']
      exact (and_iff_left hne).symm
  · intro slot
    refine Nat.le_trans ?_ (h.single slot)
    dsimp only
    rw [demoteAll, List.countP_map]
    exact List.countP_mono_left fun p _ hp => ((hmap slot p).mp hp).1

/-! ## Re-evaluation and rollback -/

/-- A candidate that is approved is not evaluated again, and a rollback is to the candidate whose
promotion is active, if one is. -/
def Request.Spares (s : Store) : Request → Prop
  | .evaluate candidateId _ _ _ ownerScope _ =>
    ∀ candidate ∈ s.candidates.get? candidateId,
      OwnedBy ownerScope candidate → candidate.status ≠ .approved
  | .rollback ownerScope artifactType artifactName targetPromotionId _ _ _ =>
    ∀ target ∈ rollbackTarget s (ownerScope, artifactType, artifactName) targetPromotionId,
      ∀ active ∈ rolledBack s (ownerScope, artifactType, artifactName),
        active.candidateId = target.candidateId
  | _ => True

instance : DecidableRel Request.Spares := fun _ request =>
  match request with
  | .evaluate .. => inferInstanceAs (Decidable (∀ candidate ∈ _, _ → _))
  | .rollback .. => inferInstanceAs (Decidable (∀ target ∈ _, ∀ active ∈ _, _))
  | .createCandidate .. => inferInstanceAs (Decidable True)
  | .promote .. => inferInstanceAs (Decidable True)
  | .demote .. => inferInstanceAs (Decidable True)
  | .recordOutcome .. => inferInstanceAs (Decidable True)

theorem agrees_evaluate_iff {candidateId runtimeVersion : String} {cases : List Object}
    {evaluator : Object} {ownerScope : Option String} (hlinked : Linked a s) (h : Agrees a s)
    (hevaluate : evaluate a candidateId cases evaluator runtimeVersion ownerScope now s = .ok s') :
    Agrees a s' ↔
      (Request.evaluate candidateId cases evaluator runtimeVersion ownerScope now).Spares s := by
  obtain ⟨candidate, hget, howned, rfl⟩ := evaluate_eq_ok.mp hevaluate
  have hid := hlinked.keyed _ _ hget
  have hstatus := @status_evaluated a candidate now cases evaluator runtimeVersion
  have hspares : (Request.evaluate candidateId cases evaluator runtimeVersion ownerScope
      now).Spares s ↔ candidate.status ≠ .approved := by
    simp [Request.Spares, hget, howned]
  rw [hspares]
  constructor
  · intro h' happroved
    have hholds := (h.approved _ _ hget).mp happroved
    refine hstatus ((h'.approved candidateId _ ?_).mpr hholds)
    show Dict.get? (Dict.set _ candidate.candidateId _) candidateId = _
    rw [hid, Dict.get?_set_self]
  · intro happroved
    refine ⟨fun k c hc => ?_, h.single⟩
    rw [Store.setCandidate, Dict.get?_set] at hc
    split at hc
    · next heq =>
      cases hc
      refine iff_of_false hstatus fun hholds => happroved ((h.approved _ _ hget).mpr ?_)
      rw [heq] at hholds
      rw [← hid]
      exact hholds
    · exact h.approved k c hc

theorem agrees_rollback_iff
    {ownerScope artifactType name targetPromotionId operatorId drawn : String}
    (hlinked : Linked a s) (h : Agrees a s)
    (hrollback : rollback ownerScope artifactType name targetPromotionId operatorId drawn now s =
      .ok s') :
    Agrees a s' ↔ (Request.rollback ownerScope artifactType name targetPromotionId operatorId drawn
      now).Spares s := by
  obtain ⟨target, htarget, rfl⟩ := rollback_eq_ok.mp hrollback
  obtain ⟨hmem, hslot⟩ := mem_of_rollbackTarget htarget
  obtain ⟨candidate, hget, hcslot, hcandidates⟩ :=
    hlinked.restore_candidates htarget operatorId drawn now
  have hreplaces := @replaces_restore s now _ target operatorId drawn (h.single _) hslot
  have hspares : (Request.rollback ownerScope artifactType name targetPromotionId operatorId drawn
      now).Spares s ↔ ∀ active ∈ rolledBack s (ownerScope, artifactType, name),
        active.candidateId = target.candidateId := by
    simp [Request.Spares, htarget]
  rw [hspares]
  constructor
  · -- The candidate of the promotion that was active is approved before and after.
    intro h' active hactive
    by_contra hne
    rw [rolledBack, isActive_eq] at hactive
    have hin := List.find?_some hactive
    have hholds : HoldsActive s.promotions (ownerScope, artifactType, name) active.candidateId :=
      ⟨active, List.mem_of_find?_eq_some hactive, hin, rfl⟩
    obtain ⟨c, hc, hcslot'⟩ := hlinked.owned active (List.mem_of_find?_eq_some hactive)
    rw [(activeIn_iff.mp hin).1] at hcslot'
    have happroved : c.status = .approved := by
      rw [h.approved _ c hc, ← hcslot']
      exact hholds
    have hafter := (h'.approved active.candidateId c ?_).mp happroved
    · rw [← hcslot', hreplaces.holds] at hafter
      simp [hne] at hafter
    · rw [hcandidates, Dict.get?_set, if_neg hne]
      exact hc
  · intro hsame
    refine h.replaced hreplaces fun k c' hc' => ?_
    rw [hcandidates, Dict.get?_set] at hc'
    split at hc'
    · next heq =>
      cases hc'
      exact .inl ⟨heq, hcslot, rfl⟩
    · next hne =>
      refine .inr ⟨hne, c', hc', rfl, ⟨fun hstatus => ⟨fun heq => hne ?_, hstatus⟩, And.right⟩⟩
      obtain ⟨p, hp, hactive, rfl⟩ := (h.approved k c' hc').mp hstatus
      rw [heq] at hactive
      refine hsame p ?_
      rw [rolledBack, isActive_eq]
      exact find?_of_countP_le_one (h.single _) hp hactive

/-! ## Every run -/

theorem agrees_empty : Agrees a Store.empty where
  approved _ _ h := by cases h
  single _ := Nat.zero_le 1

/-- A request that returns keeps the two views alike exactly where it spares them. -/
theorem agrees_perform_iff (hlinked : Linked a s) (h : Agrees a s)
    (hperform : request.perform a s = .ok s') : Agrees a s' ↔ request.Spares s := by
  cases request with
  | createCandidate r drawn now =>
    exact iff_of_true (h.createCandidate hlinked hperform) trivial
  | evaluate candidateId cases evaluator runtimeVersion ownerScope now =>
    exact agrees_evaluate_iff hlinked h hperform
  | promote candidateId operatorId ownerScope automatic policy learningEnabled drawn now =>
    exact iff_of_true (h.promote hlinked hperform) trivial
  | demote candidateId operatorId reason ownerScope now =>
    exact iff_of_true (h.demote hlinked hperform) trivial
  | rollback ownerScope artifactType artifactName targetPromotionId operatorId drawn now =>
    exact agrees_rollback_iff hlinked h hperform
  | recordOutcome candidateId succeeded latencySeconds regression ownerScope now =>
    obtain ⟨hcandidates, hpromotions⟩ := recordOutcome_eq_ok hperform
    refine iff_of_true ⟨?_, ?_⟩ trivial
    · rw [hcandidates, hpromotions]
      exact h.approved
    · rw [hpromotions]
      exact h.single

/-- A request that raises spares what is there. -/
theorem spares_of_error {failure : Failure} (hperform : request.perform a s = .error failure) :
    request.Spares s := by
  have hnone : ∀ s', request.perform a s ≠ .ok s' := fun s' h => by
    rw [h] at hperform
    cases hperform
  cases request with
  | evaluate candidateId cases evaluator runtimeVersion ownerScope now =>
    intro candidate hcandidate howned
    exact absurd (evaluate_eq_ok.mpr ⟨candidate, hcandidate, howned, rfl⟩) (hnone _)
  | rollback ownerScope artifactType artifactName targetPromotionId operatorId drawn now =>
    intro target htarget
    exact absurd (rollback_eq_ok.mpr ⟨target, htarget, rfl⟩) (hnone _)
  | _ => trivial

/-- Where a file is written, its request spares what it has read. -/
def SparesTurn (s : Store) (turn : Turn) : Prop :=
  turn.writable = true → turn.request.Spares (turn.reads s)

instance : DecidableRel SparesTurn := fun _ _ => inferInstanceAs (Decidable (_ → _))

theorem Agrees.reads (h : Agrees a s) (turn : Turn) : Agrees a (turn.reads s) := by
  unfold Turn.reads
  split
  · exact h
  · exact agrees_empty

theorem agrees_leaves_iff (hlinked : Linked a s) (h : Agrees a s) (turn : Turn) :
    Agrees a (turn.leaves a s) ↔ SparesTurn s turn := by
  unfold Turn.leaves SparesTurn
  cases hperform : turn.request.perform a (turn.reads s) with
  | error failure => exact iff_of_true h fun _ => spares_of_error hperform
  | ok s' =>
    cases turn.writable with
    | false => exact iff_of_true h nofun
    | true =>
      have hiff := agrees_perform_iff (hlinked.reads turn) (h.reads turn) hperform
      simpa using hiff

/-- In every run whose operations spare what is in use, the two views agree, and the next operation
keeps them so exactly where it does too. -/
theorem agrees_of_spares (a : Artifacts) {s : Store}
    (h : (learning a).ReachableWhere SparesTurn s) :
    Agrees a s ∧ ∀ turn s', (learning a).step s turn = some s' →
      (Agrees a s' ↔ SparesTurn s turn) := by
  have hboth : Linked a s ∧ Agrees a s := by
    refine TransitionSystem.ReachableWhere.invariant (I := fun s => Linked a s ∧ Agrees a s)
      ?_ ?_ h
    · rintro s rfl
      exact ⟨linked_empty, agrees_empty⟩
    · rintro s turn s' ⟨hlinked, hagrees⟩ hspares hstep
      obtain rfl := Option.some.inj hstep
      exact ⟨hlinked.leaves turn, (agrees_leaves_iff hlinked hagrees turn).mpr hspares⟩
  refine ⟨hboth.2, fun turn s' hstep => ?_⟩
  obtain rfl := Option.some.inj hstep
  exact agrees_leaves_iff hboth.1 hboth.2 turn

/-! ## Two procedures of one name -/

/-- A case that passes. -/
def passingCase (role : String) : Object :=
  [("role", .str role), ("verdict", .str "pass"), ("evidence_kind", .str "native_test"),
    ("evaluator_id", .str "audit")]

/-- A file that can be read and written. -/
def served (request : Request) : Turn := ⟨request, true, true⟩

/-- A procedure is drawn up, evaluated and promoted. -/
def adopted (candidateId promotionId : String) : List Turn :=
  [served (.createCandidate ⟨"skill", "ada", [("name", .str "brew")], [], .str "m", [], none, "1",
      none, some candidateId⟩ "x" "t"),
    served (.evaluate candidateId
      [passingCase "original", passingCase "boundary", passingCase "negative"] [] "r" none "t"),
    served (.promote candidateId "ada" none false {} true promotionId "t")]

def restored (targetPromotionId : String) : Turn :=
  served (.rollback "ada" "skill" "brew" targetPromotionId "ada" "p3" "t")

/-- The status of the second procedure, and the candidates of the active promotions. -/
def inUse (s : Store) : Option Status × List String :=
  ((s.candidates.get? "b").map Candidate.status,
    (s.promotions.filter fun p => p.status = .active).map Promotion.candidateId)

/-- The second procedure is demoted before the first one is restored. -/
theorem agrees_demotedFirst : ∃ s, (learning .plain).ReachableWhere SparesTurn s ∧
    inUse s = (some .demoted, ["a"]) ∧ Agrees .plain s ∧
      ∀ turn s', (learning .plain).step s turn = some s' →
        (Agrees .plain s' ↔ SparesTurn s turn) := by
  obtain ⟨s, hs, hseen⟩ := TransitionSystem.exists_reachableWhere_of_exec (learning .plain)
    SparesTurn inUse
    (adopted "a" "p1" ++ adopted "b" "p2" ++ [served (.demote "b" "ada" "" none "t"), restored "p1"])
    (v := (some .demoted, ["a"])) rfl (by decide +kernel)
  exact ⟨s, hs, hseen, agrees_of_spares .plain hs⟩

/-- The first procedure is restored while the second one is in use. -/
theorem not_agrees_rolledBack : ∃ s, (learning .plain).Reachable s ∧ ¬ Agrees .plain s := by
  obtain ⟨s, hs, hseen⟩ := TransitionSystem.exists_reachableWhere_of_exec (learning .plain)
    TransitionSystem.anyStep inUse (adopted "a" "p1" ++ adopted "b" "p2" ++ [restored "p1"])
    (v := (some .approved, ["a"])) rfl (by decide +kernel)
  obtain ⟨hstatus, hactive⟩ := Prod.mk.inj hseen
  obtain ⟨c, hc, happroved⟩ := Option.map_eq_some_iff.mp hstatus
  refine ⟨s, hs, fun h => ?_⟩
  obtain ⟨p, hp, hin, hid⟩ := (h.approved "b" c hc).mp happroved
  have hmem : p.candidateId ∈ ["a"] := by
    rw [← hactive]
    refine List.mem_map_of_mem (List.mem_filter.mpr ⟨hp, ?_⟩)
    exact decide_eq_true (activeIn_iff.mp hin).2
  rw [hid] at hmem
  simp at hmem

end Pandamonium.Learning
