import Pandamonium.Model.AuthorityRun

/-!
# What the sections of the authority store can do

Every section under the store's lock is a chain of a few kinds of moves: decisions are
marked expired, receipts are marked expired or spent, the pending actions change, and an
open decision is settled by a new receipt.  The sections are taken apart into moves once,
here; what is kept by each move is then kept by every section.

Two things are kept.  Decisions and receipts age: their identity never changes, a receipt
that is not active never becomes active again, a resolved decision never changes.  And the
ledger is in order: every receipt was granted for the decision that names it.
-/

set_option autoImplicit false

namespace Pandamonium

open Pandamonium.Library

/-- A receipt carries what its decision was about. -/
structure GrantedFor (d : Decision) (r : Receipt) : Prop where
  operator : d.operatorId = some r.operatorId
  agent : d.agentId = r.agentId
  fingerprint : d.argumentFingerprint = r.argumentFingerprint
  effect : d.actionEffect = r.actionEffect

/-- Decisions and receipts are stored under their ids. -/
structure Keyed (s : Store) : Prop where
  decisions : ∀ decisionId d, s.decisions.get? decisionId = some d → d.decisionId = decisionId
  receipts : ∀ receiptId r, s.receipts.get? receiptId = some r → r.receiptId = receiptId

/-- One move, where a new receipt has the id `fresh`. -/
inductive Move (fresh : String) : Store → Store → Prop
  | expireDecisions (s : Store) (looked : Decision → Bool) (now : Time)
      (hlooked : ∀ d, looked d = true → d.isOpen = true) :
      Move fresh s { s with decisions := s.decisions.mapValues (Decision.expireIf looked now) }
  | markExpired (s : Store) (decisionId : String) (d : Decision)
      (hd : s.decisions.get? decisionId = some d) (hstatus : d.status ≠ .resolved) :
      Move fresh s (s.markExpired decisionId d)
  | expireReceipts (s : Store) (now : Time) :
      Move fresh s { s with receipts := s.receipts.mapValues (Receipt.expireIf now) }
  | spend (s : Store) (receiptId : String) (r : Receipt) (status : ReceiptStatus)
      (hr : s.receipts.get? receiptId = some r) (hstatus : status ≠ .active) :
      Move fresh s { s with receipts := s.receipts.set receiptId { r with status := status } }
  | setPending (s : Store) (pendingActions : Dict String PendingAction) :
      Move fresh s { s with pendingActions := pendingActions }
  | settle (s : Store) (d : Decision) (r : Receipt)
      (hd : s.decisions.get? r.decisionId = some d) (hopen : d.isOpen = true)
      (hgranted : GrantedFor d r) (hid : r.receiptId = fresh)
      (hnew : s.receipts.get? r.receiptId = none) : Move fresh s (settle s d r)

/-- A chain of moves. -/
def Moves (fresh : String) : Store → Store → Prop := Relation.ReflTransGen (Move fresh)

variable {fresh operatorId : String} {s s' : Store}

theorem Move.moves (h : Move fresh s s') : Moves fresh s s' :=
  Relation.ReflTransGen.single h

/-! ## Each section is a chain of moves -/

theorem activePending_moves (fresh : String) (s : Store) (operatorId sessionId : String)
    (now : Time) : Moves fresh s (activePending s operatorId sessionId now).1 := by
  refine (Move.expireDecisions s _ now ?_).moves
  intro d hd
  simp only [Decision.isOpenFor, Bool.and_eq_true] at hd
  exact hd.1.1

theorem Receipt.expireIf_active {now : Time} {r : Receipt}
    (h : (r.expireIf now).status = .active) : r.expireIf now = r ∧ r.isPast now = false := by
  unfold Receipt.expireIf at h ⊢
  by_cases hcond : (decide (r.status = .active) && r.isPast now) = true
  · rw [if_pos hcond] at h
    cases h
  · rw [if_neg hcond] at h ⊢
    refine ⟨rfl, ?_⟩
    simpa [h] using hcond

/-- What `_matching_receipt` finds is an active receipt of the store it was called on, not
past its expiry, that meets the conditions on the call. -/
theorem matchingReceipt_some {i : Intake} {binding : Binding} {r : Receipt} (hkeyed : Keyed s)
    (h : matchingReceipt s i binding = (s', some r)) :
    s.receipts.get? r.receiptId = some r ∧ r.matches i binding = true ∧
      r.isPast i.now = false ∧ s'.receipts.get? r.receiptId = some r := by
  obtain ⟨rfl, hfound⟩ := Prod.mk.inj h
  obtain ⟨hvalue, hmatch⟩ := List.mem_filter.mp (mem_of_firstMax _ hfound)
  obtain ⟨receiptId, hget⟩ := (Dict.mem_values_iff _ r).mp hvalue
  have hscanned := hget
  rw [Dict.get?_mapValues, Option.map_eq_some_iff] at hget
  obtain ⟨r₀, hr₀, hr⟩ := hget
  have hactive : (r₀.expireIf i.now).status = .active := by
    rw [hr]
    simp only [Receipt.matches, Bool.and_eq_true, decide_eq_true_eq] at hmatch
    exact hmatch.1.1.1.1.1.1.1.1
  obtain ⟨hsame, hpast⟩ := Receipt.expireIf_active hactive
  rw [hsame] at hr
  subst hr
  rw [hkeyed.receipts receiptId r₀ hr₀]
  exact ⟨hr₀, hmatch, hpast, hscanned⟩

/-- How the locked check of `decide` can go, from a store to a store. -/
inductive CheckOutcome (s : Store) (i : Intake) (binding : Binding) : Store → Check → Prop
  /-- A stored receipt allows the call, and is spent if it is good for one. -/
  | allowed (s' : Store) (r : Receipt) (basis : String)
      (hstored : s.receipts.get? r.receiptId = some r) (hmatch : r.matches i binding = true)
      (hpast : r.isPast i.now = false) (happrove : r.decision = .approve)
      (hspent : r.scope = .once →
        s'.receipts.get? r.receiptId = some { r with status := .consumed }) :
      CheckOutcome s i binding s' (.decided .allow basis (some r))
  /-- A denial is on record, or another approval is pending. -/
  | denied (s' : Store) (basis : String) (receipt : Option Receipt) :
      CheckOutcome s i binding s' (.decided .deny basis receipt)
  /-- The same call is pending already. -/
  | returned (s' : Store) (row : Decision) (hopen : row.isOpen = true) :
      CheckOutcome s i binding s' (.returned row)
  /-- Nothing is pending, as of the time the call started. -/
  | gated (s' : Store) (basis : String)
      (hnone : ∀ decisionId d, s.decisions.get? decisionId = some d →
        d.isOpenFor i.operator i.session = true → d.expiresAt ≤ i.now) :
      CheckOutcome s i binding s' (.decided .approvalRequired basis none)

theorem mem_activePending {sessionId : String} {now : Time} {d : Decision} :
    d ∈ (activePending s operatorId sessionId now).2 ↔
      ∃ decisionId, s.decisions.get? decisionId = some d ∧
        d.isOpenFor operatorId sessionId = true ∧ now < d.expiresAt := by
  simp only [activePending, (List.perm_insertionSort _ _).mem_iff, List.mem_filter,
    Dict.mem_values_iff, Dict.get?_mapValues, Option.map_eq_some_iff]
  constructor
  · rintro ⟨⟨decisionId, d₀, hd₀, rfl⟩, hopen⟩
    by_cases hpast : (d₀.isOpenFor operatorId sessionId && decide (d₀.expiresAt ≤ now)) = true
    · simp only [Decision.expireIf, hpast, if_true] at hopen
      simp [Decision.isOpenFor, Decision.isOpen] at hopen
    · have hsame : d₀.expireIf (Decision.isOpenFor operatorId sessionId) now = d₀ := by
        simp [Decision.expireIf, hpast]
      rw [hsame] at hopen ⊢
      refine ⟨decisionId, hd₀, hopen, ?_⟩
      simpa [hopen] using hpast
  · rintro ⟨decisionId, hd, hopen, hnow⟩
    refine ⟨⟨decisionId, d, hd, ?_⟩, hopen⟩
    simp [Decision.expireIf, Nat.not_le.mpr hnow]

/-- The locked check of `decide`: a chain of moves, and one of the outcomes. -/
theorem decideCheck_outcome (fresh : String) {i : Intake} {binding : Binding} {check : Check}
    (hkeyed : Keyed s) (h : decideCheck s i binding = (s', check)) :
    Moves fresh s s' ∧ CheckOutcome s i binding s' check := by
  rcases hmatching : matchingReceipt s i binding with ⟨s₁, found⟩
  have hscan : Moves fresh s s₁ := by
    obtain ⟨rfl, -⟩ := Prod.mk.inj hmatching
    exact (Move.expireReceipts s i.now).moves
  cases found with
  | some r =>
    obtain ⟨hstored, hmatch, hpast, hscanned⟩ := matchingReceipt_some hkeyed hmatching
    simp only [decideCheck, hmatching] at h
    split at h
    · cases h
      exact ⟨hscan, .denied _ _ _⟩
    · rename_i happrove
      cases h
      have hdropped := hscan.tail (Move.setPending s₁ (s₁.pendingActions.erase r.decisionId))
      split
      · refine ⟨hdropped.tail (Move.spend _ r.receiptId r .consumed hscanned (by simp)), ?_⟩
        exact .allowed _ r _ hstored hmatch hpast happrove fun _ => by simp
      · rename_i hscope
        exact ⟨hdropped, .allowed _ r _ hstored hmatch hpast happrove fun h => absurd h hscope⟩
  | none =>
    have hpending := activePending_moves fresh s₁ i.operator i.session i.now
    have hdecisions : s₁.decisions = s.decisions := by
      obtain ⟨rfl, -⟩ := Prod.mk.inj hmatching
      rfl
    have hmem := @mem_activePending i.operator s₁ i.session i.now
    rcases hactive : activePending s₁ i.operator i.session i.now with ⟨s₂, active⟩
    rw [hactive] at hpending hmem
    cases hfind : active.find? fun row => decide (row.argumentFingerprint = i.fingerprint) with
    | some row =>
      simp only [decideCheck, hmatching, hactive, hfind, Prod.mk.injEq] at h
      obtain ⟨rfl, rfl⟩ := h
      obtain ⟨_, _, hopen, _⟩ := hmem.mp (List.mem_of_find?_eq_some hfind)
      simp only [Decision.isOpenFor, Bool.and_eq_true] at hopen
      exact ⟨hscan.trans hpending, .returned _ row hopen.1.1⟩
    | none =>
      by_cases hnil : active = []
      · simp only [decideCheck, hmatching, hactive, hnil] at h
        cases h
        refine ⟨hscan.trans hpending, .gated _ _ ?_⟩
        intro decisionId d hd hopen
        by_contra hlate
        have : d ∈ active :=
          hmem.mpr ⟨decisionId, by rw [hdecisions]; exact hd, hopen, Nat.lt_of_not_le hlate⟩
        rw [hnil] at this
        cases this
      · simp only [decideCheck, hmatching, hactive, hfind, hnil, if_false, Prod.mk.injEq] at h
        obtain ⟨rfl, rfl⟩ := h
        exact ⟨hscan.trans hpending, .denied _ _ _⟩

theorem grantedFor_receiptFor {d : Decision} (h : d.operatorId = some operatorId)
    (decisionId receiptId : String) (choice : Choice) (scope : Scope) (now : Time)
    (ttlSeconds : Int) :
    GrantedFor d (receiptFor decisionId d operatorId receiptId choice scope now ttlSeconds) :=
  ⟨h, rfl, rfl, rfl⟩

/-- `resolve` leaves the store as it was, marks the decision expired, or settles it. -/
theorem resolve_moves {machine : Machine} {now : Time} {receiptId decisionId choice scope : String}
    {ttlSeconds : Int} (hnew : s.receipts.get? receiptId = none) :
    Moves receiptId s
      (resolve machine s now receiptId decisionId operatorId choice scope ttlSeconds).1 := by
  unfold resolve
  cases hd : s.decisions.get? decisionId with
  | none => exact Relation.ReflTransGen.refl
  | some d =>
    simp only
    split
    · exact Relation.ReflTransGen.refl
    rename_i hop
    have hoperator : d.operatorId = some operatorId := by simpa using hop
    split
    · exact Relation.ReflTransGen.refl
    rename_i hnotopen
    have hopen : d.isOpen = true := by simpa using hnotopen
    have hunresolved : d.status ≠ .resolved := by
      simp only [Decision.isOpen, Bool.and_eq_true, decide_eq_true_eq] at hopen
      simp [hopen.2]
    have hexpire : Move receiptId s (s.markExpired decisionId d) :=
      Move.markExpired s decisionId d hd hunresolved
    split
    · exact hexpire.moves
    split
    · exact Relation.ReflTransGen.refl
    split
    · exact Relation.ReflTransGen.refl
    rename_i choice _ _ scope _
    split
    · rename_i s' err hrefused
      by_cases happrove : choice = .approve
      · rw [if_pos happrove] at hrefused
        unfold approvalRefused at hrefused
        split at hrefused
        · cases hrefused
          exact hexpire.moves
        · split at hrefused
          · cases hrefused
          · cases hrefused
            exact (Move.setPending s _).moves.tail (Move.markExpired _ decisionId d hd hunresolved)
      · rw [if_neg happrove] at hrefused
        cases hrefused
    · exact (Move.settle s d _ hd hopen
        (grantedFor_receiptFor hoperator decisionId receiptId choice scope now ttlSeconds) rfl
        hnew).moves

theorem replyOf_fst (s : Store) (d : Decision) (choice : String) (pending : Option PendingAction)
    (outcome : Except AuthorityError Receipt) : (replyOf s d choice pending outcome).1 = s := by
  unfold replyOf
  split
  · rfl
  · split <;> rfl

theorem resolveNaturalReply_moves (rt : Runtime) {machine : Machine} {now later : Time}
    {receiptId text sessionId : String} (hnew : s.receipts.get? receiptId = none) :
    Moves receiptId s
      (resolveNaturalReply rt machine s now later receiptId text operatorId sessionId).1 := by
  unfold resolveNaturalReply
  split
  · exact Relation.ReflTransGen.refl
  have hscan := activePending_moves receiptId s operatorId sessionId now
  have hnew' : (activePending s operatorId sessionId now).1.receipts.get? receiptId = none := hnew
  rcases hactive : activePending s operatorId sessionId now with ⟨s₁, active⟩
  rw [hactive] at hscan hnew'
  simp only
  split
  · rw [replyOf_fst]
    exact hscan.trans (resolve_moves hnew')
  · split
    · exact hscan
    · exact hscan
  · exact hscan

theorem resolveExplicitReply_moves {machine : Machine} {now later : Time}
    {receiptId decisionId sessionId choice scope : String} (hnew : s.receipts.get? receiptId = none) :
    Moves receiptId s
      (resolveExplicitReply machine s now later receiptId decisionId operatorId sessionId choice
        scope).1 := by
  unfold resolveExplicitReply
  cases hd : s.decisions.get? decisionId with
  | none => exact Relation.ReflTransGen.refl
  | some d =>
    simp only
    split
    · exact Relation.ReflTransGen.refl
    split
    · exact Relation.ReflTransGen.refl
    rename_i hunresolved
    split
    · exact (Move.markExpired s decisionId d hd hunresolved).moves
    split
    · exact Relation.ReflTransGen.refl
    · rw [replyOf_fst]
      exact resolve_moves hnew

theorem revoke_moves (fresh : String) (s : Store) (receiptId operatorId : String) :
    Moves fresh s (revoke s receiptId operatorId).1 := by
  unfold revoke
  cases hr : s.receipts.get? receiptId with
  | none => exact Relation.ReflTransGen.refl
  | some r =>
    simp only
    split
    · exact Relation.ReflTransGen.refl
    · exact (Move.spend s receiptId r .revoked hr (by simp)).moves

theorem listState_moves (fresh : String) (s : Store) (now : Time) (operatorId : String) :
    Moves fresh s (listState s now operatorId).1 :=
  (Move.expireDecisions s Decision.isOpen now fun _ h => h).moves

/-! ## Ageing -/

/-- Only the status of a receipt changes, and it does not become active again. -/
structure Receipt.Ages (r r' : Receipt) : Prop where
  same : r' = { r with status := r'.status }
  spent : r.status ≠ .active → r'.status ≠ .active

/-- What a decision is about never changes, nor does anything once it is resolved; a
decision that is not open does not open again. -/
structure Decision.Ages (d d' : Decision) : Prop where
  same : d' = { d with
    status := d'.status, resolvedAt := d'.resolvedAt, receiptId := d'.receiptId }
  resolved : d.status = .resolved → d' = d
  closed : d.status ≠ .unset → d'.status ≠ .unset

theorem Receipt.Ages.refl (r : Receipt) : r.Ages r := ⟨rfl, id⟩

theorem Receipt.Ages.trans {r₁ r₂ r₃ : Receipt} (h : r₁.Ages r₂) (h' : r₂.Ages r₃) :
    r₁.Ages r₃ := by
  refine ⟨?_, h'.spent ∘ h.spent⟩
  rw [h'.same, h.same]

theorem Decision.Ages.refl (d : Decision) : d.Ages d := ⟨rfl, fun _ => rfl, id⟩

theorem Decision.Ages.trans {d₁ d₂ d₃ : Decision} (h : d₁.Ages d₂) (h' : d₂.Ages d₃) :
    d₁.Ages d₃ := by
  refine ⟨?_, ?_, h'.closed ∘ h.closed⟩
  · rw [h'.same, h.same]
  · intro hresolved
    have heq := h.resolved hresolved
    rw [h'.resolved (by rw [heq]; exact hresolved), heq]

theorem Receipt.ages_expireIf (now : Time) (r : Receipt) : r.Ages (r.expireIf now) := by
  unfold Receipt.expireIf
  split
  · exact ⟨rfl, fun _ => by simp⟩
  · exact Receipt.Ages.refl r

theorem Decision.ages_expireIf {looked : Decision → Bool}
    (hlooked : ∀ d, looked d = true → d.isOpen = true) (now : Time) (d : Decision) :
    d.Ages (d.expireIf looked now) := by
  unfold Decision.expireIf
  split
  · rename_i hcond
    simp only [Bool.and_eq_true, decide_eq_true_eq] at hcond
    have hopen := hlooked d hcond.1
    simp only [Decision.isOpen, Bool.and_eq_true, decide_eq_true_eq] at hopen
    exact ⟨rfl, fun hr => absurd (hopen.2.symm.trans hr) (by simp), fun _ => by simp⟩
  · exact Decision.Ages.refl d

/-- Between two states of the store, what is stored ages, no decision appears, and no
receipt but the fresh one does. -/
structure Store.Ages (fresh : String) (s s' : Store) : Prop where
  receipts : ∀ receiptId r, s.receipts.get? receiptId = some r →
    ∃ r', s'.receipts.get? receiptId = some r' ∧ r.Ages r'
  decisions : ∀ decisionId d, s.decisions.get? decisionId = some d →
    ∃ d', s'.decisions.get? decisionId = some d' ∧ d.Ages d'
  noReceipt : ∀ receiptId, receiptId ≠ fresh → s.receipts.get? receiptId = none →
    s'.receipts.get? receiptId = none
  noDecision : ∀ decisionId, s.decisions.get? decisionId = none →
    s'.decisions.get? decisionId = none

theorem Store.Ages.refl (fresh : String) (s : Store) : s.Ages fresh s :=
  ⟨fun _ r h => ⟨r, h, .refl r⟩, fun _ d h => ⟨d, h, .refl d⟩, fun _ _ h => h, fun _ h => h⟩

theorem Store.Ages.trans {s₁ s₂ s₃ : Store} (h : s₁.Ages fresh s₂) (h' : s₂.Ages fresh s₃) :
    s₁.Ages fresh s₃ where
  receipts := by
    intro receiptId r hr
    obtain ⟨r₂, hr₂, ha₂⟩ := h.receipts receiptId r hr
    obtain ⟨r₃, hr₃, ha₃⟩ := h'.receipts receiptId r₂ hr₂
    exact ⟨r₃, hr₃, ha₂.trans ha₃⟩
  decisions := by
    intro decisionId d hd
    obtain ⟨d₂, hd₂, ha₂⟩ := h.decisions decisionId d hd
    obtain ⟨d₃, hd₃, ha₃⟩ := h'.decisions decisionId d₂ hd₂
    exact ⟨d₃, hd₃, ha₂.trans ha₃⟩
  noReceipt := fun receiptId hne hnone =>
    h'.noReceipt receiptId hne (h.noReceipt receiptId hne hnone)
  noDecision := fun decisionId hnone => h'.noDecision decisionId (h.noDecision decisionId hnone)

theorem Store.Ages.decision_from (h : s.Ages fresh s') {decisionId : String} {d' : Decision}
    (hd' : s'.decisions.get? decisionId = some d') :
    ∃ d, s.decisions.get? decisionId = some d ∧ d.Ages d' := by
  cases hd : s.decisions.get? decisionId with
  | none =>
    rw [h.noDecision decisionId hd] at hd'
    cases hd'
  | some d =>
    obtain ⟨d₂, hd₂, hage⟩ := h.decisions decisionId d hd
    rw [hd', Option.some.injEq] at hd₂
    subst hd₂
    exact ⟨d, rfl, hage⟩

section Tables

variable {β : Type} {Ages : β → β → Prop}

theorem mapValues_ages {f : β → β} (hf : ∀ v, Ages v (f v)) (t : Dict String β) (k : String) (v : β)
    (hv : t.get? k = some v) : ∃ v', (t.mapValues f).get? k = some v' ∧ Ages v v' :=
  ⟨f v, by simp [hv], hf v⟩

theorem set_ages (hrefl : ∀ v, Ages v v) {t : Dict String β} {k : String} {v v' : β}
    (hv : t.get? k = some v) (hage : Ages v v') (k₁ : String) (v₁ : β)
    (hv₁ : t.get? k₁ = some v₁) : ∃ v₂, (t.set k v').get? k₁ = some v₂ ∧ Ages v₁ v₂ := by
  by_cases hk : k₁ = k
  · subst hk
    rw [hv, Option.some.injEq] at hv₁
    subst hv₁
    exact ⟨v', by simp, hage⟩
  · exact ⟨v₁, by simpa [Dict.get?_set, hk] using hv₁, hrefl v₁⟩

theorem set_none {t : Dict String β} {k : String} {v v' : β} (hv : t.get? k = some v) (k₁ : String)
    (hk₁ : t.get? k₁ = none) : (t.set k v').get? k₁ = none := by
  have hk : k₁ ≠ k := by
    rintro rfl
    rw [hv] at hk₁
    cases hk₁
  simpa [Dict.get?_set, hk] using hk₁

end Tables

theorem Move.ages (h : Move fresh s s') : s.Ages fresh s' := by
  cases h with
  | expireDecisions looked now hlooked =>
    exact ⟨fun _ r h => ⟨r, h, .refl r⟩,
      mapValues_ages (Decision.ages_expireIf hlooked now) s.decisions,
      fun _ _ h => h, fun _ h => by simp [h]⟩
  | markExpired decisionId d hd hstatus =>
    have hage : d.Ages { d with status := .expired } :=
      ⟨rfl, fun hr => absurd hr hstatus, fun _ => by simp⟩
    exact ⟨fun _ r h => ⟨r, h, .refl r⟩, set_ages .refl hd hage, fun _ _ h => h, set_none hd⟩
  | expireReceipts now =>
    exact ⟨mapValues_ages (Receipt.ages_expireIf now) s.receipts,
      fun _ d h => ⟨d, h, .refl d⟩, fun _ _ h => by simp [h], fun _ h => h⟩
  | spend receiptId r status hr hstatus =>
    have hage : r.Ages { r with status := status } := ⟨rfl, fun _ => hstatus⟩
    exact ⟨set_ages .refl hr hage, fun _ d h => ⟨d, h, .refl d⟩, fun _ _ => set_none hr _,
      fun _ h => h⟩
  | setPending pendingActions => exact ⟨fun _ r h => ⟨r, h, .refl r⟩,
      fun _ d h => ⟨d, h, .refl d⟩, fun _ _ h => h, fun _ h => h⟩
  | settle d r hd hopen hgranted hid hnew =>
    simp only [Decision.isOpen, Bool.and_eq_true, decide_eq_true_eq] at hopen
    have hage : d.Ages { d with
        status := .resolved, resolvedAt := some r.issuedAt, receiptId := some r.receiptId } :=
      ⟨rfl, fun hr => absurd (hopen.2.symm.trans hr) (by simp), fun _ => by simp⟩
    refine ⟨?_, set_ages .refl hd hage, ?_, set_none hd⟩
    · intro receiptId r₁ hr₁
      have hne : receiptId ≠ r.receiptId := by
        rintro rfl
        rw [hnew] at hr₁
        cases hr₁
      exact ⟨r₁, by simpa [Pandamonium.settle, Dict.get?_set, hne] using hr₁, .refl r₁⟩
    · intro receiptId hne hnone
      rw [← hid] at hne
      simpa [Pandamonium.settle, Dict.get?_set, hne] using hnone

theorem Moves.ages (h : Moves fresh s s') : s.Ages fresh s' := by
  induction h with
  | refl => exact .refl fresh s
  | tail _ hmove ih => exact ih.trans hmove.ages

/-! ## The ledger -/

/-- Decisions and receipts are stored under their ids, and every receipt was granted for the
decision that it resolved. -/
structure Ledger (s : Store) : Prop extends Keyed s where
  granted : ∀ receiptId r, s.receipts.get? receiptId = some r →
    ∃ d, s.decisions.get? r.decisionId = some d ∧ d.decision = .approvalRequired ∧
      d.status = .resolved ∧ d.receiptId = some receiptId ∧ GrantedFor d r

theorem ledger_empty : Ledger Store.empty where
  decisions := by intro decisionId d h; cases h
  receipts := by intro receiptId r h; cases h
  granted := by intro receiptId r h; cases h

theorem Decision.Ages.decisionId {d d' : Decision} (h : d.Ages d') :
    d'.decisionId = d.decisionId := by
  rw [h.same]

theorem Receipt.Ages.ids {r r' : Receipt} (h : r.Ages r') :
    r'.receiptId = r.receiptId ∧ r'.decisionId = r.decisionId := by
  rw [h.same]
  exact ⟨rfl, rfl⟩

theorem GrantedFor.ages {d : Decision} {r r' : Receipt} (h : GrantedFor d r) (hage : r.Ages r') :
    GrantedFor d r' := by
  rw [hage.same]
  exact ⟨h.operator, h.agent, h.fingerprint, h.effect⟩

theorem Ledger.of_ages (h : Ledger s) (hage : s.Ages fresh s')
    (hold : ∀ receiptId, s.receipts.get? receiptId = none → s'.receipts.get? receiptId = none) :
    Ledger s' := by
  have hfrom : ∀ receiptId r', s'.receipts.get? receiptId = some r' →
      ∃ r, s.receipts.get? receiptId = some r ∧ r.Ages r' := by
    intro receiptId r' hr'
    cases hr : s.receipts.get? receiptId with
    | none =>
      rw [hold receiptId hr] at hr'
      cases hr'
    | some r =>
      obtain ⟨r₂, hr₂, hages⟩ := hage.receipts receiptId r hr
      rw [hr', Option.some.injEq] at hr₂
      subst hr₂
      exact ⟨r, rfl, hages⟩
  refine ⟨⟨?_, ?_⟩, ?_⟩
  · intro decisionId d' hd'
    obtain ⟨d, hd, hages⟩ := hage.decision_from hd'
    rw [hages.decisionId, h.decisions decisionId d hd]
  · intro receiptId r' hr'
    obtain ⟨r, hr, hages⟩ := hfrom receiptId r' hr'
    rw [hages.ids.1, h.receipts receiptId r hr]
  · intro receiptId r' hr'
    obtain ⟨r, hr, hages⟩ := hfrom receiptId r' hr'
    obtain ⟨d, hd, hgate, hresolved, hid, hgranted⟩ := h.granted receiptId r hr
    obtain ⟨d', hd', hages'⟩ := hage.decisions r.decisionId d hd
    rw [hages'.resolved hresolved] at hd'
    rw [hages.ids.2]
    exact ⟨d, hd', hgate, hresolved, hid, hgranted.ages hages⟩

/-- Settling an open decision by a receipt granted for it keeps the ledger in order: no other
receipt names that decision. -/
theorem Ledger.settle (h : Ledger s) {d : Decision} {r : Receipt}
    (hd : s.decisions.get? r.decisionId = some d) (hopen : d.isOpen = true)
    (hgranted : GrantedFor d r) : Ledger (settle s d r) := by
  simp only [Decision.isOpen, Bool.and_eq_true, decide_eq_true_eq] at hopen
  refine ⟨⟨?_, ?_⟩, ?_⟩
  · intro decisionId d' hd'
    rw [Pandamonium.settle, Dict.get?_set] at hd'
    split at hd'
    · rename_i heq
      cases hd'
      rw [heq]
      exact h.decisions _ d hd
    · exact h.decisions decisionId d' hd'
  · intro receiptId r' hr'
    rw [Pandamonium.settle, Dict.get?_set] at hr'
    split at hr'
    · rename_i heq
      cases hr'
      exact heq.symm
    · exact h.receipts receiptId r' hr'
  · intro receiptId r' hr'
    rw [Pandamonium.settle, Dict.get?_set] at hr'
    split at hr'
    · rename_i heq
      cases hr'
      rw [heq]
      exact ⟨_, Dict.get?_set_self _ _ _, hopen.1, rfl, rfl,
        ⟨hgranted.operator, hgranted.agent, hgranted.fingerprint, hgranted.effect⟩⟩
    · obtain ⟨d', hd', hgate, hresolved, hid, hgranted'⟩ := h.granted receiptId r' hr'
      have hne : r'.decisionId ≠ r.decisionId := by
        intro heq
        rw [heq, hd, Option.some.injEq] at hd'
        rw [← hd', hopen.2] at hresolved
        cases hresolved
      exact ⟨d', by simpa [Pandamonium.settle, Dict.get?_set, hne] using hd', hgate, hresolved, hid,
        hgranted'⟩

theorem Move.ledger (h : Move fresh s s') (hs : Ledger s) :
    Ledger s' := by
  have hage := h.ages
  cases h with
  | expireDecisions looked now hlooked => exact hs.of_ages hage fun _ h => h
  | markExpired decisionId d hd hstatus => exact hs.of_ages hage fun _ h => h
  | expireReceipts now => exact hs.of_ages hage fun _ h => by simp [h]
  | spend receiptId r status hr hstatus => exact hs.of_ages hage fun _ => set_none hr _
  | setPending pendingActions => exact hs.of_ages hage fun _ h => h
  | settle d r hd hopen hgranted hid hnew => exact hs.settle hd hopen hgranted

theorem Moves.ledger (h : Moves fresh s s') (hs : Ledger s) :
    Ledger s' := by
  induction h with
  | refl => exact hs
  | tail _ hmove ih => exact hmove.ledger ih

theorem decideRecord_ledger (hs : Ledger s) {req : Request} {record : Decision}
    (hnew : s.decisions.get? record.decisionId = none) :
    Ledger (decideRecord s req record) := by
  refine ⟨⟨?_, hs.receipts⟩, ?_⟩
  · intro decisionId d hd
    rw [decideRecord, Dict.get?_set] at hd
    split at hd
    · rename_i heq
      cases hd
      exact heq.symm
    · exact hs.decisions decisionId d hd
  · intro receiptId r hr
    obtain ⟨d, hd, hgate, hresolved, hid, hgranted⟩ := hs.granted receiptId r hr
    have hne : r.decisionId ≠ record.decisionId := by
      intro heq
      rw [heq, hnew] at hd
      cases hd
    exact ⟨d, by simpa [decideRecord, Dict.get?_set, hne] using hd, hgate, hresolved, hid, hgranted⟩

/-- In a list without repeated keys, the elements with equal keys are at most one. -/
theorem length_le_one_of_keys {α β : Type} {f : α → β} {l : List α} (hnodup : (l.map f).Nodup)
    (hsame : ∀ x ∈ l, ∀ y ∈ l, f x = f y) : l.length ≤ 1 := by
  match l, hnodup, hsame with
  | [], _, _ => simp
  | [_], _, _ => simp
  | x :: y :: l, hnodup, hsame =>
    have hxy := hsame x (by simp) y (by simp)
    simp [hxy] at hnodup

end Pandamonium
