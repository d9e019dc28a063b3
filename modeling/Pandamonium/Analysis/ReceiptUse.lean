import Pandamonium.Analysis.AuthorityLedger

/-!
# How receipts are used

In every run of the authority store, a receipt good for one use allows at most one call,
a receipt that was consumed, revoked or found expired allows none any more, and every call
that a receipt allows is the call it was granted for.  The expiry of a receipt is judged at
the time a `decide` call started, which it reads before it takes the lock.

The invariant `Inv` ties the receipts to the history of the run: each entry of `allows` is
a younger copy of a stored receipt, spent if it was good for one use, and each allowing
decision comes from an entry of its own, found through the id that its call has drawn.
-/

set_option autoImplicit false

namespace Pandamonium.Authority

open Pandamonium.Library

/-- The id a `decide` call has drawn. -/
def Frame.decisionId : Frame → String
  | .checking _ i => i.decisionId
  | .recording _ i _ _ _ => i.decisionId

/-- The decisions that allow something. -/
def allowing (results : List Decision) : List Decision :=
  results.filter fun d => decide (d.decision = .allow)

/-- The entries of the history whose receipt is good for one use. -/
def onceAllows (allows : List Allow) : List Allow :=
  allows.filter fun a => decide (a.receipt.scope = .once)

/-- The decisions that allow something because of a receipt. -/
def allowedBy (results : List Decision) (receiptId : String) : List Decision :=
  (allowing results).filter fun d => decide (d.receiptId = some receiptId)

/-- What was true of a receipt and a call when the one allowed the other. -/
structure Allow.Sound (a : Allow) : Prop where
  active : a.receipt.status = .active
  live : ∀ expires, a.receipt.expiresAt = some expires → a.intake.now < expires
  approved : a.receipt.decision = .approve
  operator : a.receipt.operatorId = a.intake.operator
  agent : a.receipt.agentId = a.intake.agentId
  fingerprint : a.receipt.argumentFingerprint = a.intake.fingerprint
  effect : a.receipt.actionEffect = a.intake.effect

structure Inv (s : State) : Prop where
  ledger : Ledger s.store
  receiptIds : ∀ receiptId r, s.store.receipts.get? receiptId = some r → receiptId ∈ s.usedIds
  decisionIds : ∀ decisionId d, s.store.decisions.get? decisionId = some d →
    decisionId ∈ s.usedIds
  frameIds : ∀ c f, s.calls.get? c = some f →
    f.decisionId ∈ s.usedIds ∧ s.store.decisions.get? f.decisionId = none ∧
      ∀ d ∈ allowing s.results, d.decisionId ≠ f.decisionId
  framesApart : ∀ c c' f f', s.calls.get? c = some f → s.calls.get? c' = some f' →
    f.decisionId = f'.decisionId → c = c'
  resultIds : ∀ d ∈ allowing s.results, d.decisionId ∈ s.usedIds
  resultsApart : ((allowing s.results).map Decision.decisionId).Nodup
  sound : ∀ a ∈ s.allows, a.Sound
  /-- The receipt of an entry is still stored, and spent if it was good for one use. -/
  stored : ∀ a ∈ s.allows, ∃ r, s.store.receipts.get? a.receipt.receiptId = some r ∧
    a.receipt.Ages r ∧ (a.receipt.scope = .once → r.status ≠ .active)
  onceApart : ((onceAllows s.allows).map fun a => a.receipt.receiptId).Nodup
  /-- A call on its way to an allow because of a receipt has its entry. -/
  frameAllow : ∀ c req i basis r, s.calls.get? c = some (.recording req i .allow basis (some r)) →
    ∃ a ∈ s.allows, a.intake = i ∧ a.receipt = r
  resultAllow : ∀ d ∈ allowing s.results, ∀ receiptId, d.receiptId = some receiptId →
    ∃ a ∈ s.allows, ∃ binding basis,
      d = decisionRecord a.intake binding .allow basis (some a.receipt)

theorem inv_start (machine : Machine) (clock : Time) : Inv (State.start machine clock) where
  ledger := ledger_empty
  receiptIds := by intro receiptId r h; cases h
  decisionIds := by intro decisionId d h; cases h
  frameIds := by intro c f h; cases h
  framesApart := by intro c c' f f' h; cases h
  resultIds := by intro d h; cases h
  resultsApart := List.nodup_nil
  sound := by intro a h; cases h
  stored := by intro a h; cases h
  onceApart := List.nodup_nil
  frameAllow := by intro c req i basis r h; cases h
  resultAllow := by intro d h; cases h

/-! ## Steps that no `decide` call takes -/

/-- What the other steps do, from a state in order. -/
structure Background (s s' : State) : Prop where
  ages : ∃ fresh, s.store.Ages fresh s'.store
  ledger : Ledger s'.store
  receiptIds : ∀ receiptId r, s'.store.receipts.get? receiptId = some r → receiptId ∈ s'.usedIds
  ids : s.usedIds ⊆ s'.usedIds
  calls : ∀ c f, s'.calls.get? c = some f → s.calls.get? c = some f
  allows : s'.allows = s.allows
  results : s'.results = s.results
  clock : s.clock ≤ s'.clock

variable {s s' : State} {c : CallId}

theorem issuing_background {receiptId : String} {lag : Time} {method : Store → Store}
    (hledger : Ledger s.store)
    (hids : ∀ receiptId r, s.store.receipts.get? receiptId = some r → receiptId ∈ s.usedIds)
    (hmoves : s.store.receipts.get? receiptId = none → Moves receiptId s.store (method s.store))
    (hstep : issuing s receiptId lag method = some s') : Background s s' := by
  unfold issuing at hstep
  split at hstep
  · cases hstep
  · rename_i hfresh
    cases hstep
    have hnew : s.store.receipts.get? receiptId = none := by
      cases hr : s.store.receipts.get? receiptId with
      | none => rfl
      | some r => exact absurd (hids receiptId r hr) hfresh
    have hchain := hmoves hnew
    refine ⟨⟨receiptId, hchain.ages⟩, hchain.ledger hledger, ?_,
      fun _ h => List.mem_cons_of_mem _ h, fun _ _ h => h, rfl, rfl, Nat.le_add_right _ _⟩
    intro receiptId' r hr
    by_cases heq : receiptId' = receiptId
    · exact heq ▸ List.mem_cons_self
    · cases hold : s.store.receipts.get? receiptId' with
      | none =>
        rw [hchain.ages.noReceipt receiptId' heq hold] at hr
        cases hr
      | some r₀ => exact List.mem_cons_of_mem _ (hids receiptId' r₀ hold)

theorem moves_background {store : Store} (hledger : Ledger s.store)
    (hids : ∀ receiptId r, s.store.receipts.get? receiptId = some r → receiptId ∈ s.usedIds)
    (hmoves : ∀ fresh, Moves fresh s.store store) : Background s { s with store := store } := by
  refine ⟨⟨"", (hmoves "").ages⟩, (hmoves "").ledger hledger, ?_, fun _ h => h,
    fun _ _ h => h, rfl, rfl, Nat.le_refl _⟩
  intro receiptId r hr
  cases hold : s.store.receipts.get? receiptId with
  | some r₀ => exact hids receiptId r₀ hold
  | none =>
    -- a chain that could issue `receiptId` could also issue another one instead
    have hne : receiptId ≠ receiptId ++ "_" := by
      intro heq
      have := congrArg String.length heq
      simp at this
    rw [(hmoves (receiptId ++ "_")).ages.noReceipt receiptId hne hold] at hr
    cases hr

variable {rt : Runtime}

/-- Every label but those of `decide` is a background step. -/
theorem step_background (hledger : Ledger s.store)
    (hids : ∀ receiptId r, s.store.receipts.get? receiptId = some r → receiptId ∈ s.usedIds)
    {l : Label} (hstart : ∀ c req decisionId, l ≠ .decideStart c req decisionId)
    (hcheck : ∀ c, l ≠ .decideCheck c) (hrecord : ∀ c, l ≠ .decideRecord c)
    (hstep : step rt s l = some s') : Background s s' := by
  cases l with
  | decideStart c req decisionId => exact absurd rfl (hstart c req decisionId)
  | decideCheck c => exact absurd rfl (hcheck c)
  | decideRecord c => exact absurd rfl (hrecord c)
  | resolve receiptId decisionId operatorId choice scope ttlSeconds =>
    rw [step] at hstep
    refine issuing_background hledger hids ?_ hstep
    intro hnew
    exact resolve_moves hnew
  | naturalReply receiptId text operatorId sessionId lag =>
    rw [step] at hstep
    refine issuing_background hledger hids ?_ hstep
    intro hnew
    exact resolveNaturalReply_moves rt hnew
  | explicitReply receiptId decisionId operatorId sessionId choice scope lag =>
    rw [step] at hstep
    refine issuing_background hledger hids ?_ hstep
    intro hnew
    exact resolveExplicitReply_moves hnew
  | revoke receiptId operatorId =>
    cases hstep
    exact moves_background hledger hids fun fresh => revoke_moves fresh _ _ _
  | listState operatorId =>
    cases hstep
    exact moves_background hledger hids fun fresh => listState_moves fresh _ _ _
  | tick elapsed =>
    cases hstep
    exact ⟨⟨"", .refl _ _⟩, hledger, hids, fun _ h => h, fun _ _ h => h, rfl, rfl,
      Nat.le_add_right _ _⟩
  | reconfigure machine =>
    cases hstep
    exact ⟨⟨"", .refl _ _⟩, hledger, hids, fun _ h => h, fun _ _ h => h, rfl, rfl, Nat.le_refl _⟩
  | restart =>
    cases hstep
    have hmove : Move "" s.store { s.store with pendingActions := .empty } := .setPending _ _
    exact ⟨⟨"", hmove.ages⟩, hmove.ledger hledger, hids, fun _ h => h,
      fun _ _ h => (by cases h), rfl, rfl, Nat.le_refl _⟩

theorem Inv.background (h : Inv s) (hb : Background s s') : Inv s' := by
  obtain ⟨fresh, hages⟩ := hb.ages
  have hnone : ∀ decisionId, s.store.decisions.get? decisionId = none →
      s'.store.decisions.get? decisionId = none := hages.noDecision
  constructor
  case ledger => exact hb.ledger
  case receiptIds => exact hb.receiptIds
  case decisionIds =>
    intro decisionId d hd
    obtain ⟨d₀, hd₀, _⟩ := hages.decision_from hd
    exact hb.ids (h.decisionIds decisionId d₀ hd₀)
  case frameIds =>
    intro c f hc
    obtain ⟨hused, hfree, hresults⟩ := h.frameIds c f (hb.calls c f hc)
    rw [hb.results]
    exact ⟨hb.ids hused, hnone _ hfree, hresults⟩
  case framesApart =>
    intro c c' f f' hc hc'
    exact h.framesApart c c' f f' (hb.calls c f hc) (hb.calls c' f' hc')
  case resultIds =>
    rw [hb.results]
    exact fun d hd => hb.ids (h.resultIds d hd)
  case resultsApart =>
    rw [hb.results]
    exact h.resultsApart
  case sound =>
    rw [hb.allows]
    exact h.sound
  case stored =>
    rw [hb.allows]
    intro a ha
    obtain ⟨r, hr, hage, hspent⟩ := h.stored a ha
    obtain ⟨r', hr', hage'⟩ := hages.receipts _ r hr
    exact ⟨r', hr', hage.trans hage', fun honce => hage'.spent (hspent honce)⟩
  case onceApart =>
    rw [hb.allows]
    exact h.onceApart
  case frameAllow =>
    rw [hb.allows]
    exact fun c req i basis r hc => h.frameAllow c req i basis r (hb.calls _ _ hc)
  case resultAllow =>
    rw [hb.results, hb.allows]
    exact h.resultAllow

/-! ## The steps of `decide` -/

theorem ungatedVerdict_ne {req : Request} {i : Intake} {verdict : Verdict} {basis : String}
    (h : ungatedVerdict req i = some (verdict, basis)) : verdict ≠ .approvalRequired := by
  unfold ungatedVerdict at h
  repeat' split at h
  all_goals
    cases h
    try simp

theorem decideStart_cases {req : Request} {decisionId : String}
    (hstep : decideStart rt s c req decisionId = some s') :
    decisionId ∉ s.usedIds ∧ s.calls.get? c = none ∧
      ∃ frame, (frame = .checking req (intake rt s.machine s.clock req decisionId) ∨
          ∃ verdict basis, verdict ≠ .approvalRequired ∧ frame =
            .recording req (intake rt s.machine s.clock req decisionId) verdict basis none) ∧
        s' = { s with calls := s.calls.set c frame, usedIds := decisionId :: s.usedIds } := by
  unfold decideStart at hstep
  split at hstep
  · cases hstep
  · rename_i hcond
    simp only [not_or, Bool.not_eq_true, Option.isSome_eq_false_iff, Option.isNone_iff_eq_none]
      at hcond
    refine ⟨hcond.1, hcond.2, _, ?_, (Option.some.inj hstep).symm⟩
    cases hverdict : ungatedVerdict req (intake rt s.machine s.clock req decisionId) with
    | none => exact Or.inl rfl
    | some outcome => exact Or.inr ⟨outcome.1, outcome.2, ungatedVerdict_ne hverdict, rfl⟩

/-- The state after the locked check of call `c`. -/
def afterCheck (s : State) (c : CallId) (req : Request) (i : Intake) (store : Store) :
    Check → State
  | .returned row =>
    { s with store := store, calls := s.calls.erase c, results := row :: s.results }
  | .decided verdict basis receipt =>
    { s with
      store := store
      allows := allowOf s.clock i (.decided verdict basis receipt) ++ s.allows
      calls := s.calls.set c (.recording req i verdict basis receipt) }

theorem decideCheck_cases (hledger : Ledger s.store) (hstep : decideCheck s c = some s') :
    ∃ req i store check, s.calls.get? c = some (.checking req i) ∧
      (∀ fresh, Moves fresh s.store store) ∧
      CheckOutcome s.store i (runtimeBinding s.machine req.configuredWorkspace) store check ∧
      s' = afterCheck s c req i store check := by
  unfold decideCheck at hstep
  split at hstep
  · rename_i req i hc
    rcases hcheck : Pandamonium.decideCheck s.store i
      (runtimeBinding s.machine req.configuredWorkspace) with ⟨store, check⟩
    simp only [hcheck] at hstep
    have hout := fun fresh => decideCheck_outcome fresh hledger.toKeyed hcheck
    refine ⟨req, i, store, check, hc, fun fresh => (hout fresh).1, (hout "").2, ?_⟩
    cases check with
    | returned row => exact (Option.some.inj hstep).symm
    | decided verdict basis receipt => exact (Option.some.inj hstep).symm
  · cases hstep

theorem decideRecord_cases (hstep : decideRecord s c = some s') :
    ∃ req i verdict basis receipt,
      s.calls.get? c = some (.recording req i verdict basis receipt) ∧
      let record := decisionRecord i (runtimeBinding s.machine req.configuredWorkspace) verdict
        basis receipt
      s' = { s with
        store := Pandamonium.decideRecord s.store req record
        calls := s.calls.erase c
        results := record :: s.results } := by
  unfold decideRecord at hstep
  split at hstep
  · rename_i req i verdict basis receipt hc
    exact ⟨req, i, verdict, basis, receipt, hc, (Option.some.inj hstep).symm⟩
  · cases hstep

/-- The frames after one is set: that one, and the others as they were. -/
theorem get?_set_frame {calls : Dict CallId Frame} {c' : CallId} {frame f : Frame}
    (h : (calls.set c frame).get? c' = some f) :
    (c' = c ∧ f = frame) ∨ (c' ≠ c ∧ calls.get? c' = some f) := by
  rw [Dict.get?_set] at h
  split at h
  · rename_i heq
    exact Or.inl ⟨heq, (Option.some.inj h).symm⟩
  · rename_i hne
    exact Or.inr ⟨hne, h⟩

theorem get?_erase_frame {calls : Dict CallId Frame} {c' : CallId} {f : Frame}
    (h : (calls.erase c).get? c' = some f) : c' ≠ c ∧ calls.get? c' = some f := by
  rw [Dict.get?_erase] at h
  split at h
  · cases h
  · rename_i hne
    exact ⟨hne, h⟩

/-- A call that starts keeps the invariant: its id is new. -/
theorem Inv.decideStart (h : Inv s) {req : Request} {decisionId : String}
    (hstep : decideStart rt s c req decisionId = some s') : Inv s' := by
  obtain ⟨hnew, hidle, frame, hframe, rfl⟩ := decideStart_cases hstep
  have hid : frame.decisionId = decisionId := by
    rcases hframe with rfl | ⟨verdict, basis, -, rfl⟩ <;> rfl
  have hother : ∀ c' f, s.calls.get? c' = some f → f.decisionId ≠ decisionId := by
    intro c' f hc heq
    exact hnew (heq ▸ (h.frameIds c' f hc).1)
  constructor
  case ledger => exact h.ledger
  case receiptIds => exact fun receiptId r hr => List.mem_cons_of_mem _ (h.receiptIds receiptId r hr)
  case decisionIds =>
    exact fun decisionId' d hd => List.mem_cons_of_mem _ (h.decisionIds decisionId' d hd)
  case frameIds =>
    intro c' f hc
    rcases get?_set_frame hc with ⟨-, rfl⟩ | ⟨-, hc⟩
    · rw [hid]
      refine ⟨List.mem_cons_self, ?_, fun d hd heq => hnew (heq ▸ h.resultIds d hd)⟩
      cases hd : s.store.decisions.get? decisionId with
      | none => rfl
      | some d => exact absurd (h.decisionIds decisionId d hd) hnew
    · obtain ⟨hused, hfree, hresults⟩ := h.frameIds c' f hc
      exact ⟨List.mem_cons_of_mem _ hused, hfree, hresults⟩
  case framesApart =>
    intro c₁ c₂ f₁ f₂ hc₁ hc₂ heq
    rcases get?_set_frame hc₁ with ⟨rfl, rfl⟩ | ⟨-, hold₁⟩ <;>
      rcases get?_set_frame hc₂ with ⟨rfl, rfl⟩ | ⟨-, hold₂⟩
    · rfl
    · exact absurd (heq.symm.trans hid) (hother c₂ f₂ hold₂)
    · exact absurd (heq.trans hid) (hother c₁ f₁ hold₁)
    · exact h.framesApart c₁ c₂ f₁ f₂ hold₁ hold₂ heq
  case resultIds => exact fun d hd => List.mem_cons_of_mem _ (h.resultIds d hd)
  case resultsApart => exact h.resultsApart
  case sound => exact h.sound
  case stored => exact h.stored
  case onceApart => exact h.onceApart
  case frameAllow =>
    intro c' req' i basis r hc
    rcases get?_set_frame hc with ⟨-, hf⟩ | ⟨-, hc⟩
    · rcases hframe with rfl | ⟨verdict, basis', -, rfl⟩
      · cases hf
      · cases hf
    · exact h.frameAllow c' req' i basis r hc
  case resultAllow => exact h.resultAllow

/-- What `_matching_receipt` tests, as a sound entry of the history. -/
theorem Allow.sound_of_matches (clock : Time) {i : Intake} {binding : Binding} {r : Receipt}
    (hmatch : r.matches i binding = true) (hpast : r.isPast i.now = false)
    (happrove : r.decision = .approve) : (⟨clock, i, r⟩ : Allow).Sound := by
  simp only [Receipt.matches, Bool.and_eq_true, decide_eq_true_eq] at hmatch
  obtain ⟨⟨⟨⟨⟨⟨⟨⟨hactive, hop⟩, hagent⟩, hfp⟩, heff⟩, _⟩, _⟩, _⟩, _⟩ := hmatch
  refine ⟨hactive, ?_, happrove, hop, hagent, hfp, heff⟩
  intro expires hexp
  simp only at hexp
  simpa [Receipt.isPast, hexp] using hpast

/-- A call may go on to a frame with the same id, if an allow because of a receipt has its
entry. -/
theorem Inv.setFrame (h : Inv s) {f₀ f : Frame} (hc : s.calls.get? c = some f₀)
    (hid : f.decisionId = f₀.decisionId)
    (hallow : ∀ req i basis r, f = .recording req i .allow basis (some r) →
      ∃ a ∈ s.allows, a.intake = i ∧ a.receipt = r) :
    Inv { s with calls := s.calls.set c f } := by
  refine { h with frameIds := ?_, framesApart := ?_, frameAllow := ?_ }
  · intro c' f' hc'
    rcases get?_set_frame hc' with ⟨-, rfl⟩ | ⟨-, hold⟩
    · rw [hid]
      exact h.frameIds c f₀ hc
    · exact h.frameIds c' f' hold
  · intro c₁ c₂ f₁ f₂ hc₁ hc₂ heq
    rcases get?_set_frame hc₁ with ⟨rfl, rfl⟩ | ⟨-, hold₁⟩ <;>
      rcases get?_set_frame hc₂ with ⟨rfl, rfl⟩ | ⟨-, hold₂⟩
    · rfl
    · exact h.framesApart c₁ c₂ f₀ f₂ hc hold₂ (hid.symm.trans heq)
    · exact h.framesApart c₁ c₂ f₁ f₀ hold₁ hc (heq.trans hid)
    · exact h.framesApart c₁ c₂ f₁ f₂ hold₁ hold₂ heq
  · intro c' req i basis r hc'
    rcases get?_set_frame hc' with ⟨-, hf⟩ | ⟨-, hold⟩
    · exact hallow req i basis r hf.symm
    · exact h.frameAllow c' req i basis r hold

theorem Inv.returnOther (h : Inv s) (c : CallId) {row : Decision} (hrow : row.decision ≠ .allow) :
    Inv { s with calls := s.calls.erase c, results := row :: s.results } := by
  have hresults : allowing (row :: s.results) = allowing s.results := by
    simp [allowing, hrow]
  refine { h with frameIds := ?_, framesApart := ?_, resultIds := ?_, resultsApart := ?_,
                  frameAllow := ?_, resultAllow := ?_ }
  · intro c' f hc'
    simp only [hresults]
    exact h.frameIds c' f (get?_erase_frame hc').2
  · intro c₁ c₂ f₁ f₂ hc₁ hc₂
    exact h.framesApart c₁ c₂ f₁ f₂ (get?_erase_frame hc₁).2 (get?_erase_frame hc₂).2
  · simp only [hresults]
    exact h.resultIds
  · simp only [hresults]
    exact h.resultsApart
  · intro c' req i basis r hc'
    exact h.frameAllow c' req i basis r (get?_erase_frame hc').2
  · simp only [hresults]
    exact h.resultAllow

/-- An entry may be added for a sound use of a stored receipt that is spent if it was good
for one, and had no entry if it is. -/
theorem Inv.addAllow (h : Inv s) {a : Allow} (hsound : a.Sound)
    (hstored : ∃ r, s.store.receipts.get? a.receipt.receiptId = some r ∧ a.receipt.Ages r ∧
      (a.receipt.scope = .once → r.status ≠ .active))
    (hnew : a.receipt.scope = .once → ∀ a' ∈ onceAllows s.allows,
      a'.receipt.receiptId ≠ a.receipt.receiptId) :
    Inv { s with allows := a :: s.allows } := by
  refine { h with sound := ?_, stored := ?_, onceApart := ?_, frameAllow := ?_, resultAllow := ?_ }
  · intro a' ha'
    rcases List.mem_cons.mp ha' with rfl | hold
    · exact hsound
    · exact h.sound a' hold
  · intro a' ha'
    rcases List.mem_cons.mp ha' with rfl | hold
    · exact hstored
    · exact h.stored a' hold
  · by_cases honce : a.receipt.scope = .once
    · simp only [onceAllows, List.filter_cons, honce, decide_true, if_true, List.map_cons,
        List.nodup_cons]
      refine ⟨?_, h.onceApart⟩
      intro hmem
      obtain ⟨a', ha', heq⟩ := List.mem_map.mp hmem
      exact hnew honce a' ha' heq
    · simp only [onceAllows, List.filter_cons, honce, decide_false, Bool.false_eq_true, if_false]
      exact h.onceApart
  · intro c req i basis r hc
    obtain ⟨a', ha', heq⟩ := h.frameAllow c req i basis r hc
    exact ⟨a', List.mem_cons_of_mem _ ha', heq⟩
  · intro d hd receiptId hid
    obtain ⟨a', ha', heq⟩ := h.resultAllow d hd receiptId hid
    exact ⟨a', List.mem_cons_of_mem _ ha', heq⟩

theorem Inv.decideCheck (h : Inv s) (hstep : decideCheck s c = some s') : Inv s' := by
  obtain ⟨req, i, store, check, hc, hmoves, hout, rfl⟩ := decideCheck_cases h.ledger hstep
  have hbase := h.background (moves_background h.ledger h.receiptIds hmoves)
  cases hout with
  | returned row hopen =>
    simp only [Decision.isOpen, Bool.and_eq_true, decide_eq_true_eq] at hopen
    exact hbase.returnOther c (by simp [hopen.1])
  | denied basis receipt => exact hbase.setFrame hc rfl (by simp)
  | gated basis hnone => exact hbase.setFrame hc rfl (by simp)
  | allowed r basis hstored hmatch hpast happrove hspent =>
    have hsound := Allow.sound_of_matches s.clock hmatch hpast happrove
    have hkept : ∃ r', store.receipts.get? r.receiptId = some r' ∧ r.Ages r' ∧
        (r.scope = .once → r'.status ≠ .active) := by
      by_cases honce : r.scope = .once
      · exact ⟨_, hspent honce, ⟨rfl, fun _ => by simp⟩, fun _ => by simp⟩
      · obtain ⟨r', hr', hage⟩ := (hmoves "").ages.receipts _ r hstored
        exact ⟨r', hr', hage, fun h => absurd h honce⟩
    -- an earlier entry for the same receipt would have left it spent
    have hnew : r.scope = .once → ∀ a' ∈ onceAllows s.allows,
        a'.receipt.receiptId ≠ r.receiptId := by
      intro _ a' ha' heq
      obtain ⟨hmem, honce'⟩ := List.mem_filter.mp ha'
      obtain ⟨r', hr', _, hspent'⟩ := h.stored a' hmem
      rw [heq, hstored, Option.some.injEq] at hr'
      subst hr'
      exact hspent' (of_decide_eq_true honce') hsound.active
    have hadded := hbase.addAllow hsound hkept hnew
    refine hadded.setFrame hc rfl ?_
    intro req' i' basis' r' hf
    simp only [Frame.recording.injEq, Option.some.injEq, true_and] at hf
    obtain ⟨-, rfl, -, rfl⟩ := hf
    exact ⟨_, List.mem_cons_self, rfl, rfl⟩

theorem Inv.decideRecord (h : Inv s) (hstep : decideRecord s c = some s') : Inv s' := by
  obtain ⟨req, i, verdict, basis, receipt, hc, rfl⟩ := decideRecord_cases hstep
  obtain ⟨hused, hfree, hresults⟩ := h.frameIds c _ hc
  have happart : ∀ c' f, (s.calls.erase c).get? c' = some f → f.decisionId ≠ i.decisionId := by
    intro c' f hc' heq
    obtain ⟨hne, hold⟩ := get?_erase_frame hc'
    exact hne (h.framesApart c' c f _ hold hc heq)
  -- the allowing results are the old ones, and the record if it allows
  have hallowing : ∀ d, d ∈ allowing (decisionRecord i
      (runtimeBinding s.machine req.configuredWorkspace) verdict basis receipt :: s.results) →
      d ∈ allowing s.results ∨ (verdict = .allow ∧ d = decisionRecord i
        (runtimeBinding s.machine req.configuredWorkspace) verdict basis receipt) := by
    intro d hd
    obtain ⟨hmem, hallow⟩ := List.mem_filter.mp hd
    rcases List.mem_cons.mp hmem with rfl | hold
    · exact Or.inr ⟨of_decide_eq_true hallow, rfl⟩
    · exact Or.inl (List.mem_filter.mpr ⟨hold, hallow⟩)
  constructor
  case ledger => exact decideRecord_ledger h.ledger hfree
  case receiptIds => exact h.receiptIds
  case decisionIds =>
    intro decisionId d hd
    rw [Pandamonium.decideRecord, Dict.get?_set] at hd
    split at hd
    · rename_i heq
      exact heq ▸ hused
    · exact h.decisionIds decisionId d hd
  case frameIds =>
    intro c' f hc'
    obtain ⟨hused', hfree', hresults'⟩ := h.frameIds c' f (get?_erase_frame hc').2
    refine ⟨hused', ?_, ?_⟩
    · simpa [Pandamonium.decideRecord, Dict.get?_set, decisionRecord, happart c' f hc'] using hfree'
    · intro d hd
      rcases hallowing d hd with hold | ⟨-, rfl⟩
      · exact hresults' d hold
      · exact (happart c' f hc').symm
  case framesApart =>
    intro c₁ c₂ f₁ f₂ hc₁ hc₂
    exact h.framesApart c₁ c₂ f₁ f₂ (get?_erase_frame hc₁).2 (get?_erase_frame hc₂).2
  case resultIds =>
    intro d hd
    rcases hallowing d hd with hold | ⟨-, rfl⟩
    · exact h.resultIds d hold
    · exact hused
  case resultsApart =>
    by_cases hverdict : verdict = .allow
    · simp only [allowing, List.filter_cons, decisionRecord, hverdict, decide_true, if_true,
        List.map_cons, List.nodup_cons]
      refine ⟨?_, h.resultsApart⟩
      intro hmem
      obtain ⟨d, hd, heq⟩ := List.mem_map.mp hmem
      exact hresults d hd heq
    · simp only [allowing, List.filter_cons, decisionRecord, hverdict, decide_false,
        Bool.false_eq_true, if_false]
      exact h.resultsApart
  case sound => exact h.sound
  case stored => exact h.stored
  case onceApart => exact h.onceApart
  case frameAllow =>
    intro c' req' i' basis' r hc'
    exact h.frameAllow c' req' i' basis' r (get?_erase_frame hc').2
  case resultAllow =>
    intro d hd receiptId hid
    rcases hallowing d hd with hold | ⟨rfl, rfl⟩
    · exact h.resultAllow d hold receiptId hid
    · obtain ⟨r, rfl, -⟩ := Option.map_eq_some_iff.mp hid
      obtain ⟨a, ha, rfl, rfl⟩ := h.frameAllow c req i basis r hc
      exact ⟨a, ha, _, basis, rfl⟩

theorem inv_step (s : State) (l : Label) (s' : State) (h : Inv s) (hstep : step rt s l = some s') :
    Inv s' := by
  have hback := fun hstart hcheck hrecord => h.background
    (step_background h.ledger h.receiptIds (l := l) hstart hcheck hrecord hstep)
  cases l with
  | decideStart c req decisionId => exact h.decideStart hstep
  | decideCheck c => exact h.decideCheck hstep
  | decideRecord c => exact h.decideRecord hstep
  | _ => exact hback (by simp) (by simp) (by simp)

/-- The invariant holds in every state that a run reaches. -/
theorem Inv.of_reachable (h : (system rt).Reachable s) : Inv s := by
  refine h.invariant (I := Inv) ?_ ?_
  · rintro s₀ ⟨machine, clock, rfl⟩
    exact inv_start machine clock
  · exact fun s l s' hs _ hstep => inv_step s l s' hs hstep

/-! ## What the runs guarantee -/

/-- What holds of the receipts and the allows of a state. -/
structure ReceiptsHonoured (s : State) : Prop where
  /-- A stored receipt good for one use is the basis of at most one allow. -/
  once : ∀ receiptId r, s.store.receipts.get? receiptId = some r → r.scope = .once →
    (allowedBy s.results receiptId).length ≤ 1
  /-- An allow because of a receipt is about the call and the receipt of an entry. -/
  basis : ∀ d ∈ allowing s.results, ∀ receiptId, d.receiptId = some receiptId →
    ∃ a ∈ s.allows, ∃ binding basis,
      d = decisionRecord a.intake binding .allow basis (some a.receipt)
  /-- The receipt of an entry was active, not past its expiry when the call started, and
  about the same operator, agent, fingerprint and effect as the call. -/
  sound : ∀ a ∈ s.allows, a.Sound
  /-- They are those of the decision that it was granted for. -/
  granted : ∀ a ∈ s.allows, ∃ d, s.store.decisions.get? a.receipt.decisionId = some d ∧
    d.decision = .approvalRequired ∧ d.receiptId = some a.receipt.receiptId ∧
    GrantedFor d a.receipt

/-- Later on, no receipt that is spent in `s` allows anything. -/
def SpentForGood (s s' : State) : Prop :=
  ∃ later, s'.allows = later ++ s.allows ∧
    ∀ receiptId r, s.store.receipts.get? receiptId = some r → r.status ≠ .active →
      ∀ a ∈ later, a.receipt.receiptId ≠ receiptId

theorem Inv.once_unique (h : Inv s) {a a' : Allow} (ha : a ∈ onceAllows s.allows)
    (ha' : a' ∈ onceAllows s.allows) (heq : a.receipt.receiptId = a'.receipt.receiptId) : a = a' :=
  List.inj_on_of_nodup_map h.onceApart ha ha' heq

theorem Inv.honoured (h : Inv s) : ReceiptsHonoured s where
  once := by
    intro receiptId r hr honce
    -- every allow by the receipt comes from an entry that is good for one use
    have hentry : ∀ d ∈ allowedBy s.results receiptId, ∃ a ∈ onceAllows s.allows,
        a.receipt.receiptId = receiptId ∧ d.decisionId = a.intake.decisionId := by
      intro d hd
      obtain ⟨hallow, hid⟩ := List.mem_filter.mp hd
      obtain ⟨a, ha, binding, basis, hrecord⟩ :=
        h.resultAllow d hallow receiptId (of_decide_eq_true hid)
      have hreceipt : a.receipt.receiptId = receiptId := by
        have := of_decide_eq_true hid
        rw [hrecord] at this
        exact Option.some.inj this
      obtain ⟨r', hr', hage, _⟩ := h.stored a ha
      rw [hreceipt, hr, Option.some.injEq] at hr'
      subst hr'
      have hscope : a.receipt.scope = .once := by
        rw [hage.same] at honce
        exact honce
      exact ⟨a, List.mem_filter.mpr ⟨ha, decide_eq_true hscope⟩, hreceipt, by rw [hrecord]; rfl⟩
    refine length_le_one_of_keys (f := Decision.decisionId) ?_ ?_
    · exact h.resultsApart.sublist (List.filter_sublist.map _)
    · intro d hd d' hd'
      obtain ⟨a, ha, hreceipt, hid⟩ := hentry d hd
      obtain ⟨a', ha', hreceipt', hid'⟩ := hentry d' hd'
      rw [hid, hid', h.once_unique ha ha' (hreceipt.trans hreceipt'.symm)]
  basis := h.resultAllow
  sound := h.sound
  granted := by
    intro a ha
    obtain ⟨r, hr, hage, _⟩ := h.stored a ha
    obtain ⟨d, hd, hgate, _, hid, hgranted⟩ := h.ledger.granted _ r hr
    rw [hage.ids.2] at hd
    refine ⟨d, hd, hgate, hid, ?_⟩
    rw [hage.same] at hgranted
    exact ⟨hgranted.operator, hgranted.agent, hgranted.fingerprint, hgranted.effect⟩

/-- Receipts that are spent in `s` are spent in `s'`. -/
def StaysSpent (s s' : State) : Prop :=
  ∀ receiptId r, s.store.receipts.get? receiptId = some r → r.status ≠ .active →
    ∃ r', s'.store.receipts.get? receiptId = some r' ∧ r'.status ≠ .active

theorem SpentForGood.of_allows (h : s'.allows = s.allows) : SpentForGood s s' :=
  ⟨[], by simp [h], by simp⟩

theorem StaysSpent.of_ages {fresh : String} (h : s.store.Ages fresh s'.store) :
    StaysSpent s s' := by
  intro receiptId r hr hspent
  obtain ⟨r', hr', hage⟩ := h.receipts receiptId r hr
  exact ⟨r', hr', hage.spent hspent⟩

theorem spent_step {l : Label} (h : Inv s) (hstep : step rt s l = some s') :
    SpentForGood s s' ∧ StaysSpent s s' := by
  have hback : (∀ c req decisionId, l ≠ .decideStart c req decisionId) →
      (∀ c, l ≠ .decideCheck c) → (∀ c, l ≠ .decideRecord c) →
      SpentForGood s s' ∧ StaysSpent s s' := by
    intro hstart hcheck hrecord
    have hb := step_background h.ledger h.receiptIds hstart hcheck hrecord hstep
    obtain ⟨fresh, hages⟩ := hb.ages
    exact ⟨.of_allows hb.allows, .of_ages hages⟩
  cases l with
  | decideStart c req decisionId =>
    obtain ⟨-, -, frame, -, rfl⟩ := decideStart_cases hstep
    exact ⟨.of_allows rfl, .of_ages (.refl "" s.store)⟩
  | decideCheck c =>
    obtain ⟨req, i, store, check, -, hmoves, hout, rfl⟩ := decideCheck_cases h.ledger hstep
    cases hout with
    | returned row hopen => exact ⟨.of_allows rfl, .of_ages (hmoves "").ages⟩
    | denied basis receipt => exact ⟨.of_allows rfl, .of_ages (hmoves "").ages⟩
    | gated basis hnone => exact ⟨.of_allows rfl, .of_ages (hmoves "").ages⟩
    | allowed r basis hstored hmatch hpast happrove hspent =>
      refine ⟨⟨[⟨s.clock, i, r⟩], rfl, ?_⟩, .of_ages (hmoves "").ages⟩
      intro receiptId r' hr' hne a ha heq
      rw [List.mem_singleton] at ha
      subst ha
      rw [← heq, hstored, Option.some.injEq] at hr'
      subst hr'
      exact hne (Allow.sound_of_matches s.clock hmatch hpast happrove).active
  | decideRecord c =>
    obtain ⟨req, i, verdict, basis, receipt, -, rfl⟩ := decideRecord_cases hstep
    exact ⟨.of_allows rfl, fun receiptId r hr hne => ⟨r, hr, hne⟩⟩
  | _ => exact hback (by simp) (by simp) (by simp)

/-- Along a run from a reachable state, spent receipts allow nothing. -/
theorem spent_run (h : Inv s) (hrun : (system rt).Run s s') : SpentForGood s s' := by
  refine (hrun.evolves (I := Inv) (R := fun s s' => SpentForGood s s' ∧ StaysSpent s s')
    ?_ ?_ ?_ ?_ h).1
  · exact fun s => ⟨.of_allows rfl, fun receiptId r hr hne => ⟨r, hr, hne⟩⟩
  · rintro s₁ s₂ s₃ ⟨⟨later, heq, hlater⟩, hstay⟩ ⟨⟨later', heq', hlater'⟩, hstay'⟩
    refine ⟨⟨later' ++ later, by rw [heq', heq, List.append_assoc], ?_⟩, ?_⟩
    · intro receiptId r hr hne a ha
      obtain ⟨r', hr', hne'⟩ := hstay receiptId r hr hne
      rcases List.mem_append.mp ha with ha | ha
      · exact hlater' receiptId r' hr' hne' a ha
      · exact hlater receiptId r hr hne a ha
    · intro receiptId r hr hne
      obtain ⟨r', hr', hne'⟩ := hstay receiptId r hr hne
      exact hstay' receiptId r' hr' hne'
  · exact fun s l s' hs _ hstep => inv_step s l s' hs hstep
  · exact fun s l s' hs _ hstep => spent_step hs hstep

/-- In every run, receipts are honoured, and what is spent stays spent: a receipt good for one
use is the basis of at most one allow, one that is consumed, revoked or found expired is never
again the basis of one, one whose expiry came before a call started does not allow that call,
and an allow is for the call that the receipt was granted for. -/
theorem receipts_honoured (rt : Runtime) (s : State) (h : (system rt).Reachable s) :
    ReceiptsHonoured s ∧ ∀ s', (system rt).Run s s' → SpentForGood s s' :=
  ⟨(Inv.of_reachable h).honoured, fun _ hrun => spent_run (Inv.of_reachable h) hrun⟩

/-- The approved mail, sent. -/
def sentMail : List Label :=
  approvedMail "once" 900 ++ [Label.decideStart 1 (mailRequest plainMail) "d1", .decideCheck 1,
    .decideRecord 1]

/-- The verdicts returned, the receipts they are based on, and the status of `r0`. -/
def sentView (s : State) : List (Verdict × Option String) × Option ReceiptStatus :=
  (s.results.map fun d => (d.decision, d.receiptId),
    (s.store.receipts.get? "r0").map Receipt.status)

/-- The approval of the mail is honoured once, and consumed. -/
theorem receipts_honoured_sentMail : ∃ s,
    sentView s = ([(.allow, some "r0"), (.approvalRequired, none)], some .consumed) ∧
    ReceiptsHonoured s ∧ ∀ s', (system .plain).Run s s' → SpentForGood s s' := by
  obtain ⟨s, hreach, hview⟩ := (system .plain).exists_reachableWhere_of_exec
    TransitionSystem.anyStep sentView sentMail
    (v := ([(.allow, some "r0"), (.approvalRequired, none)], some .consumed))
    (s := State.start plainMachine 0) ⟨plainMachine, 0, rfl⟩ (by decide)
  exact ⟨s, hview, receipts_honoured .plain s hreach⟩

/-- A mail approved for one second, by a call that waits two seconds for the lock. -/
def lateMail : List Label :=
  approvedMail "time_bounded" 1 ++ [Label.decideStart 1 (mailRequest plainMail) "d1", .tick 2000000,
    .decideCheck 1]

/-- The receipt has expired by the time it allows the call. -/
theorem not_live_lateMail : ¬ ∀ (rt : Runtime) (s : State), (system rt).Reachable s →
    ∀ a ∈ s.allows, ∀ expires, a.receipt.expiresAt = some expires → a.clock < expires := by
  intro hall
  obtain ⟨s, hreach, hview⟩ := (system .plain).exists_reachableWhere_of_exec
    TransitionSystem.anyStep (fun s => s.allows.map fun a => (a.receipt.expiresAt, a.clock)) lateMail
    (v := [(some 1000000, 2000000)])
    (s := State.start plainMachine 0) ⟨plainMachine, 0, rfl⟩ (by decide)
  obtain ⟨a, ha, hfields⟩ := List.mem_map.mp (hview ▸ List.mem_singleton.mpr rfl :
    (some 1000000, 2000000) ∈ s.allows.map fun a => (a.receipt.expiresAt, a.clock))
  rw [Prod.mk.injEq] at hfields
  have hlate := hall .plain s hreach a ha 1000000 hfields.1
  rw [hfields.2] at hlate
  exact absurd hlate (by decide)

end Pandamonium.Authority
