import Pandamonium.Analysis.ReceiptUse

/-!
# At most one pending approval

A natural-language reply names no decision, so it is of use only where an operator's session
has at most one approval pending.  `decide` looks for a pending approval under its first
lock and inserts its own under the second, and two calls may both look before either
inserts.  Where that does not happen, at most one is pending in every state that a run
reaches, and a reply is about that one.
-/

set_option autoImplicit false

namespace Pandamonium.Authority

open Pandamonium.Library

/-- The decision stored under an id waits for an approval in an operator's session, and its
time has not come. -/
def Pending (s : State) (operatorId sessionId decisionId : String) : Prop :=
  ∃ d, s.store.decisions.get? decisionId = some d ∧ d.isOpenFor operatorId sessionId = true ∧
    s.clock < d.expiresAt

/-- No operator's session has two pending decisions. -/
def OnePending (s : State) : Prop :=
  ∀ operatorId sessionId decisionId decisionId', Pending s operatorId sessionId decisionId →
    Pending s operatorId sessionId decisionId' → decisionId = decisionId'

/-- A natural reply that makes a choice, where a decision is pending, is about that decision:
it resolves it by a receipt with the choice, or reports that it can no longer be approved. -/
def RepliesNamePending (rt : Runtime) (s : State) : Prop :=
  ∀ later receiptId text operatorId sessionId choice decisionId,
    naturalApprovalChoice rt text = some choice → Pending s operatorId sessionId decisionId →
    ∃ reply, (resolveNaturalReply rt s.machine s.store s.clock later receiptId text operatorId
        sessionId).2 = .ok (some reply) ∧ reply.decision.decisionId = decisionId ∧
      (reply.choice = .stale ∨ reply.choice = .made choice.text ∧
        ∃ r, reply.receipt = some r ∧ r.decisionId = decisionId ∧ r.decision = choice)

/-- Whether a call is between its check and the insertion of a decision that asks for an
approval in an operator's session. -/
def Frame.inserts (operatorId sessionId : String) : Frame → Bool
  | .checking _ _ => false
  | .recording _ i verdict _ _ =>
    decide (verdict = .approvalRequired) && decide (i.operator = operatorId) &&
      decide (i.session = sessionId)

/-- No call looks for a pending approval of a session while another one is about to insert
one. -/
def checksApart (s : State) : Label → Bool
  | .decideCheck c =>
    match s.calls.get? c with
    | some (.checking _ i) => s.calls.items.all fun e => !e.2.inserts i.operator i.session
    | _ => true
  | _ => true

structure GateInv (s : State) : Prop extends Inv s where
  started : ∀ c req i, s.calls.get? c = some (.checking req i) → i.now ≤ s.clock
  one : OnePending s
  inserting : ∀ c f operatorId sessionId, s.calls.get? c = some f →
    f.inserts operatorId sessionId = true →
    (∀ decisionId, ¬ Pending s operatorId sessionId decisionId) ∧
      ∀ c' f', s.calls.get? c' = some f' → f'.inserts operatorId sessionId = true → c' = c

theorem gateInv_start (machine : Machine) (clock : Time) :
    GateInv (State.start machine clock) where
  toInv := inv_start machine clock
  started := by intro c req i h; cases h
  one := by rintro operatorId sessionId decisionId decisionId' ⟨d, h, _⟩; cases h
  inserting := by intro c f operatorId sessionId h; cases h

variable {s s' : State} {sessionId operatorId : String}

theorem Pending.of_ages {fresh : String} (hages : s.store.Ages fresh s'.store)
    (hclock : s.clock ≤ s'.clock) {decisionId : String}
    (h : Pending s' operatorId sessionId decisionId) :
    Pending s operatorId sessionId decisionId := by
  obtain ⟨d', hd', hopen, hlive⟩ := h
  obtain ⟨d, hd, hage⟩ := hages.decision_from hd'
  simp only [Decision.isOpenFor, Decision.isOpen, Decision.session, Bool.and_eq_true,
    decide_eq_true_eq] at hopen
  obtain ⟨⟨⟨hgate, hunset⟩, hop⟩, hsession⟩ := hopen
  have hstatus : d.status = .unset := by
    by_contra hne
    exact hage.closed hne hunset
  rw [hage.same] at hgate hop hsession hlive
  refine ⟨d, hd, ?_, Nat.lt_of_le_of_lt hclock hlive⟩
  simp only [Decision.isOpenFor, Decision.isOpen, Decision.session, Bool.and_eq_true,
    decide_eq_true_eq]
  exact ⟨⟨⟨hgate, hstatus⟩, hop⟩, hsession⟩

/-- Where the store ages and the calls that check or insert were there before, the gate is
kept. -/
theorem GateInv.of_ages (h : GateInv s) (hinv : Inv s') {fresh : String}
    (hages : s.store.Ages fresh s'.store) (hclock : s.clock ≤ s'.clock)
    (hchecking : ∀ c req i, s'.calls.get? c = some (.checking req i) → i.now ≤ s'.clock)
    (hinserts : ∀ c f operatorId sessionId, s'.calls.get? c = some f →
      f.inserts operatorId sessionId = true → s.calls.get? c = some f) :
    GateInv s' where
  toInv := hinv
  started := hchecking
  one := by
    intro operatorId sessionId decisionId decisionId' hp hp'
    exact h.one operatorId sessionId decisionId decisionId' (hp.of_ages hages hclock)
      (hp'.of_ages hages hclock)
  inserting := by
    intro c f operatorId sessionId hc hf
    obtain ⟨hnone, halone⟩ :=
      h.inserting c f operatorId sessionId (hinserts c f operatorId sessionId hc hf) hf
    refine ⟨fun decisionId hp => hnone decisionId (hp.of_ages hages hclock), ?_⟩
    intro c' f' hc' hf'
    exact halone c' f' (hinserts c' f' operatorId sessionId hc' hf') hf'

variable {rt : Runtime}

/-- A step that no `decide` call takes keeps the gate. -/
theorem GateInv.background (h : GateInv s) (hb : Background s s') : GateInv s' := by
  obtain ⟨fresh, hages⟩ := hb.ages
  refine h.of_ages (h.toInv.background hb) hages hb.clock ?_ ?_
  · intro c req i hc
    exact Nat.le_trans (h.started c req i (hb.calls _ _ hc)) hb.clock
  · exact fun c f _ _ hc _ => hb.calls c f hc

theorem GateInv.decideStart (h : GateInv s) {c : CallId} {req : Request} {decisionId : String}
    (hstep : decideStart rt s c req decisionId = some s') : GateInv s' := by
  have hinv := h.toInv.decideStart hstep
  obtain ⟨-, -, frame, hframe, rfl⟩ := decideStart_cases hstep
  refine h.of_ages hinv (.refl "" s.store) (Nat.le_refl _) ?_ ?_
  · intro c' req' i hc
    rcases get?_set_frame hc with ⟨-, hf⟩ | ⟨-, hold⟩
    · rcases hframe with rfl | ⟨verdict, basis, -, rfl⟩
      · cases hf
        exact Nat.le_refl _
      · cases hf
    · exact h.started c' req' i hold
  · intro c' f operatorId sessionId hc hf
    rcases get?_set_frame hc with ⟨-, rfl⟩ | ⟨-, hold⟩
    · rcases hframe with rfl | ⟨verdict, basis, hverdict, rfl⟩
      · cases hf
      · simp [Frame.inserts, hverdict] at hf
    · exact hold

theorem GateInv.decideCheck (h : GateInv s) {c : CallId}
    (hapart : checksApart s (.decideCheck c) = true) (hstep : decideCheck s c = some s') :
    GateInv s' := by
  have hinv := h.toInv.decideCheck hstep
  obtain ⟨req, i, store, check, hc, hmoves, hout, rfl⟩ := decideCheck_cases h.ledger hstep
  have hages := (hmoves "").ages
  simp only [checksApart, hc, List.all_eq_true, Prod.forall, Dict.mem_items_iff] at hapart
  -- a frame that inserts nothing takes the place of the checking one
  have hother : ∀ f verdict basis receipt, f = Frame.recording req i verdict basis receipt →
      verdict ≠ .approvalRequired → ∀ c' f' operatorId sessionId,
      (s.calls.set c f).get? c' = some f' → f'.inserts operatorId sessionId = true →
      s.calls.get? c' = some f' := by
    intro f verdict basis receipt hf hverdict c' f' operatorId sessionId hc' hf'
    rcases get?_set_frame hc' with ⟨-, rfl⟩ | ⟨-, hold⟩
    · simp [hf, Frame.inserts, hverdict] at hf'
    · exact hold
  have hchecking : ∀ verdict basis receipt c' req' i',
      (s.calls.set c (Frame.recording req i verdict basis receipt)).get? c' =
        some (.checking req' i') → i'.now ≤ s.clock := by
    intro verdict basis receipt c' req' i' hc'
    rcases get?_set_frame hc' with ⟨-, hf⟩ | ⟨-, hold⟩
    · cases hf
    · exact h.started c' req' i' hold
  cases hout with
  | returned row hopen =>
    refine h.of_ages hinv hages (Nat.le_refl _) ?_ ?_
    · exact fun c' req' i' hc' => h.started c' req' i' (get?_erase_frame hc').2
    · exact fun c' f' _ _ hc' _ => (get?_erase_frame hc').2
  | denied basis receipt =>
    exact h.of_ages hinv hages (Nat.le_refl _) (hchecking _ _ _)
      (hother _ _ _ _ rfl (by simp))
  | allowed r basis hstored hmatch hpast happrove hspent =>
    exact h.of_ages hinv hages (Nat.le_refl _) (hchecking _ _ _)
      (hother _ _ _ _ rfl (by simp))
  | gated basis hnone =>
    have hclock : s.clock ≤
        (afterCheck s c req i store (.decided .approvalRequired basis none)).clock := Nat.le_refl _
    have hold : ∀ {operatorId sessionId decisionId}, Pending (afterCheck s c req i store
        (.decided .approvalRequired basis none)) operatorId sessionId decisionId →
        Pending s operatorId sessionId decisionId := by
      intro operatorId sessionId decisionId hp
      exact hp.of_ages hages hclock
    refine ⟨hinv, hchecking _ _ _, ?_, ?_⟩
    · intro operatorId sessionId decisionId decisionId' hp hp'
      exact h.one operatorId sessionId decisionId decisionId' (hold hp) (hold hp')
    · intro c' f operatorId sessionId hc' hf
      rcases get?_set_frame hc' with ⟨rfl, rfl⟩ | ⟨-, hc₀⟩
      · simp only [Frame.inserts, decide_true, Bool.true_and, Bool.and_eq_true,
          decide_eq_true_eq] at hf
        obtain ⟨rfl, rfl⟩ := hf
        refine ⟨?_, ?_⟩
        · intro decisionId hp
          obtain ⟨d, hd, hopen, hlive⟩ := hold hp
          have hlate := hnone decisionId d hd hopen
          have hstarted := h.started c' req i hc
          exact Nat.not_lt.mpr hlate (Nat.lt_of_le_of_lt hstarted hlive)
        · intro c'' f'' hc'' hf''
          rcases get?_set_frame hc'' with ⟨heq, -⟩ | ⟨-, hc₁⟩
          · exact heq
          · have := hapart c'' f'' hc₁
            simp [hf''] at this
      · obtain ⟨hnone', halone⟩ := h.inserting c' f operatorId sessionId hc₀ hf
        refine ⟨fun decisionId hp => hnone' decisionId (hold hp), ?_⟩
        intro c'' f'' hc'' hf''
        rcases get?_set_frame hc'' with ⟨rfl, rfl⟩ | ⟨-, hc₁⟩
        · -- the call that has just checked would not have been admitted
          simp only [Frame.inserts, decide_true, Bool.true_and, Bool.and_eq_true,
            decide_eq_true_eq] at hf''
          obtain ⟨rfl, rfl⟩ := hf''
          have := hapart c' f hc₀
          simp [hf] at this
        · exact halone c'' f'' hc₁ hf''

theorem Pending.of_record (s : State) {req : Request} {record : Decision}
    (hstore : s'.store = Pandamonium.decideRecord s.store req record) (hclock : s'.clock = s.clock)
    {decisionId : String} (h : Pending s' operatorId sessionId decisionId) :
    (decisionId = record.decisionId ∧ record.isOpenFor operatorId sessionId = true) ∨
      Pending s operatorId sessionId decisionId := by
  obtain ⟨d, hd, hopen, hlive⟩ := h
  rw [hstore, Pandamonium.decideRecord, Dict.get?_set] at hd
  rw [hclock] at hlive
  split at hd
  · rename_i heq
    cases hd
    exact Or.inl ⟨heq, hopen⟩
  · exact Or.inr ⟨d, hd, hopen, hlive⟩

theorem inserts_of_isOpenFor {req : Request} {i : Intake} {binding : Binding} {verdict : Verdict}
    {basis : String} {receipt : Option Receipt}
    (h : (decisionRecord i binding verdict basis receipt).isOpenFor operatorId sessionId = true) :
    (Frame.recording req i verdict basis receipt).inserts operatorId sessionId = true := by
  simp only [Decision.isOpenFor, Decision.isOpen, Bool.and_eq_true, decide_eq_true_eq] at h
  obtain ⟨⟨⟨hverdict, -⟩, hop⟩, hsession⟩ := h
  simp only [Decision.session, decisionRecord] at hverdict hop hsession
  have hoperator : i.operator = operatorId := by
    split at hop
    · cases hop
    · exact Option.some.inj hop
  have hsess : i.session = sessionId := by
    split at hsession
    · rename_i hempty
      rw [hempty]
      exact hsession
    · exact hsession
  simp [Frame.inserts, hverdict, hoperator, hsess]

/-- A call that records its decision: it was the only one to insert one in its session. -/
theorem GateInv.decideRecord (h : GateInv s) {c : CallId} (hstep : decideRecord s c = some s') :
    GateInv s' := by
  have hinv := h.toInv.decideRecord hstep
  obtain ⟨req, i, verdict, basis, receipt, hc, hs'⟩ := decideRecord_cases hstep
  have hcalls : s'.calls = s.calls.erase c := by rw [hs']
  have hclock : s'.clock = s.clock := by rw [hs']
  have hpending : ∀ {operatorId sessionId decisionId}, Pending s' operatorId sessionId decisionId →
      (decisionId = i.decisionId ∧ (Frame.recording req i verdict basis receipt).inserts operatorId
        sessionId = true) ∨ Pending s operatorId sessionId decisionId := by
    intro operatorId sessionId decisionId hp
    rcases hp.of_record s (by rw [hs']) hclock with ⟨heq, hopen⟩ | hold
    · exact Or.inl ⟨heq, inserts_of_isOpenFor hopen⟩
    · exact Or.inr hold
  refine ⟨hinv, ?_, ?_, ?_⟩
  · rw [hcalls, hclock]
    exact fun c' req' i' hc' => h.started c' req' i' (get?_erase_frame hc').2
  · intro operatorId sessionId decisionId decisionId' hp hp'
    rcases hpending hp with ⟨heq, hins⟩ | hold <;> rcases hpending hp' with ⟨heq', hins'⟩ | hold'
    · rw [heq, heq']
    · exact absurd hold' ((h.inserting c _ operatorId sessionId hc hins).1 decisionId')
    · exact absurd hold ((h.inserting c _ operatorId sessionId hc hins').1 decisionId)
    · exact h.one operatorId sessionId decisionId decisionId' hold hold'
  · rw [hcalls]
    intro c' f operatorId sessionId hc' hf
    obtain ⟨hne, hold⟩ := get?_erase_frame hc'
    obtain ⟨hnone, halone⟩ := h.inserting c' f operatorId sessionId hold hf
    refine ⟨?_, fun c'' f'' hc'' => halone c'' f'' (get?_erase_frame hc'').2⟩
    intro decisionId hp
    rcases hpending hp with ⟨-, hins⟩ | hp
    · exact hne (halone c _ hc hins).symm
    · exact hnone decisionId hp

theorem gateInv_step (s : State) (l : Label) (s' : State) (h : GateInv s)
    (hapart : checksApart s l = true) (hstep : step rt s l = some s') : GateInv s' := by
  have hback := fun hstart hcheck hrecord => h.background
    (step_background h.ledger h.receiptIds (l := l) hstart hcheck hrecord hstep)
  cases l with
  | decideStart c req decisionId => exact h.decideStart hstep
  | decideCheck c => exact h.decideCheck hapart hstep
  | decideRecord c => exact h.decideRecord hstep
  | _ => exact hback (by simp) (by simp) (by simp)

/-! ## Replies -/

/-- With at most one decision pending in a session, the scan for pending ones finds it. -/
theorem activePending_eq_singleton (h : GateInv s) {d : Decision}
    (hd : s.store.decisions.get? d.decisionId = some d)
    (hopen : d.isOpenFor operatorId sessionId = true) (hlive : s.clock < d.expiresAt) :
    (activePending s.store operatorId sessionId s.clock).2 = [d] := by
  have hmem : d ∈ (activePending s.store operatorId sessionId s.clock).2 :=
    mem_activePending.mpr ⟨d.decisionId, hd, hopen, hlive⟩
  have hone : (activePending s.store operatorId sessionId s.clock).2.length ≤ 1 := by
    refine length_le_one_of_keys (f := Decision.decisionId) ?_ ?_
    · have hledger := (activePending_moves "" s.store operatorId sessionId s.clock).ledger h.ledger
      have hkeys := Dict.nodup_map_values _ hledger.decisions
      exact ((List.perm_insertionSort _ _).map _).nodup_iff.mpr
        (hkeys.sublist (List.filter_sublist.map _))
    · intro d₁ hd₁ d₂ hd₂
      obtain ⟨id₁, hget₁, hopen₁, hlive₁⟩ := mem_activePending.mp hd₁
      obtain ⟨id₂, hget₂, hopen₂, hlive₂⟩ := mem_activePending.mp hd₂
      rw [h.ledger.decisions id₁ d₁ hget₁, h.ledger.decisions id₂ d₂ hget₂]
      exact h.one operatorId sessionId id₁ id₂ ⟨d₁, hget₁, hopen₁, hlive₁⟩
        ⟨d₂, hget₂, hopen₂, hlive₂⟩
  match hactive : (activePending s.store operatorId sessionId s.clock).2 with
  | [] => simp [hactive] at hmem
  | [d'] =>
    rw [hactive, List.mem_singleton] at hmem
    rw [hmem]
  | _ :: _ :: _ => simp [hactive] at hone

/-- Resolving an open decision of the operator issues a receipt with the choice, or fails
with an error that a reply reports as stale. -/
theorem resolve_outcome (machine : Machine) {s : Store} (later : Time) (receiptId : String)
    {d : Decision} (choice : Choice) (hd : s.decisions.get? d.decisionId = some d)
    (hopen : d.isOpenFor operatorId sessionId = true) :
    (∃ err, (resolve machine s later receiptId d.decisionId operatorId choice.text "once" 900).2 =
        .error err ∧ err.isStale = true) ∨
      ∃ r, (resolve machine s later receiptId d.decisionId operatorId choice.text "once" 900).2 =
        .ok r ∧ r.decisionId = d.decisionId ∧ r.decision = choice := by
  simp only [Decision.isOpenFor, Bool.and_eq_true, decide_eq_true_eq] at hopen
  obtain ⟨⟨hisOpen, hop⟩, -⟩ := hopen
  have hchoice : Choice.ofText choice.text = some choice := by cases choice <;> rfl
  have hscope : Scope.ofText "once" = some .once := rfl
  simp only [resolve, hd, hop, ne_eq, not_true_eq_false, if_false, hisOpen, Bool.not_true,
    Bool.false_eq_true, hchoice, hscope]
  split
  · exact Or.inl ⟨_, rfl, rfl⟩
  split
  · rename_i s' err hrefused
    refine Or.inl ⟨err, rfl, ?_⟩
    split at hrefused
    · unfold approvalRefused at hrefused
      split at hrefused
      · cases hrefused
        rfl
      · split at hrefused
        · cases hrefused
        · cases hrefused
          rfl
    · cases hrefused
  · exact Or.inr ⟨_, rfl, rfl, rfl⟩

/-- Where one decision is pending, a natural reply that makes a choice resolves it. -/
theorem resolveNaturalReply_singleton {rt : Runtime} {machine : Machine} {s store : Store}
    {now later : Time} {receiptId text : String} {choice : Choice} {d : Decision}
    (hchoice : naturalApprovalChoice rt text = some choice)
    (hactive : activePending s operatorId sessionId now = (store, [d])) :
    resolveNaturalReply rt machine s now later receiptId text operatorId sessionId =
      match resolve machine store later receiptId d.decisionId operatorId choice.text "once" 900 with
      | (s, outcome) => replyOf s d choice.text (s.pendingActions.get? d.decisionId) outcome := by
  unfold resolveNaturalReply
  rw [hchoice]
  simp only
  rw [hactive]

/-- In a state of the gate, a natural reply is about the pending decision. -/
theorem GateInv.replies (h : GateInv s) : RepliesNamePending rt s := by
  intro later receiptId text operatorId sessionId choice decisionId hchoice ⟨d, hd, hopen, hlive⟩
  obtain rfl := h.ledger.decisions decisionId d hd
  have hone := activePending_eq_singleton h hd hopen hlive
  -- the scan leaves the pending decision as it is
  have hkept : (activePending s.store operatorId sessionId s.clock).1.decisions.get? d.decisionId =
      some d := by
    simp [activePending, hd, Decision.expireIf, Nat.not_le.mpr hlive]
  rcases hactive : activePending s.store operatorId sessionId s.clock with ⟨store, active⟩
  rw [hactive] at hone hkept
  simp only at hone hkept
  subst hone
  rw [resolveNaturalReply_singleton hchoice hactive]
  have hout := resolve_outcome s.machine later receiptId choice hkept hopen
  generalize resolve s.machine store later receiptId d.decisionId operatorId choice.text "once" 900 =
    resolved at hout
  obtain ⟨store', outcome⟩ := resolved
  simp only at hout
  rcases hout with ⟨err, rfl, hstale⟩ | ⟨r, rfl, hid, hdecision⟩
  · exact ⟨⟨.stale, d, none, some err, none⟩, by simp [replyOf, hstale], rfl, Or.inl rfl⟩
  · exact ⟨⟨.made choice.text, d, some r, none, store'.pendingActions.get? d.decisionId⟩, rfl, rfl,
      Or.inr ⟨rfl, r, rfl, hid, hdecision⟩⟩

/-- In every run in which no check of a session comes between another call's check and its
insertion there, at most one approval is pending in a session, and a natural reply is about
it. -/
theorem one_pending_of_checksApart (rt : Runtime) (s : State)
    (h : (system rt).ReachableWhere (fun s l => checksApart s l = true) s) :
    OnePending s ∧ RepliesNamePending rt s := by
  have hinv : GateInv s := by
    refine h.invariant (I := GateInv) ?_ ?_
    · rintro s₀ ⟨machine, clock, rfl⟩
      exact gateInv_start machine clock
    · exact gateInv_step
  exact ⟨hinv.one, hinv.replies⟩

/-- Another mail. -/
def otherMail : ActionCall := mailCall [("to", .str "d@e.f"), ("subject", .str "Re")]

/-- Two calls in the same session, one after the other. -/
def callsInTurn : List Label :=
  [.decideStart 0 (mailRequest plainMail) "d0", .decideCheck 0, .decideRecord 0,
    .decideStart 1 (mailRequest otherMail) "d1", .decideCheck 1, .decideRecord 1]

/-- The same two calls, both checking before either records. -/
def callsCrossed : List Label :=
  [.decideStart 0 (mailRequest plainMail) "d0", .decideStart 1 (mailRequest otherMail) "d1",
    .decideCheck 0, .decideCheck 1, .decideRecord 0, .decideRecord 1]

/-- The verdicts of the two stored decisions, and whether they are open in the session. -/
def twoDecisions (s : State) : Option (Verdict × Bool × Time) × Option (Verdict × Bool × Time) :=
  let view := fun d : Decision => (d.decision, d.isOpenFor "op" "s", d.expiresAt - s.clock)
  ((s.store.decisions.get? "d0").map view, (s.store.decisions.get? "d1").map view)

/-- In turn, the second call is denied, and one approval is pending. -/
theorem one_pending_callsInTurn : ∃ s,
    twoDecisions s = (some (.approvalRequired, true, 600000000), some (.deny, false, 600000000)) ∧
    OnePending s ∧ RepliesNamePending .plain s := by
  obtain ⟨s, hreach, hview⟩ := (system .plain).exists_reachableWhere_of_exec
    (fun s l => checksApart s l = true) twoDecisions callsInTurn
    (v := (some (.approvalRequired, true, 600000000), some (.deny, false, 600000000)))
    (s := State.start plainMachine 0) ⟨plainMachine, 0, rfl⟩ (by decide)
  exact ⟨s, hview, one_pending_of_checksApart .plain s hreach⟩

/-- Crossed, both are pending. -/
theorem not_one_pending_callsCrossed :
    ¬ ∀ (rt : Runtime) (s : State), (system rt).Reachable s → OnePending s := by
  intro hall
  obtain ⟨s, hreach, hview⟩ := (system .plain).exists_reachableWhere_of_exec
    TransitionSystem.anyStep twoDecisions callsCrossed
    (v := (some (.approvalRequired, true, 600000000), some (.approvalRequired, true, 600000000)))
    (s := State.start plainMachine 0) ⟨plainMachine, 0, rfl⟩ (by decide)
  simp only [twoDecisions, Prod.mk.injEq, Option.map_eq_some_iff] at hview
  obtain ⟨⟨d₀, hd₀, -, hopen₀, hlive₀⟩, d₁, hd₁, -, hopen₁, hlive₁⟩ := hview
  have heq := hall .plain s hreach "op" "s" "d0" "d1"
    ⟨d₀, hd₀, hopen₀, Nat.lt_of_sub_pos (by rw [hlive₀]; decide)⟩
    ⟨d₁, hd₁, hopen₁, Nat.lt_of_sub_pos (by rw [hlive₁]; decide)⟩
  exact absurd heq (by decide)

end Pandamonium.Authority
