import Pandamonium.Analysis.AuthorityLedger

/-!
# Declared and configured metadata

The effect a call is declared to have and the workspace it is configured for are added to
what the call says by itself, and the effect is the strictest of them.  Whether that makes
the decision stricter depends on how the decision follows the effect: under
`approve_for_me` it is a membership test in a set that skips some of the stricter effects,
and a call that is in no table has no effect for the metadata to raise.
-/

set_option autoImplicit false

namespace Pandamonium

open Pandamonium.Library

/-- A request with other authority metadata: the declared effect, the legacy permission mode
and the configured workspace may all be different. -/
def Request.withMetadata (req : Request) (policy : Object) (workspace : Option String) : Request :=
  { req with
    call := { req.call with capabilityPolicy := policy }
    configuredWorkspace := workspace }

/-- A request without authority metadata. -/
structure Request.Bare (rt : Runtime) (req : Request) : Prop where
  undeclared : declaredEffect rt req.call = none
  policy : req.call.capabilityPolicy.get? "configured_workspace" = none
  workspace : req.configuredWorkspace = none

/-! ## What the metadata does to the effect -/

theorem Object.get?_assign (d : Object) (key key' : String) (v : Value) (hne : key ≠ key') :
    Object.get? (Dict.assign key' v d) key = Object.get? d key := by
  induction d with
  | nil => simp [Dict.assign, Object.get?, hne.symm]
  | cons e d ih =>
    obtain ⟨k, w⟩ := e
    by_cases hk : k = key'
    · simp [Dict.assign, Object.get?, hk, hne.symm]
    · simp [Dict.assign, Object.get?, hk, ih]

theorem classifiedCall_scopes (req : Request) :
    req.classifiedCall.capabilityPolicy.get? "configured_scopes" =
      req.call.capabilityPolicy.get? "configured_scopes" := by
  unfold Request.classifiedCall
  split
  · rfl
  · split
    · rfl
    · exact Object.get?_assign _ _ _ _ (by decide)

theorem classifiedCall_rest (req : Request) :
    req.classifiedCall.name = req.call.name ∧ req.classifiedCall.arguments = req.call.arguments := by
  unfold Request.classifiedCall
  split
  · exact ⟨rfl, rfl⟩
  · split <;> exact ⟨rfl, rfl⟩

theorem Request.Bare.classifiedCall {rt : Runtime} {req : Request} (h : req.Bare rt) :
    req.classifiedCall = req.call := by
  simp [Request.classifiedCall, h.workspace]

section Effects

variable {rt : Runtime} {req : Request} {call : ActionCall}

theorem Request.Bare.outside (h : req.Bare rt) (hname : call.name = req.call.name)
    (harguments : call.arguments = req.call.arguments)
    (hscopes : call.capabilityPolicy.get? "configured_scopes" =
      req.call.capabilityPolicy.get? "configured_scopes")
    (hout : outsideConfiguredWorkspace rt req.call = true) :
    outsideConfiguredWorkspace rt call = true := by
  have hdirectory : outsideConfiguredDirectory rt req.call.capabilityPolicy
      req.call.arguments.asObject = false := by
    simp [outsideConfiguredDirectory, Object.text, Object.firstText, h.policy]
  have hsame : outsideConfiguredScopes rt call.capabilityPolicy req.call.arguments.asObject =
      outsideConfiguredScopes rt req.call.capabilityPolicy req.call.arguments.asObject := by
    simp only [outsideConfiguredScopes, hscopes]
  simp only [outsideConfiguredWorkspace, hdirectory, Bool.or_false] at hout
  simp only [outsideConfiguredWorkspace, hname, harguments, hsame]
  split
  · rfl
  · rename_i hflag
    rw [if_neg hflag] at hout
    split
    · rename_i hmanage
      rw [if_pos hmanage] at hout
      exact hout
    · rename_i hmanage
      rw [if_neg hmanage] at hout
      rw [hout, Bool.true_or]

theorem concreteEffect_congr (hname : call.name = req.call.name)
    (harguments : call.arguments = req.call.arguments)
    (hinside : outsideConfiguredWorkspace rt call = false)
    (hinside' : outsideConfiguredWorkspace rt req.call = false) :
    concreteEffect rt call = concreteEffect rt req.call := by
  simp only [concreteEffect, hname, harguments, hinside, hinside']

theorem Request.Bare.concreteEffect (h : req.Bare rt) (hname : call.name = req.call.name)
    (harguments : call.arguments = req.call.arguments)
    (hscopes : call.capabilityPolicy.get? "configured_scopes" =
      req.call.capabilityPolicy.get? "configured_scopes") :
    concreteEffect rt call = concreteEffect rt req.call ∨
      concreteEffect rt call = some .outsideWorkspaceBoundary := by
  cases hout : outsideConfiguredWorkspace rt call with
  | true => exact Or.inr (by simp [Pandamonium.concreteEffect, hout])
  | false =>
    refine Or.inl (concreteEffect_congr hname harguments hout ?_)
    cases hbare : outsideConfiguredWorkspace rt req.call with
    | false => rfl
    | true =>
      rw [h.outside hname harguments hscopes hbare] at hout
      cases hout

theorem Request.Bare.effect (h : req.Bare rt) :
    actionEffectFor rt req.call = Pandamonium.concreteEffect rt req.call := by
  simp only [actionEffectFor, h.undeclared, Option.toList_none, List.nil_append, strictest]
  cases Pandamonium.concreteEffect rt req.call <;> rfl

theorem strictness_le_outside (e : ActionEffect) :
    e.strictness ≤ ActionEffect.outsideWorkspaceBoundary.strictness := by
  cases e <;> decide

theorem Request.Bare.effect_le (h : req.Bare rt) (hname : call.name = req.call.name)
    (harguments : call.arguments = req.call.arguments)
    (hscopes : call.capabilityPolicy.get? "configured_scopes" =
      req.call.capabilityPolicy.get? "configured_scopes")
    {e : ActionEffect} (he : actionEffectFor rt req.call = some e) :
    ∃ e', actionEffectFor rt call = some e' ∧ e.strictness ≤ e'.strictness := by
  rw [h.effect] at he
  obtain ⟨c, hc, hle⟩ : ∃ c, Pandamonium.concreteEffect rt call = some c ∧
      e.strictness ≤ c.strictness := by
    rcases h.concreteEffect hname harguments hscopes with hsame | hout
    · exact ⟨e, hsame.trans he, Nat.le_refl _⟩
    · exact ⟨_, hout, strictness_le_outside e⟩
  cases hd : declaredEffect rt call with
  | none =>
    refine ⟨c, ?_, hle⟩
    simp [actionEffectFor, hd, hc, strictest, firstMax]
  | some d =>
    obtain ⟨e', he', hmax⟩ :=
      Option.map_eq_some_iff.mp (key_firstMax_pair ActionEffect.strictness d c)
    refine ⟨e', ?_, ?_⟩
    · simpa [actionEffectFor, hd, hc, strictest] using he'
    · rw [hmax]
      exact Nat.le_trans hle (Nat.le_max_right _ _)

end Effects

/-! ## What the effect does to the decision -/

theorem decideCall_ungated {rt : Runtime} {machine : Machine} {s : Store} {now : Time}
    {req : Request} {decisionId : String} {verdict : Verdict} {basis : String}
    (h : ungatedVerdict req (intake rt machine now req decisionId) = some (verdict, basis)) :
    (decideCall rt machine s now req decisionId).2.decision = verdict := by
  simp only [decideCall, h, decisionRecord]

theorem decideCall_gated {rt : Runtime} {machine : Machine} {s : Store} {now : Time}
    {req : Request} {decisionId : String}
    (h : ungatedVerdict req (intake rt machine now req decisionId) = none)
    (hreceipt : (matchingReceipt s (intake rt machine now req decisionId)
      (runtimeBinding machine req.configuredWorkspace)).2 = none) :
    (decideCall rt machine s now req decisionId).2.decision ≠ .allow := by
  rcases hmatching : matchingReceipt s (intake rt machine now req decisionId)
    (runtimeBinding machine req.configuredWorkspace) with ⟨s₁, found⟩
  rw [hmatching] at hreceipt
  simp only at hreceipt
  subst hreceipt
  have hmem := @mem_activePending (intake rt machine now req decisionId).operator s₁
    (intake rt machine now req decisionId).session (intake rt machine now req decisionId).now
  rcases hactive : activePending s₁ (intake rt machine now req decisionId).operator
    (intake rt machine now req decisionId).session (intake rt machine now req decisionId).now with
    ⟨s₂, active⟩
  rw [hactive] at hmem
  simp only [decideCall, h, decideCheck, hmatching, hactive]
  cases hfind : active.find? fun row =>
      decide (row.argumentFingerprint = (intake rt machine now req decisionId).fingerprint) with
  | some row =>
    obtain ⟨_, _, hopen, _⟩ := hmem.mp (List.mem_of_find?_eq_some hfind)
    simp only [Decision.isOpenFor, Decision.isOpen, Bool.and_eq_true, decide_eq_true_eq] at hopen
    simp [hopen.1.1.1]
  | none =>
    by_cases hnil : active = []
    · simp [hnil, decisionRecord]
    · simp [hnil, decisionRecord]

/-- The effects that `approve_for_me` allows are those below the destructive ones and two
others. -/
theorem approveForMeSafe_of_le {e e' : ActionEffect} (hle : e.strictness ≤ e'.strictness)
    (hsafe : e'.approveForMeSafe = true)
    (hraised : e' = .externalPublicationOrCommunication ∨ e' = .outsideWorkspaceBoundary → e = e') :
    e.approveForMeSafe = true := by
  cases e' with
  | read | reversibleWrite => cases e <;> first | rfl | exact absurd hle (by decide)
  | externalPublicationOrCommunication =>
    rw [hraised (Or.inl rfl)]
    exact hsafe
  | outsideWorkspaceBoundary =>
    rw [hraised (Or.inr rfl)]
    exact hsafe
  | _ => cases hsafe

theorem eq_read_of_le {e e' : ActionEffect} (hle : e.strictness ≤ e'.strictness)
    (hread : e' = .read) : e = .read := by
  subst hread
  cases e <;> first | rfl | exact absurd hle (by decide)

/-- Where nothing but the effect differs, and it is at least as strict, an allow before the
gate is an allow for the laxer effect too. -/
theorem ungatedVerdict_allow {req req' : Request} {i i' : Intake} {e e' : ActionEffect}
    {basis' : String} (hallow : ungatedVerdict req' i' = some (.allow, basis')) (hname : req'.call.name = req.call.name) (hreason : req'.disabledReason = req.disabledReason)
    (hnative : req'.nativeApprovalGate = req.nativeApprovalGate)
    (hoperator : i'.operator = i.operator) (hmode : i'.accessMode = i.accessMode)
    (he : i.effect = some e) (he' : i'.effect = some e') (hle : e.strictness ≤ e'.strictness)
    (hraised : i.accessMode = .approveForMe →
      e' = .externalPublicationOrCommunication ∨ e' = .outsideWorkspaceBoundary → e = e') :
    ∃ basis, ungatedVerdict req i = some (.allow, basis) := by
  simp only [ungatedVerdict, hname, hreason, hnative, hoperator, hmode, he, he',
    Option.some.injEq] at hallow ⊢
  split at hallow
  · rename_i hpublic
    exact ⟨_, if_pos ⟨hpublic.1, eq_read_of_le hle hpublic.2.1, hpublic.2.2⟩⟩
  split at hallow
  · cases hallow
  split at hallow
  · cases hallow
  rename_i hop hreason'
  rw [if_neg fun h => hop h.1, if_neg hop, if_neg hreason']
  split at hallow
  · rename_i hfull
    exact ⟨_, if_pos hfull⟩
  rename_i hfull
  rw [if_neg hfull]
  split at hallow
  · rename_i hsafe
    exact ⟨_, if_pos ⟨hsafe.1, approveForMeSafe_of_le hle hsafe.2 (hraised hsafe.1)⟩⟩
  split
  · exact ⟨_, rfl⟩
  split at hallow
  · rename_i hread
    exact ⟨_, if_pos (eq_read_of_le hle hread)⟩
  split
  · exact ⟨_, rfl⟩
  split at hallow
  · rename_i hgate
    exact ⟨_, if_pos hgate⟩
  rename_i hgate
  rw [if_neg hgate]
  split at hallow
  · rename_i hread hwrite
    subst hwrite
    cases e with
    | read => exact absurd rfl hread
    | reversibleWrite => exact ⟨_, rfl⟩
    | _ => exact absurd hle (by decide)
  · cases hallow

/-- Metadata does not turn a refusal into an allow: if the bare request is classified and not
allowed, then it is not allowed with any metadata either, as long as no receipt matches and
the effect is not lifted, under `approve_for_me`, to one that this mode allows. -/
theorem metadata_only_restricts (rt : Runtime) (machine : Machine) (s : Store) (now : Time)
    (req : Request) (decisionId : String) (policy : Object) (workspace : Option String)
    (hbare : req.Bare rt)
    (hscopes : policy.get? "configured_scopes" =
      req.call.capabilityPolicy.get? "configured_scopes")
    (hclassified : actionEffectFor rt req.call ≠ none)
    (hreceipt : (matchingReceipt s
      (intake rt machine now (req.withMetadata policy workspace) decisionId)
      (runtimeBinding machine workspace)).2 = none)
    (hraised : accessModeFor machine (strip (req.operatorId.getD "")) = .approveForMe →
      ∀ e, actionEffectFor rt (req.withMetadata policy workspace).classifiedCall = some e →
        e = .externalPublicationOrCommunication ∨ e = .outsideWorkspaceBoundary →
          actionEffectFor rt req.call = some e)
    (hrefused : (decideCall rt machine s now req decisionId).2.decision ≠ .allow) :
    (decideCall rt machine s now (req.withMetadata policy workspace) decisionId).2.decision ≠
      .allow := by
  obtain ⟨e, he⟩ := Option.ne_none_iff_exists'.mp hclassified
  obtain ⟨hname, harguments⟩ := classifiedCall_rest (req.withMetadata policy workspace)
  obtain ⟨e', he', hle⟩ := hbare.effect_le hname harguments
    ((classifiedCall_scopes _).trans hscopes) he
  cases hverdict : ungatedVerdict (req.withMetadata policy workspace)
      (intake rt machine now (req.withMetadata policy workspace) decisionId) with
  | none => exact decideCall_gated hverdict hreceipt
  | some outcome =>
    obtain ⟨verdict, basis⟩ := outcome
    rw [decideCall_ungated hverdict]
    rintro rfl
    have heffect : (intake rt machine now req decisionId).effect = some e := by
      rw [← he, intake, hbare.classifiedCall]
    have hlifted : (intake rt machine now req decisionId).accessMode = .approveForMe →
        e' = .externalPublicationOrCommunication ∨ e' = .outsideWorkspaceBoundary → e = e' := by
      intro hmode hsafe
      simp only [intake] at hmode
      have hsame := hraised hmode e' he' hsafe
      rw [he, Option.some.injEq] at hsame
      exact hsame
    have hbareAllow : ∃ basis, ungatedVerdict req (intake rt machine now req decisionId) =
        some (.allow, basis) :=
      ungatedVerdict_allow hverdict rfl rfl rfl rfl rfl heffect he' hle hlifted
    obtain ⟨basis', hallow⟩ := hbareAllow
    exact hrefused (decideCall_ungated hallow)

/-- The capability policy of an extension that declares an effect. -/
def declaring (effect : String) : Object := [("action_effect", .str effect)]

/-- A call of a capability that is in no table. -/
def unlistedCall : ActionCall where
  requestId := "r"
  agentId := "agent"
  name := "frobnicate"
  target := "extension:frob"
  arguments := .dict []
  capabilityPolicy := []

/-- A mail that waits for an approval still does when it is declared to be a purchase. -/
theorem metadata_only_restricts_plainMail :
    (decideCall .plain Authority.plainMachine .empty 0
      ((Authority.mailRequest plainMail).withMetadata (declaring "purchase") (some "/w")) "d").2.decision
        ≠ .allow := by
  refine metadata_only_restricts .plain Authority.plainMachine .empty 0
    (Authority.mailRequest plainMail) "d" (declaring "purchase") (some "/w")
    ⟨by decide, rfl, rfl⟩ rfl (by decide) rfl ?_ (by decide)
  intro hmode
  exact absurd hmode (by decide)

/-- A call of an unlisted capability is denied, and allowed when it is declared to be a read. -/
theorem not_metadata_only_restricts_unlistedCall :
    ¬ ∀ (rt : Runtime) (machine : Machine) (s : Store) (now : Time) (req : Request)
      (decisionId : String) (policy : Object) (workspace : Option String), req.Bare rt →
      policy.get? "configured_scopes" = req.call.capabilityPolicy.get? "configured_scopes" →
      (matchingReceipt s (intake rt machine now (req.withMetadata policy workspace) decisionId)
        (runtimeBinding machine workspace)).2 = none →
      (decideCall rt machine s now req decisionId).2.decision ≠ .allow →
      (decideCall rt machine s now (req.withMetadata policy workspace) decisionId).2.decision ≠
        .allow := by
  intro hall
  exact hall .plain Authority.plainMachine .empty 0 (Authority.mailRequest unlistedCall) "d"
    (declaring "read") none ⟨by decide, rfl, rfl⟩ rfl rfl (by decide) (by decide)

end Pandamonium
