import Pandamonium.Model.ActionEffect

/-!
# Which arguments lower the effect of a capability

The default table gives some capabilities an effect that needs an approval of its own.
For those that do not read an `action` argument, a caller may still send one, and
`action_effect_for` looks at the verb before it looks at the table.
`floor_kept_iff` says exactly when the effect of the call is as strict as the default one.
-/

set_option autoImplicit false

namespace Pandamonium

open Pandamonium.Library

/-- A call is as strict as `n` when the declared effect or the concrete one is. -/
theorem le_strictness_actionEffectFor (rt : Runtime) (call : ActionCall) (n : ℕ) :
    (∃ e, actionEffectFor rt call = some e ∧ n ≤ e.strictness) ↔
      (∃ d, declaredEffect rt call = some d ∧ n ≤ d.strictness) ∨
        ∃ c, concreteEffect rt call = some c ∧ n ≤ c.strictness := by
  unfold actionEffectFor
  cases hd : declaredEffect rt call with
  | none =>
    cases hc : concreteEffect rt call with
    | none => simp [strictest, firstMax]
    | some c => simp [strictest, firstMax]
  | some d =>
    cases hc : concreteEffect rt call with
    | none => simp [strictest, firstMax]
    | some c =>
      obtain ⟨e, he, hmax⟩ :=
        Option.map_eq_some_iff.mp (key_firstMax_pair ActionEffect.strictness d c)
      simp only [strictest, Option.toList_some, List.singleton_append, he, Option.some.injEq,
        exists_eq_left', hmax]
      omega

/-! ## The capabilities with a default effect to keep -/

/-- The capabilities with a gated default effect whose tools dispatch on an `action`
argument. -/
def actionDispatched : List String := ["manage_calendar", "app_api", "manage_tokens"]

/-- The other capabilities with a gated default effect. -/
def floorCapabilities : List String :=
  ["send_email", "reply_to_email", "bulk_email", "api_call"] ++ destructiveCapabilities ++
    ["vault_unlock"]

theorem mem_floorCapabilities {name : String} {floor : ActionEffect}
    (hfloor : defaultEffectByCapability name = some floor) (hgate : floor.separateGate = true)
    (haction : name ∉ actionDispatched) : name ∈ floorCapabilities := by
  unfold defaultEffectByCapability at hfloor
  split at hfloor
  · cases hfloor
    cases hgate
  split at hfloor
  · cases hfloor
    cases hgate
  simp only [actionDispatched, List.mem_cons, List.not_mem_nil, or_false, not_or] at haction
  split at hfloor
  · rename_i hname
    simp only [externalCapabilities, List.mem_cons, List.not_mem_nil, or_false] at hname
    simp only [floorCapabilities, List.mem_append, List.mem_cons]
    tauto
  split at hfloor
  · rename_i hname
    simp only [floorCapabilities, List.mem_append]
    exact Or.inl (Or.inr hname)
  split at hfloor
  · rename_i hname
    simp only [credentialCapabilities, List.mem_cons, List.not_mem_nil, or_false] at hname
    simp only [floorCapabilities, List.mem_append, List.mem_cons]
    tauto
  · cases hfloor

/-- The arguments with which a capability of the table is classified below its default
effect, where neither the declared effect nor the place of its paths makes up for it. -/
def LowersEffect (rt : Runtime) (name : String) (arguments : Object) : Prop :=
  let action := actionVerb rt arguments
  if name = "vault_unlock" then action ∈ purchaseActions
  else
    action ∉ purchaseActions ∧ isCredentialChange rt name action arguments = false ∧
      isPrivilegeExpansion rt name action arguments = false ∧
      if name = "api_call" then action ∈ destructiveActions ∨ httpMethod rt arguments = "GET"
      else if name ∈ destructiveCapabilities then action ∈ readActions
      else action ∈ destructiveActions ∨ action ∈ readActions

theorem concreteEffect_floor {rt : Runtime} {call : ActionCall}
    (hname : call.name ∈ floorCapabilities) (hinside : outsideConfiguredWorkspace rt call = false) :
    concreteEffect rt call =
      let arguments := call.arguments.asObject
      let action := actionVerb rt arguments
      if action ∈ purchaseActions then some .purchase
      else if isCredentialChange rt call.name action arguments then some .credentialOrAuthChange
      else if isPrivilegeExpansion rt call.name action arguments then some .privilegeExpansion
      else if action ∈ destructiveActions then some .destructiveOrDifficultToRecover
      else if call.name = "api_call" then
        some (if httpMethod rt arguments = "GET" then .read
          else .externalPublicationOrCommunication)
      else if action ∈ externalActions then some .externalPublicationOrCommunication
      else if action ∈ readActions then some .read
      else defaultEffectByCapability call.name := by
  have hplain : ∀ name ∈ floorCapabilities, name ∉ ["bash", "python"] ∧
      purchaseName.search name = false ∧ name ≠ "ssh_node" ∧ name ≠ "android_device" := by
    decide
  obtain ⟨hshell, hpurchase, hssh, handroid⟩ := hplain call.name hname
  simp only [concreteEffect, hinside, Bool.false_eq_true, if_false, hshell, hssh, handroid,
    isPurchase, hpurchase, Bool.or_false, decide_eq_true_eq]

theorem not_mem_of_mem_readActions {action : String} (h : action ∈ readActions) :
    action ∉ destructiveActions ∧ action ∉ externalActions := by
  have hall : ∀ a ∈ readActions, a ∉ destructiveActions ∧ a ∉ externalActions := by decide
  exact hall action h

/-- A purchase and a change of credentials or privileges come before the rest of the
classification, and are as strict as any floor up to a purchase. -/
theorem elevated_iff {purchase lowers : Prop} [Decidable purchase] {credential privilege : Bool}
    {rest : Option ActionEffect} {n : ℕ} (hn : n ≤ ActionEffect.purchase.strictness)
    (hrest : (∃ c, rest = some c ∧ n ≤ c.strictness) ↔ ¬ lowers) :
    (∃ c, (if purchase then some .purchase
        else if credential then some .credentialOrAuthChange
        else if privilege then some .privilegeExpansion
        else rest) = some c ∧ n ≤ c.strictness) ↔
      ¬ (¬ purchase ∧ credential = false ∧ privilege = false ∧ lowers) := by
  simp only [ActionEffect.strictness] at hn
  have hcredential : n ≤ ActionEffect.credentialOrAuthChange.strictness := by
    simp only [ActionEffect.strictness]
    omega
  have hprivilege : n ≤ ActionEffect.privilegeExpansion.strictness := by
    simp only [ActionEffect.strictness]
    omega
  by_cases hp : purchase
  · simp [hp, ActionEffect.strictness, hn]
  cases credential with
  | true => simp [hp, hcredential]
  | false =>
    cases privilege with
    | true => simp [hp, hprivilege]
    | false => simpa [hp] using hrest

section Floors

variable {rt : Runtime} {call : ActionCall}

theorem vault_floor_iff (hname : call.name = "vault_unlock")
    (hinside : outsideConfiguredWorkspace rt call = false) :
    (∃ c, concreteEffect rt call = some c ∧
        ActionEffect.credentialOrAuthChange.strictness ≤ c.strictness) ↔
      ¬ LowersEffect rt call.name call.arguments.asObject := by
  have hcred : isCredentialChange rt call.name (actionVerb rt call.arguments.asObject)
      call.arguments.asObject = true := by
    simp [isCredentialChange, hname]
  rw [concreteEffect_floor (by rw [hname]; decide) hinside]
  simp only [LowersEffect, hname, if_true] at hcred ⊢
  by_cases hp : actionVerb rt call.arguments.asObject ∈ purchaseActions
  · simp [hp, ActionEffect.strictness]
  · simp [hp, hcred, ActionEffect.strictness]

/-- An API call is a read when its method is `GET`. -/
theorem apiCall_floor_iff (hname : call.name = "api_call")
    (hinside : outsideConfiguredWorkspace rt call = false) :
    (∃ c, concreteEffect rt call = some c ∧
        ActionEffect.externalPublicationOrCommunication.strictness ≤ c.strictness) ↔
      ¬ LowersEffect rt call.name call.arguments.asObject := by
  have hvault : ¬ ("api_call" = "vault_unlock") := by decide
  rw [concreteEffect_floor (by rw [hname]; decide) hinside]
  simp only [LowersEffect, hname, hvault, if_true, if_false]
  apply elevated_iff (by decide)
  by_cases hd : actionVerb rt call.arguments.asObject ∈ destructiveActions
  · simp [hd, ActionEffect.strictness]
  · by_cases hget : httpMethod rt call.arguments.asObject = "GET"
    · simp [hd, hget, ActionEffect.strictness]
    · simp [hd, hget, ActionEffect.strictness]

theorem destructive_floor_iff (hname : call.name ∈ destructiveCapabilities)
    (hinside : outsideConfiguredWorkspace rt call = false) :
    (∃ c, concreteEffect rt call = some c ∧
        ActionEffect.destructiveOrDifficultToRecover.strictness ≤ c.strictness) ↔
      ¬ LowersEffect rt call.name call.arguments.asObject := by
  have hplain : ∀ name ∈ destructiveCapabilities, name ∈ floorCapabilities ∧
      name ≠ "vault_unlock" ∧ name ≠ "api_call" ∧
      defaultEffectByCapability name = some .destructiveOrDifficultToRecover := by
    decide
  obtain ⟨hfloor, hvault, hapi, hdefault⟩ := hplain call.name hname
  rw [concreteEffect_floor hfloor hinside]
  simp only [LowersEffect, hname, hvault, hapi, hdefault, if_true, if_false]
  apply elevated_iff (by decide)
  by_cases hr : actionVerb rt call.arguments.asObject ∈ readActions
  · obtain ⟨hd, he⟩ := not_mem_of_mem_readActions hr
    simp [hr, hd, he, ActionEffect.strictness]
  · by_cases hd : actionVerb rt call.arguments.asObject ∈ destructiveActions
    · simp [hr, hd, ActionEffect.strictness]
    · by_cases he : actionVerb rt call.arguments.asObject ∈ externalActions
      · simp [hr, hd, he, ActionEffect.strictness]
      · simp [hr, hd, he, ActionEffect.strictness]

theorem mail_floor_iff (hname : call.name ∈ ["send_email", "reply_to_email", "bulk_email"])
    (hinside : outsideConfiguredWorkspace rt call = false) :
    (∃ c, concreteEffect rt call = some c ∧
        ActionEffect.externalPublicationOrCommunication.strictness ≤ c.strictness) ↔
      ¬ LowersEffect rt call.name call.arguments.asObject := by
  have hplain : ∀ name ∈ ["send_email", "reply_to_email", "bulk_email"],
      name ∈ floorCapabilities ∧ name ≠ "vault_unlock" ∧ name ≠ "api_call" ∧
      name ∉ destructiveCapabilities ∧
      defaultEffectByCapability name = some .externalPublicationOrCommunication := by
    decide
  obtain ⟨hfloor, hvault, hapi, hdest, hdefault⟩ := hplain call.name hname
  rw [concreteEffect_floor hfloor hinside]
  simp only [LowersEffect, hdest, hvault, hapi, hdefault, if_false]
  apply elevated_iff (by decide)
  by_cases hr : actionVerb rt call.arguments.asObject ∈ readActions
  · obtain ⟨hd, he⟩ := not_mem_of_mem_readActions hr
    simp [hr, hd, he, ActionEffect.strictness]
  · by_cases hd : actionVerb rt call.arguments.asObject ∈ destructiveActions
    · simp [hd, ActionEffect.strictness]
    · by_cases he : actionVerb rt call.arguments.asObject ∈ externalActions
      · simp [hr, hd, he, ActionEffect.strictness]
      · simp [hr, hd, he, ActionEffect.strictness]

end Floors

/-- Inside the workspace, the concrete effect is as strict as the default one unless the
arguments lower it. -/
theorem concrete_floor_iff {rt : Runtime} {call : ActionCall} {floor : ActionEffect}
    (hfloor : defaultEffectByCapability call.name = some floor)
    (hname : call.name ∈ floorCapabilities)
    (hinside : outsideConfiguredWorkspace rt call = false) :
    (∃ c, concreteEffect rt call = some c ∧ floor.strictness ≤ c.strictness) ↔
      ¬ LowersEffect rt call.name call.arguments.asObject := by
  have hgroups : ∀ name ∈ floorCapabilities,
      (name ∈ ["send_email", "reply_to_email", "bulk_email"] ∧
        defaultEffectByCapability name = some .externalPublicationOrCommunication) ∨
      (name = "api_call" ∧
        defaultEffectByCapability name = some .externalPublicationOrCommunication) ∨
      (name ∈ destructiveCapabilities ∧
        defaultEffectByCapability name = some .destructiveOrDifficultToRecover) ∨
      (name = "vault_unlock" ∧
        defaultEffectByCapability name = some .credentialOrAuthChange) := by
    decide
  rcases hgroups call.name hname with ⟨hn, hd⟩ | ⟨hn, hd⟩ | ⟨hn, hd⟩ | ⟨hn, hd⟩
  · rw [hd, Option.some.injEq] at hfloor
    subst hfloor
    exact mail_floor_iff hn hinside
  · rw [hd, Option.some.injEq] at hfloor
    subst hfloor
    exact apiCall_floor_iff hn hinside
  · rw [hd, Option.some.injEq] at hfloor
    subst hfloor
    exact destructive_floor_iff hn hinside
  · rw [hd, Option.some.injEq] at hfloor
    subst hfloor
    exact vault_floor_iff hn hinside

/-- The effect of a call of a gated capability that does not dispatch on `action` is as
strict as the capability's default effect exactly when the declared effect is, or the call
leaves the workspace, or its arguments do not lower it. -/
theorem floor_kept_iff (rt : Runtime) (call : ActionCall) (floor : ActionEffect)
    (hfloor : defaultEffectByCapability call.name = some floor)
    (hgate : floor.separateGate = true) (haction : call.name ∉ actionDispatched) :
    (∃ e, actionEffectFor rt call = some e ∧ floor.strictness ≤ e.strictness) ↔
      (∃ d, declaredEffect rt call = some d ∧ floor.strictness ≤ d.strictness) ∨
        outsideConfiguredWorkspace rt call = true ∨
        ¬ LowersEffect rt call.name call.arguments.asObject := by
  have hname := mem_floorCapabilities hfloor hgate haction
  rw [le_strictness_actionEffectFor]
  refine or_congr_right ?_
  cases hinside : outsideConfiguredWorkspace rt call with
  | false => simpa using concrete_floor_iff hfloor hname hinside
  | true =>
    have hmax : floor.strictness ≤ ActionEffect.outsideWorkspaceBoundary.strictness := by
      cases floor <;> decide
    simp [concreteEffect, hinside, hmax]

/-- The same mail with an argument that the tool ignores. -/
def listedMail : ActionCall :=
  mailCall [("to", .str "a@b.c"), ("subject", .str "Hi"), ("body", .str "Hi"),
    ("action", .str "list")]

/-- The plain mail keeps the default effect of its capability. -/
theorem floor_kept_plainMail :
    ∃ e, actionEffectFor .plain plainMail = some e ∧
      ActionEffect.externalPublicationOrCommunication.strictness ≤ e.strictness := by
  refine (floor_kept_iff .plain plainMail .externalPublicationOrCommunication (by decide)
    (by decide) (by decide)).mpr (Or.inr (Or.inr ?_))
  simp only [LowersEffect]
  decide

/-- The mail with the extra argument is classified as a read. -/
theorem not_floor_kept_listedMail :
    ¬ ∀ (rt : Runtime) (call : ActionCall) (floor : ActionEffect),
      defaultEffectByCapability call.name = some floor → floor.separateGate = true →
      call.name ∉ actionDispatched →
      ∃ e, actionEffectFor rt call = some e ∧ floor.strictness ≤ e.strictness := by
  intro hall
  obtain ⟨e, he, hle⟩ := hall .plain listedMail .externalPublicationOrCommunication (by decide)
    (by decide) (by decide)
  have hread : actionEffectFor .plain listedMail = some .read := by decide
  rw [hread, Option.some.injEq] at he
  subst he
  exact absurd hle (by decide)

end Pandamonium
