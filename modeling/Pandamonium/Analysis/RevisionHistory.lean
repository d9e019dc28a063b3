import Pandamonium.Analysis.LifecycleAgreement

/-!
# The revisions an extension can go back to

Installing, upgrading and going back each move a revision between the active slot of an extension
and its history.  Going back takes the revision out of the history and does not cut it; upgrading
cuts the history and does not take the revision out.  So an upgrade to a revision of the history
leaves it in both places, and going back can leave more revisions than the manifest of the revision
retains.  In every run without these two the slot and the history stay apart.
-/

set_option autoImplicit false

namespace Pandamonium.ExtensionLifecycle

open Pandamonium.Library
open Pandamonium.Extensions (Interpreter Inventories Manifest Reconciled field asInt)

variable {it : Interpreter} {inv : Inventories} {a : Answers} {w : World}

/-- The active revision is not in the history, which has no revision twice and no more than
`limit`. -/
structure Installation.Kept (limit : ℤ) (record : Installation) : Prop where
  active : record.activeRevision ∉ record.history
  nodup : record.history.Nodup
  length_le : (record.history.length : ℤ) ≤ limit

/-- The revision that a plan makes active. -/
def SourcePlan.revision (plan : SourcePlan) : String :=
  plan.packageRevision.getD plan.sourceRevision

/-- The record that a plan goes on from. -/
def SourcePlan.previous (plan : SourcePlan) (a : Answers) (w : World) : Option Installation :=
  ((readState a.stateReadableAgain w).get? plan.extensionId).or
    ((readState a.stateReadable w).get? plan.extensionId)

section Condition

variable (it)

/-- No manifest of a revision declares that more revisions are retained than `limit` says. -/
def declares (limit : String → String → ℤ) : Operation × Answers → Prop
  | (.source plan, a) =>
    ∀ manifest ∈ loadManifest it a.manifestFile,
      manifest.retainRevisions ≤ limit plan.extensionId plan.revision
  | (.rollback extensionId targetRevision, a) =>
    ∀ manifest ∈ loadManifest it a.manifestFile,
      manifest.retainRevisions ≤ limit extensionId targetRevision
  | _ => True

/-- Neither the adapter nor the disk stops an operation. -/
def completes (a : Answers) : Prop :=
  a.supported = true ∧ a.activates = true ∧ a.commits = true ∧ a.stateWritable = true

instance : Decidable (completes a) := inferInstanceAs (Decidable (_ ∧ _))

/-- What a plan makes active is not among the revisions that stay in the history, and there is room
for the history of what is gone back to. -/
def sparesHistory (w : World) : Operation × Answers → Prop
  | (.source plan, a) =>
    completes a → a.staged = true →
    ∀ record ∈ plan.previous a w, ∀ manifest ∈ loadManifest it a.manifestFile,
      plan.revision ∉ lastOf (manifest.retainRevisions - 1) record.history
  | (.rollback extensionId targetRevision, a) =>
    completes a →
    ∀ record ∈ (readState a.stateReadable w).get? extensionId,
    ∀ manifest ∈ loadManifest it a.manifestFile,
      targetRevision ∈ record.history → (record.history.length : ℤ) ≤ manifest.retainRevisions
  | _ => True

/-- The condition on the steps, with what the manifests declare. -/
def withinLimit (limit : String → String → ℤ) (w : World) (l : Operation × Answers) : Prop :=
  declares it limit l ∧ sparesHistory it w l

instance (limit : String → String → ℤ) : DecidablePred (declares it limit)
  | (.source plan, a) =>
    inferInstanceAs (Decidable (∀ manifest ∈ loadManifest it a.manifestFile,
      manifest.retainRevisions ≤ limit plan.extensionId plan.revision))
  | (.rollback extensionId targetRevision, a) =>
    inferInstanceAs (Decidable (∀ manifest ∈ loadManifest it a.manifestFile,
      manifest.retainRevisions ≤ limit extensionId targetRevision))
  | (.enable _, _) | (.disable _, _) | (.uninstall _, _) => isTrue trivial

instance : DecidableRel (sparesHistory it)
  | w, (.source plan, a) =>
    inferInstanceAs (Decidable (completes a → a.staged = true →
      ∀ record ∈ plan.previous a w, ∀ manifest ∈ loadManifest it a.manifestFile,
        plan.revision ∉ lastOf (manifest.retainRevisions - 1) record.history))
  | w, (.rollback extensionId targetRevision, a) =>
    inferInstanceAs (Decidable (completes a →
      ∀ record ∈ (readState a.stateReadable w).get? extensionId,
      ∀ manifest ∈ loadManifest it a.manifestFile,
        targetRevision ∈ record.history →
          (record.history.length : ℤ) ≤ manifest.retainRevisions))
  | _, (.enable _, _) | _, (.disable _, _) | _, (.uninstall _, _) => isTrue trivial

instance (limit : String → String → ℤ) : DecidableRel (withinLimit it limit) := fun _ _ =>
  inferInstanceAs (Decidable (_ ∧ _))

end Condition

/-! ## Manifests -/

theorem eq_dict_of_object {v : Value} {d : Object} {code : String}
    (h : Extensions.object v code = .ok d) : v = .dict d := by
  cases v with
  | dict d' => rw [Except.ok.inj h]
  | _ => cases h

theorem asInt_of_boundedInt {v : Value} {least most i : ℤ} {code : String}
    (h : Extensions.boundedInt v least most code = .ok i) : asInt v = some i ∧ least ≤ i := by
  unfold Extensions.boundedInt at h
  split at h
  · cases h
  · rename_i i' hi
    split at h
    · rename_i hbounds
      obtain rfl := Except.ok.inj h
      exact ⟨hi, hbounds.1⟩
    · cases h

variable {manifest : Manifest}

/-- What is retained is what the manifest says, and something is. -/
theorem retainRevisions_of_validate {v : Value}
    (h : Extensions.validateExtensionManifest it v = .ok manifest) :
    ∃ value rollback, v = .dict value ∧ field value "rollback" = .dict rollback ∧
      asInt (field rollback "retain_revisions") = some manifest.retainRevisions ∧
      1 ≤ manifest.retainRevisions := by
  obtain ⟨value, hvalue, h⟩ := bind_eq_ok h
  -- The fields up to the type of the runtime, and those up to the schemas.
  iterate 11 obtain ⟨_, _, h⟩ := bind_eq_ok h
  dsimp only at h
  split at h
  · cases h
  iterate 6 obtain ⟨_, _, h⟩ := bind_eq_ok h
  have hrest : ∃ rollback, field value "rollback" = .dict rollback ∧
      Extensions.boundedInt (field rollback "retain_revisions") 1 10
        "extension_rollback_retention_invalid" = .ok manifest.retainRevisions := by
    split at h
    all_goals
      iterate 20 obtain ⟨_, _, h⟩ := bind_eq_ok h
      obtain ⟨rollback, hrollback, h⟩ := bind_eq_ok h
      iterate 2 obtain ⟨_, _, h⟩ := bind_eq_ok h
      obtain ⟨retain, hretain, h⟩ := bind_eq_ok h
      split at h
      all_goals
        iterate 5 obtain ⟨_, _, h⟩ := bind_eq_ok h
        obtain rfl := Except.ok.inj h
        exact ⟨rollback, eq_dict_of_object hrollback, hretain⟩
  obtain ⟨rollback, hrollback, hretain⟩ := hrest
  obtain ⟨hint, hleast⟩ := asInt_of_boundedInt hretain
  exact ⟨value, rollback, eq_dict_of_object hvalue, hrollback, hint, hleast⟩

/-- A manifest that is validated once more retains what it did. -/
theorem retainRevisions_of_json {manifest' : Manifest}
    (h : Extensions.validateExtensionManifest it manifest.json = .ok manifest') :
    manifest'.retainRevisions = manifest.retainRevisions := by
  obtain ⟨value, rollback, hvalue, hrollback, hint, -⟩ := retainRevisions_of_validate h
  obtain rfl := Value.dict.inj hvalue
  obtain rfl := Value.dict.inj hrollback
  exact (Option.some.inj hint).symm

/-- What is registered retains what the manifest does. -/
theorem retainRevisions_of_reconciled {catalog : Value} {revision : String} {r : Reconciled}
    (h : reconciled it manifest catalog revision = some r) :
    r.manifest.retainRevisions = manifest.retainRevisions := by
  obtain ⟨normalized, hvalidate, h⟩ := bind_eq_ok (toOption_eq_some h)
  iterate 3 obtain ⟨_, _, h⟩ := bind_eq_ok h
  obtain ⟨⟨tools, skills, version⟩, -, h⟩ := bind_eq_ok h
  obtain ⟨-, -, h⟩ := bind_eq_ok h
  obtain rfl := Except.ok.inj h
  have hsame := retainRevisions_of_json hvalidate
  exact hsame

theorem one_le_retainRevisions {file : Option Value} (h : loadManifest it file = some manifest) :
    1 ≤ manifest.retainRevisions := by
  obtain ⟨v, -, hv⟩ := Option.bind_eq_some_iff.mp h
  obtain ⟨-, -, -, -, -, hleast⟩ := retainRevisions_of_validate (toOption_eq_some hv)
  exact hleast

/-! ## Histories -/

theorem lastOf_sublist (retain : ℤ) (history : List String) :
    (lastOf retain history).Sublist history := List.drop_sublist _ _

theorem length_lastOf_le {retain : ℤ} (h : 0 ≤ retain) (history : List String) :
    ((lastOf retain history).length : ℤ) ≤ retain := by
  rw [lastOf, List.length_drop]
  omega

theorem lastOf_append_singleton {retain : ℤ} (h : 1 ≤ retain) (history : List String)
    (revision : String) :
    lastOf retain (history ++ [revision]) = lastOf (retain - 1) history ++ [revision] := by
  have hdrop : (history ++ [revision]).length - retain.toNat =
      history.length - (retain - 1).toNat := by
    rw [List.length_append, List.length_singleton]
    omega
  rw [lastOf, lastOf, hdrop, List.drop_append_of_le_length (Nat.sub_le _ _)]

/-- A revision that is made active by a plan is not in the history, where it is not in what stays
of the history before. -/
theorem kept_installed {plan : SourcePlan} {record : Reconciled} {ownerScope now : String}
    {previous : Option Installation} (hretain : 1 ≤ record.manifest.retainRevisions)
    (hactive : ∀ old ∈ previous, old.activeRevision ∉ old.history)
    (hnodup : ∀ old ∈ previous, old.history.Nodup)
    (hout : ∀ old ∈ previous,
      plan.revision ∉ lastOf (record.manifest.retainRevisions - 1) old.history) :
    (installed plan record ownerScope now previous).Kept record.manifest.retainRevisions := by
  cases previous with
  | none =>
    have hempty : (installed plan record ownerScope now none).history = [] := by
      simp [installed, lastOf]
    exact ⟨by simp [hempty], by simp [hempty], by rw [hempty, List.length_nil]; omega⟩
  | some old =>
    have hactive := hactive old rfl
    have hnodup := hnodup old rfl
    have hrevision : (installed plan record ownerScope now (some old)).activeRevision =
        plan.revision := rfl
    by_cases hmoved : old.activeRevision = plan.revision
    · -- the active revision is installed once more
      have hsame : (installed plan record ownerScope now (some old)).history =
          lastOf record.manifest.retainRevisions old.history := by
        simp only [installed, Option.map_some, Option.getD_some]
        rw [if_neg fun h => h.1 hmoved]
      refine ⟨?_, ?_, ?_⟩
      · rw [hrevision, hsame, ← hmoved]
        exact fun h => hactive ((lastOf_sublist _ _).subset h)
      · rw [hsame]
        exact hnodup.sublist (lastOf_sublist _ _)
      · rw [hsame]
        exact length_lastOf_le (by omega) _
    · have hadded : (installed plan record ownerScope now (some old)).history =
          lastOf record.manifest.retainRevisions (old.history ++ [old.activeRevision]) := by
        simp only [installed, Option.map_some, Option.getD_some]
        rw [if_pos ⟨hmoved, hactive⟩]
      have hnodup' : (old.history ++ [old.activeRevision]).Nodup :=
        List.nodup_append.mpr ⟨hnodup, List.nodup_singleton _, fun x hx y hy hxy => by
          rw [hxy, List.mem_singleton.mp hy] at hx
          exact hactive hx⟩
      refine ⟨?_, ?_, ?_⟩
      · rw [hrevision, hadded, lastOf_append_singleton hretain, List.mem_append,
          List.mem_singleton]
        exact fun h => h.elim (hout old rfl) fun h => hmoved h.symm
      · rw [hadded]
        exact hnodup'.sublist (lastOf_sublist _ _)
      · rw [hadded]
        exact length_lastOf_le (by omega) _

/-- Going back takes the revision out of the history and puts the active one there. -/
theorem kept_rolledBack {current : Installation} {targetRevision now : String}
    {record : Reconciled} {limit : ℤ} (h : current.Kept limit)
    (hmem : targetRevision ∈ current.history) {limit' : ℤ}
    (hroom : (current.history.length : ℤ) ≤ limit') :
    (rolledBack targetRevision now record current).Kept limit' := by
  have hother : current.activeRevision ≠ targetRevision := fun heq => h.active (heq ▸ hmem)
  refine ⟨?_, ?_, ?_⟩
  · show targetRevision ∉
      current.history.filter (· ≠ targetRevision) ++ [current.activeRevision]
    simp [hother.symm]
  · show (current.history.filter (· ≠ targetRevision) ++ [current.activeRevision]).Nodup
    refine List.nodup_append.mpr ⟨h.nodup.filter _, List.nodup_singleton _, fun x hx y hy hxy => ?_⟩
    rw [hxy, List.mem_singleton.mp hy] at hx
    exact h.active (List.mem_filter.mp hx).1
  · show ((current.history.filter (· ≠ targetRevision) ++ [current.activeRevision]).length : ℤ) ≤
      limit'
    have hfewer : (current.history.filter (· ≠ targetRevision)).length < current.history.length :=
      List.length_filter_lt_length_iff_exists.mpr ⟨targetRevision, hmem, by simp⟩
    rw [List.length_append, List.length_singleton]
    omega

/-! ## Operations -/

/-- Every installation is kept within the limit of its active revision. -/
def AllKept (limit : String → String → ℤ) (state : Installations) : Prop :=
  ∀ extensionId record, state.get? extensionId = some record →
    record.Kept (limit extensionId record.activeRevision)

section Operations

variable {limit : String → String → ℤ} {state : Installations} {extensionId : String}

theorem AllKept.set (h : AllKept limit state) {record : Installation}
    (hrecord : record.Kept (limit extensionId record.activeRevision)) :
    AllKept limit (state.set extensionId record) := by
  intro other found hfound
  rw [Dict.get?_set] at hfound
  split at hfound
  · rename_i heq
    obtain rfl := Option.some.inj hfound
    rwa [heq]
  · exact h other found hfound

theorem AllKept.erase (h : AllKept limit state) : AllKept limit (state.erase extensionId) := by
  intro other found hfound
  rw [Dict.get?_erase] at hfound
  split at hfound
  · cases hfound
  · exact h other found hfound

theorem AllKept.readState (h : AllKept limit w.lifecycle) (readable : Bool) :
    AllKept limit (readState readable w) := fun _ _ hget => h _ _ (get?_of_readState hget)

theorem AllKept.writeState (h : AllKept limit w.lifecycle)
    (hstate : a.stateWritable = true → AllKept limit state) :
    AllKept limit (writeState a state w).lifecycle := by
  unfold ExtensionLifecycle.writeState
  split
  case isTrue hwritable => exact hstate hwritable
  case isFalse => exact h

/-- A registration leaves the state, and it returns only where the adapter activates. -/
theorem activateAndRegister_lifecycle {catalog : Value} {revision : String} {w' : World}
    {r : Option Reconciled} (h : activateAndRegister it inv a manifest catalog revision w = (w', r)) :
    w'.lifecycle = w.lifecycle ∧ ∀ record ∈ r, a.activates = true ∧ a.commits = true ∧
      record.manifest.retainRevisions = manifest.retainRevisions := by
  unfold activateAndRegister at h
  split at h
  · cases h
    exact ⟨rfl, fun _ h => by cases h⟩
  · rename_i hactivates
    dsimp only at h
    split at h
    · rename_i hreturns
      cases h
      exact ⟨rfl, fun record hrecord => ⟨Bool.eq_true_of_not_eq_false hactivates,
        (Bool.and_eq_true_iff.mp hreturns).2, retainRevisions_of_reconciled hrecord⟩⟩
    · cases h
      exact ⟨rfl, fun _ h => by cases h⟩

theorem readState_congr {w' : World} (h : w'.lifecycle = w.lifecycle) (readable : Bool) :
    readState readable w' = readState readable w := by
  rw [readState, readState, h]

theorem supported_of_mayActivate {plan : SourcePlan} {previous : Option Installation}
    (h : mayActivate it a plan manifest previous = true) :
    a.supported = true := by
  cases previous with
  | none => exact (Bool.and_eq_true_iff.mp h).2
  | some previous => exact (Bool.and_eq_true_iff.mp (Bool.and_eq_true_iff.mp h).1).1

theorem supported_of_validated {record : Installation} {target : String}
    {v : Manifest × Value × String} (h : validated it a record target = some v) :
    a.supported = true := by
  unfold validated at h
  split at h
  · split at h
    · rename_i hready
      exact (Bool.and_eq_true_iff.mp hready).1
    · cases h
  · cases h

section Keeping

variable (h : AllKept limit w.lifecycle)
include h

theorem kept_activateSourcePlan {plan : SourcePlan}
    (hdeclares : declares it limit (.source plan, a))
    (hspares : sparesHistory it w (.source plan, a)) :
    AllKept limit (activateSourcePlan it inv plan a w).lifecycle := by
  unfold activateSourcePlan
  split
  · exact h
  · rename_i manifest hmanifest
    have hstaged : a.staged = true ∧ loadManifest it a.manifestFile = some manifest := by
      split at hmanifest
      case isTrue hstaged => exact ⟨hstaged, hmanifest⟩
      case isFalse => cases hmanifest
    obtain ⟨hstaged, hload⟩ := hstaged
    dsimp only
    split
    · rename_i hmay
      split
      · split
        · exact h
        · split
          · rename_i heq
            rw [(activateAndRegister_lifecycle heq).1]
            exact h
          · rename_i w' record heq
            obtain ⟨hlifecycle, hreturns⟩ := activateAndRegister_lifecycle heq
            obtain ⟨hactivates, hcommits, hretain⟩ := hreturns record rfl
            have hleast := one_le_retainRevisions hload
            have hw' : AllKept limit w'.lifecycle := by rwa [hlifecycle]
            refine hw'.writeState fun hwritable => (hw'.readState _).set ?_
            have hcompletes : completes a :=
              ⟨supported_of_mayActivate hmay, hactivates, hcommits, hwritable⟩
            rw [readState_congr hlifecycle]
            have hprevious : ∀ old ∈ plan.previous a w, ∃ old', old.Kept old' := by
              intro old hold
              rcases Option.or_eq_some_iff.mp hold with hold | ⟨-, hold⟩
              · exact ⟨_, h.readState _ _ _ hold⟩
              · exact ⟨_, h.readState _ _ _ hold⟩
            have hkept : (installed plan record plan.operatorId a.now (plan.previous a w)).Kept
                record.manifest.retainRevisions := by
              refine kept_installed (by omega) (fun old hold => ?_) (fun old hold => ?_)
                fun old hold => ?_
              · exact (hprevious old hold).choose_spec.active
              · exact (hprevious old hold).choose_spec.nodup
              · rw [hretain]
                exact hspares hcompletes hstaged old hold manifest hload
            have hlimit := hdeclares manifest hload
            exact ⟨hkept.active, hkept.nodup, hkept.length_le.trans (hretain ▸ hlimit)⟩
      · exact h
    · exact h

theorem kept_enable :
    AllKept limit (enable it inv extensionId a w).lifecycle := by
  unfold enable
  split
  case h_2 => exact h
  case h_1 =>
    split
    · exact h
    · exact h
    · split
      · exact h
      · split
        · rename_i heq
          rw [(activateAndRegister_lifecycle heq).1]
          exact h
        · rename_i w' _ heq
          have hw' : AllKept limit w'.lifecycle := by
            rwa [(activateAndRegister_lifecycle heq).1]
          dsimp only
          split
          · exact hw'
          · rename_i record hrecord
            have hkept := hw'.readState _ _ _ hrecord
            exact hw'.writeState fun _ =>
              (hw'.readState _).set ⟨hkept.active, hkept.nodup, hkept.length_le⟩

theorem kept_disable :
    AllKept limit (disable it inv extensionId a w).lifecycle := by
  unfold disable
  dsimp only
  split
  · exact h
  · rename_i record hrecord
    have hkept := h.readState _ _ _ hrecord
    split
    · exact h
    · split
      · exact h
      · split
        · rename_i w' heq
          rw [show w' = (callRegistry it inv a (.disable extensionId) w).1 by rw [heq]]
          exact h
        · rename_i w' heq
          have hw' : AllKept limit w'.lifecycle := by
            rw [show w' = (callRegistry it inv a (.disable extensionId) w).1 by rw [heq]]
            exact h
          exact hw'.writeState fun _ =>
            (h.readState _).set ⟨hkept.active, hkept.nodup, hkept.length_le⟩

theorem kept_rollback {targetRevision : String}
    (hdeclares : declares it limit (.rollback extensionId targetRevision, a))
    (hspares : sparesHistory it w (.rollback extensionId targetRevision, a)) :
    AllKept limit (rollback it inv extensionId targetRevision a w).lifecycle := by
  unfold rollback
  dsimp only
  split
  · exact h
  · rename_i current hcurrent
    split
    · exact h
    · rename_i hthere
      split
      · exact h
      · rename_i manifest catalog revision hvalidated
        split
        · rename_i heq
          rw [(activateAndRegister_lifecycle heq).1]
          exact h
        · rename_i w' record heq
          obtain ⟨hlifecycle, hreturns⟩ := activateAndRegister_lifecycle heq
          obtain ⟨hactivates, hcommits, -⟩ := hreturns record rfl
          have hload := (eq_of_validated hvalidated).1
          have hw' : AllKept limit w'.lifecycle := by rwa [hlifecycle]
          refine hw'.writeState fun hwritable => (h.readState _).set ?_
          have hcompletes : completes a :=
            ⟨supported_of_validated hvalidated, hactivates, hcommits, hwritable⟩
          have hmem : targetRevision ∈ current.history :=
            Decidable.of_not_not fun hout => hthere (.inl hout)
          have hroom := hspares hcompletes current hcurrent manifest hload hmem
          exact kept_rolledBack (h.readState _ _ _ hcurrent) hmem
            (hroom.trans (hdeclares manifest hload))

theorem kept_uninstall :
    AllKept limit (uninstall it inv extensionId a w).lifecycle := by
  unfold uninstall
  dsimp only
  split
  · exact h
  · split
    · exact h
    · split
      · rename_i w' heq
        rw [show w' = (callRegistry it inv a (.unregister extensionId) w).1 by rw [heq]]
        exact h
      · rename_i w' heq
        have hw' : AllKept limit w'.lifecycle := by
          rw [show w' = (callRegistry it inv a (.unregister extensionId) w).1 by rw [heq]]
          exact h
        split
        · exact hw'.writeState fun _ => (h.readState _).erase
        · exact hw'

theorem kept_executeOperation {operation : Operation} (hdeclares : declares it limit (operation, a))
    (hspares : sparesHistory it w (operation, a)) :
    AllKept limit (executeOperation it inv operation a w).lifecycle := by
  cases operation with
  | source plan => exact kept_activateSourcePlan h hdeclares hspares
  | enable extensionId => exact kept_enable h
  | disable extensionId => exact kept_disable h
  | rollback extensionId targetRevision => exact kept_rollback h hdeclares hspares
  | uninstall extensionId => exact kept_uninstall h

end Keeping

end Operations

/-! ## Runs -/

/-- In every run in which no plan goes to a revision that stays in the history, and nothing goes
back to a revision whose manifest has no room for the history, the active revision of an extension
is not in its history, which has no revision twice and no more than its manifest retains. -/
theorem allKept_of_spares (it : Interpreter) (inv : Inventories) (limit : String → String → ℤ)
    {w : World} (h : (manager it inv).ReachableWhere (withinLimit it limit) w) :
    AllKept limit w.lifecycle := by
  refine TransitionSystem.ReachableWhere.invariant (I := fun w => AllKept limit w.lifecycle)
    (fun w hinit extensionId record hrecord => ?_) ?_ h
  · rw [hinit.2] at hrecord
    cases hrecord
  · rintro w ⟨operation, a⟩ w' hkept ⟨hdeclares, hspares⟩ hstep
    obtain rfl := Option.some.inj hstep
    exact kept_executeOperation hkept hdeclares hspares

/-! ## Three runs -/

/-- The manifest of a web extension that retains so many revisions. -/
def retaining (retain : ℤ) : Answers :=
  { plainAnswers with
    manifestFile := match Extensions.plainManifest "notes" "save" "web" with
      | .dict d => some (.dict (Object.set d "rollback"
          (.dict [("strategy", .str "pinned_revision"), ("retain_revisions", .int retain)])))
      | _ => none }

/-- Another revision. -/
def laterRevision : String := "1111111111111111111111111111111111111111"

/-- And one more. -/
def latestRevision : String := "2222222222222222222222222222222222222222"

/-- The active revision and the history. -/
def slots (w : World) : Option (String × List String) :=
  (w.lifecycle.get? "notes").map fun record => (record.activeRevision, record.history)

/-- An extension is installed, upgraded and taken back. -/
theorem allKept_takenBack : ∃ w, (manager .plain .plain).ReachableWhere
      (withinLimit .plain fun _ _ => 2) w ∧
    slots w = some (Extensions.plainRevision, [laterRevision]) ∧
    AllKept (fun _ _ => 2) w.lifecycle := by
  obtain ⟨w, hw, hslots⟩ := TransitionSystem.exists_reachableWhere_of_exec
    (manager .plain .plain) (withinLimit .plain fun _ _ => 2) slots
    [(.source (plainPlan false Extensions.plainRevision), plainAnswers),
      (.source (plainPlan true laterRevision), plainAnswers),
      (.rollback "notes" Extensions.plainRevision, plainAnswers)]
    (v := some (Extensions.plainRevision, [laterRevision]))
    (init_nothing .plain .plain) (by decide +kernel)
  exact ⟨w, hw, hslots, allKept_of_spares .plain .plain _ hw⟩

theorem AllKept.slots {limit : String → String → ℤ} (h : AllKept limit w.lifecycle)
    {active : String} {history : List String} (hslots : slots w = some (active, history)) :
    active ∉ history ∧ (history.length : ℤ) ≤ limit "notes" active := by
  obtain ⟨record, hrecord, heq⟩ := Option.map_eq_some_iff.mp hslots
  obtain ⟨rfl, rfl⟩ := Prod.mk.inj heq
  have hkept := h "notes" record hrecord
  exact ⟨hkept.active, hkept.length_le⟩

/-- An upgrade to a revision of the history leaves it there, and going back to a revision that
retains fewer leaves more. -/
theorem not_allKept_upgraded :
    (∃ w, (manager .plain .plain).ReachableWhere (fun _ => declares .plain fun _ _ => 2) w ∧
      ¬ AllKept (fun _ _ => 2) w.lifecycle) ∧
    ∃ w, (manager .plain .plain).ReachableWhere (fun _ => declares .plain fun _ revision =>
        if revision = Extensions.plainRevision then 1 else 2) w ∧
      ¬ AllKept (fun _ revision => if revision = Extensions.plainRevision then 1 else 2)
        w.lifecycle := by
  constructor
  · obtain ⟨w, hw, hslots⟩ := TransitionSystem.exists_reachableWhere_of_exec
      (manager .plain .plain) (fun _ => declares .plain fun _ _ => 2) slots
      [(.source (plainPlan false Extensions.plainRevision), plainAnswers),
        (.source (plainPlan true laterRevision), plainAnswers),
        (.source (plainPlan true Extensions.plainRevision), plainAnswers)]
      (v := some (Extensions.plainRevision, [Extensions.plainRevision, laterRevision]))
      (init_nothing .plain .plain) (by decide +kernel)
    exact ⟨w, hw, fun h => (h.slots hslots).1 List.mem_cons_self⟩
  · obtain ⟨w, hw, hslots⟩ := TransitionSystem.exists_reachableWhere_of_exec
      (manager .plain .plain) (fun _ => declares .plain fun _ revision =>
        if revision = Extensions.plainRevision then 1 else 2) slots
      [(.source (plainPlan false Extensions.plainRevision), retaining 1),
        (.source (plainPlan true laterRevision), plainAnswers),
        (.source (plainPlan true latestRevision), plainAnswers),
        (.rollback "notes" Extensions.plainRevision, retaining 1)]
      (v := some (Extensions.plainRevision, [laterRevision, latestRevision]))
      (init_nothing .plain .plain) (by decide +kernel)
    refine ⟨w, hw, fun h => ?_⟩
    have hlength := (h.slots hslots).2
    rw [if_pos rfl] at hlength
    exact absurd hlength (by decide)

end Pandamonium.ExtensionLifecycle
