import Pandamonium.Analysis.CapabilityNames
import Pandamonium.Model.ExtensionLifecycle

/-!
# The registry and the lifecycle state

An operation writes the registry first and the state after it.  The two agree as long as nothing
fails between the two writes, no file that cannot be read is taken to be empty, and the registry
reads back what it wrote.  What is in force is compared as two maps from an extension to a source
revision, one for each file; an operation changes both at the same extension.
-/

set_option autoImplicit false

namespace Pandamonium.ExtensionLifecycle

open Pandamonium.Library
open Pandamonium.Extensions (Interpreter Inventories Manifest Records Reconciled keptOf)

variable {it : Interpreter} {inv : Inventories} {a : Answers} {w w' : World}
  {extensionId revision : String}

/-- The revision in which the records have an extension in force. -/
def inForce (records : Records) (extensionId : String) : Option String :=
  (records.get? extensionId).bind fun r => if r.enabled then some r.manifest.revision else none

/-- The revision in which the registry has an extension enabled. -/
def registered (it : Interpreter) (inv : Inventories) (w : World) (extensionId : String) :
    Option String :=
  (Extensions.read it inv w.registry).bind fun records => inForce records extensionId

/-- The active revision of an extension that the state has enabled. -/
def enabledIn (state : Installations) (extensionId : String) : Option String :=
  (state.get? extensionId).bind fun record =>
    if record.enabled then some (record.sourceRevision record.activeRevision) else none

/-- An extension is enabled in the registry exactly when the state says that it is, and then with
the active revision. -/
def Agree (it : Interpreter) (inv : Inventories) (w : World) : Prop :=
  ∀ extensionId, registered it inv w extensionId = enabledIn w.lifecycle extensionId

section Condition

variable (it inv)

/-- Every record is read back, in the revision that it has. -/
def readsBack (records : Records) : Prop :=
  ∀ item ∈ records.items,
    (keptOf it inv item.1 item.2.json).map (fun r => r.manifest.revision) =
      some item.2.manifest.revision

instance (records : Records) : Decidable (readsBack it inv records) :=
  List.decidableBAll _ _

/-- What the operation makes of the records is read back. -/
def writesReadable (operation : Extensions.Operation) (w : World) : Prop :=
  match (Extensions.read it inv w.registry).bind fun records => operation.apply it inv records with
  | none => True
  | some written => readsBack it inv written

instance (operation : Extensions.Operation) (w : World) :
    Decidable (writesReadable it inv operation w) :=
  match h : (Extensions.read it inv w.registry).bind fun records =>
      operation.apply it inv records with
  | none => isTrue (by simp only [writesReadable, h])
  | some written =>
    decidable_of_iff (readsBack it inv written) (by simp only [writesReadable, h])

/-- The registry can be read, reads back what is written, and where it is written the rest
follows. -/
def sparesCall (a : Answers) (operation : Extensions.Operation) (rest : Prop) (w : World) : Prop :=
  a.registryReadable = true ∧ writesReadable it inv operation w ∧
    (a.registryWritable = true → rest)

instance (operation : Extensions.Operation) (rest : Prop) [Decidable rest] :
    Decidable (sparesCall it inv a operation rest w) :=
  inferInstanceAs (Decidable (_ ∧ _ ∧ _))

/-- What is registered is the extension, and nothing fails after that, unless the state has the
revision already. -/
def sparesRegistration (a : Answers) (extensionId : String) (manifest : Manifest) (catalog : Value)
    (revision : String) (w : World) : Prop :=
  ((reconciled it manifest catalog revision).map fun r => r.manifest.extensionId).getD extensionId =
    extensionId ∧
  sparesCall it inv a (.register manifest.json catalog revision true)
    (a.stateReadableAgain = true ∧
      ((a.commits = true ∧ a.stateWritable = true) ∨
        enabledIn w.lifecycle extensionId = some revision)) w

instance (manifest : Manifest) (catalog : Value) :
    Decidable (sparesRegistration it inv a extensionId manifest catalog revision w) :=
  inferInstanceAs (Decidable (_ ∧ _))

/-- The source revision of a plan is not the digest of a package that was installed. -/
def unambiguous (plan : SourcePlan) (w : World) : Prop :=
  plan.packageRevision = none →
    ((w.lifecycle.get? plan.extensionId).bind fun previous =>
      previous.packageRevisions.get? plan.sourceRevision) = none

instance (plan : SourcePlan) : Decidable (unambiguous plan w) :=
  inferInstanceAs (Decidable (_ → _))

/-- Nothing fails between the two writes, and nothing that cannot be read is taken to be empty. -/
def spares (w : World) : Operation × Answers → Prop
  | (.source plan, a) =>
    unambiguous plan w ∧
    ∀ manifest ∈ loadManifest it a.manifestFile, ∀ answer ∈ a.validated,
      sparesRegistration it inv a plan.extensionId manifest answer.1 plan.sourceRevision w
  | (.enable extensionId, a) =>
    ∀ record ∈ w.lifecycle.get? extensionId,
    ∀ manifest ∈ loadManifest it a.manifestFile, ∀ answer ∈ a.validated,
      sparesRegistration it inv a extensionId manifest answer.1
        (record.sourceRevision record.activeRevision) w
  | (.disable extensionId, a) =>
    sparesCall it inv a (.disable extensionId) (a.stateWritable = true) w
  | (.rollback extensionId targetRevision, a) =>
    ∀ record ∈ w.lifecycle.get? extensionId,
    ∀ manifest ∈ loadManifest it a.manifestFile, ∀ answer ∈ a.validated,
      sparesRegistration it inv a extensionId manifest answer.1
        (record.sourceRevision targetRevision) w
  | (.uninstall extensionId, a) =>
    a.stateReadable = true ∧
    sparesCall it inv a (.unregister extensionId)
      ((a.removes = true ∧ a.stateWritable = true) ∨ enabledIn w.lifecycle extensionId = none) w

instance : DecidableRel (spares it inv)
  | w, (.source plan, a) =>
    inferInstanceAs (Decidable (unambiguous plan w ∧
      ∀ manifest ∈ loadManifest it a.manifestFile, ∀ answer ∈ a.validated,
        sparesRegistration it inv a plan.extensionId manifest answer.1 plan.sourceRevision w))
  | w, (.enable extensionId, a) =>
    inferInstanceAs (Decidable (∀ record ∈ w.lifecycle.get? extensionId,
      ∀ manifest ∈ loadManifest it a.manifestFile, ∀ answer ∈ a.validated,
        sparesRegistration it inv a extensionId manifest answer.1
          (record.sourceRevision record.activeRevision) w))
  | w, (.disable extensionId, a) =>
    inferInstanceAs (Decidable
      (sparesCall it inv a (.disable extensionId) (a.stateWritable = true) w))
  | w, (.rollback extensionId targetRevision, a) =>
    inferInstanceAs (Decidable (∀ record ∈ w.lifecycle.get? extensionId,
      ∀ manifest ∈ loadManifest it a.manifestFile, ∀ answer ∈ a.validated,
        sparesRegistration it inv a extensionId manifest answer.1
          (record.sourceRevision targetRevision) w))
  | w, (.uninstall extensionId, a) =>
    inferInstanceAs (Decidable (a.stateReadable = true ∧
      sparesCall it inv a (.unregister extensionId)
        ((a.removes = true ∧ a.stateWritable = true) ∨
          enabledIn w.lifecycle extensionId = none) w))

end Condition

/-! ## What is in force -/

theorem isSome_keepRecord {d : Records} {v : Value} (h : (keptOf it inv extensionId v).isSome) :
    (Extensions.keepRecord it inv d (extensionId, v)).isSome := by
  unfold Extensions.keepRecord
  unfold keptOf at h
  cases hread : Extensions.readRecord it inv extensionId v with
  | ok record => rfl
  | error failure =>
    rw [hread] at h
    cases h

theorem isSome_keepRecords {items : List (String × Value)}
    (h : ∀ item ∈ items, (keptOf it inv item.1 item.2).isSome) (d : Records) :
    (items.foldlM (Extensions.keepRecord it inv) d).isSome := by
  induction items generalizing d with
  | nil => rfl
  | cons item items ih =>
    obtain ⟨d', hd'⟩ :=
      Option.isSome_iff_exists.mp (isSome_keepRecord (d := d) (h item List.mem_cons_self))
    rw [List.foldlM_cons, hd']
    exact ih (fun item hitem => h item (List.mem_cons_of_mem _ hitem)) d'

variable {records : Records} {record : Installation}

/-- A file whose records are read back can be read. -/
theorem exists_read_json (h : readsBack it inv records) :
    ∃ d, Extensions.read it inv (some records.json) = some d := by
  refine Option.isSome_iff_exists.mp (isSome_keepRecords (fun item hitem => ?_) Dict.empty)
  obtain ⟨⟨id, r⟩, hr, rfl⟩ := List.mem_map.mp hitem
  obtain ⟨r', hr', -⟩ := Option.map_eq_some_iff.mp (h (id, r) hr)
  exact Option.isSome_iff_exists.mpr ⟨r', hr'⟩

/-- What is read back is in force as it was written. -/
theorem registered_json (h : readsBack it inv records) (w : World) (extensionId : String) :
    registered it inv { w with registry := some records.json } extensionId =
      inForce records extensionId := by
  obtain ⟨d, hd⟩ := exists_read_json h
  rw [registered, hd, Option.bind_some, inForce, inForce, Extensions.get?_read_json hd]
  cases hr : records.get? extensionId with
  | none => rfl
  | some r =>
    obtain ⟨r', hr', hrevision⟩ :=
      Option.map_eq_some_iff.mp (h (extensionId, r) ((records.mem_items_iff _ _).mpr hr))
    obtain ⟨henabled, -⟩ := Extensions.readRecord_json (toOption_eq_some hr')
    rw [Option.bind_some, hr', Option.bind_some, Option.bind_some, henabled, hrevision]

theorem inForce_set (records : Records) (extensionId other : String) (r : Extensions.Record) :
    inForce (records.set extensionId r) other =
      if other = extensionId then if r.enabled then some r.manifest.revision else none
      else inForce records other := by
  rw [inForce, Dict.get?_set]
  split
  · rfl
  · rfl

theorem enabledIn_set (state : Installations) (extensionId other : String)
    (record : Installation) :
    enabledIn (state.set extensionId record) other =
      if other = extensionId then
        if record.enabled then some (record.sourceRevision record.activeRevision) else none
      else enabledIn state other := by
  rw [enabledIn, Dict.get?_set]
  split
  · rfl
  · rfl

/-- The other extensions are in force as they were. -/
def SameOthers (it : Interpreter) (inv : Inventories) (extensionId : String) (after : Option String)
    (w w' : World) : Prop :=
  w'.lifecycle = w.lifecycle ∧
    ∀ other, registered it inv w' other =
      if other = extensionId then after else registered it inv w other

/-- The registry was written alone, and the state had it already. -/
theorem Agree.alone (h : Agree it inv w) {after : Option String}
    (hwritten : SameOthers it inv extensionId after w w')
    (halready : enabledIn w.lifecycle extensionId = after) : Agree it inv w' := by
  obtain ⟨hlifecycle, hregistered⟩ := hwritten
  intro other
  rw [hregistered, hlifecycle]
  split
  case isTrue hother => rw [hother, halready]
  case isFalse => exact h other

/-- The registry was written, and the state after it. -/
theorem Agree.both (h : Agree it inv w) {after : Option String}
    (hwritten : SameOthers it inv extensionId after w w') {state : Installations}
    (hstate : ∀ other, enabledIn state other =
      if other = extensionId then after else enabledIn w.lifecycle other) :
    Agree it inv { w' with lifecycle := state } := by
  intro other
  rw [hstate]
  refine (hwritten.2 other).trans ?_
  split
  · rfl
  · exact h other

/-! ## Calls of the registry -/

/-- A call leaves both files, finds nothing to do, or puts what it makes in place of the records,
and then the rest follows. -/
theorem callRegistry_cases {operation : Extensions.Operation} {rest : Prop}
    (h : sparesCall it inv a operation rest w) :
    callRegistry it inv a operation w = (w, false) ∨
    (∃ records, Extensions.read it inv w.registry = some records ∧
      operation.apply it inv records = none ∧ operation.refuses = false ∧
      callRegistry it inv a operation w = (w, true)) ∨
    ∃ records written w', Extensions.read it inv w.registry = some records ∧
      operation.apply it inv records = some written ∧ rest ∧ w'.lifecycle = w.lifecycle ∧
      (∀ other, registered it inv w' other = inForce written other) ∧
      callRegistry it inv a operation w = (w', true) := by
  obtain ⟨hreadable, hback, hrest⟩ := h
  have hcases := Extensions.perform_cases it inv w.registry
    ⟨operation, a.registryReadable, a.registryWritable⟩
  simp only [hreadable, if_true] at hcases
  unfold callRegistry
  rw [hreadable]
  rcases hcases with
    heq | ⟨records, hread, happly, hrefuses, heq⟩ | ⟨records, written, hread, happly, hwritable, heq⟩
  · rw [heq]
    exact .inl rfl
  · rw [heq]
    exact .inr (.inl ⟨records, hread, happly, hrefuses, rfl⟩)
  · rw [heq]
    have hwritten : readsBack it inv written := by
      simpa only [writesReadable, hread, Option.bind_some, happly] using hback
    exact .inr (.inr ⟨records, written, { w with registry := some written.json }, hread, happly,
      hrest hwritable, rfl, registered_json hwritten w, rfl⟩)

/-- What is registered has the revision it is registered with. -/
theorem reconciled_revision {manifest : Value} {catalog : Value} {healthAvailable : Bool}
    {r : Reconciled}
    (h : Extensions.reconcileExtensionCatalog it manifest catalog revision healthAvailable = .ok r) :
    r.manifest.revision = revision := by
  obtain ⟨normalized, -, h⟩ := bind_eq_ok h
  obtain ⟨-, -, h⟩ := bind_eq_ok h
  obtain ⟨-, -, h⟩ := bind_eq_ok h
  obtain ⟨-, -, h⟩ := bind_eq_ok h
  obtain ⟨⟨tools, skills, version⟩, -, h⟩ := bind_eq_ok h
  obtain ⟨-, -, h⟩ := bind_eq_ok h
  obtain rfl := Except.ok.inj h
  rfl

/-- Registering puts the extension in force in the revision, and what the registration returns is
there. -/
theorem inForce_register {manifest : Manifest} {catalog : Value} {written : Records}
    (h : (Extensions.Operation.register manifest.json catalog revision true).apply it inv records =
      some written) :
    ∃ r, reconciled it manifest catalog revision = some r ∧
      ∀ other, inForce written other =
        if other = r.manifest.extensionId then some revision else inForce records other := by
  obtain ⟨r, hr, h⟩ := bind_eq_ok (toOption_eq_some h)
  obtain ⟨inventory, -, h⟩ := bind_eq_ok h
  obtain ⟨-, -, h⟩ := bind_eq_ok h
  obtain rfl := Except.ok.inj h
  refine ⟨r, by rw [reconciled, hr]; rfl, fun other => ?_⟩
  rw [inForce_set, ← reconciled_revision hr]
  rfl

theorem inForce_disable {written : Records}
    (h : (Extensions.Operation.disable extensionId).apply it inv records = some written)
    (other : String) :
    inForce written other = if other = extensionId then none else inForce records other := by
  obtain ⟨r, -, rfl⟩ := Option.map_eq_some_iff.mp h
  exact inForce_set records extensionId other r.disabled

theorem inForce_unregister {written : Records}
    (h : (Extensions.Operation.unregister extensionId).apply it inv records = some written)
    (other : String) :
    inForce written other = if other = extensionId then none else inForce records other := by
  obtain ⟨r, -, rfl⟩ := Option.map_eq_some_iff.mp h
  rw [inForce, Dict.get?_erase]
  split
  · rfl
  · rfl

/-- An extension that is not in the registry is not in force. -/
theorem registered_of_absent (hread : Extensions.read it inv w.registry = some records)
    (habsent : records.get? extensionId = none) : registered it inv w extensionId = none := by
  rw [registered, hread, Option.bind_some, inForce, habsent]
  rfl

/-- A call that takes an extension out of force leaves both files, or the extension is out of force
and the rest follows unless it was so before. -/
theorem takeOut_cases {operation : Extensions.Operation} {rest : Prop}
    (h : sparesCall it inv a operation rest w)
    (habsent : ∀ {records}, operation.apply it inv records = none →
      records.get? extensionId = none)
    (hout : ∀ {records written}, operation.apply it inv records = some written →
      ∀ other, inForce written other =
        if other = extensionId then none else inForce records other) :
    callRegistry it inv a operation w = (w, false) ∨
    ∃ w', (rest ∨ registered it inv w extensionId = none) ∧
      SameOthers it inv extensionId none w w' ∧ callRegistry it inv a operation w = (w', true) := by
  rcases callRegistry_cases h with
    heq | ⟨records, hread, happly, -, heq⟩ |
      ⟨records, written, w', hread, happly, hrest, hlifecycle, hregistered, heq⟩
  · exact .inl heq
  · have hnone := registered_of_absent hread (habsent happly)
    refine .inr ⟨w, .inr hnone, ⟨rfl, fun other => ?_⟩, heq⟩
    split
    case isTrue hother => rw [hother, hnone]
    case isFalse => rfl
  · refine .inr ⟨w', .inl hrest, ⟨hlifecycle, fun other => ?_⟩, heq⟩
    rw [hregistered, hout happly other, registered, hread]
    rfl

/-- A registration leaves both files, or puts the extension in force and fails or returns. -/
theorem activateAndRegister_cases {manifest : Manifest} {catalog : Value}
    (h : sparesRegistration it inv a extensionId manifest catalog revision w) :
    activateAndRegister it inv a manifest catalog revision w = (w, none) ∨
    ∃ w' r, a.stateReadableAgain = true ∧ SameOthers it inv extensionId (some revision) w w' ∧
      ((a.commits = true ∧ activateAndRegister it inv a manifest catalog revision w = (w', some r) ∧
          (a.stateWritable = true ∨ enabledIn w.lifecycle extensionId = some revision)) ∨
        (activateAndRegister it inv a manifest catalog revision w = (w', none) ∧
          enabledIn w.lifecycle extensionId = some revision)) := by
  obtain ⟨hown, hcall⟩ := h
  unfold activateAndRegister
  cases hactivates : a.activates with
  | false => exact .inl rfl
  | true =>
    simp only [Bool.true_eq_false, if_false]
    rcases callRegistry_cases hcall with
      heq | ⟨records, -, -, hrefuses, -⟩ |
        ⟨records, written, w', hread, happly, ⟨hagain, hrest⟩, hlifecycle, hregistered, heq⟩
    · rw [heq]
      exact .inl rfl
    · cases hrefuses
    · obtain ⟨r, hr, hinForce⟩ := inForce_register happly
      rw [hr] at hown
      obtain rfl : r.manifest.extensionId = extensionId := hown
      refine .inr ⟨w', r, hagain, ⟨hlifecycle, fun other => ?_⟩, ?_⟩
      · rw [hregistered, hinForce, registered, hread]
        rfl
      · rw [heq, hr]
        cases hcommits : a.commits with
        | true => exact .inl ⟨rfl, rfl, hrest.imp And.right id⟩
        | false =>
          refine .inr ⟨rfl, hrest.resolve_left fun h => ?_⟩
          rw [hcommits] at h
          exact Bool.false_ne_true h.1

/-! ## Operations -/

theorem readState_again (h : a.stateReadableAgain = true) :
    readState a.stateReadableAgain w = w.lifecycle := by
  rw [readState, h, if_pos rfl]

/-- The state is written after a registration, or has the revision already. -/
theorem Agree.write (h : Agree it inv w) {after : Option String}
    (hwritten : SameOthers it inv extensionId after w w') {state : Installations}
    (hstate : ∀ other, enabledIn state other =
      if other = extensionId then after else enabledIn w.lifecycle other)
    (hrest : a.stateWritable = true ∨ enabledIn w.lifecycle extensionId = after) :
    Agree it inv (writeState a state w') := by
  unfold writeState
  split
  case isTrue => exact h.both hwritten hstate
  case isFalse hwritable => exact h.alone hwritten (hrest.resolve_left hwritable)

theorem enabledIn_set_enabled (state : Installations) (henabled : record.enabled = true)
    (hrevision : record.sourceRevision record.activeRevision = revision) (other : String) :
    enabledIn (state.set extensionId record) other =
      if other = extensionId then some revision else enabledIn state other := by
  rw [enabledIn_set, henabled, hrevision]
  rfl

/-- What is installed has the source revision of the plan. -/
theorem sourceRevision_installed {plan : SourcePlan} {record : Reconciled} {ownerScope now : String}
    {previous : Option Installation}
    (h : plan.packageRevision = none →
      (previous.bind fun record => record.packageRevisions.get? plan.sourceRevision) = none) :
    (installed plan record ownerScope now previous).sourceRevision
      (installed plan record ownerScope now previous).activeRevision = plan.sourceRevision := by
  cases hpackage : plan.packageRevision with
  | none =>
    have hnone := h hpackage
    cases previous with
    | none => simp [installed, Installation.sourceRevision, hpackage, Dict.get?, Dict.empty,
        Dict.find]
    | some record =>
      simp only [Option.bind_some] at hnone
      simp [installed, Installation.sourceRevision, hpackage, hnone]
  | some package => simp [installed, Installation.sourceRevision, hpackage]

theorem agree_activateSourcePlan (h : Agree it inv w) {plan : SourcePlan}
    (hspares : spares it inv w (.source plan, a)) :
    Agree it inv (activateSourcePlan it inv plan a w) := by
  obtain ⟨hunambiguous, hspares⟩ := hspares
  unfold activateSourcePlan
  split
  · exact h
  · rename_i manifest hmanifest
    have hload : loadManifest it a.manifestFile = some manifest := by
      split at hmanifest
      · exact hmanifest
      · cases hmanifest
    dsimp only
    split
    · split
      · rename_i catalog hvalidated
        split
        · exact h
        · rcases activateAndRegister_cases (hspares manifest hload _ hvalidated) with
            heq | ⟨w', r, hagain, hothers, ⟨-, heq, hrest⟩ | ⟨heq, halready⟩⟩
          · rw [heq]
            exact h
          · rw [heq]
            dsimp only
            rw [readState_again hagain, hothers.1]
            refine h.write hothers (enabledIn_set_enabled _ rfl ?_) hrest
            refine sourceRevision_installed fun hpackage => ?_
            have hnone := hunambiguous hpackage
            cases hprevious : w.lifecycle.get? plan.extensionId with
            | some previous => rwa [hprevious] at hnone
            | none =>
              -- there is no earlier record, whichever reading it is from
              unfold readState
              split
              · rw [hprevious]
                rfl
              · rfl
          · rw [heq]
            exact h.alone hothers halready
      · exact h
    · exact h

/-- A state in which an extension is found is the one of the file. -/
theorem readState_of_get? {readable : Bool}
    (h : (readState readable w).get? extensionId = some record) :
    readState readable w = w.lifecycle := by
  unfold readState at h ⊢
  split at h
  case isTrue hreadable => rw [if_pos hreadable]
  case isFalse => cases h

theorem get?_of_readState {readable : Bool}
    (h : (readState readable w).get? extensionId = some record) :
    w.lifecycle.get? extensionId = some record := by
  rwa [readState_of_get? h] at h

theorem eq_of_validated {target : String} {manifest : Manifest} {catalog : Value}
    (h : validated it a record target = some (manifest, catalog, revision)) :
    loadManifest it a.manifestFile = some manifest ∧ a.validated = some (catalog, true) ∧
      record.sourceRevision target = revision := by
  unfold validated at h
  split at h
  case h_1 manifest' catalog' hmanifest hvalidated =>
    split at h
    · cases h
      exact ⟨hmanifest, hvalidated, rfl⟩
    · cases h
  case h_2 => cases h

theorem agree_enable (h : Agree it inv w) (hspares : spares it inv w (.enable extensionId, a)) :
    Agree it inv (enable it inv extensionId a w) := by
  unfold enable
  split
  case h_2 => exact h
  case h_1 record active hrecord hactive =>
    split
    · exact h
    · exact h
    · split
      · exact h
      · rename_i manifest catalog revision hvalidated
        obtain ⟨hload, hhealthy, rfl⟩ := eq_of_validated hvalidated
        rcases activateAndRegister_cases
            (hspares record (get?_of_readState hrecord) manifest hload _ hhealthy) with
          heq | ⟨w', r, hagain, hothers, ⟨-, heq, hrest⟩ | ⟨heq, halready⟩⟩
        · rw [heq]
          exact h
        · rw [heq]
          dsimp only
          rw [readState_again hagain, hothers.1, get?_of_readState hrecord]
          exact h.write hothers (enabledIn_set_enabled _ rfl rfl) hrest
        · rw [heq]
          exact h.alone hothers halready

theorem agree_rollback (h : Agree it inv w) {targetRevision : String}
    (hspares : spares it inv w (.rollback extensionId targetRevision, a)) :
    Agree it inv (rollback it inv extensionId targetRevision a w) := by
  unfold rollback
  dsimp only
  split
  · exact h
  · rename_i current hcurrent
    split
    · exact h
    · split
      · exact h
      · rename_i manifest catalog revision hvalidated
        obtain ⟨hload, hhealthy, rfl⟩ := eq_of_validated hvalidated
        rcases activateAndRegister_cases
            (hspares current (get?_of_readState hcurrent) manifest hload _ hhealthy) with
          heq | ⟨w', r, -, hothers, ⟨-, heq, hrest⟩ | ⟨heq, halready⟩⟩
        · rw [heq]
          exact h
        · rw [heq, readState_of_get? hcurrent]
          exact h.write hothers (enabledIn_set_enabled _ rfl rfl) hrest
        · rw [heq]
          exact h.alone hothers halready

theorem enabledIn_of_get? {state : Installations} (h : state.get? extensionId = some record)
    (hdisabled : record.enabled = false) :
    enabledIn state extensionId = none := by
  rw [enabledIn, h, Option.bind_some, hdisabled]
  rfl

theorem enabledIn_of_absent {state : Installations} (h : state.get? extensionId = none) :
    enabledIn state extensionId = none := by
  rw [enabledIn, h]
  rfl

theorem enabledIn_erase (state : Installations) (extensionId other : String) :
    enabledIn (state.erase extensionId) other =
      if other = extensionId then none else enabledIn state other := by
  rw [enabledIn, Dict.get?_erase]
  split
  · rfl
  · rfl

theorem agree_disable (h : Agree it inv w) (hspares : spares it inv w (.disable extensionId, a)) :
    Agree it inv (disable it inv extensionId a w) := by
  unfold disable
  dsimp only
  split
  · exact h
  · rename_i record hrecord
    have hget := get?_of_readState hrecord
    split
    case isTrue hdisabled =>
      rcases takeOut_cases hspares Option.map_eq_none_iff.mp inForce_disable with
        heq | ⟨w', -, hothers, heq⟩
      · rw [heq]
        exact h
      · rw [heq]
        exact h.alone hothers (enabledIn_of_get? hget hdisabled)
    case isFalse =>
      split
      · exact h
      · rcases takeOut_cases hspares Option.map_eq_none_iff.mp inForce_disable with
          heq | ⟨w', hrest, hothers, heq⟩
        · rw [heq]
          exact h
        · rw [heq, readState_of_get? hrecord]
          refine h.write hothers (fun other => enabledIn_set _ _ other _) ?_
          exact hrest.imp id fun hnone => (h extensionId).symm.trans hnone

theorem agree_uninstall (h : Agree it inv w)
    (hspares : spares it inv w (.uninstall extensionId, a)) :
    Agree it inv (uninstall it inv extensionId a w) := by
  obtain ⟨hreadable, hspares⟩ := hspares
  have hread : readState a.stateReadable w = w.lifecycle := by rw [readState, hreadable, if_pos rfl]
  unfold uninstall
  rw [hread]
  dsimp only
  rcases takeOut_cases hspares Option.map_eq_none_iff.mp inForce_unregister with
    heq | ⟨w', hrest, hothers, heq⟩
  · rw [heq]
    split
    · exact h
    · split
      · exact h
      · exact h
  · rw [heq]
    split
    · rename_i habsent
      exact h.alone hothers (enabledIn_of_absent habsent)
    · split
      · exact h
      · have hout : (a.removes = true ∧ a.stateWritable = true) ∨
            enabledIn w.lifecycle extensionId = none :=
          hrest.elim id fun hnone => .inr ((h extensionId).symm.trans hnone)
        dsimp only
        split
        · exact h.write hothers (enabledIn_erase _ _) (hout.imp And.right id)
        · rename_i hstays
          exact h.alone hothers (hout.resolve_left fun hboth => hstays hboth.1)

/-- An operation in which nothing fails between the two writes keeps the agreement. -/
theorem agree_executeOperation (h : Agree it inv w) {operation : Operation}
    (hspares : spares it inv w (operation, a)) :
    Agree it inv (executeOperation it inv operation a w) := by
  cases operation with
  | source plan => exact agree_activateSourcePlan h hspares
  | enable extensionId => exact agree_enable h hspares
  | disable extensionId => exact agree_disable h hspares
  | rollback extensionId targetRevision => exact agree_rollback h hspares
  | uninstall extensionId => exact agree_uninstall h hspares

theorem agree_init (h : (manager it inv).init w) : Agree it inv w := by
  obtain ⟨hread, hstate⟩ := h
  intro extensionId
  rw [registered, hread, hstate]
  rfl

/-- In every run in which no operation fails between the two writes, the registry and the state
agree. -/
theorem agree_of_spares (it : Interpreter) (inv : Inventories) {w : World}
    (h : (manager it inv).ReachableWhere (spares it inv) w) : Agree it inv w := by
  refine TransitionSystem.ReachableWhere.invariant (fun _ => agree_init) ?_ h
  rintro w ⟨operation, a⟩ w' hagree hspares hstep
  obtain rfl := Option.some.inj hstep
  exact agree_executeOperation hagree hspares

/-! ## Two runs -/

/-- Nothing is installed. -/
def nothing : World := ⟨none, Dict.empty⟩

theorem init_nothing (it : Interpreter) (inv : Inventories) : (manager it inv).init nothing :=
  ⟨rfl, rfl⟩

/-- What the two files say about the extension. -/
def said (w : World) : Option String × Option String :=
  (registered .plain .plain w "notes", enabledIn w.lifecycle "notes")

/-- An extension is installed, and the registry cannot be written when it is to be disabled. -/
theorem agree_stillEnabled : ∃ w, (manager .plain .plain).ReachableWhere (spares .plain .plain) w ∧
    said w = (some Extensions.plainRevision, some Extensions.plainRevision) ∧ Agree .plain .plain w := by
  obtain ⟨w, hw, hsaid⟩ := TransitionSystem.exists_reachableWhere_of_exec
    (manager .plain .plain) (spares .plain .plain) said
    [(.source (plainPlan false Extensions.plainRevision), plainAnswers),
      (.disable "notes", { plainAnswers with registryWritable := false })]
    (v := (some Extensions.plainRevision, some Extensions.plainRevision))
    (init_nothing .plain .plain) (by decide +kernel)
  exact ⟨w, hw, hsaid, agree_of_spares .plain .plain hw⟩

/-- An extension is registered and the state cannot be written. -/
theorem not_agree_unwritten : ∃ w, (manager .plain .plain).Reachable w ∧
    ¬ Agree .plain .plain w := by
  obtain ⟨w, hw, hsaid⟩ := TransitionSystem.exists_reachableWhere_of_exec
    (manager .plain .plain) TransitionSystem.anyStep said
    [(.source (plainPlan false Extensions.plainRevision),
      { plainAnswers with stateWritable := false })]
    (v := (some Extensions.plainRevision, none)) (init_nothing .plain .plain)
    (by decide +kernel)
  obtain ⟨hregistered, henabled⟩ := Prod.mk.inj hsaid
  refine ⟨w, hw, fun h => ?_⟩
  have hsame := (h "notes").symm.trans hregistered
  rw [henabled] at hsame
  cases hsame

end Pandamonium.ExtensionLifecycle
