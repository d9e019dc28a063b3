import Pandamonium.Library.FailingReads
import Pandamonium.Model.TrainingDatasets

/-!
# What a reviewed dataset gives to a job

Every operation that changes the items opens the dataset to review again, so the fingerprint of a
dataset that `verified_dataset` returns covers the items it has, and none is pending.  Not every
item was reviewed, though: `add_item` makes an item `redacted` when screening removes something,
`review_dataset` asks for pending items only, and a redacted item is included
(`not_verified_unreviewed`).  `verified_of_decidedFirst` is about the runs in which no dataset is
reviewed with a redacted item that nobody has reviewed.
-/

set_option autoImplicit false

namespace Pandamonium.TrainingDatasets

open Pandamonium.Library

variable (it : Interpreter)

/-- What a job may rely on: each item it is given has been approved, none is pending, and the
fingerprint is that of the items, whose hashes are those that the review covered. -/
structure Verified (m : Manifest) (d : Dataset) (items : List Item) : Prop where
  decided : ∀ item ∈ items, item.reviewState.included = true ∧ item.decision = some .approve
  settled : ∀ item ∈ m.items, item.reviewState ≠ .pending
  covered : coverage items = d.covered
  pinned : d.fingerprint = some (computeFingerprint it items)
  hashed : ∀ item ∈ items, item.contentHash = item.content.map (contentHash it)

/-- A dataset is only reviewed when its redacted items have been. -/
def decidedFirst (m : Manifest) : Operation → Prop
  | .reviewDataset _ _ =>
    ∀ item ∈ m.items, item.reviewState = .redacted → item.reviewedAt.isSome = true
  | _ => True

instance : DecidableRel decidedFirst := by
  rintro m (_ | _ | _ | _ | _) <;> unfold decidedFirst <;> infer_instance

/-! ## Items -/

/-- Where the items behind an operation come from. -/
inductive Arises (m : Manifest) : Item → Prop
  | kept {item : Item} (h : item ∈ m.items) : Arises m item
  | added (drawn : String) (kind : SourceKind) (request : AddRequest)
      (license owner : Option String) (ref : Object) (screened : Screened) :
      Arises m (newItem it m.dataset.id drawn kind request license owner ref screened)
  | approved {item : Item} (h : item ∈ m.items) (request : ReviewRequest) (text : String)
      (redactions : List (String × ℕ)) : Arises m (item.approved it request text redactions)
  | refused {item : Item} (h : item ∈ m.items) (reason : String) : Arises m (item.refused reason)
  | leftOut {item : Item} (h : item ∈ m.items) (request : ReviewRequest) (decision : Decision)
      (state : ReviewState) (reason : Option String) (hstate : state.included = false) :
      Arises m (item.decided request decision state reason)

/-- An included item has been approved, unless it is redacted and nobody has reviewed it. -/
structure Item.Sound (item : Item) : Prop where
  decided : item.reviewState.included = true →
    (item.reviewState = .redacted → item.reviewedAt.isSome = true) → item.decision = some .approve
  hashed : item.reviewState.included = true →
    item.contentHash = item.content.map (TrainingDatasets.contentHash it)

variable {it} {m : Manifest}

theorem Arises.sound (hm : ∀ item ∈ m.items, item.Sound it) {item : Item} (h : Arises it m item) :
    item.Sound it := by
  cases h with
  | kept h => exact hm item h
  | added drawn kind request license owner ref screened =>
    refine ⟨fun hincluded hreviewed => ?_, fun _ => rfl⟩
    cases screened with
    | refused reason => cases hincluded
    | cleaned text redactions =>
      simp only [newItem, Screened.initialState] at hincluded hreviewed
      split at hincluded
      · cases hincluded
      · rename_i hne
        simp [hne] at hreviewed
  | approved h request text redactions => exact ⟨fun _ _ => rfl, fun _ => rfl⟩
  | refused h reason => exact ⟨nofun, nofun⟩
  | leftOut h request decision state reason hstate =>
    refine ⟨fun hincluded => ?_, fun hincluded => ?_⟩
    · exact absurd (hstate.symm.trans hincluded) (by decide)
    · exact absurd (hstate.symm.trans hincluded) (by decide)

theorem mem_includedItems {item : Item} :
    item ∈ includedItems m ↔ item ∈ m.items ∧ item.reviewState.included = true := by
  simp [includedItems]

/-! ## Operations -/

/-- An operation that does not raise does what it says, and else nothing changes. -/
theorem outcome_fst {P : Manifest → Prop} {e : Except TrainingDataError Manifest} (hm : P m)
    (he : ∀ m', e = .ok m' → P m') : P (outcome m e).1 := by
  cases e with
  | error e => exact hm
  | ok m' => exact he m' rfl

variable (it m) in
/-- The items are changed and the dataset is open to review again. -/
structure Reset (m' : Manifest) : Prop where
  dataset : m'.dataset = resetReviewState m.dataset
  items : ∀ item ∈ m'.items, Arises it m item

theorem reset_amend {itemId : String} {f : Item → Item}
    (hf : ∀ item ∈ m.items, Arises it m (f item)) : Reset it m (m.amend itemId f) where
  dataset := rfl
  items := by
    intro item hitem
    obtain ⟨old, hold, rfl⟩ := List.mem_map.mp hitem
    split
    · exact hf old hold
    · exact .kept hold

theorem reset_addItem (request : AddRequest) (drawn : String) :
    (addItem it request drawn m).1 = m ∨ Reset it m (addItem it request drawn m).1 := by
  refine outcome_fst (P := fun m' => m' = m ∨ Reset it m m') (.inl rfl) fun m' h => .inr ?_
  split at h
  · cases h
  · obtain ⟨license, -, h⟩ := bind_eq_ok h
    obtain ⟨-, -, h⟩ := bind_eq_ok h
    split at h
    · cases h
    · obtain ⟨⟨content, owner, ref⟩, -, h⟩ := bind_eq_ok h
      obtain ⟨screened, -, h⟩ := bind_eq_ok h
      obtain rfl := Except.ok.inj h
      refine ⟨rfl, fun item hitem => ?_⟩
      rcases List.mem_append.mp hitem with hitem | hitem
      · exact .kept hitem
      · obtain rfl := List.mem_singleton.mp hitem
        exact .added ..

theorem reset_leaveOut (request : ReviewRequest) (decision : Decision) {state : ReviewState}
    (otherwise : String) (hstate : state.included = false) :
    (leaveOut request decision state otherwise m).1 = m ∨
      Reset it m (leaveOut request decision state otherwise m).1 := by
  refine outcome_fst (P := fun m' => m' = m ∨ Reset it m m') (.inl rfl) fun m' h => .inr ?_
  cases hreason : cleanText request.reason 500 "Reason" false with
  | error e =>
    rw [hreason] at h
    cases h
  | ok reason =>
    rw [hreason] at h
    obtain rfl := Except.ok.inj h
    exact reset_amend fun item hitem => .leftOut hitem request decision state _ hstate

theorem reset_approve (request : ReviewRequest) (item : Item) :
    (approve it request item m).1 = m ∨ Reset it m (approve it request item m).1 := by
  unfold approve
  split
  · exact .inl rfl
  · exact .inl rfl
  · split
    · exact .inl rfl
    · exact .inr (reset_amend fun item hitem => .refused hitem _)
    · exact .inr (reset_amend fun item hitem => .approved hitem request _ _)

theorem reset_reviewItem (request : ReviewRequest) :
    (reviewItem it request m).1 = m ∨ Reset it m (reviewItem it request m).1 := by
  unfold reviewItem
  split
  · exact .inl rfl
  · split
    · exact .inl rfl
    · split
      · exact .inl rfl
      · split
        case h_1 => exact reset_approve request _
        case h_2 => exact reset_leaveOut request .reject _ rfl
        case h_3 => exact reset_leaveOut request .exclude _ rfl

theorem reset_removeItem (itemId : String) :
    (removeItem itemId m).1 = m ∨ Reset it m (removeItem itemId m).1 := by
  refine outcome_fst (P := fun m' => m' = m ∨ Reset it m m') (.inl rfl) fun m' h => .inr ?_
  obtain ⟨-, -, h⟩ := bind_eq_ok h
  split at h
  · cases h
  · obtain rfl := Except.ok.inj h
    exact ⟨rfl, fun item hitem => .kept (List.mem_filter.mp hitem).1⟩

/-! ## Runs -/

variable (it m) in
/-- A reviewed dataset is as its review has left it. -/
structure Sealed : Prop where
  fingerprint : m.dataset.fingerprint = some (computeFingerprint it (includedItems m))
  covered : coverage (includedItems m) = m.dataset.covered
  settled : ∀ item ∈ m.items, item.reviewState ≠ .pending
  decided : ∀ item ∈ m.items, item.reviewState.included = true → item.decision = some .approve

variable (it m) in
/-- The items are sound, and a reviewed dataset is sealed. -/
structure Kept : Prop where
  items : ∀ item ∈ m.items, item.Sound it
  sealed : m.dataset.status = .reviewed → Sealed it m

theorem Kept.reset {m' : Manifest} (h : Kept it m) (hreset : m' = m ∨ Reset it m m') :
    Kept it m' := by
  obtain rfl | hreset := hreset
  · exact h
  · refine ⟨fun item hitem => (hreset.items item hitem).sound h.items, fun hstatus => ?_⟩
    rw [hreset.dataset] at hstatus
    cases hstatus

theorem Kept.reviewDataset (h : Kept it m) (actor : Option String) (now : Int)
    (hfirst : decidedFirst m (.reviewDataset actor now)) :
    Kept it (reviewDataset it actor now m).1 := by
  refine outcome_fst h fun m' hm' => ?_
  obtain ⟨-, -, hm'⟩ := bind_eq_ok hm'
  dsimp only at hm'
  split at hm'
  · cases hm'
  · split at hm'
    · cases hm'
    · rename_i hpending _
      obtain rfl := Except.ok.inj hm'
      refine ⟨h.items, fun _ => ⟨rfl, rfl, fun item hitem hstate => hpending ?_, ?_⟩⟩
      · simp only [Bool.not_eq_true', List.isEmpty_eq_false_iff_exists_mem]
        exact ⟨item, List.mem_filter.mpr ⟨hitem, by simpa using hstate⟩⟩
      · exact fun item hitem hincluded =>
          (h.items item hitem).decided hincluded (hfirst item hitem)

theorem Kept.perform {operation : Operation} (h : Kept it m)
    (hfirst : decidedFirst m operation) : Kept it (perform it m operation).1 := by
  cases operation with
  | addItem request drawn => exact h.reset (reset_addItem request drawn)
  | reviewItem request => exact h.reset (reset_reviewItem request)
  | removeItem itemId => exact h.reset (reset_removeItem itemId)
  | reviewDataset actor now => exact h.reviewDataset actor now hfirst
  | retireDataset => exact ⟨h.items, nofun⟩

/-- In every run in which a dataset is only reviewed when its redacted items have been, what
`verified_dataset` returns is what a job may rely on. -/
theorem verified_of_decidedFirst (it : Interpreter) {m : Manifest}
    (hm : (operations it).ReachableWhere decidedFirst m) {d : Dataset} {items : List Item}
    (hreturns : verifiedDataset it m = .ok (d, items)) : Verified it m d items := by
  have hkept : Kept it m := by
    refine hm.invariant ?_ ?_
    · rintro m ⟨hitems, hdraft, -⟩
      refine ⟨fun item hitem => ?_, fun hstatus => ?_⟩
      · rw [hitems] at hitem
        cases hitem
      · rw [hdraft] at hstatus
        cases hstatus
    · intro m operation m' h hfirst hstep
      obtain ⟨-, rfl⟩ := Option.ite_none_right_eq_some.mp hstep |>.imp_right Option.some.inj
      exact h.perform hfirst
  unfold verifiedDataset at hreturns
  split at hreturns
  · cases hreturns
  · split at hreturns
    · cases hreturns
    · rename_i hreviewed _
      push Not at hreviewed
      obtain ⟨rfl, rfl⟩ := Prod.mk.inj (Except.ok.inj hreturns)
      have hsealed := hkept.sealed hreviewed.1
      constructor
      case decided =>
        intro item hitem
        obtain ⟨hmem, hincluded⟩ := mem_includedItems.mp hitem
        exact ⟨hincluded, hsealed.decided item hmem hincluded⟩
      case settled => exact hsealed.settled
      case covered => exact hsealed.covered
      case pinned => exact hsealed.fingerprint
      case hashed =>
        intro item hitem
        obtain ⟨hmem, hincluded⟩ := mem_includedItems.mp hitem
        exact (hkept.items item hmem).hashed hincluded

/-! ## A note with an address -/

/-- A dataset without items. -/
def emptyDataset : Manifest where
  dataset :=
    { id := "d1"
      status := .draft
      itemCount := 0
      fingerprint := none
      reviewedBy := none
      reviewedAt := none
      covered := [] }
  items := []

theorem created_emptyDataset : (operations Interpreter.plain).init emptyDataset :=
  ⟨rfl, rfl, rfl, rfl⟩

/-- A note is added that has an address in it. -/
def addNote : Operation :=
  .addItem
    { sourceKind := "manual"
      content := "Write to a@b.io"
      consentLicense := "own work"
      actor := some "admin"
      source := .error ⟨"not_found", "", 404⟩ }
    "i1"

/-- The note is approved. -/
def approveNote : Operation :=
  .reviewItem
    { itemId := "i1"
      decision := "approve"
      reason := ""
      actor := some "admin"
      now := 1000 }

/-- The items that `verified_dataset` returns, with their texts and the decisions about them. -/
def returned (m : Manifest) : Option (List (String × Option String × Option Decision)) :=
  (verifiedDataset Interpreter.plain m).toOption.map fun answer =>
    answer.2.map fun item => (item.id, item.content, item.decision)

theorem returned_eq_some {m : Manifest} {rows : List (String × Option String × Option Decision)}
    (h : returned m = some rows) :
    ∃ d items, verifiedDataset Interpreter.plain m = .ok (d, items) ∧
      items.map (fun item => (item.id, item.content, item.decision)) = rows := by
  unfold returned at h
  cases hanswer : verifiedDataset Interpreter.plain m with
  | error e =>
    rw [hanswer] at h
    cases h
  | ok answer =>
    rw [hanswer] at h
    exact ⟨answer.1, answer.2, rfl, Option.some.inj h⟩

/-- The note is approved before the dataset is reviewed. -/
theorem verified_approved : ∃ m d items,
    (operations Interpreter.plain).ReachableWhere decidedFirst m ∧
    verifiedDataset Interpreter.plain m = .ok (d, items) ∧
    items.map (fun item => (item.id, item.content, item.decision)) =
      [("i1", some "Write to [email]", some .approve)] ∧
    Verified Interpreter.plain m d items := by
  obtain ⟨m, hm, hreturned⟩ := TransitionSystem.exists_reachableWhere_of_exec
    (operations Interpreter.plain) decidedFirst returned
    [addNote, approveNote, .reviewDataset (some "admin") 1001]
    (v := some [("i1", some "Write to [email]", some .approve)]) created_emptyDataset
    (by decide +kernel)
  obtain ⟨d, items, hverified, hitems⟩ := returned_eq_some hreturned
  exact ⟨m, d, items, hm, hverified, hitems,
    verified_of_decidedFirst Interpreter.plain hm hverified⟩

/-- Nobody has reviewed the note when a job is given it. -/
theorem not_verified_unreviewed : ∃ m d items,
    (operations Interpreter.plain).Reachable m ∧
    verifiedDataset Interpreter.plain m = .ok (d, items) ∧
    ¬ Verified Interpreter.plain m d items := by
  obtain ⟨m, hm, hreturned⟩ := TransitionSystem.exists_reachableWhere_of_exec
    (operations Interpreter.plain) TransitionSystem.anyStep returned
    [addNote, .reviewDataset (some "admin") 1001]
    (v := some [("i1", some "Write to [email]", none)]) created_emptyDataset
    (by decide +kernel)
  obtain ⟨d, items, hverified, hitems⟩ := returned_eq_some hreturned
  refine ⟨m, d, items, hm, hverified, fun h => ?_⟩
  obtain ⟨item, hitem, heq⟩ : ∃ item ∈ items,
      (item.id, item.content, item.decision) = ("i1", some "Write to [email]", none) := by
    rw [← List.mem_map, hitems]
    exact List.mem_singleton_self _
  obtain ⟨-, heq⟩ := Prod.mk.inj heq
  obtain ⟨-, hnone⟩ := Prod.mk.inj heq
  rw [(h.decided item hitem).2] at hnone
  cases hnone

end Pandamonium.TrainingDatasets
