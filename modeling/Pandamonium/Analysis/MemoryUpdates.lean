import Pandamonium.Analysis.MemoryLinks

/-!
# Updates of the memory file

Nothing keeps one thread from saving the memory file between the loading and the saving of another,
and then what the first has saved is lost: a memory that was deleted is approved again
(`not_losesNoUpdate_overtaken`).  When no operation saves between another's loading and saving, the
file is what the operations make of it one after the other (`losesNoUpdate_of_undisturbed`).
-/

set_option autoImplicit false

namespace Pandamonium.MemoryManager

open Pandamonium.Library

/-- The memory that an operation deletes. -/
def Request.deletes (r : Request) : Option String :=
  match r.operation with
  | .deleteEntry memoryId _ _ => some memoryId
  | _ => none

/-- The file is what the operations that have reported success make of it in some order, and no
memory that one of them has deleted is approved. -/
structure LosesNoUpdate (w : Rewriting.World Request (List Entry) String) : Prop where
  serial : ∃ order : List Request, order.Perm w.done ∧
    Rewriting.replay Request.apply w.initial order = some w.content
  deleted : ∀ r ∈ w.done, ∀ memoryId, r.deletes = some memoryId →
    ∀ e ∈ w.content, e.id = memoryId → e.status ≠ .approved

/-- The chains are kept, with the identifiers of the operations, and what was deleted is there and
is deleted. -/
structure Kept (reserved : List String) (content : List Entry) (done : List Request) : Prop where
  linked : Linked content (done.map Request.drawn ++ reserved)
  deleted : ∀ r ∈ done, ∀ memoryId, r.deletes = some memoryId →
    ∃ e ∈ content, e.id = memoryId ∧ e.status = .deleted

/-- An operation that deletes a memory has it deleted. -/
theorem apply_deletes {entries saved : List Entry} {drawn : List String} {r : Request}
    (h : Linked entries drawn) {memoryId : String} (hdeletes : r.deletes = some memoryId)
    (hsaved : r.apply entries = some saved) : ∃ e ∈ saved, e.id = memoryId ∧ e.status = .deleted := by
  cases r with
  | mk operation now id =>
    cases operation with
    | deleteEntry memoryId' owner deletedBy =>
      obtain rfl := Option.some.inj hdeletes
      simp only [Request.apply, deleteEntry] at hsaved
      split at hsaved
      · cases hsaved
      · rename_i target hlook
        obtain ⟨-, hsaved⟩ := Option.ite_none_left_eq_some.mp hsaved
        obtain ⟨-, hsaved⟩ := Option.ite_none_left_eq_some.mp hsaved
        obtain rfl := Option.some.inj hsaved
        obtain ⟨hmem, hid⟩ := look_eq_some hlook
        rw [amend_eq_map h.distinct]
        refine ⟨_, List.mem_map_of_mem hmem, ?_⟩
        rw [changeAt, if_pos hid]
        exact ⟨hid, rfl⟩
    | replaceEntry => cases hdeletes
    | decideCandidate => cases hdeletes
    | incrementUses => cases hdeletes
    | claimOwnerless => cases hdeletes
    | pinMemory => cases hdeletes
    | addMemory => cases hdeletes

theorem preserved_kept :
    Rewriting.Preserved Request.apply Request.drawn fun _ reserved content done =>
      Kept reserved content done := by
  intro initial reserved content done r saved h hreserved hdone hsaved
  have hfresh : fresh [r.drawn] (done.map Request.drawn ++ reserved) := by
    refine ⟨List.nodup_singleton _, ?_⟩
    intro id hid hmem
    obtain rfl := List.mem_singleton.mp hid
    rcases List.mem_append.mp hmem with hmem | hmem
    · obtain ⟨r', hr', heq⟩ := List.mem_map.mp hmem
      exact hdone r' hr' heq
    · exact hreserved hmem
  refine ⟨h.linked.apply hfresh hsaved, ?_⟩
  intro r' hr' memoryId hdeletes
  rcases List.mem_cons.mp hr' with rfl | hr'
  · exact apply_deletes h.linked hdeletes hsaved
  · obtain ⟨e, he, hid, hdeleted⟩ := h.deleted r' hr' memoryId hdeletes
    obtain ⟨f, added, rfl, hsucc, -⟩ := saves_of_apply h.linked hsaved
    refine ⟨f e, List.mem_append_left _ (List.mem_map_of_mem he), ?_, hsucc.deleted e he hdeleted⟩
    rw [hsucc.id e he, hid]

/-- In every run in which no operation saves between the loading and the saving of another, no
update is lost. -/
theorem losesNoUpdate_of_undisturbed {w : Rewriting.World Request (List Entry) String}
    (hw : threads.ReachableWhere Rewriting.undisturbed w) : LosesNoUpdate w := by
  have hkept : Kept w.reserved w.content w.done :=
    Rewriting.applied (P := fun _ reserved content done => Kept reserved content done) hw
      (fun _ hlinked => ⟨hlinked, fun _ hr => absurd hr List.not_mem_nil⟩) preserved_kept
  constructor
  case serial => exact ⟨w.done, List.Perm.refl _, Rewriting.replayed hw⟩
  case deleted =>
    intro r hr memoryId hdeletes e he hid happroved
    obtain ⟨e', he', hid', hdeleted⟩ := hkept.deleted r hr memoryId hdeletes
    rw [hkept.linked.eq_of_id he he' (hid.trans hid'.symm), hdeleted] at happroved
    cases happroved

/-! ## Two threads -/

/-- A file with one memory. -/
def oneMemory : Rewriting.World Request (List Entry) String where
  initial := [teaOnly]
  content := [teaOnly]
  done := []
  attempts := Dict.empty
  reserved := ["m1"]
  taken := []

theorem started_oneMemory : threads.init oneMemory :=
  ⟨⟨rfl, rfl, fun _ => rfl, rfl⟩, linked_teaOnly⟩

/-- The memory is pinned. -/
def pin : Request where
  operation := .pinMemory "m1" (some "mira") true
  now := 1000
  drawn := "m2"

/-- The memory is deleted. -/
def delete : Request where
  operation := .deleteEntry "m1" (some "mira") "operator"
  now := 1001
  drawn := "m3"

/-- One thread pins the memory and then another deletes it. -/
def inTurn : List (Rewriting.Label Request) :=
  [.load 1 pin, .save 1, .load 2 delete, .save 2]

/-- The memory is deleted between the loading and the saving of the thread that pins it. -/
def overtaken : List (Rewriting.Label Request) :=
  [.load 1 pin, .load 2 delete, .save 2, .save 1]

theorem losesNoUpdate_inTurn : ∃ w, threads.exec Rewriting.undisturbed oneMemory inTurn = some w ∧
    w.content.map Entry.status = [.deleted] ∧ LosesNoUpdate w := by
  obtain ⟨w, hw, hstatus⟩ : ∃ w,
      threads.exec Rewriting.undisturbed oneMemory inTurn = some w ∧
      w.content.map Entry.status = [.deleted] :=
    ⟨_, rfl, rfl⟩
  exact ⟨w, hw, hstatus, losesNoUpdate_of_undisturbed
    (TransitionSystem.reachableWhere_of_exec started_oneMemory hw)⟩

/-- The memory whose deletion was reported is approved again. -/
theorem not_losesNoUpdate_overtaken : ∃ w, threads.Reachable w ∧ ¬ LosesNoUpdate w := by
  obtain ⟨w, hw, hcontent, hdone⟩ : ∃ w,
      threads.exec TransitionSystem.anyStep oneMemory overtaken = some w ∧
      w.content.map (fun e => (e.id, e.status)) = [("m1", .approved)] ∧
      w.done.map Request.deletes = [none, some "m1"] :=
    ⟨_, rfl, rfl, rfl⟩
  refine ⟨w, TransitionSystem.reachableWhere_of_exec started_oneMemory hw, ?_⟩
  intro hnone
  obtain ⟨r, hr, hdeletes⟩ : ∃ r ∈ w.done, r.deletes = some "m1" := by
    have hmem : some "m1" ∈ w.done.map Request.deletes := by simp [hdone]
    exact List.mem_map.mp hmem
  obtain ⟨e, he, heq⟩ : ∃ e ∈ w.content, (e.id, e.status) = ("m1", .approved) := by
    have hmem : ("m1", Status.approved) ∈ w.content.map fun e => (e.id, e.status) := by
      simp [hcontent]
    exact List.mem_map.mp hmem
  obtain ⟨hid, hstatus⟩ := Prod.mk.inj heq
  exact hnone.deleted r hr "m1" hdeletes e he hid hstatus

end Pandamonium.MemoryManager
