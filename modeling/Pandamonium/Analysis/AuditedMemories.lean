import Pandamonium.Analysis.MemoryAudits

/-!
# What an audit leaves of the memories

The guard of an audit counts the items that the reply returns.  A memory is left when the reply says
something about it (`left_iff`), and two items can be about the same one: four items about one of
eight memories pass the guard, and the other seven are rejected (`not_keepsEnough_oneRepeated`).
What is saved keeps enough when the reply is about half of the memories (`keepsEnough_iff`).
-/

set_option autoImplicit false

namespace Pandamonium.MemoryManager

open Pandamonium.Library

/-- `entry["superseded_by"]` -/
def Entry.successor (e : Entry) : Option String :=
  match e.fields.get? "superseded_by" with
  | some (.str id) => some id
  | _ => none

/-- The memory is approved, or superseded by one that is. -/
def Left (saved : List Entry) (id : String) : Prop :=
  ∃ m ∈ saved, m.id = id ∧
    (m.status = .approved ∨
      m.status = .superseded ∧ ∃ r ∈ saved, m.successor = some r.id ∧ r.status = .approved)

instance (saved : List Entry) (id : String) : Decidable (Left saved id) :=
  inferInstanceAs (Decidable (∃ _ ∈ _, _))

/-- How many of the memories are left. -/
def leftOf (existing saved : List Entry) : ℕ := existing.countP fun e => Left saved e.id

/-- Of eight memories or more at least half are left, and of one or more at least one. -/
def KeepsEnough (existing saved : List Entry) : Prop :=
  (8 ≤ existing.length → existing.length ≤ 2 * leftOf existing saved) ∧
    (1 ≤ existing.length → 1 ≤ leftOf existing saved)

instance (existing saved : List Entry) : Decidable (KeepsEnough existing saved) :=
  inferInstanceAs (Decidable (_ ∧ _))

/-- An item of a reply says something about the memory. -/
def mentions (id : String) : Value → Bool
  | .dict item =>
    (match Object.get? item "text" with
      | some (.str text) => strip text ≠ ""
      | _ => false) &&
    (match (Object.get? item "id").getD (.str "") with
      | .str mid => mid = id
      | _ => false)
  | _ => false

/-- The reply says something about half of the memories. -/
def MentionsHalf (existing : List Entry) (items : List (Value × String)) : Prop :=
  existing.length ≤ 2 * existing.countP fun e => items.any fun item => mentions e.id item.1

instance (existing : List Entry) (items : List (Value × String)) :
    Decidable (MentionsHalf existing items) :=
  inferInstanceAs (Decidable (_ ≤ _))

/-! ## What the reply mentions -/

theorem originalsOf_isSome {existing : List Entry} {e : Entry} (he : e ∈ existing) :
    ((originalsOf existing).get? e.id).isSome := by
  have hmem : e ∈ existing.filter fun original => original.id = e.id := by simpa using he
  rw [originalsOf, Dict.get?_foldl_keyed, Option.isSome_or,
    List.getLast?_isSome.mpr (List.ne_nil_of_mem hmem), Bool.true_or]

theorem named_dict {existing : List Entry} {item : Object} {text drawn mid : String}
    (htext : Object.get? item "text" = some (.str text)) (hblank : strip text ≠ "") :
    named (originalsOf existing) (.dict item, drawn) = some mid ↔
      (Object.get? item "id").getD (.str "") = .str mid ∧
        ((originalsOf existing).get? mid).isSome := by
  unfold named readItem
  simp only [htext, Option.getD_some, if_neg hblank]
  cases hid : (Object.get? item "id").getD (.str "") with
  | str m =>
    simp only [Value.str.injEq]
    cases hget : (originalsOf existing).get? m with
    | none =>
      constructor
      · intro h
        cases h
      · rintro ⟨rfl, hsome⟩
        rw [hget] at hsome
        cases hsome
    | some original =>
      obtain ⟨-, rfl⟩ := originalsOf_get? hget
      constructor
      · intro h
        obtain rfl := Option.some.inj h
        exact ⟨rfl, by rw [hget]; rfl⟩
      · rintro ⟨rfl, -⟩
        rfl
  | _ => simp

/-- An item that is about a memory mentions it. -/
theorem named_eq_some_iff {existing : List Entry} {item : Value × String} {mid : String} :
    named (originalsOf existing) item = some mid ↔
      mentions mid item.1 ∧ ((originalsOf existing).get? mid).isSome := by
  obtain ⟨item, drawn⟩ := item
  cases item with
  | dict item =>
    cases htext : Object.get? item "text" with
    | none => simp [named, readItem, mentions, htext]
    | some text =>
      cases text with
      | str text =>
        by_cases hblank : strip text = ""
        · simp [named, readItem, mentions, htext, hblank]
        · rw [named_dict htext hblank]
          apply and_congr_left
          intro _
          simp only [mentions, htext]
          cases (Object.get? item "id").getD (.str "") <;> simp [hblank]
      | _ => simp [named, readItem, mentions, htext]
  | _ => simp [named, readItem, mentions]

theorem mem_named_iff {existing : List Entry} {items : List (Value × String)} {e : Entry}
    (he : e ∈ existing) :
    e.id ∈ items.filterMap (named (originalsOf existing)) ↔
      items.any fun item => mentions e.id item.1 := by
  simp only [List.mem_filterMap, named_eq_some_iff, originalsOf_isSome he, and_true,
    List.any_eq_true]

/-! ## The loop over the items -/

/-- What replaces a memory is an approved one, and one entry is kept an item that is about a
memory. -/
structure Backed (s : Audit) : Prop where
  replaced : ∀ mid id, s.transitions.get? mid = some (.superseded id) →
    ∃ r ∈ s.replacements, r.id = id ∧ r.status = .approved
  counted : s.finalEntries.length = s.returnedIds.length

theorem Backed.item {originals : Dict String Entry} {now : Int} {s s' : Audit} (h : Backed s)
    {item : Value × String} (hitem : auditItem originals now s item = some s') : Backed s' := by
  unfold auditItem at hitem
  split at hitem
  · cases hitem
  · obtain rfl := Option.some.inj hitem
    exact h
  · rename_i original text category hread
    split at hitem
    · obtain ⟨replacement, hreplacement, rfl⟩ := Option.map_eq_some_iff.mp hitem
      obtain ⟨-, -, hstatus⟩ := auditReplacement_eq_some hreplacement
      constructor
      case counted => simp [h.counted]
      case replaced =>
        intro mid id hget
        simp only [Dict.get?_set] at hget
        split at hget
        · cases hget
          exact ⟨replacement, by simp, rfl, hstatus⟩
        · obtain ⟨r, hr, hid⟩ := h.replaced mid id hget
          exact ⟨r, List.mem_append_left _ hr, hid⟩
    · obtain rfl := Option.some.inj hitem
      exact ⟨h.replaced, by simp [h.counted]⟩

theorem backed_of_auditItems {existing : List Entry} {now : Int} {items : List (Value × String)}
    {s : Audit} (h : auditItems existing now items = some s) : Backed s := by
  have hrun : ∀ (items : List (Value × String)) (s₀ : Audit), Backed s₀ →
      items.foldlM (auditItem (originalsOf existing) now) s₀ = some s → Backed s := by
    intro items
    induction items with
    | nil =>
      intro s₀ hs₀ hfold
      obtain rfl := Option.some.inj hfold
      exact hs₀
    | cons item items ih =>
      intro s₀ hs₀ hfold
      rw [List.foldlM_cons] at hfold
      obtain ⟨s₁, hitem, hrest⟩ := Option.bind_eq_some_iff.mp hfold
      exact ih s₁ (hs₀.item hitem) hrest
  refine hrun items _ ⟨?_, rfl⟩ h
  intro mid id hget
  cases hget

/-! ## What is saved -/

section Saved

variable {existing later : List Entry} {items : List (Value × String)} {now : Int} {s : Audit}

/-- A memory that is still approved is left when the reply says something about it. -/
theorem left_iff (hitems : auditItems existing now items = some s)
    (hdrawn : ∀ item ∈ items, ∀ e ∈ existing, item.2 ≠ e.id) {e : Entry} (he : e ∈ existing)
    (hlater : ∃ m ∈ later, m.id = e.id ∧ m.status = .approved) :
    Left (later.map (transit now (rejectMissing existing s)) ++ s.replacements) e.id ↔
      items.any fun item => mentions e.id item.1 := by
  have hcollected := collected_of_auditItems hitems
  have hget := rejectMissing_get? existing s e.id
  rw [hcollected.returned, ← mem_named_iff he] at *
  constructor
  · rintro ⟨m, hm, hid, hstatus⟩
    by_contra hmissing
    rw [if_pos ⟨⟨e, he, rfl⟩, hmissing⟩] at hget
    rcases List.mem_append.mp hm with hm | hm
    · obtain ⟨m, -, rfl⟩ := List.mem_map.mp hm
      rw [transit_id] at hid
      have hrejected : (transit now (rejectMissing existing s) m).status = .rejected := by
        simp only [transit, hid, hget]
      rw [hrejected] at hstatus
      rcases hstatus with hstatus | ⟨hstatus, -⟩ <;> cases hstatus
    · have hmem := hcollected.ids.subset (List.mem_map_of_mem hm)
      obtain ⟨item, hitem, heq⟩ := List.mem_map.mp hmem
      exact hdrawn item hitem e he (heq.trans hid)
  · intro hreturned
    obtain ⟨m, hm, hid, happroved⟩ := hlater
    rw [if_neg fun hmissing => hmissing.2 hreturned] at hget
    refine ⟨transit now (rejectMissing existing s) m,
      List.mem_append_left _ (List.mem_map_of_mem hm), (transit_id _ m).trans hid, ?_⟩
    cases htransition : s.transitions.get? e.id with
    | none =>
      left
      rwa [transit_eq (by rw [hid, hget, htransition])]
    | some transition =>
      cases transition with
      | rejected => exact absurd htransition (hcollected.superseded e.id)
      | superseded id =>
        right
        obtain ⟨r, hr, rfl, hstatus⟩ := (backed_of_auditItems hitems).replaced e.id id htransition
        have htransit : transit now (rejectMissing existing s) m = supersededBy r.id now m := by
          simp only [transit, hid, hget, htransition]
        rw [htransit]
        refine ⟨rfl, r, List.mem_append_right _ hr, ?_, hstatus⟩
        simp [Entry.successor, supersededBy, Object.get?_set]

/-- The guard lets no reply through that is about none of the memories. -/
theorem exists_mentioned (hitems : auditItems existing now items = some s)
    (hsafe : ¬ unsafeRemoval existing.length s.finalEntries.length) (hsome : 1 ≤ existing.length) :
    ∃ e ∈ existing, items.any fun item => mentions e.id item.1 := by
  have hreturned : s.returnedIds ≠ [] := by
    intro hnil
    apply hsafe
    simp [unsafeRemoval, (backed_of_auditItems hitems).counted, hnil, hsome]
  obtain ⟨mid, hmid⟩ := List.exists_mem_of_ne_nil _ hreturned
  rw [(collected_of_auditItems hitems).returned] at hmid
  obtain ⟨item, hitem, hnamed⟩ := List.mem_filterMap.mp hmid
  obtain ⟨original, horiginal⟩ := Option.isSome_iff_exists.mp (named_eq_some_iff.mp hnamed).2
  obtain ⟨hmem, rfl⟩ := originalsOf_get? horiginal
  exact ⟨original, hmem, (mem_named_iff hmem).mp (List.mem_filterMap.mpr ⟨item, hitem, hnamed⟩)⟩

end Saved

/-- An audit that saves keeps enough of the memories exactly when they are fewer than eight or its
reply is about half of them. -/
theorem keepsEnough_iff {owner : Option String} {entries later saved finalEntries : List Entry}
    {items : List (Value × String)} {now : Int}
    (hsaves : applyReply (approvedOf owner entries) now items later = some (saved, finalEntries))
    (hdrawn : ∀ item ∈ items, ∀ e ∈ approvedOf owner entries, item.2 ≠ e.id)
    (hlater : ∀ e ∈ approvedOf owner entries, ∃ m ∈ later, m.id = e.id ∧ m.status = .approved) :
    KeepsEnough (approvedOf owner entries) saved ↔
      (8 ≤ (approvedOf owner entries).length → MentionsHalf (approvedOf owner entries) items) := by
  obtain ⟨s, hitems, hsafe, rfl⟩ := applyReply_eq_some hsaves
  have hleft : leftOf (approvedOf owner entries)
      (later.map (transit now (rejectMissing (approvedOf owner entries) s)) ++ s.replacements) =
        (approvedOf owner entries).countP fun e => items.any fun item => mentions e.id item.1 := by
    apply List.countP_congr
    intro e he
    rw [decide_eq_true_iff]
    exact left_iff hitems hdrawn he (hlater e he)
  unfold KeepsEnough MentionsHalf
  rw [hleft]
  refine and_iff_left ?_
  intro hsome
  exact List.countP_pos_iff.mpr (exists_mentioned hitems hsafe hsome)

/-! ## Replies about eight memories -/

/-- Eight approved memories. -/
def eightMemories : List Entry :=
  ["m1", "m2", "m3", "m4", "m5", "m6", "m7", "m8"].map fun id => { teaOnly with id := id }

/-- Four of the memories are returned as they are. -/
def fourReturned : List (Value × String) :=
  ["m1", "m2", "m3", "m4"].map fun id =>
    (.dict [("id", .str id), ("text", .str "Likes tea")], "new" ++ id)

/-- One of the memories is returned four times. -/
def oneRepeated : List (Value × String) :=
  ["new1", "new2", "new3", "new4"].map fun drawn =>
    (.dict [("id", .str "m1"), ("text", .str "Likes tea")], drawn)

theorem keepsEnough_fourReturned : ∃ saved finalEntries,
    applyReply (approvedOf none eightMemories) 2000 fourReturned eightMemories =
        some (saved, finalEntries) ∧
      KeepsEnough (approvedOf none eightMemories) saved := by
  have hsome : (applyReply (approvedOf none eightMemories) 2000 fourReturned
      eightMemories).isSome := by decide +kernel
  obtain ⟨⟨saved, finalEntries⟩, hsaves⟩ := Option.isSome_iff_exists.mp hsome
  refine ⟨saved, finalEntries, hsaves, ?_⟩
  exact (keepsEnough_iff hsaves (by decide +kernel) (by decide +kernel)).mpr
    fun _ => by decide +kernel

/-- Seven of eight memories are rejected. -/
theorem not_keepsEnough_oneRepeated : ∃ saved finalEntries,
    applyReply (approvedOf none eightMemories) 2000 oneRepeated eightMemories =
        some (saved, finalEntries) ∧
      (approvedOf none eightMemories).length = 8 ∧
      saved.map Entry.status = .approved :: List.replicate 7 .rejected ∧
      ¬ KeepsEnough (approvedOf none eightMemories) saved := by
  have hsome : (applyReply (approvedOf none eightMemories) 2000 oneRepeated
      eightMemories).map (fun p => (p.1.map Entry.status,
        decide (KeepsEnough (approvedOf none eightMemories) p.1))) =
      some (.approved :: List.replicate 7 .rejected, false) := by decide +kernel
  obtain ⟨⟨saved, finalEntries⟩, hsaves, heq⟩ := Option.map_eq_some_iff.mp hsome
  obtain ⟨hstatus, hkeeps⟩ := Prod.mk.inj heq
  exact ⟨saved, finalEntries, hsaves, by decide +kernel, hstatus, of_decide_eq_false hkeeps⟩

end Pandamonium.MemoryManager
