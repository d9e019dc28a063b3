import Pandamonium.Analysis.StagedCandidates

/-!
# Staging a manifest again, in parts, and after others

Between two stagings the memory file gains candidates, so that a later staging leaves out what
carries one of their source references and nothing else (`chosenKeys_withRefs`).
-/

set_option autoImplicit false

namespace Pandamonium.MemoryImport

open Library MemoryManager

variable {it : Interpreter} {vectors : Vectors} {draws draws' : Draws} {owner owner' : Option String}
  {entries : List Entry} {manifest manifest' : Value} {d d' : Object} {items items' : List Value}
  {known : Known} {staged : List Entry} {result : Staging}

/-- The keys of the memories that are taken for candidates. -/
def chosenKeys (it : Interpreter) (known : Known) (name : Option Value) (items : List Value) :
    List (String × Value × Option String) :=
  ((memories items).filter (chosen it known name)).map (memoryKey it known name)

theorem chosenKeys_append (name : Option Value) :
    chosenKeys it known name (items ++ items') =
      chosenKeys it known name items ++ chosenKeys it known name items' := by
  rw [chosenKeys, memories_append, List.filter_append, List.map_append]
  rfl

theorem chosenKeys_perm (name : Option Value) (h : items.Perm items') :
    (chosenKeys it known name items).Perm (chosenKeys it known name items') :=
  ((h.filterMap _).filter _).map _

/-- Source references that are gathered besides leave out the memories that carry them. -/
theorem chosenKeys_withRefs (name : Option Value) (refs : List (Option String)) :
    chosenKeys it (known.withRefs (refs.filterMap id)) name items =
      (chosenKeys it known name items).filter fun k => k.2.2 ∉ refs := by
  rw [chosenKeys, chosenKeys, List.filter_map, List.filter_filter]
  have hkey : memoryKey it (known.withRefs (refs.filterMap id)) name = memoryKey it known name :=
    funext fun item => memoryKey_known name item
  rw [hkey]
  congr 1
  refine List.filter_congr fun item _ => ?_
  rw [Bool.eq_iff_iff, chosen_withRefs, Bool.and_eq_true, and_comm]
  have hmem : (previewMemory it known name item).sourceRef ∈ refs.filterMap id ↔
      (memoryKey it known name item).2.2 ∈ refs := by
    rw [memoryKey]
    simp
  rw [hmem]
  simp

theorem filterMap_refOf (entries : List Entry) :
    entries.filterMap refOf = (entries.map refOf).filterMap id := by
  rw [List.filterMap_map]
  rfl

theorem Staged.chosenKeys_eq (h : Staged it vectors draws owner entries manifest d items staged) :
    staged.map entryKey = chosenKeys it (gather it vectors owner entries) (nameOf d) items :=
  h.keys_eq

theorem map_refOf (entries : List Entry) :
    entries.map refOf = (entries.map entryKey).map fun k => k.2.2 := by
  rw [List.map_map]
  rfl

/-- After a staging, a manifest is staged up to what carries its source references. -/
theorem Staged.chosenKeys_after
    (h : Staged it vectors draws owner entries manifest d items staged) (vectors' : Vectors)
    (name : Option Value) (items' : List Value) (owner' : Option String) :
    chosenKeys it (gather it vectors' owner' (entries ++ staged)) name items' =
      (chosenKeys it (gather it vectors' owner' entries) name items').filter
        fun k => k.2.2 ∉ staged.map refOf := by
  rw [h.gather_eq vectors' owner', filterMap_refOf, chosenKeys_withRefs]

theorem Staged.hashable (h : Staged it vectors draws owner entries manifest d items staged) :
    ∀ e ∈ staged, (e.fields.get? "source_ref").any isContainer = false := by
  intro e he
  obtain ⟨c, hmade⟩ := h.forall_made he
  exact hmade.hashable

/-! ## The laws -/

theorem nameOf_congr (h : d'.get? "source" = d.get? "source") : nameOf d' = nameOf d := by
  rw [nameOf, nameOf, sourceName, sourceName, h]

/-- The items of a manifest are shared out between two of the same source. -/
def Splits (manifest first second : Value) : Prop :=
  ∃ d items d₁ items₁ d₂ items₂, manifestItems manifest = .ok (d, items) ∧
    manifestItems first = .ok (d₁, items₁) ∧ manifestItems second = .ok (d₂, items₂) ∧
    d₁.get? "source" = d.get? "source" ∧ d₂.get? "source" = d.get? "source" ∧
    items.Perm (items₁ ++ items₂)

/-- A second staging leaves out all that the first one has staged. -/
theorem Staged.exists_again (h : Staged it vectors draws owner entries manifest d items staged)
    (draws' : Draws) :
    ∃ again, stageManifest it vectors draws' owner (entries ++ staged) manifest = .ok again ∧
      again.staged = [] := by
  obtain ⟨later, hlater⟩ := h.exists_later (h.gather_eq vectors owner) h.hashable draws'
  obtain ⟨again, hagain, rfl⟩ := hlater.exists_result
  refine ⟨again, hagain, ?_⟩
  have hkeys := hlater.chosenKeys_eq
  rw [h.chosenKeys_after, ← h.chosenKeys_eq] at hkeys
  have hnone : (staged.map entryKey).filter (fun k => k.2.2 ∉ staged.map refOf) = [] := by
    rw [List.filter_eq_nil_iff]
    intro k hk
    rw [map_refOf]
    simpa using List.mem_map_of_mem (f := fun k => k.2.2) hk
  rw [hnone] at hkeys
  exact List.map_eq_nil_iff.mp hkeys

/-- Of two parts the first is staged as it would be in the whole, the second up to the source
references of the first. -/
theorem exists_rest {m₁ m₂ : Value} {draws₁ draws₂ : Draws} {first second : Staging}
    (h : Staged it vectors draws owner entries manifest d items staged)
    (hsplits : Splits manifest m₁ m₂)
    (hfirst : stageManifest it vectors draws₁ owner entries m₁ = .ok first)
    (hsecond : stageManifest it vectors draws₂ owner first.entries m₂ = .ok second) :
    ∃ rest, (staged.map entryKey).Perm (first.staged.map entryKey ++ rest) ∧
      second.staged.map entryKey = rest.filter fun k => k.2.2 ∉ first.staged.map refOf := by
  obtain ⟨dw, itemsw, d₁', items₁', d₂', items₂', hwhole, hshape₁, hshape₂, hsource₁, hsource₂,
    hperm⟩ := hsplits
  obtain ⟨hentries, d₁, items₁, hstaged₁⟩ := of_stageManifest hfirst
  obtain ⟨-, d₂, items₂, hstaged₂⟩ := of_stageManifest hsecond
  obtain ⟨rfl, rfl⟩ := Prod.mk.inj (Except.ok.inj (hwhole.symm.trans h.preview.shape))
  obtain ⟨rfl, rfl⟩ := Prod.mk.inj (Except.ok.inj (hshape₁.symm.trans hstaged₁.preview.shape))
  obtain ⟨rfl, rfl⟩ := Prod.mk.inj (Except.ok.inj (hshape₂.symm.trans hstaged₂.preview.shape))
  refine ⟨chosenKeys it (gather it vectors owner entries) (nameOf dw) items₂', ?_, ?_⟩
  · rw [h.chosenKeys_eq, hstaged₁.chosenKeys_eq, nameOf_congr hsource₁, ← chosenKeys_append]
    exact chosenKeys_perm _ hperm
  · rw [hstaged₂.chosenKeys_eq, hentries, hstaged₁.chosenKeys_after, nameOf_congr hsource₂]

/-- What is staged is no approved memory of its owner, and its source reference is new. -/
theorem Staged.new_of_mem (h : Staged it vectors draws owner entries manifest d items staged)
    {e : Entry} (he : e ∈ staged) :
    (∀ a ∈ approvedOf owner entries, it.casefold (strip a.text) ≠ it.casefold e.text) ∧
      refOf e ∉ entries.map refOf := by
  have hkey : entryKey e ∈ staged.map entryKey := List.mem_map_of_mem he
  rw [h.chosenKeys_eq, chosenKeys] at hkey
  obtain ⟨item, hitem, heq⟩ := List.mem_map.mp hkey
  obtain ⟨href, -, htext, -⟩ := chosen_iff.mp (List.mem_filter.mp hitem).2
  obtain ⟨heqText, -, heqRef⟩ : _ = e.text ∧ _ = e.category ∧ some _ = refOf e := by
    simpa [memoryKey, entryKey] using heq
  constructor
  · intro a ha hsame
    refine htext (List.mem_map.mpr ⟨a, ha, ?_⟩)
    rw [hsame, ← heqText]
  · intro hold
    obtain ⟨a, ha, hrefs⟩ := List.mem_map.mp hold
    refine href (List.mem_filterMap.mpr ⟨a, ha, ?_⟩)
    rw [hrefs, ← heqRef]

/-- An earlier staging that shares no source reference makes no difference. -/
theorem Staged.exists_after {vectors' : Vectors} {earlier : List Entry}
    (h : Staged it vectors draws owner entries manifest d items staged)
    (hearlier : Staged it vectors' draws' owner' entries manifest' d' items' earlier)
    (hrefs : ∀ e ∈ staged, refOf e ∉ earlier.map refOf) (draws'' : Draws) :
    ∃ later, stageManifest it vectors draws'' owner (entries ++ earlier) manifest = .ok later ∧
      later.staged.map entryKey = staged.map entryKey := by
  obtain ⟨staged', hlater⟩ :=
    h.exists_later (hearlier.gather_eq vectors owner) hearlier.hashable draws''
  obtain ⟨later, hresult, rfl⟩ := hlater.exists_result
  refine ⟨later, hresult, ?_⟩
  rw [hlater.chosenKeys_eq, hearlier.chosenKeys_after, ← h.chosenKeys_eq, List.filter_eq_self]
  intro k hk
  obtain ⟨e, he, rfl⟩ := List.mem_map.mp hk
  exact decide_eq_true (hrefs e he)

/-- ASCII texts, no dates. -/
def Interpreter.plain : Interpreter where
  runtime := .plain
  casefold := Runtime.plain.lower
  timestamp := fun _ => .error (.value "Invalid isoformat string")
  zoned := id
  truncate := fun _ => .error .overflow
  sameKey := fun k k' => k.text .plain == k'.text .plain

def Draws.zero : Draws := ⟨fun _ => 0, fun _ => "0"⟩

def memoryItem (id text thread : String) : Value :=
  .dict [("kind", .str "memory"), ("id", .str id), ("text", .str text),
    ("metadata", .dict [("source_thread_id", .str thread)])]

def manifestOf (items : List Value) : Value :=
  .dict [("schema_version", .str schemaVersion), ("items", .list items)]

/-- The memory file after some items have been staged. -/
def fileAfter (owner : String) (entries : List Entry) (items : List Value) : List Entry :=
  match stageManifest .plain none .zero (some owner) entries (manifestOf items) with
  | .ok result => result.entries
  | .error _ => entries

/-- The texts in a memory file. -/
def texts (entries : List Entry) : List String := entries.map Entry.text

end Pandamonium.MemoryImport
