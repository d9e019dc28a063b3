import Pandamonium.Model.MigrationStaging
import Pandamonium.Analysis.MarkedTexts

/-!
# What the staging of a manifest adds

A memory of a manifest is chosen by its text and its source reference alone, against what was
gathered from the memory file before (`chosen`).  Staging adds the chosen memories as candidates, so
that it changes nothing of what is gathered but the source references (`gather_staged`).
-/

set_option autoImplicit false

namespace Pandamonium.MemoryImport

open Library MemoryManager

variable {it : Interpreter} {vectors : Vectors} {draws draws' : Draws} {owner owner' : Option String}
  {entries : List Entry} {manifest manifest' : Value} {d d' : Object} {items items' : List Value}
  {known known' : Known} {candidates : List Candidate} {staged : List Entry} {result : Staging}

/-! ## The preview -/

/-- The memories among the items. -/
def memories (items : List Value) : List Object :=
  items.filterMap fun
    | .dict item => if isMemory item then some item else none
    | _ => none

/-- The name of the source, where it can be looked up. -/
def nameOf (d : Object) : Option Value :=
  match sourceName d with
  | .ok name => name
  | .error _ => none

theorem memories_append (items items' : List Value) :
    memories (items ++ items') = memories items ++ memories items' :=
  List.filterMap_append

theorem previewItems_eq (h : previewItems it known d items = .ok candidates) :
    candidates = (memories items).map (previewMemory it known (nameOf d)) := by
  induction items generalizing candidates with
  | nil =>
    cases h
    rfl
  | cons item items ih =>
    cases item with
    | dict item =>
      rw [previewItems] at h
      split at h
      · rename_i hmemory
        split at h
        · cases h
        · rename_i name hname
          split at h
          · cases h
          · rename_i later hlater
            cases h
            have hmemories : memories (.dict item :: items) = item :: memories items := by
              simp [memories, hmemory]
            rw [hmemories, List.map_cons, ih hlater, nameOf, hname]
      · rename_i hmemory
        split at h
        · cases h
        · have hmemories : memories (.dict item :: items) = memories items := by
            simp [memories, hmemory]
          rw [hmemories]
          exact ih h
    | _ => exact ih h

/-- Whether the preview fails does not depend on the memory file. -/
theorem previewItems_ok (h : previewItems it known d items = .ok candidates) (known' : Known) :
    ∃ candidates', previewItems it known' d items = .ok candidates' := by
  induction items generalizing candidates with
  | nil => exact ⟨[], rfl⟩
  | cons item items ih =>
    cases item with
    | dict item =>
      rw [previewItems] at h ⊢
      split at h
      · rename_i hmemory
        rw [if_pos hmemory]
        split at h
        · cases h
        · split at h
          · cases h
          · rename_i later hlater
            obtain ⟨later', hlater'⟩ := ih hlater
            exact ⟨_, by rw [hlater']⟩
      · rename_i hmemory
        rw [if_neg hmemory]
        split at h
        · cases h
        · rename_i hkind
          rw [if_neg hkind]
          exact ih h
    | _ => exact ih h

/-- A preview that has been made. -/
structure Previewed (it : Interpreter) (vectors : Vectors) (owner : Option String)
    (entries : List Entry) (manifest : Value) (candidates : List Candidate) (d : Object)
    (items : List Value) : Prop where
  shape : manifestItems manifest = .ok (d, items)
  hashable : (entries.any fun e => (e.fields.get? "source_ref").any isContainer) = false
  previewed : previewItems it (gather it vectors owner entries) d items = .ok candidates
  warned : ∃ ws, warnings d = .ok ws

theorem of_previewManifest {preview : Preview}
    (h : previewManifest it vectors owner entries manifest = .ok preview) :
    ∃ d items, Previewed it vectors owner entries manifest preview.candidates d items := by
  rw [previewManifest] at h
  split at h
  · cases h
  · rename_i d items hshape
    split at h
    · cases h
    · rename_i hhash
      split at h
      · cases h
      · cases h
      · rename_i candidates ws hpreview hwarn
        cases h
        exact ⟨d, items, hshape, Bool.eq_false_iff.mpr hhash, hpreview, ws, hwarn⟩

theorem Previewed.exists_preview
    (h : Previewed it vectors owner entries manifest candidates d items) :
    ∃ preview, previewManifest it vectors owner entries manifest = .ok preview ∧
      preview.candidates = candidates := by
  obtain ⟨ws, hwarn⟩ := h.warned
  rw [previewManifest, h.shape]
  simp only [h.hashable, h.previewed, hwarn, if_false, Bool.false_eq_true]
  exact ⟨_, rfl, rfl⟩

/-! ## Staging -/

/-- A staging that has succeeded. -/
structure Staged (it : Interpreter) (vectors : Vectors) (draws : Draws) (owner : Option String)
    (entries : List Entry) (manifest : Value) (d : Object) (items : List Value)
    (staged : List Entry) : Prop where
  preview : Previewed it vectors owner entries manifest
    ((memories items).map (previewMemory it (gather it vectors owner entries) (nameOf d))) d items
  ids : items.any badId = false
  made : stageCandidates it draws owner items 0
    ((memories items).map (previewMemory it (gather it vectors owner entries) (nameOf d))) =
      .ok staged

theorem of_stageManifest (h : stageManifest it vectors draws owner entries manifest = .ok result) :
    result.entries = entries ++ result.staged ∧
      ∃ d items, Staged it vectors draws owner entries manifest d items result.staged := by
  rw [stageManifest] at h
  split at h
  · cases h
  · cases h
  · rename_i preview d items hpreview hshape
    split at h
    · cases h
    · rename_i hids
      split at h
      · cases h
      · rename_i staged hstaged
        cases h
        obtain ⟨d', items', hpreviewed⟩ := of_previewManifest hpreview
        obtain ⟨rfl, rfl⟩ := Prod.mk.inj (Except.ok.inj (hpreviewed.shape.symm.trans hshape))
        have hcandidates := previewItems_eq hpreviewed.previewed
        rw [hcandidates] at hpreviewed hstaged
        exact ⟨rfl, d', items', hpreviewed, Bool.eq_false_iff.mpr hids, hstaged⟩

theorem Staged.exists_result
    (h : Staged it vectors draws owner entries manifest d items staged) :
    ∃ result, stageManifest it vectors draws owner entries manifest = .ok result ∧
      result.staged = staged := by
  obtain ⟨preview, hpreview, hcandidates⟩ := h.preview.exists_preview
  rw [stageManifest, hpreview, h.preview.shape]
  simp only [h.ids, hcandidates, h.made, if_false, Bool.false_eq_true]
  exact ⟨_, rfl, rfl⟩

/-- The entry that is made for a candidate. -/
structure Made (owner : Option String) (c : Candidate) (e : Entry) : Prop where
  text : e.text = strip c.text
  category : e.category = c.category
  ref : refOf e = some c.sourceRef
  status : e.status = .candidate
  hashable : (e.fields.get? "source_ref").any isContainer = false

theorem made_of_stagedEntry {n : ℕ} {c : Candidate} {e : Entry} (hne : c.sourceRef ≠ "")
    (h : stagedEntry it draws owner items n c = .ok e) : Made owner c e := by
  rw [stagedEntry] at h
  split at h
  · cases h
  · rw [addEntry] at h
    split at h
    · cases h
    · rename_i made hmade
      split at hmade
      · cases hmade
      · cases hmade
        cases h
        have hget : ∀ (now source time at_ by_ id : Value), Object.get? [("timestamp", now),
            ("source", source), ("source_ref", .str c.sourceRef), ("source_time", time),
            ("admitted_at", at_), ("admitted_by", by_), ("migration_item_id", id)] "source_ref" =
              some (.str c.sourceRef) := by
          intros
          simp [Object.get?]
        have href : orElse (some c.sourceRef) = fun _ => c.sourceRef := by
          funext b
          rw [orElse, if_neg hne]
        refine ⟨rfl, rfl, ?_, rfl, ?_⟩
        · rw [refOf]
          simp only [href, List.cons_append, List.nil_append, hget]
        · simp only [href, List.cons_append, List.nil_append, hget]
          rfl

theorem made_of_stageCandidates {n : ℕ} {candidates : List Candidate}
    (hrefs : ∀ c ∈ candidates, c.sourceRef ≠ "")
    (h : stageCandidates it draws owner items n candidates = .ok staged) :
    List.Forall₂ (Made owner) (candidates.filter fun c => decide (c.disposition = .candidate))
      staged := by
  induction candidates generalizing n staged with
  | nil =>
    cases h
    exact .nil
  | cons c candidates ih =>
    have hlater := fun c' hc' => hrefs c' (List.mem_cons_of_mem c hc')
    rw [stageCandidates] at h
    split at h
    · rename_i hcandidate
      split at h
      · cases h
      · rename_i e hmade
        split at h
        · cases h
        · rename_i later hstaged
          cases h
          rw [List.filter_cons_of_pos (by simpa using hcandidate)]
          exact .cons (made_of_stagedEntry (hrefs c (List.mem_cons_self ..)) hmade)
            (ih hlater hstaged)
    · rename_i hnot
      rw [List.filter_cons_of_neg (by simpa using hnot)]
      exact ih hlater h

theorem sourceRef_ne (it : Interpreter) (name : Option Value) (item : Object) :
    sourceRef it name item ≠ "" := by
  unfold sourceRef
  intro h
  rw [String.append_eq_empty_iff, String.append_eq_empty_iff, String.append_eq_empty_iff] at h
  exact absurd h.1.1.1 (by decide)

/-- The text, the category and the source reference of an entry. -/
def entryKey (e : Entry) : String × Value × Option String := (e.text, e.category, refOf e)

/-- Those of a memory of a manifest. -/
def memoryKey (it : Interpreter) (known : Known) (name : Option Value) (item : Object) :
    String × Value × Option String :=
  let c := previewMemory it known name item
  (c.text, c.category, some c.sourceRef)

/-- The preview takes the memory for a candidate. -/
def chosen (it : Interpreter) (known : Known) (name : Option Value) (item : Object) : Bool :=
  decide ((previewMemory it known name item).disposition = .candidate)

theorem entryKeys_of_made {name : Option Value} {memories : List Object}
    (h : List.Forall₂ (Made owner) (memories.map (previewMemory it known name)) staged) :
    staged.map entryKey = memories.map (memoryKey it known name) := by
  induction memories generalizing staged with
  | nil =>
    cases h
    rfl
  | cons item memories ih =>
    cases h with
    | cons hmade hlater =>
      have htext := hmade.text.trans (ToolText.strip_strip _)
      rw [List.map_cons, List.map_cons, ih hlater, entryKey, htext, hmade.category, hmade.ref]
      rfl

/-- What the memory file holds does not change the key of a memory. -/
theorem memoryKey_known (name : Option Value) (item : Object) :
    memoryKey it known name item = memoryKey it known' name item := by
  rw [memoryKey, memoryKey, previewMemory, previewMemory]

theorem previewMemory_itemId (name : Option Value) (item : Object) :
    (previewMemory it known name item).itemId = (previewMemory it known' name item).itemId := by
  rw [previewMemory, previewMemory]

theorem previewMemory_text (name : Option Value) (item : Object) :
    (previewMemory it known name item).text = (previewMemory it known' name item).text := by
  rw [previewMemory, previewMemory]

theorem Staged.made_chosen (h : Staged it vectors draws owner entries manifest d items staged) :
    List.Forall₂ (Made owner)
      (((memories items).filter (chosen it (gather it vectors owner entries) (nameOf d))).map
        (previewMemory it (gather it vectors owner entries) (nameOf d))) staged := by
  have hrefs : ∀ c ∈ (memories items).map (previewMemory it (gather it vectors owner entries)
      (nameOf d)), c.sourceRef ≠ "" := by
    intro c hc
    obtain ⟨item, -, rfl⟩ := List.mem_map.mp hc
    exact sourceRef_ne it _ item
  have hmade := made_of_stageCandidates hrefs h.made
  rwa [List.filter_map] at hmade

theorem Staged.keys_eq (h : Staged it vectors draws owner entries manifest d items staged) :
    staged.map entryKey =
      ((memories items).filter (chosen it (gather it vectors owner entries) (nameOf d))).map
        (memoryKey it (gather it vectors owner entries) (nameOf d)) :=
  entryKeys_of_made h.made_chosen

/-! ## What is gathered after a staging -/

theorem chosen_iff {name : Option Value} {item : Object} :
    chosen it known name item = true ↔
      (previewMemory it known name item).sourceRef ∉ known.existingRefs ∧
      ¬ (sensitive it).search (previewMemory it known name item).text ∧
      it.casefold (previewMemory it known name item).text ∉ known.existingText ∧
      ¬ (known.similar (previewMemory it known name item).text).truthy := by
  rw [chosen, decide_eq_true_iff]
  change (dispose it known _ _).1 = .candidate ↔ _
  rw [dispose]
  split_ifs <;> simp_all [previewMemory]

/-- More source references. -/
def Known.withRefs (known : Known) (refs : List String) : Known :=
  { known with existingRefs := known.existingRefs ++ refs }

theorem chosen_withRefs {name : Option Value} {item : Object} {refs : List String} :
    chosen it (known.withRefs refs) name item = true ↔
      chosen it known name item = true ∧
        (previewMemory it known name item).sourceRef ∉ refs := by
  rw [chosen_iff, chosen_iff]
  change (previewMemory it known name item).sourceRef ∉ known.existingRefs ++ refs ∧ _ ↔ _
  rw [List.mem_append, not_or]
  constructor
  · rintro ⟨⟨hnew, hrefs⟩, hrest⟩
    exact ⟨⟨hnew, hrest⟩, hrefs⟩
  · rintro ⟨⟨hnew, hrest⟩, hrefs⟩
    exact ⟨⟨hnew, hrefs⟩, hrest⟩

/-- Staged entries are no memories yet, so that only their source references are gathered. -/
theorem gather_staged (h : ∀ e ∈ staged, e.status = .candidate) :
    gather it vectors owner (entries ++ staged) =
      (gather it vectors owner entries).withRefs (staged.filterMap refOf) := by
  have happroved : approvedOf owner staged = [] := by
    rw [approvedOf, List.filter_eq_nil_iff]
    intro e he
    simp [h e he]
  have htexts : approvedOf owner (entries ++ staged) = approvedOf owner entries := by
    rw [approvedOf, List.filter_append]
    exact (congrArg (approvedOf owner entries ++ ·) happroved).trans (List.append_nil _)
  rw [gather, htexts, List.filterMap_append]
  rfl

theorem Staged.forall_made (h : Staged it vectors draws owner entries manifest d items staged)
    {e : Entry} (he : e ∈ staged) : ∃ c, Made owner c e := by
  obtain ⟨i, hi, rfl⟩ := List.mem_iff_getElem.mp he
  have hlength := h.made_chosen.length_eq
  exact ⟨_, List.forall₂_iff_get.mp h.made_chosen |>.2 i (hlength ▸ hi) hi⟩

theorem Staged.gather_eq (h : Staged it vectors draws owner entries manifest d items staged)
    (vectors' : Vectors) (owner' : Option String) :
    gather it vectors' owner' (entries ++ staged) =
      (gather it vectors' owner' entries).withRefs (staged.filterMap refOf) := by
  refine gather_staged fun e he => ?_
  obtain ⟨c, hmade⟩ := h.forall_made he
  exact hmade.status

/-! ## Which stagings succeed -/

theorem exists_sourceTime {item : Object} {now time : Int} (h : sourceTime it item now = .ok time)
    (now' : Int) : ∃ time', sourceTime it item now' = .ok time' := by
  rw [sourceTime] at h ⊢
  split at h
  · exact ⟨_, rfl⟩
  · exact ⟨_, rfl⟩
  · exact ⟨time, h⟩
  · split at h
    · exact ⟨now', rfl⟩
    · exact ⟨time, h⟩
  · exact ⟨now', rfl⟩

/-- Whether an entry can be made depends on the item and on the text. -/
theorem exists_stagedEntry {n : ℕ} {c c' : Candidate} {e : Entry}
    (h : stagedEntry it draws owner items n c = .ok e) (hid : c'.itemId = c.itemId)
    (htext : c'.text = c.text) (draws' : Draws) (n' : ℕ) :
    ∃ e', stagedEntry it draws' owner' items n' c' = .ok e' := by
  rw [stagedEntry] at h
  split at h
  · cases h
  · rename_i time htime
    obtain ⟨time', htime'⟩ := exists_sourceTime htime (draws'.now n')
    rw [addEntry] at h
    split at h
    · cases h
    · rename_i hmade
      split at hmade
      · cases hmade
      · rename_i hne
        simp only [stagedEntry, hid, htime', addEntry, htext]
        rw [if_neg hne]
        exact ⟨_, rfl⟩

theorem forall_stagedEntry {n : ℕ}
    (h : stageCandidates it draws owner items n candidates = .ok staged) :
    ∀ c ∈ candidates, c.disposition = .candidate →
      ∃ m e, stagedEntry it draws owner items m c = .ok e := by
  induction candidates generalizing n staged with
  | nil => exact fun c hc => absurd hc List.not_mem_nil
  | cons c candidates ih =>
    rw [stageCandidates] at h
    intro c' hc' hcandidate
    split at h
    · split at h
      · cases h
      · rename_i e hmade
        split at h
        · cases h
        · rename_i later hlater
          rcases List.mem_cons.mp hc' with rfl | hc'
          · exact ⟨n, e, hmade⟩
          · exact ih hlater c' hc' hcandidate
    · rename_i hnot
      rcases List.mem_cons.mp hc' with rfl | hc'
      · exact absurd hcandidate hnot
      · exact ih h c' hc' hcandidate

theorem exists_stageCandidates (n : ℕ)
    (h : ∀ c ∈ candidates, c.disposition = .candidate →
      ∀ m, ∃ e, stagedEntry it draws owner items m c = .ok e) :
    ∃ staged, stageCandidates it draws owner items n candidates = .ok staged := by
  induction candidates generalizing n with
  | nil => exact ⟨[], rfl⟩
  | cons c candidates ih =>
    have hlater := fun c' hc' => h c' (List.mem_cons_of_mem c hc')
    rw [stageCandidates]
    split
    · rename_i hcandidate
      obtain ⟨e, hmade⟩ := h c (List.mem_cons_self ..) hcandidate n
      obtain ⟨later, hstaged⟩ := ih (n + 1) hlater
      exact ⟨e :: later, by rw [hmade, hstaged]⟩
    · exact ih n hlater

/-- With more source references in the memory file the manifest can still be staged. -/
theorem Staged.exists_later
    (h : Staged it vectors draws owner entries manifest d items staged) {added : List Entry}
    (hgather : gather it vectors owner (entries ++ added) =
      (gather it vectors owner entries).withRefs (added.filterMap refOf))
    (hhashable : ∀ e ∈ added, (e.fields.get? "source_ref").any isContainer = false)
    (draws' : Draws) :
    ∃ later, Staged it vectors draws' owner (entries ++ added) manifest d items later := by
  obtain ⟨ws, hwarn⟩ := h.preview.warned
  obtain ⟨candidates, hcandidates⟩ :=
    previewItems_ok h.preview.previewed (gather it vectors owner (entries ++ added))
  have heq := previewItems_eq hcandidates
  subst heq
  have hpreview : Previewed it vectors owner (entries ++ added) manifest
      ((memories items).map (previewMemory it (gather it vectors owner (entries ++ added))
        (nameOf d))) d items := by
    refine ⟨h.preview.shape, ?_, hcandidates, ws, hwarn⟩
    rw [List.any_append, h.preview.hashable, Bool.false_or, List.any_eq_false]
    intro e he
    rw [hhashable e he]
    exact Bool.false_ne_true
  have hmade : ∀ c ∈ (memories items).map (previewMemory it
      (gather it vectors owner (entries ++ added)) (nameOf d)), c.disposition = .candidate →
      ∀ m, ∃ e, stagedEntry it draws' owner items m c = .ok e := by
    intro c hc hcandidate m
    obtain ⟨item, hitem, rfl⟩ := List.mem_map.mp hc
    have hchosen : chosen it (gather it vectors owner (entries ++ added)) (nameOf d) item = true :=
      decide_eq_true hcandidate
    rw [hgather] at hchosen
    obtain ⟨m', e, he⟩ := forall_stagedEntry h.made
      (previewMemory it (gather it vectors owner entries) (nameOf d) item)
      (List.mem_map_of_mem hitem) (of_decide_eq_true (chosen_withRefs.mp hchosen).1)
    exact exists_stagedEntry he (previewMemory_itemId _ item) (previewMemory_text _ item) draws' m
  obtain ⟨later, hlater⟩ := exists_stageCandidates 0 hmade
  exact ⟨later, hpreview, h.ids, hlater⟩

end Pandamonium.MemoryImport
