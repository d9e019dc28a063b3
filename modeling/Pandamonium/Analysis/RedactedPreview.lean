import Pandamonium.Model.SafePreview

/-!
# What redaction and previews conceal

What is stored under a credential field is masked; a function conceals it if it makes the same of two
values that are equal when masked.  `redactSecrets` conceals it in every value, and `safePreview` in
those whose tuples, as far as they are shown, hold none.
-/

set_option autoImplicit false

namespace Pandamonium.SafePreview

open Pandamonium.Library
open Pandamonium.TrainingDatasets (Interpreter redactSecretText)

/-! ## Nested values -/

theorem Nested.inductOn {P : Nested → Prop} (hleaf : ∀ s, P (.leaf s))
    (hseq : ∀ isTuple items, (∀ item ∈ items, P item) → P (.seq isTuple items))
    (hmap : ∀ items : List (Scalar × Nested), (∀ e ∈ items, P e.2) → P (.map items)) : ∀ v, P v
  | .leaf s => hleaf s
  | .seq isTuple items =>
    hseq isTuple items fun item _ => Nested.inductOn hleaf hseq hmap item
  | .map items => hmap items fun e _ => Nested.inductOn hleaf hseq hmap e.2
termination_by v => sizeOf v
decreasing_by
  · have := List.sizeOf_lt_of_mem ‹_›
    simp only [Nested.seq.sizeOf_spec]
    omega
  · have := List.sizeOf_lt_of_mem ‹e ∈ items›
    have : sizeOf e.2 < 1 + sizeOf e := by cases e; simp; omega
    simp only [Nested.map.sizeOf_spec]
    omega

variable (it : Interpreter)

mutual

/-- The value with a filler in the place of what is stored under credential fields. -/
def maskWith (filler : String) : Nested → Nested
  | .map items => .map (maskItems filler items)
  | .seq isTuple items => .seq isTuple (maskList filler items)
  | .leaf s => .leaf s

def maskItems (filler : String) : List (Scalar × Nested) → List (Scalar × Nested)
  | [] => []
  | (key, item) :: items =>
    (key, if isCredential it key item then .text filler else maskWith filler item) ::
      maskItems filler items

def maskList (filler : String) : List Nested → List Nested
  | [] => []
  | item :: items => maskWith filler item :: maskList filler items

end

/-- A value without credential fields. -/
inductive Clean : Nested → Prop
  | leaf (s : Scalar) : Clean (.leaf s)
  | seq (isTuple : Bool) (items : List Nested) (h : ∀ item ∈ items, Clean item) :
    Clean (.seq isTuple items)
  | map (items : List (Scalar × Nested))
    (hkey : ∀ e ∈ items, isCredential it e.1 e.2 = false) (h : ∀ e ∈ items, Clean e.2) :
    Clean (.map items)

/-- A text within the bound. -/
def Scalar.Within (bound : ℕ) : Scalar → Prop
  | .str s => s.length ≤ bound
  | _ => True

/-- The bounds of a preview: 1000 characters and three dots, keys of 100 characters, 50 parts. -/
inductive Bounded : Nested → Prop
  | leaf (s : Scalar) (h : s.Within 1003) : Bounded (.leaf s)
  | seq (isTuple : Bool) (items : List Nested) (hlen : items.length ≤ 50)
    (h : ∀ item ∈ items, Bounded item) : Bounded (.seq isTuple items)
  | map (items : List (Scalar × Nested)) (hlen : items.length ≤ 50)
    (hkey : ∀ e ∈ items, e.1.Within 100) (h : ∀ e ∈ items, Bounded e.2) : Bounded (.map items)

/-- The items of a map that are shown, each under its cut key. -/
def shownItems (items : List (Scalar × Nested)) : List (Scalar × Scalar × Nested) :=
  dictOf ((items.take 50).map fun item => (cutKey it item.1, item))

/-- Every tuple that is shown satisfies a predicate. -/
def EveryTuple (P : Nested → Prop) : ℕ → Nested → Prop
  | 0, _ => True
  | levels + 1, .map items =>
    ∀ e ∈ shownItems it items, isCredential it e.2.1 e.2.2 = false → EveryTuple P levels e.2.2
  | levels + 1, .seq false items => ∀ item ∈ items.take 50, EveryTuple P levels item
  | _ + 1, .seq true items => P (.seq true items)
  | _ + 1, .leaf _ => True

/-- What is stored under the credential fields of a value does not survive in what is made of it, and
the preview is within the bounds. -/
structure Conceals (v : Nested) : Prop where
  redacted : ∀ v', maskWith it "" v' = maskWith it "" v → redactSecrets it v' = redactSecrets it v
  previewed : ∀ v', maskWith it "" v' = maskWith it "" v →
    safePreview it 6 v' = safePreview it 6 v
  bounded : Bounded (safePreview it 6 v)

variable {it}

/-! ## Masking -/

variable (it) in
/-- The item of a map, masked. -/
def maskItem (filler : String) (e : Scalar × Nested) : Scalar × Nested :=
  (e.1, if isCredential it e.1 e.2 then .text filler else maskWith it filler e.2)

variable (filler : String)

theorem maskItems_eq (items : List (Scalar × Nested)) :
    maskItems it filler items = items.map (maskItem it filler) := by
  induction items with
  | nil => rfl
  | cons e items ih => rw [maskItems, ih, List.map_cons, maskItem]

theorem maskList_eq (items : List Nested) :
    maskList it filler items = items.map (maskWith it filler) := by
  induction items with
  | nil => rfl
  | cons item items ih => rw [maskList, ih, List.map_cons]

variable (it) in
/-- The item of a map, redacted. -/
def redactItem (e : Scalar × Nested) : Scalar × Nested :=
  (e.1, if isCredential it e.1 e.2 then .text "[redacted]" else redactSecrets it e.2)

theorem redactItems_eq (items : List (Scalar × Nested)) :
    redactItems it items = items.map (redactItem it) := by
  induction items with
  | nil => rfl
  | cons e items ih => rw [redactItems, ih, List.map_cons, redactItem]

theorem redactList_eq (items : List Nested) :
    redactList it items = items.map (redactSecrets it) := by
  induction items with
  | nil => rfl
  | cons item items ih => rw [redactList, ih, List.map_cons]

theorem head_maskWith (v : Nested) :
    (maskWith it filler v).head = v.head := by
  cases v <;> simp [maskWith, Nested.head]

/-- A text in the place of a credential is one. -/
theorem isCredential_text {key : Scalar} {item : Nested} (h : isCredential it key item = true)
    (s : String) : isCredential it key (.text s) = true := by
  simp only [isCredential, isCredentialField, Bool.and_eq_true] at h ⊢
  exact ⟨rfl, h.2⟩

theorem isCredential_maskWith (key : Scalar) (filler : String) (v : Nested) :
    isCredential it key (maskWith it filler v) = isCredential it key v := by
  simp only [isCredential, head_maskWith]

theorem maskItem_credential {e : Scalar × Nested} (h : isCredential it e.1 e.2 = true)
    (filler : String) : maskItem it filler e = (e.1, .text filler) := by
  rw [maskItem, if_pos h]

theorem maskItem_other {e : Scalar × Nested} (h : isCredential it e.1 e.2 = false)
    (filler : String) : maskItem it filler e = (e.1, maskWith it filler e.2) := by
  rw [maskItem, if_neg (by simp [h])]

theorem maskItem_key (e : Scalar × Nested) : (maskItem it filler e).1 = e.1 :=
  rfl

theorem isCredential_maskItem (e : Scalar × Nested) :
    isCredential it e.1 (maskItem it filler e).2 = isCredential it e.1 e.2 := by
  cases h : isCredential it e.1 e.2 with
  | true =>
    rw [maskItem_credential h]
    exact isCredential_text h filler
  | false => rw [maskItem_other h, isCredential_maskWith, h]

theorem maskWith_maskWith (filler filler' : String) (v : Nested) :
    maskWith it filler (maskWith it filler' v) = maskWith it filler v := by
  induction v using Nested.inductOn with
  | hleaf s => simp only [maskWith]
  | hseq isTuple items ih =>
    simp only [maskWith, maskList_eq, List.map_map]
    exact congrArg _ (List.map_congr_left fun item hitem => ih item hitem)
  | hmap items ih =>
    simp only [maskWith, maskItems_eq, List.map_map]
    refine congrArg _ (List.map_congr_left fun e he => ?_)
    rw [Function.comp_apply]
    cases h : isCredential it e.1 e.2 with
    | true =>
      rw [maskItem_credential h, maskItem_credential h]
      exact maskItem_credential (isCredential_text h filler') filler
    | false =>
      rw [maskItem_other h, maskItem_other h, ← ih e he]
      exact maskItem_other ((isCredential_maskWith _ _ _).trans h) filler

/-- Nothing stands under a credential field of a value that any filler leaves as it is. -/
theorem clean_of_maskWith_eq {v : Nested} {s s' : String} (hs : s ≠ s')
    (h : maskWith it s v = maskWith it s' v) : Clean it v := by
  induction v using Nested.inductOn with
  | hleaf s => exact .leaf s
  | hseq isTuple items ih =>
    simp only [maskWith, maskList_eq, Nested.seq.injEq, List.map_inj_left, true_and] at h
    exact .seq isTuple items fun item hitem => ih item hitem (h item hitem)
  | hmap items ih =>
    simp only [maskWith, maskItems_eq, Nested.map.injEq, List.map_inj_left] at h
    have hkey : ∀ e ∈ items, isCredential it e.1 e.2 = false := by
      intro e he
      by_contra hcred
      have := h e he
      rw [Bool.not_eq_false] at hcred
      simp [maskItem_credential hcred, hs] at this
    refine .map items hkey fun e he => ih e he ?_
    simpa [maskItem_other (hkey e he)] using h e he

theorem maskWith_of_clean {v : Nested} (h : Clean it v) (filler : String) :
    maskWith it filler v = v := by
  induction h with
  | leaf s => rw [maskWith]
  | seq isTuple items _ ih =>
    rw [maskWith, maskList_eq, List.map_congr_left ih, List.map_id']
  | map items hkey _ ih =>
    rw [maskWith, maskItems_eq]
    refine congrArg _ ((List.map_congr_left fun e he => ?_).trans (List.map_id' items))
    rw [maskItem_other (hkey e he), ih e he]

/-- Masking hides no credential field. -/
theorem clean_maskWith_iff {v : Nested} {filler : String} :
    Clean it (maskWith it filler v) ↔ Clean it v := by
  refine ⟨fun h => ?_, fun h => (maskWith_of_clean h filler).symm ▸ h⟩
  have hother := maskWith_of_clean h (filler ++ "*")
  rw [maskWith_maskWith] at hother
  exact clean_of_maskWith_eq (by simp) hother

/-! ## Redaction -/

theorem redactSecrets_maskWith (v : Nested) :
    redactSecrets it (maskWith it filler v) = redactSecrets it v := by
  induction v using Nested.inductOn with
  | hleaf s => rw [maskWith]
  | hseq isTuple items ih =>
    simp only [maskWith, maskList_eq, redactSecrets, redactList_eq, List.map_map]
    exact congrArg _ (List.map_congr_left ih)
  | hmap items ih =>
    simp only [maskWith, maskItems_eq, redactSecrets, redactItems_eq, List.map_map]
    refine congrArg _ (List.map_congr_left fun e he => ?_)
    rw [Function.comp_apply, redactItem, redactItem, maskItem_key, isCredential_maskItem]
    cases h : isCredential it e.1 e.2 with
    | true => rw [maskItem_credential h, if_pos rfl, if_pos rfl]
    | false => rw [maskItem_other h, if_neg (by simp), if_neg (by simp), ih e he]

/-! ## The items that are shown -/

theorem assign_map {β γ : Type} (f : β → γ) (key : Scalar) (v : β) (items : List (Scalar × β)) :
    Dict.assign key (f v) (items.map (Prod.map id f)) =
      (Dict.assign key v items).map (Prod.map id f) := by
  induction items with
  | nil => rfl
  | cons e items ih =>
    rw [List.map_cons, Dict.assign, Dict.assign, ih]
    split <;> simp_all [Prod.map]

/-- What is built of mapped items is what is built of the items, mapped. -/
theorem dictOf_map {β γ : Type} (f : β → γ) (items : List (Scalar × β)) :
    dictOf (items.map (Prod.map id f)) = (dictOf items).map (Prod.map id f) := by
  suffices h : ∀ acc : List (Scalar × β),
      (items.map (Prod.map id f)).foldl (fun d e => Dict.assign e.1 e.2 d)
        (acc.map (Prod.map id f)) =
      (items.foldl (fun d e => Dict.assign e.1 e.2 d) acc).map (Prod.map id f) from h []
  induction items with
  | nil => exact fun _ => rfl
  | cons e items ih =>
    intro acc
    rw [List.map_cons, List.foldl_cons, List.foldl_cons, ← ih, ← assign_map]
    rfl

theorem mem_assign {β : Type} {key : Scalar} {v : β} {items : List (Scalar × β)} {e : Scalar × β}
    (he : e ∈ Dict.assign key v items) : e = (key, v) ∨ e ∈ items := by
  induction items with
  | nil => simpa [Dict.assign] using he
  | cons e' items ih =>
    rw [Dict.assign] at he
    grind

theorem length_assign {β : Type} (key : Scalar) (v : β) (items : List (Scalar × β)) :
    (Dict.assign key v items).length ≤ items.length + 1 := by
  induction items with
  | nil => rfl
  | cons e items ih =>
    rw [Dict.assign]
    grind

/-- What is built of items is at most as many of them. -/
theorem dictOf_spec {β : Type} (items : List (Scalar × β)) :
    (dictOf items).length ≤ items.length ∧ ∀ e ∈ dictOf items, e ∈ items := by
  induction items using List.reverseRecOn with
  | nil => exact ⟨le_rfl, fun e he => he⟩
  | append_singleton items e ih =>
    rw [dictOf, List.foldl_append, List.foldl_cons, List.foldl_nil] at *
    refine ⟨?_, fun e' he' => ?_⟩
    · have := length_assign e.1 e.2 (dictOf items)
      rw [List.length_append, List.length_singleton]
      exact this.trans (Nat.add_le_add_right ih.1 1)
    · obtain rfl | he' := mem_assign he'
      · simp
      · exact List.mem_append_left _ (ih.2 e' he')

theorem shownItems_mem {items : List (Scalar × Nested)} {e : Scalar × Scalar × Nested}
    (he : e ∈ shownItems it items) : e.1 = cutKey it e.2.1 := by
  obtain ⟨e', -, rfl⟩ := List.mem_map.mp ((dictOf_spec _).2 e he)
  rfl

theorem length_shownItems (items : List (Scalar × Nested)) :
    (shownItems it items).length ≤ 50 :=
  (dictOf_spec _).1.trans (by simp)

variable (it) in
/-- What is shown of an item. -/
def showItem (levels : ℕ) (e : Scalar × Nested) : Nested :=
  if isCredential it e.1 e.2 then .text "[redacted]" else safePreview it levels e.2

theorem safePreview_map (levels : ℕ) (items : List (Scalar × Nested)) :
    safePreview it (levels + 1) (.map items) =
      .map ((shownItems it items).map (Prod.map id (showItem it levels))) := by
  rw [safePreview, shownItems, ← dictOf_map, List.map_map]
  rfl

theorem shownItems_mask (items : List (Scalar × Nested)) :
    shownItems it (maskItems it filler items) =
      (shownItems it items).map (Prod.map id (maskItem it filler)) := by
  rw [shownItems, shownItems, ← dictOf_map, List.map_map, maskItems_eq, ← List.map_take,
    List.map_map]
  rfl

theorem showItem_mask (levels : ℕ) (filler : String) (e : Scalar × Nested) :
    showItem it levels (maskItem it filler e) =
      if isCredential it e.1 e.2 then .text "[redacted]"
      else safePreview it levels (maskWith it filler e.2) := by
  rw [showItem, maskItem_key, isCredential_maskItem]
  cases h : isCredential it e.1 e.2 with
  | true => rfl
  | false =>
    rw [maskItem_other h]

/-! ## Previews -/

/-- Every tuple that is shown of a masked value, and of the value itself. -/
theorem everyTuple_maskWith {P : Nested → Prop} {filler : String}
    (hP : ∀ t, P (maskWith it filler t) ↔ P t) (levels : ℕ) (v : Nested) :
    EveryTuple it P levels (maskWith it filler v) ↔ EveryTuple it P levels v := by
  induction levels generalizing v with
  | zero => exact Iff.rfl
  | succ levels ih =>
    match v with
    | .leaf s => rw [maskWith]
    | .seq true items =>
      have := hP (.seq true items)
      rw [maskWith] at this ⊢
      exact this
    | .seq false items =>
      simp only [maskWith, maskList_eq, EveryTuple, ← List.map_take, List.forall_mem_map, ih]
    | .map items =>
      simp only [maskWith, EveryTuple, shownItems_mask, List.forall_mem_map, Prod.map]
      refine forall₂_congr fun e _ => ?_
      rw [maskItem_key, isCredential_maskItem]
      refine forall_congr' fun hcred => ?_
      rw [maskItem_other hcred, ih]

/-- The preview of a value whose shown tuples are clean is that of the masked value. -/
theorem safePreview_maskWith (levels : ℕ) {v : Nested} (h : EveryTuple it (Clean it) levels v) :
    safePreview it levels (maskWith it filler v) = safePreview it levels v := by
  induction levels generalizing v with
  | zero => rfl
  | succ levels ih =>
    match v with
    | .leaf s => rw [maskWith]
    | .seq true items => rw [maskWith_of_clean h]
    | .seq false items =>
      rw [maskWith, maskList_eq, safePreview, safePreview, ← List.map_take, List.map_map]
      exact congrArg _ (List.map_congr_left fun item hitem => ih (h item hitem))
    | .map items =>
      rw [maskWith, safePreview_map, safePreview_map, shownItems_mask, List.map_map]
      refine congrArg _ (List.map_congr_left fun e he => ?_)
      rw [Function.comp_apply, Prod.map, Prod.map, Prod.map, showItem_mask, showItem]
      cases hcred : isCredential it e.2.1 e.2.2 with
      | true => rfl
      | false => rw [ih (h e he hcred)]; rfl

/-- Where two fillers give the same preview, the tuples that are shown are clean. -/
theorem everyTuple_clean {s s' : String} (hs : s ≠ s') (levels : ℕ) {v : Nested}
    (h : safePreview it levels (maskWith it s v) = safePreview it levels (maskWith it s' v)) :
    EveryTuple it (Clean it) levels v := by
  induction levels generalizing v with
  | zero => trivial
  | succ levels ih =>
    match v with
    | .leaf _ => trivial
    | .seq true items => exact clean_of_maskWith_eq hs (by simpa only [maskWith, safePreview] using h)
    | .seq false items =>
      simp only [maskWith, maskList_eq, safePreview, ← List.map_take, List.map_map,
        Nested.seq.injEq, List.map_inj_left, true_and] at h
      exact fun item hitem => ih (h item hitem)
    | .map items =>
      simp only [maskWith, safePreview_map, shownItems_mask, List.map_map, Nested.map.injEq,
        List.map_inj_left, Function.comp_apply, Prod.map, showItem_mask, Prod.mk.injEq] at h
      intro e he hcred
      have := (h e he).2
      simp only [hcred, Bool.false_eq_true, if_false] at this
      exact ih this

theorem cutText_length (s : String) : (cutText s).length ≤ 1003 := by
  unfold cutText
  rw [String.length_append, String.length_ofList]
  have : (if 1000 < s.length then "..." else "").length ≤ 3 := by split <;> decide
  simp only [List.length_take]
  omega

theorem cutKey_within (key : Scalar) : (cutKey it key).Within 100 := by
  simp [cutKey, Scalar.Within]

/-- The preview is within the bounds where the tuples that it shows are. -/
theorem bounded_safePreview (levels : ℕ) (v : Nested) :
    Bounded (safePreview it levels v) ↔ EveryTuple it Bounded levels v := by
  induction levels generalizing v with
  | zero => exact iff_of_true (.leaf _ (Nat.le_of_ble_eq_true rfl)) trivial
  | succ levels ih =>
    match v with
    | .leaf (.str s) => exact iff_of_true (.leaf _ (cutText_length _)) trivial
    | .leaf .null | .leaf (.bool _) | .leaf (.int _) | .leaf (.float _) =>
      exact iff_of_true (.leaf _ trivial) trivial
    | .seq true items => exact Iff.rfl
    | .seq false items =>
      rw [safePreview]
      constructor
      · rintro (- | ⟨-, -, -, h⟩) item hitem
        exact (ih item).mp (h _ (List.mem_map_of_mem hitem))
      · intro h
        refine .seq _ _ (by simp) ?_
        simp only [List.forall_mem_map]
        exact fun item hitem => (ih item).mpr (h item hitem)
    | .map items =>
      rw [safePreview_map]
      constructor
      · rintro (- | - | ⟨-, -, -, h⟩) e he hcred
        have := h _ (List.mem_map_of_mem he)
        simp only [Prod.map, showItem, hcred, Bool.false_eq_true, if_false] at this
        exact (ih _).mp this
      · intro h
        refine .map _ (by simpa using length_shownItems items) ?_ ?_
        · simp only [List.forall_mem_map, Prod.map, id_eq]
          intro e he
          rw [shownItems_mem he]
          exact cutKey_within _
        · simp only [List.forall_mem_map, Prod.map, showItem]
          intro e he
          split
          · exact .leaf _ (Nat.le_of_ble_eq_true rfl)
          · rename_i hcred
            exact (ih _).mpr (h e he (by simpa using hcred))

/-- What is stored under credential fields is concealed, and the preview within the bounds, where every
tuple that the preview shows holds no credential field and is within the bounds itself. -/
theorem conceals_iff (it : Interpreter) (v : Nested) :
    Conceals it v ↔ EveryTuple it (Clean it) 6 v ∧ EveryTuple it Bounded 6 v := by
  constructor
  · intro h
    refine ⟨everyTuple_clean (show "" ≠ "*" by decide) 6 ?_,
      (bounded_safePreview 6 v).mp h.bounded⟩
    rw [h.previewed _ (maskWith_maskWith "" "" v), h.previewed _ (maskWith_maskWith "" "*" v)]
  · rintro ⟨hclean, hbounded⟩
    refine ⟨fun v' hv' => ?_, fun v' hv' => ?_, (bounded_safePreview 6 v).mpr hbounded⟩
    · rw [← redactSecrets_maskWith "", hv', redactSecrets_maskWith]
    · have hmask : ∀ t, Clean it (maskWith it "" t) ↔ Clean it t := fun _ => clean_maskWith_iff
      have hclean' : EveryTuple it (Clean it) 6 v' := by
        rwa [← everyTuple_maskWith hmask, hv', everyTuple_maskWith hmask]
      rw [← safePreview_maskWith "" 6 hclean', hv', safePreview_maskWith "" 6 hclean]

/-- The preview of a tuple shows the password in it. -/
theorem not_conceals_tuple : ¬ ∀ v, Conceals Interpreter.plain v := by
  intro h
  have hcred : ∀ s, isCredential Interpreter.plain (.str "password") (.text s) = true :=
    isCredential_text (show isCredential Interpreter.plain (.str "password") (.text "") = true by decide)
  have hshown := (h (.seq true [.map [(.str "password", .text "hunter2")]])).previewed
    (.seq true [.map [(.str "password", .text "changed")]])
    (by simp [maskWith, maskList, maskItems, hcred])
  simp [safePreview] at hshown

end Pandamonium.SafePreview
