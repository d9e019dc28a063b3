import Mathlib.Data.List.Induction
import Mathlib.Data.List.Nodup

/-!
# Insertion-ordered dictionaries

A dictionary is its list of items with pairwise different keys, in the order the keys
were first inserted.  Assigning to a key that is present replaces the value in place;
assigning to a new key appends it; removing a key leaves the others in order.  The keys
being different is a field, so a lookup and a scan of the values always agree
(`mem_values_iff`).
-/

set_option autoImplicit false

namespace Pandamonium.Library

/-- Items in insertion order, no key twice. -/
structure Dict (κ β : Type) where
  items : List (κ × β)
  nodup : (items.map Prod.fst).Nodup

namespace Dict

variable {κ β : Type} [DecidableEq κ]

/-- The dictionary without items. -/
def empty : Dict κ β := ⟨[], List.nodup_nil⟩

instance : Inhabited (Dict κ β) := ⟨empty⟩

/-- The value stored under a key in a list of items. -/
def find (k : κ) : List (κ × β) → Option β
  | [] => none
  | (k', v) :: items => if k' = k then some v else find k items

/-- Replace the value of a key in place, or append the key. -/
def assign (k : κ) (v : β) : List (κ × β) → List (κ × β)
  | [] => [(k, v)]
  | (k', v') :: items => if k' = k then (k, v) :: items else (k', v') :: assign k v items

variable {items : List (κ × β)}

omit [DecidableEq κ] in
theorem nodup_filter (p : κ × β → Bool) (h : (items.map Prod.fst).Nodup) :
    ((items.filter p).map Prod.fst).Nodup :=
  h.sublist (List.filter_sublist.map Prod.fst)

theorem mem_keys_assign (k k' : κ) (v : β) (items : List (κ × β)) :
    k' ∈ (assign k v items).map Prod.fst ↔ k' = k ∨ k' ∈ items.map Prod.fst := by
  induction items with
  | nil => simp [assign]
  | cons e items ih =>
    obtain ⟨k₀, v₀⟩ := e
    by_cases h : k₀ = k
    · simp only [assign, h, if_true, List.map_cons, List.mem_cons]
      tauto
    · simp only [assign, h, if_false, List.map_cons, List.mem_cons, ih]
      tauto

theorem nodup_assign (k : κ) (v : β) (h : (items.map Prod.fst).Nodup) :
    ((assign k v items).map Prod.fst).Nodup := by
  induction items with
  | nil => simp [assign]
  | cons e items ih =>
    obtain ⟨k₀, v₀⟩ := e
    simp only [List.map_cons, List.nodup_cons] at h
    by_cases hk : k₀ = k
    · subst hk
      simpa [assign] using h
    · simp only [assign, hk, if_false, List.map_cons, List.nodup_cons]
      refine ⟨?_, ih h.2⟩
      rw [mem_keys_assign]
      rintro (h' | h')
      · exact hk h'
      · exact h.1 h'

/-- `d.get(k)` -/
def get? (d : Dict κ β) (k : κ) : Option β := find k d.items

/-- `d[k] = v` -/
def set (d : Dict κ β) (k : κ) (v : β) : Dict κ β :=
  ⟨assign k v d.items, nodup_assign k v d.nodup⟩

/-- `d.pop(k, None)` -/
def erase (d : Dict κ β) (k : κ) : Dict κ β :=
  ⟨d.items.filter (fun e => decide (e.1 ≠ k)), nodup_filter _ d.nodup⟩

/-- `d.values()` -/
def values (d : Dict κ β) : List β := d.items.map Prod.snd

/-- Every value replaced by a function of it, the keys and their order unchanged. -/
def mapValues (d : Dict κ β) (f : β → β) : Dict κ β :=
  ⟨d.items.map fun e => (e.1, f e.2), by simpa [List.map_map, Function.comp_def] using d.nodup⟩

/-- Every value replaced by a function of its key and it. -/
def mapItems (d : Dict κ β) (f : κ → β → β) : Dict κ β :=
  ⟨d.items.map fun e => (e.1, f e.1 e.2), by
    simpa [List.map_map, Function.comp_def] using d.nodup⟩

theorem find_assign (k k' : κ) (v : β) (items : List (κ × β)) :
    find k' (assign k v items) = if k' = k then some v else find k' items := by
  induction items with
  | nil =>
    by_cases h : k = k'
    · simp [assign, find, h]
    · simp [assign, find, h, Ne.symm h]
  | cons e items ih =>
    obtain ⟨k₀, v₀⟩ := e
    by_cases h₀ : k₀ = k
    · subst h₀
      by_cases h : k₀ = k'
      · simp [assign, find, h]
      · simp [assign, find, h, Ne.symm h]
    · by_cases h : k₀ = k'
      · subst h
        simp [assign, find, h₀]
      · simp [assign, find, h₀, h, ih]

theorem find_filter (p : κ → Bool) (k : κ) (items : List (κ × β)) :
    find k (items.filter fun e => p e.1) = if p k then find k items else none := by
  induction items with
  | nil => simp [find]
  | cons e items ih =>
    obtain ⟨k₀, v₀⟩ := e
    by_cases h : k₀ = k
    · subst h
      cases hp : p k₀
      · simpa [find, hp] using ih
      · simp [find, hp]
    · cases hp : p k₀
      · simpa [find, hp, h] using ih
      · simpa [find, hp, h] using ih

theorem find_eq_some_iff (k : κ) (v : β) (h : (items.map Prod.fst).Nodup) :
    find k items = some v ↔ (k, v) ∈ items := by
  induction items with
  | nil => simp [find]
  | cons e items ih =>
    obtain ⟨k₀, v₀⟩ := e
    simp only [List.map_cons, List.nodup_cons] at h
    by_cases hk : k₀ = k
    · subst hk
      have hnot : ∀ w, (k₀, w) ∉ items := fun w hw =>
        h.1 (List.mem_map.mpr ⟨(k₀, w), hw, rfl⟩)
      simp only [find, if_true, Option.some.injEq, List.mem_cons, Prod.mk.injEq, true_and, hnot,
        or_false]
      exact eq_comm
    · have hne : ¬ (k = k₀) := fun h' => hk h'.symm
      simp [find, hk, hne, ih h.2]

theorem get?_set (d : Dict κ β) (k k' : κ) (v : β) :
    (d.set k v).get? k' = if k' = k then some v else d.get? k' :=
  find_assign k k' v d.items

@[simp] theorem get?_set_self (d : Dict κ β) (k : κ) (v : β) : (d.set k v).get? k = some v := by
  simp [get?_set]

theorem get?_set_eq_none {d : Dict κ β} {k k' : κ} {v₀ : β} (hk' : d.get? k' = some v₀) (v : β)
    (hk : d.get? k = none) : (d.set k' v).get? k = none := by
  have hne : k ≠ k' := by
    rintro rfl
    rw [hk] at hk'
    cases hk'
  rw [get?_set, if_neg hne, hk]

theorem assign_assign (k : κ) (v v' : β) (items : List (κ × β)) :
    assign k v' (assign k v items) = assign k v' items := by
  induction items with
  | nil => simp [assign]
  | cons e items ih =>
    obtain ⟨k₀, v₀⟩ := e
    by_cases h : k₀ = k
    · simp [assign, h]
    · simp [assign, h, ih]

@[simp] theorem set_set (d : Dict κ β) (k : κ) (v v' : β) : (d.set k v).set k v' = d.set k v' := by
  simp only [set, assign_assign]

theorem get?_erase (d : Dict κ β) (k k' : κ) :
    (d.erase k).get? k' = if k' = k then none else d.get? k' := by
  have h := find_filter (fun k₀ => decide (k₀ ≠ k)) k' d.items
  by_cases hk : k' = k
  · simpa [get?, erase, hk] using h
  · simpa [get?, erase, hk] using h

@[simp] theorem get?_mapValues (d : Dict κ β) (f : β → β) (k : κ) :
    (d.mapValues f).get? k = (d.get? k).map f := by
  obtain ⟨items, hnodup⟩ := d
  simp only [get?, mapValues]
  clear hnodup
  induction items with
  | nil => rfl
  | cons e items ih =>
    obtain ⟨k₀, v₀⟩ := e
    by_cases h : k₀ = k
    · simp [find, h]
    · simp [find, h, ih]

@[simp] theorem get?_mapItems (d : Dict κ β) (f : κ → β → β) (k : κ) :
    (d.mapItems f).get? k = (d.get? k).map (f k) := by
  obtain ⟨items, hnodup⟩ := d
  simp only [get?, mapItems]
  clear hnodup
  induction items with
  | nil => rfl
  | cons e items ih =>
    obtain ⟨k₀, v₀⟩ := e
    by_cases h : k₀ = k
    · subst h
      simp [find]
    · simp [find, h, ih]

theorem mem_items_iff (d : Dict κ β) (k : κ) (v : β) : (k, v) ∈ d.items ↔ d.get? k = some v :=
  (find_eq_some_iff k v d.nodup).symm

theorem mem_values_iff (d : Dict κ β) (v : β) : v ∈ d.values ↔ ∃ k, d.get? k = some v := by
  simp only [values, List.mem_map, Prod.exists, exists_eq_right, mem_items_iff]

theorem nodup_map_values (d : Dict κ β) {f : β → κ} (hkey : ∀ k v, d.get? k = some v → f v = k) :
    (d.values.map f).Nodup := by
  have hkeys : d.values.map f = d.items.map Prod.fst := by
    rw [values, List.map_map]
    refine List.map_congr_left ?_
    rintro ⟨k, v⟩ hmem
    exact hkey k v ((d.mem_items_iff k v).mp hmem)
  rw [hkeys]
  exact d.nodup

/-- Every key of the first dictionary is in the second one, with a value the relation takes
the old value to. -/
def Carries (R : β → β → Prop) (d d' : Dict κ β) : Prop :=
  ∀ k v, d.get? k = some v → ∃ v', d'.get? k = some v' ∧ R v v'

section Carries

variable {R : β → β → Prop} {d d' d'' : Dict κ β}

theorem Carries.refl (hrefl : ∀ v, R v v) (d : Dict κ β) : d.Carries R d :=
  fun _ v hv => ⟨v, hv, hrefl v⟩

theorem Carries.trans (htrans : ∀ a b c, R a b → R b c → R a c) (h : d.Carries R d')
    (h' : d'.Carries R d'') : d.Carries R d'' := by
  intro k v hv
  obtain ⟨v', hv', hR⟩ := h k v hv
  obtain ⟨v'', hv'', hR'⟩ := h' k v' hv'
  exact ⟨v'', hv'', htrans v v' v'' hR hR'⟩

theorem Carries.set (hrefl : ∀ v, R v v) {k : κ} {v : β} (h : ∀ v₀, d.get? k = some v₀ → R v₀ v) :
    d.Carries R (d.set k v) := by
  intro k' v' hv'
  by_cases hk : k' = k
  · subst hk
    exact ⟨v, get?_set_self d k' v, h v' hv'⟩
  · exact ⟨v', by rw [get?_set, if_neg hk, hv'], hrefl v'⟩

end Carries

/-- Values put under their keys one after the other: the last one with a key stays. -/
theorem get?_foldl_keyed (key : β → κ) (l : List β) (d : Dict κ β) (k : κ) :
    (l.foldl (fun d v => d.set (key v) v) d).get? k =
      ((l.filter fun v => key v = k).getLast?).or (d.get? k) := by
  induction l using List.reverseRecOn with
  | nil => rfl
  | append_singleton l v ih =>
    rw [List.foldl_append, List.foldl_cons, List.foldl_nil, get?_set, ih, List.filter_append]
    by_cases hk : key v = k
    · simp [hk]
    · simp [hk, Ne.symm hk]

theorem get?_foldl_keyed_empty {key : β → κ} {l : List β} (hnodup : (l.map key).Nodup) (k : κ)
    (v : β) :
    (l.foldl (fun d v => d.set (key v) v) empty).get? k = some v ↔ v ∈ l ∧ key v = k := by
  rw [get?_foldl_keyed, show (empty : Dict κ β).get? k = none from rfl, Option.or_none]
  constructor
  · intro h
    simpa using List.mem_of_getLast? h
  · intro h
    have hmem : v ∈ l.filter fun v => key v = k := by simpa using h
    obtain ⟨v', hv'⟩ := Option.isSome_iff_exists.mp
      (List.getLast?_isSome.mpr (List.ne_nil_of_mem hmem))
    obtain ⟨hv'mem, hkey⟩ : v' ∈ l ∧ key v' = k := by simpa using List.mem_of_getLast? hv'
    rw [hv', List.inj_on_of_nodup_map hnodup hv'mem h.1 (hkey.trans h.2.symm)]

theorem get?_foldl_erase (keys : List κ) (d : Dict κ β) (k : κ) :
    (keys.foldl erase d).get? k = if k ∈ keys then none else d.get? k := by
  induction keys generalizing d with
  | nil => simp
  | cons k₀ keys ih =>
    rw [List.foldl_cons, ih, get?_erase]
    by_cases hk : k = k₀
    · simp [hk]
    · simp [hk]

theorem get?_foldl_set_of_not_mem {k : κ} (h : k ∉ items.map Prod.fst) (d : Dict κ β) :
    (items.foldl (fun d item => d.set item.1 item.2) d).get? k = d.get? k := by
  induction items generalizing d with
  | nil => rfl
  | cons item items ih =>
    obtain ⟨hne, hrest⟩ := not_or.mp (mt List.mem_cons.mpr h)
    rw [List.foldl_cons, ih hrest, get?_set, if_neg hne]

/-- Items with different keys are all found after they are set one after the other. -/
theorem get?_foldl_set (hnodup : (items.map Prod.fst).Nodup) {k : κ} {v : β} (h : (k, v) ∈ items)
    (d : Dict κ β) :
    (items.foldl (fun d item => d.set item.1 item.2) d).get? k = some v := by
  induction items generalizing d with
  | nil => cases h
  | cons item items ih =>
    obtain ⟨hnot, hnodup⟩ := List.nodup_cons.mp hnodup
    rw [List.foldl_cons]
    cases h with
    | head => rw [get?_foldl_set_of_not_mem hnot, get?_set_self]
    | tail _ h => exact ih hnodup h _

/-! ## The items after a change -/

omit [DecidableEq κ] in
theorem eq_of_items_eq {d d' : Dict κ β} (h : d.items = d'.items) : d = d' := by
  obtain ⟨items, hnodup⟩ := d
  obtain ⟨items', hnodup'⟩ := d'
  obtain rfl : items = items' := h
  rfl

theorem items_set_of_get?_eq_none {d : Dict κ β} {k : κ} (h : d.get? k = none) (v : β) :
    (d.set k v).items = d.items ++ [(k, v)] := by
  obtain ⟨items, hnodup⟩ := d
  show assign k v items = items ++ [(k, v)]
  replace h : find k items = none := h
  clear hnodup
  induction items with
  | nil => rfl
  | cons e items ih =>
    obtain ⟨k₀, v₀⟩ := e
    by_cases hk : k₀ = k
    · rw [find, if_pos hk] at h
      cases h
    · rw [find, if_neg hk] at h
      rw [assign, if_neg hk, ih h]
      rfl

omit [DecidableEq κ] in
theorem not_mem_keys {k : κ} (h : k ∉ items.map Prod.fst) {e : κ × β} (he : e ∈ items) :
    e.1 ≠ k := by
  rintro rfl
  exact h (List.mem_map.mpr ⟨e, he, rfl⟩)

theorem not_mem_of_get?_eq_none {d : Dict κ β} {k : κ} (h : d.get? k = none) :
    k ∉ d.items.map Prod.fst := by
  intro hmem
  obtain ⟨⟨k', v⟩, hitem, rfl⟩ := List.mem_map.mp hmem
  exact absurd (h.symm.trans ((d.mem_items_iff k' v).mp hitem)) (Option.some_ne_none v).symm

theorem map_items_of_not_mem {k : κ} (h : k ∉ items.map Prod.fst) (g : β → β) :
    (items.map fun e => if e.1 = k then (e.1, g e.2) else e) = items := by
  refine (List.map_congr_left fun e he => ?_).trans (List.map_id items)
  exact if_neg (not_mem_keys h he)

/-- The value of a key that is present is replaced in place. -/
theorem items_set_of_get? {d : Dict κ β} {k : κ} {v : β} (h : d.get? k = some v) (g : β → β) :
    (d.set k (g v)).items = d.items.map fun e => if e.1 = k then (e.1, g e.2) else e := by
  obtain ⟨items, hnodup⟩ := d
  show assign k (g v) items = _
  replace h : find k items = some v := h
  show _ = items.map _
  induction items with
  | nil => cases h
  | cons e items ih =>
    obtain ⟨k₀, v₀⟩ := e
    obtain ⟨hnot, hnodup⟩ := List.nodup_cons.mp hnodup
    by_cases hk : k₀ = k
    · rw [find, if_pos hk] at h
      obtain rfl := Option.some.inj h
      subst hk
      rw [assign, if_pos rfl, List.map_cons, if_pos rfl, map_items_of_not_mem hnot]
    · rw [find, if_neg hk] at h
      rw [assign, if_neg hk, List.map_cons, if_neg hk, ih hnodup h]

/-- Removing a key that is not there changes nothing. -/
theorem erase_of_not_mem {d : Dict κ β} {k : κ} (h : k ∉ d.items.map Prod.fst) : d.erase k = d := by
  obtain ⟨items, hnodup⟩ := d
  have hitems : (items.filter fun e => decide (e.1 ≠ k)) = items :=
    List.filter_eq_self.mpr fun e he => decide_eq_true (not_mem_keys h he)
  simp only [erase, hitems]

theorem items_foldl_erase (keys : List κ) (d : Dict κ β) :
    (keys.foldl erase d).items = d.items.filter fun e => decide (e.1 ∉ keys) := by
  induction keys generalizing d with
  | nil => simp
  | cons k keys ih =>
    rw [List.foldl_cons, ih, erase, List.filter_filter]
    refine List.filter_congr fun e _ => ?_
    simp [Bool.and_comm]

/-- What is kept of the items when the key written to is not. -/
theorem filter_assign (k : κ) (v : β) (items : List (κ × β)) {p : κ × β → Bool}
    (hp : ∀ w, p (k, w) = false) : (assign k v items).filter p = items.filter p := by
  induction items with
  | nil => simp [assign, hp]
  | cons e items ih =>
    obtain ⟨k₀, v₀⟩ := e
    by_cases h : k₀ = k
    · subst h
      simp [assign, hp]
    · simp only [assign, if_neg h, List.filter_cons, ih]

/-! ## Writing item by item -/

section Fold

variable {α : Type} {f : Dict κ β → κ × α → Option (Dict κ β)}
  {R : κ → α → Option β → Option β → Prop}

/-- Writing items with different keys, each at its own key, leaves the other keys and relates what
is at a key before and after by its item. -/
theorem get?_foldlM
    (hf : ∀ d k a d', f d (k, a) = some d' →
      R k a (d.get? k) (d'.get? k) ∧ ∀ k', k' ≠ k → d'.get? k' = d.get? k')
    {items : List (κ × α)} (hnodup : (items.map Prod.fst).Nodup) {d d' : Dict κ β}
    (h : items.foldlM f d = some d') (k : κ) :
    (find k items = none → d'.get? k = d.get? k) ∧
      ∀ a, find k items = some a → R k a (d.get? k) (d'.get? k) := by
  induction items generalizing d with
  | nil =>
    obtain rfl := Option.some.inj h
    exact ⟨fun _ => rfl, nofun⟩
  | cons item items ih =>
    obtain ⟨k₀, a₀⟩ := item
    obtain ⟨d₁, hd₁, hrest⟩ := Option.bind_eq_some_iff.mp h
    obtain ⟨hhere, hothers⟩ := hf d k₀ a₀ d₁ hd₁
    obtain ⟨hnone, hsome⟩ := ih (List.nodup_cons.mp hnodup).2 hrest
    by_cases hk : k₀ = k
    · subst hk
      -- the key does not come again
      have hgone : find k₀ items = none := by
        rw [Option.eq_none_iff_forall_ne_some]
        intro a ha
        rw [find_eq_some_iff k₀ a (List.nodup_cons.mp hnodup).2] at ha
        exact (List.nodup_cons.mp hnodup).1 (List.mem_map.mpr ⟨(k₀, a), ha, rfl⟩)
      rw [find, if_pos rfl, hnone hgone]
      refine ⟨nofun, fun a ha => ?_⟩
      obtain rfl := Option.some.inj ha
      exact hhere
    · rw [find, if_neg hk, ← hothers k (Ne.symm hk)]
      exact ⟨hnone, hsome⟩

end Fold

end Dict

end Pandamonium.Library

/-!
## Records with a log

A record has a log that only grows, and at some point it is closed: from then on its outcome
and its log stay as they are.  `Extends` is this order on the records of one kind, seen
through a `LogView`, and `Grows` is the order on the tables of such records.  A table grows
when a record is added under a new key, and when a record is replaced by one that extends
it; writing back a copy that was taken earlier is harmless exactly if it extends what is
stored by now.
-/

namespace Pandamonium.Library

/-- What is looked at in a record: its log, whether it is closed, and its outcome. -/
structure LogView (τ ε ω : Type) where
  log : τ → List ε
  closed : τ → Bool
  outcome : τ → ω

namespace LogView

variable {τ ε ω : Type} (v : LogView τ ε ω)

/-- The second record continues the first one. -/
structure Extends (t t' : τ) : Prop where
  log : v.log t <+: v.log t'
  closed : v.closed t = true →
    v.closed t' = true ∧ v.outcome t' = v.outcome t ∧ v.log t' = v.log t

variable {v}

theorem Extends.refl (t : τ) : v.Extends t t :=
  ⟨List.prefix_rfl, fun h => ⟨h, rfl, rfl⟩⟩

theorem Extends.trans {t₁ t₂ t₃ : τ} (h : v.Extends t₁ t₂) (h' : v.Extends t₂ t₃) :
    v.Extends t₁ t₃ where
  log := h.log.trans h'.log
  closed := by
    intro hclosed
    obtain ⟨hc, ho, hl⟩ := h.closed hclosed
    obtain ⟨hc', ho', hl'⟩ := h'.closed hc
    exact ⟨hc', ho'.trans ho, hl'.trans hl⟩

theorem Extends.of_open {t t' : τ} (hopen : v.closed t = false) (hlog : v.log t <+: v.log t') :
    v.Extends t t' :=
  ⟨hlog, fun h => by rw [hopen] at h; cases h⟩

theorem Extends.of_eq {t t' : τ} (hlog : v.log t' = v.log t) (hclosed : v.closed t' = v.closed t)
    (houtcome : v.outcome t' = v.outcome t) : v.Extends t t' :=
  ⟨hlog ▸ List.prefix_rfl, fun h => ⟨hclosed.trans h, houtcome, hlog⟩⟩

variable {κ : Type} [DecidableEq κ]

variable (v) in
/-- Every record of the first table is continued in the second one. -/
def Grows (d d' : Dict κ τ) : Prop := d.Carries v.Extends d'

theorem Grows.refl (d : Dict κ τ) : v.Grows d d := Dict.Carries.refl Extends.refl d

theorem Grows.trans {d₁ d₂ d₃ : Dict κ τ} (h : v.Grows d₁ d₂) (h' : v.Grows d₂ d₃) :
    v.Grows d₁ d₃ :=
  Dict.Carries.trans (fun _ _ _ => Extends.trans) h h'

theorem Grows.set {d : Dict κ τ} {k : κ} {t : τ}
    (hext : ∀ t₀, d.get? k = some t₀ → v.Extends t₀ t) : v.Grows d (d.set k t) :=
  Dict.Carries.set Extends.refl hext

end LogView

end Pandamonium.Library
