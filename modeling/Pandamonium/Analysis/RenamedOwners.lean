import Pandamonium.Model.UploadHandler
import Mathlib.Data.List.Perm.Subperm

/-!
# Which rows get the new owner

No row is lost when its key is rewritten: the new key is none of the new index so far and none of the
rows that are still to come.  The rows that get the new owner are those whose owner, made a text, is
the old one; a row without an owner reads as one of a user of the name of the null value.
-/

set_option autoImplicit false

namespace Pandamonium.UploadOwners

open Pandamonium.Library

variable {rt : Runtime} {oldOwner newOwner : String}

section Property

variable (rt)

/-- The row says in a text that it is one of the owner. -/
def Owned (oldOwner : String) (row : Value) : Prop :=
  ∃ (info : Object) (owner : String), row = .dict info ∧ info.get? "owner" = some (.str owner) ∧
    normalized rt owner = normalized rt oldOwner

/-- A row of the old owner has the new one and what it had otherwise; another row is as it was, under
its key. -/
def Renamed (oldOwner newOwner : String) (item item' : String × Value) : Prop :=
  (Owned rt oldOwner item.2 ∧ ∃ info : Object, item.2 = .dict info ∧
      item'.2 = .dict (info.set "owner" (.str (strip newOwner)))) ∨
    (¬ Owned rt oldOwner item.2 ∧ item' = item)

/-- Where there are two different names, exactly the rows of the old owner are renamed and none is
lost; otherwise nothing changes. -/
def RenamesExactly (oldOwner newOwner : String) (current : Index) : Prop :=
  if areDifferent rt oldOwner newOwner then
    List.Forall₂ (Renamed rt oldOwner newOwner) current.items
      (renameOwner rt oldOwner newOwner current).1.items
  else (renameOwner rt oldOwner newOwner current).1 = current

/-- No owner that is not a text reads as the old one. -/
def Texted (oldOwner : String) (row : Value) : Prop :=
  ∀ (info : Object) (owner : Value), row = .dict info → info.get? "owner" = some owner →
    normalized rt (owner.text rt) = normalized rt oldOwner → ∃ text, owner = .str text

end Property

/-! ## New keys -/

theorem toString_inj {m n : ℕ} (h : toString m = toString n) : m = n := by
  have hdigits : Nat.toDigits 10 m = Nat.toDigits 10 n := by
    rw [← Nat.toList_repr, ← Nat.toList_repr]
    exact congrArg String.toList h
  rw [← @Nat.ofDigitChars_ten_toDigits m, hdigits, Nat.ofDigitChars_ten_toDigits]

theorem append_left_cancel {s t t' : String} (h : s ++ t = s ++ t') : t = t' := by
  have hlist := congrArg String.toList h
  rw [String.toList_append, String.toList_append] at hlist
  exact String.toList_inj.mp (List.append_cancel_left hlist)

/-- Where no number of so many is free, so many keys are taken. -/
theorem numbers_subset {stem : String} {taken : List String} {tries index : ℕ}
    (h : firstFree stem taken tries index ∈ taken) :
    ∀ i < tries, stem ++ ":" ++ toString (index + i) ∈ taken := by
  induction tries generalizing index with
  | zero => exact fun i hi => absurd hi (Nat.not_lt_zero i)
  | succ tries ih =>
    rw [firstFree] at h
    split at h
    · rename_i hfirst
      intro i hi
      cases i with
      | zero => exact hfirst
      | succ i =>
        have hrest := ih h i (by omega)
        rwa [show index + 1 + i = index + (i + 1) by omega] at hrest
    · rename_i hfirst
      exact absurd h hfirst

/-- Of one number more than there are keys one is free. -/
theorem firstFree_not_mem (stem : String) (taken : List String) (index : ℕ) :
    firstFree stem taken (taken.length + 1) index ∉ taken := by
  intro h
  have hsubset := numbers_subset h
  have hnodup : ((List.range (taken.length + 1)).map
      fun i => stem ++ ":" ++ toString (index + i)).Nodup := by
    refine List.nodup_range.map fun i j hij => ?_
    have := toString_inj (append_left_cancel hij)
    omega
  have hmem : ((List.range (taken.length + 1)).map
      fun i => stem ++ ":" ++ toString (index + i)) ⊆ taken := by
    intro key hkey
    obtain ⟨i, hi, rfl⟩ := List.mem_map.mp hkey
    exact hsubset i (List.mem_range.mp hi)
  have hlength := (List.subperm_of_subset hnodup hmem).length_le
  rw [List.length_map, List.length_range] at hlength
  omega

theorem uniqueUploadIndexKey_not_mem (baseKey : String) (usedKeys reservedKeys : List String)
    (info : Object) :
    uniqueUploadIndexKey rt baseKey usedKeys reservedKeys info ∉ usedKeys ++ reservedKeys := by
  unfold uniqueUploadIndexKey
  dsimp only
  split
  · assumption
  · split
    · assumption
    · exact firstFree_not_mem _ _ _

theorem get?_eq_none_of_not_mem {d : Index} {key : String} (h : key ∉ d.items.map Prod.fst) :
    d.get? key = none := by
  cases hget : d.get? key with
  | none => rfl
  | some row =>
    exact absurd (List.mem_map.mpr ⟨(key, row), (d.mem_items_iff key row).mpr hget, rfl⟩) h

/-! ## One row -/

theorem ne_empty_of_areDifferent (h : areDifferent rt oldOwner newOwner = true) :
    normalized rt oldOwner ≠ "" := (of_decide_eq_true h).1

/-- The loop takes a row of the old owner for one, and where every owner is a text no other. -/
theorem matchesOwner_of_owned {row : Value} (h : Owned rt oldOwner row) :
    matchesOwner rt (normalized rt oldOwner) row = true := by
  obtain ⟨info, owner, rfl, howner, hsame⟩ := h
  refine decide_eq_true ?_
  rw [ownerOf, howner]
  exact hsame

theorem owned_of_matchesOwner (hlower : rt.lower "" = "") {row : Value}
    (hname : normalized rt oldOwner ≠ "")
    (h : matchesOwner rt (normalized rt oldOwner) row = true) (htexted : Texted rt oldOwner row) :
    Owned rt oldOwner row := by
  cases row with
  | dict info =>
    have hsame := of_decide_eq_true h
    unfold ownerOf at hsame
    cases howner : Object.get? info "owner" with
    | none =>
      rw [howner] at hsame
      refine absurd ?_ hname
      rw [← hsame]
      simp [normalized, Value.text, hlower]
    | some owner =>
      rw [howner] at hsame
      obtain ⟨text, rfl⟩ := htexted info owner rfl howner hsame
      exact ⟨info, text, rfl, howner, hsame⟩
  | _ => cases h

/-- A row that is put in the new index under a key that is not taken, which is its own where the
owner stays. -/
theorem renamedRow_cases (originalKeys usedKeys : List String) (key : String) (row : Value) :
    (matchesOwner rt (normalized rt oldOwner) row = true ∧ ∃ info : Object, row = .dict info ∧
      (renamedRow rt (normalized rt oldOwner) newOwner originalKeys usedKeys key row).2 =
        .dict (info.set "owner" (.str newOwner)) ∧
      (renamedRow rt (normalized rt oldOwner) newOwner originalKeys usedKeys key row).1 ∉
        usedKeys ++ originalKeys.filter (· ≠ key)) ∨
    (matchesOwner rt (normalized rt oldOwner) row = false ∧
      renamedRow rt (normalized rt oldOwner) newOwner originalKeys usedKeys key row =
        (key, row)) := by
  cases hmatches : matchesOwner rt (normalized rt oldOwner) row with
  | false =>
    refine .inr ⟨rfl, ?_⟩
    rw [renamedRow, hmatches]
    rfl
  | true =>
    left
    cases row with
    | dict info =>
      rw [renamedRow, hmatches]
      exact ⟨rfl, info, rfl, rfl, uniqueUploadIndexKey_not_mem _ _ _ _⟩
    | _ => cases hmatches

/-! ## The loop -/

/-- What the loop makes of one row. -/
def Put (rt : Runtime) (oldOwner newOwner : String) (item item' : String × Value) : Prop :=
  (matchesOwner rt (normalized rt oldOwner) item.2 = true ∧ ∃ info : Object,
      item.2 = .dict info ∧ item'.2 = .dict (info.set "owner" (.str newOwner))) ∨
    (matchesOwner rt (normalized rt oldOwner) item.2 = false ∧ item' = item)

/-- The rows that are left go behind those of the new index, each under a new key. -/
theorem renameRows_items {originalKeys : List String} {rows : List (String × Value)}
    {updated : Index} (hrows : (rows.map Prod.fst).Nodup)
    (hkeys : ∀ key ∈ rows.map Prod.fst, key ∈ originalKeys)
    (hfree : ∀ key ∈ rows.map Prod.fst, key ∉ updated.items.map Prod.fst) :
    ∃ rows', (renameRows rt (normalized rt oldOwner) newOwner originalKeys updated rows).items =
        updated.items ++ rows' ∧ List.Forall₂ (Put rt oldOwner newOwner) rows rows' := by
  induction rows generalizing updated with
  | nil => exact ⟨[], (List.append_nil _).symm, .nil⟩
  | cons item rows ih =>
    obtain ⟨key, row⟩ := item
    rw [List.map_cons, List.nodup_cons] at hrows
    have hkey := hfree key (List.mem_cons_self)
    have hcases := @renamedRow_cases rt oldOwner newOwner originalKeys
      (updated.items.map Prod.fst) key row
    -- the new key is that of no row that is in the new index or still to come
    have hnew : (renamedRow rt (normalized rt oldOwner) newOwner originalKeys
          (updated.items.map Prod.fst) key row).1 ∉ updated.items.map Prod.fst ∧
        ∀ key' ∈ rows.map Prod.fst, key' ≠ (renamedRow rt (normalized rt oldOwner) newOwner
          originalKeys (updated.items.map Prod.fst) key row).1 := by
      obtain ⟨-, info, -, -, hnot⟩ | ⟨-, heq⟩ := hcases
      · rw [List.mem_append, not_or] at hnot
        refine ⟨hnot.1, fun key' hkey' heq => hnot.2 ?_⟩
        rw [← heq, List.mem_filter]
        refine ⟨hkeys key' (List.mem_cons_of_mem _ hkey'), decide_eq_true ?_⟩
        rintro rfl
        exact hrows.1 hkey'
      · rw [heq]
        refine ⟨hkey, fun key' hkey' heq => ?_⟩
        subst heq
        exact hrows.1 hkey'
    have hput : Put rt oldOwner newOwner (key, row)
        (renamedRow rt (normalized rt oldOwner) newOwner originalKeys
          (updated.items.map Prod.fst) key row) := by
      obtain ⟨hmatches, info, hinfo, hrow, -⟩ | ⟨hmatches, heq⟩ := hcases
      · exact .inl ⟨hmatches, info, hinfo, hrow⟩
      · exact .inr ⟨hmatches, heq⟩
    rw [renameRows]
    generalize renamedRow rt (normalized rt oldOwner) newOwner originalKeys
      (updated.items.map Prod.fst) key row = renamed at hnew hput
    have hset : (updated.set renamed.1 renamed.2).items = updated.items ++ [renamed] :=
      Dict.items_set_of_get?_eq_none (get?_eq_none_of_not_mem hnew.1) renamed.2
    obtain ⟨rows', hitems, hforall⟩ := @ih (updated.set renamed.1 renamed.2) hrows.2
      (fun key' hkey' => hkeys key' (List.mem_cons_of_mem _ hkey')) (by
        intro key' hkey' hmem
        rw [hset, List.map_append, List.mem_append] at hmem
        rcases hmem with hmem | hmem
        · exact hfree key' (List.mem_cons_of_mem _ hkey') hmem
        · exact hnew.2 key' hkey' (List.mem_singleton.mp hmem))
    refine ⟨renamed :: rows', ?_, .cons hput hforall⟩
    rw [hitems, hset, List.append_assoc]
    rfl

/-! ## The index -/

theorem put_renameOwner (hdifferent : areDifferent rt oldOwner newOwner = true) (current : Index) :
    List.Forall₂ (Put rt oldOwner (strip newOwner)) current.items
      (renameOwner rt oldOwner newOwner current).1.items := by
  rw [renameOwner, if_pos hdifferent]
  obtain ⟨rows', hitems, hforall⟩ := @renameRows_items rt oldOwner (strip newOwner)
    (current.items.map Prod.fst) current.items Dict.empty current.nodup (fun _ h => h)
    (fun _ _ h => by cases h)
  rw [hitems]
  exact hforall

theorem set_owner_ne {info : Object} {owner : Value} {name : String}
    (howner : info.get? "owner" = some owner) (hother : ∀ text, owner ≠ .str text) :
    Value.dict (info.set "owner" (.str name)) ≠ .dict info := by
  intro h
  have hget : (info.set "owner" (.str name)).get? "owner" = info.get? "owner" := by
    rw [Value.dict.inj h]
  rw [Object.get?_set, if_pos rfl, howner] at hget
  exact hother name (Option.some.inj hget).symm

/-- What the loop makes of a row is what is to be made of it exactly where its owner is a text or
does not read as the old one. -/
theorem renamed_iff_texted (hlower : rt.lower "" = "") (hname : normalized rt oldOwner ≠ "")
    {item item' : String × Value} (h : Put rt oldOwner (strip newOwner) item item') :
    Renamed rt oldOwner newOwner item item' ↔ Texted rt oldOwner item.2 := by
  obtain ⟨hmatches, info, hinfo, hrow⟩ | ⟨hmatches, rfl⟩ := h
  · constructor
    · intro h info' owner hinfo' howner hreads
      obtain rfl := Value.dict.inj (hinfo.symm.trans hinfo')
      obtain ⟨⟨info', text, hinfo'', htext, -⟩, -⟩ | ⟨-, rfl⟩ := h
      · obtain rfl := Value.dict.inj (hinfo.symm.trans hinfo'')
        exact ⟨text, Option.some.inj (howner.symm.trans htext)⟩
      · by_contra hother
        exact set_owner_ne howner (fun text htext => hother ⟨text, htext⟩)
          (hrow.symm.trans hinfo)
    · exact fun htexted =>
        .inl ⟨owned_of_matchesOwner hlower hname hmatches htexted, info, hinfo, hrow⟩
  · constructor
    · intro _ info owner hinfo howner hreads
      rw [hinfo, matchesOwner, ownerOf, howner] at hmatches
      exact absurd hreads (of_decide_eq_false hmatches)
    · refine fun _ => .inr ⟨fun howned => ?_, rfl⟩
      rw [matchesOwner_of_owned howned] at hmatches
      cases hmatches

/-- Two relations of the items of lists, one of which comes down to a property of the first item
under the other. -/
theorem forall₂_iff_forall_mem {α β : Type} {R S : α → β → Prop} {P : α → Prop} {l : List α}
    {l' : List β} (h : List.Forall₂ S l l') (hiff : ∀ a b, S a b → (R a b ↔ P a)) :
    List.Forall₂ R l l' ↔ ∀ a ∈ l, P a := by
  induction h with
  | nil => exact iff_of_true .nil fun _ h => absurd h List.not_mem_nil
  | cons hab _ ih => rw [List.forall₂_cons, List.forall_mem_cons, hiff _ _ hab, ih]

/-- The owner is changed of exactly the rows of the old owner, every row is kept under a key of its
own, and nothing else is changed, exactly where no row has an owner that is not a text and reads as
the old one. -/
theorem renamesExactly_iff (rt : Runtime) (hlower : rt.lower "" = "") (oldOwner newOwner : String)
    (current : Index) :
    RenamesExactly rt oldOwner newOwner current ↔
      (areDifferent rt oldOwner newOwner = true →
        ∀ item ∈ current.items, Texted rt oldOwner item.2) := by
  unfold RenamesExactly
  split
  case isFalse hsame =>
    refine iff_of_true ?_ fun h => absurd h hsame
    rw [renameOwner, if_neg hsame]
  case isTrue hdifferent =>
    rw [forall_prop_of_true hdifferent]
    exact forall₂_iff_forall_mem (put_renameOwner hdifferent current) fun _ _ hput =>
      renamed_iff_texted hlower (ne_empty_of_areDifferent hdifferent) hput

/-! ## Two rows of one owner -/

/-- The row of an upload. -/
def uploadRow (owner : Value) : Value :=
  .dict [("id", .str "0123"), ("hash", .str "abc"), ("owner", owner)]

/-- A row of the old owner, one of the new owner with the same content, and one without owner. -/
def someIndex : Index :=
  ((Dict.empty.set "ann:abc" (uploadRow (.str "Ann"))).set "bob:abc" (uploadRow (.str "bob"))).set
    "abc" (uploadRow .null)

theorem texted_uploadRow {owner : Value} (h : normalized rt (owner.text rt) =
    normalized rt oldOwner → ∃ text, owner = .str text) : Texted rt oldOwner (uploadRow owner) := by
  intro info owner' hinfo howner
  obtain rfl := Value.dict.inj hinfo
  obtain rfl := Option.some.inj howner
  exact h

theorem renamesExactly_collision : RenamesExactly Runtime.plain "ann" "bob" someIndex ∧
    ((renameOwner Runtime.plain "ann" "bob" someIndex).1.items.map Prod.fst =
      ["bob:abc:0123", "bob:abc", "abc"]) := by
  have hlower : Runtime.plain.lower "" = "" := by decide
  refine ⟨(renamesExactly_iff Runtime.plain hlower "ann" "bob" someIndex).mpr fun _ => ?_, ?_⟩
  · have hitems : someIndex.items = [("ann:abc", uploadRow (.str "Ann")),
        ("bob:abc", uploadRow (.str "bob")), ("abc", uploadRow .null)] := rfl
    have hnull : normalized Runtime.plain (Value.null.text Runtime.plain) ≠
        normalized Runtime.plain "ann" := by decide
    rw [hitems, List.forall_mem_cons, List.forall_mem_cons, List.forall_mem_singleton]
    exact ⟨texted_uploadRow fun _ => ⟨_, rfl⟩, texted_uploadRow fun _ => ⟨_, rfl⟩,
      texted_uploadRow fun h => absurd h hnull⟩
  · decide

/-- The row without an owner is given to the one who was called none. -/
theorem not_renamesExactly_null : ¬ RenamesExactly Runtime.plain "none" "bob" someIndex := by
  have hlower : Runtime.plain.lower "" = "" := by decide
  rw [renamesExactly_iff Runtime.plain hlower]
  intro h
  have hmem : ("abc", uploadRow .null) ∈ someIndex.items :=
    List.mem_cons_of_mem _ (List.mem_cons_of_mem _ List.mem_cons_self)
  obtain ⟨text, htext⟩ := h (by decide) _ hmem _ .null rfl rfl (by decide)
  cases htext

end Pandamonium.UploadOwners
