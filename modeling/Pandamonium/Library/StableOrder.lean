import Mathlib.Data.List.Sort

/-!
# Rows in the order of a key

A query that orders its rows by a key leaves rows with the same key in the order they were inserted
in.  The rules say what that order is after rows are removed, changed or inserted.
-/

set_option autoImplicit false

namespace Pandamonium.Library

variable {α : Type} {key : α → ℕ} {l l' : List α} {a b : α}

/-- The rows by their keys, those with the same key as they stand. -/
def orderedBy (key : α → ℕ) (l : List α) : List α := l.insertionSort fun a b => key a ≤ key b

theorem perm_orderedBy (key : α → ℕ) (l : List α) : (orderedBy key l).Perm l :=
  List.perm_insertionSort _ l

@[simp] theorem mem_orderedBy : a ∈ orderedBy key l ↔ a ∈ l := List.mem_insertionSort _

theorem pairwise_orderedBy (key : α → ℕ) (l : List α) :
    (orderedBy key l).Pairwise fun a b => key a ≤ key b := by
  have : Std.Total fun a b : α => key a ≤ key b := ⟨fun a b => Nat.le_total (key a) (key b)⟩
  have : IsTrans α fun a b => key a ≤ key b := ⟨fun _ _ _ => Nat.le_trans⟩
  exact List.pairwise_insertionSort _ l

/-- A function of the rows that keeps their keys. -/
theorem orderedBy_map {f : α → α} (hf : ∀ a, key (f a) = key a) (l : List α) :
    orderedBy key (l.map f) = (orderedBy key l).map f := by
  refine (List.map_insertionSort _ _ f l fun a _ b _ => ?_).symm
  rw [hf, hf]

/-- A row put before the first one whose key is not smaller. -/
def insertBy (key : α → ℕ) (a : α) (l : List α) : List α :=
  l.orderedInsert (fun a b => key a ≤ key b) a

@[simp] theorem insertBy_nil : insertBy key a [] = [a] := rfl

theorem insertBy_of_le (l : List α) (h : key a ≤ key b) : insertBy key a (b :: l) = a :: b :: l :=
  List.orderedInsert_cons_of_le _ l h

theorem insertBy_of_not_le (l : List α) (h : ¬ key a ≤ key b) :
    insertBy key a (b :: l) = b :: insertBy key a l := List.orderedInsert_of_not_le _ l h

theorem orderedBy_cons (a : α) (l : List α) :
    orderedBy key (a :: l) = insertBy key a (orderedBy key l) := rfl

/-- A row that is not after any of the others comes first. -/
theorem insertBy_of_forall_le (h : ∀ b ∈ l, key a ≤ key b) : insertBy key a l = a :: l := by
  cases l with
  | nil => rfl
  | cons b l => exact insertBy_of_le l (h b List.mem_cons_self)

/-- A row that is removed from the order leaves the others. -/
theorem filter_insertBy (p : α → Bool) (a : α) (hl : l.Pairwise fun a b => key a ≤ key b) :
    (insertBy key a l).filter p =
      if p a then insertBy key a (l.filter p) else l.filter p := by
  induction l with
  | nil => cases hp : p a <;> simp [hp]
  | cons b l ih =>
    obtain ⟨hb, hl⟩ := List.pairwise_cons.mp hl
    by_cases hle : key a ≤ key b
    · have hall : ∀ c ∈ (b :: l).filter p, key a ≤ key c := by
        intro c hc
        rcases List.mem_cons.mp (List.mem_filter.mp hc).1 with rfl | hc
        · exact hle
        · exact hle.trans (hb c hc)
      rw [insertBy_of_le l hle, List.filter_cons, insertBy_of_forall_le hall]
    · rw [insertBy_of_not_le l hle, List.filter_cons, ih hl, List.filter_cons]
      cases p b with
      | true =>
        rw [if_pos rfl, if_pos rfl, insertBy_of_not_le _ hle]
        split
        · rfl
        · rfl
      | false => rfl

theorem orderedBy_filter (p : α → Bool) (l : List α) :
    orderedBy key (l.filter p) = (orderedBy key l).filter p := by
  induction l with
  | nil => rfl
  | cons a l ih =>
    rw [orderedBy_cons, filter_insertBy p a (pairwise_orderedBy key l), List.filter_cons]
    split
    · rw [orderedBy_cons, ih]
    · exact ih

/-- A row that is not before any other comes last when it is inserted. -/
theorem orderedBy_concat (h : ∀ b ∈ l, key b ≤ key a) :
    orderedBy key (l ++ [a]) = orderedBy key l ++ [a] := by
  induction l with
  | nil => rfl
  | cons b l ih =>
    rw [List.cons_append, orderedBy_cons, ih fun c hc => h c (List.mem_cons_of_mem b hc),
      orderedBy_cons]
    have hba := h b List.mem_cons_self
    generalize orderedBy key l = rows
    induction rows with
    | nil => exact insertBy_of_le [] hba
    | cons c rows ih =>
      by_cases hle : key b ≤ key c
      · rw [List.cons_append, insertBy_of_le _ hle, insertBy_of_le _ hle]
        rfl
      · rw [List.cons_append, insertBy_of_not_le _ hle, insertBy_of_not_le _ hle, ih]
        rfl

/-- Rows that are before all others come first when they are inserted. -/
theorem orderedBy_append_of_lt (hnew : l'.Pairwise fun a b => key a ≤ key b)
    (h : ∀ a ∈ l, ∀ b ∈ l', key b < key a) :
    orderedBy key (l ++ l') = l' ++ orderedBy key l := by
  induction l with
  | nil => rw [List.nil_append, orderedBy, hnew.insertionSort_eq]; exact (List.append_nil l').symm
  | cons a l ih =>
    rw [List.cons_append, orderedBy_cons, ih fun c hc => h c (List.mem_cons_of_mem a hc),
      orderedBy_cons]
    have ha := h a List.mem_cons_self
    clear ih h hnew
    induction l' with
    | nil => rfl
    | cons b l' ih =>
      have hlt : ¬ key a ≤ key b := Nat.not_le.mpr (ha b List.mem_cons_self)
      rw [List.cons_append, insertBy_of_not_le _ hlt,
        ih fun c hc => ha c (List.mem_cons_of_mem b hc)]
      rfl

/-- Where a row that is inserted comes first, it is before all others. -/
theorem lt_of_orderedBy_eq_cons {rest : List α} (hnodup : (l ++ b :: l').Nodup)
    (h : orderedBy key (l ++ b :: l') = b :: rest) : ∀ a ∈ l, key b < key a := by
  intro a ha
  by_contra hlt
  have hpair : [a, b].Sublist (l ++ b :: l') :=
    (List.singleton_sublist.mpr ha).append (List.singleton_sublist.mpr List.mem_cons_self)
  have hordered : [a, b].Sublist (b :: rest) := by
    rw [← h]
    have : Std.Total fun a b : α => key a ≤ key b := ⟨fun a b => Nat.le_total (key a) (key b)⟩
    have : IsTrans α fun a b => key a ≤ key b := ⟨fun _ _ _ => Nat.le_trans⟩
    exact List.pair_sublist_insertionSort (Nat.not_lt.mp hlt) hpair
  have hrest : (b :: rest).Nodup := h ▸ (perm_orderedBy key _).nodup_iff.mpr hnodup
  have hne : a ≠ b := by
    rintro rfl
    exact (List.disjoint_of_nodup_append hnodup) ha List.mem_cons_self
  cases hordered with
  | cons _ hsub =>
    exact (List.nodup_cons.mp hrest).1 (hsub.subset (List.mem_cons_of_mem a List.mem_cons_self))
  | cons_cons _ _ => exact hne rfl

end Pandamonium.Library

/-!
## The first of the largest elements

`firstMax key l` is what `max(l, key=key)` returns on a nonempty list, and the head of the
list sorted by decreasing key with a stable sort.
-/

namespace Pandamonium.Library

variable {α κ : Type} [LT κ] [DecidableLT κ] (key : α → κ)

/-- The larger of two elements, the first one if they are tied. -/
def larger (a b : α) : α := if key a < key b then b else a

/-- The first element with the largest key. -/
def firstMax : List α → Option α
  | [] => none
  | a :: l => some (l.foldl (larger key) a)

theorem larger_eq (a b : α) : larger key a b = a ∨ larger key a b = b := by
  unfold larger
  split
  · exact Or.inr rfl
  · exact Or.inl rfl

/-- Folding with `larger` ends at the start or in the list. -/
theorem foldl_larger_mem (a : α) (l : List α) : l.foldl (larger key) a ∈ a :: l := by
  induction l generalizing a with
  | nil => exact List.mem_singleton.mpr rfl
  | cons b l ih =>
    rw [List.foldl_cons]
    have h := ih (larger key a b)
    rcases larger_eq key a b with hab | hab
    · rw [hab] at h ⊢
      rcases List.mem_cons.mp h with h | h
      · rw [h]
        exact List.mem_cons_self
      · exact List.mem_cons_of_mem _ (List.mem_cons_of_mem _ h)
    · rw [hab] at h ⊢
      exact List.mem_cons_of_mem _ h

theorem mem_of_firstMax {l : List α} {a : α} (h : firstMax key l = some a) : a ∈ l := by
  cases l with
  | nil => cases h
  | cons b l =>
    rw [firstMax, Option.some.injEq] at h
    rw [← h]
    exact foldl_larger_mem key b l

theorem firstMax_eq_none {l : List α} : firstMax key l = none ↔ l = [] := by
  cases l with
  | nil => simp [firstMax]
  | cons b l => simp [firstMax]

omit [LT κ] [DecidableLT κ] in
theorem key_firstMax_pair (key : α → ℕ) (a b : α) : (firstMax key [a, b]).map key = some (max (key a) (key b)) := by
  simp only [firstMax, List.foldl_cons, List.foldl_nil, larger, Option.map_some, Option.some.injEq]
  split
  · omega
  · omega

end Pandamonium.Library
