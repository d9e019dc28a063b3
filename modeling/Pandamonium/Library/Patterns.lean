import Mathlib.Data.List.Basic

/-!
# Patterns and what is put in their place

A pattern says at each place of a text whether it matches there, what it captures and what is left
of the text behind the match, which is shorter.  A text is searched, and its matches are replaced,
from the front on, and what has been replaced is not looked at again.
-/

set_option autoImplicit false

namespace Pandamonium.Library

variable {α β γ : Type}

structure Pattern (α β : Type) where
  /-- What a match at the front of a text captures, and what is left of the text behind it. -/
  matchAt : List α → Option (β × List α)
  shrinks : ∀ {text captured rest}, matchAt text = some (captured, rest) →
    rest.length < text.length

namespace Pattern

/-- What stands before the first match, what it captures, and what is left behind it. -/
def search (m : Pattern α β) : List α → Option (List α × β × List α)
  | [] => none
  | x :: text =>
    match m.matchAt (x :: text) with
    | some (captured, rest) => some ([], captured, rest)
    | none => (search m text).map fun (before, found) => (x :: before, found)

/-- The text up to the first match. -/
def upTo (m : Pattern α β) (text : List α) : List α :=
  match search m text with
  | none => text
  | some (before, _, _) => before

theorem length_of_search {m : Pattern α β} {text before rest : List α} {captured : β}
    (h : m.search text = some (before, captured, rest)) : rest.length < text.length := by
  induction text generalizing before with
  | nil => cases h
  | cons x text ih =>
    rw [search] at h
    split at h
    · rename_i hmatch
      cases h
      exact m.shrinks hmatch
    · obtain ⟨⟨front, found⟩, hsearch, heq⟩ := Option.map_eq_some_iff.mp h
      cases heq
      exact Nat.lt_trans (ih hsearch) (Nat.lt_succ_self _)

/-- Every match is replaced. -/
def sub (m : Pattern α β) (replacement : β → List α) : List α → List α
  | [] => []
  | x :: text =>
    match h : m.matchAt (x :: text) with
    | some (captured, rest) => replacement captured ++ sub m replacement rest
    | none => x :: sub m replacement text
termination_by text => text.length
decreasing_by
  · exact m.shrinks h
  · exact Nat.lt_succ_self _

/-- What lies between the first match of a pattern and the first one of another behind it is
replaced together with them, as long as there are two. -/
def subDelimited (opening : Pattern α β) (closing : Pattern α γ) (replacement : List α → List α)
    (text : List α) : List α :=
  match ho : opening.search text with
  | none => text
  | some (before, _, rest) =>
    match hc : closing.search rest with
    | none => text
    | some (inner, _, later) =>
      before ++ replacement inner ++ subDelimited opening closing replacement later
termination_by text.length
decreasing_by exact Nat.lt_trans (length_of_search hc) (length_of_search ho)

variable {m : Pattern α β} {text rest later before inner : List α} {captured : β} {x : α}

theorem search_of_none (h : m.matchAt (x :: text) = none) :
    m.search (x :: text) = (m.search text).map fun (before, found) => (x :: before, found) := by
  rw [search, h]

theorem sub_cons (m : Pattern α β) (replacement : β → List α) (x : α) (text : List α) :
    m.sub replacement (x :: text) =
      match m.matchAt (x :: text) with
      | some (captured, rest) => replacement captured ++ m.sub replacement rest
      | none => x :: m.sub replacement text := by
  rw [sub]
  split
  · rename_i h
    simp only [h]
  · rename_i h
    simp only [h]

theorem sub_of_none {replacement : β → List α} (h : m.matchAt (x :: text) = none) :
    m.sub replacement (x :: text) = x :: m.sub replacement text := by
  rw [sub_cons, h]

theorem subDelimited_eq (opening : Pattern α β) (closing : Pattern α γ)
    (replacement : List α → List α) (text : List α) :
    subDelimited opening closing replacement text =
      match opening.search text with
      | none => text
      | some (before, _, rest) =>
        match closing.search rest with
        | none => text
        | some (inner, _, later) =>
          before ++ replacement inner ++ subDelimited opening closing replacement later := by
  rw [subDelimited]
  split
  · rename_i ho
    simp only [ho]
  · rename_i ho
    simp only [ho]
    split
    · rename_i hc
      simp only [hc]
    · rename_i hc
      simp only [hc]

theorem search_append_of_none {front : List α}
    (h : ∀ u x v, front = u ++ x :: v → m.matchAt (x :: v ++ text) = none) :
    m.search (front ++ text) =
      (m.search text).map fun (before, found) => (front ++ before, found) := by
  induction front with
  | nil => simp
  | cons x front ih =>
    have hfirst := h [] x front rfl
    have hlater := ih fun u y v hfront => h (x :: u) y v (by rw [hfront]; rfl)
    rw [List.cons_append] at hfirst ⊢
    rw [search_of_none hfirst, hlater, Option.map_map]
    rfl

theorem sub_append_of_none {replacement : β → List α} {front : List α}
    (h : ∀ u x v, front = u ++ x :: v → m.matchAt (x :: v ++ text) = none) :
    m.sub replacement (front ++ text) = front ++ m.sub replacement text := by
  induction front with
  | nil => rfl
  | cons x front ih =>
    have hfirst := h [] x front rfl
    have hlater := ih fun u y v hfront => h (x :: u) y v (by rw [hfront]; rfl)
    rw [List.cons_append] at hfirst ⊢
    rw [sub_of_none hfirst, hlater]
    rfl

theorem search_eq_none {m' : Pattern α γ}
    (h : ∀ cs, m.matchAt cs = none → m'.matchAt cs = none) (hnone : m.search text = none) :
    m'.search text = none := by
  induction text with
  | nil => rfl
  | cons x text ih =>
    cases hmatch : m.matchAt (x :: text) with
    | some found =>
      rw [search, hmatch] at hnone
      cases hnone
    | none =>
      rw [search_of_none hmatch, Option.map_eq_none_iff] at hnone
      rw [search_of_none (h _ hmatch), ih hnone]
      rfl

theorem upTo_eq_self (h : m.search text = none) : m.upTo text = text := by
  rw [upTo, h]

/-- Nothing is replaced where nothing is found. -/
theorem sub_eq_self {replacement : β → List α} (h : m.search text = none) :
    m.sub replacement text = text := by
  induction text with
  | nil => rw [sub]
  | cons x text ih =>
    cases hmatch : m.matchAt (x :: text) with
    | some found =>
      rw [search, hmatch] at h
      cases h
    | none =>
      rw [search_of_none hmatch, Option.map_eq_none_iff] at h
      rw [sub_of_none hmatch, ih h]

end Pattern

end Pandamonium.Library
