import Mathlib.Data.List.Basic

/-!
# Statements about every place in a list

`EveryPlace P l` says `P` of each element together with what stands before and after it.
The rules below are its recursion over the list, and what becomes of it when the list is
cut or filtered.
-/

set_option autoImplicit false

namespace Pandamonium.Library

variable {α : Type}

/-- `P before x after` wherever the list splits at an element `x`. -/
def EveryPlace (P : List α → α → List α → Prop) (l : List α) : Prop :=
  ∀ before x after, l = before ++ x :: after → P before x after

theorem everyPlace_nil (P : List α → α → List α → Prop) : EveryPlace P [] := by
  intro before x after h
  simp at h

theorem everyPlace_cons {P : List α → α → List α → Prop} {y : α} {l : List α} :
    EveryPlace P (y :: l) ↔
      P [] y l ∧ EveryPlace (fun before x after => P (y :: before) x after) l := by
  constructor
  · intro h
    refine ⟨h [] y l rfl, ?_⟩
    intro before x after hl
    apply h
    rw [hl, List.cons_append]
  · rintro ⟨hhead, htail⟩ before x after hl
    cases before with
    | nil =>
      rw [List.nil_append, List.cons.injEq] at hl
      obtain ⟨rfl, rfl⟩ := hl
      exact hhead
    | cons z before =>
      rw [List.cons_append, List.cons.injEq] at hl
      obtain ⟨rfl, rfl⟩ := hl
      exact htail before x after rfl

/-- What does not look back is a statement about the tails. -/
theorem everyPlace_tails {P : α → List α → Prop} {y : α} {l : List α} :
    EveryPlace (fun _ x after => P x after) (y :: l) ↔
      P y l ∧ EveryPlace (fun _ x after => P x after) l :=
  everyPlace_cons

/-- `P before after` wherever the list splits at `x`. -/
def AtPlace (P : List α → List α → Prop) (x : α) (l : List α) : Prop :=
  ∀ before after, l = before ++ x :: after → P before after

theorem atPlace_cons_self {P : List α → List α → Prop} {x : α} {l : List α} (hx : x ∉ l) :
    AtPlace P x (x :: l) ↔ P [] l := by
  constructor
  · intro h
    exact h [] l rfl
  · intro h before after hl
    cases before with
    | nil =>
      rw [List.nil_append, List.cons.injEq] at hl
      rw [← hl.2]
      exact h
    | cons z before =>
      rw [List.cons_append, List.cons.injEq] at hl
      have hmem : x ∈ l := by
        rw [hl.2]
        simp
      exact absurd hmem hx

theorem atPlace_cons_of_ne {P : List α → List α → Prop} {x y : α} {l : List α} (hxy : x ≠ y) :
    AtPlace P x (y :: l) ↔ AtPlace (fun before after => P (y :: before) after) x l := by
  constructor
  · intro h before after hl
    apply h
    rw [hl, List.cons_append]
  · intro h before after hl
    cases before with
    | nil =>
      rw [List.nil_append, List.cons.injEq] at hl
      exact absurd hl.1.symm hxy
    | cons z before =>
      rw [List.cons_append, List.cons.injEq] at hl
      obtain ⟨rfl, rfl⟩ := hl
      exact h before after rfl

end Pandamonium.Library
