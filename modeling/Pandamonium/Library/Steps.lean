import Mathlib.Data.List.Basic

/-!
# Programs as lists of steps

A program that can be cut off is the list of its steps with what each does to the state.
`performAll` runs a list of them, `stepsBefore` is what has been done when a step is due.
The rules say what such a run preserves, leaves alone, or does to one component.
-/

set_option autoImplicit false

namespace Pandamonium.Library

variable {ι σ β : Type}

/-- The state after the steps. -/
def performAll (perform : ι → σ → σ) (steps : List ι) (s : σ) : σ :=
  steps.foldl (fun s i => perform i s) s

@[simp] theorem performAll_nil (perform : ι → σ → σ) (s : σ) : performAll perform [] s = s := rfl

@[simp] theorem performAll_cons (perform : ι → σ → σ) (i : ι) (steps : List ι) (s : σ) :
    performAll perform (i :: steps) s = performAll perform steps (perform i s) := rfl

theorem performAll_append (perform : ι → σ → σ) (first last : List ι) (s : σ) :
    performAll perform (first ++ last) s = performAll perform last (performAll perform first s) :=
  List.foldl_append

/-- What has been done when the step is due. -/
def stepsBefore [DecidableEq ι] (steps : List ι) (i : ι) : List ι :=
  steps.takeWhile fun j => j ≠ i

theorem stepsBefore_subset [DecidableEq ι] (steps : List ι) (i : ι) :
    ∀ j ∈ stepsBefore steps i, j ∈ steps :=
  fun _ hj => (List.takeWhile_sublist _).subset hj

theorem stepsBefore_append_of_mem [DecidableEq ι] {first : List ι} (last : List ι) {i : ι}
    (h : i ∈ first) : stepsBefore (first ++ last) i = stepsBefore first i := by
  induction first with
  | nil => cases h
  | cons j first ih =>
    by_cases hj : j = i
    · simp [stepsBefore, hj]
    · have hi : i ∈ first := List.mem_of_ne_of_mem (Ne.symm hj) h
      have hrest := ih hi
      unfold stepsBefore at hrest ⊢
      simp only [List.cons_append, List.takeWhile_cons, ne_eq, hj, not_false_eq_true, decide_true,
        if_true, hrest]

theorem stepsBefore_append_of_not_mem [DecidableEq ι] {first : List ι} (last : List ι) {i : ι}
    (h : i ∉ first) : stepsBefore (first ++ last) i = first ++ stepsBefore last i := by
  unfold stepsBefore
  apply List.takeWhile_append_of_pos
  intro j hj
  rw [decide_eq_true_eq]
  rintro rfl
  exact h hj

theorem stepsBefore_concat [DecidableEq ι] {first : List ι} {x i : ι} (hx : x ∉ first)
    (hi : i ∈ first ++ [x]) : ∀ j ∈ stepsBefore (first ++ [x]) i, j ∈ first := by
  intro j hj
  by_cases hmem : i ∈ first
  · rw [stepsBefore_append_of_mem _ hmem] at hj
    exact stepsBefore_subset first i j hj
  · have heq : i = x := by
      rcases List.mem_append.mp hi with h | h
      · exact absurd h hmem
      · exact List.mem_singleton.mp h
    subst heq
    rw [stepsBefore_append_of_not_mem _ hx] at hj
    simpa [stepsBefore] using hj

/-- A program cut off before a step has not come further than what precedes it. -/
theorem take_of_not_mem {first last : List ι} {x : ι} {n : ℕ}
    (h : x ∉ (first ++ x :: last).take n) : (first ++ x :: last).take n = first.take n := by
  rw [List.take_append] at h ⊢
  cases hn : n - first.length with
  | zero => simp
  | succ k =>
    rw [hn] at h
    simp at h

/-- A program cut off after a step has done what precedes it. -/
theorem take_of_mem {first last : List ι} {x : ι} {n : ℕ} (hx : x ∉ first)
    (h : x ∈ (first ++ x :: last).take n) :
    ∃ k, (first ++ x :: last).take n = first ++ x :: last.take k := by
  rw [List.take_append] at h ⊢
  cases hn : n - first.length with
  | zero =>
    rw [hn] at h
    simp only [List.take_zero, List.append_nil] at h
    exact absurd (List.mem_of_mem_take h) hx
  | succ k =>
    refine ⟨k, ?_⟩
    rw [List.take_of_length_le (by omega), List.take_succ_cons]

/-- What every step preserves holds at the end. -/
theorem performAll_preserves {perform : ι → σ → σ} {P : σ → Prop} {steps : List ι}
    (hstep : ∀ i ∈ steps, ∀ s, P s → P (perform i s)) {s : σ} (hs : P s) :
    P (performAll perform steps s) := by
  induction steps generalizing s with
  | nil => exact hs
  | cons i steps ih =>
    apply ih
    · intro j hj
      exact hstep j (List.mem_cons_of_mem i hj)
    · exact hstep i List.mem_cons_self s hs

/-- What no step touches is as it was. -/
theorem performAll_frame {perform : ι → σ → σ} {f : σ → β} {steps : List ι}
    (hkeep : ∀ i ∈ steps, ∀ s, f (perform i s) = f s) (s : σ) :
    f (performAll perform steps s) = f s :=
  performAll_preserves (fun i hi s' h => (hkeep i hi s').trans h) rfl

/-- A component that every step changes on its own is run on its own. -/
theorem performAll_component {perform : ι → σ → σ} {perform' : ι → β → β} {f : σ → β}
    {steps : List ι} (hstep : ∀ i ∈ steps, ∀ s, f (perform i s) = perform' i (f s)) (s : σ) :
    f (performAll perform steps s) = performAll perform' steps (f s) := by
  induction steps generalizing s with
  | nil => rfl
  | cons i steps ih =>
    rw [performAll_cons, performAll_cons, ih fun j hj => hstep j (List.mem_cons_of_mem i hj),
      hstep i List.mem_cons_self]

end Pandamonium.Library
