import Mathlib.Data.Nat.Notation
import Mathlib.Logic.Relation

/-!
# Transition systems with an executable step

A component is given by the states it may start in and by a function that takes a
state and a label to the next state, `none` where the label is not enabled.  Runs are
the reflexive transitive closure of the steps; a *condition* on the state and the label
cuts a run system down to the runs all of whose steps meet it.

Two rules carry every result about runs: `invariant`, for what holds in each state, and
`evolves`, for how two states of one run are related.  `runWhere_of_exec` goes the other
way, from an explicit list of labels to a run.
-/

set_option autoImplicit false

namespace Pandamonium.Library

/-- Initial states, and the state a label leads to where it is enabled. -/
structure TransitionSystem (σ ℓ : Type) where
  init : σ → Prop
  step : σ → ℓ → Option σ

namespace TransitionSystem

variable {σ ℓ : Type} (T : TransitionSystem σ ℓ)

/-- The condition every step meets. -/
def anyStep : σ → ℓ → Prop := fun _ _ => True

/-- One step whose label the condition admits in the state it is taken from. -/
def StepWhere (ok : σ → ℓ → Prop) (s s' : σ) : Prop := ∃ l, ok s l ∧ T.step s l = some s'

/-- A run all of whose steps meet the condition. -/
def RunWhere (ok : σ → ℓ → Prop) : σ → σ → Prop := Relation.ReflTransGen (T.StepWhere ok)

/-- A run, whatever its steps. -/
def Run : σ → σ → Prop := T.RunWhere anyStep

/-- The end of a run from an initial state, all of whose steps meet the condition. -/
def ReachableWhere (ok : σ → ℓ → Prop) (s : σ) : Prop := ∃ s₀, T.init s₀ ∧ T.RunWhere ok s₀ s

/-- The end of a run from an initial state. -/
def Reachable (s : σ) : Prop := T.ReachableWhere anyStep s

variable {T} {ok : σ → ℓ → Prop}

theorem ReachableWhere.continued {s s' : σ} (h : T.ReachableWhere ok s)
    (hrun : T.RunWhere ok s s') : T.ReachableWhere ok s' := by
  obtain ⟨s₀, hinit, hs⟩ := h
  exact ⟨s₀, hinit, hs.trans hrun⟩

/-- What every admitted step preserves holds along every admitted run. -/
theorem RunWhere.preserves {I : σ → Prop}
    (hstep : ∀ s l s', I s → ok s l → T.step s l = some s' → I s')
    {s s' : σ} (hrun : T.RunWhere ok s s') (hs : I s) : I s' := by
  induction hrun with
  | refl => exact hs
  | tail _ h ih =>
    obtain ⟨l, hok, hl⟩ := h
    exact hstep _ l _ ih hok hl

/-- The invariant rule: what holds initially and is preserved by every admitted step
holds in every state an admitted run reaches. -/
theorem ReachableWhere.invariant {I : σ → Prop} (hinit : ∀ s, T.init s → I s)
    (hstep : ∀ s l s', I s → ok s l → T.step s l = some s' → I s')
    {s : σ} (h : T.ReachableWhere ok s) : I s := by
  obtain ⟨s₀, h₀, hrun⟩ := h
  exact hrun.preserves hstep (hinit s₀ h₀)

/-- The evolution rule: where every admitted step from a state of the invariant moves up
a reflexive and transitive relation, so does every admitted run. -/
theorem RunWhere.evolves {I : σ → Prop} {R : σ → σ → Prop}
    (hrefl : ∀ s, R s s) (htrans : ∀ a b c, R a b → R b c → R a c)
    (hI : ∀ s l s', I s → ok s l → T.step s l = some s' → I s')
    (hR : ∀ s l s', I s → ok s l → T.step s l = some s' → R s s')
    {s s' : σ} (hrun : T.RunWhere ok s s') (hs : I s) : R s s' := by
  induction hrun with
  | refl => exact hrefl s
  | tail hrun h ih =>
    obtain ⟨l, hok, hl⟩ := h
    exact htrans _ _ _ ih (hR _ l _ (RunWhere.preserves hI hrun hs) hok hl)

variable (T) in
/-- The labels of a list taken one after the other, `none` where one is not enabled or not
admitted. -/
def exec (ok : σ → ℓ → Prop) [DecidableRel ok] (s : σ) (labels : List ℓ) : Option σ :=
  labels.foldlM (fun s l => if ok s l then T.step s l else none) s

/-- A list of labels that can be taken in order is a run. -/
theorem runWhere_of_exec [DecidableRel ok] {s s' : σ} {labels : List ℓ}
    (h : T.exec ok s labels = some s') : T.RunWhere ok s s' := by
  induction labels generalizing s with
  | nil =>
    simp only [exec, List.foldlM_nil, Option.pure_def, Option.some.injEq] at h
    subst h
    exact Relation.ReflTransGen.refl
  | cons l labels ih =>
    simp only [exec, List.foldlM_cons, Option.bind_eq_bind, Option.bind_eq_some_iff] at h
    obtain ⟨s₁, hl, hrest⟩ := h
    by_cases hok : ok s l
    · rw [if_pos hok] at hl
      exact Relation.ReflTransGen.head ⟨l, hok, hl⟩ (ih hrest)
    · rw [if_neg hok] at hl
      cases hl

theorem reachableWhere_of_exec [DecidableRel ok] {s₀ s : σ} {labels : List ℓ}
    (hinit : T.init s₀) (h : T.exec ok s₀ labels = some s) : T.ReachableWhere ok s :=
  ⟨s₀, hinit, runWhere_of_exec h⟩

variable (T ok) in
/-- What is observed at the end of a list of labels is observed in a reachable state. -/
theorem exists_reachableWhere_of_exec [DecidableRel ok] {α : Type} (g : σ → α) (labels : List ℓ)
    {v : α} {s : σ} (hinit : T.init s) (h : (T.exec ok s labels).map g = some v) :
    ∃ s, T.ReachableWhere ok s ∧ g s = v := by
  obtain ⟨s', hs', hg⟩ := Option.map_eq_some_iff.mp h
  exact ⟨s', reachableWhere_of_exec hinit hs', hg⟩

variable (T ok) in
/-- What is observed of two states, one before and one after a list of labels, is observed of
a reachable state and a later one. -/
theorem exists_runWhere_of_exec [DecidableRel ok] {α : Type} (g : σ → σ → α)
    (labels labels' : List ℓ) {v : α} {s₀ : σ} (hinit : T.init s₀)
    (h : (T.exec ok s₀ labels).bind (fun s => (T.exec ok s labels').map (g s)) = some v) :
    ∃ s s', T.ReachableWhere ok s ∧ T.RunWhere ok s s' ∧ g s s' = v := by
  obtain ⟨s, hs, h⟩ := Option.bind_eq_some_iff.mp h
  obtain ⟨s', hs', hg⟩ := Option.map_eq_some_iff.mp h
  exact ⟨s, s', reachableWhere_of_exec hinit hs, runWhere_of_exec hs', hg⟩

theorem exec_cons [DecidableRel ok] (s : σ) (l : ℓ) (labels : List ℓ) :
    T.exec ok s (l :: labels) =
      if ok s l then (T.step s l).bind fun s' => T.exec ok s' labels else none := by
  by_cases hok : ok s l
  · simp [exec, hok, List.foldlM_cons, Option.bind_eq_bind]
  · simp [exec, hok, List.foldlM_cons, Option.bind_eq_bind]

/-- The counting rule: where admitted steps from the invariant never raise a measure and the
steps counted lower it, a run takes no more of those than the measure it starts with. -/
theorem exec_measure [DecidableRel ok] (I : σ → Prop) (measure : σ → ℕ) (counted : ℓ → Bool)
    (hI : ∀ s l s', I s → ok s l → T.step s l = some s' → I s')
    (hdrop : ∀ s l s', I s → ok s l → T.step s l = some s' →
      measure s' + (if counted l then 1 else 0) ≤ measure s)
    {labels : List ℓ} {s s' : σ} (h : T.exec ok s labels = some s') (hs : I s) :
    I s' ∧ measure s' + labels.countP counted ≤ measure s := by
  induction labels generalizing s with
  | nil =>
    simp only [exec, List.foldlM_nil, Option.pure_def, Option.some.injEq] at h
    subst h
    exact ⟨hs, by simp⟩
  | cons l labels ih =>
    rw [exec_cons] at h
    split at h
    · rename_i hok
      obtain ⟨s₁, hl, hrest⟩ := Option.bind_eq_some_iff.mp h
      have hone := hdrop s l s₁ hs hok hl
      obtain ⟨hs', hmany⟩ := ih hrest (hI s l s₁ hs hok hl)
      refine ⟨hs', ?_⟩
      rw [List.countP_cons]
      omega
    · cases h

instance : DecidableRel (anyStep : σ → ℓ → Prop) := fun _ _ => inferInstanceAs (Decidable True)

end TransitionSystem

end Pandamonium.Library

/-!
## Transducers

A transducer reads inputs one after the other and writes outputs for each.  It may end at an input,
and what comes after that is not read; where the inputs are over before, it closes.

`Transducer.run_cases` is the rule for a run: what each step that goes on keeps, of the inputs read
so far and the state, holds where the run ends, and the outputs before are ones of these steps.
-/

namespace Pandamonium.Library

/-- The outputs at an input and the next state, `none` where the run ends; and the outputs where the
inputs are over. -/
structure Transducer (σ ι ο : Type) where
  step : σ → ι → List ο × Option σ
  close : σ → List ο

namespace Transducer

variable {σ ι ο : Type} (T : Transducer σ ι ο)

/-- The outputs for the inputs. -/
def run : σ → List ι → List ο
  | s, [] => T.close s
  | s, i :: rest =>
    match T.step s i with
    | (out, none) => out
    | (out, some s') => out ++ run s' rest

/-- How a run ends. -/
inductive Ends (I : List ι → σ → Prop) (quiet : ο → Prop) (inputs : List ι) (outputs : List ο) :
    Prop
  | closes {s : σ} (out : List ο) (hI : I inputs s) (hout : ∀ o ∈ out, quiet o)
      (h : outputs = out ++ T.close s)
  | stops {s : σ} (out : List ο) (seen : List ι) (i : ι) (rest : List ι) (last : List ο)
      (hinputs : inputs = seen ++ i :: rest) (hI : I seen s) (hout : ∀ o ∈ out, quiet o)
      (hlast : T.step s i = (last, none)) (h : outputs = out ++ last)

variable {T} {I : List ι → σ → Prop} {quiet : ο → Prop}

/-- The rule for a run. -/
theorem run_cases
    (hstep : ∀ seen s i out s', I seen s → T.step s i = (out, some s') →
      I (seen ++ [i]) s' ∧ ∀ o ∈ out, quiet o)
    {s : σ} (h : I [] s) (inputs : List ι) : T.Ends I quiet inputs (T.run s inputs) := by
  suffices hall : ∀ (inputs seen : List ι) (s : σ), I seen s →
      T.Ends I quiet (seen ++ inputs) (T.run s inputs) from hall inputs [] s h
  intro inputs
  induction inputs with
  | nil =>
    intro seen s hseen
    rw [List.append_nil]
    exact .closes [] hseen (fun _ ho => absurd ho List.not_mem_nil) rfl
  | cons i rest ih =>
    intro seen s hseen
    obtain ⟨out, next, hresult⟩ : ∃ out next, T.step s i = (out, next) := ⟨_, _, rfl⟩
    cases next with
    | none =>
      refine .stops [] seen i rest out rfl hseen (fun _ ho => absurd ho List.not_mem_nil) hresult ?_
      rw [run, hresult]
      rfl
    | some s' =>
      obtain ⟨hnext, hquiet⟩ := hstep seen s i out s' hseen hresult
      have hrun : T.run s (i :: rest) = out ++ T.run s' rest := by rw [run, hresult]
      have hends := ih (seen ++ [i]) s' hnext
      rw [List.append_assoc, List.singleton_append] at hends
      rw [hrun]
      have hboth : ∀ out' : List ο, (∀ o ∈ out', quiet o) → ∀ o ∈ out ++ out', quiet o := by
        intro out' hout' o ho
        obtain ho | ho := List.mem_append.mp ho
        · exact hquiet o ho
        · exact hout' o ho
      cases hends with
      | closes out' hI hout' h =>
        refine .closes (out ++ out') hI (hboth out' hout') ?_
        rw [h, List.append_assoc]
      | stops out' seen' i' rest' last hinputs hI hout' hlast h =>
        refine .stops (out ++ out') seen' i' rest' last hinputs hI (hboth out' hout') hlast ?_
        rw [h, List.append_assoc]

end Transducer

end Pandamonium.Library
