import Pandamonium.Library.Dict
import Pandamonium.Library.TransitionSystem

/-!
# A file that operations rewrite

An operation loads the whole content of a file and later saves what it makes of it, or saves
nothing.  Nothing keeps others from saving in between.  Each operation brings a key that no other
has.

When nothing is saved between the loading and the saving of an operation, the content is what the
operations that have saved make of the initial one, one after the other (`replayed`), and what each
of them preserves when it is applied alone holds in every run (`ReachableWhere.applied`).
-/

set_option autoImplicit false

namespace Pandamonium.Library

namespace Rewriting

variable {ω σ κ : Type}

/-- An operation that has loaded and not saved. -/
structure Attempt (ω σ : Type) where
  operation : ω
  loaded : σ
  /-- How many operations had saved when it loaded. -/
  version : ℕ

structure World (ω σ κ : Type) where
  initial : σ
  content : σ
  /-- The operations that have saved, the last one first. -/
  done : List ω
  attempts : Dict ℕ (Attempt ω σ)
  /-- The keys that were taken at the beginning. -/
  reserved : List κ
  /-- The keys of the operations that have loaded. -/
  taken : List κ

inductive Label (ω : Type)
  | load (n : ℕ) (operation : ω)
  | save (n : ℕ)

/-- What operations make of a content, the last one first. -/
def replay (apply : ω → σ → Option σ) (s : σ) (done : List ω) : Option σ :=
  done.foldr (fun operation s => s.bind (apply operation)) (some s)

variable (apply : ω → σ → Option σ) (key : ω → κ)

def step [DecidableEq κ] (w : World ω σ κ) : Label ω → Option (World ω σ κ)
  | .load n operation =>
    if w.attempts.get? n = none ∧ key operation ∉ w.reserved ∧ key operation ∉ w.taken then
      some { w with
        attempts := w.attempts.set n
          { operation := operation
            loaded := w.content
            version := w.done.length }
        taken := key operation :: w.taken }
    else none
  | .save n =>
    match w.attempts.get? n with
    | none => none
    | some attempt =>
      match apply attempt.operation attempt.loaded with
      | none => some { w with attempts := w.attempts.erase n }
      | some content =>
        some { w with
          content := content
          done := attempt.operation :: w.done
          attempts := w.attempts.erase n }

/-- Nothing has been done. -/
structure Started (w : World ω σ κ) : Prop where
  content : w.content = w.initial
  done : w.done = []
  attempts : ∀ n, w.attempts.get? n = none
  taken : w.taken = []

/-- Operations that load and save the content. -/
def system [DecidableEq κ] (allowed : World ω σ κ → Prop) :
    TransitionSystem (World ω σ κ) (Label ω) where
  init := fun w => Started w ∧ allowed w
  step := step apply key

/-- An operation saves only when no other has saved since it loaded. -/
def undisturbed (w : World ω σ κ) : Label ω → Prop
  | .load _ _ => True
  | .save n =>
    match w.attempts.get? n with
    | none => True
    | some attempt => attempt.version = w.done.length

instance : DecidableRel (undisturbed : World ω σ κ → Label ω → Prop) := by
  intro w label
  unfold undisturbed
  split
  · infer_instance
  · split <;> infer_instance

/-- What operations that have loaded have in hand. -/
structure Held (P : σ → List κ → σ → List ω → Prop) (w : World ω σ κ) : Prop where
  current : ∀ n attempt, w.attempts.get? n = some attempt → attempt.version = w.done.length →
    attempt.loaded = w.content
  version : ∀ n attempt, w.attempts.get? n = some attempt → attempt.version ≤ w.done.length
  taken : ∀ n attempt, w.attempts.get? n = some attempt → key attempt.operation ∈ w.taken
  unreserved : ∀ n attempt, w.attempts.get? n = some attempt →
    key attempt.operation ∉ w.reserved
  unused : ∀ n attempt, w.attempts.get? n = some attempt → ∀ operation ∈ w.done,
    key operation ≠ key attempt.operation
  apart : ∀ n m attempt attempt', w.attempts.get? n = some attempt →
    w.attempts.get? m = some attempt' → key attempt.operation = key attempt'.operation → n = m
  done : ∀ operation ∈ w.done, key operation ∈ w.taken
  holds : P w.initial w.reserved w.content w.done

variable {apply key} {allowed : World ω σ κ → Prop} {P : σ → List κ → σ → List ω → Prop}

variable {w : World ω σ κ}

theorem Held.load (h : Held key P w) (n : ℕ) {operation : ω}
    (hreserved : key operation ∉ w.reserved) (htaken : key operation ∉ w.taken) :
    Held key P { w with
      attempts := w.attempts.set n
        { operation := operation
          loaded := w.content
          version := w.done.length }
      taken := key operation :: w.taken } := by
  have hcases : ∀ m attempt, (w.attempts.set n
      { operation := operation, loaded := w.content, version := w.done.length }).get? m =
        some attempt → (m = n ∧ attempt = ⟨operation, w.content, w.done.length⟩) ∨
          (m ≠ n ∧ w.attempts.get? m = some attempt) := by
    intro m attempt hm
    rw [Dict.get?_set] at hm
    split at hm
    · exact Or.inl ⟨by assumption, (Option.some.inj hm).symm⟩
    · exact Or.inr ⟨by assumption, hm⟩
  have hother : ∀ m attempt, w.attempts.get? m = some attempt →
      key attempt.operation ≠ key operation := by
    intro m attempt hm heq
    exact htaken (heq ▸ h.taken m attempt hm)
  constructor
  case current =>
    intro m attempt hm hversion
    rcases hcases m attempt hm with ⟨-, rfl⟩ | ⟨-, hm⟩
    · rfl
    · exact h.current m attempt hm hversion
  case version =>
    intro m attempt hm
    rcases hcases m attempt hm with ⟨-, rfl⟩ | ⟨-, hm⟩
    · exact Nat.le_refl _
    · exact h.version m attempt hm
  case taken =>
    intro m attempt hm
    rcases hcases m attempt hm with ⟨-, rfl⟩ | ⟨-, hm⟩
    · exact List.mem_cons_self
    · exact List.mem_cons_of_mem _ (h.taken m attempt hm)
  case unreserved =>
    intro m attempt hm
    rcases hcases m attempt hm with ⟨-, rfl⟩ | ⟨-, hm⟩
    · exact hreserved
    · exact h.unreserved m attempt hm
  case unused =>
    intro m attempt hm operation' hdone
    rcases hcases m attempt hm with ⟨-, rfl⟩ | ⟨-, hm⟩
    · rintro heq
      exact htaken (heq ▸ h.done operation' hdone)
    · exact h.unused m attempt hm operation' hdone
  case apart =>
    intro m m' attempt attempt' hm hm' heq
    rcases hcases m attempt hm with ⟨hmn, rfl⟩ | ⟨-, hm⟩ <;>
      rcases hcases m' attempt' hm' with ⟨hmn', rfl⟩ | ⟨-, hm'⟩
    · rw [hmn, hmn']
    · exact absurd heq.symm (hother m' attempt' hm')
    · exact absurd heq (hother m attempt hm)
    · exact h.apart m m' attempt attempt' hm hm' heq
  case done => exact fun operation' hdone => List.mem_cons_of_mem _ (h.done operation' hdone)
  case holds => exact h.holds

theorem get?_erase_eq_some {attempts : Dict ℕ (Attempt ω σ)} {n m : ℕ} {attempt : Attempt ω σ}
    (h : (attempts.erase n).get? m = some attempt) : m ≠ n ∧ attempts.get? m = some attempt := by
  rw [Dict.get?_erase] at h
  split at h
  · cases h
  · exact ⟨by assumption, h⟩

theorem Held.quit (h : Held key P w) (n : ℕ) :
    Held key P { w with attempts := w.attempts.erase n } where
  current := fun m attempt hm => h.current m attempt (get?_erase_eq_some hm).2
  version := fun m attempt hm => h.version m attempt (get?_erase_eq_some hm).2
  taken := fun m attempt hm => h.taken m attempt (get?_erase_eq_some hm).2
  unreserved := fun m attempt hm => h.unreserved m attempt (get?_erase_eq_some hm).2
  unused := fun m attempt hm => h.unused m attempt (get?_erase_eq_some hm).2
  apart := fun m m' attempt attempt' hm hm' =>
    h.apart m m' attempt attempt' (get?_erase_eq_some hm).2 (get?_erase_eq_some hm').2
  done := h.done
  holds := h.holds

theorem Held.save (h : Held key P w) {n : ℕ} {attempt : Attempt ω σ}
    (hn : w.attempts.get? n = some attempt) {content : σ}
    (hholds : P w.initial w.reserved content (attempt.operation :: w.done)) :
    Held key P { w with
      content := content
      done := attempt.operation :: w.done
      attempts := w.attempts.erase n } where
  current := by
    -- whoever has loaded has loaded before this one saves
    intro m attempt' hm hversion
    have hle := h.version m attempt' (get?_erase_eq_some hm).2
    simp only [List.length_cons] at hversion
    omega
  version := by
    intro m attempt' hm
    exact Nat.le_succ_of_le (h.version m attempt' (get?_erase_eq_some hm).2)
  taken := fun m attempt' hm => h.taken m attempt' (get?_erase_eq_some hm).2
  unreserved := fun m attempt' hm => h.unreserved m attempt' (get?_erase_eq_some hm).2
  unused := by
    intro m attempt' hm operation hdone
    obtain ⟨hne, hm⟩ := get?_erase_eq_some hm
    rcases List.mem_cons.mp hdone with rfl | hdone
    · exact fun heq => hne (h.apart n m attempt attempt' hn hm heq).symm
    · exact h.unused m attempt' hm operation hdone
  apart := fun m m' attempt' attempt'' hm hm' =>
    h.apart m m' attempt' attempt'' (get?_erase_eq_some hm).2 (get?_erase_eq_some hm').2
  done := by
    intro operation hdone
    rcases List.mem_cons.mp hdone with rfl | hdone
    · exact h.taken n attempt hn
    · exact h.done operation hdone
  holds := hholds

theorem Held.started (hw : Started w) (hstart : P w.initial w.reserved w.initial []) :
    Held key P w := by
  have hidle : ∀ n attempt, w.attempts.get? n ≠ some attempt := by
    intro n attempt heq
    rw [hw.attempts n] at heq
    cases heq
  constructor
  case current => exact fun n attempt hn => absurd hn (hidle n attempt)
  case version => exact fun n attempt hn => absurd hn (hidle n attempt)
  case taken => exact fun n attempt hn => absurd hn (hidle n attempt)
  case unreserved => exact fun n attempt hn => absurd hn (hidle n attempt)
  case unused => exact fun n attempt hn => absurd hn (hidle n attempt)
  case apart => exact fun n _ attempt _ hn => absurd hn (hidle n attempt)
  case done =>
    rw [hw.done]
    exact fun _ hdone => absurd hdone List.not_mem_nil
  case holds => rwa [hw.content, hw.done]

/-- What each operation with a key of its own preserves. -/
def Preserved (apply : ω → σ → Option σ) (key : ω → κ) (P : σ → List κ → σ → List ω → Prop) :
    Prop :=
  ∀ initial reserved content done operation content', P initial reserved content done →
    key operation ∉ reserved → (∀ operation' ∈ done, key operation' ≠ key operation) →
    apply operation content = some content' → P initial reserved content' (operation :: done)

theorem Held.step [DecidableEq κ] {w' : World ω σ κ} {label : Label ω} (h : Held key P w)
    (hpreserved : Preserved apply key P) (hundisturbed : undisturbed w label)
    (hstep : Rewriting.step apply key w label = some w') : Held key P w' := by
  cases label with
  | load n operation =>
    obtain ⟨⟨-, hreserved, htaken⟩, hw'⟩ := Option.ite_none_right_eq_some.mp hstep
    obtain rfl := Option.some.inj hw'
    exact h.load n hreserved htaken
  | save n =>
    cases hn : w.attempts.get? n with
    | none =>
      rw [Rewriting.step, hn] at hstep
      cases hstep
    | some attempt =>
      simp only [undisturbed, hn] at hundisturbed
      simp only [Rewriting.step, hn] at hstep
      split at hstep
      · obtain rfl := Option.some.inj hstep
        exact h.quit n
      · rename_i content happly
        obtain rfl := Option.some.inj hstep
        rw [h.current n attempt hn hundisturbed] at happly
        exact h.save hn (hpreserved _ _ _ _ _ _ h.holds (h.unreserved n attempt hn)
          (h.unused n attempt hn) happly)

/-- What the initial content has, and each operation with a key of its own preserves, holds in every
state of a run in which no operation is disturbed. -/
theorem applied [DecidableEq κ] (hw : (system apply key allowed).ReachableWhere undisturbed w)
    (hstart : ∀ w, allowed w → P w.initial w.reserved w.initial [])
    (hpreserved : Preserved apply key P) : P w.initial w.reserved w.content w.done := by
  have hheld : Held key P w :=
    hw.invariant (fun w h => .started h.1 (hstart w h.2)) fun _ _ _ h hundisturbed hstep =>
      h.step hpreserved hundisturbed hstep
  exact hheld.holds

theorem preserved_replay :
    Preserved apply key fun initial _ content done => replay apply initial done = some content := by
  intro initial reserved content done operation content' hreplay _ _ happly
  rw [replay, List.foldr_cons]
  exact (congrArg (Option.bind · (apply operation)) hreplay).trans happly

/-- The content is what the operations that have saved make of the initial one, in this order. -/
theorem replayed [DecidableEq κ] (hw : (system apply key allowed).ReachableWhere undisturbed w) :
    replay apply w.initial w.done = some w.content :=
  applied (P := fun initial _ content done => replay apply initial done = some content) hw
    (fun _ _ => rfl) preserved_replay

end Rewriting

end Pandamonium.Library
