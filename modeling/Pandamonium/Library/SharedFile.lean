import Mathlib.Data.Nat.Notation
import Mathlib.Logic.Function.Basic

/-!
# A file that several writers replace

Each writer takes a snapshot of what is in memory, writes it to a temporary file, the same one
for all, and renames the temporary file over the target.  A renaming that finds the temporary
file gone fails, and the writer goes on.  Snapshots are numbered in the order they are taken.

When every change is followed by a snapshot of the same writer, and every snapshot written is
newer than those written before it, what is in memory is always on its way to the file
(`Owed`), and it is there when no writer is left (`Owed.settled`).
-/

set_option autoImplicit false

namespace Pandamonium.Library

/-- Where a writer is. -/
inductive Writing (σ : Type)
  /-- It has changed the memory. -/
  | due
  /-- It has the snapshot of this number. -/
  | holding (number : ℕ) (snapshot : σ)
  /-- It has written its snapshot to the temporary file. -/
  | filled
  deriving DecidableEq, Repr

structure SharedFile (β : Type) where
  content : β
  temporary : Option β
  /-- How many snapshots have been taken. -/
  taken : ℕ
  /-- The number of the snapshot that was written last. -/
  written : ℕ
  deriving DecidableEq, Repr

namespace SharedFile

variable {β : Type}

/-- Another snapshot is taken. -/
def take (f : SharedFile β) : SharedFile β := { f with taken := f.taken + 1 }

/-- A snapshot is written to the temporary file. -/
def fill (number : ℕ) (b : β) (f : SharedFile β) : SharedFile β :=
  { f with temporary := some b, written := number }

/-- The temporary file is renamed to the target, if it is there. -/
def replace (f : SharedFile β) : SharedFile β :=
  match f.temporary with
  | some b => { f with content := b, temporary := none }
  | none => f

end SharedFile

section Owed

variable {ι σ β : Type} (render : σ → β) (current : β) (phases : ι → Option (Writing σ))
  (f : SharedFile β)

/-- What is in memory is in the file, or a writer is about to bring it there. -/
structure Owed : Prop where
  bounded : ∀ i n snapshot, phases i = some (.holding n snapshot) → n ≤ f.taken
  stage : (∃ i, phases i = some .due) ∨
    (∃ i snapshot, phases i = some (.holding f.taken snapshot) ∧ render snapshot = current) ∨
    (f.written = f.taken ∧ f.temporary = some current ∧ ∃ i, phases i = some .filled) ∨
    (f.written = f.taken ∧ f.temporary = none ∧ f.content = current)

variable {render current phases f}

/-- Nothing is owed to a file that has what is in memory. -/
theorem Owed.initial (hcontent : f.content = current) (htemporary : f.temporary = none)
    (hwritten : f.written = f.taken) (hidle : ∀ i, phases i = none) :
    Owed render current phases f where
  bounded := by
    intro i n snapshot h
    rw [hidle i] at h
    cases h
  stage := Or.inr (Or.inr (Or.inr ⟨hwritten, htemporary, hcontent⟩))

/-- When no writer is left the file has what is in memory. -/
theorem Owed.settled (h : Owed render current phases f) (hidle : ∀ i, phases i = none) :
    f.content = current := by
  rcases h.stage with ⟨i, hi⟩ | ⟨i, snapshot, hi, -⟩ | ⟨-, -, i, hi⟩ | ⟨-, -, hcontent⟩
  · rw [hidle i] at hi
    cases hi
  · rw [hidle i] at hi
    cases hi
  · rw [hidle i] at hi
    cases hi
  · exact hcontent

variable [DecidableEq ι]

/-- A change, by a writer that will take a snapshot of it. -/
theorem Owed.change (h : Owed render current phases f) (i : ι) (render' : σ → β) (current' : β) :
    Owed render' current' (Function.update phases i (some .due)) f where
  bounded := by
    intro j n snapshot hj
    by_cases hij : j = i
    · subst hij
      rw [Function.update_self] at hj
      cases hj
    · rw [Function.update_of_ne hij] at hj
      exact h.bounded j n snapshot hj
  stage := Or.inl ⟨i, Function.update_self ..⟩

theorem Owed.take (h : Owed render current phases f) (i : ι) {snapshot : σ}
    (hsnapshot : render snapshot = current) :
    Owed render current (Function.update phases i (some (.holding (f.taken + 1) snapshot)))
      f.take where
  bounded := by
    intro j n snapshot' hj
    by_cases hij : j = i
    · subst hij
      rw [Function.update_self] at hj
      cases hj
      exact Nat.le_refl _
    · rw [Function.update_of_ne hij] at hj
      exact Nat.le_succ_of_le (h.bounded j n snapshot' hj)
  stage := Or.inr (Or.inl ⟨i, snapshot, Function.update_self .., hsnapshot⟩)

/-- A snapshot that is newer than every one written before it is written. -/
theorem Owed.fill (h : Owed render current phases f) {i : ι} {n : ℕ} {snapshot : σ}
    (hi : phases i = some (.holding n snapshot)) (hnewer : f.written < n) :
    Owed render current (Function.update phases i (some .filled)) (f.fill n (render snapshot)) := by
  have hle := h.bounded i n snapshot hi
  constructor
  case bounded =>
    intro j n' snapshot' hj
    by_cases hij : j = i
    · subst hij
      rw [Function.update_self] at hj
      cases hj
    · rw [Function.update_of_ne hij] at hj
      exact h.bounded j n' snapshot' hj
  case stage =>
    rcases h.stage with ⟨j, hj⟩ | ⟨j, snapshot', hj, hcurrent⟩ | ⟨hwritten, -⟩ | ⟨hwritten, -⟩
    · have hij : j ≠ i := by
        rintro rfl
        rw [hi] at hj
        cases hj
      exact Or.inl ⟨j, by rw [Function.update_of_ne hij, hj]⟩
    · by_cases hij : j = i
      · -- the newest snapshot is the one that is written
        subst hij
        rw [hi] at hj
        cases hj
        exact Or.inr (Or.inr (Or.inl ⟨rfl, congrArg some hcurrent, j, Function.update_self ..⟩))
      · exact Or.inr (Or.inl ⟨j, snapshot', by rw [Function.update_of_ne hij]; exact hj, hcurrent⟩)
    · omega
    · omega

theorem Owed.replace (h : Owed render current phases f) {i : ι} (hi : phases i = some .filled) :
    Owed render current (Function.update phases i none) f.replace := by
  have htaken : f.replace.taken = f.taken := by
    unfold SharedFile.replace
    split <;> rfl
  have hwritten : f.replace.written = f.written := by
    unfold SharedFile.replace
    split <;> rfl
  constructor
  case bounded =>
    intro j n snapshot hj
    rw [htaken]
    by_cases hij : j = i
    · subst hij
      rw [Function.update_self] at hj
      cases hj
    · rw [Function.update_of_ne hij] at hj
      exact h.bounded j n snapshot hj
  case stage =>
    rw [htaken, hwritten]
    rcases h.stage with ⟨j, hj⟩ | ⟨j, snapshot, hj, hcurrent⟩ | ⟨hsame, htemporary, -⟩ |
      ⟨hsame, htemporary, hcontent⟩
    · have hij : j ≠ i := by
        rintro rfl
        rw [hi] at hj
        cases hj
      exact Or.inl ⟨j, by rw [Function.update_of_ne hij, hj]⟩
    · have hij : j ≠ i := by
        rintro rfl
        rw [hi] at hj
        cases hj
      exact Or.inr (Or.inl ⟨j, snapshot, by rw [Function.update_of_ne hij, hj], hcurrent⟩)
    · exact Or.inr (Or.inr (Or.inr ⟨hsame, by simp [SharedFile.replace, htemporary],
        by simp [SharedFile.replace, htemporary]⟩))
    · exact Or.inr (Or.inr (Or.inr ⟨hsame, by simp [SharedFile.replace, htemporary],
        by simp [SharedFile.replace, htemporary, hcontent]⟩))

end Owed

end Pandamonium.Library
