import Mathlib.Data.Option.Basic
import Mathlib.Data.Nat.Notation

/-!
# Stores whose reads may fail

An operation reads a store and writes what it makes of it, or nothing.  Where a failing read is
taken for an empty store, the operation writes what it makes of that: all records that it does not
write itself are lost (`retained_iff`).
-/

set_option autoImplicit false

namespace Pandamonium.Library

namespace FailingReads

variable {σ ω κ ρ : Type}

/-- What an operation makes of an empty store. -/
inductive Writes (κ ρ : Type)
  | nothing
  /-- The record with this key, whether or not there is one. -/
  | upsert (key : κ)
  /-- A new record. -/
  | insert (key : κ) (record : ρ)

/-- The key of a record that the operation may replace. -/
def Writes.replaces (key : κ) : Writes κ ρ → Prop
  | .upsert key' => key = key'
  | _ => False

/-- The record is the one that the operation writes. -/
def Writes.covers (key : κ) (record : ρ) : Writes κ ρ → Prop
  | .nothing => False
  | .upsert key' => key = key'
  | .insert key' record' => key = key' ∧ record = record'

/-- A store and its operations: the records, the empty store, what an operation makes of a store,
and what it makes of the empty one. -/
structure Kind (σ ω κ ρ : Type) where
  Has : σ → κ → ρ → Prop
  empty : σ
  apply : ω → σ → Option σ
  writes : ω → Writes κ ρ
  nothing : ∀ op, writes op = .nothing → apply op empty = none
  upsert : ∀ op key, writes op = .upsert key →
    ∃ s, apply op empty = some s ∧ (∃ record, Has s key record) ∧
      ∀ key' record, Has s key' record → key' = key
  insert : ∀ op key record, writes op = .insert key record →
    ∃ s, apply op empty = some s ∧
      ∀ key' record', Has s key' record' ↔ key' = key ∧ record' = record

variable (K : Kind σ ω κ ρ)

/-- The store behind an operation whose read has failed: it raises, or goes on with nothing. -/
def Kind.afterFailure (taken : Bool) (op : ω) (before : σ) : σ :=
  if taken then (K.apply op K.empty).getD before else before

/-- Every record is as it was, or is the one that the operation replaces. -/
def Kind.Retains (op : ω) (before after : σ) : Prop :=
  ∀ key record, K.Has before key record →
    K.Has after key record ∨ (K.writes op).replaces key ∧ ∃ record', K.Has after key record'

/-- The store has no record but the one that the operation writes. -/
def Kind.Covered (op : ω) (before : σ) : Prop :=
  ∀ key record, K.Has before key record → (K.writes op).covers key record

/-- An operation whose read fails keeps the records if and only if it raises, writes nothing, or
writes all there is. -/
theorem Kind.retains_iff (taken : Bool) (op : ω) (before : σ) :
    K.Retains op before (K.afterFailure taken op before) ↔
      taken = false ∨ K.writes op = .nothing ∨ K.Covered op before := by
  have hsame : K.Retains op before before := fun _ _ h => Or.inl h
  cases taken with
  | false => exact ⟨fun _ => Or.inl rfl, fun _ => hsame⟩
  | true =>
    simp only [afterFailure, if_true, Bool.true_eq_false, false_or]
    cases hwrites : K.writes op with
    | nothing =>
      rw [K.nothing op hwrites]
      exact ⟨fun _ => Or.inl rfl, fun _ => hsame⟩
    | upsert key =>
      obtain ⟨s, happly, hkey, hother⟩ := K.upsert op key hwrites
      rw [happly, Option.getD_some]
      simp only [Retains, Covered, hwrites, Writes.replaces, Writes.covers, reduceCtorEq, false_or]
      constructor
      · intro h key' record hhas
        rcases h key' record hhas with hkept | ⟨heq, -⟩
        · exact hother key' record hkept
        · exact heq
      · intro h key' record hhas
        obtain rfl := h key' record hhas
        exact Or.inr ⟨rfl, hkey⟩
    | insert key record =>
      obtain ⟨s, happly, hrecords⟩ := K.insert op key record hwrites
      rw [happly, Option.getD_some]
      simp only [Retains, Covered, hwrites, Writes.replaces, Writes.covers, reduceCtorEq, false_or,
        false_and, or_false, hrecords]

end FailingReads

end Pandamonium.Library

/-!
## Checks that raise

A function made of checks raises at the first one that fails.  Where it returns, each of its parts
has returned.
-/

namespace Pandamonium.Library

theorem bind_eq_ok {ε α β : Type} {x : Except ε α} {f : α → Except ε β} {b : β}
    (h : x >>= f = .ok b) : ∃ a, x = .ok a ∧ f a = .ok b := by
  cases x with
  | error e => cases h
  | ok a => exact ⟨a, rfl, h⟩

theorem toOption_eq_some {ε α : Type} {x : Except ε α} {a : α} (h : x.toOption = some a) :
    x = .ok a := by
  cases x with
  | error e => cases h
  | ok a' => rw [Option.some.inj h]

section

variable {ε α β : Type} {f : α → Except ε β}

theorem mapM_cons_eq_ok_iff {x : α} {xs : List α} {ys : List β} :
    (x :: xs).mapM f = .ok ys ↔ ∃ y ys', f x = .ok y ∧ xs.mapM f = .ok ys' ∧ ys = y :: ys' := by
  rw [List.mapM_cons]
  constructor
  · intro h
    obtain ⟨y, hy, h⟩ := bind_eq_ok h
    obtain ⟨ys', hys', h⟩ := bind_eq_ok h
    cases h
    exact ⟨y, ys', hy, hys', rfl⟩
  · rintro ⟨y, ys', hy, hys', rfl⟩
    rw [hy, hys']
    rfl

/-- A function that can raise gets through a list where it gets through each item. -/
theorem exists_mapM_eq_ok_iff {xs : List α} :
    (∃ ys, xs.mapM f = .ok ys) ↔ ∀ x ∈ xs, ∃ y, f x = .ok y := by
  induction xs with
  | nil => exact ⟨fun _ _ hx => (List.not_mem_nil hx).elim, fun _ => ⟨[], rfl⟩⟩
  | cons x xs ih =>
    rw [List.forall_mem_cons, ← ih]
    constructor
    · rintro ⟨ys, h⟩
      obtain ⟨y, ys', hy, hys', -⟩ := mapM_cons_eq_ok_iff.mp h
      exact ⟨⟨y, hy⟩, ys', hys'⟩
    · rintro ⟨⟨y, hy⟩, ys', hys'⟩
      exact ⟨y :: ys', mapM_cons_eq_ok_iff.mpr ⟨y, ys', hy, hys', rfl⟩⟩

theorem mem_iff_of_mapM_eq_ok {xs : List α} {ys : List β} (h : xs.mapM f = .ok ys) {y : β} :
    y ∈ ys ↔ ∃ x ∈ xs, f x = .ok y := by
  induction xs generalizing ys with
  | nil =>
    cases h
    simp
  | cons x xs ih =>
    obtain ⟨y', ys', hy', hys', rfl⟩ := mapM_cons_eq_ok_iff.mp h
    simp only [List.mem_cons, ih hys', exists_eq_or_imp, hy', Except.ok.injEq, eq_comm (a := y)]

end

end Pandamonium.Library
