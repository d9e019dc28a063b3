import Pandamonium.Library.Dict

/-!
# Changes on their way to another side

For each key the ledger has the last change made to it, numbered, and whether it has been delivered.
Whoever delivers a change takes the number it has then, the *stamp*, and settles the key with it:
a change that was recorded meanwhile is not settled, as its number is another (`Covers.later`).
-/

set_option autoImplicit false

namespace Pandamonium.Library

/-- The last change of a key. -/
structure Entry (χ : Type) where
  serial : ℕ
  change : χ
  delivered : Bool
  deriving DecidableEq, Repr

/-- The last change of each key; changes are numbered in their order. -/
structure Ledger (κ χ : Type) [DecidableEq κ] where
  entries : Dict κ (Entry χ)
  count : ℕ
  bounded : ∀ k e, entries.get? k = some e → e.serial < count

namespace Ledger

variable {κ χ : Type} [DecidableEq κ]

/-- No change. -/
def empty : Ledger κ χ where
  entries := Dict.empty
  count := 0
  bounded := nofun

/-- A change is made. -/
def record (l : Ledger κ χ) (k : κ) (c : χ) : Ledger κ χ where
  entries := l.entries.set k { serial := l.count, change := c, delivered := false }
  count := l.count + 1
  bounded := by
    intro k' e he
    rw [Dict.get?_set] at he
    split at he
    · obtain rfl := Option.some.inj he
      exact Nat.lt_succ_self l.count
    · exact Nat.lt_succ_of_lt (l.bounded k' e he)

/-- The change with this number is delivered, if it is still the last one. -/
def settle (l : Ledger κ χ) (k : κ) (stamp : Option ℕ) : Ledger κ χ :=
  match h : l.entries.get? k with
  | some e =>
    if some e.serial = stamp then
      { l with
        entries := l.entries.set k { e with delivered := true }
        bounded := by
          intro k' e' he'
          rw [Dict.get?_set] at he'
          split at he'
          · obtain rfl := Option.some.inj he'
            exact l.bounded k e h
          · exact l.bounded k' e' he' }
    else l
  | none => l

/-- The number of the last change, if it is one of these. -/
def stamp (l : Ledger κ χ) (k : κ) (p : χ → Bool) : Option ℕ :=
  match l.entries.get? k with
  | some e => if p e.change then some e.serial else none
  | none => none

/-- The last change of the key is this one, and it is not delivered. -/
def Waiting (l : Ledger κ χ) (k : κ) (c : χ) : Prop :=
  ∃ e, l.entries.get? k = some e ∧ e.change = c ∧ e.delivered = false

/-- If the stamp is that of the last change, this is delivered. -/
def Covers (l : Ledger κ χ) (k : κ) (stamp : Option ℕ) : Prop :=
  ∀ e, l.entries.get? k = some e → some e.serial = stamp → e.delivered = true

/-- The stamp is one that has been given. -/
def Given (l : Ledger κ χ) (stamp : Option ℕ) : Prop := ∀ n, stamp = some n → n < l.count

/-- What becomes of a ledger: a key has the entry it had, perhaps delivered, or a new one. -/
structure Later (l l' : Ledger κ χ) : Prop where
  count : l.count ≤ l'.count
  entries : ∀ k e', l'.entries.get? k = some e' → l.count ≤ e'.serial ∨
    ∃ e, l.entries.get? k = some e ∧ e'.serial = e.serial ∧ (e.delivered = true → e'.delivered = true)

variable {l l' : Ledger κ χ} {k : κ} {c : χ}

theorem entries_record (l : Ledger κ χ) (k k' : κ) (c : χ) :
    (l.record k c).entries.get? k' =
      if k' = k then some { serial := l.count, change := c, delivered := false }
      else l.entries.get? k' :=
  Dict.get?_set ..

theorem waiting_record_self {c' : χ} : (l.record k c).Waiting k c' ↔ c = c' := by
  simp [Waiting, entries_record]

variable {stamp : Option ℕ}

theorem entries_settle {k' : κ} {e' : Entry χ} (h : (l.settle k stamp).entries.get? k' = some e') :
    ∃ e, l.entries.get? k' = some e ∧ e'.serial = e.serial ∧ e'.change = e.change ∧
      (e.delivered = true → e'.delivered = true) ∧
      (k' = k → some e.serial = stamp → e'.delivered = true) := by
  unfold settle at h
  split at h
  case h_1 e he =>
    split at h
    case isTrue hstamp =>
      rw [Dict.get?_set] at h
      split at h
      · rename_i hk
        obtain rfl := Option.some.inj h
        exact ⟨e, hk ▸ he, rfl, rfl, fun _ => rfl, fun _ _ => rfl⟩
      · rename_i hk
        exact ⟨e', h, rfl, rfl, fun hd => hd, fun hk' => absurd hk' hk⟩
    case isFalse hstamp =>
      refine ⟨e', h, rfl, rfl, fun hd => hd, ?_⟩
      rintro rfl hs
      obtain rfl := Option.some.inj (he.symm.trans h)
      exact absurd hs hstamp
  case h_2 he =>
    refine ⟨e', h, rfl, rfl, fun hd => hd, ?_⟩
    rintro rfl
    rw [he] at h
    cases h

theorem waiting_of_settle {k' : κ} {c' : χ} (h : (l.settle k stamp).Waiting k' c') :
    l.Waiting k' c' := by
  obtain ⟨e', he', hchange, hdelivered⟩ := h
  obtain ⟨e, he, -, hsame, hkept, -⟩ := entries_settle he'
  refine ⟨e, he, hsame.symm.trans hchange, ?_⟩
  cases hd : e.delivered
  · rfl
  · rw [hkept hd] at hdelivered
    cases hdelivered

theorem covers_settle (stamp : Option ℕ) : (l.settle k stamp).Covers k stamp := by
  intro e' he' hstamp
  obtain ⟨e, -, hserial, -, -, hsettled⟩ := entries_settle he'
  exact hsettled rfl (hserial ▸ hstamp)

theorem given_stamp (p : χ → Bool) : l.Given (l.stamp k p) := by
  intro n hn
  unfold stamp at hn
  split at hn
  · rename_i e he
    obtain ⟨-, hserial⟩ := Option.ite_none_right_eq_some.mp hn
    obtain rfl := Option.some.inj hserial
    exact l.bounded k e he
  · cases hn

theorem Later.refl (l : Ledger κ χ) : l.Later l :=
  ⟨Nat.le_refl _, fun _ e he => .inr ⟨e, he, rfl, fun hd => hd⟩⟩

theorem later_record : l.Later (l.record k c) := by
  refine ⟨Nat.le_succ l.count, fun k' e' he' => ?_⟩
  rw [entries_record] at he'
  split at he'
  · obtain rfl := Option.some.inj he'
    exact .inl (Nat.le_refl _)
  · exact .inr ⟨e', he', rfl, fun hd => hd⟩

theorem later_settle : l.Later (l.settle k stamp) := by
  refine ⟨?_, fun k' e' he' => ?_⟩
  · unfold settle
    split
    · split
      · exact Nat.le_refl _
      · exact Nat.le_refl _
    · exact Nat.le_refl _
  · obtain ⟨e, he, hserial, -, hkept, -⟩ := entries_settle he'
    exact .inr ⟨e, he, hserial, hkept⟩

theorem Given.later (h : l.Given stamp) (hlater : l.Later l') :
    l'.Given stamp :=
  fun n hn => Nat.lt_of_lt_of_le (h n hn) hlater.count

/-- What a stamp covers it goes on to cover: a new change has a number that was not given. -/
theorem Covers.later (h : l.Covers k stamp) (hgiven : l.Given stamp) (hlater : l.Later l') :
    l'.Covers k stamp := by
  intro e' he' hstamp
  obtain hnew | ⟨e, he, hserial, hkept⟩ := hlater.entries k e' he'
  · exact absurd (hgiven e'.serial hstamp.symm) (Nat.not_lt.mpr hnew)
  · exact hkept (h e he (hserial ▸ hstamp))

end Ledger

end Pandamonium.Library
