import Pandamonium.Library.FailingReads
import Pandamonium.Model.SessionCleanup
import Mathlib.Data.List.Basic

/-!
# Which sessions the sweep gets through

The time before which an empty session must have been created has no time zone, and the creation
time of a session is given one before the two are compared.  So the sweep raises at the first empty
session that has a creation time, and gets through the others as it should.
-/

set_option autoImplicit false

namespace Pandamonium.SessionCleanup

open Pandamonium.Library

/-- When it is, where a `datetime` without a time zone is one of UTC. -/
def DateTime.instant : DateTime → ℤ
  | .naive micros => micros
  | .aware micros => micros

/-- The session has no message and was not created later than `minAge`. -/
def EmptyAndOld (minAge : ℤ) (row : DbSession) : Prop :=
  row.messageCount = some 0 ∧ ∀ created ∈ row.createdAt, created.instant ≤ minAge

instance (minAge : ℤ) : DecidablePred (EmptyAndOld minAge) := fun _ =>
  inferInstanceAs (Decidable (_ ∧ _))

/-- The session has messages, is neither archived nor important, and was last accessed before
`cutoffDate`. -/
def OldAndPlain (cutoffDate : ℤ) (row : DbSession) : Prop :=
  row.archived ≠ some true ∧ row.isImportant ≠ some true ∧
    (∃ count ∈ row.messageCount, 0 < count) ∧
    ∃ lastAccessed ∈ row.lastAccessed, lastAccessed.instant < cutoffDate

instance (cutoffDate : ℤ) : DecidablePred (OldAndPlain cutoffDate) := fun _ =>
  inferInstanceAs (Decidable (_ ∧ _))

/-- What is to be left of a row. -/
def wanted (cutoffDate minAge : ℤ) (row : DbSession) : Option DbSession :=
  if EmptyAndOld minAge row then none
  else if OldAndPlain cutoffDate row then some { row with archived := some true }
  else some row

/-- The ids that no deleted row has. -/
def remaining (minAge : ℤ) (rows : List DbSession) (sessions : List String) : List String :=
  sessions.filter fun id => rows.all fun row => decide (EmptyAndOld minAge row → row.id ≠ id)

/-- The sweep returns; it deletes the empty sessions that are old enough and archives the old and
plain ones. -/
def Sweeps (autoArchiveDays minAgeHours now now' : ℤ) (commits : Bool) (s : State) : Prop :=
  ∃ stats, cleanupEmptySessions autoArchiveDays minAgeHours now now' commits s =
    (⟨s.rows.filterMap (wanted (now - autoArchiveDays * microsPerDay)
        (now' - minAgeHours * microsPerHour)),
      remaining (now' - minAgeHours * microsPerHour) s.rows s.sessions⟩, .ok stats)

/-- Nothing about the session is compared that cannot be: an empty one has no creation time, and
another one that is not archived was last accessed at a time without a time zone, and its messages
are counted if that was before `cutoffDate`. -/
def Comparable (cutoffDate : ℤ) (row : DbSession) : Prop :=
  if row.messageCount = some 0 then row.createdAt = none
  else row.archived ≠ some true → ∀ lastAccessed ∈ row.lastAccessed,
    lastAccessed = .naive lastAccessed.instant ∧
      (lastAccessed.instant < cutoffDate → row.messageCount ≠ none)

/-- The time that is so long before another is one. -/
def InRange (now delta : ℤ) : Prop := 0 ≤ now - delta ∧ now - delta ≤ maxMicros

variable {cutoffDate minAge : ℤ} {row : DbSession} {rows : List DbSession}

/-! ## One session -/

/-- The decision is made, and is the one that is wanted. -/
def Decided (cutoffDate minAge : ℤ) (row : DbSession) : Prop :=
  ∃ d, decision (.naive cutoffDate) (.naive minAge) row = .ok d ∧
    row.after d = wanted cutoffDate minAge row ∧ (d = .delete ↔ EmptyAndOld minAge row)

/-- No decision is made. -/
def Raises (cutoffDate minAge : ℤ) (row : DbSession) : Prop :=
  ∃ e, decision (.naive cutoffDate) (.naive minAge) row = .error e

/-- An empty session with a creation time is compared with one that has no time zone. -/
theorem decision_of_empty (hempty : row.messageCount = some 0) :
    (Comparable cutoffDate row ∧ Decided cutoffDate minAge row) ∨
      (¬ Comparable cutoffDate row ∧ Raises cutoffDate minAge row) := by
  cases hcreated : row.createdAt with
  | none =>
    have hold : EmptyAndOld minAge row :=
      ⟨hempty, fun created h => by rw [hcreated] at h; cases h⟩
    refine .inl ⟨by rw [Comparable, if_pos hempty, hcreated], .delete, ?_, ?_, ?_⟩
    · simp only [decision, hempty, hcreated, if_true]
    · rw [wanted, if_pos hold]
      rfl
    · exact iff_of_true rfl hold
  | some created =>
    refine .inr ⟨fun h => ?_, .typeError, ?_⟩
    · rw [Comparable, if_pos hempty, hcreated] at h
      cases h
    · simp only [decision, hempty, hcreated, if_true]
      cases created <;> rfl

/-- A session that is not empty, and what is compared of it. -/
theorem decision_of_archives (hcount : row.messageCount ≠ some 0) {b : Bool}
    (hcomparable : Comparable cutoffDate row)
    (harchives : archives (.naive cutoffDate) row = .ok b)
    (hb : b = true ↔ OldAndPlain cutoffDate row) :
    (Comparable cutoffDate row ∧ Decided cutoffDate minAge row) ∨
      (¬ Comparable cutoffDate row ∧ Raises cutoffDate minAge row) := by
  have hstays : ¬ EmptyAndOld minAge row := fun h => hcount h.1
  refine .inl ⟨hcomparable, if b then .archive else .leave, ?_, ?_, ?_⟩
  · rw [decision, if_neg hcount, harchives]
    cases b <;> rfl
  · rw [wanted, if_neg hstays]
    cases b with
    | true => rw [if_pos (hb.mp rfl)]; rfl
    | false => rw [if_neg fun h => Bool.false_ne_true (hb.mpr h)]; rfl
  · refine iff_of_false ?_ hstays
    cases b <;> exact fun h => by cases h

theorem decision_of_raises (hcount : row.messageCount ≠ some 0)
    (hcomparable : ¬ Comparable cutoffDate row) {e : Failure}
    (harchives : archives (.naive cutoffDate) row = .error e) :
    (Comparable cutoffDate row ∧ Decided cutoffDate minAge row) ∨
      (¬ Comparable cutoffDate row ∧ Raises cutoffDate minAge row) := by
  refine .inr ⟨hcomparable, e, ?_⟩
  rw [decision, if_neg hcount, harchives]
  rfl

theorem decision_cases (cutoffDate minAge : ℤ) (row : DbSession) :
    (Comparable cutoffDate row ∧ Decided cutoffDate minAge row) ∨
      (¬ Comparable cutoffDate row ∧ Raises cutoffDate minAge row) := by
  by_cases hcount : row.messageCount = some 0
  · exact decision_of_empty hcount
  by_cases harchived : row.archived = some true
  · refine decision_of_archives (b := false) hcount ?_ ?_ ?_
    · rw [Comparable, if_neg hcount]
      exact fun h => absurd harchived h
    · rw [archives, if_pos harchived]
    · exact iff_of_false Bool.false_ne_true fun h => h.1 harchived
  cases haccessed : row.lastAccessed with
  | none =>
    refine decision_of_archives (b := false) hcount ?_ ?_ ?_
    · rw [Comparable, if_neg hcount, haccessed]
      exact fun _ _ h => by cases h
    · rw [archives, if_neg harchived, haccessed]
    · refine iff_of_false Bool.false_ne_true fun h => ?_
      obtain ⟨-, -, -, lastAccessed, h, -⟩ := h
      rw [haccessed] at h
      cases h
  | some lastAccessed =>
    cases lastAccessed with
    | aware micros =>
      refine decision_of_raises (e := .typeError) hcount (fun h => ?_) ?_
      · rw [Comparable, if_neg hcount, haccessed] at h
        cases (h harchived _ rfl).1
      · rw [archives, if_neg harchived, haccessed]
        rfl
    | naive micros =>
      have hold : OldAndPlain cutoffDate row ↔ row.isImportant ≠ some true ∧
          (∃ count ∈ row.messageCount, 0 < count) ∧ micros < cutoffDate := by
        simp [OldAndPlain, harchived, haccessed, DateTime.instant]
      have hcomparable : Comparable cutoffDate row ↔
          (micros < cutoffDate → row.messageCount ≠ none) := by
        simp [Comparable, hcount, harchived, haccessed, DateTime.instant]
      by_cases hlt : micros < cutoffDate
      · cases hmessages : row.messageCount with
        | none =>
          refine decision_of_raises (e := .typeError) hcount
            (fun h => hcomparable.mp h hlt hmessages) ?_
          rw [archives, if_neg harchived, haccessed, hmessages]
          simp [DateTime.lt, hlt, bind, Except.bind]
        | some count =>
          have harchives : archives (.naive cutoffDate) row =
              .ok (decide (0 < count) && decide (row.isImportant ≠ some true)) := by
            rw [archives, if_neg harchived, haccessed, hmessages]
            simp [DateTime.lt, hlt, bind, Except.bind]
          refine decision_of_archives hcount (hcomparable.mpr fun _ h => ?_) harchives ?_
          · rw [hmessages] at h
            cases h
          · rw [hold, hmessages]
            simp [hlt, and_comm]
      · have harchives : archives (.naive cutoffDate) row = .ok false := by
          rw [archives, if_neg harchived, haccessed]
          simp [DateTime.lt, hlt, bind, Except.bind]
        refine decision_of_archives hcount (hcomparable.mpr fun h => absurd h hlt) harchives ?_
        exact iff_of_false Bool.false_ne_true fun h => hlt (hold.mp h).2.2

/-! ## All sessions -/

theorem remaining_cons (minAge : ℤ) (row : DbSession) (rows : List DbSession)
    (sessions : List String) :
    remaining minAge (row :: rows) sessions = remaining minAge rows
      (if EmptyAndOld minAge row then sessions.filter (· ≠ row.id) else sessions) := by
  unfold remaining
  split
  · rename_i hold
    rw [List.filter_filter]
    refine List.filter_congr fun id _ => ?_
    simp [hold, eq_comm, Bool.and_comm]
  · rename_i hstays
    refine List.filter_congr fun id _ => ?_
    simp [hstays]

/-- Where every comparison can be made the sweep gets through. -/
theorem sweep_of_comparable (h : ∀ row ∈ rows, Comparable cutoffDate row) (minAge : ℤ)
    (sessions : List String) :
    ∃ stats, sweep (.naive cutoffDate) (.naive minAge) rows sessions =
      (remaining minAge rows sessions,
        .ok (rows.filterMap (wanted cutoffDate minAge), stats)) := by
  induction rows generalizing sessions with
  | nil => exact ⟨⟨0, 0, 0⟩, by simp [sweep, remaining]⟩
  | cons row rows ih =>
    rw [List.forall_mem_cons] at h
    obtain ⟨-, d, hd, hafter, hdelete⟩ | ⟨hnot, -⟩ := decision_cases cutoffDate minAge row
    · obtain ⟨stats, hrest⟩ := ih h.2
        (if d = .delete then sessions.filter (· ≠ row.id) else sessions)
      refine ⟨stats.count d, ?_⟩
      rw [sweep, hd]
      dsimp only
      rw [hrest, remaining_cons, hafter]
      simp only [hdelete, Except.map]
      cases hwanted : wanted cutoffDate minAge row with
      | none => simp [hwanted]
      | some row' => simp [hwanted]
    · exact absurd h.1 hnot

/-- Where the sweep gets through every comparison was made. -/
theorem comparable_of_sweep {sessions sessions' : List String} {swept : List DbSession × Stats}
    (h : sweep (.naive cutoffDate) (.naive minAge) rows sessions = (sessions', .ok swept)) :
    ∀ row ∈ rows, Comparable cutoffDate row := by
  induction rows generalizing sessions sessions' swept with
  | nil => exact fun _ h => absurd h List.not_mem_nil
  | cons row rows ih =>
    rw [sweep] at h
    obtain ⟨hcomparable, d, hd, -⟩ | ⟨-, e, he⟩ := decision_cases cutoffDate minAge row
    · rw [hd] at h
      dsimp only at h
      cases hrest : sweep (.naive cutoffDate) (.naive minAge) rows
          (if d = .delete then sessions.filter (· ≠ row.id) else sessions) with
      | mk sessions₁ result =>
        rw [hrest] at h
        cases result with
        | error e => cases h
        | ok swept₁ =>
          rw [List.forall_mem_cons]
          exact ⟨hcomparable, ih hrest⟩
    · rw [he] at h
      cases h

/-! ## The sweep -/

theorem utcnowMinus_of_inRange {now delta : ℤ} (h : InRange now delta) :
    utcnowMinus now delta = .ok (.naive (now - delta)) := if_pos h

/-- The sweep does what is wanted exactly where its two times are in the range of dates, the commit
succeeds, and every comparison can be made. -/
theorem sweeps_iff (autoArchiveDays minAgeHours now now' : ℤ) (commits : Bool) (s : State) :
    Sweeps autoArchiveDays minAgeHours now now' commits s ↔
      commits = true ∧ InRange now (autoArchiveDays * microsPerDay) ∧
        InRange now' (minAgeHours * microsPerHour) ∧
        ∀ row ∈ s.rows, Comparable (now - autoArchiveDays * microsPerDay) row := by
  constructor
  · rintro ⟨stats, h⟩
    unfold cleanupEmptySessions at h
    split at h
    · rename_i cutoffDate minAge hcutoff hminAge
      unfold utcnowMinus at hcutoff hminAge
      split at hcutoff
      · rename_i hdays
        split at hminAge
        · rename_i hhours
          obtain rfl := Except.ok.inj hcutoff
          obtain rfl := Except.ok.inj hminAge
          split at h
          · rename_i sessions rows stats' hsweep
            split at h
            · rename_i hcommits
              exact ⟨hcommits, hdays, hhours, comparable_of_sweep hsweep⟩
            · cases (Prod.mk.inj h).2
          · cases (Prod.mk.inj h).2
        · cases hminAge
      · cases hcutoff
    · cases (Prod.mk.inj h).2
  · rintro ⟨hcommits, hdays, hhours, hcomparable⟩
    obtain ⟨stats, hsweep⟩ := sweep_of_comparable hcomparable
      (now' - minAgeHours * microsPerHour) s.sessions
    refine ⟨stats, ?_⟩
    rw [cleanupEmptySessions, utcnowMinus_of_inRange hdays, utcnowMinus_of_inRange hhours]
    dsimp only
    rw [hsweep]
    dsimp only
    rw [if_pos hcommits]

/-- Two empty sessions, one of the day before. -/
def emptySessions : State :=
  ⟨[⟨"a", some false, none, none, some 0, some false⟩,
    ⟨"b", some false, none, some (.naive (39 * microsPerDay)), some 0, some false⟩], ["a", "b"]⟩

/-- The sweep raises at the second one.  Both rows stay, and the first session is gone from
memory. -/
theorem not_sweeps_created :
    cleanupEmptySessions 30 1 (40 * microsPerDay) (40 * microsPerDay) true emptySessions =
      (⟨emptySessions.rows, ["b"]⟩, .error .typeError) ∧
    ¬ Sweeps 30 1 (40 * microsPerDay) (40 * microsPerDay) true emptySessions := by
  constructor
  · decide
  · rintro ⟨stats, h⟩
    have hresult : (cleanupEmptySessions 30 1 (40 * microsPerDay) (40 * microsPerDay) true
        emptySessions).2 = .error .typeError := by decide
    rw [h] at hresult
    cases hresult

end Pandamonium.SessionCleanup
