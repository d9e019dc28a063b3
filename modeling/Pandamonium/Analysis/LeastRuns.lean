import Pandamonium.Analysis.NextRuns

/-!
# The next run of a task

The candidate is the first later time that matches the schedule (`candidateOf_isLeast`).  In UTC the
run is the first later instant where the zone keeps its offset until then (`Zone.Steady`).
-/

set_option autoImplicit false

namespace Pandamonium.TaskSchedule

open Library.Calendar

variable {it : Interpreter} {task : Task} {now dt candidate : LocalTime} {hour minute wall : ℕ}

/-! ## Slots and schedules -/

theorem matches_daily_iff (htime : timeOfDay hour minute < microsPerDay)
    (hdaily : task.schedule = "daily") :
    Matches task hour minute wall ↔ ∃ day, wall = slot hour minute day := by
  constructor
  · intro h
    exact ⟨_, eq_slot h.time⟩
  · rintro ⟨day, rfl⟩
    refine ⟨slot_mod htime day, fun h => ?_, fun h => ?_⟩
    · exact absurd (hdaily.symm.trans h) (by decide)
    · exact absurd (hdaily.symm.trans h) (by decide)

theorem matches_weekly_iff (htime : timeOfDay hour minute < microsPerDay)
    (hweekly : task.schedule = "weekly") {day : ℕ} (hday : task.scheduledDay.getD 0 = day)
    (hlt : day < 7) :
    Matches task hour minute wall ↔ ∃ week, wall = weekSlot hour minute day week := by
  constructor
  · intro h
    have hweekday := h.weekday hweekly
    rw [hday, Nat.cast_inj] at hweekday
    refine ⟨wall / microsPerDay / 7, ?_⟩
    have hdays : 7 * (wall / microsPerDay / 7) + day = wall / microsPerDay := by
      rw [← hweekday]
      exact Nat.div_add_mod _ 7
    rw [weekSlot, hdays]
    exact eq_slot h.time
  · rintro ⟨week, rfl⟩
    refine ⟨slot_mod htime _, fun _ => ?_, fun h => ?_⟩
    · rw [weekSlot, slot_div htime, hday, Nat.mul_add_mod, Nat.mod_eq_of_lt hlt]
    · exact absurd (hweekly.symm.trans h) (by decide)

theorem dayOfMonth_monthDay (day : ℤ) (month : ℕ) :
    dayOfMonth (monthDay day month) = clampDay day (monthLength month) := by
  have hlength := monthLength_mem month
  have hclamp := clampDay_mem day (show 0 < monthLength month by omega)
  rw [dayOfMonth, monthOf_monthDay, monthDay]
  omega

theorem matches_monthly_iff (htime : timeOfDay hour minute < microsPerDay)
    (hmonthly : task.schedule = "monthly") :
    Matches task hour minute wall ↔
      ∃ month, wall = slot hour minute (monthDay (task.scheduledDay.getD 1) month) := by
  constructor
  · intro h
    have hstart := monthStart_monthOf (wall / microsPerDay)
    have hclamp := h.dayOfMonth hmonthly
    refine ⟨monthOf (wall / microsPerDay), ?_⟩
    have hday : monthDay (task.scheduledDay.getD 1) (monthOf (wall / microsPerDay)) =
        wall / microsPerDay := by
      rw [monthDay, ← hclamp, dayOfMonth]
      omega
    rw [hday]
    exact eq_slot h.time
  · rintro ⟨month, rfl⟩
    refine ⟨slot_mod htime _, fun h => ?_, fun _ => ?_⟩
    · exact absurd (hmonthly.symm.trans h) (by decide)
    · rw [slot_div htime, monthOf_monthDay, dayOfMonth_monthDay]

/-! ## The candidate -/

def Repeats (task : Task) : Prop :=
  task.schedule = "daily" ∨ task.schedule = "weekly" ∨ task.schedule = "monthly"

/-- A day of the week is 0 to 6, one of the month a C integer. -/
structure InRange (task : Task) : Prop where
  weekly : task.schedule = "weekly" →
    0 ≤ task.scheduledDay.getD 0 ∧ task.scheduledDay.getD 0 ≤ 6
  monthly : task.schedule = "monthly" →
    -2 ^ 31 ≤ task.scheduledDay.getD 1 ∧ task.scheduledDay.getD 1 < 2 ^ 31

theorem candidateOf_isLeast (htime : timeOfDay hour minute < microsPerDay)
    (hrepeats : Repeats task) (hrange : InRange task) (hyear : now.year < 9999) :
    ∃ candidate, candidateOf task now hour minute = .ok (some candidate) ∧
      (candidate.fold = now.fold ∨ candidate.fold = false) ∧
      IsLeast {wall | Matches task hour minute wall ∧ now.wall < wall} candidate.wall := by
  rcases hrepeats with hdaily | hweekly | hmonthly
  · obtain ⟨candidate, hcandidate, hfold, hleast⟩ := daily_isLeast htime hyear
    refine ⟨candidate, ?_, hfold, ?_⟩
    · rw [candidateOf, if_pos hdaily, hcandidate]
      rfl
    · simpa only [matches_daily_iff htime hdaily] using hleast
  · have hnot : task.schedule ≠ "daily" := by
      rw [hweekly]
      decide
    obtain ⟨hnonneg, hle⟩ := hrange.weekly hweekly
    obtain ⟨day, hday⟩ := Int.eq_ofNat_of_zero_le hnonneg
    have hlt : day < 7 := by omega
    obtain ⟨candidate, hcandidate, hfold, hleast⟩ := weekly_isLeast htime hyear hlt
    refine ⟨candidate, ?_, hfold, ?_⟩
    · rw [candidateOf, if_neg hnot, if_pos hweekly, hday, hcandidate]
      rfl
    · simpa only [matches_weekly_iff htime hweekly hday hlt] using hleast
  · have hnot : task.schedule ≠ "daily" ∧ task.schedule ≠ "weekly" := by
      rw [hmonthly]
      decide
    obtain ⟨hlower, hupper⟩ := hrange.monthly hmonthly
    obtain ⟨candidate, hcandidate, hfold, hleast⟩ := monthly_isLeast htime hyear hlower hupper
    refine ⟨candidate, ?_, hfold, ?_⟩
    · rw [candidateOf, if_neg hnot.1, if_neg hnot.2, if_pos hmonthly, hcandidate]
      rfl
    · simpa only [matches_monthly_iff htime hmonthly] using hleast

/-! ## Conversion -/

/-- From an instant to a local time a zone keeps its offset. -/
structure Zone.Steady (tz : Zone) (start : ℕ) (dt : LocalTime) (offset : ℤ) : Prop where
  ofStart : ∃ dt, tz.ofUtc start = .ok dt ∧ (dt.wall : ℤ) = start + offset
  ofUtc : ∀ utc : ℕ, start ≤ utc → utc + offset ≤ dt.wall →
    ∃ dt, tz.ofUtc utc = .ok dt ∧ (dt.wall : ℤ) = utc + offset
  toUtc : ∃ utc : ℕ, tz.toUtc dt = .ok utc ∧ utc + offset = dt.wall

/-- The first later local time is the first later instant. -/
theorem Zone.Steady.isLeast {tz : Zone} {start : ℕ} {offset : ℤ}
    (h : tz.Steady start candidate offset) (hnow : tz.ofUtc start = .ok now)
    (hleast : IsLeast {wall | Matches task hour minute wall ∧ now.wall < wall} candidate.wall) :
    ∃ run, tz.toUtc candidate = .ok run ∧
      IsLeast {utc | (∃ dt, tz.ofUtc utc = .ok dt ∧ Matches task hour minute dt.wall) ∧ start < utc}
        run := by
  obtain ⟨⟨hmatches, hlater⟩, hfirst⟩ := hleast
  obtain ⟨run, hrun, hoffset⟩ := h.toUtc
  obtain ⟨dt, hdt, hstart⟩ := h.ofStart
  obtain rfl := Except.ok.inj (hnow.symm.trans hdt)
  have hbefore : start < run := by omega
  refine ⟨run, hrun, ⟨?_, hbefore⟩, ?_⟩
  · obtain ⟨dt, hdt, hwall⟩ := h.ofUtc run hbefore.le hoffset.le
    have heq : dt.wall = candidate.wall := by omega
    exact ⟨dt, hdt, heq ▸ hmatches⟩
  · rintro utc ⟨⟨dt, hdt, hmatch⟩, hutc⟩
    by_contra hlt
    obtain ⟨dt', hdt', hwall⟩ := h.ofUtc utc hutc.le (by omega)
    obtain rfl := Except.ok.inj (hdt.symm.trans hdt')
    have hle := hfirst ⟨hmatch, show now.wall < dt.wall by omega⟩
    omega

/-! ## The next run -/

theorem timeOf_lt {decimal : Char → Option ℕ} {text : String}
    (h : timeOf decimal text = some (hour, minute)) : timeOfDay hour minute < microsPerDay := by
  rw [timeOf] at h
  split at h
  · split at h
    · split at h
      · rename_i hrange
        obtain ⟨rfl, rfl⟩ := Prod.mk.inj (Option.some.inj h)
        rw [timeOfDay, microsPerDay]
        omega
      · cases h
    · cases h
  · cases h

/-- The iterator over the runs of an expression gives the first one behind a clock time. -/
def CronLeast (it : Interpreter) (fires : String → ℕ → Prop) : Prop :=
  ∀ expression start next, it.croniter expression start none = some next →
    IsLeast {wall | fires expression wall ∧ start.wall < wall} next.wall

theorem computeNextRun_repeats (hnow : localNow it task = .ok now) (hrepeats : Repeats task)
    {time : ℕ × ℕ} (htime : timeOf it.decimal (task.scheduledTime.getD "") = some time)
    (hcandidate : candidateOf task now time.1 time.2 = .ok (some candidate)) :
    computeNextRun it task = (toUtcNaive (zoneOf it task) candidate).map some := by
  have hcron : task.schedule ≠ "cron" ∧ task.schedule ≠ "once" := by
    rcases hrepeats with hschedule | hschedule | hschedule <;> rw [hschedule] <;> decide
  rw [computeNextRun, hnow]
  simp only [hcron, htime, hcandidate, false_and, if_false]

/-- Without a time of the day, or without a schedule that repeats, there is no run. -/
theorem computeNextRun_none (hnow : localNow it task = .ok now) (honce : task.schedule ≠ "once")
    (hcron : task.schedule = "cron" → task.cronExpression.getD "" = "")
    (hnone : timeOf it.decimal (task.scheduledTime.getD "") = none ∨ ¬ Repeats task) :
    computeNextRun it task = .ok none := by
  have hexpression : ¬ (task.schedule = "cron" ∧ task.cronExpression.getD "" ≠ "") := by
    rintro ⟨hschedule, hne⟩
    exact hne (hcron hschedule)
  rw [computeNextRun, hnow]
  simp only [if_neg hexpression, if_neg honce]
  cases htime : timeOf it.decimal (task.scheduledTime.getD "") with
  | none => rfl
  | some time =>
    rcases hnone with hnone | hrepeats
    · exact absurd (htime.symm.trans hnone) (by simp)
    · rw [Repeats, not_or, not_or] at hrepeats
      have hcandidate : candidateOf task now time.1 time.2 = .ok none := by
        rw [candidateOf, if_neg hrepeats.1, if_neg hrepeats.2.1, if_neg hrepeats.2.2]
      simp only [hcandidate]

theorem computeNextRun_isLeast (it : Interpreter) (task : Task) {now : LocalTime}
    (hnow : localNow it task = .ok now) :
    (∀ hour minute, Repeats task → InRange task → now.year < 9999 →
      timeOf it.decimal (task.scheduledTime.getD "") = some (hour, minute) →
      ∃ candidate,
        IsLeast {wall | Matches task hour minute wall ∧ now.wall < wall} candidate.wall ∧
        (candidate.fold = now.fold ∨ candidate.fold = false) ∧
        computeNextRun it task = (toUtcNaive (zoneOf it task) candidate).map some ∧
        ∀ tz offset, zoneOf it task = some tz → tz.Steady (startOf it task) candidate offset →
          ∃ run, computeNextRun it task = .ok (some run) ∧
            IsLeast {utc | (∃ dt, tz.ofUtc utc = .ok dt ∧ Matches task hour minute dt.wall) ∧
              startOf it task < utc} run) ∧
    (task.schedule = "once" → ∀ utc, toUtcNaive (zoneOf it task) now = .ok utc →
      computeNextRun it task = .ok (task.scheduledDate.filter fun date => utc < date)) ∧
    (task.schedule = "cron" → ∀ expression, task.cronExpression = some expression →
      expression ≠ "" → ∀ next, it.croniter expression now (zoneOf it task) = some next →
      (∀ run, toUtcNaive (zoneOf it task) next = .ok run →
        computeNextRun it task = .ok (some run)) ∧
      ∀ fires, CronLeast it fires → zoneOf it task = none →
        computeNextRun it task = .ok (some next.wall) ∧
          IsLeast {wall | fires expression wall ∧ startOf it task < wall} next.wall) ∧
    (task.schedule ≠ "once" → (task.schedule = "cron" → task.cronExpression.getD "" = "") →
      timeOf it.decimal (task.scheduledTime.getD "") = none ∨ ¬ Repeats task →
      computeNextRun it task = .ok none) := by
  refine ⟨?_, ?_, ?_, fun honce hcron hnone => computeNextRun_none hnow honce hcron hnone⟩
  · intro hour minute hrepeats hrange hyear htime
    obtain ⟨candidate, hcandidate, hfold, hleast⟩ :=
      candidateOf_isLeast (timeOf_lt htime) hrepeats hrange hyear
    have hrun := computeNextRun_repeats hnow hrepeats htime hcandidate
    refine ⟨candidate, hleast, hfold, hrun, fun tz offset hzone hsteady => ?_⟩
    rw [localNow, hzone] at hnow
    obtain ⟨run, hutc, hfirst⟩ := hsteady.isLeast hnow hleast
    refine ⟨run, ?_, hfirst⟩
    rw [hrun, hzone, toUtcNaive, hutc]
    rfl
  · intro honce utc hutc
    have hnot : task.schedule ≠ "cron" := by
      rw [honce]
      decide
    rw [computeNextRun, hnow]
    simp only [hnot, honce, false_and, if_false, if_true, hutc]
    cases task.scheduledDate with
    | none => rfl
    | some date => simp [Option.filter]
  · intro hcron expression hexpression hne next hnext
    have hrun : ∀ run, toUtcNaive (zoneOf it task) next = .ok run →
        computeNextRun it task = .ok (some run) := by
      intro run hutc
      rw [computeNextRun, hnow]
      simp [hcron, hexpression, hne, hnext, hutc]
    refine ⟨hrun, fun fires hleast hzone => ?_⟩
    rw [hzone] at hrun hnext
    rw [localNow, hzone] at hnow
    cases hnow
    exact ⟨hrun next.wall rfl, hleast expression _ next hnext⟩

/-! ## A week and a change of the clock -/

/-- No iterator for cron, and at most one zone. -/
def Interpreter.ofZone (zone : Option Zone) : Interpreter where
  utcnow := 0
  zoneInfo := fun _ => zone
  croniter := fun _ _ _ => none
  decimal := fun x => if x.isDigit then some (x.toNat - '0'.toNat) else none

/-- The time of an hour and a minute on a day. -/
def instant (day hour minute : ℕ) : ℕ := slot hour minute day

/-- A zone west of Greenwich that puts its clock back by an hour at an instant. -/
def Zone.putBack (transition hours : ℕ) : Zone where
  ofUtc := fun utc =>
    if utc < transition then .ok ⟨utc - 3600000000 * hours, false⟩
    else .ok ⟨utc - 3600000000 * (hours + 1), utc < transition + 3600000000⟩
  toUtc := fun dt =>
    let first := dt.wall + 3600000000 * hours
    let second := first + 3600000000
    .ok (if first < transition ∧ (second < transition ∨ ¬ dt.fold) then first else second)

/-- A weekly task at nine, after ten on Sunday, 2026-03-01. -/
def afterSunday (day : ℤ) : Task where
  schedule := "weekly"
  scheduledTime := some "09:00"
  scheduledDay := some day
  after := some (instant 739675 10 0)

/-- A daily task at half past one, after a quarter to two on 2026-11-01, before the clock is put
back. -/
def beforeChange : Task where
  schedule := "daily"
  scheduledTime := some "01:30"
  after := some (instant 739920 5 45)
  tzName := some "America/New_York"

theorem computeNextRun_isLeast_sunday :
    ∃ candidate : LocalTime,
      computeNextRun (.ofZone none) (afterSunday 2) = .ok (some candidate.wall) ∧
      IsLeast {wall | Matches (afterSunday 2) 9 0 wall ∧ instant 739675 10 0 < wall}
        candidate.wall := by
  have hnow : localNow (.ofZone none) (afterSunday 2) = .ok ⟨instant 739675 10 0, false⟩ := rfl
  obtain ⟨candidate, hleast, -, hrun, -⟩ :=
    (computeNextRun_isLeast (.ofZone none) (afterSunday 2) hnow).1 9 0 (.inr (.inl rfl))
      ⟨fun _ => by decide, fun h => absurd h (by decide)⟩ (by decide +kernel) (by decide +kernel)
  exact ⟨candidate, hrun, hleast⟩

/-- The day before Monday is behind on a Sunday, and a time that the clock shows twice is left out
when it has been shown once. -/
theorem not_isLeast_run :
    computeNextRun (.ofZone none) (afterSunday (-1)) = .ok (some (instant 739675 9 0)) ∧
    (computeNextRun (.ofZone (some (.putBack (instant 739920 6 0) 4))) beforeChange =
        .ok (some (instant 739921 6 30)) ∧
      (Zone.putBack (instant 739920 6 0) 4).ofUtc (instant 739920 6 30) =
        .ok ⟨instant 739920 1 30, true⟩) := by
  decide +kernel

end Pandamonium.TaskSchedule
