import Mathlib.Tactic.Ring
import Pandamonium.Model.NextRun

/-!
# The next run is the first later slot

The slots of a schedule that repeats are the days it names, each at the time of the day: all days, one
day of every week, and one day of every month.  In the clock that the function works in, the candidate
is the first slot behind now (`candidateOf_isLeast`).
-/

set_option autoImplicit false

namespace Pandamonium.TaskSchedule

open Library.Calendar

/-- A day that the month does not have stands for its last one. -/
def clampDay (day : ℤ) (length : ℕ) : ℕ := if 1 ≤ day ∧ day ≤ length then day.toNat else length

theorem clampDay_mem (day : ℤ) {length : ℕ} (h : 0 < length) :
    1 ≤ clampDay day length ∧ clampDay day length ≤ length := by
  rw [clampDay]
  split <;> omega

/-- The time of the day, in microseconds. -/
def timeOfDay (hour minute : ℕ) : ℕ := 60000000 * (60 * hour + minute)

/-- What a schedule that repeats asks of the time of a run. -/
structure Matches (task : Task) (hour minute : ℕ) (wall : ℕ) : Prop where
  time : wall % microsPerDay = timeOfDay hour minute
  weekday : task.schedule = "weekly" →
    ((wall / microsPerDay % 7 : ℕ) : ℤ) = task.scheduledDay.getD 0
  dayOfMonth : task.schedule = "monthly" → dayOfMonth (wall / microsPerDay) =
    clampDay (task.scheduledDay.getD 1) (monthLength (monthOf (wall / microsPerDay)))

/-! ## Slots -/

/-- The time of a day. -/
def slot (hour minute day : ℕ) : ℕ := microsPerDay * day + timeOfDay hour minute

variable {now dt candidate : LocalTime} {hour minute : ℕ} {task : Task}

theorem slot_div (h : timeOfDay hour minute < microsPerDay) (day : ℕ) :
    slot hour minute day / microsPerDay = day := by
  rw [slot, Nat.mul_add_div (Nat.zero_lt_of_lt h), Nat.div_eq_of_lt h, Nat.add_zero]

theorem slot_mod (h : timeOfDay hour minute < microsPerDay) (day : ℕ) :
    slot hour minute day % microsPerDay = timeOfDay hour minute := by
  rw [slot, Nat.mul_add_mod, Nat.mod_eq_of_lt h]

theorem slot_strictMono (hour minute : ℕ) : StrictMono (slot hour minute) := by
  intro day day' hlt
  rw [slot, slot, microsPerDay]
  omega

theorem eq_slot {wall : ℕ} (h : wall % microsPerDay = timeOfDay hour minute) :
    wall = slot hour minute (wall / microsPerDay) := by
  rw [slot, ← h, Nat.div_add_mod]

theorem slot_lt_of_lt {day wall : ℕ} (h : timeOfDay hour minute < microsPerDay)
    (hday : day < wall / microsPerDay) : slot hour minute day ≤ wall := by
  have hdiv := Nat.div_add_mod wall microsPerDay
  rw [slot]
  rw [microsPerDay] at h hday hdiv ⊢
  omega

theorem lt_slot_of_lt {day wall : ℕ} (hday : wall / microsPerDay < day) :
    wall < slot hour minute day := by
  have hmod := Nat.mod_lt wall (show 0 < microsPerDay by decide)
  have hdiv := Nat.div_add_mod wall microsPerDay
  rw [slot]
  rw [microsPerDay] at hday hmod hdiv ⊢
  omega

/-! ## Dates that can be written -/

theorem day_lt_of_year {year : ℕ} (h : dt.year < year + 1) : dt.day < monthStart (12 * year) := by
  refine (lt_monthStart_succ dt.day).trans_le (monthStart_strictMono.monotone ?_)
  rw [LocalTime.year, yearOf, LocalTime.month] at h
  omega

theorem plusDays_eq {days : ℤ} {day : ℕ} (hday : dt.day + days = day) (hmax : day < 3652059) :
    dt.plusDays days = .ok ⟨microsPerDay * day + dt.wall % microsPerDay, false⟩ := by
  have hmod := Nat.mod_lt dt.wall (show 0 < microsPerDay by decide)
  have hdiv : (dt.wall : ℤ) = microsPerDay * (dt.wall / microsPerDay : ℕ) +
      (dt.wall % microsPerDay : ℕ) := by
    exact_mod_cast (Nat.div_add_mod dt.wall microsPerDay).symm
  have hwall : (dt.wall : ℤ) + microsPerDay * days =
      (microsPerDay * day + dt.wall % microsPerDay : ℕ) := by
    rw [LocalTime.day] at hday
    conv_lhs => rw [hdiv]
    rw [Nat.cast_add, Nat.cast_mul, ← hday]
    ring
  have hle : microsPerDay * day + dt.wall % microsPerDay ≤ maxWall := by
    unfold maxWall microsPerDay at *
    omega
  rw [LocalTime.plusDays]
  simp only [hwall, Int.toNat_natCast]
  rw [if_pos ⟨Int.natCast_nonneg _, by exact_mod_cast hle⟩]

/-! ## Days and weeks -/

theorem replaceTime_wall (dt : LocalTime) (hour minute : ℕ) :
    (dt.replaceTime hour minute).wall = slot hour minute dt.day :=
  rfl

theorem replaceTime_day (h : timeOfDay hour minute < microsPerDay) (dt : LocalTime) :
    (dt.replaceTime hour minute).day = dt.day :=
  slot_div h dt.day

/-- The time of another day, when the time of the day has been replaced. -/
theorem replaceTime_plusDays (h : timeOfDay hour minute < microsPerDay) {days : ℤ} {day : ℕ}
    (hday : dt.day + days = day) (hmax : day < 3652059) :
    (dt.replaceTime hour minute).plusDays days = .ok ⟨slot hour minute day, false⟩ := by
  rw [← replaceTime_day h dt] at hday
  rw [plusDays_eq hday hmax, replaceTime_wall, slot_mod h]
  rfl

theorem day_lt (h : dt.year < 9999) : dt.day < 3651694 := by
  have hmonths : monthStart (12 * 9998) = 3651694 := by decide +kernel
  exact hmonths ▸ day_lt_of_year h

theorem daily_isLeast (htime : timeOfDay hour minute < microsPerDay) (hyear : now.year < 9999) :
    ∃ candidate, daily now hour minute = .ok candidate ∧
      (candidate.fold = now.fold ∨ candidate.fold = false) ∧
      IsLeast {wall | (∃ day, wall = slot hour minute day) ∧ now.wall < wall} candidate.wall := by
  have hday := day_lt hyear
  have htomorrow : (now.day : ℤ) + 1 = (now.day + 1 : ℕ) := (Nat.cast_succ _).symm
  have hwall := replaceTime_wall now hour minute
  by_cases hpast : (now.replaceTime hour minute).wall ≤ now.wall
  · simp only [daily, if_pos hpast]
    rw [hwall] at hpast
    refine ⟨_, replaceTime_plusDays htime htomorrow (by omega), .inr rfl, ?_⟩
    refine isLeast_of_strictMono (slot_strictMono hour minute)
      (lt_slot_of_lt (Nat.lt_succ_self _)) fun j hj => ?_
    rwa [← Nat.succ_inj.mp hj]
  · simp only [daily, if_neg hpast]
    refine ⟨_, rfl, .inl rfl, ?_⟩
    rw [hwall] at hpast ⊢
    refine isLeast_of_strictMono (slot_strictMono hour minute) (not_le.mp hpast) fun j hj => ?_
    exact slot_lt_of_lt htime (by rw [LocalTime.day] at hj; omega)

/-- The day of a week. -/
def weekSlot (hour minute day week : ℕ) : ℕ := slot hour minute (7 * week + day)

theorem weekSlot_strictMono (hour minute day : ℕ) : StrictMono (weekSlot hour minute day) := by
  intro week week' hlt
  exact slot_strictMono hour minute (by omega)

theorem weekly_isLeast (htime : timeOfDay hour minute < microsPerDay) (hyear : now.year < 9999)
    {day : ℕ} (hday : day < 7) :
    ∃ candidate, weekly now hour minute day = .ok candidate ∧
      (candidate.fold = now.fold ∨ candidate.fold = false) ∧
      IsLeast {wall | (∃ week, wall = weekSlot hour minute day week) ∧ now.wall < wall}
        candidate.wall := by
  have hmax := day_lt hyear
  have hweekday : (now.replaceTime hour minute).weekday = now.day % 7 := by
    rw [LocalTime.weekday, replaceTime_day htime]
  have hweek : now.day = 7 * (now.day / 7) + now.day % 7 := (Nat.div_add_mod now.day 7).symm
  -- the slot of this week is not later, or else it is the first one
  rw [weekly]
  simp only [hweekday, replaceTime_wall]
  split
  · rename_i hpast
    have htarget : (now.day : ℤ) + ((day : ℤ) - (now.day % 7 : ℕ) + 7) =
        (7 * (now.day / 7 + 1) + day : ℕ) := by
      omega
    refine ⟨_, replaceTime_plusDays htime htarget (by omega), .inr rfl, ?_⟩
    refine isLeast_of_strictMono (weekSlot_strictMono hour minute day) ?_ fun j hj => ?_
    · exact lt_slot_of_lt (by rw [← LocalTime.day]; omega)
    · obtain rfl : now.day / 7 = j := Nat.succ_inj.mp hj
      rcases hpast with hpast | ⟨hsame, hpast⟩
      · exact slot_lt_of_lt htime (by rw [← LocalTime.day]; omega)
      · have heq : 7 * (now.day / 7) + day = now.day := by omega
        rwa [weekSlot, heq]
  · rename_i hlater
    rw [not_or, not_and, not_lt, not_le] at hlater
    have htarget : (now.day : ℤ) + ((day : ℤ) - (now.day % 7 : ℕ)) =
        (7 * (now.day / 7) + day : ℕ) := by
      omega
    refine ⟨_, replaceTime_plusDays htime htarget (by omega), .inr rfl, ?_⟩
    refine isLeast_of_strictMono (weekSlot_strictMono hour minute day) ?_ fun j hj => ?_
    · rcases hlater.1.lt_or_eq with hbehind | hsame
      · exact lt_slot_of_lt (by rw [← LocalTime.day]; omega)
      · have heq : 7 * (now.day / 7) + day = now.day := by omega
        have hnow := hlater.2 hsame.symm
        rwa [weekSlot, heq]
    · exact slot_lt_of_lt htime (by rw [← LocalTime.day]; omega)

/-! ## Months -/

/-- The day of a month that a day stands for. -/
def monthDay (day : ℤ) (month : ℕ) : ℕ :=
  monthStart month + (clampDay day (monthLength month) - 1)

theorem monthDay_mem (day : ℤ) (month : ℕ) :
    monthStart month ≤ monthDay day month ∧ monthDay day month < monthStart (month + 1) := by
  have hlength := monthLength_mem month
  have hclamp := clampDay_mem day (show 0 < monthLength month by omega)
  rw [monthDay, monthStart_succ]
  omega

theorem monthOf_monthDay (day : ℤ) (month : ℕ) : monthOf (monthDay day month) = month :=
  monthOf_eq_iff.mpr (monthDay_mem day month)

theorem monthDay_strictMono (day : ℤ) : StrictMono (monthDay day) := by
  intro month month' hlt
  calc monthDay day month < monthStart (month + 1) := (monthDay_mem day month).2
    _ ≤ monthStart month' := monthStart_strictMono.monotone hlt
    _ ≤ monthDay day month' := (monthDay_mem day month').1

theorem firstOfNext_eq (hyear : yearOf (dt.month + 1) ≤ 9999) :
    dt.firstOfNext = .ok
      ⟨microsPerDay * monthStart (dt.month + 1) + dt.wall % microsPerDay, dt.fold⟩ := by
  rw [LocalTime.firstOfNext, if_pos hyear]

theorem wall_div (day wall : ℕ) :
    (microsPerDay * day + wall % microsPerDay) / microsPerDay = day := by
  have hmod := Nat.mod_lt wall (show 0 < microsPerDay by decide)
  rw [Nat.mul_add_div (Nat.zero_lt_of_lt hmod), Nat.div_eq_of_lt hmod, Nat.add_zero]

theorem monthStart_le (hyear : yearOf (dt.month + 1) ≤ 9999) :
    monthStart (dt.month + 1) < 3652059 := by
  have hmonths : monthStart (12 * 9999) = 3652059 := by decide +kernel
  rw [yearOf] at hyear
  exact hmonths ▸ monthStart_strictMono (by omega)

theorem lastOfMonth_eq (hyear : yearOf (dt.month + 1) ≤ 9999) :
    dt.lastOfMonth = .ok
      ⟨microsPerDay * (monthStart (dt.month + 1) - 1) + dt.wall % microsPerDay, false⟩ := by
  have hstart := le_monthStart (dt.month + 1)
  have hmax := monthStart_le hyear
  rw [LocalTime.lastOfMonth, firstOfNext_eq hyear]
  have hday : ((LocalTime.day ⟨microsPerDay * monthStart (dt.month + 1) + dt.wall % microsPerDay,
      dt.fold⟩ : ℕ) : ℤ) + -1 = (monthStart (dt.month + 1) - 1 : ℕ) := by
    rw [LocalTime.day, wall_div]
    omega
  simp only [plusDays_eq hday (show monthStart (dt.month + 1) - 1 < 3652059 by omega)]
  have hmod : (microsPerDay * monthStart (dt.month + 1) + dt.wall % microsPerDay) % microsPerDay =
      dt.wall % microsPerDay := by
    rw [Nat.mul_add_mod, Nat.mod_mod]
  rw [hmod]

/-- The slot in a month, of a day that is a C integer. -/
theorem monthSlot_eq (dt : LocalTime) (hour minute : ℕ) (hyear : yearOf (dt.month + 1) ≤ 9999)
    {day : ℤ} (hlower : -2 ^ 31 ≤ day) (hupper : day < 2 ^ 31) :
    ∃ candidate, monthSlot dt hour minute day = .ok candidate ∧
      candidate.wall = slot hour minute (monthDay day dt.month) ∧
      (candidate.fold = dt.fold ∨ candidate.fold = false) := by
  have hrange : ¬ (day < -2 ^ 31 ∨ 2 ^ 31 ≤ day) := not_or.mpr ⟨not_lt.mpr hlower, not_le.mpr hupper⟩
  rw [monthSlot, LocalTime.replaceDay, if_neg hrange]
  by_cases hday : 1 ≤ day ∧ day ≤ monthLength dt.month
  · rw [if_pos hday]
    refine ⟨_, rfl, ?_, .inl rfl⟩
    rw [replaceTime_wall, LocalTime.day, wall_div, monthDay, clampDay, if_pos hday]
  · rw [if_neg hday]
    simp only [lastOfMonth_eq hyear]
    refine ⟨_, rfl, ?_, .inr rfl⟩
    have hlength := monthLength_mem dt.month
    have hlast : monthStart (dt.month + 1) - 1 = monthStart dt.month + (monthLength dt.month - 1) := by
      rw [monthStart_succ]
      omega
    rw [replaceTime_wall, LocalTime.day, wall_div, monthDay, clampDay, if_neg hday, hlast]

theorem monthly_isLeast (htime : timeOfDay hour minute < microsPerDay) (hyear : now.year < 9999)
    {day : ℤ} (hlower : -2 ^ 31 ≤ day) (hupper : day < 2 ^ 31) :
    ∃ candidate, monthly now hour minute day = .ok candidate ∧
      (candidate.fold = now.fold ∨ candidate.fold = false) ∧
      IsLeast {wall | (∃ month, wall = slot hour minute (monthDay day month)) ∧ now.wall < wall}
        candidate.wall := by
  rw [LocalTime.year, yearOf] at hyear
  have hslots : StrictMono fun month => slot hour minute (monthDay day month) :=
    (slot_strictMono hour minute).comp (monthDay_strictMono day)
  have hthis : yearOf (now.month + 1) ≤ 9999 := by
    rw [yearOf]
    omega
  obtain ⟨candidate, hcandidate, hwall, hfold⟩ :=
    monthSlot_eq now hour minute hthis hlower hupper
  rw [monthly, hcandidate]
  by_cases hpast : candidate.wall ≤ now.wall
  · have hmonth : LocalTime.month
        ⟨microsPerDay * monthStart (now.month + 1) + now.wall % microsPerDay, now.fold⟩ =
          now.month + 1 := by
      rw [LocalTime.month, LocalTime.day, wall_div]
      exact monthOf_eq_iff.mpr ⟨le_rfl, monthStart_strictMono (Nat.lt_succ_self _)⟩
    obtain ⟨next, hnext, hnextWall, hnextFold⟩ := monthSlot_eq
      ⟨microsPerDay * monthStart (now.month + 1) + now.wall % microsPerDay, now.fold⟩ hour minute
      (by rw [hmonth, yearOf]; omega) hlower hupper
    simp only [if_pos hpast, firstOfNext_eq hthis]
    refine ⟨next, hnext, hnextFold, ?_⟩
    rw [hnextWall, hmonth]
    refine isLeast_of_strictMono hslots ?_ fun j hj => ?_
    · exact lt_slot_of_lt ((lt_monthStart_succ _).trans_le (monthDay_mem day _).1)
    · rw [← Nat.succ_inj.mp hj, ← hwall]
      exact hpast
  · simp only [if_neg hpast]
    refine ⟨candidate, rfl, hfold, ?_⟩
    rw [hwall]
    refine isLeast_of_strictMono hslots (hwall ▸ not_le.mp hpast) fun j hj => ?_
    have hbefore : monthDay day j < now.day := by
      have hstart := monthStart_monthOf now.day
      have hend := (monthDay_mem day j).2
      rw [← LocalTime.month, hj] at hstart
      omega
    exact slot_lt_of_lt htime hbefore

end Pandamonium.TaskSchedule
