import Mathlib.Data.Nat.Find
import Mathlib.Order.Bounds.Basic

/-!
# The months of the Gregorian calendar

Months are counted from the January of the year 1, and days from its first.  The months are an
interval each of the days, one behind the other (`monthOf_eq_iff`).
-/

set_option autoImplicit false

namespace Pandamonium.Library.Calendar

def isLeap (year : ℕ) : Bool := year % 4 == 0 && (year % 100 != 0 || year % 400 == 0)

/-- The year of a month. -/
def yearOf (month : ℕ) : ℕ := month / 12 + 1

/-- The days of the month of a year, from January as 0. -/
def lengthIn (year : ℕ) : ℕ → ℕ
  | 1 => if isLeap year then 29 else 28
  | 3 | 5 | 8 | 10 => 30
  | _ => 31

/-- The days of a year before the month. -/
def daysBefore (year : ℕ) : ℕ → ℕ
  | 0 => 0
  | month + 1 => daysBefore year month + lengthIn year month

def monthLength (month : ℕ) : ℕ := lengthIn (yearOf month) (month % 12)

/-- The days before a year. -/
def yearStart (year : ℕ) : ℕ :=
  365 * (year - 1) + (year - 1) / 4 - (year - 1) / 100 + (year - 1) / 400

/-- The first day of a month. -/
def monthStart (month : ℕ) : ℕ := yearStart (yearOf month) + daysBefore (yearOf month) (month % 12)

theorem monthLength_mem (month : ℕ) : 28 ≤ monthLength month ∧ monthLength month ≤ 31 := by
  unfold monthLength lengthIn
  split
  · split <;> omega
  all_goals omega

theorem daysBefore_twelve (year : ℕ) :
    daysBefore year 12 = if isLeap year then 366 else 365 := by
  by_cases hleap : isLeap year = true <;> simp [daysBefore, lengthIn, hleap]

theorem isLeap_iff {year : ℕ} :
    isLeap year = true ↔ year % 4 = 0 ∧ (year % 100 ≠ 0 ∨ year % 400 = 0) := by
  simp [isLeap]

theorem yearStart_succ {year : ℕ} (h : 0 < year) :
    yearStart (year + 1) = yearStart year + if isLeap year then 366 else 365 := by
  obtain ⟨y, rfl⟩ := Nat.exists_eq_succ_of_ne_zero h.ne'
  have h4 := Nat.succ_div (a := y) (b := 4)
  have h100 := Nat.succ_div (a := y) (b := 100)
  have h400 := Nat.succ_div (a := y) (b := 400)
  have hle : y / 100 ≤ y / 4 := Nat.div_le_div_left (by omega) (by omega)
  simp only [Nat.dvd_iff_mod_eq_zero] at h4 h100 h400
  rw [yearStart, yearStart, Nat.add_sub_cancel, Nat.succ_eq_add_one, Nat.add_sub_cancel, h4, h100,
    h400]
  by_cases hleap : isLeap (y + 1) = true
  · rw [if_pos hleap]
    obtain ⟨hfour, hcentury⟩ := isLeap_iff.mp hleap
    rw [if_pos hfour]
    split_ifs <;> omega
  · rw [if_neg hleap]
    rw [isLeap_iff] at hleap
    split_ifs <;> omega

theorem monthStart_succ (month : ℕ) :
    monthStart (month + 1) = monthStart month + monthLength month := by
  have hmod : month % 12 < 12 := Nat.mod_lt _ (by omega)
  rw [monthStart, monthStart, monthLength, Nat.add_assoc, ← daysBefore]
  by_cases hlast : month % 12 = 11
  · have hyear : yearOf (month + 1) = yearOf month + 1 := by
      rw [yearOf, yearOf]
      omega
    have hzero : (month + 1) % 12 = 0 := by omega
    rw [hyear, hzero, hlast, yearStart_succ (show 0 < yearOf month from Nat.succ_pos _),
      daysBefore_twelve]
    rfl
  · have hyear : yearOf (month + 1) = yearOf month := by
      rw [yearOf, yearOf]
      omega
    have hnext : (month + 1) % 12 = month % 12 + 1 := by omega
    rw [hyear, hnext]

theorem monthStart_strictMono : StrictMono monthStart := by
  refine strictMono_nat_of_lt_succ fun month => ?_
  have hlength := monthLength_mem month
  rw [monthStart_succ]
  omega

theorem le_monthStart (month : ℕ) : 28 * month ≤ monthStart month := by
  induction month with
  | zero => exact Nat.zero_le _
  | succ month ih =>
    have hlength := monthLength_mem month
    rw [monthStart_succ]
    omega

/-- The month of a day. -/
def monthOf (day : ℕ) : ℕ := Nat.findGreatest (fun month => monthStart month ≤ day) (day / 28)

theorem monthStart_monthOf (day : ℕ) : monthStart (monthOf day) ≤ day :=
  Nat.findGreatest_spec (P := fun month => monthStart month ≤ day) (Nat.zero_le _) (Nat.zero_le day)

theorem lt_monthStart_succ (day : ℕ) : day < monthStart (monthOf day + 1) := by
  by_contra hle
  have hlower := le_monthStart (monthOf day + 1)
  have hgreatest := Nat.le_findGreatest (P := fun month => monthStart month ≤ day)
    (show monthOf day + 1 ≤ day / 28 by omega) (by omega)
  exact absurd hgreatest (by rw [monthOf]; omega)

theorem monthOf_eq_iff {day month : ℕ} :
    monthOf day = month ↔ monthStart month ≤ day ∧ day < monthStart (month + 1) := by
  constructor
  · rintro rfl
    exact ⟨monthStart_monthOf day, lt_monthStart_succ day⟩
  · rintro ⟨hle, hlt⟩
    have hfirst := monthStart_strictMono.lt_iff_lt.mp ((monthStart_monthOf day).trans_lt hlt)
    have hlast := monthStart_strictMono.lt_iff_lt.mp (hle.trans_lt (lt_monthStart_succ day))
    omega

/-- The day of a month, from 1. -/
def dayOfMonth (day : ℕ) : ℕ := day - monthStart (monthOf day) + 1

/-- Of times that recur, the first later one is the next behind one that is not later. -/
theorem isLeast_of_strictMono {slot : ℕ → ℕ} (hslot : StrictMono slot) {now k : ℕ}
    (hlater : now < slot k) (hearlier : ∀ j, k = j + 1 → slot j ≤ now) :
    IsLeast {time | (∃ j, time = slot j) ∧ now < time} (slot k) := by
  refine ⟨⟨⟨k, rfl⟩, hlater⟩, ?_⟩
  rintro _ ⟨⟨j, rfl⟩, hj⟩
  by_contra hlt
  have hjk : j < k := hslot.lt_iff_lt.mp (not_le.mp hlt)
  obtain ⟨i, rfl⟩ := Nat.exists_eq_succ_of_ne_zero (Nat.ne_of_gt (Nat.zero_lt_of_lt hjk))
  have hmono : slot j ≤ slot i := hslot.monotone (Nat.le_of_lt_succ hjk)
  exact absurd (hmono.trans (hearlier i rfl)) (not_le.mpr hj)

end Pandamonium.Library.Calendar
