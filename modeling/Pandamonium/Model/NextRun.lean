import Mathlib.Algebra.Group.Int.Defs
import Mathlib.Data.List.SplitOn
import Pandamonium.Library.Calendar
import Pandamonium.Model.Value

/-!
# The next run of a scheduled task

`compute_next_run` of `src/task_scheduler.py`.  Clock times are in microseconds from the beginning of
the year 1.  Those that come in and go out are of UTC and carry no time zone, as in the tables; with
a zone the function works in its local clock and converts at the end.
-/

set_option autoImplicit false

namespace Pandamonium.TaskSchedule

open Library.Calendar

inductive Failure
  | valueError
  | overflowError
  deriving DecidableEq, Repr

/-- A clock time, and which of two times it is where the clock shows it twice. -/
structure LocalTime where
  wall : ℕ
  fold : Bool
  deriving DecidableEq, Repr

/-- A `ZoneInfo`. -/
structure Zone where
  /-- `utc.astimezone(tz)` -/
  ofUtc : ℕ → Except Failure LocalTime
  /-- `dt.astimezone(timezone.utc)` -/
  toUtc : LocalTime → Except Failure ℕ

structure Interpreter where
  utcnow : ℕ
  /-- `ZoneInfo(name)`, `none` where there is no such zone. -/
  zoneInfo : String → Option Zone
  /-- `croniter(expression, now).get_next(datetime)`, in the clock of `now`, `none` where it
  raises. -/
  croniter : String → LocalTime → Option Zone → Option LocalTime
  /-- The value of a decimal digit. -/
  decimal : Char → Option ℕ

def microsPerDay : ℕ := 86400000000

/-- `datetime.max` -/
def maxWall : ℕ := microsPerDay * 3652059 - 1

/-! ## Operations of `datetime` -/

namespace LocalTime

variable (dt : LocalTime)

/-- The days since the beginning of the year 1. -/
def day : ℕ := dt.wall / microsPerDay

def month : ℕ := monthOf dt.day

def year : ℕ := yearOf dt.month

/-- `dt.weekday()`; the first day is a Monday. -/
def weekday : ℕ := dt.day % 7

/-- `dt + timedelta(days=days)` -/
def plusDays (days : ℤ) : Except Failure LocalTime :=
  let wall : ℤ := dt.wall + microsPerDay * days
  if 0 ≤ wall ∧ wall ≤ maxWall then .ok ⟨wall.toNat, false⟩ else .error .overflowError

/-- `dt.replace(hour=hour, minute=minute, second=0, microsecond=0)` -/
def replaceTime (hour minute : ℕ) : LocalTime :=
  ⟨microsPerDay * dt.day + 60000000 * (60 * hour + minute), dt.fold⟩

/-- `dt.replace(day=day)`; the day is taken as a C integer. -/
def replaceDay (day : ℤ) : Except Failure LocalTime :=
  if day < -2 ^ 31 ∨ 2 ^ 31 ≤ day then .error .overflowError
  else if 1 ≤ day ∧ day ≤ monthLength dt.month then
    .ok ⟨microsPerDay * (monthStart dt.month + (day.toNat - 1)) + dt.wall % microsPerDay, dt.fold⟩
  else .error .valueError

/-- `dt.replace(month=dt.month + 1, day=1)`, or the January of the next year. -/
def firstOfNext : Except Failure LocalTime :=
  if yearOf (dt.month + 1) ≤ 9999 then
    .ok ⟨microsPerDay * monthStart (dt.month + 1) + dt.wall % microsPerDay, dt.fold⟩
  else .error .valueError

/-- The last day of the month. -/
def lastOfMonth : Except Failure LocalTime :=
  match dt.firstOfNext with
  | .error failure => .error failure
  | .ok next => next.plusDays (-1)

end LocalTime

/-! ## The time of the day -/

/-- `int(text)` without a sign. -/
def natOf (decimal : Char → Option ℕ) (cs : List Char) : Option ℕ :=
  let groups := cs.splitOn '_'
  if groups.any List.isEmpty ∨ 4300 < groups.flatten.length then none
  else (groups.flatten.mapM decimal).map fun digits => digits.foldl (fun n digit => 10 * n + digit) 0

/-- `int(text)` -/
def intOf (decimal : Char → Option ℕ) (cs : List Char) : Option ℤ :=
  match stripChars cs with
  | '-' :: digits => (natOf decimal digits).map fun n => -(n : ℤ)
  | '+' :: digits => (natOf decimal digits).map fun n => (n : ℤ)
  | digits => (natOf decimal digits).map fun n => (n : ℤ)

/-- The hour and the minute of `scheduled_time`. -/
def timeOf (decimal : Char → Option ℕ) (text : String) : Option (ℕ × ℕ) :=
  match text.toList.splitOn ':' with
  | first :: second :: _ =>
    match intOf decimal first, intOf decimal second with
    | some hour, some minute =>
      if 0 ≤ hour ∧ hour ≤ 23 ∧ 0 ≤ minute ∧ minute ≤ 59 then some (hour.toNat, minute.toNat)
      else none
    | _, _ => none
  | _ => none

/-! ## The slots of a schedule -/

/-- `schedule == "daily"` -/
def daily (now : LocalTime) (hour minute : ℕ) : Except Failure LocalTime :=
  let candidate := now.replaceTime hour minute
  if candidate.wall ≤ now.wall then candidate.plusDays 1 else .ok candidate

/-- `schedule == "weekly"` -/
def weekly (now : LocalTime) (hour minute : ℕ) (day : ℤ) : Except Failure LocalTime :=
  let candidate := now.replaceTime hour minute
  let daysAhead := day - candidate.weekday
  if daysAhead < 0 ∨ (daysAhead = 0 ∧ candidate.wall ≤ now.wall) then
    candidate.plusDays (daysAhead + 7)
  else candidate.plusDays daysAhead

/-- The slot in the month of a time; a day that the month does not have is its last one. -/
def monthSlot (dt : LocalTime) (hour minute : ℕ) (day : ℤ) : Except Failure LocalTime :=
  match dt.replaceDay day with
  | .ok candidate => .ok (candidate.replaceTime hour minute)
  | .error .valueError =>
    match dt.lastOfMonth with
    | .ok last => .ok (last.replaceTime hour minute)
    | .error failure => .error failure
  | .error failure => .error failure

/-- `schedule == "monthly"` -/
def monthly (now : LocalTime) (hour minute : ℕ) (day : ℤ) : Except Failure LocalTime :=
  match monthSlot now hour minute day with
  | .error failure => .error failure
  | .ok candidate =>
    if candidate.wall ≤ now.wall then
      match now.firstOfNext with
      | .error failure => .error failure
      | .ok nextMonth => monthSlot nextMonth hour minute day
    else .ok candidate

/-! ## The next run -/

/-- The arguments of `compute_next_run`. -/
structure Task where
  schedule : String
  scheduledTime : Option String
  scheduledDay : Option ℤ := none
  scheduledDate : Option ℕ := none
  after : Option ℕ := none
  cronExpression : Option String := none
  tzName : Option String := none

section NextRun

variable (it : Interpreter) (task : Task)

/-- `tz` -/
def zoneOf : Option Zone :=
  match task.tzName with
  | some name => if name = "" then none else it.zoneInfo name
  | none => none

/-- `after or _utcnow()` -/
def startOf : ℕ := task.after.getD it.utcnow

/-- `now` -/
def localNow : Except Failure LocalTime :=
  match zoneOf it task with
  | some tz => tz.ofUtc (startOf it task)
  | none => .ok ⟨startOf it task, false⟩

/-- `_to_utc_naive(dt) if tz is not None else dt` -/
def toUtcNaive (tz : Option Zone) (dt : LocalTime) : Except Failure ℕ :=
  match tz with
  | some tz => tz.toUtc dt
  | none => .ok dt.wall

/-- The candidate of a schedule that repeats, where it is one. -/
def candidateOf (now : LocalTime) (hour minute : ℕ) : Except Failure (Option LocalTime) :=
  if task.schedule = "daily" then (daily now hour minute).map some
  else if task.schedule = "weekly" then
    (weekly now hour minute (task.scheduledDay.getD 0)).map some
  else if task.schedule = "monthly" then
    (monthly now hour minute (task.scheduledDay.getD 1)).map some
  else .ok none

/-- `compute_next_run` -/
def computeNextRun : Except Failure (Option ℕ) :=
  match localNow it task with
  | .error failure => .error failure
  | .ok now =>
    let tz := zoneOf it task
    let expression := task.cronExpression.getD ""
    if task.schedule = "cron" ∧ expression ≠ "" then
      match it.croniter expression now tz with
      | none => .ok none
      | some next =>
        -- a conversion that raises is taken for an invalid expression
        match toUtcNaive tz next with
        | .ok next => .ok (some next)
        | .error _ => .ok none
    else if task.schedule = "once" then
      match task.scheduledDate with
      | none => .ok none
      | some date =>
        match toUtcNaive tz now with
        | .error failure => .error failure
        | .ok now => .ok (if now < date then some date else none)
    else
      match timeOf it.decimal (task.scheduledTime.getD "") with
      | none => .ok none
      | some (hour, minute) =>
        match candidateOf task now hour minute with
        | .error failure => .error failure
        | .ok none => .ok none
        | .ok (some candidate) => (toUtcNaive tz candidate).map some

end NextRun

end Pandamonium.TaskSchedule
