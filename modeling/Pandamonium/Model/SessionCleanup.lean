import Mathlib.Algebra.Ring.Int.Defs

/-!
# The sweep over empty and old sessions

`cleanup_empty_sessions` of `SessionManager` goes through the rows of the sessions, deletes some and
archives others, and commits at the end; what raises on the way rolls the rows back and goes on.  A
`datetime` has a time zone or has none, and the two kinds are not compared.
-/

set_option autoImplicit false

namespace Pandamonium.SessionCleanup

/-- What an operation raises. -/
inductive Failure
  | typeError
  | overflowError
  | databaseError
  deriving DecidableEq, Repr

/-- A `datetime`, in microseconds from the beginning of the year 1: of its own clock where it has no
time zone, and else of UTC. -/
inductive DateTime
  | naive (micros : ℤ)
  | aware (micros : ℤ)
  deriving DecidableEq, Repr

/-- `if value.tzinfo is None: value = value.replace(tzinfo=timezone.utc)` -/
def DateTime.inUtc : DateTime → DateTime
  | .naive micros => .aware micros
  | .aware micros => .aware micros

/-- `a < b` -/
def DateTime.lt : DateTime → DateTime → Except Failure Bool
  | .naive a, .naive b => .ok (decide (a < b))
  | .aware a, .aware b => .ok (decide (a < b))
  | _, _ => .error .typeError

def microsPerHour : ℤ := 3600 * 1000000

def microsPerDay : ℤ := 24 * microsPerHour

/-- `datetime.max` -/
def maxMicros : ℤ := 3652059 * microsPerDay - 1

/-- `utcnow_naive() - delta` -/
def utcnowMinus (now delta : ℤ) : Except Failure DateTime :=
  if 0 ≤ now - delta ∧ now - delta ≤ maxMicros then .ok (.naive (now - delta))
  else .error .overflowError

/-- A row of `sessions`. -/
structure DbSession where
  id : String
  archived : Option Bool
  lastAccessed : Option DateTime
  createdAt : Option DateTime
  messageCount : Option ℤ
  isImportant : Option Bool
  deriving DecidableEq, Repr

/-- What the sweep does with a row. -/
inductive Decision
  | leave | delete | archive
  deriving DecidableEq, Repr

/-- `not row.archived and row.last_accessed and row.last_accessed < cutoff_date and
row.message_count > 0 and not row.is_important` -/
def archives (cutoffDate : DateTime) (row : DbSession) : Except Failure Bool :=
  if row.archived = some true then .ok false
  else
    match row.lastAccessed with
    | none => .ok false
    | some lastAccessed => do
      if ← lastAccessed.lt cutoffDate then
        match row.messageCount with
        | none => .error .typeError
        | some count => .ok (decide (0 < count) && decide (row.isImportant ≠ some true))
      else .ok false

/-- The body of the loop. -/
def decision (cutoffDate minAge : DateTime) (row : DbSession) : Except Failure Decision :=
  if row.messageCount = some 0 then
    match row.createdAt with
    | none => .ok .delete
    | some created => do
      if ← minAge.lt created.inUtc then .ok .leave else .ok .delete
  else do
    if ← archives cutoffDate row then .ok .archive else .ok .leave

structure Stats where
  deletedEmpty : ℕ
  archivedOld : ℕ
  totalChecked : ℕ
  deriving DecidableEq, Repr

def Stats.count (stats : Stats) (d : Decision) : Stats :=
  { deletedEmpty := stats.deletedEmpty + (if d = .delete then 1 else 0)
    archivedOld := stats.archivedOld + (if d = .archive then 1 else 0)
    totalChecked := stats.totalChecked + 1 }

/-- What is left of a row. -/
def DbSession.after (row : DbSession) : Decision → Option DbSession
  | .leave => some row
  | .delete => none
  | .archive => some { row with archived := some true }

/-- The loop, with the ids of the sessions in memory, which go as the rows do. -/
def sweep (cutoffDate minAge : DateTime) :
    List DbSession → List String → List String × Except Failure (List DbSession × Stats)
  | [], sessions => (sessions, .ok ([], ⟨0, 0, 0⟩))
  | row :: rows, sessions =>
    match decision cutoffDate minAge row with
    | .error e => (sessions, .error e)
    | .ok d =>
      let (sessions, swept) := sweep cutoffDate minAge rows
        (if d = .delete then sessions.filter (· ≠ row.id) else sessions)
      (sessions, swept.map fun (rows, stats) => ((row.after d).toList ++ rows, stats.count d))

/-- The table of sessions and the ids of those in memory. -/
structure State where
  rows : List DbSession
  sessions : List String
  deriving DecidableEq, Repr

/-- `cleanup_empty_sessions`, with the two readings of the clock and whether the commit succeeds. -/
def cleanupEmptySessions (autoArchiveDays minAgeHours now now' : ℤ) (commits : Bool) (s : State) :
    State × Except Failure Stats :=
  match utcnowMinus now (autoArchiveDays * microsPerDay),
    utcnowMinus now' (minAgeHours * microsPerHour) with
  | .ok cutoffDate, .ok minAge =>
    match sweep cutoffDate minAge s.rows s.sessions with
    | (sessions, .ok (rows, stats)) =>
      if commits then (⟨rows, sessions⟩, .ok stats)
      else (⟨s.rows, sessions⟩, .error .databaseError)
    | (sessions, .error e) => (⟨s.rows, sessions⟩, .error e)
  | _, _ => (s, .error .overflowError)

end Pandamonium.SessionCleanup
