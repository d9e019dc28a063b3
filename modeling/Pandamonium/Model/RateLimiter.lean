import Pandamonium.Library.Calls

/-!
# The rate limiter

A call reads the clock, takes the lock, and is decided by the times of the allowed calls of its key
that the log still holds.  Reading the clock and taking the lock are two steps, so calls are decided
in an order of their own.  Readings are in nanoseconds.
-/

set_option autoImplicit false

namespace Pandamonium.RateLimiter

open Pandamonium.Library

structure RateLimiter where
  maxRequests : ℤ
  windowSeconds : ℤ

/-- Allowed times under their keys. -/
abbrev Log := Dict String (List ℤ)

/-- A call that has been decided. -/
structure Decision where
  key : String
  now : ℤ
  allowed : Bool
  deriving DecidableEq, Repr

structure Store where
  /-- The latest reading of the clock. -/
  clock : ℤ
  lastCleanup : ℤ
  log : Log
  /-- What `check` has returned, in the order in which the lock was taken. -/
  decided : List Decision

/-- Where a call of `check` is. -/
inductive Frame
  | called (key : String)
  | timed (key : String) (now : ℤ)

inductive Event
  | readsClock (now : ℤ)
  | takesLock

def second : ℤ := 1000000000

variable (lim : RateLimiter)

def RateLimiter.window : ℤ := lim.windowSeconds * second

def RateLimiter.cleanupInterval : ℤ := max (lim.windowSeconds * 2) 120 * second

def RateLimiter.cutoff (now : ℤ) : ℤ := now - lim.window

/-- `self._log.get(key, [])` -/
def Log.times (log : Log) (key : String) : List ℤ := (log.get? key).getD []

/-- `not v or v[-1] <= cutoff` -/
def isStale (cutoff : ℤ) (v : List ℤ) : Bool := v.getLast?.all fun t => decide (t ≤ cutoff)

/-- `_maybe_cleanup` -/
def Store.maybeCleanup (s : Store) (now : ℤ) : Store :=
  if now - s.lastCleanup < lim.cleanupInterval then s
  else
    let stale := (s.log.items.filter fun e => isStale (lim.cutoff now) e.2).map Prod.fst
    { s with lastCleanup := now, log := stale.foldl Dict.erase s.log }

/-- The times of a key that are not too old. -/
def RateLimiter.kept (now : ℤ) (times : List ℤ) : List ℤ :=
  times.filter fun t => decide (lim.cutoff now < t)

/-- What `check` decides on the times of a key, and the times it leaves. -/
def RateLimiter.decide (now : ℤ) (times : List ℤ) : Bool × List ℤ :=
  if lim.maxRequests ≤ (lim.kept now times).length then (false, lim.kept now times)
  else (true, lim.kept now times ++ [now])

/-- `check`, under the lock. -/
def Store.check (s : Store) (key : String) (now : ℤ) : Store :=
  let s := s.maybeCleanup lim now
  let outcome := lim.decide now (s.log.times key)
  { s with
    log := s.log.set key outcome.2
    decided := s.decided ++ [⟨key, now, outcome.1⟩] }

def advance (s : Store) : Frame → Event → Option (Store × Option Frame)
  | .called key, .readsClock now =>
    if s.clock ≤ now then some ({ s with clock := now }, some (.timed key now)) else none
  | .timed key now, .takesLock => some (s.check lim key now, none)
  | _, _ => none

def Frame.entry : Frame → Bool
  | .called _ => true
  | .timed _ _ => false

/-- The callers of `check`. -/
def service : Service Store Frame Event where
  entry := Frame.entry
  advance := advance lim

/-- A limiter that was created at the time. -/
def Store.new (now : ℤ) : Store := ⟨now, now, Dict.empty, []⟩

def isNew (s : Store) : Prop := ∃ now, s = .new now

end Pandamonium.RateLimiter
