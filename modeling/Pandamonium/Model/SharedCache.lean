import Pandamonium.Library.Calls

/-!
# Fetches that are shared

Callers that miss the cache at the same time share one fetch: the first one fetches, and the others
wait for its future.  The sections under the lock wait for nothing, so a caller gives way only in the
fetch and where it waits for the future.  Cancelling one who waits for a future cancels the future.
-/

set_option autoImplicit false

namespace Pandamonium.SharedCache

open Pandamonium.Library

/-- A future. -/
inductive Future (ν ε : Type)
  | pending
  | result (val : ν)
  | exception (e : ε)
  | cancelled
  deriving DecidableEq, Repr

structure Store (κ ν ε : Type) where
  /-- `_shared_cache` -/
  cache : Dict κ (ℕ × ν)
  /-- `_shared_cache_pending` -/
  pending : Dict κ ℕ
  futures : Dict ℕ (Future ν ε)
  /-- How many futures there are. -/
  created : ℕ
  /-- How the fetches have ended, under their futures. -/
  fetched : Dict ℕ (Future ν ε)
  /-- What callers have received that waited for a future and were not cancelled. -/
  received : List (ℕ × Future ν ε)

/-- Where a caller of `_cached` is. -/
inductive Frame (κ : Type)
  | enters (key : κ) (ttl : ℕ)
  /-- It owns the fetch for the future. -/
  | fetches (key : κ) (ttl fut : ℕ)
  | awaits (key : κ) (fut : ℕ)
  deriving DecidableEq, Repr

inductive Occurrence (ν ε : Type)
  | enters (now : ℕ)
  /-- The fetch gives a value. -/
  | fetched (now : ℕ) (val : ν)
  /-- The fetch raises. -/
  | failed (e : ε)
  /-- The future is done. -/
  | resumes
  /-- The caller is cancelled. -/
  | cancelled

variable {κ ν ε : Type} [DecidableEq κ]

/-- The future is set, where nobody has cancelled it. -/
def Store.settle (s : Store κ ν ε) (fut : ℕ) (done : Future ν ε) : Store κ ν ε :=
  match s.futures.get? fut with
  | some .pending => { s with futures := s.futures.set fut done }
  -- `InvalidStateError`, which the caller raises
  | _ => s

/-- `_cached` -/
def advance (s : Store κ ν ε) : Frame κ → Occurrence ν ε → Option (Store κ ν ε × Option (Frame κ))
  | .enters key ttl, .enters now =>
    if (s.cache.get? key).any fun entry => decide (now < entry.1) then some (s, none)
    else
      match s.pending.get? key with
      | some fut => some (s, some (.awaits key fut))
      | none =>
        some ({ s with
          pending := s.pending.set key s.created
          futures := s.futures.set s.created .pending
          created := s.created + 1 }, some (.fetches key ttl s.created))
  | .enters _ _, .cancelled => some (s, none)
  | .fetches key ttl fut, .fetched now val =>
    let s := { s with
      cache := s.cache.set key (now + ttl, val)
      pending := s.pending.erase key
      fetched := s.fetched.set fut (.result val) }
    some (s.settle fut (.result val), none)
  | .fetches key _ fut, .failed e =>
    let s := { s with
      pending := s.pending.erase key
      fetched := s.fetched.set fut (.exception e) }
    some (s.settle fut (.exception e), none)
  -- `except Exception` is not for a `CancelledError`
  | .fetches _ _ _, .cancelled => some (s, none)
  | .awaits _ fut, .resumes =>
    match s.futures.get? fut with
    | none => none
    | some .pending => none
    | some done => some ({ s with received := (fut, done) :: s.received }, none)
  | .awaits _ fut, .cancelled => some (s.settle fut .cancelled, none)
  | _, _ => none

/-- The calls begin with a look at the cache. -/
def Frame.entry : Frame κ → Bool
  | .enters _ _ => true
  | _ => false

/-- The callers of `_cached`. -/
def service : Service (Store κ ν ε) (Frame κ) (Occurrence ν ε) where
  entry := Frame.entry
  advance := advance

/-- Nothing was fetched. -/
def Store.new : Store κ ν ε := ⟨Dict.empty, Dict.empty, Dict.empty, 0, Dict.empty, []⟩

/-- The store is new. -/
def isNew (s : Store κ ν ε) : Prop := s = .new

end Pandamonium.SharedCache
