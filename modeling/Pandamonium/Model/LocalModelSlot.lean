import Pandamonium.Library.FifoLock
import Pandamonium.Library.TransitionSystem

/-!
# The slot of a local model

Calls to a local model take turns.  A foreground call counts itself as waiting and tells a background
call that has the slot to stop; a background call looks at the count before it waits for the lock.
Calls give way to each other where they wait, and may be cancelled there.
-/

set_option autoImplicit false

namespace Pandamonium.LocalModel

open Pandamonium.Library

/-- `_gate_workload` -/
inductive Workload
  | foreground | background
  deriving DecidableEq, Repr

/-- A caller, which is the task it runs in. -/
structure Caller where
  task : ℕ
  workload : Workload
  deriving DecidableEq, Repr

structure Gate where
  /-- `_LOCAL_MODEL_WAITING_FOREGROUND` -/
  waitingForeground : ℕ
  /-- `_LOCAL_MODEL_LOCK` -/
  lock : FifoLock Caller
  /-- `_LOCAL_MODEL_CURRENT` -/
  current : Option Caller
  /-- The callers between the `yield`. -/
  inside : List Caller
  /-- The background callers that look again later. -/
  sleeping : List Caller
  /-- The tasks that were told to stop. -/
  toldToStop : List Caller

/-- The caller has the lock. -/
def enter (w : Gate) (c : Caller) : Gate :=
  let waiting :=
    if c.workload = .foreground then w.waitingForeground - 1 else w.waitingForeground
  { w with waitingForeground := waiting, current := some c, inside := c :: w.inside }

/-- `_LOCAL_MODEL_LOCK.acquire()` -/
def acquire (w : Gate) (c : Caller) : Gate :=
  if w.lock.isOpen then enter { w with lock := w.lock.take } c
  else { w with lock := w.lock.queue c }

/-- A background caller looks whether the foreground is active. -/
def look (w : Gate) (c : Caller) (hasForegroundActivity : Bool) : Gate :=
  if 0 < w.waitingForeground || hasForegroundActivity then
    { w with sleeping := c :: w.sleeping }
  else acquire w c

/-- `_local_model_slot`, up to where the caller first waits. -/
def arrive (w : Gate) (c : Caller) (hasForegroundActivity : Bool) : Gate :=
  match c.workload with
  | .foreground =>
    let told := (w.current.filter fun owner => owner.workload = .background).toList
    acquire { w with
      waitingForeground := w.waitingForeground + 1, toldToStop := told ++ w.toldToStop } c
  | .background => look w c hasForegroundActivity

/-- The `finally` of a caller, which may have the lock. -/
def cleanUp (w : Gate) (c : Caller) (acquired : Bool) : Gate :=
  let waiting :=
    if c.workload = .foreground then w.waitingForeground - 1 else w.waitingForeground
  let w := { w with waitingForeground := waiting }
  if acquired && w.lock.locked then
    let current := if w.current = some c then none else w.current
    { w with current, lock := w.lock.release }
  else w

inductive Label
  | arrives (c : Caller) (hasForegroundActivity : Bool)
  /-- A background caller looks again. -/
  | looks (c : Caller) (hasForegroundActivity : Bool)
  /-- A caller that was woken goes on. -/
  | resumes (c : Caller)
  /-- A caller's turn in the slot ends, in any way. -/
  | leaves (c : Caller)
  /-- A caller is cancelled where it waits. -/
  | cancelled (c : Caller)
  /-- A caller that was cancelled goes on. -/
  | unwinds (c : Caller)
  deriving DecidableEq, Repr

/-- The caller waits for the lock. -/
def Gate.waits (w : Gate) (c : Caller) : Bool := (w.lock.waiters.map Prod.fst).contains c

/-- A step; a caller arrives once. -/
def step (w : Gate) : Label → Option Gate
  | .arrives c active =>
    if c ∈ w.inside || c ∈ w.sleeping || w.waits c then none else some (arrive w c active)
  | .looks c active =>
    if c ∈ w.sleeping then some (look { w with sleeping := w.sleeping.erase c } c active) else none
  | .resumes c =>
    if (c, .woken) ∈ w.lock.waiters then some (enter { w with lock := w.lock.resume c } c) else none
  | .leaves c =>
    if c ∈ w.inside then some (cleanUp { w with inside := w.inside.erase c } c true) else none
  | .cancelled c =>
    if c ∈ w.sleeping then some { w with sleeping := w.sleeping.erase c }
    else if w.waits c then some { w with lock := w.lock.cancel c }
    else none
  | .unwinds c =>
    (w.lock.cancelledPlace c).map fun place =>
      cleanUp { w with lock := w.lock.unwind place } c false

/-- Nobody has come. -/
def Gate.idle : Gate := ⟨0, .free, none, [], [], []⟩

def slot : TransitionSystem Gate Label where
  init := fun w => w = .idle
  step := step

end Pandamonium.LocalModel
