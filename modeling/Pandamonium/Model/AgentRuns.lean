import Mathlib.Logic.Function.Basic
import Pandamonium.Library.TransitionSystem

/-!
# Detached agent runs

`agent_runs.py` keeps an agent stream running after its client has gone: a drain task
pulls the wrapped generator into the run's replay buffer and fans each event out to the
queues of the connected subscribers.  The module is a registry `_RUNS` from session to
run object, the run objects, and two kinds of coroutine over them: one `_drain` task a
run, and one `subscribe` generator a connected client.

The coroutines share one event loop, so what lies between two suspension points is one
step here.  `Task.cancel()` only records the request (`cancelRequested`); the
`CancelledError` is raised at the next resumption of the task, and before the first step
of a task that has not started, in which case none of the body runs.  Every event the
generator yields is taken as a suspension point, and an armed eviction timer may fire at
any time: both only add interleavings.
-/

set_option autoImplicit false

namespace Pandamonium.AgentRuns

open Pandamonium.Library

abbrev RunId := ℕ
abbrev QueueId := ℕ

/-- `_Run.status` -/
inductive RunStatus
  | running
  | done
  | error
  | stopped
  deriving DecidableEq, Repr

/-- Where a run's drain task is suspended. -/
inductive DrainPhase
  /-- Created by `start`, its first step not taken. -/
  | created
  /-- In `await asyncio.wait({prev_task})`. -/
  | waitingPrev
  /-- In `async for ev in agen`. -/
  | pulling
  /-- In `await agen.aclose()`, inside the `CancelledError` handler. -/
  | closing
  /-- `task.done()` -/
  | finished
  deriving DecidableEq, Repr

/-- What the wrapped generator does when the drain task resumes it. -/
inductive Outcome
  | yields (ev : String)
  | ends
  /-- It raises an `Exception`. -/
  | raises
  /-- A `CancelledError` comes out of it. -/
  | cancelled
  /-- It raises a `BaseException` that is neither, such as `SystemExit`. -/
  | raisesBase
  deriving DecidableEq, Repr

/-- A queued `(seq, ev)`, or the end sentinel `(None, None)`. -/
abbrev Item := Option (ℕ × String)

/-- A `_Run` object and the drain task started for it. -/
structure Run where
  session : String
  buffer : List String
  subscribers : List QueueId
  status : RunStatus
  phase : DrainPhase
  /-- The task handed over as `prev_task`. -/
  prevTask : Option RunId
  /-- The run object the task's body found in `_RUNS`. -/
  drained : Option RunId
  cancelRequested : Bool
  evictArmed : Bool

/-- Where a `subscribe` generator is. -/
inductive ReaderPhase
  | replay
  | live
  | flush
  | closed
  deriving DecidableEq, Repr

/-- A `subscribe` generator with its queue. -/
structure Subscriber where
  run : RunId
  /-- Whether the run's drain task had finished when the queue was registered. -/
  joinedLate : Bool
  phase : ReaderPhase
  nextSeq : ℕ
  /-- Everything put on the queue, in order. -/
  put : List Item
  /-- How many items have been taken off it. -/
  taken : ℕ
  /-- The events yielded to the client, heartbeats left out. -/
  yielded : List String

structure State where
  /-- `_RUNS` -/
  registry : String → Option RunId
  runs : RunId → Option Run
  nextRun : RunId
  subs : QueueId → Option Subscriber
  nextQueue : QueueId

/-- No run and no subscriber. -/
def State.empty : State where
  registry := fun _ => none
  runs := fun _ => none
  nextRun := 0
  subs := fun _ => none
  nextQueue := 0

/-- Change one run object. -/
def State.modifyRun (s : State) (r : RunId) (f : Run → Run) : State :=
  { s with runs := Function.update s.runs r ((s.runs r).map f) }

/-- Change one subscriber. -/
def State.modifySub (s : State) (q : QueueId) (f : Subscriber → Subscriber) : State :=
  { s with subs := Function.update s.subs q ((s.subs q).map f) }

/-- `q.put_nowait(item)` for each of the queues. -/
def State.putAll (s : State) (queues : List QueueId) (item : Item) : State :=
  { s with subs := fun q =>
      if q ∈ queues then (s.subs q).map fun sub => { sub with put := sub.put ++ [item] }
      else s.subs q }

/-- The queues registered on a run. -/
def State.subscribersOf (s : State) (r : RunId) : List QueueId :=
  ((s.runs r).map Run.subscribers).getD []

/-- `_publish` -/
def publish (s : State) (r : RunId) (ev : String) : State :=
  match s.runs r with
  | none => s
  | some run =>
    (s.modifyRun r fun run => { run with buffer := run.buffer ++ [ev] }).putAll run.subscribers
      (some (run.buffer.length, ev))

/-- `_schedule_evict`: arm the timer of the run the registry names now. -/
def scheduleEvict (s : State) (session : String) : State :=
  match s.registry session with
  | none => s
  | some r => s.modifyRun r fun run => { run with evictArmed := true }

/-- The body of `_evict` once its sleep is over. -/
def evict (s : State) (r : RunId) : Option State :=
  match s.runs r with
  | none => none
  | some run =>
    if run.evictArmed then
      let s := s.modifyRun r fun run => { run with evictArmed := false }
      if s.registry run.session = some r ∧ run.status ≠ .running ∧ run.subscribers = [] then
        some { s with registry := Function.update s.registry run.session none }
      else some s
    else none

/-- `task.done()` of the task of a run. -/
def taskDone (s : State) (r : RunId) : Bool :=
  match s.runs r with
  | none => true
  | some run => run.phase = .finished

/-- `start`: the run in flight for the session is cancelled and handed to the new drain
task as the one to wait for. -/
def start (s : State) (session : String) : State :=
  let prev := s.registry session
  let prevTask := prev.filter fun r => !taskDone s r
  let s := match prevTask with
    | none => s
    | some r => s.modifyRun r fun run => { run with cancelRequested := true }
  let s := match prev with
    | none => s
    | some r => s.modifyRun r fun run => { run with evictArmed := false }
  let run : Run :=
    { session := session, buffer := [], subscribers := [], status := .running, phase := .created,
      prevTask := prevTask, drained := none, cancelRequested := false, evictArmed := false }
  { s with
    registry := Function.update s.registry session (some s.nextRun)
    runs := Function.update s.runs s.nextRun (some run)
    nextRun := s.nextRun + 1 }

/-- `stop`, with what it returns. -/
def stop (s : State) (session : String) : State × Bool :=
  match s.registry session with
  | none => (s, false)
  | some r =>
    if taskDone s r then (s, false)
    else (s.modifyRun r fun run => { run with cancelRequested := true }, true)

/-- The two events published when the generator fails. -/
def errorEvent : String :=
  "event: error\ndata: \x7b\"error\": \"Agent run failed before completion.\", \"status\": 500\x7d\n\n"

def doneEvent : String := "data: [DONE]\n\n"

/-- The task of run `r` is over without its `finally` block having run. -/
def exitBeforeTry (s : State) (r : RunId) : State :=
  s.modifyRun r fun run => { run with phase := .finished, cancelRequested := false }

/-- The `finally` block of `_drain`, for the task of run `r` draining the run `target`. -/
def finallyBlock (s : State) (r target : RunId) (session : String) : State :=
  let s := s.putAll (s.subscribersOf target) none
  let s := scheduleEvict s session
  s.modifyRun r fun run => { run with phase := .finished, cancelRequested := false }

/-- The first step of `_drain`, up to its first suspension. -/
def drainFirst (s : State) (r : RunId) (run : Run) : State :=
  if run.cancelRequested then exitBeforeTry s r
  else
    match s.registry run.session with
    | none => exitBeforeTry s r
    | some target =>
      let waits := match run.prevTask with
        | none => false
        | some p => !taskDone s p
      s.modifyRun r fun run =>
        { run with
          drained := some target
          phase := if waits then .waitingPrev else .pulling }

/-- The resumption of `asyncio.wait({prev_task})`. -/
def drainAwaited (s : State) (r : RunId) (run : Run) : Option State :=
  if run.cancelRequested then some (exitBeforeTry s r)
  else if (run.prevTask.map (taskDone s)).getD true then
    some (s.modifyRun r fun run => { run with phase := .pulling })
  else none

/-- One turn of `async for ev in agen` and the handlers around it. -/
def drainPull (s : State) (r target : RunId) (run : Run) : Outcome → State
  | .yields ev =>
    publish (s.modifyRun r fun run => { run with cancelRequested := false }) target ev
  | .ends =>
    let s := s.modifyRun target fun run =>
      { run with status := if run.status = .running then .done else run.status }
    finallyBlock s r target run.session
  | .cancelled =>
    let s := s.modifyRun target fun run => { run with status := .stopped }
    s.modifyRun r fun run => { run with phase := .closing, cancelRequested := false }
  | .raises =>
    let s := s.modifyRun target fun run => { run with status := .error }
    let s := publish s target errorEvent
    let s := publish s target doneEvent
    finallyBlock s r target run.session
  | .raisesBase => finallyBlock s r target run.session

/-- `_drain` of run `r`, from one suspension to the next.  However `agen.aclose()` ends
(returning, raising, or a second cancellation), the `finally` block runs. -/
def drain (s : State) (r : RunId) (o : Outcome) : Option State :=
  match s.runs r with
  | none => none
  | some run =>
    match run.phase, run.drained with
    | .created, _ => some (drainFirst s r run)
    | .waitingPrev, _ => drainAwaited s r run
    | .pulling, some target => some (drainPull s r target run o)
    | .closing, some target => some (finallyBlock s r target run.session)
    | _, _ => none

/-- `subscribe` up to the registration of its queue. -/
def subscribe (s : State) (session : String) : State :=
  match s.registry session with
  | none => s
  | some r =>
    let sub : Subscriber :=
      { run := r, joinedLate := taskDone s r, phase := .replay, nextSeq := 0, put := [],
        taken := 0, yielded := [] }
    let s := s.modifyRun r fun run =>
      { run with subscribers := run.subscribers ++ [s.nextQueue], evictArmed := false }
    { s with
      subs := Function.update s.subs s.nextQueue (some sub)
      nextQueue := s.nextQueue + 1 }

/-- The `finally` block of `subscribe`. -/
def unsubscribe (s : State) (q : QueueId) (sub : Subscriber) : State :=
  let s := s.modifySub q fun sub => { sub with phase := .closed }
  match s.runs sub.run with
  | none => s
  | some run =>
    let rest := run.subscribers.filter (· ≠ q)
    let s := s.modifyRun sub.run fun run => { run with subscribers := rest }
    if rest = [] ∧ run.status ≠ .running then scheduleEvict s run.session else s

/-- Yield one event of the buffer to the client. -/
def yieldBuffered (s : State) (q : QueueId) (ev : String) : State :=
  s.modifySub q fun sub =>
    { sub with nextSeq := sub.nextSeq + 1, yielded := sub.yielded ++ [ev] }

/-- An item taken off the queue. -/
def receive (s : State) (q : QueueId) (item : Item) : State :=
  s.modifySub q fun sub =>
    let sub := { sub with taken := sub.taken + 1 }
    match item with
    | none => { sub with phase := .flush }
    | some (seq, ev) =>
      if sub.nextSeq ≤ seq then
        { sub with nextSeq := seq + 1, yielded := sub.yielded ++ [ev] }
      else sub

/-- `subscribe`, from one suspension to the next. -/
def advance (s : State) (q : QueueId) : Option State :=
  match s.subs q with
  | none => none
  | some sub =>
    match s.runs sub.run with
    | none => none
    | some run =>
      match sub.phase with
      | .replay =>
        match run.buffer[sub.nextSeq]? with
        | some ev => some (yieldBuffered s q ev)
        | none =>
          if run.status ≠ .running then some (unsubscribe s q sub)
          else some (s.modifySub q fun sub => { sub with phase := .live })
      | .live => (sub.put[sub.taken]?).map (receive s q)
      | .flush =>
        match run.buffer[sub.nextSeq]? with
        | some ev => some (yieldBuffered s q ev)
        | none => some (unsubscribe s q sub)
      | .closed => none

/-- `asyncio.wait_for(q.get(), timeout=10.0)` times out: a heartbeat while the run is
going, the end otherwise. -/
def timeout (s : State) (q : QueueId) : Option State :=
  match s.subs q with
  | none => none
  | some sub =>
    if sub.phase = .live ∧ sub.put[sub.taken]? = none then
      if (s.runs sub.run).map Run.status = some .running then some s
      else some (s.modifySub q fun sub => { sub with phase := .flush })
    else none

/-- The client goes away while the generator is suspended. -/
def leave (s : State) (q : QueueId) : Option State :=
  match s.subs q with
  | none => none
  | some sub => if sub.phase = .closed then none else some (unsubscribe s q sub)

inductive Label
  | start (session : String)
  | stop (session : String)
  | drain (r : RunId) (o : Outcome)
  | evict (r : RunId)
  | subscribe (session : String)
  | advance (q : QueueId)
  | timeout (q : QueueId)
  | leave (q : QueueId)
  deriving DecidableEq, Repr

def step (s : State) : Label → Option State
  | .start session => some (start s session)
  | .stop session => some (stop s session).1
  | .drain r o => drain s r o
  | .evict r => evict s r
  | .subscribe session => some (subscribe s session)
  | .advance q => advance s q
  | .timeout q => timeout s q
  | .leave q => leave s q

/-- Every interleaving of starts, stops, drain steps, evictions and subscribers. -/
def system : TransitionSystem State Label where
  init := fun s => s = State.empty
  step := step

end Pandamonium.AgentRuns
