import Pandamonium.Library.TransitionSystem
import Pandamonium.Model.ExternalAdapter

/-!
# Concurrent actions of an external agent

Calls of `_action_request` and `cancel` on one adapter, as coroutines on one loop.  A call runs
until it waits for an answer: first for the capabilities of its scope, unless the adapter has them,
and then for the answer to its own request.  A request is transmitted when it is handed to the
requester; the checks of the address and of the credential come before that.

The log has what the calls did, newest first, which the source does not keep.
-/

set_option autoImplicit false

namespace Pandamonium.ExternalAgent

open Pandamonium.Library

/-- Which method is called. -/
inductive Ask
  | action (capability : String) (arguments : Object)
  | cancel

def Ask.capability : Ask → String
  | .action capability _ => capability
  | .cancel => "task.cancel"

/-- The arguments that `_authorized_action` checks. -/
def Ask.arguments : Ask → Object
  | .action _ arguments => arguments
  | .cancel => [("reason", .str "operator_request")]

/-- What makes a request the same as an earlier one. -/
structure Content where
  requestId : String
  fingerprint : String
  deriving DecidableEq, Repr

def Prepared.content (prepared : Prepared) : Content :=
  { requestId := prepared.request.requestId, fingerprint := prepared.fingerprint }

/-- What is left of a call. -/
inductive Call
  /-- It has not run yet. -/
  | called (ask : Ask) (task : Object)
  /-- It waits for the capabilities. -/
  | authorizing (ask : Ask) (task : Object) (request : Request)
  /-- It waits for the answer to its request. -/
  | waiting (ask : Ask) (prepared : Prepared)

inductive Event
  | called (call : ℕ)
  | transmitted (call : ℕ) (content : Content)
  | returned (call : ℕ) (content : Content) (result : ActionResult)
  /-- It raised before its request was handed to the requester. -/
  | refused (call : ℕ) (content : Option Content)
  /-- It raised, or was cancelled, after that. -/
  | failed (call : ℕ) (content : Content)

structure World where
  adapter : Adapter
  calls : Dict ℕ Call
  log : List Event

/-- What `_transport` comes to. -/
inductive Answer
  | payload (payload : Object)
  /-- It raises, or the call is cancelled while it waits. -/
  | raised

inductive Label
  | call (call : ℕ) (ask : Ask) (task : Object)
  /-- It runs for the first time.  The request it makes can be handed to the requester where the
  address and the credential are right. -/
  | enter (call : ℕ) (drawn : Drawn) (reachable : Bool)
  /-- What it waits for is there, and it runs on. -/
  | answer (call : ℕ) (answer : Answer) (drawn : Drawn) (reachable : Bool)

/-- The call goes on. -/
def World.on (w : World) (n : ℕ) (call : Call) : World :=
  { w with calls := w.calls.set n call }

/-- The call is over. -/
def World.over (w : World) (n : ℕ) (event : Event) : World :=
  { w with calls := w.calls.erase n, log := event :: w.log }

variable (b : Bridge)

/-- From the authorization of a call to its look at the results. -/
def prepare (a : Adapter) (drawn : Drawn) (task : Object) : Ask → Except Failure Prepared
  | .action capability arguments => prepareAction b a capability task arguments drawn
  | .cancel => prepareCancel b a task drawn

/-- The look at the results, and the request where there is none. -/
def look (w : World) (n : ℕ) (ask : Ask) (prepared : Prepared) (reachable : Bool) : World :=
  match w.adapter.actionResults.get? prepared.request.requestId with
  | some (fingerprint, result) =>
    if fingerprint ≠ prepared.fingerprint then w.over n (.refused n (some prepared.content))
    else w.over n (.returned n prepared.content result)
  | none =>
    if reachable then
      { w.on n (.waiting ask prepared) with log := .transmitted n prepared.content :: w.log }
    else w.over n (.refused n (some prepared.content))

/-- What comes of the first run of a call. -/
inductive Entry
  | asks (request : Request)
  | ready (prepared : Prepared)

/-- The first run of a call, up to its request for the capabilities or its look at the results. -/
def entry (a : Adapter) (drawn : Drawn) (ask : Ask) (task : Object) : Except Failure Entry := do
  validateActionArguments b.rt ask.capability ask.arguments
  let _ ← scope b (ownerOf b task) (workspaceOf b task)
  match a.liveCapabilities.get? (scopeKey b (ownerOf b task) (workspaceOf b task)) with
  | none =>
    let request ← capabilitiesRequest b drawn (ownerOf b task) (workspaceOf b task)
    .ok (.asks request)
  | some _ =>
    let prepared ← prepare b a drawn task ask
    .ok (.ready prepared)

def enter (w : World) (n : ℕ) (drawn : Drawn) (reachable : Bool) (ask : Ask) (task : Object) :
    World :=
  match entry b w.adapter drawn ask task with
  | .error _ => w.over n (.refused n none)
  | .ok (.asks request) =>
    if reachable then w.on n (.authorizing ask task request) else w.over n (.refused n none)
  | .ok (.ready prepared) => look w n ask prepared reachable

/-- The capabilities of a call's scope are received. -/
def received (w : World) (drawn : Drawn) (task : Object) (request : Request) (payload : Object) :
    Except Failure Unit × Adapter :=
  receiveCapabilities b drawn.now (ownerOf b task) (workspaceOf b task) request payload w.adapter

/-- A call is authorized. -/
def authorize (w : World) (n : ℕ) (drawn : Drawn) (reachable : Bool) (ask : Ask) (task : Object)
    (request : Request) (payload : Object) : World :=
  match received b w drawn task request payload with
  | (.error _, a) => { w with adapter := a }.over n (.refused n none)
  | (.ok (), a) =>
    match prepare b a drawn task ask with
    | .error _ => { w with adapter := a }.over n (.refused n none)
    | .ok prepared => look { w with adapter := a } n ask prepared reachable

/-- The result of an answer whose header and scope pass. -/
def Ask.result (ask : Ask) (prepared : Prepared) (payload : Object) : Except Failure ActionResult :=
  match ask with
  | .action capability _ => actionResult b capability prepared payload
  | .cancel => cancelResult b prepared payload

/-- The answer to a call's request. -/
def settle (w : World) (n : ℕ) (now : Int) (ask : Ask) (prepared : Prepared) (payload : Object) :
    World :=
  match validateAnswer b now .response payload prepared.request w.adapter.seenMessages with
  | (.error _, seen) =>
    { w with adapter := { w.adapter with seenMessages := seen } }.over n (.failed n prepared.content)
  | (.ok (), seen) =>
    match ask.result b prepared payload with
    | .error _ =>
      { w with adapter := { w.adapter with seenMessages := seen } }.over n
        (.failed n prepared.content)
    | .ok result =>
      let results := w.adapter.actionResults.set prepared.request.requestId
        (prepared.fingerprint, result)
      { w with
        adapter := { w.adapter with seenMessages := seen, actionResults := results } }.over n
        (.returned n prepared.content result)

/-- The number has not been used for a call. -/
def World.unused (w : World) (n : ℕ) : Bool :=
  (w.calls.get? n).isNone && w.log.all fun
    | .called m => m != n
    | _ => true

def step (w : World) : Label → Option World
  | .call n ask task =>
    if w.unused n then some { w.on n (.called ask task) with log := .called n :: w.log } else none
  | .enter n drawn reachable =>
    match w.calls.get? n with
    | some (.called ask task) => some (enter b w n drawn reachable ask task)
    | _ => none
  | .answer n (.payload payload) drawn reachable =>
    match w.calls.get? n with
    | some (.authorizing ask task request) =>
      some (authorize b w n drawn reachable ask task request payload)
    | some (.waiting ask prepared) => some (settle b w n drawn.now ask prepared payload)
    | _ => none
  | .answer n .raised _ _ =>
    match w.calls.get? n with
    | some (.authorizing _ _ _) => some (w.over n (.refused n none))
    | some (.waiting _ prepared) => some (w.over n (.failed n prepared.content))
    | _ => none

/-- An adapter that has not been used. -/
def World.initial : World := { adapter := Adapter.fresh, calls := Dict.empty, log := [] }

/-- The calls of the actions. -/
def actions : TransitionSystem World Label where
  init := fun w => w = World.initial
  step := step b

end Pandamonium.ExternalAgent
