import Pandamonium.Library.TransitionSystem
import Pandamonium.Model.AuthorityStore

/-!
# Runs of the authority store

Any number of callers share one `AuthorityStore`.  The lock serialises the sections of its
methods, so a step of a run is one section; a `decide` call is three of them, before its
first lock, under it, and under the second one, and anything may happen in between.  The
clock only moves forward, the machine and the settings may change, a restart of the process
loses the calls in flight and the pending actions, and the ids that `uuid4` draws are new.

The run also keeps what it has produced: `allows` has an entry for every `decide` call that
settled on an allow because of a receipt, made in the section where it did, and `results`
the decisions that `decide` calls returned.
-/

set_option autoImplicit false

namespace Pandamonium.Authority

open Pandamonium.Library

abbrev CallId := ℕ

/-- Where a `decide` call is suspended. -/
inductive Frame
  /-- Before its first lock. -/
  | checking (req : Request) (i : Intake)
  /-- Between the two locks, or before the second one if it did not need the first. -/
  | recording (req : Request) (i : Intake) (verdict : Verdict) (basis : String)
    (receipt : Option Receipt)

/-- A `decide` call that a receipt allowed, with the clock at that moment and the receipt as
it was stored. -/
structure Allow where
  clock : Time
  intake : Intake
  receipt : Receipt

structure State where
  store : Store
  machine : Machine
  clock : Time
  calls : Dict CallId Frame
  usedIds : List String
  allows : List Allow
  results : List Decision

/-- An empty store. -/
def State.start (machine : Machine) (clock : Time) : State where
  store := .empty
  machine := machine
  clock := clock
  calls := .empty
  usedIds := []
  allows := []
  results := []

inductive Label
  | decideStart (c : CallId) (req : Request) (decisionId : String)
  | decideCheck (c : CallId)
  | decideRecord (c : CallId)
  | resolve (receiptId decisionId operatorId choice scope : String) (ttlSeconds : Int)
  | naturalReply (receiptId text operatorId sessionId : String) (lag : Time)
  | explicitReply (receiptId decisionId operatorId sessionId choice scope : String) (lag : Time)
  | revoke (receiptId operatorId : String)
  | listState (operatorId : String)
  | tick (elapsed : Time)
  | reconfigure (machine : Machine)
  | restart

variable (rt : Runtime)

/-- The start of a `decide` call: everything before its first lock. -/
def decideStart (s : State) (c : CallId) (req : Request) (decisionId : String) : Option State :=
  if decisionId ∈ s.usedIds ∨ (s.calls.get? c).isSome then none
  else
    let i := intake rt s.machine s.clock req decisionId
    let frame := match ungatedVerdict req i with
      | some (verdict, basis) => Frame.recording req i verdict basis none
      | none => Frame.checking req i
    some { s with calls := s.calls.set c frame, usedIds := decisionId :: s.usedIds }

/-- The entry of the history for a check that a receipt allowed. -/
def allowOf (clock : Time) (i : Intake) : Check → List Allow
  | .decided .allow _ (some receipt) => [⟨clock, i, receipt⟩]
  | _ => []

/-- `decide` under its first lock. -/
def decideCheck (s : State) (c : CallId) : Option State :=
  match s.calls.get? c with
  | some (.checking req i) =>
    let binding := runtimeBinding s.machine req.configuredWorkspace
    match Pandamonium.decideCheck s.store i binding with
    | (store, check) =>
      let s := { s with store := store, allows := allowOf s.clock i check ++ s.allows }
      some <| match check with
        | .returned row => { s with calls := s.calls.erase c, results := row :: s.results }
        | .decided verdict basis receipt =>
          { s with calls := s.calls.set c (.recording req i verdict basis receipt) }
  | _ => none

/-- `decide` from there to its return. -/
def decideRecord (s : State) (c : CallId) : Option State :=
  match s.calls.get? c with
  | some (.recording req i verdict basis receipt) =>
    let binding := runtimeBinding s.machine req.configuredWorkspace
    let record := decisionRecord i binding verdict basis receipt
    some { s with
      store := Pandamonium.decideRecord s.store req record
      calls := s.calls.erase c
      results := record :: s.results }
  | _ => none

/-- A method that may issue one receipt, under the lock, from the time it starts to `lag`
later. -/
def issuing (s : State) (receiptId : String) (lag : Time) (method : Store → Store) : Option State :=
  if receiptId ∈ s.usedIds then none
  else
    some { s with
      store := method s.store
      clock := s.clock + lag
      usedIds := receiptId :: s.usedIds }

def step (s : State) : Label → Option State
  | .decideStart c req decisionId => decideStart rt s c req decisionId
  | .decideCheck c => decideCheck s c
  | .decideRecord c => decideRecord s c
  | .resolve receiptId decisionId operatorId choice scope ttlSeconds =>
    issuing s receiptId 0 fun store =>
      (resolve s.machine store s.clock receiptId decisionId operatorId choice scope ttlSeconds).1
  | .naturalReply receiptId text operatorId sessionId lag =>
    issuing s receiptId lag fun store =>
      (resolveNaturalReply rt s.machine store s.clock (s.clock + lag) receiptId text operatorId
        sessionId).1
  | .explicitReply receiptId decisionId operatorId sessionId choice scope lag =>
    issuing s receiptId lag fun store =>
      (resolveExplicitReply s.machine store s.clock (s.clock + lag) receiptId decisionId operatorId
        sessionId choice scope).1
  | .revoke receiptId operatorId =>
    some { s with store := (revoke s.store receiptId operatorId).1 }
  | .listState operatorId => some { s with store := (listState s.store s.clock operatorId).1 }
  | .tick elapsed => some { s with clock := s.clock + elapsed }
  | .reconfigure machine => some { s with machine := machine }
  | .restart =>
    some { s with
      store := { s.store with pendingActions := .empty }
      calls := .empty }

/-- Every interleaving of the store's sections. -/
def system : TransitionSystem State Label where
  init := fun s => ∃ machine clock, s = State.start machine clock
  step := step rt

/-! ## Calls to run the system with -/

/-- A machine whose users have no preferences. -/
def plainMachine : Machine where
  hostname := "host"
  username := "user"
  configuredAgentId := "agent"
  storedAccessMode := fun _ => none

/-- The operator `op` asks in session `s` for a mail to be sent. -/
def mailRequest (call : ActionCall) : Request where
  call := call
  operatorId := some "op"
  sessionId := some "s"
  disabledReason := none
  nativeApprovalGate := false
  configuredWorkspace := none

/-- A mail that is put up for approval, with the approval. -/
def approvedMail (scope : String) (ttlSeconds : Int) : List Label :=
  [.decideStart 0 (mailRequest plainMail) "d0", .decideCheck 0, .decideRecord 0,
    .resolve "r0" "d0" "op" "approve" scope ttlSeconds]

end Pandamonium.Authority
