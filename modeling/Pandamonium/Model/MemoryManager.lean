import Mathlib.Algebra.Order.Ring.Unbundled.Rat
import Pandamonium.Library.Rewriting
import Pandamonium.Model.Value

/-!
# The memory file

`MemoryManager` keeps all memories in one file.  An operation loads the file, changes the list and
saves it as a whole; here it is a function of the list that was loaded to the list that is saved,
`none` where it saves nothing.

An entry has the fields that `_validate_entries` fills in.  Those that only copy another
(`memory_id`, `owner_id`) are left out, and those that no operation looks at are together in
`fields`.
-/

set_option autoImplicit false

namespace Pandamonium.MemoryManager

open Pandamonium.Library

/-- `MEMORY_STATUSES` -/
inductive Status
  | candidate
  | approved
  | rejected
  | superseded
  | deleted
  deriving DecidableEq, Repr

structure Entry where
  id : String
  text : String
  category : Value
  uses : Int
  status : Status
  supersedes : Option String
  confidence : Option ℚ
  owner : Option String
  fields : Object

/-- `_default_confidence` -/
def defaultConfidence (source : String) : ℚ :=
  if source ∈ ["user", "operator", "correction"] then 1
  else if source ∈ ["auto", "ai_agent", "jarvis"] then 6 / 10
  else 5 / 10

/-- `_clamp_confidence` -/
def clampConfidence (value : ℚ) : ℚ := max 0 (min 1 value)

/-- `_default_admitted_by` -/
def defaultAdmittedBy (source : String) : String :=
  if source = "auto" then "policy:auto_memory"
  else if source ∈ ["ai_agent", "jarvis"] then "jarvis.tool"
  else if source = "legacy" then "legacy"
  else "operator"

/-- The arguments of `add_entry`. -/
structure Draft where
  text : String
  source : String := "user"
  category : Value := .str "fact"
  owner : Option String := none
  status : Status := .approved
  sourceRef : Option String := none
  sourceTime : Option Int := none
  admittedBy : Option String := none
  supersedes : Option String := none
  confidence : Option ℚ := none

/-- `a or b` of two texts. -/
def orElse (a : Option String) (b : String) : String :=
  match a with
  | some a => if a = "" then b else a
  | none => b

/-- `add_entry`, with the identifier it draws; `none` where the text is empty. -/
def addEntry (d : Draft) (now : Int) (memoryId : String) : Option Entry :=
  if strip d.text = "" then none
  else some
    { id := memoryId
      text := strip d.text
      category := d.category
      uses := 0
      status := d.status
      supersedes := d.supersedes
      confidence := some (match d.confidence with
        | some confidence => clampConfidence confidence
        | none => defaultConfidence d.source)
      owner := if d.owner = some "" then none else d.owner
      fields :=
        [("timestamp", .int now),
         ("source", .str d.source),
         ("source_ref", .str (orElse d.sourceRef (d.source ++ ":" ++ memoryId))),
         ("source_time", .int (match d.sourceTime with
           | some time => if time = 0 then now else time
           | none => now)),
         ("admitted_at", .int now),
         ("admitted_by", .str (orElse d.admittedBy (defaultAdmittedBy d.source)))] }

/-- What a new entry takes over from the one it supersedes. -/
def inherit (original replacement : Entry) : Entry :=
  { replacement with
    fields := ["session_id", "pinned", "metadata"].foldl
      (fun fields key =>
        match original.fields.get? key with
        | some v => fields.set key v
        | none => fields)
      replacement.fields }

/-- The first entry with an identifier is changed. -/
def amend (memoryId : String) (f : Entry → Entry) : List Entry → List Entry
  | [] => []
  | e :: entries => if e.id = memoryId then f e :: entries else e :: amend memoryId f entries

/-- `next((entry for entry in entries if entry.get("id") == memory_id), None)` -/
def look (memoryId : String) (entries : List Entry) : Option Entry :=
  entries.find? fun e => e.id = memoryId

/-- The entry is not of another owner than the one that is asked for. -/
def ownedBy (owner : Option String) (e : Entry) : Prop := owner = none ∨ e.owner = owner

instance (owner : Option String) (e : Entry) : Decidable (ownedBy owner e) :=
  inferInstanceAs (Decidable (_ ∨ _))

/-- The original is marked and its replacement comes behind. -/
def supersededBy (replacementId : String) (now : Int) (original : Entry) : Entry :=
  { original with
    status := .superseded
    fields := (original.fields.set "superseded_by" (.str replacementId)).set "superseded_at"
      (.int now) }

/-- `replace_entry` -/
def replaceEntry (memoryId text : String) (owner category : Option String) (admittedBy : String)
    (now : Int) (replacementId : String) (entries : List Entry) : Option (List Entry) :=
  match look memoryId entries with
  | none => none
  | some original =>
    if original.status ≠ .approved then none
    else if ¬ ownedBy owner original then none
    else
      (addEntry
        { text := text
          source := "correction"
          category := match category with
            | some category => if category = "" then original.category else .str category
            | none => original.category
          owner := original.owner
          sourceRef := some ("memory:" ++ memoryId)
          sourceTime := some now
          admittedBy := some admittedBy
          supersedes := some memoryId }
        now replacementId).map fun replacement =>
          amend memoryId (supersededBy replacementId now) entries ++ [inherit original replacement]

/-- `delete_entry` -/
def deleteEntry (memoryId : String) (owner : Option String) (deletedBy : String) (now : Int)
    (entries : List Entry) : Option (List Entry) :=
  match look memoryId entries with
  | none => none
  | some target =>
    if target.status = .deleted then none
    else if ¬ ownedBy owner target then none
    else some (amend memoryId
      (fun e =>
        { e with
          status := .deleted
          fields := (e.fields.set "deleted_at" (.int now)).set "deleted_by" (.str deletedBy) })
      entries)

/-- `decide_candidate` -/
def decideCandidate (memoryId : String) (owner : Option String) (approve : Bool)
    (decidedBy : String) (now : Int) (entries : List Entry) : Option (List Entry) :=
  match look memoryId entries with
  | none => none
  | some target =>
    if target.status ≠ .candidate then none
    else if ¬ ownedBy owner target then none
    else some (amend memoryId
      (fun e =>
        { e with
          status := if approve then .approved else .rejected
          fields := (e.fields.set (if approve then "admitted_at" else "rejected_at") (.int now)).set
            (if approve then "admitted_by" else "rejected_by") (.str decidedBy) })
      entries)

/-- `increment_uses` -/
def incrementUses (ids : List String) (entries : List Entry) : Option (List Entry) :=
  if entries.any fun e => e.id ∈ ids then
    some (entries.map fun e => if e.id ∈ ids then { e with uses := e.uses + 1 } else e)
  else none

/-- `not entry.get("owner")` -/
def ownerless (e : Entry) : Bool := e.owner = none || e.owner = some ""

/-- `claim_ownerless` -/
def claimOwnerless (owner : String) (entries : List Entry) : Option (List Entry) :=
  if entries.any ownerless then
    some (entries.map fun e => if ownerless e then { e with owner := some owner } else e)
  else none

/-- `pin_memory` -/
def pinMemory (memoryId : String) (user : Option String) (pinned : Bool) (entries : List Entry) :
    Option (List Entry) :=
  match look memoryId entries with
  | none => none
  | some target =>
    if ¬ ownedBy user target then none
    else some (amend memoryId
      (fun e => { e with fields := e.fields.set "pinned" (.bool pinned) }) entries)

/-- `add_entry`, `load_all`, `append` and `save`, with what the caller adds to the entry. -/
def addMemory (text source category : String) (owner : Option String) (more : Object) (now : Int)
    (memoryId : String) (entries : List Entry) : Option (List Entry) :=
  (addEntry { text := text, source := source, category := .str category, owner := owner } now
    memoryId).map fun e => entries ++ [{ e with fields := e.fields ++ more }]

/-- `load(owner)` -/
def approvedOf (owner : Option String) (entries : List Entry) : List Entry :=
  entries.filter fun e => e.status = .approved ∧ ownedBy owner e

inductive Operation
  | replaceEntry (memoryId text : String) (owner category : Option String) (admittedBy : String)
  | deleteEntry (memoryId : String) (owner : Option String) (deletedBy : String)
  | decideCandidate (memoryId : String) (owner : Option String) (approve : Bool)
      (decidedBy : String)
  | incrementUses (ids : List String)
  | claimOwnerless (owner : String)
  | pinMemory (memoryId : String) (user : Option String) (pinned : Bool)
  | addMemory (text source category : String) (owner : Option String) (more : Object)

/-- An operation with the time and the identifier it draws, should it need one. -/
structure Request where
  operation : Operation
  now : Int
  drawn : String

/-- What the operation saves when it has loaded a list. -/
def Request.apply (r : Request) (entries : List Entry) : Option (List Entry) :=
  match r.operation with
  | .replaceEntry memoryId text owner category admittedBy =>
    MemoryManager.replaceEntry memoryId text owner category admittedBy r.now r.drawn entries
  | .deleteEntry memoryId owner deletedBy =>
    MemoryManager.deleteEntry memoryId owner deletedBy r.now entries
  | .decideCandidate memoryId owner approve decidedBy =>
    MemoryManager.decideCandidate memoryId owner approve decidedBy r.now entries
  | .incrementUses ids => MemoryManager.incrementUses ids entries
  | .claimOwnerless owner => MemoryManager.claimOwnerless owner entries
  | .pinMemory memoryId user pinned => MemoryManager.pinMemory memoryId user pinned entries
  | .addMemory text source category owner more =>
    MemoryManager.addMemory text source category owner more r.now r.drawn entries

/-- The identifiers are different, no two entries supersede the same memory, and none supersedes a
memory that is approved or a candidate. -/
structure Linked (entries : List Entry) (drawn : List String) : Prop where
  distinct : (entries.map Entry.id).Nodup
  single : ∀ e ∈ entries, ∀ e' ∈ entries, ∀ a, e.supersedes = some a → e'.supersedes = some a →
    e = e'
  ended : ∀ e ∈ entries, ∀ e' ∈ entries, e.supersedes = some e'.id →
    e'.status ≠ .approved ∧ e'.status ≠ .candidate
  drawn : ∀ e ∈ entries, e.id ∈ drawn ∧ ∀ a, e.supersedes = some a → a ∈ drawn

/-- Operations in threads: each loads the file in one step and saves it in another. -/
def threads : TransitionSystem (Rewriting.World Request (List Entry) String)
    (Rewriting.Label Request) :=
  Rewriting.system Request.apply Request.drawn fun w => Linked w.initial w.reserved

end Pandamonium.MemoryManager
