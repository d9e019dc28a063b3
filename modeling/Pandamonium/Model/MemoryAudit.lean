import Mathlib.Data.List.Sort
import Mathlib.Data.String.Basic
import Pandamonium.Model.MemoryManager

/-!
# The memory audit

`audit_memories` gives the approved memories to a language model, waits for the reply and applies
what it reads in it to the file as it is by then.  Everything before the wait is one step and
everything behind it another, and an operation of the manager is one step.

A reply is a list of items, whatever they are, or none.  The vector index is left out.
-/

set_option autoImplicit false

namespace Pandamonium.MemoryManager

open Pandamonium.Library

/-! ## Reading the reply -/

/-- What the loop does with an item of the reply. -/
inductive Reading
  | raises
  | skipped
  /-- The item is about this memory, with this text and this category. -/
  | about (original : Entry) (text : String) (category : Value)

/-- An item of the reply, when the memories with these identifiers were given out. -/
def readItem (originals : Dict String Entry) : Value → Reading
  | .dict item =>
    match (Object.get? item "text").getD (.str "") with
    | .str text =>
      if strip text = "" then .skipped
      else
        match (Object.get? item "id").getD (.str "") with
        | .str mid =>
          match originals.get? mid with
          | none => .skipped
          | some original =>
            .about original (strip text)
              (match Object.get? item "category" with
              | some category => if category.truthy then category else original.category
              | none => original.category)
        -- no key of a dictionary
        | .list _ => .raises
        | .dict _ => .raises
        | _ => .skipped
    | _ => .raises
  | _ => .skipped

/-- `value == category`, where the category is a text. -/
def sameCategory (value : Value) : Value → Bool
  | .str category =>
    match value with
    | .str text => text = category
    | _ => false
  | _ => false

/-- The item changes the memory. -/
def changes (original : Entry) (text : String) (category : Value) : Bool :=
  text ≠ original.text || !sameCategory category original.category

/-- What becomes of a memory. -/
inductive Transition
  | superseded (replacementId : String)
  | rejected
  deriving DecidableEq, Repr

/-- What the loop over the items has collected. -/
structure Audit where
  finalEntries : List Entry
  replacements : List Entry
  transitions : Dict String Transition
  returnedIds : List String

/-- The record that supersedes a memory with what the reply says about it. -/
def auditReplacement (now : Int) (original : Entry) (text : String) (category : Value)
    (drawn : String) : Option Entry :=
  (addEntry
    { text := text
      source := "memory_audit"
      category := category
      owner := original.owner
      sourceRef := some ("memory:" ++ original.id)
      admittedBy := some "policy:auto_memory_audit"
      supersedes := some original.id
      confidence := original.confidence }
    now drawn).map (inherit original)

/-- One round of the loop, `none` where it raises.  An item comes with the identifier that is drawn,
should it need one. -/
def auditItem (originals : Dict String Entry) (now : Int) (s : Audit) (item : Value × String) :
    Option Audit :=
  match readItem originals item.1 with
  | .raises => none
  | .skipped => some s
  | .about original text category =>
    if changes original text category then
      (auditReplacement now original text category item.2).map fun replacement =>
        { finalEntries := s.finalEntries ++ [replacement]
          replacements := s.replacements ++ [replacement]
          transitions := s.transitions.set original.id (.superseded replacement.id)
          returnedIds := s.returnedIds ++ [original.id] }
    else
      some { s with
        finalEntries := s.finalEntries ++ [original]
        returnedIds := s.returnedIds ++ [original.id] }

/-- `{m["id"]: m for m in existing}` -/
def originalsOf (existing : List Entry) : Dict String Entry :=
  existing.foldl (fun d e => d.set e.id e) Dict.empty

/-- The loop over the items. -/
def auditItems (existing : List Entry) (now : Int) (items : List (Value × String)) :
    Option Audit :=
  items.foldlM (auditItem (originalsOf existing) now)
    { finalEntries := [], replacements := [], transitions := Dict.empty, returnedIds := [] }

/-- The reply keeps too few of the memories. -/
def unsafeRemoval (before after : ℕ) : Bool :=
  (1 ≤ before && after = 0) || (8 ≤ before && 2 * after < before)

/-- The memories that the reply does not return are rejected. -/
def rejectMissing (existing : List Entry) (s : Audit) : Dict String Transition :=
  existing.foldl
    (fun d e => if e.id ∈ s.returnedIds then d else d.set e.id .rejected)
    s.transitions

/-- A saved entry with its transition. -/
def transit (now : Int) (transitions : Dict String Transition) (e : Entry) : Entry :=
  match transitions.get? e.id with
  | none => e
  | some (.superseded replacementId) => supersededBy replacementId now e
  | some .rejected =>
    { e with
      status := .rejected
      fields := ((e.fields.set "rejected_at" (.int now)).set "rejected_by"
        (.str "policy:auto_memory_audit")).set "rejection_reason"
        (.str "memory_audit_consolidation") }

/-- What a reply makes of the file: the entries that are saved and those that are fingerprinted.
`none` where the audit raises or refuses the reply. -/
def applyReply (existing : List Entry) (now : Int) (items : List (Value × String))
    (saved : List Entry) : Option (List Entry × List Entry) :=
  match auditItems existing now items with
  | none => none
  | some s =>
    if unsafeRemoval existing.length s.finalEntries.length then none
    else some
      (saved.map (transit now (rejectMissing existing s)) ++ s.replacements, s.finalEntries)

/-! ## Steps -/

/-- What is fingerprinted of an entry. -/
def fingerprinted (e : Entry) : Option (List String) :=
  match e.category with
  | .str category => some [e.id, e.text, category]
  | _ => none

/-- `_fingerprint_entries`, `none` where a category is not a text. -/
def fingerprintEntries (sha256 : String → String) (entries : List Entry) : Option String :=
  (entries.mapM fingerprinted).map fun triples =>
    sha256 (String.join ((triples.insertionSort (· ≤ ·)).map fun triple =>
      String.intercalate "\x1f" triple ++ "\x1e"))

structure World where
  entries : List Entry
  /-- `memory_tidy_state.json` -/
  tidy : Dict String String
  /-- The identifiers that have been drawn, and those that were in the file before. -/
  drawn : List String
  /-- The audits that wait, each with the owner and the memories that it has given out. -/
  audits : Dict ℕ (Option String × List Entry)

inductive Label
  | operate (r : Request)
  | audit (n : ℕ) (owner : Option String)
  /-- The reply of the model, each item with an identifier that is drawn. -/
  | reply (n : ℕ) (items : List (Value × String)) (now : Int)
  /-- There is no reply, or it is no list. -/
  | noReply (n : ℕ)

variable (sha256 : String → String)

/-- Up to the wait: nothing to audit, a category that is no text, or nothing that is new ends the
audit at once. -/
def beginAudit (n : ℕ) (owner : Option String) (w : World) : World :=
  let existing := approvedOf owner w.entries
  if existing = [] then w
  else
    match fingerprintEntries sha256 existing with
    | none => w
    | some fingerprint =>
      if w.tidy.get? (owner.getD "") = some fingerprint then w
      else { w with audits := w.audits.set n (owner, existing) }

/-- Behind the wait. -/
def finishAudit (n : ℕ) (owner : Option String) (existing : List Entry)
    (items : List (Value × String)) (now : Int) (w : World) : World :=
  let drawn := items.map Prod.snd ++ w.drawn
  match applyReply existing now items w.entries with
  | none => { w with audits := w.audits.erase n, drawn := drawn }
  | some (saved, finalEntries) =>
    { entries := saved
      tidy := match fingerprintEntries sha256 finalEntries with
        | some fingerprint => w.tidy.set (owner.getD "") fingerprint
        | none => w.tidy
      drawn := drawn
      audits := w.audits.erase n }

/-- No identifier is drawn twice. -/
def fresh (ids drawn : List String) : Prop := ids.Nodup ∧ ∀ id ∈ ids, id ∉ drawn

instance (ids drawn : List String) : Decidable (fresh ids drawn) :=
  inferInstanceAs (Decidable (_ ∧ _))

def step (w : World) : Label → Option World
  | .operate r =>
    if fresh [r.drawn] w.drawn then
      some { w with
        entries := (r.apply w.entries).getD w.entries
        drawn := r.drawn :: w.drawn }
    else none
  | .audit n owner =>
    if w.audits.get? n = none then some (beginAudit sha256 n owner w) else none
  | .reply n items now =>
    match w.audits.get? n with
    | none => none
    | some (owner, existing) =>
      if fresh (items.map Prod.snd) w.drawn then
        some (finishAudit sha256 n owner existing items now w)
      else none
  | .noReply n =>
    if (w.audits.get? n).isSome then some { w with audits := w.audits.erase n } else none

/-- The file is as the manager has written it, and no audit waits. -/
structure Started (w : World) : Prop where
  linked : Linked w.entries w.drawn
  audits : ∀ n, w.audits.get? n = none

/-- The operations and the audits. -/
def audits : TransitionSystem World Label where
  init := Started
  step := step sha256

end Pandamonium.MemoryManager
