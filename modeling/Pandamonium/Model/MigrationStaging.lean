import Pandamonium.Model.ActionEffect
import Pandamonium.Model.MemoryManager

/-!
# Staging a migration manifest

`src/memory_import.py`: the preview of a manifest of migrated memories and the staging of those that
the preview takes for candidates.  The entries of the memory file are those of `MemoryManager`.
-/

set_option autoImplicit false

namespace Pandamonium.MemoryImport

open Library MemoryManager

/-- What is raised. -/
inductive Failure
  | value (text : String)
  | attribute
  | type
  | overflow
  deriving DecidableEq, Repr

/-- What the interpreter provides. -/
structure Interpreter where
  runtime : Runtime
  /-- `str.casefold` -/
  casefold : String → String
  /-- `int(datetime.fromisoformat(text).timestamp())` -/
  timestamp : String → Except Failure Int
  /-- `text.replace("Z", "+00:00")` -/
  zoned : String → String
  /-- `int(x)` of a float. -/
  truncate : String → Except Failure Int
  /-- `==` of two keys of a dict. -/
  sameKey : Value → Value → Bool

/-- `SCHEMA_VERSION` -/
def schemaVersion : String := "agent-migration.v1"

/-- Whether `hash(v)` raises `TypeError`. -/
def isContainer : Value → Bool
  | .list _ | .dict _ => true
  | _ => false

section Items

variable (it : Interpreter)

/-- `_SENSITIVE_RE` -/
def sensitive : Regex :=
  let separator : Regex := .opt (.set "_ -")
  .sequence
    [.choice
      [.sequence [it.runtime.litI "api", separator, it.runtime.litI "key"],
        .sequence [it.runtime.litI "access", separator, it.runtime.litI "token"],
        it.runtime.litI "password",
        .sequence [it.runtime.litI "private", separator, it.runtime.litI "key"],
        it.runtime.litI "secret"],
      spaces, .set ":="]

/-- The first value of some keys that is there and not `""`. -/
def firstGiven (d : Object) : List String → Option Value
  | [] => none
  | key :: keys =>
    match d.get? key with
    | none | some .null | some (.str "") => firstGiven d keys
    | some v => some v

/-- `v or w or default`, as a text. -/
def textOr (default : String) : List (Option Value) → String
  | [] => default
  | none :: vs => textOr default vs
  | some v :: vs => if v.truthy then v.text it.runtime else textOr default vs

/-- `item.get("metadata")`, where it is an object. -/
def metadata (item : Object) : Object := ((item.get? "metadata").map Value.asObject).getD []

/-- `(manifest.get("source") or {}).get("name")` -/
def sourceName (manifest : Object) : Except Failure (Option Value) :=
  match manifest.get? "source" with
  | none => .ok none
  | some (.dict source) => .ok (Object.get? source "name")
  | some v => if v.truthy then .error .attribute else .ok none

/-- `_source_ref`, when the name of the source has been looked up. -/
def sourceRef (name : Option Value) (item : Object) : String :=
  let source := textOr it "unknown" [name, item.get? "source"]
  let locator :=
    match firstGiven (metadata item) ["source_thread_id", "source_conversation_id", "source_id"] with
    | some v => v.text it.runtime
    | none => textOr it "unknown" [item.get? "id"]
  "agent-migration:" ++ source ++ ":" ++ locator

/-- `_source_time` -/
def sourceTime (item : Object) (now : Int) : Except Failure Int :=
  match firstGiven (metadata item) ["source_timestamp", "source_created_at", "source_updated_at",
    "created_at", "timestamp"] with
  | some (.int i) => .ok i
  | some (.bool b) => .ok (if b then 1 else 0)
  | some (.float repr) => it.truncate repr
  | some (.str s) =>
    match it.timestamp (it.zoned s) with
    | .error (.value _) => .ok now
    | time => time
  | _ => .ok now

/-! ## Preview -/

inductive Disposition
  | candidate
  | alreadyStaged
  | privacySensitive
  | exactDuplicate
  | semanticDuplicate
  deriving DecidableEq, Repr

/-- An element of `candidates`. -/
structure Candidate where
  itemId : Value
  text : String
  category : Value
  sourceRef : String
  disposition : Disposition
  duplicateOf : Value

/-- `memory_vector.find_similar`, for a text and an owner, `None` where it raises; there is none
where there is no healthy vector store. -/
abbrev Vectors := Option (String → Option String → Value)

/-- What is gathered from the memory file before the loop. -/
structure Known where
  existingText : List String
  existingRefs : List String
  similar : String → Value

/-- `entry.get("source_ref")`, where it is a text. -/
def refOf (e : Entry) : Option String :=
  match e.fields.get? "source_ref" with
  | some (.str ref) => some ref
  | _ => none

def gather (vectors : Vectors) (owner : Option String) (entries : List Entry) : Known where
  existingText := (approvedOf owner entries).map fun e => it.casefold (strip e.text)
  existingRefs := entries.filterMap refOf
  similar text :=
    match vectors with
    | some find => find text owner
    | none => .null

/-- The branches for one memory. -/
def dispose (known : Known) (text ref : String) : Disposition × Value :=
  if ref ∈ known.existingRefs then (.alreadyStaged, .null)
  else if (sensitive it).search text then (.privacySensitive, .null)
  else if it.casefold text ∈ known.existingText then (.exactDuplicate, .null)
  else if (known.similar text).truthy then (.semanticDuplicate, known.similar text)
  else (.candidate, known.similar text)

/-- The round of the loop for a memory. -/
def previewMemory (known : Known) (name : Option Value) (item : Object) : Candidate :=
  let text := strip (textOr it "" [item.get? "text"])
  let ref := sourceRef it name item
  let (disposition, duplicateOf) := dispose it known text ref
  { itemId := (item.get? "id").getD .null
    text := text
    category :=
      match item.get? "category" with
      | some v => if v.truthy then v else .str "fact"
      | none => .str "fact"
    sourceRef := ref
    disposition := disposition
    duplicateOf := duplicateOf }

def isMemory (item : Object) : Bool :=
  match item.get? "kind" with
  | some (.str kind) => kind == "memory"
  | _ => false

/-- The loop of `preview_manifest`; a kind is looked up in a dict where it is none of a memory. -/
def previewItems (known : Known) (manifest : Object) : List Value → Except Failure (List Candidate)
  | [] => .ok []
  | .dict item :: items =>
    if isMemory item then
      match sourceName manifest with
      | .error failure => .error failure
      | .ok name =>
        match previewItems known manifest items with
        | .error failure => .error failure
        | .ok candidates => .ok (previewMemory it known name item :: candidates)
    else if (Object.get? item "kind").any isContainer then .error .type
    else previewItems known manifest items
  | _ :: items => previewItems known manifest items

/-- `counts` -/
def counts (items : List Value) (candidates : List Candidate) : List (String × ℕ) :=
  let ofKind (kind : String) : ℕ :=
    items.countP fun item =>
      match item with
      | .dict item =>
        match Object.get? item "kind" with
        | some (.str k) => k == kind
        | _ => false
      | _ => false
  let disposed (d : Disposition) : ℕ := candidates.countP fun c => decide (c.disposition = d)
  [("items", items.length), ("memory_candidates", candidates.length),
    ("archive_documents", ofKind "archive_document"),
    ("conversation_threads", ofKind "conversation_thread"), ("skills", ofKind "skill"),
    ("exact_duplicates", disposed .exactDuplicate),
    ("semantic_duplicates", disposed .semanticDuplicate),
    ("privacy_sensitive", disposed .privacySensitive),
    ("already_staged", disposed .alreadyStaged)]

structure Preview where
  source : Value
  counts : List (String × ℕ)
  warnings : List Value
  candidates : List Candidate

/-- `list(manifest.get("warnings") or [])` -/
def warnings (manifest : Object) : Except Failure (List Value) :=
  match manifest.get? "warnings" with
  | none => .ok []
  | some v =>
    if v.truthy then
      match v with
      | .list items => .ok items
      | .dict items => .ok (items.map fun item => .str item.1)
      | .str s => .ok (s.toList.map fun x => .str (String.ofList [x]))
      | _ => .error .type
    else .ok []

/-- The items of a manifest of the schema. -/
def manifestItems (manifest : Value) : Except Failure (Object × List Value) :=
  match manifest with
  | .dict d =>
    match Object.get? d "schema_version" with
    | some (.str version) =>
      if version = schemaVersion then
        match Object.get? d "items" with
        | some (.list items) => .ok (d, items)
        | _ => .error (.value "invalid_migration_items")
      else .error (.value "unsupported_migration_manifest")
    | _ => .error (.value "unsupported_migration_manifest")
  | _ => .error (.value "unsupported_migration_manifest")

/-- `preview_manifest` -/
def previewManifest (vectors : Vectors) (owner : Option String) (entries : List Entry)
    (manifest : Value) : Except Failure Preview :=
  match manifestItems manifest with
  | .error failure => .error failure
  | .ok (d, items) =>
    -- a source reference that cannot be hashed
    if entries.any fun e => (e.fields.get? "source_ref").any isContainer then .error .type
    else
      match previewItems it (gather it vectors owner entries) d items, warnings d with
      | .error failure, _ => .error failure
      | _, .error failure => .error failure
      | .ok candidates, .ok warnings => .ok
        { source :=
            match d.get? "source" with
            | some v => if v.truthy then v else .dict []
            | none => .dict []
          counts := counts items candidates
          warnings := warnings
          candidates := candidates }

/-! ## Staging -/

/-- `items_by_id.get(item_id) or {}`: the last object with the key. -/
def itemById (items : List Value) (itemId : Value) : Object :=
  let sameId : Value → Bool
    | .dict item => it.sameKey ((Object.get? item "id").getD .null) itemId
    | _ => false
  ((items.filter sameId).getLast?.map Value.asObject).getD []

/-- Whether the dict of the items by their identifiers cannot be made. -/
def badId : Value → Bool
  | .dict item => (Object.get? item "id").any isContainer
  | _ => false

/-- The clock and the identifiers, for each entry that is made. -/
structure Draws where
  now : ℕ → Int
  drawn : ℕ → String

/-- The entry for a candidate. -/
def stagedEntry (draws : Draws) (owner : Option String) (items : List Value) (n : ℕ)
    (c : Candidate) : Except Failure Entry :=
  let item := itemById it items c.itemId
  match sourceTime it item (draws.now n) with
  | .error failure => .error failure
  | .ok time =>
    match addEntry
      { text := c.text
        source := textOr it "migration" [item.get? "source"]
        category := c.category
        owner := owner
        status := .candidate
        sourceRef := some c.sourceRef
        sourceTime := some time
        admittedBy := some "migration.staged" } (draws.now n) (draws.drawn n) with
    | none => .error (.value "Memory text cannot be empty")
    | some e => .ok { e with fields := e.fields ++ [("migration_item_id", c.itemId)] }

/-- The loop of `stage_manifest`. -/
def stageCandidates (draws : Draws) (owner : Option String) (items : List Value) :
    ℕ → List Candidate → Except Failure (List Entry)
  | _, [] => .ok []
  | n, c :: candidates =>
    if c.disposition = .candidate then
      match stagedEntry it draws owner items n c with
      | .error failure => .error failure
      | .ok e =>
        match stageCandidates draws owner items (n + 1) candidates with
        | .error failure => .error failure
        | .ok staged => .ok (e :: staged)
    else stageCandidates draws owner items n candidates

structure Staging where
  preview : Preview
  staged : List Entry
  /-- The memory file afterwards. -/
  entries : List Entry

/-- `stage_manifest` -/
def stageManifest (vectors : Vectors) (draws : Draws) (owner : Option String)
    (entries : List Entry) (manifest : Value) : Except Failure Staging :=
  match previewManifest it vectors owner entries manifest, manifestItems manifest with
  | .error failure, _ => .error failure
  | _, .error failure => .error failure
  | .ok preview, .ok (_, items) =>
    if items.any badId then .error .type
    else
      match stageCandidates it draws owner items 0 preview.candidates with
      | .error failure => .error failure
      | .ok staged => .ok ⟨preview, staged, entries ++ staged⟩

end Items

end Pandamonium.MemoryImport
