import Mathlib.Data.String.Basic
import Pandamonium.Library.TransitionSystem
import Pandamonium.Model.ContentScreening

/-!
# Training datasets

A dataset of `training_datasets.py` with its items.  Items are added, reviewed and removed, the
dataset is reviewed as a whole and retired, and `verified_dataset` returns it with the items that a
job is given.

What `resolve_source` reads from other tables and from files is an argument.  An item remembers here
the last decision about it, and the dataset what its last review covered.  What these functions
do not read of a dataset (its name, its description, its license) is left out.
-/

set_option autoImplicit false

namespace Pandamonium.TrainingDatasets

open Pandamonium.Library

/-! ## Rows -/

/-- `SOURCE_KINDS` -/
inductive SourceKind
  | manual
  | file
  | book
  | conversation
  | memory
  | toolTrace
  deriving DecidableEq, Repr

def SourceKind.ofText : String → Option SourceKind
  | "manual" => some .manual
  | "file" => some .file
  | "book" => some .book
  | "conversation" => some .conversation
  | "memory" => some .memory
  | "tool_trace" => some .toolTrace
  | _ => none

def SourceKind.text : SourceKind → String
  | .manual => "manual"
  | .file => "file"
  | .book => "book"
  | .conversation => "conversation"
  | .memory => "memory"
  | .toolTrace => "tool_trace"

/-- `REVIEW_STATES` -/
inductive ReviewState
  | pending
  | approved
  | rejected
  | redacted
  | excluded
  deriving DecidableEq, Repr

/-- `review_state in INCLUDED_REVIEW_STATES` -/
def ReviewState.included : ReviewState → Bool
  | .approved | .redacted => true
  | _ => false

/-- `DATASET_STATUSES` -/
inductive DatasetStatus
  | draft
  | reviewed
  | retired
  deriving DecidableEq, Repr

/-- The decisions of `review_item`. -/
inductive Decision
  | approve
  | reject
  | exclude
  deriving DecidableEq, Repr

def Decision.ofText : String → Option Decision
  | "approve" => some .approve
  | "reject" => some .reject
  | "exclude" => some .exclude
  | _ => none

/-- The report of `screen_content`. -/
structure Report where
  rejected : Bool
  reason : String
  redactions : List (String × ℕ)
  deriving DecidableEq, Repr

def Screened.report : Screened → Report
  | .refused reason => { rejected := true, reason := reason, redactions := [] }
  | .cleaned _ redactions => { rejected := false, reason := "", redactions := redactions }

/-- A row of `training_dataset_items`. -/
structure Item where
  id : String
  sourceKind : SourceKind
  sourceRef : Object
  owner : Option String
  consentLicense : Option String
  consentAttestedBy : Option String
  reviewState : ReviewState
  reviewReason : Option String
  contentHash : Option String
  content : Option String
  redaction : Report
  exclusionPath : String
  reviewedBy : Option String
  reviewedAt : Option Int
  /-- The last decision about the item. -/
  decision : Option Decision

/-- A row of `training_datasets`. -/
structure Dataset where
  id : String
  status : DatasetStatus
  itemCount : ℕ
  fingerprint : Option String
  reviewedBy : Option String
  reviewedAt : Option Int
  /-- The items that the last review covered, with the hashes they had. -/
  covered : List (String × Option String)

/-- A dataset with its items, in the order they were added. -/
structure Manifest where
  dataset : Dataset
  items : List Item

/-! ## Checks -/

/-- `MAX_LICENSE_CHARS` -/
def maxLicenseChars : ℕ := 500

/-- `MAX_DATASET_ITEMS` -/
def maxDatasetItems : ℕ := 1000

/-- `_CONTROL_RE` of one character -/
def isControl (x : Char) : Bool :=
  decide (x.toNat ≤ 0x08 ∨ x.toNat = 0x0b ∨ x.toNat = 0x0c ∨
    (0x0e ≤ x.toNat ∧ x.toNat ≤ 0x1f) ∨ x.toNat = 0x7f)

/-- `_clean_text` -/
def cleanText (value : String) (limit : ℕ) (field : String) (required : Bool) :
    Except TrainingDataError (Option String) :=
  let text := strip value
  if text = "" then
    if required then .error ⟨"invalid", field ++ " is required.", 400⟩ else .ok none
  else if limit < text.toList.length ∨ text.toList.any isControl then
    .error ⟨"invalid", field ++ " is too long or contains control characters.", 400⟩
  else .ok (some text)

/-- `_get_dataset_row` -/
def openDataset (m : Manifest) : Except TrainingDataError Unit :=
  if m.dataset.status = .retired then
    .error ⟨"retired", "That dataset is retired and read-only.", 409⟩
  else .ok ()

/-- The error of an item that is not there. -/
def itemNotFound : TrainingDataError := ⟨"not_found", "That dataset item does not exist.", 404⟩

/-- `_reset_review_state` -/
def resetReviewState (d : Dataset) : Dataset :=
  { d with
    status := .draft
    fingerprint := none
    reviewedBy := none
    reviewedAt := none
    itemCount := 0 }

/-- What an operation does to the manifest and what it raises. -/
abbrev Outcome := Manifest × Option TrainingDataError

/-- An operation that raises changes nothing, where it is not said otherwise. -/
def outcome (m : Manifest) : Except TrainingDataError Manifest → Outcome
  | .ok m' => (m', none)
  | .error e => (m, some e)

/-! ## Adding -/

/-- The arguments of `add_item`. -/
structure AddRequest where
  sourceKind : String
  content : String
  consentLicense : String
  actor : Option String
  /-- What is read of a source that is not in the arguments: its text, its owner, its reference. -/
  source : Except TrainingDataError (String × Option String × Object)

/-- `resolve_source` -/
def resolveSource (kind : SourceKind) (request : AddRequest) :
    Except TrainingDataError (String × Option String × Object) :=
  match kind with
  | .manual => .ok (request.content, request.actor, [("kind", .str "manual")])
  | _ => request.source

/-- `EXCLUSION_COPY` -/
def exclusionCopy (datasetId itemId sourceKind : String) : String :=
  "Remove this item from the dataset with DELETE /api/training/datasets/" ++ datasetId ++
    "/items/" ++ itemId ++ "; the source " ++ sourceKind ++ " is never modified."

variable (it : Interpreter)

/-- `content_hash` -/
def contentHash (text : String) : String := it.sha256 text

/-- The state of an item that has just been screened. -/
def Screened.initialState : Screened → ReviewState
  | .refused _ => .rejected
  | .cleaned _ redactions => if redactions.isEmpty then .pending else .redacted

/-- What is kept of a text that has been screened. -/
def Screened.text : Screened → Option String
  | .refused _ => none
  | .cleaned text _ => some text

/-- The row that `add_item` adds. -/
def newItem (datasetId drawn : String) (kind : SourceKind) (request : AddRequest)
    (license owner : Option String) (ref : Object) (screened : Screened) : Item where
  id := drawn
  sourceKind := kind
  sourceRef := ref
  owner := owner <|> request.actor
  consentLicense := license
  consentAttestedBy := request.actor
  reviewState := screened.initialState
  reviewReason := if screened.report.reason = "" then none else some screened.report.reason
  contentHash := screened.text.map (contentHash it)
  content := screened.text
  redaction := screened.report
  exclusionPath := exclusionCopy datasetId drawn kind.text
  reviewedBy := none
  reviewedAt := none
  decision := none

/-- `add_item` -/
def addItem (request : AddRequest) (drawn : String) (m : Manifest) : Outcome :=
  outcome m <|
    match SourceKind.ofText (it.runtime.lower (strip request.sourceKind)) with
    | none =>
      .error ⟨"invalid_source_kind",
        "Choose one of: manual, file, book, conversation, memory, tool_trace.", 400⟩
    | some kind => do
      let license ← cleanText request.consentLicense maxLicenseChars "Consent/license" true
      openDataset m
      if maxDatasetItems ≤ m.items.length then
        .error ⟨"dataset_full",
          "A dataset holds at most " ++ toString maxDatasetItems ++ " items.", 400⟩
      else do
        let (content, owner, ref) ← resolveSource kind request
        let screened ← screenContent it content
        .ok
          { dataset := resetReviewState m.dataset
            items := m.items ++
              [newItem it m.dataset.id drawn kind request license owner ref screened] }

/-! ## Reviewing items -/

/-- The arguments of `review_item`, and the time. -/
structure ReviewRequest where
  itemId : String
  decision : String
  reason : String
  actor : Option String
  now : Int

/-- The items with one of them changed, the dataset being open to review again. -/
def Manifest.amend (m : Manifest) (itemId : String) (f : Item → Item) : Manifest where
  dataset := resetReviewState m.dataset
  items := m.items.map fun item => if item.id = itemId then f item else item

/-- The item behind a decision. -/
def Item.decided (request : ReviewRequest) (decision : Decision) (state : ReviewState)
    (reason : Option String) (item : Item) : Item :=
  { item with
    reviewState := state
    reviewReason := reason
    reviewedBy := request.actor
    reviewedAt := some request.now
    decision := some decision }

/-- The item behind an approval, with the text as it has been screened again. -/
def Item.approved (request : ReviewRequest) (text : String) (redactions : List (String × ℕ))
    (item : Item) : Item :=
  { item.decided request .approve (if redactions.isEmpty then .approved else .redacted) none with
    content := some text
    contentHash := some (TrainingDatasets.contentHash it text)
    redaction := (Screened.cleaned text redactions).report }

/-- The item that cannot be approved because screening refuses it. -/
def Item.refused (reason : String) (item : Item) : Item :=
  { item with
    reviewState := .rejected
    reviewReason := some (if reason = "" then "failed screening" else reason)
    content := none
    contentHash := none }

/-- The branch of `review_item` that approves.  The item that fails screening is rejected, and the
error is raised all the same. -/
def approve (request : ReviewRequest) (item : Item) (m : Manifest) : Outcome :=
  match item.content with
  | none | some "" =>
    (m, some ⟨"rejected_item", "This item was rejected at screening and cannot be approved. " ++
      "Add a cleaned copy.", 409⟩)
  | some content =>
    match screenContent it content with
    | .error e => (m, some e)
    | .ok (.refused reason) =>
      (m.amend item.id (Item.refused reason),
        some ⟨"rejected_item", "This item still fails screening and cannot be approved.", 409⟩)
    | .ok (.cleaned text redactions) =>
      (m.amend item.id (Item.approved it request text redactions), none)

/-- A decision that leaves the item out, with the reason given or another. -/
def leaveOut (request : ReviewRequest) (decision : Decision) (state : ReviewState)
    (otherwise : String) (m : Manifest) : Outcome :=
  outcome m <| (cleanText request.reason 500 "Reason" false).map fun reason =>
    m.amend request.itemId (Item.decided request decision state (some (reason.getD otherwise)))

/-- `review_item` -/
def reviewItem (request : ReviewRequest) (m : Manifest) : Outcome :=
  match Decision.ofText (it.runtime.lower (strip request.decision)) with
  | none =>
    (m, some ⟨"invalid_decision", "The review decision must be approve, reject, or exclude.", 400⟩)
  | some decision =>
    match openDataset m with
    | .error e => (m, some e)
    | .ok () =>
      match m.items.find? fun item => item.id = request.itemId with
      | none => (m, some itemNotFound)
      | some item =>
        match decision with
        | .approve => approve it request item m
        | .reject => leaveOut request .reject .rejected "rejected by operator" m
        | .exclude => leaveOut request .exclude .excluded "excluded by operator" m

/-- `remove_item` -/
def removeItem (itemId : String) (m : Manifest) : Outcome :=
  outcome m <| do
    openDataset m
    if m.items.all fun item => item.id ≠ itemId then .error itemNotFound
    else
      .ok
        { dataset := resetReviewState m.dataset
          items := m.items.filter fun item => item.id ≠ itemId }

/-! ## Reviewing the dataset -/

/-- `_included_items` -/
def includedItems (m : Manifest) : List Item :=
  (m.items.filter fun item => item.reviewState.included).insertionSort fun a b => a.id ≤ b.id

/-- `compute_fingerprint` -/
def computeFingerprint (items : List Item) : String :=
  it.sha256 ("\n".intercalate (items.map fun item =>
    item.id ++ ":" ++ item.contentHash.getD "None"))

/-- What a fingerprint of the items covers. -/
def coverage (items : List Item) : List (String × Option String) :=
  items.map fun item => (item.id, item.contentHash)

/-- `review_dataset` -/
def reviewDataset (actor : Option String) (now : Int) (m : Manifest) : Outcome :=
  outcome m <| do
    openDataset m
    let pending := m.items.filter fun item => item.reviewState = .pending
    if !pending.isEmpty then
      .error ⟨"unreviewed_items",
        toString pending.length ++
          " item(s) still need a review decision before the dataset can be reviewed.", 409⟩
    else if (includedItems m).isEmpty then
      .error ⟨"empty_dataset",
        "At least one approved item is required before a dataset can be reviewed.", 409⟩
    else
      .ok
        { m with
          dataset :=
            { m.dataset with
              status := .reviewed
              fingerprint := some (computeFingerprint it (includedItems m))
              itemCount := (includedItems m).length
              reviewedBy := actor
              reviewedAt := some now
              covered := coverage (includedItems m) } }

/-- `retire_dataset` -/
def retireDataset (m : Manifest) : Outcome :=
  ({ m with dataset := { m.dataset with status := .retired, fingerprint := none } }, none)

/-- `verified_dataset` -/
def verifiedDataset (m : Manifest) : Except TrainingDataError (Dataset × List Item) :=
  if m.dataset.status ≠ .reviewed ∨ m.dataset.fingerprint.getD "" = "" then
    .error ⟨"not_reviewed", "The dataset must be reviewed before it can be used for a job.", 409⟩
  else if m.dataset.fingerprint ≠ some (computeFingerprint it (includedItems m)) then
    .error ⟨"dataset_changed",
      "The dataset changed after review. Review it again before starting a job.", 409⟩
  else .ok (m.dataset, includedItems m)

/-! ## Sequences of operations -/

inductive Operation
  | addItem (request : AddRequest) (drawn : String)
  | reviewItem (request : ReviewRequest)
  | removeItem (itemId : String)
  | reviewDataset (actor : Option String) (now : Int)
  | retireDataset

/-- An operation. -/
def perform (m : Manifest) : Operation → Outcome
  | .addItem request drawn => addItem it request drawn m
  | .reviewItem request => reviewItem it request m
  | .removeItem itemId => removeItem itemId m
  | .reviewDataset actor now => reviewDataset it actor now m
  | .retireDataset => retireDataset m

/-- The identifier that an operation draws is not in use. -/
def Operation.fresh (m : Manifest) : Operation → Bool
  | .addItem _ drawn => m.items.all fun item => item.id ≠ drawn
  | _ => true

/-- The dataset that `create_dataset` makes. -/
def created (m : Manifest) : Prop :=
  m.items = [] ∧ m.dataset.status = .draft ∧ m.dataset.fingerprint = none ∧ m.dataset.covered = []

/-- The operations on a dataset one after the other, whether they raise or not. -/
def operations : TransitionSystem Manifest Operation where
  init := created
  step := fun m operation =>
    if operation.fresh m then some (perform it m operation).1 else none

end Pandamonium.TrainingDatasets
