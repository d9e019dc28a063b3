import Mathlib.Data.List.Basic

/-!
# Resetting a collection for another embedding lane

`_get_or_reset_collection` of `src/embedding_lanes.py`, for the collection of one name and one call
that fails.  A call that fails leaves the server as it was.
-/

set_option autoImplicit false

namespace Pandamonium.EmbeddingLanes

/-- A row; the metadata of a row that has none is empty. -/
structure Row (δ μ ε : Type) where
  id : String
  document : δ
  metadata : μ
  embedding : ε
  deriving DecidableEq, Repr

/-- The entries of the metadata of a collection that tell its lane. -/
structure LaneMetadata where
  embeddingFingerprint : Option String
  embeddingDimension : Option ℕ
  embeddingLane : Option String
  deriving DecidableEq, Repr

structure Collection (δ μ ε : Type) where
  metadata : LaneMetadata
  rows : List (Row δ μ ε)
  deriving DecidableEq, Repr

/-- The calls of the client and of the collections, those in loops with the number of their batch. -/
inductive Call
  | getCollection | getOrCreateCollection | get
  | encode (batch : ℕ)
  | deleteCollection | createCollection
  | add (batch : ℕ)
  | deleteReset | createRestored
  | addRestored (batch : ℕ)
  deriving DecidableEq, Repr

/-- The column of metadata that `collection.get` returns; it may leave out last rows without any. -/
structure Column (μ : Type) [EmptyCollection μ] where
  metadatas : List μ → List μ
  cut : ∀ all, ∃ k, metadatas all = all.take k ∧ ∀ m ∈ all.drop k, m = ∅

/-- The arguments of `collection.add`. -/
structure Batch (δ μ ε : Type) where
  ids : List String
  documents : List δ
  metadatas : List μ
  embeddings : List ε

variable {δ μ ε : Type} [EmptyCollection μ]

/-- `l[start:start + 100]` -/
def slice {α : Type} (start : ℕ) (l : List α) : List α := (l.drop start).take 100

/-- `range(0, len(ids), 100)` -/
def starts (n : ℕ) : List ℕ := (List.range ((n + 99) / 100)).map (100 * ·)

/-- `batch_metas += [{}] * (len(batch_ids) - len(batch_metas))` -/
def padded (n : ℕ) (metas : List μ) : List μ := metas ++ List.replicate (n - metas.length) ∅

/-- The batches of the rows, with the embeddings of a slice of them. -/
def batches (column : Column μ) (rows : List (Row δ μ ε)) (embeddings : ℕ → List ε) :
    List (Batch δ μ ε) :=
  (starts rows.length).map fun start =>
    let batchIds := slice start (rows.map Row.id)
    { ids := batchIds
      documents := slice start (rows.map Row.document)
      metadatas := padded batchIds.length (slice start (column.metadatas (rows.map Row.metadata)))
      embeddings := embeddings start }

/-- The rows that `collection.add` adds. -/
def Batch.rows (b : Batch δ μ ε) : List (Row δ μ ε) :=
  (b.ids.zip (b.documents.zip (b.metadatas.zip b.embeddings))).map
    fun r => ⟨r.1, r.2.1, r.2.2.1, r.2.2.2⟩

/-- `collection.add` for each batch, up to one that fails. -/
def addAll (fails : ℕ → Bool) : ℕ → List (Batch δ μ ε) → List (Row δ μ ε) → List (Row δ μ ε) × Bool
  | _, [], rows => (rows, true)
  | i, b :: bs, rows => if fails i then (rows, false) else addAll fails (i + 1) bs (rows ++ b.rows)

/-- Whether an entry of the metadata is there and is another. -/
def differs {α : Type} [DecidableEq α] (current metadata : Option α) : Bool :=
  current.isSome && decide (current ≠ metadata)

/-- Whether the lane of the collection changes. -/
def laneChanges (current metadata : LaneMetadata) : Bool :=
  differs current.embeddingFingerprint metadata.embeddingFingerprint ||
    differs current.embeddingDimension metadata.embeddingDimension ||
    differs current.embeddingLane metadata.embeddingLane

/-- What is on the server under the name, and the collection that was returned, none where the call
raised. -/
structure Outcome (δ μ ε : Type) where
  server : Option (Collection δ μ ε)
  returned : Option (Collection δ μ ε)
  deriving DecidableEq, Repr

/-- `get_or_create_collection`; a collection that is there keeps its metadata. -/
def getOrCreate (failing : Option Call) (call : Call) (metadata : LaneMetadata)
    (server : Option (Collection δ μ ε)) : Outcome δ μ ε :=
  if failing = some call then ⟨server, none⟩
  else ⟨some (server.getD ⟨metadata, []⟩), some (server.getD ⟨metadata, []⟩)⟩

/-- The rows as they were are written back to a new collection. -/
def restore (failing : Option Call) (column : Column μ) (old reset : Collection δ μ ε) :
    Option (Collection δ μ ε) :=
  if failing = some .deleteReset then some reset
  else if failing = some .createRestored then none
  else
    some ⟨old.metadata,
      (addAll (fun i => decide (failing = some (.addRestored i))) 0
        (batches column old.rows fun start => slice start (old.rows.map Row.embedding)) []).1⟩

/-- `_get_or_reset_collection` -/
def getOrResetCollection (failing : Option Call) (column : Column μ) (client : δ → ε)
    (metadata : LaneMetadata) (server : Option (Collection δ μ ε)) : Outcome δ μ ε :=
  match server with
  | none => getOrCreate failing .getOrCreateCollection metadata none
  | some old =>
    if failing = some .getCollection then
      getOrCreate failing .getOrCreateCollection metadata (some old)
    else if laneChanges old.metadata metadata = false then ⟨some old, some old⟩
    else if failing = some .get then ⟨some old, none⟩
    else
      let prepared := batches column old.rows fun start =>
        (slice start (old.rows.map Row.document)).map client
      if (List.range prepared.length).any fun i => decide (failing = some (.encode i)) then
        ⟨some old, none⟩
      else if failing = some .deleteCollection then ⟨some old, none⟩
      -- the old collection is gone, and this call is in no `try`
      else if failing = some .createCollection then ⟨none, none⟩
      else
        let added := addAll (fun i => decide (failing = some (.add i))) 0 prepared []
        if added.2 then ⟨some ⟨metadata, added.1⟩, some ⟨metadata, added.1⟩⟩
        else ⟨restore failing column old ⟨metadata, added.1⟩, none⟩

end Pandamonium.EmbeddingLanes
