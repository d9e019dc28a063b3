import Pandamonium.Model.EmbeddingLanes

/-!
# What a reset keeps of the rows

A collection whose lane changes keeps its rows, with the embeddings of the new client where the call
returns, unless the collection cannot be created again once it was deleted, or the first look at it
fails and it has other embeddings.
-/

set_option autoImplicit false

namespace Pandamonium.EmbeddingLanes

variable {δ μ ε : Type} [EmptyCollection μ]

/-- The row with the embedding of the client. -/
def Row.reembedded (client : δ → ε) (r : Row δ μ ε) : Row δ μ ε :=
  { r with embedding := client r.document }

/-- A call that returns leaves the rows with the embeddings of the client, and one that raises leaves
them as they were. -/
def Outcome.Preserves (client : δ → ε) (old : Collection δ μ ε) (o : Outcome δ μ ε) : Prop :=
  match o.returned with
  | some collection =>
    o.server = some collection ∧ collection.rows = old.rows.map (Row.reembedded client)
  | none => ∃ collection, o.server = some collection ∧ collection.rows = old.rows

/-! ## Batches -/

theorem flatMap_slice {α : Type} (l : List α) (k : ℕ) :
    ((List.range k).map (100 * ·)).flatMap (fun start => slice start l) = l.take (100 * k) := by
  induction k with
  | zero => rfl
  | succ k ih =>
    rw [List.range_succ, List.map_append, List.flatMap_append, ih, Nat.mul_succ, List.take_add]
    simp [slice]

theorem flatMap_starts {α : Type} (l : List α) :
    (starts l.length).flatMap (fun start => slice start l) = l := by
  rw [starts, flatMap_slice]
  exact List.take_of_length_le (by omega)

/-- What the column leaves out of a slice is filled up. -/
theorem padded_slice (column : Column μ) (all : List μ) (start : ℕ) :
    padded (slice start all).length (slice start (column.metadatas all)) = slice start all := by
  obtain ⟨k, hcut, hnone⟩ := column.cut all
  have hslice : slice start (column.metadatas all) = (slice start all).take (k - start) := by
    rw [hcut, slice, slice, List.drop_take, List.take_take, List.take_take, Nat.min_comm]
  have hrest : (slice start all).drop (k - start) =
      List.replicate ((slice start all).length - (k - start)) ∅ := by
    refine List.eq_replicate_iff.mpr ⟨List.length_drop, fun m hm => hnone m ?_⟩
    have hm := (List.take_sublist 100 (all.drop start)).drop (k - start) |>.subset hm
    rw [List.drop_drop] at hm
    exact (List.drop_sublist_drop_left all (by omega)).subset hm
  rw [padded, hslice, List.length_take]
  conv_rhs => rw [← List.take_append_drop (k - start) (slice start all), hrest]
  refine congrArg (_ ++ List.replicate · ∅) ?_
  omega

theorem zip_fields {ε' : Type} (f : Row δ μ ε → ε') (rows : List (Row δ μ ε)) :
    ((rows.map Row.id).zip ((rows.map Row.document).zip
      ((rows.map Row.metadata).zip (rows.map f)))) =
      rows.map fun r => (r.id, r.document, r.metadata, f r) := by
  induction rows with
  | nil => rfl
  | cons r rows ih => simp [ih]

theorem slice_map {α β : Type} (f : α → β) (start : ℕ) (l : List α) :
    slice start (l.map f) = (slice start l).map f := by
  rw [slice, slice, ← List.map_drop, ← List.map_take]

/-- The batches hold all rows, with the embeddings they are given. -/
theorem rows_batches (column : Column μ) (rows : List (Row δ μ ε)) (embeddings : ℕ → List ε)
    (f : Row δ μ ε → ε) (h : ∀ start, embeddings start = (slice start rows).map f) :
    (batches column rows embeddings).flatMap Batch.rows =
      rows.map fun r => { r with embedding := f r } := by
  have hbatch : ∀ start, Batch.rows
      { ids := slice start (rows.map Row.id)
        documents := slice start (rows.map Row.document)
        metadatas := padded (slice start (rows.map Row.id)).length
          (slice start (column.metadatas (rows.map Row.metadata)))
        embeddings := embeddings start } =
      slice start (rows.map fun r => { r with embedding := f r }) := by
    intro start
    have hlength : (slice start (rows.map Row.id)).length =
        (slice start (rows.map Row.metadata)).length := by
      simp only [slice_map, List.length_map]
    rw [hlength, padded_slice, h, Batch.rows]
    simp only [slice_map, zip_fields, List.map_map]
    rfl
  rw [batches, List.flatMap_map]
  simp only [hbatch]
  have hall := flatMap_starts (rows.map fun r => { r with embedding := f r })
  rwa [List.length_map] at hall

/-- Batches that are all added leave their rows. -/
theorem fst_addAll {fails : ℕ → Bool} {n : ℕ} {bs : List (Batch δ μ ε)} {rows : List (Row δ μ ε)}
    (h : (addAll fails n bs rows).2 = true) :
    (addAll fails n bs rows).1 = rows ++ bs.flatMap Batch.rows := by
  induction bs generalizing n rows with
  | nil => simp [addAll]
  | cons b bs ih =>
    rw [addAll] at h ⊢
    split at h
    · cases h
    · rename_i hfails
      rw [if_neg hfails, ih h, List.flatMap_cons, List.append_assoc]

theorem exists_fails {fails : ℕ → Bool} {n : ℕ} {bs : List (Batch δ μ ε)}
    {rows : List (Row δ μ ε)} (h : (addAll fails n bs rows).2 = false) : ∃ i, fails i = true := by
  induction bs generalizing n rows with
  | nil => cases h
  | cons b bs ih =>
    rw [addAll] at h
    split at h
    · exact ⟨n, ‹_›⟩
    · exact ih h

/-! ## The reset -/

/-- A batch that cannot be added is the one call that fails, so the rows are restored. -/
theorem restore_eq (column : Column μ) (old reset : Collection δ μ ε) (i : ℕ) :
    restore (some (.add i)) column old reset = some old := by
  have hrows := rows_batches column old.rows
    (fun start => slice start (old.rows.map Row.embedding)) Row.embedding fun start =>
      slice_map Row.embedding start old.rows
  rw [restore, if_neg (by simp), if_neg (by simp), fst_addAll, hrows, List.nil_append,
    List.map_id']
  refine Bool.not_eq_false _ ▸ fun h => ?_
  obtain ⟨j, hj⟩ := exists_fails h
  simp at hj

theorem rows_reembedded_iff (client : δ → ε) (rows : List (Row δ μ ε)) :
    rows = rows.map (Row.reembedded client) ↔ ∀ r ∈ rows, r.embedding = client r.document := by
  conv_lhs => lhs; rw [← List.map_id rows]
  rw [List.map_inj_left]
  refine forall₂_congr fun r _ => ?_
  obtain ⟨id, document, metadata, embedding⟩ := r
  simp [Row.reembedded]

/-- Where the lane of a collection changes, its rows are preserved exactly if the collection can be
created again, and has the embeddings of the new client already where it cannot be looked up. -/
theorem getOrResetCollection_preserves_iff (failing : Option Call) (column : Column μ)
    (client : δ → ε) (metadata : LaneMetadata) (old : Collection δ μ ε)
    (hchanges : laneChanges old.metadata metadata = true) :
    (getOrResetCollection failing column client metadata (some old)).Preserves client old ↔
      failing ≠ some .createCollection ∧
        (failing = some .getCollection → ∀ r ∈ old.rows, r.embedding = client r.document) := by
  have hrows := rows_batches column old.rows
    (fun start => (slice start (old.rows.map Row.document)).map client)
    (fun r => client r.document) fun start => by
      rw [slice_map, List.map_map]
      rfl
  unfold getOrResetCollection
  simp only [hchanges, Bool.true_eq_false, if_false]
  by_cases hget : failing = some .getCollection
  · subst hget
    simp [getOrCreate, Outcome.Preserves, rows_reembedded_iff]
  have hkeeps : ∃ collection, some old = some collection ∧ collection.rows = old.rows :=
    ⟨old, rfl, rfl⟩
  rw [if_neg hget]
  simp only [hget, false_implies, and_true]
  by_cases hread : failing = some .get
  · subst hread
    exact iff_of_true hkeeps (by simp)
  rw [if_neg hread]
  split
  · rename_i hencode
    obtain ⟨i, -, hi⟩ := List.any_eq_true.mp hencode
    obtain rfl := of_decide_eq_true hi
    exact iff_of_true hkeeps (by simp)
  split
  · rename_i hdelete
    subst hdelete
    exact iff_of_true hkeeps (by simp)
  split
  · rename_i hcreate
    refine iff_of_false ?_ fun h => h hcreate
    rintro ⟨collection, hserver, -⟩
    cases hserver
  rename_i hcreate
  refine iff_of_true ?_ hcreate
  split
  · rename_i hadded
    refine ⟨rfl, ?_⟩
    show (addAll _ 0 _ []).1 = _
    rw [fst_addAll hadded, hrows]
    rfl
  · rename_i hadded
    obtain ⟨i, hi⟩ := exists_fails (Bool.eq_false_iff.mpr hadded)
    obtain rfl := of_decide_eq_true hi
    refine ⟨old, ?_, rfl⟩
    rw [restore_eq]

/-! ## Two resets -/

/-- A column with the metadata of all rows. -/
def wholeColumn : Column (List String) where
  metadatas all := all
  cut all := ⟨all.length, by simp, by simp⟩

/-- A collection of another lane. -/
def notes : Collection String (List String) ℕ where
  metadata := ⟨some "old", none, none⟩
  rows := [⟨"a", "milk", [], 0⟩, ⟨"b", "tea", ["shop"], 0⟩]

def newLane : LaneMetadata := ⟨some "new", some 3, some "custom"⟩

/-- The rows cannot be written to the new collection, and are restored. -/
theorem preserves_addFails :
    (getOrResetCollection (some (.add 0)) wholeColumn String.length newLane
      (some notes)).Preserves String.length notes :=
  (getOrResetCollection_preserves_iff (some (.add 0)) wholeColumn String.length newLane notes
    (by decide)).mpr ⟨by decide, by decide⟩

/-- The collection cannot be created again. -/
theorem not_preserves_createFails :
    ¬ (getOrResetCollection (some .createCollection) wholeColumn String.length newLane
      (some notes)).Preserves String.length notes := by
  have hgone : getOrResetCollection (some .createCollection) wholeColumn String.length newLane
      (some notes) = ⟨none, none⟩ := by
    decide
  rw [hgone]
  rintro ⟨collection, hserver, -⟩
  cases hserver

end Pandamonium.EmbeddingLanes
