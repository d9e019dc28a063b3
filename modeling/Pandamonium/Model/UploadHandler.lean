import Pandamonium.Library.Calls
import Pandamonium.Model.Value

/-!
# Uploads and their index

An upload that is in the index already is not stored again.  One section under `_index_lock` finds
its row, another takes the row up again, and an upload that is new is stored before a section puts
its row in the index; a cleanup is one section.  The digests of the contents are of any type, and the
ids are numbered as they are made up.
-/

set_option autoImplicit false

namespace Pandamonium.Uploads

open Pandamonium.Library

/-- Seconds. -/
def day : ℕ := 24 * 60 * 60

/-- `cleanup_days`, in seconds. -/
def retention : ℕ := 30 * day

/-- The directory is that of a day. -/
structure UploadPath where
  date : ℕ
  fileId : ℕ
  deriving DecidableEq, Repr

structure Row (η : Type) where
  id : ℕ
  path : UploadPath
  hash : η
  checksumSha256 : η
  uploadedAt : ℕ
  createdAt : ℕ
  lastAccessed : ℕ
  owner : Option String
  deriving DecidableEq, Repr

/-- The owner, where there is one that is not empty, and the hash. -/
abbrev Key (η : Type) := Option String × η

variable {η : Type} [DecidableEq η]

/-- `storage_key` -/
def storageKey (owner : Option String) (hash : η) : Key η :=
  (owner.filter fun owner => decide (owner ≠ ""), hash)

abbrev Index (η : Type) := Dict (Key η) (Row η)

structure Store (η : Type) where
  /-- `uploads.json`, if there is one. -/
  live : Option (Index η)
  /-- `_index_cache` -/
  cache : Index η
  files : List UploadPath
  /-- How many ids there have been. -/
  created : ℕ
  /-- The id that was returned last, if the last section was the end of a call. -/
  answered : Option ℕ

/-- `_load_upload_index`; the cache is changed in place by who has loaded it. -/
def load (s : Store η) : Index η := if s.live.isSome then s.cache else Dict.empty

/-- `_atomic_write_json` of the index, which may fail. -/
def atomicWriteJson (index : Index η) (written : Bool) (s : Store η) : Store η :=
  if written then { s with live := some index, cache := index } else s

/-! ## Saving an upload -/

/-- The row is one of the same content and owner. -/
def duplicates (owner : Option String) (hash : η) (row : Row η) : Bool :=
  decide (row.hash = hash) && decide (row.owner = owner)

/-- The first row of the same content and owner that has its file, and the keys of those before it
that have not. -/
def findDuplicate (owner : Option String) (hash : η) (files : List UploadPath) :
    List (Key η × Row η) → List (Key η) × Option (Key η × Row η)
  | [] => ([], none)
  | (key, row) :: items =>
    if duplicates owner hash row then
      if row.path ∈ files then ([], some (key, row))
      else
        let rest := findDuplicate owner hash files items
        (key :: rest.1, rest.2)
    else findDuplicate owner hash files items

/-- The row that is taken up again, and its key: the one that was found, or another one where its key
is gone. -/
def taken (owner : Option String) (hash : η) (key : Key η) (row : Row η) (index : Index η) :
    Key η × Row η :=
  if (index.get? key).isSome then (key, row)
  -- `live_key` stays what it was where no row is found, and nothing is raised
  else (index.items.find? fun item => duplicates owner hash item.2).getD (key, row)

/-- Where a call is that saves an upload, or cleans up. -/
inductive Frame (η : Type)
  | looks (owner : Option String) (hash : η)
  | found (owner : Option String) (hash : η) (key : Key η) (row : Row η)
  | saves (owner : Option String) (hash : η)
  | inserts (owner : Option String) (hash : η) (path : UploadPath) (createdAt : ℕ)
  | cleans
  deriving DecidableEq, Repr

/-- The rows without files are left out. -/
def dropStale (stale : List (Key η)) (written : Bool) (s : Store η) : Store η :=
  let index := stale.foldl Dict.erase (load s)
  let s := { s with cache := index, answered := none }
  if stale.isEmpty then s else atomicWriteJson index written s

/-- The first section of `save_upload`. -/
def look (owner : Option String) (hash : η) (now : ℕ) (written : Bool) (s : Store η) :
    Store η × Frame η :=
  let found := findDuplicate owner hash s.files (load s).items
  let s := dropStale found.1 written s
  match found.2 with
  | none => (s, .saves owner hash)
  | some (key, row) =>
    -- the row is that of the cache, and is changed after the section
    let row := { row with lastAccessed := now }
    ({ s with cache := s.cache.set key row }, .found owner hash key row)

/-- The section in which a row is taken up again; its end is that of the call. -/
def reuse (owner : Option String) (hash : η) (key : Key η) (row : Row η) (now : ℕ) (written : Bool)
    (s : Store η) : Store η :=
  let found := taken owner hash key row (load s)
  let index := (load s).set found.1 { found.2 with lastAccessed := now }
  { atomicWriteJson index written { s with cache := index } with answered := some found.2.id }

/-- The file is stored. -/
def saveFile (now : ℕ) (s : Store η) : Store η × UploadPath :=
  ({ s with
    files := ⟨now / day, s.created⟩ :: s.files
    created := s.created + 1
    answered := none }, ⟨now / day, s.created⟩)

/-- The section in which the row of a new upload is put in the index. -/
def insert (owner : Option String) (hash : η) (path : UploadPath) (createdAt : ℕ) (written : Bool)
    (s : Store η) : Store η :=
  let row : Row η := ⟨path.fileId, path, hash, hash, createdAt, createdAt, createdAt, owner⟩
  let index := (load s).set (storageKey owner hash) row
  let s := if s.live.isSome then { s with cache := index } else s
  { atomicWriteJson index written s with answered := some path.fileId }

/-! ## Cleaning up -/

/-- What the chats, documents and pictures refer to. -/
structure References (η : Type) where
  ids : List ℕ
  hashes : List η

/-- What comes of a file that is to be removed. -/
inductive Removal
  | removed
  /-- The index is not written, and the file stays. -/
  | unwritten
  /-- The index is neither written nor restored. -/
  | abandoned
  /-- The file is not removed, and the index is restored. -/
  | refused
  /-- The file is not removed, and the index is not restored. -/
  | stranded
  deriving DecidableEq, Repr

/-- The row has the id or the path of the file. -/
def isRelated (path : UploadPath) (row : Row η) : Bool :=
  decide (row.id = path.fileId) || decide (row.path = path)

/-- The row is one of the file, with an owner and one checksum. -/
def isCoherent (path : UploadPath) (row : Row η) : Bool :=
  decide (row.id = path.fileId) && decide (row.path = path) &&
    decide (strip (row.owner.getD "") ≠ "") && decide (row.hash = row.checksumSha256)

/-- `_upload_index_keys_for_file` -/
def uploadIndexKeysForFile (index : Index η) (path : UploadPath) : List (Key η) :=
  let related := index.items.filter fun item => isRelated path item.2
  let agree := related.all fun item => related.all fun item' =>
    decide (item.2.owner = item'.2.owner) && decide (item.2.hash = item'.2.hash)
  if (related.all fun item => isCoherent path item.2) && agree then related.map Prod.fst else []

/-- `is_referenced` -/
def isReferenced (references : References η) (path : UploadPath) (rows : List (Row η)) : Bool :=
  decide (path.fileId ∈ references.ids) || rows.any fun row =>
    decide (row.id ∈ references.ids) || decide (row.hash ∈ references.hashes) ||
      decide (row.checksumSha256 ∈ references.hashes)

/-- `_upload_metadata_is_recent` -/
def uploadMetadataIsRecent (cutoffDate : ℕ) (row : Row η) : Bool :=
  decide (cutoffDate ≤ row.lastAccessed) || decide (cutoffDate ≤ row.createdAt) ||
    decide (cutoffDate ≤ row.uploadedAt)

/-- A cleanup in progress. -/
structure Sweep (η : Type) where
  index : Index η
  files : List UploadPath
  /-- `UploadCleanupSafetyError` was raised. -/
  halted : Bool

/-- The cleanup comes to a file. -/
def sweepFile (references : References η) (cutoffDate : ℕ) (removal : ℕ → Removal)
    (sweep : Sweep η) (path : UploadPath) : Sweep η :=
  let keys := uploadIndexKeysForFile sweep.index path
  let rows := keys.filterMap sweep.index.get?
  if sweep.halted || decide (cutoffDate ≤ path.date * day) then sweep
  else if rows.isEmpty || isReferenced references path rows ||
      rows.any (uploadMetadataIsRecent cutoffDate) then sweep
  else
    let reduced := keys.foldl Dict.erase sweep.index
    match removal path.fileId with
    | .removed =>
      { sweep with index := reduced, files := sweep.files.filter fun p => decide (p ≠ path) }
    | .unwritten => sweep
    | .abandoned => { sweep with halted := true }
    | .refused => sweep
    | .stranded => { sweep with index := reduced, halted := true }

/-- `cleanup_old_uploads` -/
def cleanupOldUploads (references : Option (References η)) (now : ℕ) (removal : ℕ → Removal)
    (s : Store η) : Store η :=
  match references, s.live with
  | some references, some index =>
    let sweep := s.files.foldl (sweepFile references (now - retention) removal) ⟨index, s.files, false⟩
    { s with live := some sweep.index, cache := sweep.index, files := sweep.files, answered := none }
  | _, _ => { s with answered := none }

/-! ## The calls -/

inductive Occurrence (η : Type)
  | looks (now : ℕ) (written : Bool)
  | reuses (now : ℕ) (written : Bool)
  | saves (now : ℕ)
  /-- The file is not stored. -/
  | fails
  | inserts (written : Bool)
  | cleans (references : Option (References η)) (now : ℕ) (removal : ℕ → Removal)

def advance (s : Store η) :
    Frame η → Occurrence η → Option (Store η × Option (Frame η))
  | .looks owner hash, .looks now written =>
    let after := look owner hash now written s
    some (after.1, some after.2)
  | .found owner hash key row, .reuses now written =>
    some (reuse owner hash key row now written s, none)
  | .saves owner hash, .saves now =>
    let after := saveFile now s
    some (after.1, some (.inserts owner hash after.2 now))
  | .saves _ _, .fails => some ({ s with answered := none }, none)
  | .inserts owner hash path createdAt, .inserts written =>
    some (insert owner hash path createdAt written s, none)
  | .cleans, .cleans references now removal =>
    some (cleanupOldUploads references now removal s, none)
  | _, _ => none

/-- A call looks for a duplicate first, or cleans up. -/
def Frame.entry : Frame η → Bool
  | .looks _ _ => true
  | .cleans => true
  | _ => false

/-- The calls of the handler. -/
def service : Service (Store η) (Frame η) (Occurrence η) where
  entry := Frame.entry
  advance := advance

/-- Nothing was uploaded. -/
def Store.new : Store η := ⟨none, Dict.empty, [], 0, none⟩

/-- The store is new. -/
def isNew (s : Store η) : Prop := s = .new

end Pandamonium.Uploads

/-!
## The owner of an upload is renamed

`rename_owner` of `UploadHandler`, on whatever the index of the uploads holds.  A row is a JSON value
under a key that is made of its owner and its checksum, so a row that gets another owner gets another
key; where that is taken, the id of the upload and then a number are put behind it.
-/

namespace Pandamonium.UploadOwners

open Pandamonium.Library

/-- The rows under their keys. -/
abbrev Index := Dict String Value

variable (rt : Runtime)

/-- `text.strip().lower()` -/
def normalized (text : String) : String := rt.lower (strip text)

/-- `str(info.get("owner", "")).strip().lower()` -/
def ownerOf (info : Object) : String := normalized rt (((info.get? "owner").getD (.str "")).text rt)

/-- `key.rsplit(":", 1)`, of a key that has a colon. -/
def rsplitColon (key : String) : Option (String × String) :=
  let behind := key.toList.reverse.takeWhile (· ≠ ':')
  if ':' ∈ key.toList then
    some (String.ofList (key.toList.take (key.toList.length - behind.length - 1)),
      String.ofList behind.reverse)
  else none

/-- `_renamed_upload_index_key` -/
def renamedUploadIndexKey (key : String) (info : Object) (oldOwner newOwner : String) : String :=
  let fileHash := (info.get? "hash").getD .null
  if fileHash.truthy then newOwner ++ ":" ++ fileHash.text rt
  else
    match rsplitColon key with
    | some (ownerPart, rest) =>
      if normalized rt ownerPart = normalized rt oldOwner then newOwner ++ ":" ++ rest else key
    | none => key

/-- The first of the numbered keys that is not taken, with the number of tries. -/
def firstFree (stem : String) (taken : List String) : ℕ → ℕ → String
  | 0, index => stem ++ ":" ++ toString index
  | tries + 1, index =>
    let candidate := stem ++ ":" ++ toString index
    if candidate ∈ taken then firstFree stem taken tries (index + 1) else candidate

/-- `str(info.get("id") or "renamed").strip() or "renamed"` -/
def uploadIdOf (info : Object) : String :=
  let id := (info.get? "id").getD .null
  let uploadId := strip (if id.truthy then id.text rt else "renamed")
  if uploadId = "" then "renamed" else uploadId

/-- `_unique_upload_index_key`.  Of as many numbers as there are keys that are taken, and one more,
one is free. -/
def uniqueUploadIndexKey (baseKey : String) (usedKeys reservedKeys : List String) (info : Object) :
    String :=
  let taken := usedKeys ++ reservedKeys
  if baseKey ∉ taken then baseKey
  else
    let candidate := baseKey ++ ":" ++ uploadIdOf rt info
    if candidate ∉ taken then candidate else firstFree candidate taken (taken.length + 1) 2

/-- The row is one of the old owner, as the loop sees it. -/
def matchesOwner (oldOwner : String) : Value → Bool
  | .dict info => decide (ownerOf rt info = oldOwner)
  | _ => false

/-- The key and the row that are put in the new index. -/
def renamedRow (oldOwner newOwner : String) (originalKeys usedKeys : List String) (key : String)
    (row : Value) : String × Value :=
  if matchesOwner rt oldOwner row then
    let newInfo := row.asObject.set "owner" (.str newOwner)
    let baseKey := renamedUploadIndexKey rt key newInfo oldOwner newOwner
    (uniqueUploadIndexKey rt baseKey usedKeys (originalKeys.filter (· ≠ key)) newInfo,
      .dict newInfo)
  else (key, row)

/-- The loop over the rows. -/
def renameRows (oldOwner newOwner : String) (originalKeys : List String) (updated : Index) :
    List (String × Value) → Index
  | [] => updated
  | (key, row) :: rows =>
    let renamed :=
      renamedRow rt oldOwner newOwner originalKeys (updated.items.map Prod.fst) key row
    renameRows oldOwner newOwner originalKeys (updated.set renamed.1 renamed.2) rows

/-- There are two names, and they are not the same. -/
def areDifferent (oldOwner newOwner : String) : Bool :=
  decide (normalized rt oldOwner ≠ "" ∧ strip newOwner ≠ "" ∧
    normalized rt oldOwner ≠ rt.lower (strip newOwner))

/-- `rename_owner`, the index that it leaves and what it returns. -/
def renameOwner (oldOwner newOwner : String) (current : Index) : Index × ℕ :=
  if areDifferent rt oldOwner newOwner then
    (renameRows rt (normalized rt oldOwner) (strip newOwner) (current.items.map Prod.fst)
        Dict.empty current.items,
      current.items.countP fun item => matchesOwner rt (normalized rt oldOwner) item.2)
  else (current, 0)

end Pandamonium.UploadOwners
