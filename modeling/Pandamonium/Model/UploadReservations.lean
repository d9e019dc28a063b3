import Mathlib.Algebra.Ring.Int.Defs
import Mathlib.Data.List.Dedup
import Pandamonium.Library.Dict
import Pandamonium.Model.Value

/-!
# Reservations of uploads and the cleanup

`reserve_upload` and `cleanup_old_uploads` of `UploadHandler`, on whatever `uploads.json` holds.  Each
of the two is one section under `_index_lock`, but the directory is read and changed by anyone: what
the operating system answers and which writes fail comes with each call.  Times are in microseconds
of the local clock.
-/

set_option autoImplicit false

namespace Pandamonium.UploadReservations

open Pandamonium.Library

/-- The rows under their keys. -/
abbrev Index := Dict String Value

/-- What the operating system says of paths at a moment. -/
structure Disk where
  /-- `os.path.normcase(os.path.realpath(path))` -/
  canonical : String → String
  /-- `os.path.commonpath` of two paths, `none` where it raises. -/
  commonpath : String → String → Option String
  isfile : String → Bool

/-- What does not change. -/
structure Settings where
  runtime : Runtime
  uploadDir : String
  /-- `now.isoformat()` -/
  isoformat : ℤ → String
  /-- `datetime.fromisoformat(text.replace("Z", "+00:00"))`, in the local clock, `none` where it
  raises. -/
  fromisoformat : String → Option ℤ
  basename : String → String
  /-- `mimetypes.guess_type(path)[0]`, or else `application/octet-stream`. -/
  guessType : String → String
  /-- The date in the last three parts of a path that has four of them. -/
  dirDate : String → Option ℤ

def minute : ℤ := 60 * 1000000

/-- `timedelta(days=self.cleanup_days)` -/
def retention : ℤ := 30 * 24 * 60 * minute

/-! ## Rows -/

/-- `validate_upload_id` -/
def validateUploadId (uploadId : String) : Bool :=
  let isHex (x : Char) : Bool := x.isDigit || ('a' ≤ x && x ≤ 'f') || ('A' ≤ x && x ≤ 'F')
  let stem := uploadId.toList.take 32
  stem.length == 32 && stem.all isHex &&
    match uploadId.toList.drop 32 with
    | [] => true
    | x :: extension => x == '.' && !extension.isEmpty && extension.all Char.isAlphanum

/-- `info.get(key) == text` -/
def hasText (info : Object) (key text : String) : Bool :=
  match info.get? key with
  | some (.str s) => s == text
  | _ => false

section Rows

variable (st : Settings) (disk : Disk)

/-- `_inside_upload_dir` -/
def insideUploadDir (path : String) : Bool :=
  let base := disk.canonical st.uploadDir
  disk.commonpath base (disk.canonical path) == some base

/-- `_parse_upload_timestamp` -/
def parseUploadTimestamp : Option Value → Option ℤ
  | some (.str s) => if strip s = "" then none else st.fromisoformat (strip s)
  | _ => none

/-- `_upload_metadata_is_recent` -/
def uploadMetadataIsRecent (cutoffDate : ℤ) (info : Object) : Bool :=
  ["last_accessed", "created_at", "uploaded_at"].any fun field =>
    match parseUploadTimestamp st (info.get? field) with
    | some parsed => cutoffDate ≤ parsed
    | none => false

/-- `stored_real_path` -/
def storedRealPath (info : Object) : Option String :=
  match info.get? "path" with
  | some (.str path) => if path = "" then none else some (disk.canonical path)
  | _ => none

/-- `row_checksums` -/
def rowChecksums (info : Object) : List String :=
  (["hash", "checksum_sha256"].filterMap fun field =>
    match info.get? field with
    | none | some .null => none
    | some v =>
      let text := strip (v.text st.runtime)
      if text = "" then none else some (st.runtime.lower text)).dedup

/-- The owner and the checksum of a row of the upload, `none` where it is ambiguous or incomplete. -/
def ownerAndChecksum (info : Object) : Option (String × String) :=
  match info.get? "owner", rowChecksums st info with
  | some (.str owner), [checksum] =>
    if strip owner = "" then none
    else if ["uploaded_at", "created_at", "last_accessed"].any fun field =>
      (parseUploadTimestamp st (info.get? field)).isNone then none
    else some (owner, checksum)
  | _, _ => none

/-- The loop of `_upload_index_keys_for_file`, `none` where it returns from within. -/
def matchingRows (uploadId targetPath : String) :
    List (String × Value) → Option (List (String × String × String))
  | [] => some []
  | (key, .dict info) :: items =>
    let sameId := hasText info "id" uploadId
    let samePath := storedRealPath disk info == some targetPath
    if sameId || samePath then
      if sameId && samePath then
        match ownerAndChecksum st info with
        | none => none
        | some found => (matchingRows uploadId targetPath items).map fun rows => (key, found) :: rows
      else none
    else matchingRows uploadId targetPath items
  | _ :: items => matchingRows uploadId targetPath items

/-- `_upload_index_keys_for_file` -/
def uploadIndexKeysForFile (index : Index) (uploadId filePath : String) : List String :=
  match matchingRows st disk uploadId (disk.canonical filePath) index.items with
  | none => []
  | some rows =>
    if 1 < (rows.map fun row => row.2.1).dedup.length ∨ 1 < (rows.map fun row => row.2.2).dedup.length
    then []
    else rows.map Prod.fst

end Rows

/-! ## The cleanup -/

/-- What comes of `os.remove`. -/
inductive Removal
  | removed
  /-- `FileNotFoundError` -/
  | absent
  | refused
  deriving DecidableEq, Repr

/-- A file of a directory, and how it goes when the walk comes to it. -/
structure Candidate where
  file : String
  filePath : String
  disk : Disk
  /-- The reduced index is written; `uploads.json` stays what it was where it is not. -/
  reduced : Bool
  /-- The index is written again where that is tried. -/
  restored : Bool
  removal : Removal

structure Directory where
  root : String
  disk : Disk
  files : List Candidate

structure References where
  ids : List String
  hashes : List String

/-- A call of `cleanup_old_uploads`.  The directories are those that the walk comes to, in its order
and up to where it raises. -/
structure Cleanup where
  references : Option References
  startedAt : ℤ
  directories : List Directory

def Cleanup.cutoffDate (c : Cleanup) : ℤ := c.startedAt - retention

/-- A file whose bytes were removed, with `uploads.json` as it was before its rows were. -/
structure Removed where
  candidate : Candidate
  live : Index

/-- The loop in progress. -/
structure Sweep where
  /-- `uploads.json` -/
  live : Index
  currentIndex : Index
  removed : List Removed
  /-- `UploadCleanupSafetyError` was raised. -/
  halted : Bool

section Cleanup

variable (st : Settings)

/-- `is_referenced` -/
def isReferenced (references : References) (file : String) (rows : List Object) : Bool :=
  references.ids.contains file || rows.any fun info =>
    references.ids.contains (info.text st.runtime "id") ||
      references.hashes.contains (info.text st.runtime "hash") ||
      references.hashes.contains (info.text st.runtime "checksum_sha256")

/-- The rows under some keys. -/
def rowsOf (index : Index) (keys : List String) : List Object :=
  keys.filterMap fun key =>
    match index.get? key with
    | some (.dict info) => some info
    | _ => none

/-- The rows of an upload that may be removed, by their keys. -/
def removableKeys (references : References) (cutoffDate : ℤ) (index : Index) (c : Candidate) :
    Option (List String) :=
  if validateUploadId c.file && insideUploadDir st c.disk c.filePath then
    let keys := uploadIndexKeysForFile st c.disk index c.file c.filePath
    let rows := rowsOf index keys
    if rows.isEmpty || isReferenced st references c.file rows ||
      rows.any (uploadMetadataIsRecent st cutoffDate) then none
    else some keys
  else none

/-- The walk comes to a file. -/
def sweepFile (references : References) (cutoffDate : ℤ) (s : Sweep) (c : Candidate) : Sweep :=
  if s.halted then s
  else
    match removableKeys st references cutoffDate s.currentIndex c with
    | none => s
    | some keys =>
      let reducedIndex := keys.foldl Dict.erase s.currentIndex
      if c.reduced then
        match c.removal with
        | .removed =>
          { s with
            live := reducedIndex
            currentIndex := reducedIndex
            removed := s.removed ++ [⟨c, s.live⟩] }
        | .absent => { s with live := reducedIndex, currentIndex := reducedIndex }
        | .refused =>
          if c.restored then { s with live := s.currentIndex }
          else { s with live := reducedIndex, halted := true }
      else if c.restored then { s with live := s.currentIndex }
      else { s with halted := true }

/-- The directory is one of a day before the cutoff. -/
def isOld (cutoffDate : ℤ) (directory : Directory) : Bool :=
  directory.root != st.uploadDir && insideUploadDir st directory.disk directory.root &&
    match st.dirDate directory.root with
    | some date => date < cutoffDate
    | none => false

/-- The files that the loop comes to. -/
def candidates (c : Cleanup) : List Candidate :=
  (c.directories.filter (isOld st c.cutoffDate)).flatMap Directory.files

/-- The loop of `cleanup_old_uploads`, where it comes to one. -/
def sweep (c : Cleanup) (live : Option Index) : Option Sweep :=
  match c.references, live with
  | some references, some index =>
    some ((candidates st c).foldl (sweepFile st references c.cutoffDate) ⟨index, index, [], false⟩)
  | _, _ => none

/-- `uploads.json` after `cleanup_old_uploads`. -/
def cleanupOldUploads (c : Cleanup) (live : Option Index) : Option Index :=
  match sweep st c live with
  | some s => some s.live
  | none => live

/-- The files whose bytes a cleanup removes. -/
def removedBy (c : Cleanup) (live : Option Index) : List Removed :=
  match sweep st c live with
  | some s => s.removed
  | none => []

end Cleanup

/-! ## Reservations -/

/-- A call of `reserve_upload`. -/
structure Reservation where
  uploadId : String
  owner : Option String
  /-- `auth_configured` -/
  authConfigured : Bool
  /-- `allow_admin` and `auth_manager.is_admin(owner)` -/
  admin : Bool
  now : ℤ
  disk : Disk
  /-- What `_find_upload_path` finds. -/
  found : Option String
  /-- The index is written; `uploads.json` stays what it was where it is not. -/
  written : Bool

section Reserve

variable (st : Settings)

/-- `not owner` -/
def isBlank (owner : Option String) : Bool := owner.getD "" == ""

/-- The rows with the id, with their keys. -/
def rowsWithId (index : Index) (uploadId : String) : List (String × Object) :=
  index.items.filterMap fun
    | (key, .dict info) => if hasText info "id" uploadId then some (key, info) else none
    | _ => none

/-- `str(row.get("owner")) if row.get("owner") is not None else None` -/
def rowOwner (row : Object) : Option String :=
  match row.get? "owner" with
  | none | some .null => none
  | some owner => some (owner.text st.runtime)

/-- `row.get("hash") or row.get("checksum_sha256")`, as a text. -/
def rowHash (row : Object) : Option String :=
  let truthy := fun key => (row.get? key).filter Value.truthy
  ((truthy "hash").orElse fun _ => truthy "checksum_sha256").map (Value.text st.runtime)

/-- The owner of the call may have the upload. -/
def mayReserve (r : Reservation) (info : Object) : Bool :=
  if isBlank r.owner then
    match info.get? "owner" with
    | none | some .null => true
    | some _ => false
  else r.admin || hasText info "owner" (r.owner.getD "")

/-- The loop over the stored paths, `none` where it returns from within or raises. -/
def existingPaths (r : Reservation) : List Object → Option (List String)
  | [] => some []
  | row :: rows =>
    match row.get? "path" with
    | some (.str storedPath) =>
      if storedPath = "" then existingPaths r rows
      else if !insideUploadDir st r.disk storedPath then none
      else if r.disk.isfile storedPath then
        if st.basename storedPath = r.uploadId then
          (existingPaths r rows).map fun paths => r.disk.canonical storedPath :: paths
        else none
      else existingPaths r rows
    | some v => if v.truthy then none else existingPaths r rows
    | none => existingPaths r rows

/-- `path`, where it is one of an upload that is there. -/
def pathOf (r : Reservation) (rows : List Object) : Option String :=
  match existingPaths st r rows with
  | none => none
  | some paths =>
    if 1 < paths.dedup.length then none
    else
      let path := ((paths.head?.filter (· ≠ "")).orElse fun _ => r.found).getD ""
      if path ≠ "" && r.disk.isfile path && insideUploadDir st r.disk path then some path else none

/-- `needs_write` -/
def needsWrite (r : Reservation) (info : Object) (path : String) : Bool :=
  !hasText info "path" path ||
    match parseUploadTimestamp st (info.get? "last_accessed") with
    | none => true
    | some lastAccessed => lastAccessed < r.now - 5 * minute

/-- A row that is touched. -/
def touched (r : Reservation) (path : String) (info : Object) : Object :=
  (info.set "path" (.str path)).set "last_accessed" (.str (st.isoformat r.now))

/-- `updated_index` -/
def updatedIndex (r : Reservation) (path : String) (rows : List (String × Object)) (current : Index) :
    Index :=
  rows.foldl (fun index row => index.set row.1 (.dict (touched st r path row.2))) current

/-- `d.setdefault(key, v)` -/
def setDefault (d : Object) (key : String) (v : Value) : Object :=
  if (d.get? key).isSome then d else d.set key v

/-- `if d.get(key) and not d.get(other): d[other] = d[key]` -/
def setAlias (d : Object) (key other : String) : Object :=
  match d.get? key with
  | some v => if v.truthy && !((d.get? other).any Value.truthy) then d.set other v else d
  | none => d

/-- `resolved` -/
def resolved (r : Reservation) (path : String) (info : Object) : Object :=
  let d := (setDefault info "id" (.str r.uploadId)).set "path" (.str path)
  let d := setDefault d "name" (.str (st.basename path))
  let d := setDefault d "original_name" ((d.get? "name").getD .null)
  let d := setDefault d "mime" (.str (st.guessType path))
  setAlias (setAlias d "hash" "checksum_sha256") "uploaded_at" "created_at"

/-- What a reservation comes to before it writes: its rows, and the path. -/
def reservable (r : Reservation) (current : Index) :
    Option (List (String × Object) × Object × String) :=
  if !validateUploadId r.uploadId || (r.authConfigured && isBlank r.owner) then none
  else
    match rowsWithId current r.uploadId with
    | [] => none
    | (key, info) :: rows =>
      let all := ((key, info) :: rows).map Prod.snd
      if (all.map (rowOwner st)).dedup.length ≠ 1 ∨ 1 < (all.filterMap (rowHash st)).dedup.length then
        none
      else if mayReserve r info then
        (pathOf st r all).map fun path => ((key, info) :: rows, info, path)
      else none

/-- `reserve_upload`: `uploads.json` afterwards, and what is returned, `none` also where it raises. -/
def reserveUpload (r : Reservation) (live : Option Index) : Option Index × Option Object :=
  match live with
  | none => (live, none)
  | some current =>
    match reservable st r current with
    | none => (live, none)
    | some (rows, info, path) =>
      if needsWrite st r info path then
        if r.written then
          (some (updatedIndex st r path rows current), some (resolved st r path (touched st r path info)))
        -- the index is written again, which is what it was
        else (live, none)
      else (live, some (resolved st r path info))

end Reserve

/-! ## Sections -/

/-- A section under `_index_lock`. -/
inductive Lock
  | reserves (r : Reservation)
  | cleans (c : Cleanup)

/-- `uploads.json` after a section. -/
def Lock.live (st : Settings) (live : Option Index) : Lock → Option Index
  | .reserves r => (reserveUpload st r live).1
  | .cleans c => cleanupOldUploads st c live

/-- `uploads.json` after some sections. -/
def liveAfter (st : Settings) (live : Option Index) (sections : List Lock) : Option Index :=
  sections.foldl (Lock.live st) live

end Pandamonium.UploadReservations
