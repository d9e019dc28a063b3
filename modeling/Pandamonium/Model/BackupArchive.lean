import Mathlib.Algebra.Ring.Int.Defs
import Mathlib.Data.List.Sort
import Mathlib.Data.String.Basic
import Pandamonium.Model.Json

/-!
# Backup archives

`backup_archive.py`: the inventory of the files of a backup, and its verification against the
members of an archive.  What `tarfile` knows of a member is given, and so is SHA-256.

An exception is its message, the same for every `TypeError`.
-/

set_option autoImplicit false

namespace Pandamonium.BackupArchive

open Pandamonium.Library

/-- `BACKUP_MANIFEST_NAMES` -/
def manifestNames : List String :=
  ["data/.pandamonium-backup-manifest.json", "data/.odysseus-backup-manifest.json"]

/-- `BACKUP_SCHEMA_V1` -/
def schemaV1 : String := "jos-p7.backup.v1"

/-- `BACKUP_SCHEMA_V2` -/
def schemaV2 : String := "jos-p7.backup.v2"

/-- `BACKUP_INVENTORY_SCHEMA` -/
def inventorySchema : String := "pandamonium.backup-inventory.v1"

/-- `_INVENTORY_SOURCES` -/
def inventorySources : List String := ["file", "materialized_internal_file_symlink"]

/-- `_SHA256_RE.fullmatch` -/
def isSha256 (text : String) : Bool :=
  text.length = 64 &&
    text.toList.all fun x => ('0' ≤ x && x ≤ '9') || ('a' ≤ x && x ≤ 'f')

/-! ## Paths -/

/-- `PurePosixPath(text).is_absolute()` -/
def isAbsolute (text : String) : Bool := text.toList.head? = some '/'

/-- `PurePosixPath(text).parts`, of a relative path. -/
def parts (text : String) : List String :=
  ((components text.toList).filter fun part => part ≠ ['.']).map String.ofList

def joinPath (names : List String) : String :=
  String.ofList (['/'].intercalate (names.map String.toList))

/-- `PurePosixPath(text).as_posix()`, of a relative path. -/
def asPosix (text : String) : String := if parts text = [] then "." else joinPath (parts text)

/-! ## Members -/

/-- The type of a member. -/
inductive Kind
  | directory
  | file
  | symlink
  | hardlink
  | special
  deriving DecidableEq, Repr

/-- A `TarInfo`, with what is read from the member. -/
structure Member where
  name : String
  kind : Kind
  size : Int
  /-- `none` where reading raises. -/
  content : Option (List UInt8)
  length : ∀ bytes ∈ content, (bytes.length : Int) = size

section

variable (strRepr : String → String) (sha256 : List UInt8 → String)

/-- One round of the loop of `validate_backup_members`. -/
def validateMember (seen : List String) (member : Member) : Except String (List String) :=
  if isAbsolute member.name ∨ ".." ∈ parts member.name then
    .error ("absolute or parent path is not allowed: " ++ strRepr member.name)
  else if (parts member.name).head? ≠ some "data" then
    .error ("entry is outside the data directory: " ++ strRepr member.name)
  else if asPosix member.name ∈ seen then
    .error ("duplicate archive member: " ++ strRepr member.name)
  else if (parts member.name).length = 1 ∧ member.kind ≠ .directory then
    .error "the data archive root must be a directory"
  else if member.kind = .symlink ∨ member.kind = .hardlink then
    .error ("link entry is not allowed: " ++ strRepr member.name)
  else if member.kind = .special then
    .error ("special file entry is not allowed: " ++ strRepr member.name)
  else .ok (asPosix member.name :: seen)

/-- `validate_backup_members` -/
def validateBackupMembers (members : List Member) : Except String (List Member) := do
  let _ ← members.foldlM (validateMember strRepr) []
  return members

/-- The member is looked for in the inventory. -/
def Member.isPayload (member : Member) : Bool :=
  member.kind = .file && member.name ∉ manifestNames

/-! ## Inventories -/

/-- What the inventory says of a file. -/
structure Entry where
  path : String
  size : Int
  sha256 : String
  source : String
  deriving DecidableEq, Repr

def Entry.toObject (entry : Entry) : Object :=
  [("path", .str entry.path), ("size", .int entry.size), ("sha256", .str entry.sha256),
    ("source", .str entry.source)]

/-- The same with its keys sorted. -/
def Entry.sortedObject (entry : Entry) : Object :=
  [("path", .str entry.path), ("sha256", .str entry.sha256), ("size", .int entry.size),
    ("source", .str entry.source)]

/-- `text.encode("utf-8")`, of a text of ASCII characters. -/
def encodeAscii (text : String) : List UInt8 := text.toList.map fun x => UInt8.ofNat x.toNat

/-- `_canonical_inventory_bytes` -/
def canonicalInventoryBytes (entries : List Entry) : List UInt8 :=
  encodeAscii (Json.dumps .compact (.list (entries.map fun entry => .dict entry.sortedObject)))

/-- `sorted(entries, key=lambda item: item["path"])` -/
def sortedByPath (entries : List Entry) : List Entry :=
  entries.insertionSort fun a b => a.path ≤ b.path

def totalBytes (entries : List Entry) : Int := (entries.map Entry.size).sum

/-- `build_backup_inventory` -/
def buildBackupInventory (files : List Entry) : Object :=
  let entries := sortedByPath files
  [("schema", .str inventorySchema), ("algorithm", .str "sha256"),
    ("file_count", .int entries.length), ("total_bytes", .int (totalBytes entries)),
    ("digest", .str (sha256 (canonicalInventoryBytes entries))),
    ("files", .list (entries.map fun entry => .dict entry.toObject))]

/-- `backup_inventory_summary` -/
def backupInventorySummary (inventory : Object) : Object :=
  ["schema", "algorithm", "file_count", "total_bytes", "digest"].map fun key =>
    (key, (inventory.get? key).getD .null)

/-! ## Verification -/

/-- `set(item) == set(keys)` -/
def keysAre (item : Object) (keys : List String) : Bool :=
  item.all (fun e => e.1 ∈ keys) && keys.all fun key => item.any fun e => e.1 = key

/-- `value == text` -/
def isText (text : String) : Option Value → Bool
  | some (.str s) => s = text
  | _ => false

/-- What is read of an inventory. -/
structure Inventory where
  fileCount : Int
  totalBytes : Int
  digest : String
  files : List Value

/-- The contract of the inventory. -/
def readInventory (inventory : Object) : Except String Inventory :=
  match inventory.get? "file_count", inventory.get? "total_bytes", inventory.get? "digest",
    inventory.get? "files" with
  | some (.int fileCount), some (.int totalBytes), some (.str digest), some (.list files) =>
    if keysAre inventory ["schema", "algorithm", "file_count", "total_bytes", "digest", "files"] ∧
        isText inventorySchema (inventory.get? "schema") ∧
        isText "sha256" (inventory.get? "algorithm") ∧ 0 ≤ fileCount ∧ 0 ≤ totalBytes ∧
        isSha256 digest then
      .ok ⟨fileCount, totalBytes, digest, files⟩
    else .error "backup inventory contract is invalid"
  | _, _, _, _ => .error "backup inventory contract is invalid"

/-- One round of the loop over the entries, with the paths seen before. -/
def readEntry (seen : List String) : Value → Except String Entry
  | .dict item =>
    if ¬ keysAre item ["path", "size", "sha256", "source"] then
      .error "backup inventory entry is invalid"
    else
      match Object.get? item "path" with
      | some (.str path) =>
        if isAbsolute path ∨ ".." ∈ parts path ∨ (parts path).head? ≠ some "data" ∨
            asPosix path ≠ path ∨ path ∈ manifestNames ∨ path ∈ seen then
          .error "backup inventory path is invalid"
        else
          match Object.get? item "size" with
          | some (.int size) =>
            if size < 0 then .error "backup inventory size is invalid"
            else
              match Object.get? item "sha256" with
              | some (.str digest) =>
                if ¬ isSha256 digest then .error "backup inventory digest is invalid"
                else
                  match Object.get? item "source" with
                  | some (.str source) =>
                    if source ∈ inventorySources then .ok ⟨path, size, digest, source⟩
                    else .error "backup inventory source is invalid"
                  -- no item of a set
                  | some (.list _) => .error "TypeError"
                  | some (.dict _) => .error "TypeError"
                  | _ => .error "backup inventory source is invalid"
              | _ => .error "backup inventory digest is invalid"
          | _ => .error "backup inventory size is invalid"
      | _ => .error "backup inventory path is invalid"
  | _ => .error "backup inventory entry is invalid"

/-- The loop over the entries. -/
def readEntries (seen : List String) : List Value → Except String (List Entry)
  | [] => .ok []
  | v :: vs => do
    let entry ← readEntry seen v
    let entries ← readEntries (entry.path :: seen) vs
    return entry :: entries

/-- `actual_members` -/
def actualMembers (members : List Member) : Dict String Member :=
  members.foldl (fun d member => if member.isPayload then d.set member.name member else d)
    Dict.empty

/-- One round of the loop over the members. -/
def verifyMember (entries : List Entry) (item : String × Member) : Except String Unit :=
  match entries.find? fun entry => entry.path = item.1 with
  | none => .error "KeyError"
  | some entry =>
    if item.2.size ≠ entry.size then
      .error ("backup member size mismatch: " ++ strRepr item.1)
    else
      match item.2.content with
      | none => .error ("backup member is unreadable: " ++ strRepr item.1)
      | some bytes =>
        if sha256 bytes ≠ entry.sha256 then
          .error ("backup member digest mismatch: " ++ strRepr item.1)
        else .ok ()

/-- What `verify_backup_inventory` returns. -/
inductive Verdict
  | unverified
  | verified (summary : Object)

/-- The members are compared with the entries. -/
def verifyEntries (members : List Member) (entries : List Entry) : Except String Unit :=
  let actual := actualMembers members
  if (∃ item ∈ actual.items, item.1 ∉ entries.map Entry.path) ∨
      (∃ entry ∈ entries, entry.path ∉ actual.items.map Prod.fst) then
    .error "backup inventory does not match archive members"
  else do
    let _ ← (actual.items.insertionSort fun a b => a.1 ≤ b.1).mapM
      (verifyMember strRepr sha256 entries)
    return ()

/-- The inventory is compared with itself and with the members. -/
def verifyInventory (members : List Member) (inventory : Inventory) : Except String Unit := do
  let entries ← readEntries [] inventory.files
  if entries ≠ sortedByPath entries then throw "backup inventory is not canonical"
  else if inventory.fileCount ≠ entries.length ∨ inventory.totalBytes ≠ totalBytes entries ∨
      inventory.digest ≠ sha256 (canonicalInventoryBytes entries) then
    throw "backup inventory summary is invalid"
  else verifyEntries strRepr sha256 members entries

/-- `verify_backup_inventory` -/
def verifyBackupInventory (members : List Member) (manifest : Object) : Except String Verdict :=
  match manifest.get? "schema" with
  | some (.str schema) =>
    if schema = "legacy" ∨ schema = schemaV1 then .ok .unverified
    else if schema ≠ schemaV2 then .error "backup manifest schema is unsupported"
    else
      match manifest.get? "inventory" with
      | some (.dict object) => do
        let inventory ← readInventory object
        verifyInventory strRepr sha256 members inventory
        return .verified (backupInventorySummary object)
      | _ => .error "backup inventory is missing"
  -- no item of a set
  | some (.list _) => .error "TypeError"
  | some (.dict _) => .error "TypeError"
  | _ => .error "backup manifest schema is unsupported"

/-! ## Snapshots -/

/-- A regular file below the data directory. -/
structure DataFile where
  names : List String
  bytes : List UInt8
  below : names ≠ []
  valid : ∀ name ∈ names, name ≠ "" ∧ name ≠ "." ∧ name ≠ ".." ∧ '/' ∉ name.toList

/-- `_archive_path` -/
def DataFile.archivePath (file : DataFile) : String := joinPath ("data" :: file.names)

/-- The member that `_add_regular_member` adds. -/
def DataFile.member (file : DataFile) : Member where
  name := file.archivePath
  kind := .file
  size := file.bytes.length
  content := some file.bytes
  length := by
    rintro _ ⟨⟩
    rfl

/-- What `_add_regular_member` returns. -/
def DataFile.entry (file : DataFile) : Entry where
  path := file.archivePath
  size := file.bytes.length
  sha256 := sha256 file.bytes
  source := "file"

end

end Pandamonium.BackupArchive
