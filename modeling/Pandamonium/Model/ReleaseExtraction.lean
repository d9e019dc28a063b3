import Pandamonium.Library.FileSystem
import Pandamonium.Model.Value

/-!
# Extraction of a release

`UpdateExecutor._extract_release`: the target is made, the members of the archive are gone over in
order, directories and files being written at once and links put off, the links are made, the
directories get their mode, and an exception removes the target again.

An archive is the list of its members, as far as it can be read.
-/

set_option autoImplicit false

namespace Pandamonium.Extraction

open Pandamonium.Library

/-- What a member of an archive is. -/
inductive Kind (β : Type)
  | directory
  /-- A file with its mode and what can be read of it, and whether that is all. -/
  | file (mode : ℕ) (content : β) (complete : Bool)
  | symlink (linkname : String)
  /-- A hard link, a device or a pipe. -/
  | other

structure Member (β : Type) where
  name : String
  size : Int
  kind : Kind β

structure Archive (β : Type) where
  members : List (Member β)
  /-- Reading does not raise behind these. -/
  complete : Bool

inductive Failure
  /-- `UpdateError` -/
  | update (message : String)
  | os (e : OSError)
  /-- An exception of `tarfile`. -/
  | archive
  deriving DecidableEq, Repr

/-- `_MAX_ARCHIVE_FILES` -/
def maxArchiveFiles : ℕ := 20000

/-- `_MAX_EXTRACTED_BYTES` -/
def maxExtractedBytes : ℕ := 2000000000

/-- The modes that the umask leaves a new directory and a new file. -/
structure Umask where
  directoryMode : ℕ
  fileMode : ℕ

/-- `PurePosixPath(text).is_absolute()` -/
def isAbsolute (text : String) : Bool := text.toList.head? == some '/'

/-- `PurePosixPath(text).parts`, of a relative path. -/
def parts (text : String) : List String :=
  ((components text.toList).filter fun part => part ≠ ['.']).map String.ofList

/-- The text of a link as it is followed. -/
def linkText (text : String) : LinkText :=
  { absolute := isAbsolute text, parts := parts text }

/-- Where the loop over the members stands. -/
structure Progress (β : Type) where
  tree : FileTree β
  symlinks : List (Path × String)
  count : ℕ
  total : ℕ

variable {β : Type} (umask : Umask) (target : Path)

/-- `path.mkdir(parents=True, exist_ok=True)` -/
def makeDirectories (path : Path) (tree : FileTree β) : FileTree β × Option OSError :=
  tree.mkdirs umask.directoryMode true path.length path

/-- A regular member at its destination. -/
def extractFile (destination : Path) (mode : ℕ) (content : β) (complete : Bool)
    (tree : FileTree β) : FileTree β × Option Failure :=
  match makeDirectories umask destination.dropLast tree with
  | (tree, some e) => (tree, some (.os e))
  | (tree, none) =>
    match tree.writeFile umask.fileMode content destination with
    | .error e => (tree, some (.os e))
    | .ok tree =>
      if complete then
        match tree.chmod (mode &&& 0o755) destination with
        | .error e => (tree, some (.os e))
        | .ok tree => (tree, none)
      else (tree, some .archive)

/-- One round of the loop over the members. -/
def extractMember (member : Member β) (s : Progress β) : Progress β × Option Failure :=
  let s := { s with count := s.count + 1, total := s.total + member.size.toNat }
  if maxArchiveFiles < s.count ∨ maxExtractedBytes < s.total then
    (s, some (.update "release archive exceeds extraction limits"))
  else if isAbsolute member.name ∨ ".." ∈ parts member.name ∨ parts member.name = [] ∨
      (parts member.name).head? ≠ some "pandamonium" then
    (s, some (.update "release archive contains an unsafe path"))
  else
    let destination := target ++ parts member.name
    match member.kind with
    | .directory =>
      let (tree, failure) := makeDirectories umask destination s.tree
      ({ s with tree := tree }, failure.map .os)
    | .file mode content complete =>
      let (tree, failure) := extractFile umask destination mode content complete s.tree
      ({ s with tree := tree }, failure)
    | .symlink linkname =>
      if isAbsolute linkname ∨ ".." ∈ parts linkname then
        (s, some (.update "release archive contains an unsafe symlink"))
      else ({ s with symlinks := s.symlinks ++ [(destination, linkname)] }, none)
    | .other => (s, some (.update "release archive contains an unsupported member"))

/-- The loop over the members. -/
def extractMembers : List (Member β) → Progress β → Progress β × Option Failure
  | [], s => (s, none)
  | member :: members, s =>
    match extractMember umask target member s with
    | (s, some failure) => (s, some failure)
    | (s, none) => extractMembers members s

/-- One link; its text is not empty. -/
def makeLink (destination : Path) (text : String) (tree : FileTree β) :
    FileTree β × Option OSError :=
  match makeDirectories umask destination.dropLast tree with
  | (tree, some e) => (tree, some e)
  | (tree, none) =>
    if text = "" then (tree, some .notFound)
    else
      match tree.symlink (linkText text) destination with
      | .error e => (tree, some e)
      | .ok tree => (tree, none)

/-- The loop over the links. -/
def makeLinks : List (Path × String) → FileTree β → FileTree β × Option OSError
  | [], tree => (tree, none)
  | (destination, text) :: links, tree =>
    match makeLink umask destination text tree with
    | (tree, some e) => (tree, some e)
    | (tree, none) => makeLinks links tree

/-- The directories below the target, and itself, get the mode `0o755`. -/
def openDirectories (tree : FileTree β) : FileTree β :=
  match tree.resolve target with
  | .ok base => tree.chmodBelow 0o755 base
  | .error _ => tree

/-- The body of the `try`. -/
def extractAll (archive : Archive β) (tree : FileTree β) : FileTree β × Option Failure :=
  let start : Progress β := { tree := tree, symlinks := [], count := 0, total := 0 }
  match extractMembers umask target archive.members start with
  | (s, some failure) => (s.tree, some failure)
  | (s, none) =>
    if !archive.complete then (s.tree, some .archive)
    else
      match makeLinks umask s.symlinks s.tree with
      | (tree, some e) => (tree, some (.os e))
      | (tree, none) =>
        let tree := openDirectories target tree
        if tree.isDir (target ++ ["pandamonium"]) then (tree, none)
        else (tree, some (.update "release archive has no Pandamonium root"))

/-- `target.mkdir(parents=True, exist_ok=False)` -/
def makeTarget (tree : FileTree β) : FileTree β × Option OSError :=
  tree.mkdirs umask.directoryMode false target.length target

/-- `_extract_release` -/
def extractRelease (archive : Archive β) (tree : FileTree β) : FileTree β × Except Failure Path :=
  match makeTarget umask target tree with
  | (tree, some e) => (tree, .error (.os e))
  | (tree, none) =>
    match extractAll umask target archive tree with
    | (tree, some failure) => (tree.rmtree target, .error failure)
    | (tree, none) => (tree, .ok (target ++ ["pandamonium"]))

end Pandamonium.Extraction
