import Pandamonium.Model.Value

/-!
# Folders that become projects

`migrate_session_folders` of `src/project_registry.py`, with `project_id_for_name` and what
`add_project` does without a path.  The projects are those that `_read_store` reads.
-/

set_option autoImplicit false

namespace Pandamonium.Projects

structure Project where
  id : String
  name : String
  path : String
  /-- `_read_store` skips an entry without an identifier. -/
  identified : id ≠ ""
  deriving DecidableEq

/-- A row of `sessions`. -/
structure Session where
  folder : Option String
  projectId : Option String
  deriving DecidableEq

/-- `str.casefold` -/
structure Casefold where
  fold : String → String
  eq_empty : ∀ text, fold text = "" → text = ""

/-- What a turn of the loop meets. -/
structure Answer where
  /-- The real path of the project folder, if it is inside of the projects root and is made. -/
  path : Option String
  /-- `uuid.uuid4().hex[:8]` -/
  id : String
  identified : id ≠ ""
  /-- Whether `projects.json` is written. -/
  written : Bool
  /-- Whether the commit of the turn succeeds. -/
  commits : Bool

/-- `_NAME_RE`, on a name that does not end in a newline. -/
def nameRe (name : String) : Bool :=
  decide (1 ≤ name.length ∧ name.length ≤ 64) && name.toList.all (· ∉ ['/', '\\', '\x00'])

/-- `_EXCLUDED_FOLDER_NAMES` -/
def excludedFolderNames : List String := ["tasks", "assistant"]

/-- `add_project(name=name)`: the project, or none where it raises. -/
def addProject (name : String) (a : Answer) (projects : List Project) : Option Project :=
  let candidate := strip name
  if candidate ∈ ["", ".", ".."] ∨ nameRe candidate = false then none
  else
    match a.path with
    | none => none
    | some path =>
      if projects.any (·.path == path) || !a.written then none
      else some ⟨a.id, String.ofList (candidate.toList.take 80), path, a.identified⟩

/-- `project_id IS NULL OR project_id = ''` -/
def Session.unbound (s : Session) : Bool := s.projectId == none || s.projectId == some ""

/-- The filter of the update. -/
def Session.selected (folder : String) (s : Session) : Bool := s.folder == some folder && s.unbound

/-- What the loop reads and writes. -/
structure Progress where
  projects : List Project
  sessions : List Session
  migrated : ℕ
  bound : ℕ

/-- The sessions of a folder are bound, if the database commits. -/
def Progress.bind (p : Progress) (folder projectId : String) (commits : Bool) : Progress :=
  { p with
    bound := p.bound + p.sessions.countP (Session.selected folder)
    sessions :=
      if commits then
        p.sessions.map fun s =>
          if s.selected folder then { s with projectId := some projectId } else s
      else p.sessions }

section Casefold

variable (casefold : Casefold)

/-- `project_id_for_name` -/
def projectIdForName (name : String) (projects : List Project) : Option String :=
  let wanted := casefold.fold (strip name)
  if wanted = "" then none
  else (projects.find? fun p => casefold.fold (strip p.name) == wanted).map Project.id

/-- `folder.casefold() in _EXCLUDED_FOLDER_NAMES` -/
def isExcluded (folder : String) : Bool := decide (casefold.fold folder ∈ excludedFolderNames)

/-- One turn of the loop. -/
def convert (p : Progress) (folder : String) (a : Answer) : Progress :=
  if isExcluded casefold folder then p
  else
    match projectIdForName casefold folder p.projects with
    | some projectId => p.bind folder projectId a.commits
    | none =>
      match addProject folder a p.projects with
      | none => p
      | some project =>
        { p with projects := p.projects ++ [project], migrated := p.migrated + 1 }.bind
          folder project.id a.commits

def convertAll (p : Progress) : List (String × Answer) → Progress
  | [] => p
  | turn :: turns => convertAll (convert casefold p turn.1 turn.2) turns

/-- What the query for the distinct folders answers, in the order of the database. -/
structure Rows (sessions : List Session) where
  folders : List String
  nodup : folders.Nodup
  mem_iff : ∀ folder, folder ∈ folders ↔ ∃ s ∈ sessions, s.folder = some folder

/-- The turns of the loop. -/
def Rows.turns {sessions : List Session} (rows : Rows sessions) (answers : ℕ → Answer) :
    List (String × Answer) :=
  ((rows.folders.map strip).filter (· ≠ "")).zipIdx.map fun row => (row.1, answers row.2)

/-- `projects.json` and the database. -/
structure State where
  projects : List Project
  /-- `session_folder_migration` -/
  flag : Bool
  sessions : List Session

structure Report where
  migrated : ℕ
  bound : ℕ
  alreadyDone : Bool

/-- `migrate_session_folders`: the report, or none where the flag cannot be written. -/
def migrateSessionFolders (s : State) (rows : Rows s.sessions) (answers : ℕ → Answer)
    (recorded : Bool) : Option Report × State :=
  if s.flag then (some ⟨0, 0, true⟩, s)
  else
    let p := convertAll casefold ⟨s.projects, s.sessions, 0, 0⟩ (rows.turns answers)
    (if recorded then some ⟨p.migrated, p.bound, false⟩ else none,
      ⟨p.projects, recorded, p.sessions⟩)

end Casefold

end Pandamonium.Projects
