import Pandamonium.Model.ExtensionRegistry

/-!
# The lifecycle of extensions

`ExtensionLifecycleManager` keeps the installed extensions in a file of its own, beside the registry:
which revision of an extension is active and whether it is enabled.  An operation reads that state,
asks the adapter of the extension, calls the registry and writes the state, in this order, and any
of these can fail.  What happens outside the two files is an answer: the trees of the revisions on
disk, what the adapter says and does, and the clock.
-/

set_option autoImplicit false

namespace Pandamonium.ExtensionLifecycle

open Pandamonium.Library
open Pandamonium.Extensions (Interpreter Inventories Manifest RegistryFile Reconciled)

/-- What is kept of a revision that came as a package. -/
structure Package where
  sourceRevision : String
  contentDigest : String
  deriving DecidableEq, Repr

structure Installation where
  sourceUrl : String
  activeRevision : String
  packageRevisions : Dict String Package
  enabled : Bool
  ownerScope : String
  admittedSkills : List String
  history : List String
  installedAt : String
  updatedAt : String

/-- The `extensions` of the lifecycle file. -/
abbrev Installations := Dict String Installation

/-- The source revision of an installed revision. -/
def Installation.sourceRevision (record : Installation) (revision : String) : String :=
  match record.packageRevisions.get? revision with
  | some package => package.sourceRevision
  | none => revision

/-- A plan to install a revision, or to upgrade to it. -/
structure SourcePlan where
  upgrade : Bool
  extensionId : String
  sourceUrl : String
  sourceRevision : String
  packageRevision : Option String
  contentDigest : String
  operatorId : String

inductive Operation
  | source (plan : SourcePlan)
  | enable (extensionId : String)
  | disable (extensionId : String)
  | rollback (extensionId targetRevision : String)
  | uninstall (extensionId : String)

/-- How the steps of an operation turn out. -/
structure Answers where
  /-- The staged tree is moved into place, and the digest and the manifest are those of the plan. -/
  staged : Bool
  /-- The manifest of the revision, as it is on disk. -/
  manifestFile : Option Value
  /-- The manifest of the active revision. -/
  activeManifestFile : Option Value
  /-- There is an adapter for the manifest. -/
  supported : Bool
  /-- The digest of a package is the one it was installed with. -/
  intact : Bool
  /-- The catalog that the adapter finds, and whether it is healthy. -/
  validated : Option (Value × Bool)
  /-- The catalog is the one of the plan. -/
  sameCatalog : Bool
  activates : Bool
  commits : Bool
  deactivates : Bool
  /-- `registry.snapshot()` can read the file. -/
  snapshotReadable : Bool
  registryReadable : Bool
  registryWritable : Bool
  /-- The first reading of the state. -/
  stateReadable : Bool
  /-- The reading of the state after the registry was called. -/
  stateReadableAgain : Bool
  stateWritable : Bool
  /-- The tree of the extension is moved to the removed ones, or is not there. -/
  removes : Bool
  now : String

/-- The two files. -/
structure World where
  registry : RegistryFile
  lifecycle : Installations

section Operations

variable (it : Interpreter) (inv : Inventories)

/-- `_load_manifest` -/
def loadManifest (file : Option Value) : Option Manifest :=
  file.bind fun v => (Extensions.validateExtensionManifest it v).toOption

/-- `_read_state`.  What cannot be read is taken to be empty. -/
def readState (readable : Bool) (w : World) : Installations :=
  if readable then w.lifecycle else Dict.empty

/-- `_write_state` -/
def writeState (a : Answers) (state : Installations) (w : World) : World :=
  if a.stateWritable then { w with lifecycle := state } else w

/-- A call of the registry, and whether it returns. -/
def callRegistry (a : Answers) (operation : Extensions.Operation) (w : World) : World × Bool :=
  let (registry, returns) := Extensions.perform it inv w.registry
    ⟨operation, a.registryReadable, a.registryWritable⟩
  ({ w with registry }, returns)

/-- The record that `register` returns is made of this. -/
def reconciled (manifest : Manifest) (catalog : Value) (revision : String) : Option Reconciled :=
  (Extensions.reconcileExtensionCatalog it manifest.json catalog revision true).toOption

/-- `_activate_and_register`, with what was registered where it returns. -/
def activateAndRegister (a : Answers) (manifest : Manifest) (catalog : Value) (revision : String)
    (w : World) : World × Option Reconciled :=
  if a.activates = false then (w, none)
  else
    let (w', returns) := callRegistry it inv a (.register manifest.json catalog revision true) w
    -- Where the registration raises, the activation is taken back and the error goes on.
    if returns && a.commits then (w', reconciled it manifest catalog revision) else (w', none)

/-- Whether both manifests are for adapters of one kind. -/
def sameAdapter (old manifest : Manifest) : Bool :=
  decide (old.runtimeType = manifest.runtimeType) &&
    match old.descriptor, manifest.descriptor with
    | .inline, .inline => true
    | .liveCatalog _, .liveCatalog _ => true
    | .mcp _, .mcp _ => true
    | .openapi _, .openapi _ => true
    | .skillBundle _ _, .skillBundle _ _ => true
    | _, _ => false

/-- `history[-retain:]` -/
def lastOf (retain : Int) (history : List String) : List String :=
  history.drop (history.length - retain.toNat)

/-- The record of a revision that was made active, after the record there was. -/
def installed (plan : SourcePlan) (record : Reconciled) (ownerScope now : String)
    (previous : Option Installation) : Installation :=
  let packageRevision := plan.packageRevision.getD plan.sourceRevision
  let history := (previous.map Installation.history).getD []
  let history :=
    match previous.map Installation.activeRevision with
    | none => history
    | some oldRevision =>
      if oldRevision ≠ packageRevision ∧ oldRevision ∉ history then history ++ [oldRevision]
      else history
  let revisions := (previous.map Installation.packageRevisions).getD Dict.empty
  { sourceUrl := plan.sourceUrl
    activeRevision := packageRevision
    packageRevisions :=
      match plan.packageRevision with
      | none => revisions
      | some revision => revisions.set revision ⟨plan.sourceRevision, plan.contentDigest⟩
    enabled := true
    ownerScope
    admittedSkills := record.admittedSkills.map fun skill => skill.id
    history := lastOf record.manifest.retainRevisions history
    installedAt := (previous.map Installation.installedAt).getD now
    updatedAt := now }

/-- Whether a plan may go on, after the record there is. -/
def mayActivate (a : Answers) (plan : SourcePlan) (manifest : Manifest) :
    Option Installation → Bool
  | none => !plan.upgrade && a.supported
  | some previous =>
    a.supported && decide (previous.ownerScope = "" ∨ previous.ownerScope = plan.operatorId) &&
      match loadManifest it a.activeManifestFile with
      | none => false
      | some old => sameAdapter old manifest

/-- `_activate_source_plan` -/
def activateSourcePlan (plan : SourcePlan) (a : Answers) (w : World) : World :=
  match if a.staged then loadManifest it a.manifestFile else none with
  | none => w
  | some manifest =>
    let previous := (readState a.stateReadable w).get? plan.extensionId
    if mayActivate it a plan manifest previous then
      match a.validated with
      | some (catalog, true) =>
        if a.sameCatalog = false then w
        else match activateAndRegister it inv a manifest catalog plan.sourceRevision w with
          | (w', none) => w'
          | (w', some record) =>
            let state := readState a.stateReadableAgain w'
            let previous := (state.get? plan.extensionId).or previous
            writeState a
              (state.set plan.extensionId
                (installed plan record plan.operatorId a.now previous)) w'
      | _ => w
    else w

/-- What `_enable` and `_rollback` ask the adapter for, and the revision of the source: the
manifest, the catalog and the revision, `none` where they raise. -/
def validated (a : Answers) (record : Installation) (revision : String) :
    Option (Manifest × Value × String) :=
  match loadManifest it a.manifestFile, a.validated with
  | some manifest, some (catalog, true) =>
    if a.supported && (a.intact || (record.packageRevisions.get? revision).isNone) then
      some (manifest, catalog, record.sourceRevision revision)
    else none
  | _, _ => none

/-- Whether `registry.snapshot()` lists the extension, `none` where it raises. -/
def listed (a : Answers) (extensionId : String) (w : World) : Option Bool :=
  (Extensions.read it inv (if a.snapshotReadable then w.registry else none)).map fun records =>
    (records.get? extensionId).isSome

/-- `_enable` -/
def enable (extensionId : String) (a : Answers) (w : World) : World :=
  match (readState a.stateReadable w).get? extensionId, loadManifest it a.manifestFile with
  | some record, some _ =>
    match if record.enabled then listed it inv a extensionId w else some false with
    | none => w
    | some true => w
    | some false =>
      match validated it a record record.activeRevision with
      | none => w
      | some (manifest, catalog, sourceRevision) =>
        match activateAndRegister it inv a manifest catalog sourceRevision w with
        | (w', none) => w'
        | (w', some _) =>
          let state := readState a.stateReadableAgain w'
          match state.get? extensionId with
          -- `state["extensions"][extension_id]` raises.
          | none => w'
          | some record =>
            writeState a
              (state.set extensionId { record with enabled := true, updatedAt := a.now }) w'
  | _, _ => w

/-- Whether `_disable` and `_uninstall` come to the registry. -/
def deactivated (a : Answers) : Bool :=
  (loadManifest it a.manifestFile).isSome && a.supported && a.deactivates

/-- `_disable` -/
def disable (extensionId : String) (a : Answers) (w : World) : World :=
  let state := readState a.stateReadable w
  match state.get? extensionId with
  | none => w
  | some record =>
    if record.enabled = false then (callRegistry it inv a (.disable extensionId) w).1
    else if deactivated it a = false then w
    else match callRegistry it inv a (.disable extensionId) w with
      | (w', false) => w'
      | (w', true) =>
        writeState a
          (state.set extensionId { record with enabled := false, updatedAt := a.now }) w'

/-- The record of an extension whose revision was gone back to. -/
def rolledBack (targetRevision now : String) (record : Reconciled) (current : Installation) :
    Installation :=
  { current with
    history := current.history.filter (· ≠ targetRevision) ++ [current.activeRevision]
    activeRevision := targetRevision
    enabled := true
    admittedSkills := record.admittedSkills.map fun skill => skill.id
    updatedAt := now }

/-- `_rollback` -/
def rollback (extensionId targetRevision : String) (a : Answers) (w : World) : World :=
  let state := readState a.stateReadable w
  match state.get? extensionId with
  | none => w
  | some current =>
    if targetRevision ∉ current.history ∨ current.activeRevision = targetRevision then w
    else match validated it a current targetRevision with
      | none => w
      | some (manifest, catalog, sourceRevision) =>
        match activateAndRegister it inv a manifest catalog sourceRevision w with
        | (w', none) => w'
        | (w', some record) =>
          writeState a
            (state.set extensionId (rolledBack targetRevision a.now record current)) w'

/-- `_uninstall` -/
def uninstall (extensionId : String) (a : Answers) (w : World) : World :=
  let state := readState a.stateReadable w
  match state.get? extensionId with
  | none => (callRegistry it inv a (.unregister extensionId) w).1
  | some _ =>
    if deactivated it a = false then w
    else match callRegistry it inv a (.unregister extensionId) w with
      | (w', false) => w'
      | (w', true) => if a.removes then writeState a (state.erase extensionId) w' else w'

/-- `_execute_operation` -/
def executeOperation (operation : Operation) (a : Answers) (w : World) : World :=
  match operation with
  | .source plan => activateSourcePlan it inv plan a w
  | .enable extensionId => enable it inv extensionId a w
  | .disable extensionId => disable it inv extensionId a w
  | .rollback extensionId targetRevision => rollback it inv extensionId targetRevision a w
  | .uninstall extensionId => uninstall it inv extensionId a w

/-- The runs from an empty registry and an empty state. -/
def manager : TransitionSystem World (Operation × Answers) where
  init := fun w => Extensions.read it inv w.registry = some Dict.empty ∧ w.lifecycle = Dict.empty
  step := fun w l => some (executeOperation it inv l.1 l.2 w)

end Operations

/-! ## An operation to run the definitions with -/

/-- Every step succeeds, for the manifest of a web extension with one tool. -/
def plainAnswers : Answers where
  staged := true
  manifestFile := some (Extensions.plainManifest "notes" "save" "web")
  activeManifestFile := some (Extensions.plainManifest "notes" "save" "web")
  supported := true
  intact := true
  validated := some (.null, true)
  sameCatalog := true
  activates := true
  commits := true
  deactivates := true
  snapshotReadable := true
  registryReadable := true
  registryWritable := true
  stateReadable := true
  stateReadableAgain := true
  stateWritable := true
  removes := true
  now := "now"

/-- The plan to install the extension in a revision, or to upgrade it. -/
def plainPlan (upgrade : Bool) (revision : String) : SourcePlan where
  upgrade
  extensionId := "notes"
  sourceUrl := "https://example.com/notes"
  sourceRevision := revision
  packageRevision := none
  contentDigest := ""
  operatorId := "owner"

end Pandamonium.ExtensionLifecycle
