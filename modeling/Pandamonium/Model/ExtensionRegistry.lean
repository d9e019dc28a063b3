import Pandamonium.Library.TransitionSystem
import Pandamonium.Model.ExtensionManifest

/-!
# The extension registry

One file holds a record of each extension.  Every operation of `ExtensionRegistry` reads the whole
file under the lock, validates it record by record, drops the records that do not pass, and writes
the file as a whole.  A record is enabled when it is registered; `disable` empties it and keeps it,
and `unregister` removes it.

What the registry says about capability inventories is advisory; the functions that build and check
them are parameters.
-/

set_option autoImplicit false

namespace Pandamonium.Extensions

open Pandamonium.Library

/-- `src.extension_capability_inventory` -/
structure Inventories where
  /-- `build_capability_inventory` -/
  build : Reconciled → Except Failure Value
  /-- `validate_capability_inventory` and `inventory_is_current`, `none` where it is stale. -/
  current : Value → Manifest → Except Failure (Option Value)

/-- `REGISTRY_VERSION` -/
def registryVersion : String := "jos-extension-registry.v1"

structure Record where
  enabled : Bool
  manifest : Manifest
  catalogVersion : String
  effectiveCapabilities : Capabilities
  admittedSkills : List AdmittedSkill
  capabilityInventory : Option Value

/-- The names of the capabilities of a record. -/
def Record.names (r : Record) : List String := r.effectiveCapabilities.names

def Record.json (r : Record) : Value :=
  .dict [("enabled", .bool r.enabled), ("manifest", r.manifest.json),
    ("catalog_version", .str r.catalogVersion),
    ("effective_capabilities", .list (r.effectiveCapabilities.items.map Capability.json)),
    ("admitted_skills", .list (r.admittedSkills.map AdmittedSkill.json)),
    ("capability_inventory", r.capabilityInventory.getD .null)]

abbrev Records := Dict String Record

/-- What is in the file, `none` where it is missing or cannot be read as JSON. -/
abbrev RegistryFile := Option Value

/-- What `_write` leaves in the file. -/
def Records.json (records : Records) : Value :=
  .dict [("schema_version", .str registryVersion),
    ("extensions", .dict (records.items.map fun item => (item.1, item.2.json)))]

section Reading

variable (it : Interpreter) (inv : Inventories)

/-- `d[key]` -/
def member (d : Object) (key : String) : Except Failure Value :=
  match d.get? key with
  | none => .error .key
  | some v => .ok v

/-- What `for raw in v` goes through. -/
def iterate : Value → Except Failure (List Value)
  | .list items => .ok items
  | .dict items => .ok (items.map fun item => .str item.1)
  | .str s => .ok (s.toList.map fun x => .str (String.ofList [x]))
  | _ => .error .type

/-- Capabilities with different names, none of them seen before. -/
structure Unseen (seen : List String) extends Capabilities where
  unseen : ∀ capability ∈ items, capability.name ∉ seen

def Unseen.none (seen : List String) : Unseen seen :=
  { Capabilities.none with unseen := by simp [Capabilities.none] }

/-- A capability before others. -/
def Unseen.cons {seen : List String} (capability : Capability) (fresh : capability.name ∉ seen)
    (rest : Unseen (capability.name :: seen)) : Unseen seen where
  items := capability :: rest.items
  distinct := by
    refine List.nodup_cons.mpr ⟨fun h => ?_, rest.distinct⟩
    obtain ⟨other, hother, hname⟩ := List.mem_map.mp h
    exact rest.unseen other hother (hname ▸ List.mem_cons_self)
  unseen := by
    intro other hother
    rcases List.mem_cons.mp hother with rfl | hother
    · exact fresh
    · exact fun h => rest.unseen other hother (List.mem_cons_of_mem _ h)

/-- The schema of a capability of a record, after the names that were seen. -/
def readSchema (seen : List String) (raw : Object) :
    Except Failure { schema : Tool // schema.name ∉ seen } := do
  strictFields raw ["name", "schema", "permission_mode"]
    "extension_registry_capability_unknown_field"
  let schema ← normalizeToolSchema it (← member raw "schema")
  refuseIf (¬ isText (field raw "name") schema.name) "extension_registry_capability_invalid"
  if fresh : schema.name ∉ seen then .ok ⟨schema, fresh⟩
  else .error (.contract "extension_registry_capability_invalid")

/-- The capabilities of a record, after the names that were seen. -/
def readCapabilities (seen : List String) : List Value → Except Failure (Unseen seen)
  | [] => .ok (.none seen)
  | .dict raw :: raws => do
    let ⟨schema, fresh⟩ ← readSchema it seen raw
    let permissionMode ← permissionMode (field raw "permission_mode")
      "extension_registry_capability_invalid"
    return .cons ⟨schema, permissionMode⟩ fresh (← readCapabilities (schema.name :: seen) raws)
  -- What is not an object has a member that is no field, or has no `raw["schema"]`.
  | _ :: _ => .error .type

/-- A skill of a record, after the ids that were seen. -/
def readSkill (seen : List String) (raw : Value) : Except Failure AdmittedSkill := do
  let skill ← object raw "extension_registry_skill_invalid"
  strictFields skill
    ["id", "source_path", "owner_scope", "platforms", "requires_toolsets", "permission_mode"]
    "extension_registry_skill_unknown_field"
  let id ← boundedText it (field skill "id") "extension_skill_id_invalid" 64
  refuseIf (isSkillId id = false ∨ id ∈ seen) "extension_registry_skill_invalid"
  let permissionMode ← permissionMode (field skill "permission_mode")
    "extension_registry_skill_invalid"
  return { toSkill := ← skillOf it id skill, permissionMode }

def readSkills (seen : List String) : List Value → Except Failure (List AdmittedSkill)
  | [] => .ok []
  | raw :: raws => do
    let skill ← readSkill it seen raw
    return skill :: (← readSkills (seen ++ [skill.id]) raws)

/-- Whether the skills of a record fit the descriptor of its manifest. -/
def skillsFit (descriptor : Descriptor) (enabled : Bool) (capabilities : Capabilities)
    (skills : List AdmittedSkill) : Bool :=
  match descriptor with
  | .skillBundle _ included =>
    capabilities.items.isEmpty &&
      (if enabled then
        decide ((∀ skill ∈ skills, skill.id ∈ included) ∧
          ∀ id ∈ included, id ∈ skills.map fun skill => skill.id)
      else skills.isEmpty)
  | _ => skills.isEmpty

/-- `except ExtensionContractError: None` -/
def orNoInventory : Except Failure (Option Value) → Except Failure (Option Value)
  | .error (.contract _) => .ok none
  | result => result

/-- The inventory that is kept, or built where a record has none. -/
def readInventory (kept : Value) (reconciled : Reconciled) : Except Failure (Option Value) :=
  match kept with
  | .null =>
    if reconciled.capabilities.items.isEmpty ∧ reconciled.admittedSkills.isEmpty then .ok none
    else orNoInventory (some <$> inv.build reconciled)
  | kept => orNoInventory (inv.current kept reconciled.manifest)

/-- A record of the file. -/
def readRecord (extensionId : String) : Value → Except Failure Record
  | .dict record => do
    strictFields record
      ["enabled", "manifest", "catalog_version", "effective_capabilities", "admitted_skills",
        "capability_inventory"] "extension_registry_record_unknown_field"
    let manifest ← validateExtensionManifest it (← member record "manifest")
    refuseIf (extensionId ≠ manifest.extensionId) "extension_registry_record_invalid"
    let enabled ←
      match asBool (← member record "enabled") with
      | none => .error (.contract "extension_registry_record_invalid")
      | some enabled => .ok enabled
    let raws ← iterate (← member record "effective_capabilities")
    let ⟨effectiveCapabilities, _⟩ ← readCapabilities it [] raws
    let raws ← iterate ((Object.get? record "admitted_skills").getD (.list []))
    let admittedSkills ← readSkills it [] raws
    refuseIf (skillsFit manifest.descriptor enabled effectiveCapabilities admittedSkills = false)
      "extension_registry_skill_invalid"
    let capabilityInventory ← readInventory inv (field record "capability_inventory")
      { manifest, catalogVersion := "", capabilities := effectiveCapabilities, admittedSkills }
    let catalogVersion ← boundedText it (← member record "catalog_version")
      "extension_catalog_release_invalid" 80
    return { enabled, manifest, catalogVersion, effectiveCapabilities, admittedSkills,
             capabilityInventory }
  -- What is not an object has a member that is no field, or has no `record["manifest"]`.
  | _ => .error .type

/-- One turn of the loop over the records: an invalid record is passed over.  `none` where the
reading raises. -/
def keepRecord (records : Records) (item : String × Value) : Option Records :=
  match readRecord it inv item.1 item.2 with
  | .ok record => some (records.set item.1 record)
  | .error (.contract _) => some records
  | .error .type => some records
  | .error .key => some records
  | .error _ => none

/-- `_read` -/
def read : RegistryFile → Option Records
  | none => some Dict.empty
  | some (.dict state) =>
    if isText (field state "schema_version") registryVersion then
      match field state "extensions" with
      | .dict extensions => extensions.foldlM (keepRecord it inv) Dict.empty
      | _ => some Dict.empty
    else some Dict.empty
  -- Nothing else has a `get`.
  | some _ => none

/-! ## The operations -/

/-- The names in force in the other records. -/
def namesInForce (records : Records) (extensionId : String) : List String :=
  (records.items.filter fun item => item.1 ≠ extensionId && item.2.enabled).flatMap
    fun item => item.2.names

/-- `register`, on the records of the file. -/
def register (manifest resolvedCatalog : Value) (sourceRevision : String) (healthAvailable : Bool)
    (records : Records) : Except Failure Records := do
  let reconciled ← reconcileExtensionCatalog it manifest resolvedCatalog sourceRevision
    healthAvailable
  let capabilityInventory ← inv.build reconciled
  let extensionId := reconciled.manifest.extensionId
  let record : Record :=
    { enabled := true, manifest := reconciled.manifest,
      catalogVersion := reconciled.catalogVersion,
      effectiveCapabilities := reconciled.capabilities,
      admittedSkills := reconciled.admittedSkills,
      capabilityInventory := some capabilityInventory }
  refuseIf (∃ name ∈ record.names, name ∈ namesInForce records extensionId)
    "extension_registry_capability_conflict"
  return records.set extensionId record

/-- A record with nothing in force. -/
def Record.disabled (r : Record) : Record :=
  { r with enabled := false, effectiveCapabilities := .none, admittedSkills := [] }

/-- `disable`, `none` where there is no such record. -/
def disable (extensionId : String) (records : Records) : Option Records :=
  (records.get? extensionId).map fun record => records.set extensionId record.disabled

/-- `unregister`, `none` where there is no such record. -/
def unregister (extensionId : String) (records : Records) : Option Records :=
  (records.get? extensionId).map fun _ => records.erase extensionId

/-- `effective_capabilities`: by its name, each capability and whose it is. -/
def effectiveCapabilities (engagedIds : Option (List String)) (records : Records) :
    Dict String (String × Capability) :=
  (records.items.filter fun item =>
      item.2.enabled && (engagedIds.map fun ids => ids.contains item.1).getD true).foldl
    (fun result item =>
      item.2.effectiveCapabilities.items.foldl
        (fun result capability => result.set capability.name (item.1, capability)) result)
    Dict.empty

inductive Operation
  | register (manifest resolvedCatalog : Value) (sourceRevision : String) (healthAvailable : Bool)
  | disable (extensionId : String)
  | unregister (extensionId : String)

/-- The records that an operation writes, `none` where it writes nothing. -/
def Operation.apply (records : Records) : Operation → Option Records
  | .register manifest resolvedCatalog sourceRevision healthAvailable =>
    (Extensions.register it inv manifest resolvedCatalog sourceRevision healthAvailable
      records).toOption
  | .disable extensionId => Extensions.disable extensionId records
  | .unregister extensionId => Extensions.unregister extensionId records

/-- Whether an operation that writes nothing has raised; the others return `False`. -/
def Operation.refuses : Operation → Bool
  | .register _ _ _ _ => true
  | .disable _ => false
  | .unregister _ => false

/-- An operation, whether it can read the file, and whether it can write it. -/
structure Label where
  operation : Operation
  readable : Bool
  writable : Bool

/-- The operation as a whole, and whether it returns.  What cannot be read is taken to be empty. -/
def perform (file : RegistryFile) (a : Label) : RegistryFile × Bool :=
  match read it inv (if a.readable then file else none) with
  | none => (file, false)
  | some records =>
    match a.operation.apply it inv records with
    | none => (file, !a.operation.refuses)
    | some written => if a.writable then (some written.json, true) else (file, false)

def step (file : RegistryFile) (a : Label) : Option RegistryFile :=
  some (perform it inv file a).1

/-- The runs from a file with no extension in it. -/
def registry : TransitionSystem RegistryFile Label where
  init := fun file => read it inv file = some Dict.empty
  step := step it inv

end Reading

/-! ## Extensions to run the definitions with -/

/-- Inventories with nothing in them, and always current. -/
def Inventories.plain : Inventories where
  build := fun _ => .ok (.dict [])
  current := fun v _ => .ok (some v)

/-- A revision of forty zeros. -/
def plainRevision : String := "0000000000000000000000000000000000000000"

/-- The manifest of a web extension with one tool. -/
def plainManifest (extensionId toolName entrypoint : String) : Value :=
  .dict [("protocol_version", .str manifestVersion), ("extension_id", .str extensionId),
    ("name", .str "Notes"), ("version", .str "1.0"),
    ("source", .dict [("url", .str "https://example.com/notes"), ("revision", .str "self")]),
    ("runtime", .dict [("type", .str "web"), ("entrypoint", .str entrypoint)]),
    ("capabilities", .dict [("descriptor", .dict [("type", .str "inline")]),
      ("schemas", .list [.dict [("name", .str toolName),
        ("parameters", .dict [("type", .str "object")])]])]),
    ("permissions", .dict [("default", .str "read_only"), ("capabilities", .dict [])]),
    ("health", .dict [("type", .str "catalog"), ("timeout_seconds", .int 5)]),
    ("lifecycle", .dict [("install", .list []), ("start", .list []), ("stop", .list []),
      ("remove", .list [])]),
    ("data_boundaries", .dict [("read", .list []), ("write", .list []), ("network", .list [])]),
    ("removal", .dict [("remove_paths", .list []), ("preserve_paths", .list [])]),
    ("rollback", .dict [("strategy", .str "pinned_revision"), ("retain_revisions", .int 2)])]

end Pandamonium.Extensions
