import Pandamonium.Library.Dict
import Pandamonium.Model.Value

/-!
# Extension manifests

A manifest is a JSON object that says where an extension comes from, how it runs, what it offers and
what it may touch.  `validate_extension_manifest` normalises it or refuses it, and
`reconcile_extension_catalog` joins it with the catalog that its descriptor names.  A validated
manifest is a structure here, and `Manifest.json` is the object that is written to disk.
-/

set_option autoImplicit false

namespace Pandamonium.Extensions

open Pandamonium.Library

/-- What a check raises. -/
inductive Failure
  /-- `ExtensionContractError` -/
  | contract (code : String)
  /-- `TypeError` -/
  | type
  /-- `KeyError` -/
  | key
  /-- `ValueError` -/
  | value
  deriving DecidableEq, Repr

/-- What `urlparse` finds in a text. -/
structure Url where
  scheme : String
  netloc : String
  username : Option String
  password : Option String

/-- What the interpreter provides. -/
structure Interpreter where
  runtime : Runtime
  /-- `urlparse`, `none` where it raises `ValueError`. -/
  urlparse : String → Option Url

/-- `MANIFEST_VERSION` -/
def manifestVersion : String := "jos-extension.v1"

section Checks

variable (it : Interpreter)

/-- `if p: raise ExtensionContractError(code)` -/
def refuseIf (p : Prop) [Decidable p] (code : String) : Except Failure Unit :=
  if p then .error (.contract code) else .ok ()

/-- `d.get(key)` -/
def field (d : Object) (key : String) : Value := (d.get? key).getD .null

/-- `isinstance(v, str)`, and the text. -/
def asText : Value → Option String
  | .str s => some s
  | _ => none

/-- Whether `v == text`. -/
def isText (v : Value) (text : String) : Prop := asText v = some text

instance (v : Value) (text : String) : Decidable (isText v text) :=
  inferInstanceAs (Decidable (asText v = some text))

/-- `isinstance(v, bool)`, and the truth value. -/
def asBool : Value → Option Bool
  | .bool b => some b
  | _ => none

/-- `isinstance(v, int) and not isinstance(v, bool)`, and the integer. -/
def asInt : Value → Option Int
  | .int i => some i
  | _ => none

/-- `isinstance(v, list)`, and the items. -/
def asList : Value → Option (List Value)
  | .list items => some items
  | _ => none

/-- `str(v or "")` -/
def textOf (v : Value) : String := if v.truthy then v.text it.runtime else ""

/-- Whether `hash(v)` raises `TypeError`. -/
def unhashable : Value → Bool
  | .list _ => true
  | .dict _ => true
  | _ => false

/-- `_object` -/
def object (v : Value) (code : String) : Except Failure Object :=
  match v with
  | .dict d => .ok d
  | _ => .error (.contract code)

/-- `_strict_fields` -/
def strictFields (d : Object) (allowed : List String) (code : String) : Except Failure Unit :=
  refuseIf (∃ item ∈ d, item.1 ∉ allowed) code

/-- `_bounded_text` -/
def boundedText (v : Value) (code : String) (maximum : ℕ) : Except Failure String :=
  let text := strip (textOf it v)
  if text = "" ∨ maximum < text.length ∨ text.toList.any (·.toNat < 32) then
    .error (.contract code)
  else .ok text

/-- `Path(text).parts`, of a relative path. -/
def pathParts (text : String) : List (List Char) :=
  (components text.toList).filter fun part => part ≠ ['.']

/-- `Path(text).as_posix()`, of a relative path. -/
def asPosix (text : String) : String :=
  if pathParts text = [] then "."
  else "/".intercalate ((pathParts text).map String.ofList)

/-- `_safe_relative_path` -/
def safeRelativePath (v : Value) (code : String) : Except Failure String := do
  let text ← boundedText it v code 500
  refuseIf (text.toList.head? = some '/' ∨ ['.', '.'] ∈ pathParts text) code
  return asPosix text

/-- `_https_url` -/
def httpsUrl (v : Value) (code : String) : Except Failure String := do
  let text ← boundedText it v code 2000
  match it.urlparse text with
  | none => .error .value
  | some url =>
    refuseIf (url.scheme ≠ "https" ∨ url.netloc = "" ∨ url.username.getD "" ≠ "" ∨
      url.password.getD "" ≠ "") code
    return text

/-- `_endpoint` -/
def endpoint (v : Value) (code : String) : Except Failure String := do
  let text ← boundedText it v code 2000
  if text.toList.head? = some '/' ∧ text.toList.take 2 ≠ ['/', '/'] then return text
  httpsUrl it (.str text) code

/-- `_string_list` with the function that normalises an item. -/
def stringList (normalizer : Value → String → Except Failure String) (v : Value) (code : String)
    (maximum : ℕ) : Except Failure (List String) :=
  match v with
  | .list items =>
    if maximum < items.length then .error (.contract code)
    else items.mapM fun item => normalizer item code
  | _ => .error (.contract code)

/-- `_bounded_text` with the bound that it has by default. -/
def shortText (v : Value) (code : String) : Except Failure String := boundedText it v code 200

/-- `_string_list` -/
def texts (v : Value) (code : String) (maximum : ℕ) : Except Failure (List String) :=
  stringList (shortText it) v code maximum

/-- `_string_list` with `paths=True`. -/
def paths (v : Value) (code : String) : Except Failure (List String) :=
  stringList (safeRelativePath it) v code 64

end Checks

/-! ## Patterns -/

/-- A first character and at most so many others. -/
def fullmatch (first rest : Char → Bool) (most : ℕ) (s : String) : Bool :=
  match s.toList with
  | [] => false
  | x :: xs => first x && decide (xs.length ≤ most) && xs.all rest

def isLower (x : Char) : Bool := decide ('a' ≤ x ∧ x ≤ 'z')

def isUpper (x : Char) : Bool := decide ('A' ≤ x ∧ x ≤ 'Z')

def isDigit (x : Char) : Bool := decide ('0' ≤ x ∧ x ≤ '9')

/-- `EXTENSION_ID_PATTERN` -/
def isExtensionId : String → Bool :=
  fullmatch isLower (fun x => isLower x || isDigit x || x == '_' || x == '-') 63

/-- `SKILL_ID_PATTERN` -/
def isSkillId : String → Bool :=
  fullmatch isLower (fun x => isLower x || isDigit x || x == '-') 59

/-- `TOOL_NAME_PATTERN` -/
def isToolName : String → Bool :=
  fullmatch (fun x => isUpper x || isLower x)
    (fun x => isUpper x || isLower x || isDigit x || x == '_' || x == '-') 127

/-- `CONFIGURATION_KEY_PATTERN` -/
def isConfigurationKey : String → Bool :=
  fullmatch isUpper (fun x => isUpper x || isDigit x || x == '_') 63

/-- The pattern of a category. -/
def isCategory : String → Bool :=
  fullmatch isLower (fun x => isLower x || isDigit x || x == '-') 63

/-- `IMMUTABLE_REVISION_PATTERN` -/
def isImmutableRevision (s : String) : Bool :=
  (decide (s.length = 40) || decide (s.length = 64)) &&
    s.toList.all fun x => isDigit x || decide ('a' ≤ x ∧ x ≤ 'f')

/-- `REVISION_PATTERN` -/
def isRevision (s : String) : Bool := s == "self" || isImmutableRevision s

/-! ## The parts of a manifest -/

/-- `PERMISSION_MODES` -/
inductive PermissionMode
  | readOnly | boundedWrite | externalSideEffect | destructive | controlledAdministrative
  deriving DecidableEq, Repr

def PermissionMode.text : PermissionMode → String
  | .readOnly => "read_only"
  | .boundedWrite => "bounded_write"
  | .externalSideEffect => "external_side_effect"
  | .destructive => "destructive"
  | .controlledAdministrative => "controlled_administrative"

def PermissionMode.ofText (s : String) : Option PermissionMode :=
  [.readOnly, .boundedWrite, .externalSideEffect, .destructive, .controlledAdministrative].find?
    fun mode => mode.text = s

/-- `v in PERMISSION_MODES`, and the mode. -/
def permissionMode (v : Value) (code : String) : Except Failure PermissionMode :=
  if unhashable v then .error .type
  else match (asText v).bind PermissionMode.ofText with
    | none => .error (.contract code)
    | some mode => .ok mode

inductive RuntimeType
  | web | service | mcp | openapi | skills
  deriving DecidableEq, Repr

def RuntimeType.text : RuntimeType → String
  | .web => "web"
  | .service => "service"
  | .mcp => "mcp"
  | .openapi => "openapi"
  | .skills => "skills"

def RuntimeType.ofText (s : String) : Option RuntimeType :=
  [.web, .service, .mcp, .openapi, .skills].find? fun type => type.text = s

inductive Descriptor
  | inline
  | liveCatalog (endpoint : String)
  | mcp (reference : String)
  | openapi (endpoint : String)
  | skillBundle (format : String) (included : List String)
  deriving DecidableEq, Repr

def Descriptor.isSkillBundle : Descriptor → Bool
  | skillBundle _ _ => true
  | _ => false

def Descriptor.isMcp : Descriptor → Bool
  | mcp _ => true
  | _ => false

/-- `descriptor.get("include", [])` -/
def Descriptor.included : Descriptor → List String
  | skillBundle _ included => included
  | _ => []

/-- A list of texts. -/
def textsJson (items : List String) : Value := .list (items.map .str)

def Descriptor.json : Descriptor → Value
  | inline => .dict [("type", .str "inline")]
  | liveCatalog endpoint => .dict [("type", .str "live_catalog"), ("endpoint", .str endpoint)]
  | mcp reference => .dict [("type", .str "mcp"), ("reference", .str reference)]
  | openapi endpoint => .dict [("type", .str "openapi"), ("endpoint", .str endpoint)]
  | skillBundle format included =>
    .dict [("type", .str "skill_bundle"), ("format", .str format), ("include", textsJson included)]

/-- A normalised tool schema. -/
structure Tool where
  name : String
  description : String
  parameters : Object

def Tool.json (tool : Tool) : Value :=
  .dict [("type", .str "function"),
    ("function", .dict [("name", .str tool.name), ("description", .str tool.description),
      ("parameters", .dict tool.parameters)])]

/-- Tools with different names. -/
structure Tools where
  items : List Tool
  distinct : (items.map Tool.name).Nodup

def Tools.none : Tools := ⟨[], List.nodup_nil⟩

structure ConfigurationItem where
  key : String
  description : String
  required : Bool
  secret : Bool
  deriving DecidableEq, Repr

def ConfigurationItem.json (item : ConfigurationItem) : Value :=
  .dict [("key", .str item.key), ("description", .str item.description),
    ("required", .bool item.required), ("secret", .bool item.secret)]

/-- The `health` of a manifest; a check over HTTP has an endpoint. -/
structure Health where
  endpoint : Option String
  timeoutSeconds : Int
  deriving DecidableEq, Repr

def Health.json (health : Health) : Value :=
  match health.endpoint with
  | none => .dict [("type", .str "catalog"), ("timeout_seconds", .int health.timeoutSeconds)]
  | some endpoint =>
    .dict [("type", .str "http"), ("timeout_seconds", .int health.timeoutSeconds),
      ("endpoint", .str endpoint)]

structure Metadata where
  summary : String
  icon : String
  categories : List String
  examples : List String
  requirements : List String
  skillDescriptions : List (String × String)
  deriving DecidableEq, Repr

def Metadata.json (metadata : Metadata) : Value :=
  .dict [("summary", .str metadata.summary), ("icon", .str metadata.icon),
    ("categories", textsJson metadata.categories), ("examples", textsJson metadata.examples),
    ("requirements", textsJson metadata.requirements),
    ("skill_descriptions",
      .dict (metadata.skillDescriptions.map fun item => (item.1, .str item.2)))]

/-- A validated manifest. -/
structure Manifest where
  extensionId : String
  name : String
  version : String
  sourceUrl : String
  revision : String
  runtimeType : RuntimeType
  entrypoint : String
  descriptor : Descriptor
  schemas : Tools
  defaultPermission : PermissionMode
  /-- The overrides of `permissions.capabilities`. -/
  overrides : List (String × PermissionMode)
  configuration : List ConfigurationItem
  health : Health
  lifecycleInstall : List String
  lifecycleStart : List String
  lifecycleStop : List String
  lifecycleRemove : List String
  dataRead : List String
  dataWrite : List String
  dataNetwork : List String
  removePaths : List String
  preservePaths : List String
  retainRevisions : Int
  metadata : Option Metadata

/-- The object that is written to disk. -/
def Manifest.json (m : Manifest) : Value :=
  .dict ([("protocol_version", Value.str manifestVersion),
    ("extension_id", .str m.extensionId),
    ("name", .str m.name),
    ("version", .str m.version),
    ("source", .dict [("url", .str m.sourceUrl), ("revision", .str m.revision)]),
    ("runtime", .dict [("type", .str m.runtimeType.text), ("entrypoint", .str m.entrypoint)]),
    ("capabilities", .dict (("descriptor", m.descriptor.json) ::
      if m.schemas.items.isEmpty then []
      else [("schemas", Value.list (m.schemas.items.map Tool.json))])),
    ("permissions", .dict [("default", .str m.defaultPermission.text),
      ("capabilities", .dict (m.overrides.map fun item => (item.1, .str item.2.text)))]),
    ("health", m.health.json),
    ("lifecycle", .dict [("install", textsJson m.lifecycleInstall),
      ("start", textsJson m.lifecycleStart), ("stop", textsJson m.lifecycleStop),
      ("remove", textsJson m.lifecycleRemove)]),
    ("data_boundaries", .dict [("read", textsJson m.dataRead), ("write", textsJson m.dataWrite),
      ("network", textsJson m.dataNetwork)]),
    ("removal", .dict [("remove_paths", textsJson m.removePaths),
      ("preserve_paths", textsJson m.preservePaths)]),
    ("rollback", .dict [("strategy", .str "pinned_revision"),
      ("retain_revisions", .int m.retainRevisions)])] ++
    (if m.configuration.isEmpty then []
      else [("configuration", Value.list (m.configuration.map ConfigurationItem.json))]) ++
    (match m.metadata with
      | none => []
      | some metadata => [("metadata", metadata.json)]))

/-! ## Tool schemas -/

section Tools

variable (it : Interpreter)

/-- `schema.get("function") if isinstance(schema.get("function"), Mapping) else schema` -/
def functionOf (schema : Object) : Object :=
  match field schema "function" with
  | .dict function => function
  | _ => schema

/-- The checks of the required properties. -/
def checkRequired (properties : Object) (required : Value) : Except Failure Unit :=
  match required with
  | .list items =>
    if items.any unhashable then .error .type
    else
      refuseIf (¬ (items.filterMap asText).Nodup ∨
        ∃ item ∈ items, ((asText item).bind properties.get?).isNone)
        "extension_capability_required_invalid"
  | _ => .error (.contract "extension_capability_required_invalid")

/-- Whether `additionalProperties` is left out, a truth value or an object. -/
def additionalAllowed (parameters : Object) : Bool :=
  match parameters.get? "additionalProperties" with
  | none => true
  | some (.bool _) => true
  | some (.dict _) => true
  | some _ => false

/-- `_normalize_tool_schema` -/
def normalizeToolSchema (raw : Value) : Except Failure Tool := do
  let schema ← object raw "extension_capability_schema_malformed"
  let function := functionOf schema
  let name := strip (textOf it (field function "name"))
  refuseIf (isToolName name = false) "extension_capability_name_invalid"
  let description ←
    match (function.get? "description").getD (.str "") with
    | .str description =>
      if 4000 < description.length then
        .error (.contract "extension_capability_description_invalid")
      else .ok description
    | _ => .error (.contract "extension_capability_description_invalid")
  let parameters ← object (field function "parameters") "extension_capability_parameters_invalid"
  refuseIf (¬ isText (field parameters "type") "object") "extension_capability_parameters_invalid"
  let properties ← object ((parameters.get? "properties").getD (.dict []))
    "extension_capability_properties_invalid"
  checkRequired properties ((parameters.get? "required").getD (.list []))
  refuseIf (additionalAllowed parameters = false)
    "extension_capability_additional_properties_invalid"
  return { name, description, parameters }

/-- `_normalize_tools` -/
def normalizeTools (v : Value) : Except Failure Tools :=
  match v with
  | .list items => do
    refuseIf (256 < items.length) "extension_capability_catalog_invalid"
    let tools ← items.mapM (normalizeToolSchema it)
    if distinct : (tools.map Tool.name).Nodup then .ok ⟨tools, distinct⟩
    else .error (.contract "extension_capability_name_duplicate")
  | _ => .error (.contract "extension_capability_catalog_invalid")

end Tools

/-! ## Validation -/

/-- `_TOP_LEVEL_FIELDS` -/
def topLevelFields : List String :=
  ["protocol_version", "extension_id", "name", "version", "source", "runtime", "capabilities",
    "permissions", "health", "lifecycle", "data_boundaries", "removal", "rollback",
    "configuration", "metadata"]

/-- `_REQUIRED_FIELDS` -/
def requiredFields : List String :=
  topLevelFields.filter fun name => name ≠ "configuration" ∧ name ≠ "metadata"

section Validation

variable (it : Interpreter)

/-- The descriptor of the capabilities. -/
def validateDescriptor (capabilities : Object) : Except Failure Descriptor := do
  let descriptor ← object (field capabilities "descriptor") "extension_descriptor_invalid"
  match textOf it (field descriptor "type") with
  | "mcp" =>
    strictFields descriptor ["type", "reference"] "extension_descriptor_unknown_field"
    return .mcp (← shortText it (field descriptor "reference")
      "extension_descriptor_reference_invalid")
  | "inline" =>
    strictFields descriptor ["type"] "extension_descriptor_unknown_field"
    refuseIf ((capabilities.get? "schemas").isNone) "extension_inline_schemas_required"
    return .inline
  | "skill_bundle" =>
    strictFields descriptor ["type", "format", "include"] "extension_descriptor_unknown_field"
    let format := textOf it (field descriptor "format")
    refuseIf (format ∉ ["agent_skill", "codex_plugin"]) "extension_skill_bundle_format_invalid"
    let included ← texts it (field descriptor "include") "extension_skill_bundle_include_invalid" 64
    refuseIf (included = [] ∨ ¬ included.Nodup ∨ ∃ item ∈ included, isSkillId item = false)
      "extension_skill_bundle_include_invalid"
    return .skillBundle format included
  | "live_catalog" =>
    strictFields descriptor ["type", "endpoint"] "extension_descriptor_unknown_field"
    return .liveCatalog (← endpoint it (field descriptor "endpoint")
      "extension_descriptor_endpoint_invalid")
  | "openapi" =>
    strictFields descriptor ["type", "endpoint"] "extension_descriptor_unknown_field"
    return .openapi (← endpoint it (field descriptor "endpoint")
      "extension_descriptor_endpoint_invalid")
  | _ => .error (.contract "extension_descriptor_type_invalid")

/-- The default permission and the overrides. -/
def validatePermissions (v : Value) (descriptor : Descriptor) :
    Except Failure (PermissionMode × List (String × PermissionMode)) := do
  let permissions ← object v "extension_permissions_invalid"
  strictFields permissions ["default", "capabilities"] "extension_permissions_unknown_field"
  let overrides ← object (field permissions "capabilities") "extension_permission_overrides_invalid"
  let default ←
    match PermissionMode.ofText (textOf it (field permissions "default")) with
    | none => .error (.contract "extension_permission_mode_invalid")
    | some mode => .ok mode
  let modes ← overrides.mapM fun item => do
    return (item.1, ← permissionMode item.2 "extension_permission_mode_invalid")
  refuseIf (∃ item ∈ modes, isToolName item.1 = false) "extension_permission_capability_invalid"
  refuseIf (descriptor.isSkillBundle = true ∧ ∃ item ∈ modes, item.1 ∉ descriptor.included)
    "extension_permission_capability_unknown"
  return (default, modes)

/-- A configuration item, after the keys that were seen. -/
def validateConfigurationItem (seen : List String) (raw : Value) :
    Except Failure ConfigurationItem := do
  let item ← object raw "extension_configuration_invalid"
  strictFields item ["key", "description", "required", "secret"]
    "extension_configuration_unknown_field"
  refuseIf ((item.get? "key").isNone ∨ (item.get? "description").isNone)
    "extension_configuration_invalid"
  let key ← boundedText it (field item "key") "extension_configuration_key_invalid" 64
  refuseIf (isConfigurationKey key = false ∨ key ∈ seen) "extension_configuration_key_invalid"
  match asBool ((item.get? "required").getD (.bool false)),
    asBool ((item.get? "secret").getD (.bool false)) with
  | some required, some secret =>
    let description ← shortText it (field item "description")
      "extension_configuration_description_invalid"
    return { key, description, required, secret }
  | _, _ => .error (.contract "extension_configuration_flag_invalid")

/-- The configuration items, after the keys that were seen. -/
def validateConfigurationItems (seen : List String) :
    List Value → Except Failure (List ConfigurationItem)
  | [] => .ok []
  | raw :: raws => do
    let item ← validateConfigurationItem it seen raw
    return item :: (← validateConfigurationItems (seen ++ [item.key]) raws)

def validateConfiguration (v : Value) : Except Failure (List ConfigurationItem) :=
  match v with
  | .list items =>
    if 32 < items.length then .error (.contract "extension_configuration_invalid")
    else validateConfigurationItems it [] items
  | _ => .error (.contract "extension_configuration_invalid")

/-- An integer that is neither a truth value nor out of bounds. -/
def boundedInt (v : Value) (least most : Int) (code : String) : Except Failure Int :=
  match asInt v with
  | none => .error (.contract code)
  | some i => if least ≤ i ∧ i ≤ most then .ok i else .error (.contract code)

def validateHealth (v : Value) : Except Failure Health := do
  let health ← object v "extension_health_invalid"
  let endpoint ←
    match textOf it (field health "type") with
    | "catalog" => do
      strictFields health ["type", "timeout_seconds"] "extension_health_unknown_field"
      pure none
    | "http" => do
      strictFields health ["type", "endpoint", "timeout_seconds"] "extension_health_unknown_field"
      pure (some (← endpoint it (field health "endpoint") "extension_health_endpoint_invalid"))
    | _ => .error (.contract "extension_health_type_invalid")
  let timeoutSeconds ← boundedInt (field health "timeout_seconds") 1 30
    "extension_health_timeout_invalid"
  return { endpoint, timeoutSeconds }

/-- A list of texts of the metadata. -/
def metadataTexts (metadata : Object) (key : String) : Except Failure (List String) :=
  match (metadata.get? key).getD (.list []) with
  | .list items => do
    refuseIf (32 < items.length ∨ ∃ item ∈ items, (asText item).isNone)
      "extension_metadata_invalid"
    items.mapM fun item => boundedText it item "extension_metadata_invalid" 1000
  | _ => .error (.contract "extension_metadata_invalid")

def validateMetadata (v : Value) (descriptor : Descriptor) : Except Failure Metadata := do
  let metadata ← object v "extension_metadata_invalid"
  strictFields metadata
    ["summary", "categories", "icon", "examples", "requirements", "skill_descriptions"]
    "extension_metadata_unknown_field"
  let icon := (metadata.get? "icon").getD (.str "◈")
  refuseIf ((asText (field metadata "summary")).isNone ∨ (asText icon).isNone)
    "extension_metadata_invalid"
  let summary ← boundedText it (field metadata "summary") "extension_metadata_summary_invalid" 1000
  let icon ← boundedText it icon "extension_metadata_icon_invalid" 16
  let categories ← metadataTexts it metadata "categories"
  let examples ← metadataTexts it metadata "examples"
  let requirements ← metadataTexts it metadata "requirements"
  refuseIf (∃ item ∈ categories, isCategory item = false) "extension_metadata_category_invalid"
  let descriptions ← object ((metadata.get? "skill_descriptions").getD (.dict []))
    "extension_metadata_invalid"
  refuseIf ((∃ item ∈ descriptions, item.1 ∉ descriptor.included) ∨
    ∃ item ∈ descriptions, (asText item.2).isNone) "extension_metadata_skill_invalid"
  let skillDescriptions ← descriptions.mapM fun item => do
    return (item.1, ← boundedText it item.2 "extension_metadata_invalid" 1000)
  return { summary, icon, categories, examples, requirements, skillDescriptions }

/-- `validate_extension_manifest` -/
def validateExtensionManifest (manifest : Value) : Except Failure Manifest := do
  let value ← object manifest "extension_manifest_invalid"
  strictFields value topLevelFields "extension_manifest_unknown_field"
  refuseIf (∃ name ∈ requiredFields, (value.get? name).isNone)
    "extension_manifest_required_field_missing"
  refuseIf (¬ isText (field value "protocol_version") manifestVersion)
    "extension_manifest_version_unsupported"
  let extensionId ← boundedText it (field value "extension_id") "extension_id_invalid" 64
  refuseIf (isExtensionId extensionId = false) "extension_id_invalid"
  let source ← object (field value "source") "extension_source_invalid"
  strictFields source ["url", "revision"] "extension_source_unknown_field"
  let revision ← boundedText it (field source "revision") "extension_source_revision_invalid" 64
  refuseIf (isRevision revision = false) "extension_source_revision_invalid"
  let runtime ← object (field value "runtime") "extension_runtime_invalid"
  strictFields runtime ["type", "entrypoint"] "extension_runtime_unknown_field"
  let runtimeType ←
    match RuntimeType.ofText (textOf it (field runtime "type")) with
    | none => .error (.contract "extension_runtime_type_invalid")
    | some type => .ok type
  let capabilities ← object (field value "capabilities") "extension_capabilities_invalid"
  strictFields capabilities ["descriptor", "schemas"] "extension_capabilities_unknown_field"
  let descriptor ← validateDescriptor it capabilities
  refuseIf (descriptor ≠ .inline ∧ (capabilities.get? "schemas").isSome)
    "extension_descriptor_schemas_must_be_referenced"
  refuseIf (decide (runtimeType = .skills) ≠ descriptor.isSkillBundle ∨
    decide (runtimeType = .mcp) ≠ descriptor.isMcp) "extension_runtime_descriptor_mismatch"
  let schemas ←
    if descriptor = .inline then
      normalizeTools it ((capabilities.get? "schemas").getD (.list []))
    else .ok Tools.none
  let permissions ← validatePermissions it (field value "permissions") descriptor
  let configuration ← validateConfiguration it ((value.get? "configuration").getD (.list []))
  let health ← validateHealth it (field value "health")
  let lifecycle ← object (field value "lifecycle") "extension_lifecycle_invalid"
  strictFields lifecycle ["install", "start", "stop", "remove"]
    "extension_lifecycle_unknown_field"
  let lifecycleInstall ← texts it (field lifecycle "install")
    "extension_lifecycle_install_invalid" 32
  let lifecycleStart ← texts it (field lifecycle "start") "extension_lifecycle_start_invalid" 32
  let lifecycleStop ← texts it (field lifecycle "stop") "extension_lifecycle_stop_invalid" 32
  let lifecycleRemove ← texts it (field lifecycle "remove") "extension_lifecycle_remove_invalid" 32
  let boundaries ← object (field value "data_boundaries") "extension_data_boundaries_invalid"
  strictFields boundaries ["read", "write", "network"] "extension_data_boundaries_unknown_field"
  let dataRead ← paths it (field boundaries "read") "extension_data_read_invalid"
  let dataWrite ← paths it (field boundaries "write") "extension_data_write_invalid"
  let network ← texts it (field boundaries "network") "extension_data_network_invalid" 64
  let dataNetwork ← network.mapM fun item =>
    httpsUrl it (.str item) "extension_data_network_invalid"
  let removal ← object (field value "removal") "extension_removal_invalid"
  strictFields removal ["remove_paths", "preserve_paths"] "extension_removal_unknown_field"
  let removePaths ← paths it (field removal "remove_paths") "extension_remove_paths_invalid"
  let preservePaths ← paths it (field removal "preserve_paths") "extension_preserve_paths_invalid"
  let rollback ← object (field value "rollback") "extension_rollback_invalid"
  strictFields rollback ["strategy", "retain_revisions"] "extension_rollback_unknown_field"
  refuseIf (¬ isText (field rollback "strategy") "pinned_revision")
    "extension_rollback_strategy_invalid"
  let retainRevisions ← boundedInt (field rollback "retain_revisions") 1 10
    "extension_rollback_retention_invalid"
  let metadata ←
    match value.get? "metadata" with
    | none => .ok none
    | some v => some <$> validateMetadata it v descriptor
  let name ← shortText it (field value "name") "extension_name_invalid"
  let version ← boundedText it (field value "version") "extension_version_invalid" 80
  let sourceUrl ← httpsUrl it (field source "url") "extension_source_url_invalid"
  let entrypoint ← safeRelativePath it (field runtime "entrypoint") "extension_entrypoint_invalid"
  return { extensionId, name, version, sourceUrl, revision, runtimeType, entrypoint, descriptor,
           schemas, defaultPermission := permissions.1, overrides := permissions.2, configuration,
           health, lifecycleInstall, lifecycleStart, lifecycleStop, lifecycleRemove, dataRead,
           dataWrite, dataNetwork, removePaths, preservePaths, retainRevisions, metadata }

end Validation

/-! ## Reconciliation with a catalog -/

/-- A capability in force. -/
structure Capability where
  schema : Tool
  permissionMode : PermissionMode

/-- The `name` of a capability is the one of its schema. -/
def Capability.name (capability : Capability) : String := capability.schema.name

def Capability.json (capability : Capability) : Value :=
  .dict [("name", .str capability.name), ("schema", capability.schema.json),
    ("permission_mode", .str capability.permissionMode.text)]

/-- Capabilities with different names. -/
structure Capabilities where
  items : List Capability
  distinct : (items.map Capability.name).Nodup

def Capabilities.none : Capabilities := ⟨[], List.nodup_nil⟩

def Capabilities.names (capabilities : Capabilities) : List String :=
  capabilities.items.map Capability.name

/-- Tools, each with its permission. -/
def Tools.permitted (tools : Tools) (mode : String → PermissionMode) : Capabilities where
  items := tools.items.map fun tool => { schema := tool, permissionMode := mode tool.name }
  distinct := by
    rw [List.map_map]
    exact tools.distinct

structure Skill where
  id : String
  sourcePath : String
  ownerScope : String
  platforms : List String
  requiresToolsets : List String
  deriving DecidableEq, Repr

structure AdmittedSkill extends Skill where
  permissionMode : PermissionMode
  deriving DecidableEq, Repr

def AdmittedSkill.json (skill : AdmittedSkill) : Value :=
  .dict [("id", .str skill.id), ("source_path", .str skill.sourcePath),
    ("owner_scope", .str skill.ownerScope), ("platforms", textsJson skill.platforms),
    ("requires_toolsets", textsJson skill.requiresToolsets),
    ("permission_mode", .str skill.permissionMode.text)]

structure Reconciled where
  manifest : Manifest
  catalogVersion : String
  capabilities : Capabilities
  admittedSkills : List AdmittedSkill

section Reconciliation

variable (it : Interpreter)

/-- The fields of a skill but its id. -/
def skillOf (id : String) (skill : Object) : Except Failure Skill := do
  let sourcePath ← safeRelativePath it (field skill "source_path")
    "extension_skill_source_path_invalid"
  let ownerScope ← shortText it (field skill "owner_scope") "extension_skill_owner_scope_invalid"
  let platforms ← texts it (field skill "platforms") "extension_skill_platforms_invalid" 32
  let requiresToolsets ← texts it (field skill "requires_toolsets")
    "extension_skill_toolsets_invalid" 32
  return { id, sourcePath, ownerScope, platforms, requiresToolsets }

/-- A skill of a catalog, after the ids that were seen. -/
def catalogSkill (seen : List String) (raw : Value) : Except Failure Skill := do
  let skill ← object raw "extension_skill_catalog_invalid"
  strictFields skill ["id", "source_path", "owner_scope", "platforms", "requires_toolsets"]
    "extension_skill_catalog_unknown_field"
  let id ← boundedText it (field skill "id") "extension_skill_id_invalid" 64
  refuseIf (isSkillId id = false ∨ id ∈ seen) "extension_skill_id_invalid"
  skillOf it id skill

def catalogSkills (seen : List String) : List Value → Except Failure (List Skill)
  | [] => .ok []
  | raw :: raws => do
    let skill ← catalogSkill it seen raw
    return skill :: (← catalogSkills (seen ++ [skill.id]) raws)

/-- The catalog with the fields that every kind has. -/
def checkCatalog (manifest : Manifest) (sourceRevision offer : String) (resolvedCatalog : Value) :
    Except Failure Object := do
  let catalog ← object resolvedCatalog "extension_resolved_catalog_required"
  strictFields catalog ["protocol_version", "extension_id", "version", "source_revision", offer]
    "extension_catalog_unknown_field"
  refuseIf (¬ isText (field catalog "protocol_version") manifestVersion)
    "extension_catalog_version_unsupported"
  refuseIf (¬ isText (field catalog "extension_id") manifest.extensionId)
    "extension_catalog_id_mismatch"
  refuseIf (¬ isText (field catalog "source_revision") sourceRevision)
    "extension_catalog_revision_mismatch"
  return catalog

/-- The tools and the skills that a catalog offers, and its version. -/
def offered (manifest : Manifest) (sourceRevision : String) (resolvedCatalog : Value) :
    Except Failure (Tools × List Skill × String) :=
  match manifest.descriptor with
  | .inline => .ok (manifest.schemas, [], manifest.version)
  | .skillBundle _ included => do
    let catalog ← checkCatalog manifest sourceRevision "skills" resolvedCatalog
    let raws ←
      match field catalog "skills" with
      | .list raws =>
        if raws = [] ∨ 64 < raws.length then .error (.contract "extension_skill_catalog_invalid")
        else .ok raws
      | _ => .error (.contract "extension_skill_catalog_invalid")
    let skills ← catalogSkills it [] raws
    refuseIf ((∃ skill ∈ skills, skill.id ∉ included) ∨ ∃ id ∈ included, id ∉ skills.map Skill.id)
      "extension_skill_catalog_mismatch"
    return (Tools.none, skills, ← boundedText it (field catalog "version")
      "extension_catalog_release_invalid" 80)
  | _ => do
    let catalog ← checkCatalog manifest sourceRevision "tools" resolvedCatalog
    let tools ← normalizeTools it (field catalog "tools")
    return (tools, [], ← boundedText it (field catalog "version")
      "extension_catalog_release_invalid" 80)

/-- `overrides.get(name, default)` -/
def Manifest.modeOf (m : Manifest) (name : String) : PermissionMode :=
  ((m.overrides.find? fun item => item.1 = name).map Prod.snd).getD m.defaultPermission

/-- `reconcile_extension_catalog` -/
def reconcileExtensionCatalog (manifest resolvedCatalog : Value) (sourceRevision : String)
    (healthAvailable : Bool) : Except Failure Reconciled := do
  let normalized ← validateExtensionManifest it manifest
  refuseIf (healthAvailable = false) "extension_health_unavailable"
  refuseIf (isImmutableRevision sourceRevision = false) "extension_source_revision_invalid"
  refuseIf (normalized.revision ≠ "self" ∧ normalized.revision ≠ sourceRevision)
    "extension_source_revision_mismatch"
  let normalized := { normalized with revision := sourceRevision }
  let (tools, skills, catalogVersion) ← offered it normalized sourceRevision resolvedCatalog
  refuseIf (∃ item ∈ normalized.overrides,
    item.1 ∉ (if normalized.descriptor.isSkillBundle then skills.map Skill.id
      else tools.items.map Tool.name)) "extension_permission_capability_unknown"
  return {
    manifest := normalized, catalogVersion,
    capabilities := tools.permitted normalized.modeOf,
    admittedSkills := skills.map fun skill =>
      { toSkill := skill, permissionMode := normalized.modeOf skill.id } }

end Reconciliation

/-! ## An interpreter to run the definitions with -/

/-- The text before a first character of the kind, and what comes from there on. -/
def cutAt (p : Char → Bool) (cs : List Char) : List Char × List Char :=
  (cs.takeWhile fun x => !p x, cs.dropWhile fun x => !p x)

/-- `urlparse`, of a URL without user information. -/
def plainUrl (text : String) : Url :=
  let (scheme, rest) := cutAt (· == ':') text.toList
  match rest with
  | ':' :: '/' :: '/' :: rest =>
    { scheme := String.ofList scheme
      netloc := String.ofList (cutAt (fun x => "/?#".toList.contains x) rest).1
      username := none
      password := none }
  | _ => { scheme := "", netloc := "", username := none, password := none }

def Interpreter.plain : Interpreter where
  runtime := Runtime.plain
  urlparse := fun text => some (plainUrl text)

end Pandamonium.Extensions
