import Pandamonium.Library.StableOrder
import Pandamonium.Library.Regex
import Pandamonium.Model.Value

/-!
# Classification of actions

The part of `authority_protocol.py` that decides what a call does: `action_effect_for`
with its tables, its expressions and the helpers it calls.  The effects are ordered by
strictness, and the effect of a call is the strictest of the declared one and the one read
off the concrete call.
-/

set_option autoImplicit false

namespace Pandamonium

open Pandamonium.Library

/-- `ACTION_EFFECTS`; `"unclassified"` is the absence of one. -/
inductive ActionEffect
  | read
  | reversibleWrite
  | destructiveOrDifficultToRecover
  | externalPublicationOrCommunication
  | purchase
  | credentialOrAuthChange
  | privilegeExpansion
  | outsideWorkspaceBoundary
  deriving DecidableEq, Repr

/-- `_EFFECT_STRICTNESS` -/
def ActionEffect.strictness : ActionEffect → ℕ
  | .read => 0
  | .reversibleWrite => 1
  | .destructiveOrDifficultToRecover => 2
  | .externalPublicationOrCommunication => 3
  | .purchase => 4
  | .credentialOrAuthChange => 5
  | .privilegeExpansion => 6
  | .outsideWorkspaceBoundary => 7

def ActionEffect.ofText : String → Option ActionEffect
  | "read" => some .read
  | "reversible_write" => some .reversibleWrite
  | "destructive_or_difficult_to_recover" => some .destructiveOrDifficultToRecover
  | "external_publication_or_communication" => some .externalPublicationOrCommunication
  | "purchase" => some .purchase
  | "credential_or_auth_change" => some .credentialOrAuthChange
  | "privilege_expansion" => some .privilegeExpansion
  | "outside_workspace_boundary" => some .outsideWorkspaceBoundary
  | _ => none

/-- `SEPARATE_GATE_EFFECTS` -/
def ActionEffect.separateGate : ActionEffect → Bool
  | .read | .reversibleWrite => false
  | _ => true

/-- `_LEGACY_EFFECTS` -/
def legacyEffect : String → Option ActionEffect
  | "read_only" => some .read
  | "bounded_write" => some .reversibleWrite
  | "controlled_administrative" => some .reversibleWrite
  | "external_side_effect" => some .externalPublicationOrCommunication
  | "destructive" => some .destructiveOrDifficultToRecover
  | _ => none

/-- The fields of a normalized call that the authority layer reads. -/
structure ActionCall where
  requestId : String
  agentId : String
  name : String
  target : String
  arguments : Value
  capabilityPolicy : Object

/-! ## Tables -/

def readCapabilities : List String :=
  ["get_workspace", "read_file", "grep", "glob", "ls", "web_search", "web_fetch",
    "inspect_network", "get_runtime_status", "read_agent_task", "search_jarvis_knowledge",
    "read_calendar", "list_sessions", "search_chats", "list_email_accounts", "list_emails",
    "read_email", "list_models", "list_cached_models", "list_downloads", "list_serve_presets",
    "list_served_models", "list_cookbook_servers", "search_hf_models", "vault_search",
    "vault_get", "resolve_contact", "manage_books", "nextcloud_files"]

def reversibleWriteCapabilities : List String :=
  ["create_document", "edit_document", "update_document", "suggest_document", "write_file",
    "edit_file", "manage_notes", "manage_tasks", "manage_memory", "manage_skills",
    "manage_research", "manage_contact", "manage_session", "create_session", "send_to_session",
    "generate_image", "edit_image", "ui_control", "update_plan", "ask_user", "trigger_research",
    "start_agent_task", "manage_bg_jobs", "bash", "python", "download_model", "serve_model",
    "serve_preset", "adopt_served_model", "manage_settings", "manage_endpoints", "manage_mcp",
    "manage_webhooks", "manage_extensions", "manage_workspace"]

def externalCapabilities : List String :=
  ["send_email", "reply_to_email", "bulk_email", "manage_calendar", "api_call", "app_api"]

def destructiveCapabilities : List String :=
  ["delete_email", "archive_email", "mark_email_read", "cancel_download", "stop_served_model"]

def credentialCapabilities : List String := ["manage_tokens", "vault_unlock"]

/-- `_DEFAULT_EFFECT_BY_CAPABILITY` -/
def defaultEffectByCapability (name : String) : Option ActionEffect :=
  if name ∈ readCapabilities then some .read
  else if name ∈ reversibleWriteCapabilities then some .reversibleWrite
  else if name ∈ externalCapabilities then some .externalPublicationOrCommunication
  else if name ∈ destructiveCapabilities then some .destructiveOrDifficultToRecover
  else if name ∈ credentialCapabilities then some .credentialOrAuthChange
  else none

/-- `_READ_ACTIONS` -/
def readActions : List String :=
  ["inventory", "list", "get", "read", "view", "search", "find", "status", "health"]

/-- `_ANDROID_READ_ACTIONS` -/
def androidReadActions : List String :=
  ["status", "devices", "avds", "wait", "logcat", "screenshot"]

/-- `_DESTRUCTIVE_ACTIONS` -/
def destructiveActions : List String :=
  ["delete", "remove", "purge", "revoke", "restore", "overwrite", "bulk_delete", "drop", "reset"]

/-- `_PURCHASE_ACTIONS` -/
def purchaseActions : List String := ["buy", "purchase", "subscribe", "checkout", "order", "pay"]

/-- `_EXTERNAL_ACTIONS` -/
def externalActions : List String := ["send", "publish", "post", "submit", "invite", "communicate"]

/-- `_CREDENTIAL_ACTIONS` -/
def credentialActions : List String :=
  ["authenticate", "login", "logout", "oauth", "rotate_token", "set_token", "add_credential",
    "remove_credential", "change_password", "mfa"]

/-- `_PRIVILEGE_ACTIONS` -/
def privilegeActions : List String :=
  ["grant", "elevate", "enable_privileged", "assign_role", "widen_permissions",
    "change_permissions"]

/-- `_PATH_ARGUMENT_KEYS` -/
def pathArgumentKeys : List String :=
  ["path", "paths", "cwd", "directory", "root", "source_path", "target_path", "destination_path"]

/-- `_TOKEN_BUDGET_KEYS` -/
def tokenBudgetKeys : List String :=
  ["max_tokens", "max_context_tokens", "max_input_tokens", "max_output_tokens",
    "max_completion_tokens", "token_budget", "context_token_budget"]

/-! ## Helpers -/

/-- `_declared_effect` -/
def declaredEffect (rt : Runtime) (call : ActionCall) : Option ActionEffect :=
  match ActionEffect.ofText (call.capabilityPolicy.text rt "action_effect") with
  | some effect => some effect
  | none => legacyEffect (call.capabilityPolicy.text rt "permission_mode")

mutual

/-- `_path_values` -/
def pathValues (rt : Runtime) (key : String) : Value → List String
  | .dict items => pathValuesOfItems rt items
  | .list items => pathValuesOfList rt key items
  | .str s => if key ∈ pathArgumentKeys then [s] else []
  | _ => []

def pathValuesOfItems (rt : Runtime) : List (String × Value) → List String
  | [] => []
  | (childKey, child) :: items =>
    pathValues rt (rt.lower childKey) child ++ pathValuesOfItems rt items

def pathValuesOfList (rt : Runtime) (key : String) : List Value → List String
  | [] => []
  | child :: items => pathValues rt key child ++ pathValuesOfList rt key items

end

/-- A text in which `re.I` ignores the case. -/
def Runtime.litI (rt : Runtime) (text : String) : Regex :=
  text.toList.foldr (fun x r => .seq (.char (rt.sameIgnoringCase x)) r) .epsilon

/-- `_SECRET_KEY` -/
def secretKey (rt : Runtime) : Regex :=
  .choice
    [rt.litI "token", rt.litI "secret", rt.litI "password", rt.litI "credential",
      .sequence [rt.litI "private", .opt .dot, rt.litI "key"], rt.litI "authorization",
      .sequence [rt.litI "api", .opt .dot, rt.litI "key"]]

/-- `_is_credential_field` -/
def isCredentialField (rt : Runtime) (key : String) (value : Value) : Bool :=
  let budget := match value with
    | .int i => decide (rt.lower key ∈ tokenBudgetKeys) && decide (0 ≤ i)
    | _ => false
  !budget && (secretKey rt).search key

mutual

/-- `_contains_credential_field` -/
def containsCredentialField (rt : Runtime) : Value → Bool
  | .dict items => itemsContainCredentialField rt items
  | .list items => listContainsCredentialField rt items
  | _ => false

def itemsContainCredentialField (rt : Runtime) : List (String × Value) → Bool
  | [] => false
  | (key, child) :: items =>
    isCredentialField rt key child || containsCredentialField rt child ||
      itemsContainCredentialField rt items

def listContainsCredentialField (rt : Runtime) : List Value → Bool
  | [] => false
  | child :: items => containsCredentialField rt child || listContainsCredentialField rt items

end

/-- Whether a raw path argument leads out of the workspace directory `base`. -/
def leavesWorkspace (rt : Runtime) (base rawPath : String) : Bool :=
  if rawPath = "" || (Regex.lit "://").search rawPath then false
  else
    let expanded := rt.expanduser rawPath
    let resolved := rt.realpath (if rt.isabs expanded then expanded else rt.join base expanded)
    match rt.commonpath base resolved with
    | none => true
    | some common => common != base

/-- Whether the requested workspace is not among the configured ones. -/
def outsideConfiguredScopes (rt : Runtime) (policy arguments : Object) : Bool :=
  let requestedScope := arguments.text rt "workspace"
  match policy.get? "configured_scopes" with
  | some (.list items) =>
    requestedScope != "" && !(items.map (Value.text rt)).contains requestedScope
  | _ => false

/-- Whether one of the path arguments leads out of the configured workspace. -/
def outsideConfiguredDirectory (rt : Runtime) (policy arguments : Object) : Bool :=
  let workspace := strip (policy.text rt "configured_workspace")
  if workspace = "" then false
  else
    let base := rt.realpath (rt.expanduser workspace)
    (pathValuesOfItems rt arguments).any (leavesWorkspace rt base)

/-- `_outside_configured_workspace` -/
def outsideConfiguredWorkspace (rt : Runtime) (call : ActionCall) : Bool :=
  let arguments := call.arguments.asObject
  if ((arguments.get? "outside_workspace").map Value.isTrue).getD false then true
  else if call.name = "manage_workspace" then false
  else outsideConfiguredScopes rt call.capabilityPolicy arguments ||
    outsideConfiguredDirectory rt call.capabilityPolicy arguments

/-! ## Shell text -/

section ShellPatterns

variable (rt : Runtime)

/-- `\s*` -/
def spaces : Regex := .star (.char isSpace)

/-- `\s+` -/
def someSpace : Regex := .plus (.char isSpace)

/-- `\b` -/
def Runtime.boundary : Regex := .wordBoundary rt.isWord

def destructiveShell : Regex :=
  .choice
    [.sequence
      [.alt .start (.seq (.set ";&|") spaces),
        .oneOf ["rm", "shred", "mkfs", "wipefs", "dd"], rt.boundary],
      .sequence
        [.lit "git", someSpace,
          .alt (.sequence [.lit "reset", someSpace, .lit "--hard"])
            (.sequence [.lit "clean", someSpace, .lit "-",
              .star (.set "abcdefghijklmnopqrstuvwxyz"), .lit "f"])],
      .sequence [.opt (.lit "os."), .oneOf ["remove", "unlink"], spaces, .lit "("],
      .sequence [.lit "shutil.rmtree", spaces, .lit "("]]

def privilegeShell : Regex :=
  .choice
    [.sequence [rt.boundary, .oneOf ["sudo", "su"], rt.boundary],
      .sequence
        [rt.boundary, .lit "chmod", someSpace,
          .alt (.seq (.star (.set "01234567")) (.set "2367"))
            (.sequence [.star (.set "ugo"), .lit "+", .star .dot, .set "wx"])],
      .sequence [rt.boundary, .lit "chown", rt.boundary]]

def credentialShell : Regex :=
  .choice
    [.sequence [rt.boundary, .oneOf ["login", "oauth", "passwd", "chpasswd"], rt.boundary],
      .sequence
        [rt.boundary,
          .choice [.lit "token", .lit "credential",
            .sequence [.lit "api", .opt (.set "_-"), .lit "key"]],
          rt.boundary]]

def externalShell : Regex :=
  .sequence
    [rt.boundary, .oneOf ["curl", "wget"], rt.boundary, .star .dot,
      .choice
        [.sequence [.lit "-x", someSpace, .oneOf ["post", "put", "patch", "delete"]],
          .lit "--data", .seq (.lit "-d") (.char isSpace)]]

/-- `(?:\s+[^;&|]+)?` -/
def shellOperands : Regex := .opt (.seq someSpace (.plus (.notSet ";&|")))

def readShell : Regex :=
  .choice
    [.lit "pwd", .seq (.lit "ls") shellOperands,
      .sequence [.lit "git", someSpace, .oneOf ["status", "diff", "log"], shellOperands],
      .seq (.lit "rg") shellOperands]

end ShellPatterns

/-- `_shell_effect` -/
def shellEffect (rt : Runtime) (command : String) : ActionEffect :=
  let value := rt.lower (strip command)
  if (destructiveShell rt).search value then .destructiveOrDifficultToRecover
  else if (privilegeShell rt).search value then .privilegeExpansion
  else if (credentialShell rt).search value then .credentialOrAuthChange
  else if (externalShell rt).search value then .externalPublicationOrCommunication
  else if readShell.fullmatch value then .read
  else .reversibleWrite

/-! ## The effect of a call -/

/-- `action` in `action_effect_for` -/
def actionVerb (rt : Runtime) (arguments : Object) : String := rt.lower (arguments.text rt "action")

/-- `method` in `action_effect_for` -/
def httpMethod (rt : Runtime) (arguments : Object) : String := rt.upper (arguments.text rt "method")

/-- `selector` in `action_effect_for` -/
def selectorText (rt : Runtime) (arguments : Object) : String :=
  " ".intercalate <|
    ["key", "setting", "field", "kind", "operation"].map fun key => rt.lower (arguments.text rt key)

def purchaseName : Regex :=
  .oneOf ["buy", "purchase", "subscribe", "checkout", "order", "payment"]

def credentialSelector : Regex :=
  .choice
    [.oneOf ["auth", "oauth", "login", "mfa", "password", "credential", "token"],
      .sequence [.lit "api", .opt (.set "_-"), .lit "key"]]

def privilegeSelector : Regex :=
  .oneOf ["privilege", "permission", "role", "sudo", "root", "shell", "bash"]

/-- The condition of the purchase branch. -/
def isPurchase (name action : String) : Bool :=
  decide (action ∈ purchaseActions) || purchaseName.search name

/-- The condition of the credential branch. -/
def isCredentialChange (rt : Runtime) (name action : String) (arguments : Object) : Bool :=
  decide (action ∈ credentialActions) || decide (name ∈ ["manage_tokens", "vault_unlock"]) ||
    (decide (action ∉ readActions) && containsCredentialField rt (.dict arguments)) ||
    (decide (action ∉ readActions) && credentialSelector.search (selectorText rt arguments))

/-- The condition of the privilege branch. -/
def isPrivilegeExpansion (rt : Runtime) (name action : String) (arguments : Object) : Bool :=
  decide (action ∈ privilegeActions) ||
    (decide (name = "manage_mcp") && decide (action ∈ ["add", "connect", "enable", "install"])) ||
    (decide (action ∉ readActions) && privilegeSelector.search (selectorText rt arguments))

/-- The candidate that `action_effect_for` reads off the concrete call, if any. -/
def concreteEffect (rt : Runtime) (call : ActionCall) : Option ActionEffect :=
  let name := call.name
  let arguments := call.arguments.asObject
  let action := actionVerb rt arguments
  if outsideConfiguredWorkspace rt call then some .outsideWorkspaceBoundary
  else if name ∈ ["bash", "python"] then
    some (shellEffect rt (arguments.firstText rt ["command", "code"]))
  else if isPurchase name action then some .purchase
  else if isCredentialChange rt name action arguments then some .credentialOrAuthChange
  else if isPrivilegeExpansion rt name action arguments then some .privilegeExpansion
  else if action ∈ destructiveActions then some .destructiveOrDifficultToRecover
  else if name = "api_call" then
    some (if httpMethod rt arguments = "GET" then .read else .externalPublicationOrCommunication)
  else if name = "ssh_node" then
    some (if action = "run" then shellEffect rt (arguments.text rt "command") else .read)
  else if name = "android_device" then
    some (if action ∈ androidReadActions then .read else .reversibleWrite)
  else if action ∈ externalActions then some .externalPublicationOrCommunication
  else if action ∈ readActions then some .read
  else defaultEffectByCapability name

/-- `max(candidates, key=strictness)` -/
def strictest (candidates : List ActionEffect) : Option ActionEffect :=
  firstMax ActionEffect.strictness candidates

/-- `action_effect_for`; `none` is `"unclassified"`, which the source also returns early for a
name in no table when there is no candidate. -/
def actionEffectFor (rt : Runtime) (call : ActionCall) : Option ActionEffect :=
  strictest ((declaredEffect rt call).toList ++ (concreteEffect rt call).toList)

/-- `permission_mode_for` -/
def permissionModeFor (rt : Runtime) (call : ActionCall) : String :=
  match actionEffectFor rt call with
  | none => "unclassified"
  | some .read => "read_only"
  | some .reversibleWrite => "bounded_write"
  | some .destructiveOrDifficultToRecover => "destructive"
  | some .externalPublicationOrCommunication => "external_side_effect"
  | some _ => "separate_gate"

/-! ## Calls to run the definitions with -/

/-- A mail call with the given arguments. -/
def mailCall (arguments : Object) : ActionCall where
  requestId := "r"
  agentId := "agent"
  name := "send_email"
  target := "tool"
  arguments := .dict arguments
  capabilityPolicy := []

/-- A mail whose arguments name no action. -/
def plainMail : ActionCall :=
  mailCall [("to", .str "a@b.c"), ("subject", .str "Hi"), ("body", .str "Hi")]

end Pandamonium
