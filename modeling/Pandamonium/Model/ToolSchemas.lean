import Pandamonium.Model.Json

/-!
# Native function calls as tool blocks

`function_call_to_tool_block` of `tool_schemas.py` turns the arguments of a native function call
into the text that the tool reads.  The arguments are those of a call whose JSON text is an object;
a text that is none, and what is salvaged of it, is left out.
-/

set_option autoImplicit false

namespace Pandamonium.ToolText

open Pandamonium.Json (dumps Format)

/-- `BUILTIN_EMAIL_TOOLS` -/
def builtinEmailTools : List String :=
  ["list_email_accounts", "list_emails", "read_email", "search_emails", "send_email",
    "reply_to_email", "draft_email", "draft_email_reply", "ai_draft_email_reply", "archive_email",
    "delete_email", "mark_email_read", "bulk_email", "download_attachment"]

/-- `TOOL_TAGS` -/
def toolTags : List String :=
  ["bash", "python", "web_search", "web_fetch", "read_file", "write_file", "edit_file", "grep",
    "glob", "ls", "get_workspace", "manage_workspace", "manage_bg_jobs", "inspect_network",
    "create_document", "update_document", "edit_document", "search_chats", "chat_with_model",
    "create_session", "list_sessions", "send_to_session", "pipeline", "manage_session",
    "manage_memory", "list_models", "ui_control", "generate_image", "ask_user", "update_plan",
    "manage_tasks", "api_call", "ask_teacher", "manage_skills", "suggest_document",
    "manage_endpoints", "manage_mcp", "manage_webhooks", "manage_tokens", "manage_documents",
    "manage_settings", "manage_extensions", "get_runtime_status", "start_agent_task",
    "read_agent_task", "search_jarvis_knowledge", "manage_notes", "manage_calendar",
    "read_calendar", "resolve_contact", "manage_contact", "ssh_node", "nextcloud_files",
    "android_device", "download_model", "serve_model", "list_served_models", "stop_served_model",
    "list_downloads", "cancel_download", "search_hf_models", "list_cached_models",
    "list_serve_presets", "serve_preset", "adopt_served_model", "list_cookbook_servers",
    "tail_serve_output", "edit_image", "trigger_research", "manage_research", "app_api",
    "manage_books"] ++ builtinEmailTools

/-- `_TOOL_NAME_MAP` -/
def toolNameMap : List (String × String) :=
  [("manage_books", "manage_books"), ("get_runtime_status", "get_runtime_status"),
    ("start_agent_task", "start_agent_task"), ("read_agent_task", "read_agent_task"),
    ("search_jarvis_knowledge", "search_jarvis_knowledge"), ("shell", "bash"), ("bash", "bash"),
    ("terminal", "bash"), ("command", "bash"), ("execute", "bash"), ("run", "bash"),
    ("python", "python"), ("code", "python"), ("search", "web_search"),
    ("web_search", "web_search"), ("websearch", "web_search"), ("google_search", "web_search"),
    ("google_search_retrieval", "web_search"), ("google_search_grounding", "web_search"),
    ("web_fetch", "web_fetch"), ("webfetch", "web_fetch"), ("fetch_url", "web_fetch"),
    ("fetch", "web_fetch"), ("read", "read_file"), ("read_file", "read_file"),
    ("cat", "read_file"), ("write", "write_file"), ("write_file", "write_file"),
    ("save", "write_file"), ("document", "update_document"),
    ("update_document", "update_document"), ("create_document", "create_document"),
    ("edit", "edit_document"), ("edit_document", "edit_document"),
    ("search_chats", "search_chats"), ("search_conversations", "search_chats"),
    ("find_chat", "search_chats"), ("chat_with_model", "chat_with_model"),
    ("ask_model", "chat_with_model"), ("chat_model", "chat_with_model"),
    ("create_session", "create_session"), ("new_session", "create_session"),
    ("list_sessions", "list_sessions"), ("send_to_session", "send_to_session"),
    ("message_session", "send_to_session"), ("pipeline", "pipeline"), ("chain", "pipeline"),
    ("manage_session", "manage_session"), ("session_control", "manage_session"),
    ("manage_memory", "manage_memory"), ("memory", "manage_memory"),
    ("manage_tasks", "manage_tasks"), ("tasks", "manage_tasks"), ("schedule", "manage_tasks"),
    ("list_models", "list_models"), ("models", "list_models"), ("available_models", "list_models"),
    ("ui_control", "ui_control"), ("ui", "ui_control"), ("control", "ui_control"),
    ("api_call", "api_call"), ("api", "api_call"), ("integration", "api_call"),
    ("ask_teacher", "ask_teacher"), ("teacher", "ask_teacher"), ("manage_skills", "manage_skills"),
    ("skills", "manage_skills"), ("skill", "manage_skills"),
    ("suggest_document", "suggest_document"), ("suggest", "suggest_document"),
    ("review_document", "suggest_document"), ("manage_endpoints", "manage_endpoints"),
    ("endpoints", "manage_endpoints"), ("manage_mcp", "manage_mcp"), ("mcp_servers", "manage_mcp"),
    ("manage_webhooks", "manage_webhooks"), ("webhooks", "manage_webhooks"),
    ("manage_tokens", "manage_tokens"), ("tokens", "manage_tokens"),
    ("manage_documents", "manage_documents"), ("documents", "manage_documents"),
    ("manage_research", "manage_research"), ("list_research", "manage_research"),
    ("read_research", "manage_research"), ("open_research", "manage_research"),
    ("delete_research", "manage_research"), ("manage_settings", "manage_settings"),
    ("settings", "manage_settings"), ("preferences", "manage_settings"),
    ("manage_notes", "manage_notes"), ("notes", "manage_notes"), ("todo", "manage_notes"),
    ("todos", "manage_notes"), ("manage_bg_jobs", "manage_bg_jobs"), ("bg_jobs", "manage_bg_jobs"),
    ("background_jobs", "manage_bg_jobs")]

/-- `_TOOL_NAME_MAP.get(name, name)` -/
def toolTypeOf (name : String) : String := (toolNameMap.lookup name).getD name

/-- `_REQUIRED_NATIVE_TOOL_ARGS` -/
def requiredNativeToolArgs : List (String × List String) :=
  [("web_search", ["query", "queries"]), ("web_fetch", ["url"]), ("read_file", ["path"]),
    ("write_file", ["path"]), ("edit_file", ["path"])]

/-- What the conversion raises where an argument is not of the type it is used at. -/
inductive Raised
  | typeError
  | attributeError
  deriving DecidableEq, Repr

/-- `ToolBlock`; the content is an argument of the call as it is for some tools. -/
structure ToolBlock where
  toolType : String
  content : Value

/-- `args.get(key, default)` -/
def getOr (args : Object) (key : String) (default : Value) : Value := (args.get? key).getD default

/-- `args.get(key, "")` -/
def getText (args : Object) (key : String) : Value := getOr args key (.str "")

/-- `v or w` -/
def orElse (v w : Value) : Value := if v.truthy then v else w

/-- `args.get(k₁) or args.get(k₂) or ... or default` -/
def firstOf (args : Object) (keys : List String) (default : Value) : Value :=
  keys.foldr (fun key v => orElse (getOr args key .null) v) default

/-- `v + w + ...` of a chain with a text in it. -/
def concat (parts : List Value) : Except Raised String :=
  match parts with
  | [] => .ok ""
  | .str s :: parts => (concat parts).map (s ++ ·)
  | _ :: _ => .error .typeError

/-- `"\n".join(parts)` -/
def joinLines (parts : List Value) : Except Raised String :=
  concat (parts.intersperse (.str "\n"))

section

variable (rt : Runtime)

/-- `json.dumps(args) if args else "{}"`, which is also what an empty object is written as. -/
def dumpArgs (args : Object) : Value := .str (dumps Format.standard (.dict args))

/-- The content of `web_search`. -/
def webSearchContent (args : Object) : Value :=
  let queries := getOr args "queries" .null
  let content : Value :=
    match queries with
    | .list (query :: _) => .str (query.text rt)
    | _ => if queries.truthy then .str (queries.text rt) else getText args "query"
  match getOr args "time_filter" .null with
  | .str tf =>
    if content.truthy ∧ tf ∈ ["day", "week", "month", "year"] then
      dumpArgs [("query", content), ("time_filter", .str tf)]
    else content
  | _ => content

/-- The content of `create_document`. -/
def createDocumentContent (args : Object) : Except Raised String :=
  let language := getOr args "language" .null
  joinLines (getOr args "title" (.str "Untitled") ::
    ((if language.truthy then [language] else []) ++ [getText args "content"]))

/-- The blocks of a list of objects, each with a marker before the text under each key. -/
def editBlocks (fields : List (String × String)) (edits : Value) : String :=
  let items := match edits with
    | .list items => items
    | _ => []
  "\n".intercalate (items.filterMap fun
    | .dict edit => some
      (String.join (fields.map fun field =>
        field.1 ++ "\n" ++ (getText edit field.2).text rt ++ "\n") ++ "<<<END>>>")
    | _ => none)

/-- The content of `manage_session`. -/
def manageSessionContent (args : Object) : Except Raised Value :=
  let action := getText args "action"
  let value := getText args "value"
  match action with
  | .str "list" =>
    match orElse (getText args "session_id") (orElse (getText args "keyword") value) with
    | .str keyword =>
      .ok (.str
        (if keyword ≠ "" ∧ rt.lower keyword ≠ "current" then "list\n" ++ keyword else "list"))
    | keyword => if keyword.truthy then .error .attributeError else .ok (.str "list")
  | _ =>
    let sid := getOr args "session_id" (.str "current")
    (concat ([action, .str "\n", sid] ++ if value.truthy then [.str "\n", value] else [])).map .str

/-- The content of `manage_memory`. -/
def manageMemoryContent (args : Object) : Except Raised Value :=
  let category := getOr args "category" .null
  let key := getOr args "key" .null
  let action := getText args "action"
  match action with
  | .str "add" =>
    let text := firstOf args ["text", "value", "content"] (.str "")
    let text := if text.truthy then text else orElse key text
    let head := Value.str ("add\n" ++ text.text rt)
    let tail : List Value :=
      if category.truthy then [.str "\n", category]
      else if key.truthy then [.str "\n", .str (key.text rt)]
      else []
    (concat (head :: tail)).map .str
  | .str "edit" =>
    (concat [.str "edit\n", getText args "memory_id", .str "\n", getText args "text"]).map .str
  | .str "delete" => (concat [.str "delete\n", getText args "memory_id"]).map .str
  | .str "search" =>
    (concat [.str "search\n", firstOf args ["text", "tex", "query"] (.str "")]).map .str
  | .str "list" =>
    (concat (.str "list" :: if category.truthy then [.str "\n", category] else [])).map .str
  | _ => .ok action

/-- The colours of `create_theme` that are written as `key=value`. -/
def advancedColors : List String :=
  ["userBubbleBg", "aiBubbleBg", "bubbleBorder", "sidebarBg", "sectionAccent", "brandColor",
    "inputBg", "inputBorder", "sendBtnBg", "sendBtnHover", "codeBg", "codeFg", "toggleBg",
    "toggleActive", "accentPrimary", "accentError"]

/-- The content of `ui_control`. -/
def uiControlContent (args : Object) : Except Raised Value :=
  let name := getText args "name"
  let value := getText args "value"
  let action := getText args "action"
  let words (ws : List Value) : Value := .str (" ".intercalate (ws.map fun w => w.text rt))
  match action with
  | .str "toggle" => .ok (words [.str "toggle", name, value])
  | .str "oracle_protocol" =>
    .ok (words ([.str "oracle_protocol", orElse name value] ++
      if name.truthy ∧ value.truthy then [value] else []))
  | .str "open_panel" => .ok (words [.str "open_panel", orElse name value])
  | .str "open_email_reply" =>
    let body := firstOf args ["body", "extra", "content"] (.str "")
    .ok (words ([.str "open_email_reply", firstOf args ["uid"] name,
      firstOf args ["folder"] (orElse value (.str "INBOX")),
      firstOf args ["mode"] (.str "reply")] ++ if body.truthy then [body] else []))
  | .str "switch_model" => .ok (words [.str "switch_model", orElse value name])
  | .str "set_theme" => .ok (words [.str "set_theme", orElse value name])
  | .str "create_theme" =>
    match getOr args "colors" (.dict []) with
    | .dict colors =>
      .ok (words ([.str "create_theme", orElse name (orElse value (.str "custom")),
        getOr colors "bg" (.str "#282c34"), getOr colors "fg" (.str "#9cdef2"),
        getOr colors "panel" (.str "#111111"), getOr colors "border" (.str "#355a66"),
        getOr colors "accent" (.str "#e06c75")] ++
          (advancedColors.filter fun color => (getOr colors color .null).truthy).map fun color =>
            .str (color ++ "=" ++ (getOr colors color .null).text rt)))
    | _ => .error .attributeError
  | _ => .ok action

/-- The content of the block, by the type of the tool. -/
def contentOf (toolType : String) (args : Object) : Except Raised Value :=
  match toolType with
  | "bash" => .ok (getText args "command")
  | "python" => .ok (getText args "code")
  | "web_search" => .ok (webSearchContent rt args)
  | "read_file" =>
    .ok (if (firstOf args ["offset", "limit"] .null).truthy then dumpArgs args
      else getText args "path")
  | "get_workspace" => .ok (.str "")
  | "write_file" => (concat [getText args "path", .str "\n", getText args "content"]).map .str
  | "create_document" => (createDocumentContent args).map .str
  | "edit_document" =>
    .ok (.str (editBlocks rt [("<<<FIND>>>", "find"), ("<<<REPLACE>>>", "replace")]
      (getOr args "edits" (.list []))))
  | "suggest_document" =>
    .ok (.str (editBlocks rt
      [("<<<FIND>>>", "find"), ("<<<SUGGEST>>>", "replace"), ("<<<REASON>>>", "reason")]
      (getOr args "suggestions" (.list []))))
  | "update_document" => .ok (getText args "content")
  | "search_chats" => .ok (getText args "query")
  | "chat_with_model" => (concat [getText args "model", .str "\n", getText args "message"]).map .str
  | "create_session" =>
    (concat [getOr args "name" (.str "Untitled"), .str "\n", getText args "model"]).map .str
  | "list_sessions" => .ok (getText args "filter")
  | "send_to_session" =>
    (concat [getText args "session_id", .str "\n", getText args "message"]).map .str
  | "pipeline" => .ok (dumpArgs [("steps", getOr args "steps" (.list []))])
  | "manage_session" => manageSessionContent rt args
  | "manage_memory" => manageMemoryContent rt args
  | "list_models" => .ok (getText args "filter")
  | "ui_control" => uiControlContent rt args
  | "ask_teacher" =>
    (concat [getOr args "model" (.str "auto"), .str "\n", getText args "problem"]).map .str
  | "ask_user" => .ok (.str (dumps Format.unicode (.dict args)))
  | _ => .ok (dumpArgs args)

/-- One of the arguments that the tool cannot do without is there. -/
def hasRequiredArgs (toolType : String) (args : Object) : Bool :=
  match requiredNativeToolArgs.lookup toolType with
  | none => true
  | some keys => keys.any fun key => strip (args.text rt key) ≠ ""

/-- `function_call_to_tool_block` -/
def functionCallToToolBlock (name : String) (args : Object) : Except Raised (Option ToolBlock) :=
  let toolType := toolTypeOf name
  if ¬ hasRequiredArgs rt toolType args then .ok none
  else if "mcp__".toList.isPrefixOf toolType.toList then .ok (some ⟨toolType, dumpArgs args⟩)
  else if name ∈ builtinEmailTools then .ok (some ⟨"mcp__email__" ++ name, dumpArgs args⟩)
  else if toolType ∉ toolTags then .ok none
  else (contentOf rt toolType args).map fun content => some ⟨toolType, content⟩

end

end Pandamonium.ToolText
