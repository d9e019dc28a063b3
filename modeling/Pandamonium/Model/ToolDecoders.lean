import Pandamonium.Model.ToolParsing

/-!
# What the tools read from their blocks

The parsers of `create_document` and `edit_document` in `document_tools.py`, and the one of
`do_manage_memory` in `ai_interaction.py`: what each makes of the content of its block before it
looks at the documents or the memories.
-/

set_option autoImplicit false

namespace Pandamonium.ToolText

open Pandamonium.Library
open Pandamonium.StreamLlm (findText foldCase litIgnoringCase lstrip)

/-- `text.split("\n")` -/
def splitLines (text : String) : List String := (text.toList.splitOn '\n').map String.ofList

/-! ## Edits -/

def findMarker : List Char := "<<<FIND>>>\n".toList

def replaceMarker : List Char := "\n<<<REPLACE>>>\n".toList

def endMarker : List Char := "\n<<<END>>>".toList

/-- A match of the pattern of an edit at the start of a text, and what is behind it. -/
def readEdit (cs : List Char) : Option ((List Char × List Char) × List Char) :=
  if findMarker.isPrefixOf cs then do
    let (find, behind) ← splitAtText replaceMarker (cs.drop findMarker.length)
    let (replace, rest) ← splitAtText endMarker behind
    some ((find, replace), rest)
  else none

/-- The loop of `finditer`; the number bounds its turns. -/
def readEdits : ℕ → List Char → List (List Char × List Char)
  | 0, _ => []
  | fuel + 1, cs =>
    match searchFirst readEdit cs with
    | none => []
    | some (edit, rest) => edit :: readEdits fuel rest

/-- `parse_edit_blocks` -/
def parseEditBlocks (content : String) : List (String × String) :=
  (readEdits content.toList.length content.toList).map fun edit =>
    (String.ofList edit.1, String.ofList edit.2)

section

variable (rt : Runtime) (floats : Json.FloatText)

/-! ## Documents -/

/-- `_KNOWN_LANGS` -/
def knownLangs : List String :=
  ["python", "javascript", "typescript", "html", "css", "markdown", "json", "yaml", "bash", "sql",
    "rust", "go", "java", "c", "cpp", "xml", "toml", "ini", "ruby", "php", "csv", "email", "text",
    "plain", "svg"]

/-- `(?m)^` -/
def lineStart : Regex := .look fun before _ => before.all fun x => x = '\n'

/-- A line that starts with a text, in any case. -/
def headerLine (text : String) : Regex :=
  .sequence [lineStart, litIgnoringCase text, spaces]

/-- `_looks_like_email_document` -/
def looksLikeEmailDocument (text title : String) : Bool :=
  let s := String.ofList (lstrip text.toList)
  rt.lower (strip title) ∈ ["new email", "new mail", "new message"] ||
    ((headerLine "to:").search s && (headerLine "subject:").search s)

/-- `<(div|body|...)\b` -/
def htmlTag : Regex :=
  .sequence [.lit "<", .choice [.oneOf ["div", "body", "head", "p", "span", "table", "button"],
    .seq (.lit "h") (.set "123456"), .oneOf ["ul", "ol", "li", "img"]], .wordBoundary rt.isWord]

/-- `\w` -/
def word : Regex := .char rt.isWord

def pythonLine : Regex :=
  .sequence [lineStart, spaces, .choice [.seq (.oneOf ["def ", "class ", "import "]) (word rt),
    .sequence [.lit "from ", word rt, .star (.char fun x => rt.isWord x || x = '.'),
      .lit " import "]]]

def javascriptLine : Regex :=
  .sequence [lineStart, spaces, .choice [.seq (.oneOf ["function ", "const ", "let "]) (word rt),
    .lit "export ", .sequence [.lit "import ", .star .dot, .lit " from "]]]

def sqlLine : Regex :=
  .sequence [lineStart, spaces, .choice [
    .sequence [litIgnoringCase "select ", .star .dot, litIgnoringCase " from "],
    litIgnoringCase "create table ", litIgnoringCase "insert into ",
    .seq (litIgnoringCase "update ") (word rt)]]

def cssRule : Regex :=
  let inside : Regex := .star (.notSet "\x7b\x7d")
  .sequence [lineStart, .opt (.set ".#"), .plus (.char fun x => rt.isWord x || x = '-'), spaces,
    .lit "\x7b", inside, .lit ":", inside, .lit ";"]

/-- `text.startswith(start)` -/
def startsWith (text start : String) : Bool := start.toList.isPrefixOf text.toList

/-- `_sniff_doc_language` -/
def sniffDocLanguage (text : String) : String :=
  let s := strip text
  let hl := rt.lower (String.ofList (s.toList.take 600))
  let first := rt.lower (strip ((splitLines s).headD ""))
  if s = "" then "markdown"
  else if looksLikeEmailDocument rt s "" then "email"
  else if (findText "<svg".toList hl.toList).isSome then "svg"
  else if startsWith hl "<?xml" then "xml"
  else if startsWith hl "<!doctype html" || startsWith hl "<html" || (htmlTag rt).search hl then
    "html"
  else if (startsWith s "\x7b" || startsWith s "[") && (Json.loads floats s).isSome then "json"
  else if startsWith first "#!" then
    if (findText "python".toList first.toList).isSome then "python" else "bash"
  else if (pythonLine rt).search s then "python"
  else if (javascriptLine rt).search s then "javascript"
  else if (sqlLine rt).search s then "sql"
  else if (cssRule rt).search s then "css"
  else "markdown"

/-- The group of `<tag>\s*(.*?)\s*</tag>`, in any case, where it is found. -/
def taggedText (tag : String) (raw : String) : Option String :=
  match searchFirst (takeIgnoringCase ("<" ++ tag ++ ">").toList) raw.toList with
  | none => none
  | some (_, behind) =>
    (searchFirst (takeIgnoringCase ("</" ++ tag ++ ">").toList) behind).map fun (_, rest) =>
      let closing := tag.length + 3
      strip (String.ofList (behind.take (behind.length - rest.length - closing)))

/-- `</?(?:title|language|content)>` -/
def strayTag : Regex :=
  .sequence [.lit "<", .opt (.lit "/"), .oneOf ["title", "language", "content"], .lit ">"]

structure Document where
  title : String
  language : String
  content : String
  deriving DecidableEq, Repr

/-- The text of a line as a language, if it is one that the editor knows. -/
def languageLine (line : String) : Option String :=
  let candidate := rt.lower (strip line)
  if candidate ∈ knownLangs then some candidate else none

/-- The lines behind the title: the language, unless the tags gave one, and the lines of the
content. -/
def takeLanguage (language : Option String) (lines : List String) :
    Option String × List String :=
  match language, lines with
  | none, line :: rest =>
    match languageLine rt line with
    | some candidate => (some candidate, rest)
    | none => (none, line :: rest)
  | _, _ => (language, lines)

/-- The title, the language and the content before the defaults. -/
def documentParts (raw : String) : String × Option String × String :=
  let title := taggedText "title" raw
  let content := taggedText "content" raw
  let language :=
    if title.isSome ∨ content.isSome then
      (taggedText "language" raw).map fun language => rt.lower (strip language)
    else none
  match title, content with
  | some title, some content => (title, language, content)
  | _, _ =>
    let lines := splitLines (strip (strayTag.sub "" raw))
    let (title, lines) :=
      match title with
      | some title => (title, lines)
      | none => (strip (lines.headD ""), lines.tail)
    let (language, lines) := takeLanguage rt language lines
    (title, language, content.getD ("\n".intercalate lines))

/-- What `CreateDocumentTool.execute` makes of its content. -/
def createDocument (raw : String) : Document :=
  let (title, language, content) := documentParts rt raw
  let language :=
    match language with
    | some language => if language ∈ knownLangs then language else sniffDocLanguage rt floats content
    | none => sniffDocLanguage rt floats content
  { title := if title = "" then "Untitled" else title
    language := if looksLikeEmailDocument rt content title then "email" else language
    content := content }

/-! ## Memories -/

/-- What `do_manage_memory` is asked for. -/
inductive MemoryRequest
  | list (category : Option String)
  | add (text category : String)
  | edit (memoryId text : String)
  | delete (memoryId : String)
  | search (query : String)
  | unknown (action : String)
  | refused (error : String)
  deriving DecidableEq, Repr

/-- `lines[i].strip().lower() if len(lines) > i and lines[i].strip() else None` -/
def lowerLine (lines : List String) (i : ℕ) : Option String :=
  match lines[i]? with
  | some line => if strip line = "" then none else some (rt.lower (strip line))
  | none => none

/-- The parsing of `do_manage_memory`. -/
def memoryRequest (content : String) : MemoryRequest :=
  let lines := splitLines (strip content)
  let action := rt.lower (strip (lines.headD ""))
  match action with
  | "list" => .list (lowerLine rt lines 1)
  | "add" =>
    match lines[1]? with
    | none => .refused "Add needs line 2: memory text"
    | some line =>
      if strip line = "" then .refused "Memory text cannot be empty"
      else .add (strip line) ((lowerLine rt lines 2).getD "fact")
  | "edit" =>
    match lines[1]?, lines[2]? with
    | some memoryId, some text =>
      if strip text = "" then .refused "New text cannot be empty"
      else .edit (strip memoryId) (strip text)
    | _, _ => .refused "Edit needs line 2: memory_id, line 3: new text"
  | "delete" =>
    match lines[1]? with
    | none => .refused "Delete needs line 2: memory_id"
    | some memoryId => .delete (strip memoryId)
  | "search" =>
    match lines[1]? with
    | none => .refused "Search needs line 2: query"
    | some query => .search (strip query)
  | action => .unknown action

end

end Pandamonium.ToolText
