import Pandamonium.Library.PercentEncoding
import Pandamonium.Model.ToolParsing

/-!
# A PDF form as markdown

`pdf_form_doc.py` writes the fields of a form as bullets of a markdown document, and reads their
values from the document again.  A bullet ends in a comment that holds the encoded name and the type
of its field; what is read of a line depends on nothing but the line.
-/

set_option autoImplicit false

namespace Pandamonium.PdfForm

open Pandamonium.Library
open Pandamonium.StreamLlm (lstrip)
open Pandamonium.ToolText (searchFirst splitAtText)

/-- `type`, as `pdf_forms.py` gives it. -/
inductive FieldType
  | unknown
  | button
  | checkbox
  | radio
  | text
  | listbox
  | combobox
  | signature
  | choice
  deriving DecidableEq, Repr

def FieldType.word : FieldType → String
  | unknown => "unknown"
  | button => "button"
  | checkbox => "checkbox"
  | radio => "radio"
  | text => "text"
  | listbox => "listbox"
  | combobox => "combobox"
  | signature => "signature"
  | choice => "choice"

/-- A field of a form; a label or a value that is missing is `None`. -/
structure Field where
  name : String
  label : Value
  type : FieldType
  value : Value
  options : List String
  page : Int

/-- The arguments of `render_form_as_markdown`. -/
structure Form where
  fields : List Field
  uploadId : String
  title : String
  introText : Option String

/-- `_PLACEHOLDERS` -/
def placeholders : List String :=
  ["_(empty)_", "_(not selected)_", "_(empty)_.", "_(unsigned)_"]

variable (rt : Runtime)

/-! ## Writing -/

/-- `ch.isalnum()` -/
def isalnum (x : Char) : Bool := rt.isWord x && x != '_'

def encodeName (name : String) : String :=
  String.ofList (percentEncode (fun x => isalnum rt x || ['_', '.', '-'].contains x) name.toList)

/-- `re.sub(r"\s+", " ", text)` -/
def collapse : List Char → List Char
  | [] => []
  | x :: cs =>
    if isSpace x then if cs.head?.any isSpace then collapse cs else ' ' :: collapse cs
    else x :: collapse cs

/-- `_flatten` -/
def flatten : Value → String
  | .null => ""
  | v => strip (String.ofList (collapse (v.text rt).toList))

def checkboxMarker (value : String) : String := if value ≠ "" then "[x]" else "[ ]"

/-- The label that a bullet shows. -/
def Field.shownLabel (f : Field) : String :=
  if flatten rt f.label ≠ "" then flatten rt f.label else f.name

/-- The value that a bullet shows, where it is not a tick. -/
def Field.shown (f : Field) : String :=
  let value := flatten rt f.value
  match f.type with
  | .choice => if value ≠ "" then value else "_(not selected)_"
  | .signature =>
    if value ≠ "" ∧ "signature:".toList.isPrefixOf value.toList then value else "_(unsigned)_"
  | _ => if value ≠ "" then value else "_(empty)_"

def Field.body (f : Field) : String :=
  let label := f.shownLabel rt
  match f.type with
  | .checkbox => checkboxMarker (flatten rt f.value) ++ " **" ++ label ++ "**"
  | .choice => "**" ++ label ++ "** [" ++ " / ".intercalate f.options ++ "]: " ++ f.shown rt
  | _ => "**" ++ label ++ ":** " ++ f.shown rt

/-- `_format_field_bullet` -/
def formatFieldBullet (f : Field) : String :=
  "- " ++ f.body rt ++ " <!-- field=" ++ encodeName rt f.name ++ " type=" ++ f.type.word ++ " -->"

/-- The lines before the fields. -/
def preface (form : Form) : List String :=
  ["<!-- pdf_form_source upload_id=\"" ++ form.uploadId ++ "\" fields=\"" ++
      toString form.fields.length ++ "\" -->",
    "",
    "# " ++ form.title,
    "",
    "Edit values in place — change the text after each label, tick/untick " ++
      "checkboxes, and pick one of the listed options for choice fields. " ++
      "When done, click **Export PDF** to download the filled form.",
    ""]

/-- The loop over the fields, with `last_page`. -/
def fieldLines : Option Int → List Field → List String
  | _, [] => []
  | lastPage, f :: fields =>
    (if some f.page ≠ lastPage then ["", "## Page " ++ toString f.page, ""] else []) ++
      formatFieldBullet rt f :: fieldLines (some f.page) fields

/-- The lines behind the fields. -/
def appendix (form : Form) : List String :=
  match form.introText with
  | none => []
  | some introText =>
    if introText ≠ "" then ["", "---", "", "## Original form text", "", strip introText] else []

def renderFormAsMarkdown (form : Form) : String :=
  "\n".intercalate (preface form ++ (fieldLines rt none form.fields ++ appendix form)) ++ "\n"

/-! ## Reading -/

/-- The characters at which `str.splitlines` ends a line. -/
def isLineBreak (x : Char) : Bool :=
  [0x0a, 0x0b, 0x0c, 0x0d, 0x1c, 0x1d, 0x1e, 0x85, 0x2028, 0x2029].contains x.toNat

/-- `text.splitlines()` -/
def splitlines : List Char → List (List Char)
  | [] => []
  | '\r' :: '\n' :: cs => [] :: splitlines cs
  | x :: cs =>
    if isLineBreak x then [] :: splitlines cs
    else
      match splitlines cs with
      | [] => [[x]]
      | line :: lines => (x :: line) :: lines

/-- `[A-Za-z0-9_.%-]` -/
def isNameChar (x : Char) : Bool := x.isAlphanum || ['_', '.', '%', '-'].contains x

/-- `[A-Za-z0-9_.%-]+` and `\w+`: as many characters of a class as there are, at least one. -/
def readSome (p : Char → Bool) (cs : List Char) : Option (List Char × List Char) :=
  match cs.takeWhile p with
  | [] => none
  | found => some (found, cs.dropWhile p)

/-- `\s+` -/
def readSpaces (cs : List Char) : Option (List Char) := (readSome isSpace cs).map (·.2)

/-- The comment of `_FIELD_BULLET_RE` and the end of the line: the name and the type. -/
def readAnchor (cs : List Char) : Option (List Char × List Char) := do
  let cs ← cs.dropPrefix? "<!--".toList
  let cs ← (lstrip cs).dropPrefix? "field=".toList
  let (name, cs) ← readSome isNameChar cs
  let cs ← readSpaces cs
  let cs ← cs.dropPrefix? "type=".toList
  let (type, cs) ← readSome rt.isWord cs
  let cs ← (lstrip cs).dropPrefix? "-->".toList
  if (lstrip cs).isEmpty then some (name, type) else none

/-- `(?P<body>.*?)\s*` and the comment, the body as short as it can be; a line holds no `\n`. -/
def readBody : List Char → Option (List Char × List Char × List Char)
  | [] => none
  | x :: cs =>
    match readAnchor rt (lstrip (x :: cs)) with
    | some anchor => some ([], anchor)
    | none => (readBody cs).map fun found => (x :: found.1, found.2)

/-- `_FIELD_BULLET_RE.match`: the body, the name and the type. -/
def readBullet (line : List Char) : Option (List Char × List Char × List Char) := do
  let cs ← (lstrip line).dropPrefix? ['-']
  let cs ← readSpaces cs
  readBody rt cs

/-- `_TEXT_VALUE_RE` at the start of a text: what is behind the label. -/
def readText : List Char → Option (List Char)
  | '*' :: '*' :: _ :: cs => (splitAtText ":**".toList cs).map (·.2)
  | _ => none

/-- `\*\*\s*\[[^\]]*\]\s*:` -/
def readOptions (cs : List Char) : Option (List Char) := do
  let cs ← cs.dropPrefix? "**".toList
  let cs ← (lstrip cs).dropPrefix? ['[']
  let cs ← (cs.dropWhile (· != ']')).dropPrefix? [']']
  (lstrip cs).dropPrefix? [':']

/-- `_CHOICE_VALUE_RE` at the start of a text: what is behind the options. -/
def readChoice : List Char → Option (List Char)
  | '*' :: '*' :: _ :: cs => searchFirst readOptions cs
  | _ => none

/-- `_CHECKBOX_VALUE_RE` -/
def readTick (body : List Char) : Bool :=
  match lstrip body with
  | '[' :: state :: ']' :: _ => state == 'x' || state == 'X'
  | _ => false

/-- `if raw in _PLACEHOLDERS: raw = ""` -/
def withoutPlaceholder (raw : String) : String := if raw ∈ placeholders then "" else raw

/-- The value that is read from a body of this type. -/
def readValue (type body : List Char) : Value :=
  if type = "checkbox".toList then .bool (readTick body)
  else
    let found := searchFirst (if type = "choice".toList then readChoice else readText) body
    .str (withoutPlaceholder (strip (String.ofList (found.getD []))))

/-- What the loop of `parse_markdown_to_values` takes from a line. -/
def readLine (line : List Char) : Option (String × Value) :=
  (readBullet rt line).map fun (body, name, type) =>
    (String.ofList (percentDecode name), readValue type body)

def parseMarkdownToValues (content : String) : Dict String Value :=
  (splitlines content.toList).foldl
    (fun values line =>
      match readLine rt line with
      | some (name, value) => values.set name value
      | none => values)
    Dict.empty

end Pandamonium.PdfForm
