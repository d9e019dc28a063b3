import Mathlib.Data.Nat.Notation

/-!
# Values and the runtime

Action arguments and capability policies are JSON values.  What the interpreter and the
machine provide (case mapping over Unicode, `repr` of containers, the file system behind
`os.path`, the digest of a call) is one record of functions, `Runtime`, over which every
definition and theorem of the authority layer is stated; white space and `str.strip` are
defined here.
-/

set_option autoImplicit false

namespace Pandamonium

/-- A JSON value.  A float is kept as its `repr`. -/
inductive Value
  | null
  | bool (b : Bool)
  | int (i : Int)
  | float (repr : String)
  | str (s : String)
  | list (items : List Value)
  | dict (items : List (String × Value))

/-- The items of a JSON object, in order. -/
abbrev Object := List (String × Value)

/-- `d.get(key)` -/
def Object.get? : Object → String → Option Value
  | [], _ => none
  | (k, v) :: items, key => if k = key then some v else Object.get? items key

/-- `d[key] = v` -/
def Object.set : Object → String → Value → Object
  | [], key, v => [(key, v)]
  | (k, w) :: items, key, v => if k = key then (k, v) :: items else (k, w) :: Object.set items key v

theorem Object.get?_set (items : Object) (key key' : String) (v : Value) :
    (items.set key v).get? key' = if key = key' then some v else items.get? key' := by
  induction items with
  | nil => simp [Object.set, Object.get?]
  | cons item items ih =>
    obtain ⟨k, w⟩ := item
    by_cases hk : k = key
    · by_cases hk' : key = key'
      · simp [Object.set, Object.get?, hk, hk']
      · simp [Object.set, Object.get?, hk, hk']
    · by_cases hk' : key = key'
      · subst hk'
        simp [Object.set, Object.get?, hk, ih]
      · simp only [Object.set, if_neg hk, Object.get?, ih, if_neg hk']

/-- `str.isspace` of one character, which is also `\s`. -/
def isSpace (x : Char) : Bool :=
  decide (x.toNat ∈ [0x09, 0x0a, 0x0b, 0x0c, 0x0d, 0x1c, 0x1d, 0x1e, 0x1f, 0x20, 0x85, 0xa0, 0x1680,
    0x2028, 0x2029, 0x202f, 0x205f, 0x3000]) || decide (0x2000 ≤ x.toNat ∧ x.toNat ≤ 0x200a)

/-- `text.strip()`, on the characters of a text. -/
def stripChars (cs : List Char) : List Char :=
  ((cs.dropWhile isSpace).reverse.dropWhile isSpace).reverse

/-- `text.strip()` -/
def strip (text : String) : String := String.ofList (stripChars text.toList)

@[simp] theorem strip_empty : strip "" = "" := by decide

/-- The length of what `\n\s*\n` takes behind its first newline: white space up to the last
newline of its run. -/
def blankLine (cs : List Char) : ℕ :=
  ((cs.takeWhile isSpace).reverse.dropWhile (· ≠ '\n')).length

/-- `re.split(r"\n\s*\n", text)`; the number of characters that still belong to a separator comes
first. -/
def splitBlankLines : ℕ → List Char → List (List Char)
  | _, [] => [[]]
  | skip + 1, _ :: cs => splitBlankLines skip cs
  | 0, x :: cs =>
    if x = '\n' ∧ 0 < blankLine cs then [] :: splitBlankLines (blankLine cs) cs
    else (splitBlankLines 0 cs).modifyHead (x :: ·)

/-- The interpreter's and the machine's functions. -/
structure Runtime where
  /-- `str.lower` -/
  lower : String → String
  /-- `str.upper` -/
  upper : String → String
  /-- `repr` of a list or an object. -/
  repr : Value → String
  /-- Whether `re.I` takes two characters for the same one. -/
  sameIgnoringCase : Char → Char → Bool
  /-- `\w` -/
  isWord : Char → Bool
  expanduser : String → String
  realpath : String → String
  isabs : String → Bool
  join : String → String → String
  /-- `os.path.commonpath` of two paths, `none` where it raises `ValueError`. -/
  commonpath : String → String → Option String
  /-- The digest of a call's name, target and arguments. -/
  sha256 : String → String → Value → String

namespace Value

/-- `bool(v)` -/
def truthy : Value → Bool
  | null => false
  | bool b => b
  | int i => i != 0
  | float repr => repr != "0.0" && repr != "-0.0"
  | str s => s != ""
  | list items => !items.isEmpty
  | dict items => !items.isEmpty

/-- `str(v)` -/
def text (rt : Runtime) : Value → String
  | null => "None"
  | bool b => if b then "True" else "False"
  | int i => toString i
  | float repr => repr
  | str s => s
  | list items => rt.repr (list items)
  | dict items => rt.repr (dict items)

/-- `v if isinstance(v, Mapping) else {}` -/
def asObject : Value → Object
  | dict items => items
  | _ => []

/-- `v is True` -/
def isTrue : Value → Bool
  | bool b => b
  | _ => false

end Value

/-- `str(d.get(k₁) or d.get(k₂) or ... or "")` -/
def Object.firstText (rt : Runtime) (d : Object) : List String → String
  | [] => ""
  | key :: keys =>
    match d.get? key with
    | none => d.firstText rt keys
    | some v => if v.truthy then v.text rt else d.firstText rt keys

/-- `str(d.get(key) or "")` -/
def Object.text (rt : Runtime) (d : Object) (key : String) : String := d.firstText rt [key]

/-! ## A runtime to run the definitions with -/

mutual

/-- `repr`, for texts without quotes and control characters. -/
def Value.plainRepr : Value → String
  | .null => "None"
  | .bool b => if b then "True" else "False"
  | .int i => toString i
  | .float repr => repr
  | .str s => "'" ++ s ++ "'"
  | .list items => "[" ++ ", ".intercalate (plainReprs items) ++ "]"
  | .dict items => "\x7b" ++ ", ".intercalate (plainReprItems items) ++ "\x7d"

def Value.plainReprs : List Value → List String
  | [] => []
  | item :: items => plainRepr item :: plainReprs items

def Value.plainReprItems : List (String × Value) → List String
  | [] => []
  | (key, item) :: items => ("'" ++ key ++ "': " ++ plainRepr item) :: plainReprItems items

end

/-- Map the characters of a text. -/
def mapChars (f : Char → Char) (s : String) : String := String.ofList (s.toList.map f)

/-- The nonempty components of a path. -/
def components (path : List Char) : List (List Char) :=
  (path.foldr
    (fun x parts =>
      if x = '/' then [] :: parts
      else match parts with
        | [] => [[x]]
        | part :: parts => (x :: part) :: parts)
    [[]]).filter fun part => !part.isEmpty

/-- The common prefix of two lists. -/
def commonPrefix : List (List Char) → List (List Char) → List (List Char)
  | x :: xs, y :: ys => if x = y then x :: commonPrefix xs ys else []
  | _, _ => []

/-- The absolute path with the given components. -/
def absolutePath (parts : List (List Char)) : String :=
  if parts = [] then "/" else String.ofList (parts.flatMap fun part => '/' :: part)

/-- ASCII text, a file system of absolute paths without links, and digests that are the
digested text. -/
def Runtime.plain : Runtime where
  lower := mapChars Char.toLower
  upper := mapChars Char.toUpper
  repr := Value.plainRepr
  sameIgnoringCase := fun x y => x.toLower == y.toLower
  isWord := fun x => x.isAlphanum || x == '_'
  expanduser := id
  realpath := fun path => absolutePath (components path.toList)
  isabs := fun path => path.toList.head? == some '/'
  join := fun base path => base ++ "/" ++ path
  commonpath := fun p q =>
    some (absolutePath (commonPrefix (components p.toList) (components q.toList)))
  sha256 := fun name target arguments => name ++ "\n" ++ target ++ "\n" ++ arguments.plainRepr

end Pandamonium
