import Pandamonium.Library.Dict
import Pandamonium.Model.Value

/-!
# JSON texts

`json.dumps` and `json.loads` of the standard library, on the characters of a text.  A float
is its `repr`, so what the two functions need of floating point is one function, from the text
of a number to the `repr` of the float that it denotes.  Texts are made of Unicode scalar
values: the escape of a surrogate that is not half of a pair is not read.
-/

set_option autoImplicit false

namespace Pandamonium.Json

open Pandamonium.Library

/-! ## Writing -/

/-- The separators of `json.dumps`, with or without the spaces, and `ensure_ascii`. -/
structure Format where
  spaced : Bool
  ensureAscii : Bool

/-- The defaults of `json.dumps`. -/
def Format.standard : Format := ⟨true, true⟩

/-- `separators=(",", ":")` -/
def Format.compact : Format := ⟨false, true⟩

/-- `ensure_ascii=False` -/
def Format.unicode : Format := ⟨true, false⟩

/-- A separator of items or of a key and its value. -/
def Format.separator (fmt : Format) (x : Char) : List Char :=
  if fmt.spaced then [x, ' '] else [x]

/-- `XXXX` -/
def unitDigits (n : ℕ) : List Char :=
  [n / 4096 % 16, n / 256 % 16, n / 16 % 16, n % 16].map Nat.digitChar

/-- `\uXXXX` -/
def unitEscape (n : ℕ) : List Char := '\\' :: 'u' :: unitDigits n

/-- An escape of a character outside the basic plane is a surrogate pair. -/
def unicodeEscape (x : Char) : List Char :=
  if x.toNat < 0x10000 then unitEscape x.toNat
  else
    unitEscape (0xd800 + (x.toNat - 0x10000) / 1024) ++
      unitEscape (0xdc00 + (x.toNat - 0x10000) % 1024)

def writeChar (ensureAscii : Bool) (x : Char) : List Char :=
  if x = '"' then ['\\', '"']
  else if x = '\\' then ['\\', '\\']
  else if x = '\n' then ['\\', 'n']
  else if x = '\r' then ['\\', 'r']
  else if x = '\t' then ['\\', 't']
  else if x = '\x08' then ['\\', 'b']
  else if x = '\x0c' then ['\\', 'f']
  else if x.toNat < 0x20 || (ensureAscii && decide (0x7e < x.toNat)) then unicodeEscape x
  else [x]

def writeString (ensureAscii : Bool) (s : String) : List Char :=
  '"' :: (s.toList.flatMap (writeChar ensureAscii) ++ ['"'])

/-- A float as JSON writes it, from its `repr`. -/
def writeFloat (repr : String) : List Char :=
  if repr = "nan" then "NaN".toList
  else if repr = "inf" then "Infinity".toList
  else if repr = "-inf" then "-Infinity".toList
  else repr.toList

mutual

def write (fmt : Format) : Value → List Char
  | .null => "null".toList
  | .bool b => if b then "true".toList else "false".toList
  | .int i => (toString i).toList
  | .float repr => writeFloat repr
  | .str s => writeString fmt.ensureAscii s
  | .list [] => ['[', ']']
  | .list (item :: items) => '[' :: (write fmt item ++ writeItems fmt items)
  | .dict [] => ['{', '}']
  | .dict ((key, item) :: items) =>
    '{' :: (writeString fmt.ensureAscii key ++ fmt.separator ':' ++ write fmt item ++
      writeMembers fmt items)

def writeItems (fmt : Format) : List Value → List Char
  | [] => [']']
  | item :: items => fmt.separator ',' ++ write fmt item ++ writeItems fmt items

def writeMembers (fmt : Format) : List (String × Value) → List Char
  | [] => ['}']
  | (key, item) :: items =>
    fmt.separator ',' ++ writeString fmt.ensureAscii key ++ fmt.separator ':' ++ write fmt item ++
      writeMembers fmt items

end

/-- `json.dumps` -/
def dumps (fmt : Format) (v : Value) : String := String.ofList (write fmt v)

/-! ## Reading -/

/-- `[ \t\n\r]` -/
def isBlank (x : Char) : Bool := x = ' ' || x = '\t' || x = '\n' || x = '\r'

def skipBlanks (cs : List Char) : List Char := cs.dropWhile isBlank

def hexDigit (x : Char) : Option ℕ :=
  if '0' ≤ x ∧ x ≤ '9' then some (x.toNat - 48)
  else if 'a' ≤ x ∧ x ≤ 'f' then some (x.toNat - 87)
  else if 'A' ≤ x ∧ x ≤ 'F' then some (x.toNat - 55)
  else none

/-- The four digits after `\u`. -/
def readUnit : List Char → Option (ℕ × List Char)
  | a :: b :: c :: d :: rest => do
    let a ← hexDigit a
    let b ← hexDigit b
    let c ← hexDigit c
    let d ← hexDigit d
    some (4096 * a + 256 * b + 16 * c + d, rest)
  | _ => none

/-- The rest of a text after one of its prefixes. -/
def dropPrefix? : List Char → List Char → Option (List Char)
  | [], cs => some cs
  | _ :: _, [] => none
  | x :: xs, y :: cs => if x = y then dropPrefix? xs cs else none

/-- The character that `\uXXXX`, or a pair of them, stands for. -/
def readUnicode (cs : List Char) : Option (Char × List Char) := do
  let (n, rest) ← readUnit cs
  if 0xd800 ≤ n ∧ n ≤ 0xdbff then
    let rest ← dropPrefix? ['\\', 'u'] rest
    let (m, rest) ← readUnit rest
    if 0xdc00 ≤ m ∧ m ≤ 0xdfff then
      some (Char.ofNat (0x10000 + (n - 0xd800) * 1024 + (m - 0xdc00)), rest)
    else none
  else if 0xdc00 ≤ n ∧ n ≤ 0xdfff then none
  else some (Char.ofNat n, rest)

/-- The characters that a letter after a backslash stands for. -/
def simpleEscape (x : Char) : Option Char :=
  if x = '"' then some '"'
  else if x = '\\' then some '\\'
  else if x = '/' then some '/'
  else if x = 'b' then some '\x08'
  else if x = 'f' then some '\x0c'
  else if x = 'n' then some '\n'
  else if x = 'r' then some '\r'
  else if x = 't' then some '\t'
  else none

def readEscape : List Char → Option (Char × List Char)
  | [] => none
  | x :: rest =>
    if x = 'u' then readUnicode rest
    else (simpleEscape x).map fun y => (y, rest)

/-- What the character `x` of a string stands for, with the text after it. -/
def readChar (x : Char) (rest : List Char) : Option (Char × List Char) :=
  if x = '\\' then readEscape rest
  else if x.toNat < 0x20 then none
  else some (x, rest)

/-- The characters of a string up to its closing quote. -/
def readString : ℕ → List Char → Option (List Char × List Char)
  | 0, _ => none
  | _ + 1, [] => none
  | fuel + 1, x :: rest =>
    if x = '"' then some ([], rest)
    else do
      let (y, rest) ← readChar x rest
      let (ys, rest) ← readString fuel rest
      some (y :: ys, rest)

/-- One of the signs, if there is one. -/
def readSign (signs : List Char) : List Char → List Char × List Char
  | [] => ([], [])
  | x :: rest => if x ∈ signs then ([x], rest) else ([], x :: rest)

/-- `[0-9]*` -/
def readRun (cs : List Char) : List Char × List Char := cs.span Char.isDigit

/-- `0|[1-9][0-9]*`, empty where there is none. -/
def readDigits : List Char → List Char × List Char
  | [] => ([], [])
  | x :: rest => if x = '0' then (['0'], rest) else readRun (x :: rest)

/-- `(\.[0-9]+)?` -/
def readFraction : List Char → List Char × List Char
  | [] => ([], [])
  | x :: rest =>
    let digits := readRun rest
    if x = '.' ∧ digits.1 ≠ [] then ('.' :: digits.1, digits.2) else ([], x :: rest)

/-- `([eE][-+]?[0-9]+)?` -/
def readExponent : List Char → List Char × List Char
  | [] => ([], [])
  | x :: rest =>
    let sign := readSign ['-', '+'] rest
    let digits := readRun sign.2
    if x ∈ ['e', 'E'] ∧ digits.1 ≠ [] then (x :: (sign.1 ++ digits.1), digits.2)
    else ([], x :: rest)

/-- The text of a number at the start of a text: its integer part, the rest of it, and what
comes after it. -/
def readLexeme (cs : List Char) : Option (List Char × List Char × List Char) :=
  let sign := readSign ['-'] cs
  let digits := readDigits sign.2
  let fraction := readFraction digits.2
  let exponent := readExponent fraction.2
  if digits.1 = [] then none else some (sign.1 ++ digits.1, fraction.1 ++ exponent.1, exponent.2)

/-- The integer written as a sign and digits. -/
def intOf : List Char → Int
  | [] => 0
  | x :: digits =>
    if x = '-' then -(Nat.ofDigitChars 10 digits 0 : Int) else Nat.ofDigitChars 10 (x :: digits) 0

/-- The text of a float: a number with a fraction or an exponent. -/
def IsFloat (text : String) : Prop :=
  ∃ whole part, part ≠ [] ∧ readLexeme text.toList = some (whole, part, [])

/-- `repr(float(text))` for the text of a float. -/
structure FloatText where
  repr : String → String
  /-- The `repr` of a finite float denotes that float. -/
  repr_repr : ∀ text, IsFloat text → repr text = "inf" ∨ repr text = "-inf" ∨
    (IsFloat (repr text) ∧ repr (repr text) = repr text)

variable (fl : FloatText)

def readNumber (cs : List Char) : Option (Value × List Char) :=
  match readLexeme cs with
  | none => none
  | some (whole, [], rest) => some (.int (intOf whole), rest)
  | some (whole, part, rest) => some (.float (fl.repr (String.ofList (whole ++ part))), rest)

/-- The names that stand for a value. -/
def constants : List (List Char × Value) :=
  [("null".toList, .null), ("true".toList, .bool true), ("false".toList, .bool false),
    ("NaN".toList, .float "nan"), ("Infinity".toList, .float "inf"),
    ("-Infinity".toList, .float "-inf")]

/-- The value whose name a text starts with. -/
def readConstant (cs : List Char) : Option (Value × List Char) :=
  constants.findSome? fun entry => (dropPrefix? entry.1 cs).map fun rest => (entry.2, rest)

mutual

/-- `scan_once`.  Every call spends one unit of fuel. -/
def readValue : ℕ → List Char → Option (Value × List Char)
  | 0, _ => none
  | _ + 1, [] => none
  | fuel + 1, x :: rest =>
    if x = '"' then
      (readString fuel rest).map fun (cs, rest) => (.str (String.ofList cs), rest)
    else if x = '[' then
      match skipBlanks rest with
      | [] => none
      | y :: rest' =>
        if y = ']' then some (.list [], rest')
        else (readItems fuel (y :: rest')).map fun (items, rest) => (.list items, rest)
    else if x = '{' then
      match skipBlanks rest with
      | [] => none
      | y :: rest' =>
        if y = '}' then some (.dict [], rest')
        else (readMembers fuel [] (y :: rest')).map fun (items, rest) => (.dict items, rest)
    else match readConstant (x :: rest) with
      | some found => some found
      | none => readNumber fl (x :: rest)

/-- `JSONArray` from the start of an item. -/
def readItems : ℕ → List Char → Option (List Value × List Char)
  | 0, _ => none
  | fuel + 1, cs => do
    let (item, rest) ← readValue fuel cs
    match skipBlanks rest with
    | [] => none
    | x :: rest =>
      if x = ']' then some ([item], rest)
      else if x = ',' then do
        let (items, rest) ← readItems fuel (skipBlanks rest)
        some (item :: items, rest)
      else none

/-- `JSONObject` from the start of a key, with the members before it.  Of two members with one
key the second one counts. -/
def readMembers : ℕ → List (String × Value) → List Char → Option (List (String × Value) × List Char)
  | 0, _, _ => none
  | fuel + 1, members, cs => do
    let rest ← dropPrefix? ['"'] cs
    let (key, rest) ← readString fuel rest
    let rest ← dropPrefix? [':'] (skipBlanks rest)
    let (item, rest) ← readValue fuel (skipBlanks rest)
    let members := Dict.assign (String.ofList key) item members
    match skipBlanks rest with
    | [] => none
    | x :: rest =>
      if x = '}' then some (members, rest)
      else if x = ',' then readMembers fuel members (skipBlanks rest)
      else none

end

/-- `json.loads`, `none` where it raises. -/
def loads (text : String) : Option Value :=
  match readValue fl (text.toList.length + 1) (skipBlanks text.toList) with
  | some (v, rest) => if skipBlanks rest = [] then some v else none
  | none => none

/-- Floats whose text is their `repr`. -/
def FloatText.plain : FloatText where
  repr := id
  repr_repr := fun _ h => .inr (.inr ⟨h, rfl⟩)

end Pandamonium.Json
