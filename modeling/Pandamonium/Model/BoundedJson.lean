import Pandamonium.Model.ExternalAgent
import Pandamonium.Model.Json

/-!
# Bounded JSON

`_json_depth` and `_bounded_json` of `src/external_agent_bridge.py`.  A document is read into the
tree of its values, with all the members of its objects; a string is the list of its code points,
since an escape may stand for half of a surrogate pair.
-/

set_option autoImplicit false

namespace Pandamonium.BoundedJson

open Pandamonium.Json (skipBlanks readUnit dropPrefix? simpleEscape readLexeme)
open Pandamonium.ExternalAgent (Failure maxCollection maxDepth maxString)

/-- `_MAX_WIRE_BYTES` -/
def maxWireBytes : ℕ := 65536

/-! ## The scanner -/

/-- What `_json_depth` keeps. -/
structure Scan where
  depth : ℕ
  maximum : ℕ
  quoted : Bool
  escaped : Bool
  deriving DecidableEq, Repr

/-- One round of the loop of `_json_depth`, `none` where it raises. -/
def scanByte (s : Scan) (char : Char) : Option Scan :=
  if s.quoted then
    if s.escaped then some { s with escaped := false }
    else if char = '\\' then some { s with escaped := true }
    else if char = '"' then some { s with quoted := false }
    else some s
  else if char = '"' then some { s with quoted := true }
  else if char = '[' ∨ char = '\x7b' then
    some { s with depth := s.depth + 1, maximum := max s.maximum (s.depth + 1) }
  else if char = ']' ∨ char = '\x7d' then
    if s.depth = 0 then none else some { s with depth := s.depth - 1 }
  else some s

/-- `_json_depth` -/
def jsonDepth (raw : ByteArray) : Option ℕ := do
  let s ← raw.data.toList.foldlM (fun s byte => scanByte s (Char.ofNat byte.toNat)) ⟨0, 0, false, false⟩
  if s.quoted || s.depth != 0 then none else some s.maximum

/-! ## Documents -/

/-- The tree of a document. -/
inductive Tree
  | null
  | bool (b : Bool)
  | number (whole part : List Char)
  | str (codes : List ℕ)
  | list (items : List Tree)
  | object (pairs : List (List ℕ × Tree))

/-- What `\uXXXX` stands for; two of them may make a pair. -/
def readUnits (cs : List Char) : Option (ℕ × List Char) := do
  let (n, rest) ← readUnit cs
  match (dropPrefix? ['\\', 'u'] rest).bind readUnit with
  | none => some (n, rest)
  | some (m, rest') =>
    if 0xd800 ≤ n ∧ n ≤ 0xdbff ∧ 0xdc00 ≤ m ∧ m ≤ 0xdfff then
      some (0x10000 + (n - 0xd800) * 1024 + (m - 0xdc00), rest')
    else some (n, rest)

/-- The code point that the character `x` of a string stands for. -/
def readCode (x : Char) (rest : List Char) : Option (ℕ × List Char) :=
  if x = '\\' then
    match rest with
    | [] => none
    | y :: rest => if y = 'u' then readUnits rest else (simpleEscape y).map fun z => (z.toNat, rest)
  else if x.toNat < 0x20 then none
  else some (x.toNat, rest)

/-- The code points of a string up to its closing quote. -/
def readCodes : ℕ → List Char → Option (List ℕ × List Char)
  | 0, _ => none
  | _ + 1, [] => none
  | fuel + 1, x :: rest =>
    if x = '"' then some ([], rest)
    else do
      let (code, rest) ← readCode x rest
      let (codes, rest) ← readCodes fuel rest
      some (code :: codes, rest)

/-- The names of JSON; `parse_constant` raises for the others of the library. -/
def names : List (List Char × Tree) :=
  [("null".toList, .null), ("true".toList, .bool true), ("false".toList, .bool false)]

def readName (cs : List Char) : Option (Tree × List Char) :=
  names.findSome? fun entry => (dropPrefix? entry.1 cs).map fun rest => (entry.2, rest)

mutual

def readTree : ℕ → List Char → Option (Tree × List Char)
  | 0, _ => none
  | _ + 1, [] => none
  | fuel + 1, x :: rest =>
    if x = '"' then (readCodes fuel rest).map fun (codes, rest) => (.str codes, rest)
    else if x = '[' then
      match skipBlanks rest with
      | [] => none
      | y :: rest' =>
        if y = ']' then some (.list [], rest')
        else (readElements fuel (y :: rest')).map fun (items, rest) => (.list items, rest)
    else if x = '\x7b' then
      match skipBlanks rest with
      | [] => none
      | y :: rest' =>
        if y = '\x7d' then some (.object [], rest')
        else (readPairs fuel (y :: rest')).map fun (pairs, rest) => (.object pairs, rest)
    else match readName (x :: rest) with
      | some found => some found
      | none => (readLexeme (x :: rest)).map fun (whole, part, rest) => (.number whole part, rest)

def readElements : ℕ → List Char → Option (List Tree × List Char)
  | 0, _ => none
  | fuel + 1, cs => do
    let (item, rest) ← readTree fuel cs
    match skipBlanks rest with
    | [] => none
    | x :: rest =>
      if x = ']' then some ([item], rest)
      else if x = ',' then do
        let (items, rest) ← readElements fuel (skipBlanks rest)
        some (item :: items, rest)
      else none

def readPairs : ℕ → List Char → Option (List (List ℕ × Tree) × List Char)
  | 0, _ => none
  | fuel + 1, cs => do
    let rest ← dropPrefix? ['"'] cs
    let (key, rest) ← readCodes fuel rest
    let rest ← dropPrefix? [':'] (skipBlanks rest)
    let (item, rest) ← readTree fuel (skipBlanks rest)
    match skipBlanks rest with
    | [] => none
    | x :: rest =>
      if x = '\x7d' then some ([(key, item)], rest)
      else if x = ',' then do
        let (pairs, rest) ← readPairs fuel (skipBlanks rest)
        some ((key, item) :: pairs, rest)
      else none

end

/-- The tree of a whole text. -/
def parse (text : List Char) : Option Tree :=
  match readTree (text.length + 1) (skipBlanks text) with
  | some (tree, rest) => if skipBlanks rest = [] then some tree else none
  | none => none

mutual

/-- No object has a property twice, and no integer more digits than the interpreter converts. -/
def Tree.isStrict : Tree → Bool
  | .number whole [] => decide ((whole.filter (· ≠ '-')).length ≤ 4300)
  | .list items => listIsStrict items
  | .object pairs => decide (pairs.map Prod.fst).Nodup && pairsAreStrict pairs
  | _ => true

def listIsStrict : List Tree → Bool
  | [] => true
  | item :: items => item.isStrict && listIsStrict items

def pairsAreStrict : List (List ℕ × Tree) → Bool
  | [] => true
  | (_, item) :: pairs => item.isStrict && pairsAreStrict pairs

end

/-- The text of bytes in UTF-8, without its byte order mark; a zero byte tells another encoding. -/
def utf8Text (raw : ByteArray) : Option (List Char) :=
  if 0 ∈ raw.data.toList then none
  else (String.fromUTF8? raw).map fun text => (dropPrefix? ['\ufeff'] text.toList).getD text.toList

/-- `_strict_json_loads`, with what it makes of bytes in other encodings. -/
def strictJsonLoads (loadsOther : ByteArray → Option Tree) (raw : ByteArray) : Option Tree :=
  match utf8Text raw with
  | some text => (parse text).filter Tree.isStrict
  | none => loadsOther raw

/-! ## The checks -/

mutual

/-- `_validate_bounded_value`, whether it returns. -/
def Tree.isBounded (depth : ℕ) : Tree → Bool
  | .str codes => decide (depth ≤ maxDepth) && decide (codes.length ≤ maxString)
  | .list items =>
    decide (depth ≤ maxDepth) && decide (items.length ≤ maxCollection) &&
      listIsBounded (depth + 1) items
  | .object pairs =>
    decide (depth ≤ maxDepth) && decide (pairs.length ≤ maxCollection) &&
      pairsAreBounded (depth + 1) pairs
  | _ => decide (depth ≤ maxDepth)

def listIsBounded (depth : ℕ) : List Tree → Bool
  | [] => true
  | item :: items => item.isBounded depth && listIsBounded depth items

def pairsAreBounded (depth : ℕ) : List (List ℕ × Tree) → Bool
  | [] => true
  | (key, item) :: pairs =>
    decide (0 < key.length ∧ key.length ≤ 100) && item.isBounded depth && pairsAreBounded depth pairs

end

/-- `isinstance(payload, dict)` -/
def Tree.isObject : Tree → Bool
  | .object _ => true
  | _ => false

/-- `_bounded_json` -/
def boundedJson (loadsOther : ByteArray → Option Tree) (raw : ByteArray) : Except Failure Tree :=
  if maxWireBytes < raw.size then .error .oversizedPayload
  else
    match jsonDepth raw with
    | none => .error .malformedEnvelope
    | some depth =>
      if maxDepth < depth then .error .malformedEnvelope
      else
        match strictJsonLoads loadsOther raw with
        | none => .error .malformedEnvelope
        | some payload =>
          if payload.isObject && payload.isBounded 0 then .ok payload
          else .error .malformedEnvelope

end Pandamonium.BoundedJson
