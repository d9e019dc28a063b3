import Mathlib.Data.Nat.Notation

/-!
# Regular expressions

An executable matcher for the patterns of a backtracking engine.  A match is asked for at
a cursor, which remembers the character before it, so that `^` and `\b` are tests of one
position; `ends` lists the cursors a match can stop at, and the order in which an engine
would try them plays no part in whether there is one.
-/

set_option autoImplicit false

namespace Pandamonium.Library

inductive Regex
  | epsilon
  /-- One character of a class. -/
  | char (p : Char → Bool)
  /-- A test of the characters before and after the cursor. -/
  | look (p : Option Char → Option Char → Bool)
  | seq (r s : Regex)
  | alt (r s : Regex)
  | star (r : Regex)

namespace Regex

/-- A position in a text. -/
structure Cursor where
  before : Option Char
  rest : List Char

/-- The cursors reached by repeating a match that moves, at most `n` times. -/
def repeats (step : Cursor → List Cursor) : ℕ → Cursor → List Cursor
  | 0, c => [c]
  | n + 1, c =>
    c :: ((step c).filter fun c' => decide (c'.rest.length < c.rest.length)).flatMap
      (repeats step n)

/-- Where a match that starts at the cursor can end. -/
def ends : Regex → Cursor → List Cursor
  | epsilon, c => [c]
  | char p, c =>
    match c.rest with
    | [] => []
    | x :: rest => if p x then [⟨some x, rest⟩] else []
  | look p, c => if p c.before c.rest.head? then [c] else []
  | seq r s, c => (ends r c).flatMap (ends s)
  | alt r s, c => ends r c ++ ends s c
  | star r, c => repeats (ends r) c.rest.length c

/-- Whether a match starts at the cursor or after it. -/
def searchFrom (r : Regex) : Option Char → List Char → Bool
  | before, [] => !(ends r ⟨before, []⟩).isEmpty
  | before, x :: rest => !(ends r ⟨before, x :: rest⟩).isEmpty || searchFrom r (some x) rest

/-- `re.search(r, text)` -/
def search (r : Regex) (text : String) : Bool := searchFrom r none text.toList

/-- `re.fullmatch(r, text)` -/
def fullmatch (r : Regex) (text : String) : Bool :=
  (ends r ⟨none, text.toList⟩).any fun c => c.rest.isEmpty

/-- The longest match that starts at the cursor. -/
def longest (r : Regex) (c : Cursor) : Option Cursor :=
  (ends r c).foldl
    (fun best c' =>
      match best with
      | none => some c'
      | some b => if c'.rest.length < b.rest.length then some c' else some b)
    none

/-- Each match of at least one character, the longest where several start at one place,
is replaced.  The number bounds the steps. -/
def subFrom (r : Regex) (replacement : List Char) : ℕ → Option Char → List Char → List Char
  | 0, _, rest => rest
  | _ + 1, _, [] => []
  | n + 1, before, x :: rest =>
    match longest r ⟨before, x :: rest⟩ with
    | none => x :: subFrom r replacement n (some x) rest
    | some c =>
      if c.rest.length ≤ rest.length then replacement ++ subFrom r replacement n c.before c.rest
      else x :: subFrom r replacement n (some x) rest

/-- `r.sub(replacement, text)`, where the engine tries the longest match first. -/
def sub (r : Regex) (replacement text : String) : String :=
  String.ofList (subFrom r replacement.toList (text.toList.length + 1) none text.toList)

/-- Each match of at least one character is replaced by what it is taken to, and they are
counted. -/
def replaceFrom (r : Regex) (f : List Char → List Char) :
    ℕ → Option Char → List Char → ℕ × List Char
  | 0, _, rest => (0, rest)
  | _ + 1, _, [] => (0, [])
  | n + 1, before, x :: rest =>
    match longest r ⟨before, x :: rest⟩ with
    | none =>
      let after := replaceFrom r f n (some x) rest
      (after.1, x :: after.2)
    | some c =>
      if c.rest.length ≤ rest.length then
        let after := replaceFrom r f n c.before c.rest
        (after.1 + 1, f ((x :: rest).take (rest.length + 1 - c.rest.length)) ++ after.2)
      else
        let after := replaceFrom r f n (some x) rest
        (after.1, x :: after.2)

/-- `r.sub(f, text)` with the number of the matches, where the engine tries the longest match
first. -/
def replace (r : Regex) (f : List Char → List Char) (text : String) : ℕ × String :=
  let replaced := replaceFrom r f (text.toList.length + 1) none text.toList
  (replaced.1, String.ofList replaced.2)

/-- The longest match at the start of a text. -/
def leading (r : Regex) (text : List Char) : List Char :=
  match longest r ⟨none, text⟩ with
  | some c => text.take (text.length - c.rest.length)
  | none => []

/-- The characters of a text in order. -/
def lit (text : String) : Regex := text.toList.foldr (fun x r => seq (char (· == x)) r) epsilon

/-- One of several texts. -/
def oneOf : List String → Regex
  | [] => char fun _ => false
  | [text] => lit text
  | text :: texts => alt (lit text) (oneOf texts)

/-- `r?` -/
def opt (r : Regex) : Regex := alt r epsilon

/-- `r+` -/
def plus (r : Regex) : Regex := seq r (star r)

/-- `[...]` -/
def set (chars : String) : Regex := char fun x => chars.toList.contains x

/-- `[^...]` -/
def notSet (chars : String) : Regex := char fun x => !chars.toList.contains x

/-- `.` -/
def dot : Regex := notSet "\n"

/-- `^` -/
def start : Regex := look fun before _ => before.isNone

/-- `\b`, for the word characters of the engine. -/
def wordBoundary (isWord : Char → Bool) : Regex :=
  look fun before after => (before.map isWord).getD false != (after.map isWord).getD false

/-- `r{n}` -/
def times : ℕ → Regex → Regex
  | 0, _ => epsilon
  | n + 1, r => seq r (times n r)

/-- `r{0,n}` -/
def atMost : ℕ → Regex → Regex
  | 0, _ => epsilon
  | n + 1, r => opt (seq r (atMost n r))

/-- `r{n,}` -/
def atLeast (n : ℕ) (r : Regex) : Regex := seq (times n r) (star r)

/-- Several expressions one after the other. -/
def sequence : List Regex → Regex
  | [] => epsilon
  | [r] => r
  | r :: rs => seq r (sequence rs)

/-- One of several expressions. -/
def choice : List Regex → Regex
  | [] => char fun _ => false
  | [r] => r
  | r :: rs => alt r (choice rs)

end Regex

end Pandamonium.Library
