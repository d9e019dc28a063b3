import Pandamonium.Library.Dict
import Pandamonium.Model.ContentScreening

/-!
# What a preview shows

`redact_secrets` and `safe_preview` of `src/authority_protocol.py`, on values that also hold tuples.
-/

set_option autoImplicit false

namespace Pandamonium.SafePreview

open Pandamonium.Library
open Pandamonium.TrainingDatasets (Interpreter redactSecretText)

/-- A value without parts, which may also be the key of a map. -/
inductive Scalar
  | null
  | bool (b : Bool)
  | int (i : ℤ)
  | float (repr : String)
  | str (s : String)
  deriving DecidableEq, Repr

def Scalar.value : Scalar → Value
  | null => .null
  | bool b => .bool b
  | int i => .int i
  | float repr => .float repr
  | str s => .str s

/-- A nested value; a sequence is a tuple or a list. -/
inductive Nested
  | leaf (s : Scalar)
  | seq (isTuple : Bool) (items : List Nested)
  | map (items : List (Scalar × Nested))

/-- What the type of a value and its number tell. -/
def Nested.head : Nested → Value
  | .leaf s => s.value
  | .seq _ _ => .list []
  | .map _ => .dict []

abbrev Nested.text (s : String) : Nested := .leaf (.str s)

variable (it : Interpreter)

/-- `str(key)` -/
def keyText (key : Scalar) : String := key.value.text it.runtime

/-- `_is_credential_field` of an item of a map -/
def isCredential (key : Scalar) (item : Nested) : Bool :=
  isCredentialField it.runtime (keyText it key) item.head

mutual

/-- `redact_secrets` -/
def redactSecrets : Nested → Nested
  | .map items => .map (redactItems items)
  | .seq _ items => .seq false (redactList items)
  | .leaf (.str s) => .text (redactSecretText it s)
  | .leaf s => .leaf s

def redactItems : List (Scalar × Nested) → List (Scalar × Nested)
  | [] => []
  | (key, item) :: items =>
    (key, if isCredential it key item then .text "[redacted]" else redactSecrets item) ::
      redactItems items

def redactList : List Nested → List Nested
  | [] => []
  | item :: items => redactSecrets item :: redactList items

end

/-- `redacted[:1_000] + ("..." if len(redacted) > 1_000 else "")` -/
def cutText (redacted : String) : String :=
  String.ofList (redacted.toList.take 1000) ++ if 1000 < redacted.length then "..." else ""

/-- `str(key)[:100]` -/
def cutKey (key : Scalar) : Scalar :=
  .str (String.ofList ((keyText it key).toList.take 100))

/-- A dict is built of items; one with a key that is there already takes its place. -/
def dictOf {β : Type} (items : List (Scalar × β)) : List (Scalar × β) :=
  items.foldl (fun shown item => Dict.assign item.1 item.2 shown) []

/-- `safe_preview`, with so many levels left: at the top there are six, and `depth > 5` is none. -/
def safePreview : ℕ → Nested → Nested
  | 0, _ => .text "[truncated]"
  | levels + 1, .map items =>
    .map (dictOf ((items.take 50).map fun item =>
      (cutKey it item.1,
        if isCredential it item.1 item.2 then .text "[redacted]" else safePreview levels item.2)))
  | levels + 1, .seq false items => .seq false ((items.take 50).map (safePreview levels))
  | _ + 1, .leaf (.str s) => .text (cutText (redactSecretText it s))
  -- a tuple is neither a mapping nor a list, and is returned as it is
  | _ + 1, value => value

end Pandamonium.SafePreview
