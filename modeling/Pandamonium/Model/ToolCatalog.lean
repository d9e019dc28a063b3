import Pandamonium.Library.StableOrder
import Pandamonium.Model.ContextCompactor
import Pandamonium.Model.Json

/-!
# The ceiling on the tool catalog

`cap_tool_schemas` of `src/model_context.py`.
-/

set_option autoImplicit false

namespace Pandamonium.ToolCatalog

open Pandamonium.Library
open Pandamonium.Json (dumps Format)

variable (rt : Runtime)

/-- `_name` -/
def schemaName (schema : Object) : String :=
  match ((schema.get? "function").getD .null).asObject.get? "name" with
  | some v => if v.truthy then v.text rt else schema.text rt "name"
  | none => schema.text rt "name"

/-- The tokens a schema is counted with; the order of its keys does not change the length. -/
def schemaTokens (schema : Object) : ℕ :=
  max ((dumps Format.standard (.dict schema)).length * 3 / 10) 1

/-- The ceiling, from the budget of the input and the percentage of the catalog. -/
def catalogLimit (inputBudget : Option ℤ) (percent : ℕ) : ℕ :=
  max ((inputBudget.getD 0).toNat * percent / 100) 64

/-- `[schema for schema in schemas or [] if isinstance(schema, dict)]` -/
def validSchemas (schemas : List Value) : List Object :=
  schemas.filterMap fun
    | .dict schema => some schema
    | _ => none

/-- A schema and its place among the valid ones. -/
abbrev Item := Object × ℕ

def isPriority (priority : List String) (item : Item) : Bool :=
  decide (schemaName rt item.1 ∈ priority)

/-- `(0 if _name(item[1]) in priority else 1, item[0])`, for one of so many schemas. -/
def rank (priority : List String) (count : ℕ) (item : Item) : ℕ :=
  (if isPriority rt priority item then 0 else 1) * count + item.2

/-- `_name(schema) or f"schema_{original_index}"` -/
def dropLabel (item : Item) : String :=
  if schemaName rt item.1 ≠ "" then schemaName rt item.1 else "schema_" ++ toString item.2

structure Selection where
  keptRanked : List Item
  dropped : List String
  used : ℕ

/-- The schema is kept if it fits. -/
def select (limit : ℕ) (s : Selection) (item : Item) : Selection :=
  if s.used + schemaTokens item.1 ≤ limit then
    { s with keptRanked := s.keptRanked ++ [item], used := s.used + schemaTokens item.1 }
  else { s with dropped := s.dropped ++ [dropLabel rt item] }

/-- `cap_tool_schemas` -/
def capToolSchemas (setting : String → Option (Option ℤ)) (schemas : List Value)
    (inputBudget : Option ℤ) (priority : List String) : List Object × List String :=
  let valid := validSchemas schemas
  let percent := ((ContextCompactor.contextClassBudgetPercent setting).lookup "tool_catalog").getD 0
  let ranked := orderedBy (rank rt priority valid.length) valid.zipIdx
  let s := ranked.foldl (select rt (catalogLimit inputBudget percent)) ⟨[], [], 2⟩
  ((orderedBy Prod.snd s.keptRanked).map Prod.fst, s.dropped)

end Pandamonium.ToolCatalog
