import Pandamonium.Library.AngleTags
import Pandamonium.Model.Value

/-!
# Literal scans for tool calls

`_iter_stepfun_tool_calls` of `src/tool_parsing.py`.  Its markers are tags in angle brackets, so a
scan for one is a search for a tag.
-/

set_option autoImplicit false

namespace Pandamonium.TextScanners

open Pandamonium.Library

/-- The inside of `_STEPFUN_CALL_BEGIN` -/
def callBegin : List Char := "｜tool▁call▁begin｜".toList

/-- The inside of `_STEPFUN_CALL_SEP` -/
def callSep : List Char := "｜tool▁sep｜".toList

/-- The inside of `_STEPFUN_CALL_END` -/
def callEnd : List Char := "｜tool▁call▁end｜".toList

/-- The marker as a pattern. -/
def marker (inside : List Char) : Pattern Char (List Char) :=
  tagPattern (fun body => body == inside) fun _ => false

/-- What the scan takes for the names and the bodies of calls. -/
def stepfunSpans (text : List Char) : List (List Char × List Char) :=
  match hstart : (marker callBegin).search text with
  | none => []
  | some (_, _, behindBegin) =>
    match hsep : (marker callSep).search behindBegin with
    | none => []
    | some (name, _, behindSep) =>
      match hend : (marker callEnd).search behindSep with
      | none => []
      | some (body, _, rest) => (name, body) :: stepfunSpans rest
termination_by text.length
decreasing_by
  have hstart := Pattern.length_of_search hstart
  have hsep := Pattern.length_of_search hsep
  have hend := Pattern.length_of_search hend
  omega

/-- `raw_name and len(raw_name) <= 128` -/
def isNamed (call : List Char × List Char) : Bool :=
  decide (stripChars call.1 ≠ [] ∧ (stripChars call.1).length ≤ 128)

/-- `_iter_stepfun_tool_calls` -/
def iterStepfunToolCalls (text : List Char) : List (List Char × List Char) :=
  ((stepfunSpans text).filter isNamed).map fun call => (stripChars call.1, stripChars call.2)

end Pandamonium.TextScanners
