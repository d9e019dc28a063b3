import Pandamonium.Model.ActionResults
import Mathlib.Algebra.Ring.Nat

/-!
# How large the structured part of a result is

A payload within the limit is kept as it is.  Of a larger one the evidence is kept, with two markers,
whatever its size.
-/

set_option autoImplicit false

namespace Pandamonium.ActionResults

open Pandamonium.Json (dumps write writeString writeChar writeMembers Format)

/-- The bytes of characters. -/
def bytesOf (cs : List Char) : ℕ := (String.ofList cs).utf8ByteSize

/-- The bytes of an entry: the quoted name, a colon and the value. -/
def entryBytes (e : String × Value) : ℕ := bytesOf (writeString true e.1) + 1 + jsonSize e.2

/-- The bytes of what is kept of a payload that is too large: the braces, the evidence with a comma
behind each entry, `"truncated":true,"original_bytes":` and the number. -/
def keptBytes (payload : Object) : ℕ :=
  2 + ((evidenceValues payload).map fun e => entryBytes e + 1).sum + 34 +
    jsonSize (.int (jsonSize (.dict payload)))

/-- The structured part is within the limit, and holds what the payload holds or is marked. -/
structure Bounds (payload structured : Object) : Prop where
  within : jsonSize (.dict structured) ≤ maxResultBytes
  fields : structured = payload ∨ structured.get? "truncated" = some (.bool true) ∧
    structured.get? "original_bytes" = some (.int (jsonSize (.dict payload))) ∧
    ∀ e ∈ structured, payload.get? e.1 = some e.2 ∨ e.1 ∈ ["truncated", "original_bytes"]

/-! ## Bytes -/

theorem bytesOf_append (cs cs' : List Char) : bytesOf (cs ++ cs') = bytesOf cs + bytesOf cs' := by
  rw [bytesOf, String.ofList_append, String.utf8ByteSize_append, bytesOf, bytesOf]

theorem bytesOf_cons (x : Char) (cs : List Char) : bytesOf (x :: cs) = bytesOf [x] + bytesOf cs :=
  bytesOf_append [x] cs

theorem entryBytes_eq (key : String) (item : Value) :
    entryBytes (key, item) =
      bytesOf (writeString true key) + 1 + bytesOf (write Format.compact item) :=
  rfl

/-- Entries behind the first one are written with a comma before each. -/
theorem bytesOf_writeMembers (items : Object) :
    bytesOf (writeMembers Format.compact items) =
      (items.map fun e => entryBytes e + 1).sum + 1 := by
  induction items with
  | nil => decide
  | cons e items ih =>
    obtain ⟨key, item⟩ := e
    have hcomma : bytesOf (Format.compact.separator ',') = 1 := by decide
    have hcolon : bytesOf (Format.compact.separator ':') = 1 := by decide
    rw [writeMembers, List.map_cons, List.sum_cons, entryBytes_eq,
      show Format.compact.ensureAscii = true from rfl]
    simp only [bytesOf_append, ih, hcomma, hcolon]
    omega

/-- An object with entries takes one byte less for them than entries behind a first one. -/
theorem jsonSize_dict (e : String × Value) (items : Object) :
    jsonSize (.dict (e :: items)) = 1 + ((e :: items).map fun e => entryBytes e + 1).sum := by
  have hbrace : bytesOf ['\x7b'] = 1 := by decide
  have hcolon : bytesOf (Format.compact.separator ':') = 1 := by decide
  obtain ⟨key, item⟩ := e
  change bytesOf (write Format.compact (.dict ((key, item) :: items))) = _
  rw [write, bytesOf_cons, List.map_cons, List.sum_cons, entryBytes_eq,
    show Format.compact.ensureAscii = true from rfl]
  simp only [bytesOf_append, bytesOf_writeMembers, hbrace, hcolon]
  omega

/-! ## The evidence -/

theorem mem_evidenceValues {payload : Object} {e : String × Value}
    (he : e ∈ evidenceValues payload) : e.1 ∈ evidenceKeys ∧ payload.get? e.1 = some e.2 := by
  obtain ⟨key, hkey, h⟩ := List.mem_filterMap.mp he
  obtain ⟨value, hvalue, rfl⟩ := Option.map_eq_some_iff.mp h
  exact ⟨hkey, hvalue⟩

/-- Assigning to a name that is not there appends. -/
theorem set_of_not_mem {items : Object} {key : String} (h : ∀ e ∈ items, e.1 ≠ key) (v : Value) :
    items.set key v = items ++ [(key, v)] := by
  induction items with
  | nil => rfl
  | cons e items ih =>
    rw [Object.set, if_neg (h e List.mem_cons_self), ih fun e he => h e (List.mem_cons_of_mem _ he)]
    rfl

/-- What is kept of a payload that is too large. -/
theorem boundedStructured_of_lt {payload : Object}
    (h : maxResultBytes < jsonSize (.dict payload)) :
    boundedStructured payload = evidenceValues payload ++
      [("truncated", .bool true), ("original_bytes", .int (jsonSize (.dict payload)))] := by
  have hkey : ∀ e ∈ evidenceValues payload, e.1 ∈ evidenceKeys := fun e he =>
    (mem_evidenceValues he).1
  have htruncated : ∀ e ∈ evidenceValues payload, e.1 ≠ "truncated" := fun e he heq =>
    absurd (heq ▸ hkey e he) (by decide)
  have hbytes : ∀ e ∈ evidenceValues payload ++ [("truncated", Value.bool true)],
      e.1 ≠ "original_bytes" := by
    intro e he heq
    obtain he | he := List.mem_append.mp he
    · exact absurd (heq ▸ hkey e he) (by decide)
    · rw [List.mem_singleton.mp he] at heq
      exact absurd heq (by decide)
  rw [boundedStructured, if_neg (Nat.not_le.mpr h), set_of_not_mem htruncated,
    set_of_not_mem hbytes, List.append_assoc]
  rfl

theorem jsonSize_kept {payload : Object} (h : maxResultBytes < jsonSize (.dict payload)) :
    jsonSize (.dict (boundedStructured payload)) = keptBytes payload := by
  have htruncated : entryBytes ("truncated", .bool true) = 16 := by decide
  have hbytes : bytesOf (writeString true "original_bytes") = 16 := by decide
  rw [boundedStructured_of_lt h, keptBytes]
  have hsum : ∀ e items, evidenceValues payload ++
      [("truncated", .bool true), ("original_bytes", .int (jsonSize (.dict payload)))] = e :: items →
      jsonSize (.dict (e :: items)) = 2 + ((evidenceValues payload).map fun e => entryBytes e + 1).sum +
        34 + jsonSize (.int (jsonSize (.dict payload))) := by
    intro e items heq
    rw [jsonSize_dict, ← heq, List.map_append, List.sum_append, List.map_cons, List.map_cons,
      List.map_nil, List.sum_cons, List.sum_cons, List.sum_nil, htruncated]
    simp only [entryBytes, hbytes]
    omega
  cases heq : evidenceValues payload ++
      [("truncated", .bool true), ("original_bytes", .int (jsonSize (.dict payload)))] with
  | nil => simp at heq
  | cons e items => exact hsum e items heq

theorem fields_boundedStructured (payload : Object) :
    boundedStructured payload = payload ∨
      (boundedStructured payload).get? "truncated" = some (.bool true) ∧
      (boundedStructured payload).get? "original_bytes" =
        some (.int (jsonSize (.dict payload))) ∧
      ∀ e ∈ boundedStructured payload,
        payload.get? e.1 = some e.2 ∨ e.1 ∈ ["truncated", "original_bytes"] := by
  by_cases h : jsonSize (.dict payload) ≤ maxResultBytes
  · exact .inl (if_pos h)
  · refine .inr ⟨?_, ?_, fun e he => ?_⟩
    · rw [boundedStructured, if_neg h, Object.get?_set, if_neg (by decide), Object.get?_set,
        if_pos rfl]
    · rw [boundedStructured, if_neg h, Object.get?_set, if_pos rfl]
    · rw [boundedStructured_of_lt (Nat.lt_of_not_le h)] at he
      obtain he | he := List.mem_append.mp he
      · exact .inl (mem_evidenceValues he).2
      · right
        simp only [List.mem_cons, List.not_mem_nil, or_false] at he
        obtain rfl | rfl := he <;> simp

/-- The structured part of a result is within the limit where the payload is, or where its evidence
and the markers are. -/
theorem structured_bounds_iff (rt : Runtime) (call : Object) (rawResult : Value)
    (startedAt finishedAt description : String) :
    Bounds (payloadOf rawResult)
        (buildActionResult rt call rawResult startedAt finishedAt description).structured ↔
      jsonSize (.dict (payloadOf rawResult)) ≤ maxResultBytes ∨
        keptBytes (payloadOf rawResult) ≤ maxResultBytes := by
  change Bounds (payloadOf rawResult) (boundedStructured (payloadOf rawResult)) ↔ _
  by_cases h : jsonSize (.dict (payloadOf rawResult)) ≤ maxResultBytes
  · refine iff_of_true ⟨?_, fields_boundedStructured _⟩ (.inl h)
    rwa [boundedStructured, if_pos h]
  · have hkept := jsonSize_kept (Nat.lt_of_not_le h)
    constructor
    · exact fun hbounds => .inr (hkept ▸ hbounds.within)
    · rintro (hle | hle)
      · exact absurd hle h
      · exact ⟨hkept ▸ hle, fields_boundedStructured _⟩

/-! ## A long name of a task -/

theorem bytesOf_pos {cs : List Char} (h : cs ≠ []) : 0 < bytesOf cs := by
  refine Nat.pos_of_ne_zero fun hzero => h ?_
  simpa using String.utf8ByteSize_eq_zero_iff.mp hzero

theorem writeChar_ne_nil (x : Char) : writeChar true x ≠ [] := by
  unfold writeChar Json.unicodeEscape Json.unitEscape
  split_ifs <;> simp

/-- A text takes at least a byte for each of its characters. -/
theorem length_le_jsonSize (s : String) : s.length ≤ jsonSize (.str s) := by
  have hchars : ∀ cs : List Char, cs.length ≤ bytesOf (cs.flatMap (writeChar true)) := by
    intro cs
    induction cs with
    | nil => exact Nat.zero_le _
    | cons x cs ih =>
      have := bytesOf_pos (writeChar_ne_nil x)
      rw [List.flatMap_cons, bytesOf_append, List.length_cons]
      omega
  change s.length ≤ bytesOf (write Format.compact (.str s))
  rw [write, writeString, bytesOf_cons, bytesOf_append, ← String.length_toList]
  have := hchars s.toList
  simp only [Format.compact]
  omega

/-- A payload that holds a large name of a task and nothing else is its own evidence. -/
theorem not_bounds_taskId {v : Value} (hlong : 65536 ≤ jsonSize v) :
    ¬ Bounds [("task_id", v)] (boundedStructured [("task_id", v)]) := by
  intro hbounds
  have hevidence : evidenceValues [("task_id", v)] = [("task_id", v)] := by
    simp [evidenceValues, evidenceKeys, Object.get?]
  have hentry : entryBytes ("task_id", v) =
      bytesOf (writeString true "task_id") + 1 + jsonSize v := rfl
  have hpayload : maxResultBytes < jsonSize (.dict [("task_id", v)]) := by
    rw [jsonSize_dict, List.map_singleton, List.sum_singleton, hentry, maxResultBytes]
    omega
  have hle := hbounds.within
  rw [jsonSize_kept hpayload, keptBytes, hevidence, List.map_singleton, List.sum_singleton,
    hentry, maxResultBytes] at hle
  omega

theorem le_jsonSize_replicate (n : ℕ) :
    n ≤ jsonSize (.str (String.ofList (List.replicate n 'a'))) := by
  have := length_le_jsonSize (String.ofList (List.replicate n 'a'))
  rwa [String.length_ofList, List.length_replicate] at this

/-- The name of a task of 65536 letters. -/
theorem not_structured_bounds_taskId : ¬ ∀ rawResult, Bounds (payloadOf rawResult)
    (buildActionResult Runtime.plain [] rawResult "" "" "").structured := by
  intro h
  -- the text stays abstract, so that its letters are never written out
  obtain ⟨v, hv⟩ : ∃ v, 65536 ≤ jsonSize v := ⟨_, le_jsonSize_replicate 65536⟩
  exact not_bounds_taskId hv (h (.dict [("task_id", v)]))

end Pandamonium.ActionResults
