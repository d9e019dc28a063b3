import Mathlib.Data.List.Forall2
import Mathlib.Data.List.Induction
import Pandamonium.Analysis.ToolPairing

/-!
# Sanitized tool messages

What `_sanitize_tool_messages` makes of any list of messages, whatever has been cut from it.  It
goes by the order of the messages and not by the ids of the calls: a result that stands in a batch
stays, whatever call it answers.
-/

set_option autoImplicit false

namespace Pandamonium.ContextCompactor

open Pandamonium.Library

/-! ## Batches -/

/-- What stands before is a call and some of its results. -/
def InBatch (before : List Mounted) : Prop :=
  ∃ front call results, before = front ++ call :: results ∧ call.callsTools = true ∧
    ∀ r ∈ results, r.isTool = true

theorem inBatch_of_batchOpen {before : List Mounted} (h : batchOpen false before = true) :
    InBatch before := by
  induction before using List.reverseRecOn with
  | nil => cases h
  | append_singleton front m ih =>
    have hopen : stillOpen (batchOpen false front) m.toMessage = true := by
      rwa [batchOpen, List.foldl_append] at h
    cases htool : m.isTool with
    | false =>
      rw [stillOpen, htool] at hopen
      refine ⟨front, m, [], rfl, hopen, ?_⟩
      simp
    | true =>
      rw [stillOpen, htool] at hopen
      obtain ⟨front', call, results, rfl, hcall, hresults⟩ := ih hopen
      refine ⟨front', call, results ++ [m], ?_, hcall, ?_⟩
      · simp
      · simp only [List.forall_mem_append, List.forall_mem_singleton]
        exact ⟨hresults, htool⟩

/-- In a clean list every result stands in a batch, and every call has a result behind it. -/
theorem Clean.everyPlace {inBatch : Bool} {messages : List Mounted} (h : Clean inBatch messages) :
    EveryPlace (fun before m after =>
      (m.isTool = true → batchOpen inBatch before = true) ∧ dangling m after = false) messages := by
  induction messages generalizing inBatch with
  | nil => exact everyPlace_nil _
  | cons m rest ih =>
    obtain ⟨htool, hdangling, hrest⟩ := h
    exact everyPlace_cons.mpr ⟨⟨htool, hdangling⟩, ih hrest⟩

/-! ## What comes out -/

/-- The messages stand in the order of the input; those that are changed are calls without a result
behind them, and they are changed to plain messages. -/
def PartOf (messages out : List Mounted) : Prop :=
  ∃ kept, List.Sublist kept messages ∧ List.Forall₂ (fun m m' =>
    m' = m ∨ (m' = { m with toolCalls := [] } ∧
      ∃ before after, messages = before ++ m :: after ∧ dangling m after = true)) kept out

theorem PartOf.cons {m : Mounted} {messages out : List Mounted} (h : PartOf messages out) :
    PartOf (m :: messages) out := by
  obtain ⟨kept, hkept, hout⟩ := h
  refine ⟨kept, hkept.cons m, hout.imp ?_⟩
  rintro x x' (hx | ⟨hx, before, after, hsplit, hdangling⟩)
  · exact .inl hx
  · refine .inr ⟨hx, m :: before, after, ?_, hdangling⟩
    rw [hsplit, List.cons_append]

theorem PartOf.cons_cons {m m' : Mounted} {messages out : List Mounted} (h : PartOf messages out)
    (hm : m' = m ∨ (m' = { m with toolCalls := [] } ∧ dangling m messages = true)) :
    PartOf (m :: messages) (m' :: out) := by
  obtain ⟨kept, hkept, hout⟩ := h
  refine ⟨m :: kept, hkept.cons_cons m, .cons ?_ (hout.imp ?_)⟩
  · rcases hm with hm | ⟨hm, hdangling⟩
    · exact .inl hm
    · exact .inr ⟨hm, [], messages, rfl, hdangling⟩
  · rintro x x' (hx | ⟨hx, before, after, hsplit, hdangling⟩)
    · exact .inl hx
    · refine .inr ⟨hx, m :: before, after, ?_, hdangling⟩
      rw [hsplit, List.cons_append]

theorem partOf_repaired (inBatch : Bool) (messages : List Mounted) :
    PartOf messages (repaired inBatch messages) := by
  induction messages generalizing inBatch with
  | nil => exact ⟨[], List.Sublist.refl _, .nil⟩
  | cons m rest ih =>
    have hrest := ih (stillOpen inBatch m.toMessage)
    rw [repaired]
    unfold repairedMessage
    split
    · split
      · exact hrest.cons_cons (.inl rfl)
      · exact hrest.cons
    · split
      · rename_i hdangling
        split
        · exact hrest.cons_cons (.inr ⟨rfl, hdangling⟩)
        · exact hrest.cons
      · exact hrest.cons_cons (.inl rfl)

/-- What is promised of the messages that come out. -/
structure Sanitized (messages out : List Mounted) : Prop where
  partOf : PartOf messages out
  results : EveryPlace (fun before m _ => m.isTool = true → InBatch before) out
  calls : EveryPlace (fun _ m after => m.callsTools = true → startsWithTool after = true) out
  stable : sanitizeToolMessages out = some out

/-- A call that has lost its result, and the result of one that has been cut. -/
def cutBatches : List Mounted :=
  [{ toolResult "a" "cut" with position := 0 },
    { systemMessage "Looking." plainMetadata with
      role := "assistant"
      toolCalls := [⟨"b", "read", .text "\x7b\x7d"⟩]
      position := 1 }]

def strayCall : Mounted :=
  { systemMessage "Looking." plainMetadata with
    role := "assistant"
    toolCalls := [⟨"b", "read", .text "\x7b\x7d"⟩]
    position := 0 }

/-- A call, and the result of another one. -/
def strayResult : List Mounted := [strayCall, { toolResult "a" "other" with position := 1 }]

end Pandamonium.ContextCompactor
