import Mathlib.Data.List.TakeWhile
import Pandamonium.Analysis.CallFragments

/-!
# Streamed tool calls

Each call of an answer is delivered with its name and its arguments, in one event before the end,
where the loop takes in all that was sent of it and reaches the event that ends the answer.
-/

set_option autoImplicit false

namespace Pandamonium.StreamLlm

open Pandamonium.Library

/-- The calls of each `tool_calls` event. -/
def toolCallLists (events : List Event) : List (List Call) :=
  events.filterMap fun event =>
    match event with
    | .toolCalls calls => some calls
    | _ => none

/-- Before `[DONE]` there is exactly one `tool_calls` event, or none where no calls were sent, and
it lists every call once. -/
def Delivered (sent : List (String × String)) (events : List Event) : Prop :=
  ∃ before, events = before ++ [.done] ∧
    (toolCallLists before).length = (if sent = [] then 0 else 1) ∧
    ((toolCallLists before).flatten.map Call.said).Perm sent

/-- An event that is neither of calls nor an end. -/
def Event.quiet : Event → Bool
  | .toolCalls _ => false
  | .error _ => false
  | .done => false
  | _ => true

theorem toolCallLists_of_quiet {events : List Event} (h : ∀ event ∈ events, event.quiet = true) :
    toolCallLists events = [] := by
  refine List.filterMap_eq_nil_iff.mpr fun event hevent => ?_
  have hquiet := h event hevent
  cases event with
  | toolCalls calls => cases hquiet
  | delta text thinking => rfl
  | toolCallDelta index name argDelta => rfl
  | usage inputTokens outputTokens => rfl
  | error text => rfl
  | done => rfl

theorem delivered_iff (sent : List (String × String)) {out more : List Event} (calls : List Call)
    (hout : ∀ event ∈ out, event.quiet = true) (hmore : ∀ event ∈ more, event.quiet = true) :
    Delivered sent (out ++ (emitToolCalls calls ++ (more ++ [.done]))) ↔
      (calls.map Call.said).Perm sent := by
  have hevents : out ++ (emitToolCalls calls ++ (more ++ [.done])) =
      (out ++ emitToolCalls calls ++ more) ++ [.done] := by
    simp only [List.append_assoc]
  have hlists : toolCallLists (out ++ emitToolCalls calls ++ more) =
      if calls = [] then [] else [calls] := by
    have hsplit : toolCallLists (out ++ emitToolCalls calls ++ more) =
        toolCallLists out ++ toolCallLists (emitToolCalls calls) ++ toolCallLists more := by
      rw [toolCallLists, List.filterMap_append, List.filterMap_append]
      rfl
    rw [hsplit, toolCallLists_of_quiet hout, toolCallLists_of_quiet hmore, List.nil_append,
      List.append_nil]
    cases calls with
    | nil => rfl
    | cons call calls => rfl
  rw [hevents]
  constructor
  · rintro ⟨before, hbefore, -, hperm⟩
    obtain rfl := List.append_cancel_right hbefore
    rw [hlists] at hperm
    split at hperm
    case isTrue h =>
      rw [h]
      exact hperm
    case isFalse => rwa [List.flatten_singleton] at hperm
  · intro hperm
    refine ⟨_, rfl, ?_, ?_⟩
    · rw [hlists]
      cases calls with
      | nil => rw [List.nil_perm.mp hperm, if_pos rfl, if_pos rfl, List.length_nil]
      | cons call calls =>
        have hsent : sent ≠ [] := by
          rintro rfl
          exact absurd hperm.length_eq (Nat.succ_ne_zero _)
        rw [if_neg hsent, if_neg (List.cons_ne_nil call calls), List.length_singleton]
    · rw [hlists]
      split
      case isTrue h =>
        rw [h] at hperm
        exact hperm
      case isFalse => rwa [List.flatten_singleton]

theorem map_inSlotOrder_perm (acc : Dict ℕ Call) :
    ((inSlotOrder acc).map Call.said).Perm (acc.values.map Call.said) :=
  ((perm_orderedBy Prod.fst acc.items).map Prod.snd).map Call.said

theorem deltas_quiet (parts : List Part) : ∀ event ∈ deltas parts, event.quiet = true := by
  intro event hevent
  obtain ⟨part, -, rfl⟩ := List.mem_map.mp hevent
  rfl

theorem nil_quiet : ∀ event ∈ ([] : List Event), event.quiet = true :=
  fun _ hevent => absurd hevent List.not_mem_nil

/-- An event that is yielded under a condition. -/
theorem ite_quiet (p : Prop) [Decidable p] {e : Event} (he : e.quiet = true) :
    ∀ event ∈ (if p then [e] else []), event.quiet = true := by
  split
  · exact fun event hevent => List.mem_singleton.mp hevent ▸ he
  · exact nil_quiet

theorem argDelta_quiet (index : ℕ) (name text : String) :
    ∀ event ∈ argDelta index name text, event.quiet = true := ite_quiet _ rfl

theorem append_quiet {out more : List Event} (hout : ∀ event ∈ out, event.quiet = true)
    (hmore : ∀ event ∈ more, event.quiet = true) :
    ∀ event ∈ out ++ more, event.quiet = true := by
  intro event hevent
  obtain hevent | hevent := List.mem_append.mp hevent
  · exact hout event hevent
  · exact hmore event hevent

theorem takeWhile_append_cons {α : Type} {p : α → Bool} {seen : List α} {a : α} (rest : List α)
    (hseen : ∀ b ∈ seen, p b = true) (ha : p a = false) :
    (seen ++ a :: rest).takeWhile p = seen := by
  rw [List.takeWhile_append_of_pos hseen, List.takeWhile_cons_of_neg (Bool.not_eq_true _ ▸ ha),
    List.append_nil]

/-! ## OpenAI-compatible providers -/

/-- The fragments that a line carries. -/
def Line.fragments : Line → List Fragment
  | .chunk ⟨_, some (some delta), _⟩ => delta.toolCalls.filterMap id
  | _ => []

/-- The content is nothing but what is left of chat templates. -/
def Delta.swallowed (delta : Delta) : Bool :=
  let content := delta.content.normalized.1
  decide (content ≠ "" ∧ stripVisibleChatTemplateArtifacts content = "")

/-- The fragments of a line that are taken in. -/
def Line.kept : Line → List Fragment
  | .chunk ⟨_, some (some delta), _⟩ =>
    if delta.swallowed then [] else delta.toolCalls.filterMap id
  | _ => []

section OpenAi

variable {τ : Type} {guard : Guard τ} {s s' : OpenAi τ} {out : List Event}

theorem collect_spec (s : ToolSlots) (tcs : List (Option Fragment)) :
    (s.collect tcs).2 = (tcs.filterMap id).foldl ToolSlots.add s ∧
      ∀ event ∈ (s.collect tcs).1, event.quiet = true := by
  induction tcs generalizing s with
  | nil => exact ⟨rfl, nil_quiet⟩
  | cons tc tcs ih =>
    cases tc with
    | none => exact ih s
    | some tc =>
      obtain ⟨hslots, hquiet⟩ := ih (s.add tc)
      exact ⟨hslots, append_quiet (argDelta_quiet _ _ _) hquiet⟩

theorem speak_cases (guard : Guard τ) (s : OpenAi τ) (reasoning content : String) :
    (∃ events message, speak guard s reasoning content = (events, none, false) ∧
      .error message ∈ events) ∨
    ∃ events s', speak guard s reasoning content =
        (events, some s',
          decide (content ≠ "" ∧ stripVisibleChatTemplateArtifacts content = "")) ∧
      s'.slots = s.slots ∧ ∀ event ∈ events, event.quiet = true := by
  have hreasoning : ∀ event ∈ (if reasoning = "" then [] else [Event.delta reasoning true]),
      event.quiet = true := by
    intro event hevent
    split at hevent
    · exact absurd hevent List.not_mem_nil
    · rw [List.mem_singleton.mp hevent]
      rfl
  rw [speak]
  dsimp only
  split
  case h_1 message hmessage =>
    exact .inl ⟨_, message, rfl, List.mem_singleton_self _⟩
  case h_2 =>
    by_cases hcontent : content = ""
    · have hswallowed : decide (content ≠ "" ∧
          stripVisibleChatTemplateArtifacts content = "") = false :=
        decide_eq_false fun h => h.1 hcontent
      rw [if_pos hcontent, hswallowed]
      exact .inr ⟨_, _, rfl, rfl, hreasoning⟩
    · rw [if_neg hcontent]
      by_cases hstrip : stripVisibleChatTemplateArtifacts content = ""
      · have hswallowed : decide (content ≠ "" ∧
            stripVisibleChatTemplateArtifacts content = "") = true :=
          decide_eq_true ⟨hcontent, hstrip⟩
        rw [if_pos hstrip, hswallowed]
        exact .inr ⟨_, _, rfl, rfl, hreasoning⟩
      · have hswallowed : decide (content ≠ "" ∧
            stripVisibleChatTemplateArtifacts content = "") = false :=
          decide_eq_false fun h => hstrip h.2
        rw [if_neg hstrip, hswallowed]
        split
        case h_1 message hmessage =>
          exact .inl ⟨_, message, rfl, List.mem_append_right _ (List.mem_singleton_self _)⟩
        case h_2 => exact .inr ⟨_, _, rfl, rfl, append_quiet hreasoning (deltas_quiet _)⟩

theorem takeDelta_cases (guard : Guard τ) (s : OpenAi τ) (delta : Delta) :
    (∃ events message, takeDelta guard s delta = (events, none) ∧ .error message ∈ events) ∨
    ∃ events s', takeDelta guard s delta = (events, some s') ∧
      s'.slots = (if delta.swallowed then [] else delta.toolCalls.filterMap id).foldl
        ToolSlots.add s.slots ∧ ∀ event ∈ events, event.quiet = true := by
  obtain ⟨events, message, hspeak, herror⟩ | ⟨events, s', hspeak, hslots, hquiet⟩ :=
    speak_cases guard s delta.allReasoning delta.content.normalized.1
  · refine .inl ⟨events, message, ?_, herror⟩
    rw [takeDelta, hspeak]
  · refine .inr ?_
    rw [takeDelta, hspeak]
    have hswallowed : decide (delta.content.normalized.1 ≠ "" ∧
        stripVisibleChatTemplateArtifacts delta.content.normalized.1 = "") = delta.swallowed := rfl
    rw [hswallowed]
    cases delta.swallowed with
    | true => exact ⟨events, s', rfl, hslots, hquiet⟩
    | false =>
      obtain ⟨hcollect, hcollected⟩ := collect_spec s'.slots delta.toolCalls
      refine ⟨_, _, rfl, ?_, append_quiet hquiet hcollected⟩
      rw [hcollect, hslots]
      rfl

theorem takeChunk_cases (guard : Guard τ) (s : OpenAi τ) (chunk : Chunk) :
    (∃ events message, takeChunk guard s chunk = (events, none) ∧ .error message ∈ events) ∨
    ∃ events s', takeChunk guard s chunk = (events, some s') ∧
      s'.slots = (Line.chunk chunk).kept.foldl ToolSlots.add s.slots ∧
      ∀ event ∈ events, event.quiet = true := by
  obtain ⟨usage, choice, text⟩ := chunk
  cases choice with
  | none =>
    refine .inr ?_
    cases usage with
    | none =>
      cases text with
      | none => exact ⟨_, _, rfl, rfl, nil_quiet⟩
      | some text => exact ⟨_, _, rfl, rfl, deltas_quiet _⟩
    | some usage => exact ⟨_, _, rfl, rfl, fun _ h => List.mem_singleton.mp h ▸ rfl⟩
  | some choice =>
    cases choice with
    | none =>
      refine .inr ?_
      cases usage with
      | none => exact ⟨_, _, rfl, rfl, nil_quiet⟩
      | some usage => exact ⟨_, _, rfl, rfl, fun _ h => List.mem_singleton.mp h ▸ rfl⟩
    | some delta =>
      cases usage with
      | none => exact takeDelta_cases guard s delta
      | some usage =>
        cases houtput : delta.hasOutput with
        | true =>
          have htake : takeChunk guard s ⟨some usage, some (some delta), text⟩ =
              takeDelta guard s delta := by
            simp only [takeChunk, Option.bind_some, Option.map_some, Option.getD_some, houtput]
          rw [htake]
          exact takeDelta_cases guard s delta
        | false =>
          -- a delta without output carries no fragments
          have hnone : delta.toolCalls = [] := by
            simp only [Delta.hasOutput, Bool.or_eq_false_iff, Bool.not_eq_false'] at houtput
            exact List.isEmpty_iff.mp houtput.2
          refine .inr ⟨[.usage usage.1 usage.2], s, ?_, ?_, ?_⟩
          · simp only [takeChunk, Option.bind_some, Option.map_some, Option.getD_some, houtput]
          · simp only [Line.kept, hnone, List.filterMap_nil, ite_self, List.foldl_nil]
          · exact fun _ h => List.mem_singleton.mp h ▸ rfl

theorem openAi_goesOn {line : Line} (h : (openAi guard).step s line = (out, some s')) :
    line ≠ .done ∧ s'.slots = line.kept.foldl ToolSlots.add s.slots ∧
      ∀ event ∈ out, event.quiet = true := by
  cases line with
  | skipped =>
    obtain ⟨rfl, hs⟩ := Prod.mk.inj h
    obtain rfl := Option.some.inj hs
    exact ⟨Line.noConfusion, rfl, nil_quiet⟩
  | done => exact absurd (Prod.mk.inj h).2.symm (Option.some_ne_none s')
  | raw text =>
    obtain ⟨rfl, hs⟩ := Prod.mk.inj h
    obtain rfl := Option.some.inj hs
    exact ⟨Line.noConfusion, rfl, deltas_quiet _⟩
  | chunk chunk =>
    obtain ⟨events, message, htake, -⟩ | ⟨events, s₁, htake, hslots, hquiet⟩ :=
      takeChunk_cases guard s chunk
    · exact absurd (Prod.mk.inj (h.symm.trans htake)).2 (Option.some_ne_none s')
    · obtain ⟨rfl, hs⟩ := Prod.mk.inj (h.symm.trans htake)
      obtain rfl := Option.some.inj hs
      exact ⟨Line.noConfusion, hslots, hquiet⟩

theorem openAi_stops {line : Line} (h : (openAi guard).step s line = (out, none))
    (hnormal : ∀ message, .error message ∉ out) : line = .done ∧ out = s.ended := by
  cases line with
  | skipped => exact absurd (Prod.mk.inj h).2 (Option.some_ne_none s)
  | done => exact ⟨rfl, (Prod.mk.inj h).1.symm⟩
  | raw text => exact absurd (Prod.mk.inj h).2 (Option.some_ne_none _)
  | chunk chunk =>
    obtain ⟨events, message, htake, herror⟩ | ⟨events, s₁, htake, -, -⟩ :=
      takeChunk_cases guard s chunk
    · obtain ⟨rfl, -⟩ := Prod.mk.inj (h.symm.trans htake)
      exact absurd herror (hnormal message)
    · exact absurd (Prod.mk.inj (h.symm.trans htake)).2.symm (Option.some_ne_none s₁)

/-- The lines before `[DONE]`. -/
def upToDone (lines : List Line) : List Line := lines.takeWhile fun line => decide (line ≠ .done)

/-- How the loop ends where the guard does not stop it. -/
theorem openAi_run {start : OpenAi τ} (hstart : start.slots = .new) (lines : List Line)
    (hnormal : ∀ message, .error message ∉ (openAi guard).run start lines) :
    ∃ out : List Event, ∃ s : OpenAi τ, (∀ event ∈ out, event.quiet = true) ∧
      (openAi guard).run start lines = out ++ s.ended ∧
      s.slots = ((upToDone lines).flatMap Line.kept).foldl ToolSlots.add .new := by
  let I : List Line → OpenAi τ → Prop := fun seen s =>
    s.slots = (seen.flatMap Line.kept).foldl ToolSlots.add .new ∧ ∀ line ∈ seen, line ≠ .done
  have hends : (openAi guard).Ends I (fun event => event.quiet = true) lines
      ((openAi guard).run start lines) := by
    refine Transducer.run_cases ?_ ⟨hstart, fun _ h => absurd h List.not_mem_nil⟩ lines
    rintro seen s line out s' ⟨hslots, hseen⟩ hstep
    obtain ⟨hline, hkept, hquiet⟩ := openAi_goesOn hstep
    refine ⟨⟨?_, fun line' hline' => ?_⟩, hquiet⟩
    · rw [hkept, hslots, List.flatMap_append, List.flatMap_singleton, List.foldl_append]
    · obtain hline' | hline' := List.mem_append.mp hline'
      · exact hseen line' hline'
      · exact List.mem_singleton.mp hline' ▸ hline
  cases hends with
  | closes out hI hout h =>
    refine ⟨out, _, hout, h, ?_⟩
    have hall : upToDone lines = lines :=
      List.takeWhile_eq_self_iff.mpr fun line hline => decide_eq_true (hI.2 line hline)
    rw [hall]
    exact hI.1
  | stops out seen line rest last hlines hI hout hlast h =>
    have hlastNormal : ∀ message, .error message ∉ last := fun message hmem =>
      hnormal message (h ▸ List.mem_append_right out hmem)
    obtain ⟨rfl, rfl⟩ := openAi_stops hlast hlastNormal
    refine ⟨out, _, hout, h, ?_⟩
    have hseen := takeWhile_append_cons (p := fun line => decide (line ≠ Line.done)) rest
      (a := Line.done) (fun line hline => decide_eq_true (hI.2 line hline)) (by simp)
    rw [hlines, upToDone, hseen]
    exact hI.1

end OpenAi

/-! ## Anthropic -/

/-- An event of a block carries its index. -/
def AnthropicEvent.indexed : AnthropicEvent → Bool
  | .contentBlockStart index _ => index.isSome
  | .contentBlockDelta index _ => index.isSome
  | _ => true

/-- The arguments that are sent for the block. -/
def jsonOf (idx : ℕ) (events : List AnthropicEvent) : String :=
  String.join (events.filterMap fun event =>
    match event with
    | .contentBlockDelta index (.inputJson partialJson) =>
      if index = some idx then some partialJson else none
    | _ => none)

/-- The call that a block begins, under the index of the block. -/
def startOf : AnthropicEvent → Option (ℕ × Call)
  | .contentBlockStart (some idx) (.toolUse id name) =>
    some (idx, ⟨if id ≠ "" then id else "call_" ++ toString idx, name, "", none⟩)
  | _ => none

/-- The calls that are sent, each with the arguments that come for its block from its start on. -/
def blocksOf : List AnthropicEvent → List (ℕ × Call)
  | [] => []
  | event :: rest =>
    match startOf event with
    | some (idx, call) => (idx, { call with arguments := jsonOf idx rest }) :: blocksOf rest
    | none => blocksOf rest

/-- Each event of a block carries its index, and no two calls have the same. -/
structure OwnIndices (events : List AnthropicEvent) : Prop where
  indexed : ∀ event ∈ events, event.indexed = true
  different : ((blocksOf events).map Prod.fst).Nodup

theorem jsonOf_concat (idx : ℕ) (events : List AnthropicEvent) (event : AnthropicEvent) :
    jsonOf idx (events ++ [event]) = jsonOf idx events ++ jsonOf idx [event] := by
  rw [jsonOf, List.filterMap_append, String.join_append]
  rfl

/-- The call with the arguments that an event brings for its block. -/
def addEvent (event : AnthropicEvent) (block : ℕ × Call) : ℕ × Call :=
  (block.1, { block.2 with arguments := block.2.arguments ++ jsonOf block.1 [event] })

theorem arguments_startOf {event : AnthropicEvent} {block : ℕ × Call}
    (h : startOf event = some block) : block.2.arguments = "" := by
  unfold startOf at h
  split at h
  · obtain rfl := Option.some.inj h
    rfl
  · cases h

theorem blocksOf_concat (events : List AnthropicEvent) (event : AnthropicEvent) :
    blocksOf (events ++ [event]) =
      (blocksOf events).map (addEvent event) ++ (startOf event).toList := by
  induction events with
  | nil =>
    simp only [List.nil_append, blocksOf]
    cases hstart : startOf event with
    | none => rfl
    | some block =>
      obtain ⟨idx, id, name, arguments, extraContent⟩ := block
      obtain rfl : arguments = "" := arguments_startOf hstart
      rfl
  | cons e events ih =>
    rw [List.cons_append, blocksOf, blocksOf]
    cases startOf e with
    | none => exact ih
    | some block =>
      simp only [ih, List.map_cons, List.cons_append, addEvent, jsonOf_concat]

theorem map_addEvent_eq {event : AnthropicEvent} (h : ∀ idx, jsonOf idx [event] = "")
    (blocks : List (ℕ × Call)) : blocks.map (addEvent event) = blocks := by
  refine (List.map_congr_left fun block _ => ?_).trans (List.map_id blocks)
  rw [addEvent, h, String.append_empty]
  rfl

theorem OwnIndices.before {events : List AnthropicEvent} {event : AnthropicEvent}
    (h : OwnIndices (events ++ [event])) : OwnIndices events := by
  refine ⟨fun e he => h.indexed e (List.mem_append_left _ he), ?_⟩
  have hdifferent := h.different
  rw [blocksOf_concat, List.map_append, List.map_map] at hdifferent
  exact (List.nodup_append.mp hdifferent).1

/-- The blocks are the calls that were sent so far. -/
def Blocks (seen : List AnthropicEvent) (s : Anthropic) : Prop :=
  .messageStop ∉ seen ∧ (OwnIndices seen → s.toolBlocks.items = blocksOf seen)

section Anthropic

variable {s s' : Anthropic} {seen : List AnthropicEvent} {event : AnthropicEvent} {out : List Event}

theorem Blocks.unstopped (h : Blocks seen s) (hstop : event ≠ .messageStop) :
    AnthropicEvent.messageStop ∉ seen ++ [event] := by
  simpa [hstop.symm] using h.1

/-- An event that neither begins a call nor brings arguments. -/
theorem Blocks.other (h : Blocks seen s) (hstop : event ≠ .messageStop)
    (hstart : startOf event = none) (hjson : ∀ idx, jsonOf idx [event] = "")
    (hblocks : s'.toolBlocks = s.toolBlocks) : Blocks (seen ++ [event]) s' := by
  refine ⟨h.unstopped hstop, fun hown => ?_⟩
  rw [hblocks, h.2 hown.before, blocksOf_concat, map_addEvent_eq hjson, hstart,
    Option.toList_none, List.append_nil]

theorem Blocks.startBlock (h : Blocks seen s) (index : Option ℕ) (block : ContentBlock) :
    Blocks (seen ++ [.contentBlockStart index block]) (s.startBlock index block) := by
  cases block with
  | other =>
    refine h.other AnthropicEvent.noConfusion ?_ (fun _ => rfl) rfl
    cases index with
    | none => rfl
    | some idx => rfl
  | toolUse id name =>
    refine ⟨h.unstopped AnthropicEvent.noConfusion, fun hown => ?_⟩
    have hindexed := hown.indexed _ (List.mem_append_right _ (List.mem_singleton_self _))
    obtain ⟨idx, rfl⟩ := Option.isSome_iff_exists.mp hindexed
    have hblocks : blocksOf (seen ++ [.contentBlockStart (some idx) (.toolUse id name)]) =
        blocksOf seen ++ [(idx, ⟨if id ≠ "" then id else "call_" ++ toString idx, name, "",
          none⟩)] := by
      rw [blocksOf_concat, map_addEvent_eq fun _ => rfl]
      rfl
    have hdifferent := hown.different
    rw [hblocks, List.map_append, List.map_singleton] at hdifferent
    have hnew : s.toolBlocks.get? idx = none := by
      rw [Option.eq_none_iff_forall_ne_some]
      intro call hcall
      rw [← Dict.mem_items_iff, h.2 hown.before] at hcall
      exact (List.nodup_append.mp hdifferent).2.2 idx (List.mem_map.mpr ⟨_, hcall, rfl⟩) idx
        (List.mem_singleton_self idx) rfl
    rw [hblocks, ← h.2 hown.before]
    exact Dict.items_set_of_get?_eq_none hnew _

theorem Blocks.addJson (h : Blocks seen s) (index : Option ℕ) (partialJson : String) :
    Blocks (seen ++ [.contentBlockDelta index (.inputJson partialJson)])
      (s.addJson index partialJson).2 := by
  refine ⟨h.unstopped AnthropicEvent.noConfusion, fun hown => ?_⟩
  have hindexed := hown.indexed _ (List.mem_append_right _ (List.mem_singleton_self _))
  obtain ⟨idx, rfl⟩ := Option.isSome_iff_exists.mp hindexed
  let extend : Call → Call := fun call =>
    { call with arguments := call.arguments ++ partialJson }
  have hadd : ∀ block : ℕ × Call,
      addEvent (.contentBlockDelta (some idx) (.inputJson partialJson)) block =
        if block.1 = idx then (block.1, extend block.2) else block := by
    intro block
    rw [addEvent, jsonOf]
    by_cases hblock : block.1 = idx
    · simp [hblock, extend, String.join_cons, String.join_nil]
    · simp [hblock, Ne.symm hblock, String.join_nil]
  have hblocks : blocksOf (seen ++ [.contentBlockDelta (some idx) (.inputJson partialJson)]) =
      s.toolBlocks.items.map fun block =>
        if block.1 = idx then (block.1, extend block.2) else block := by
    rw [blocksOf_concat, List.map_congr_left fun block _ => hadd block, h.2 hown.before]
    exact List.append_nil _
  rw [hblocks, Anthropic.addJson, Option.some_or]
  cases hcall : s.toolBlocks.get? idx with
  | none =>
    simp only [hcall]
    exact (Dict.map_items_of_not_mem (Dict.not_mem_of_get?_eq_none hcall) extend).symm
  | some call =>
    simp only [hcall]
    exact Dict.items_set_of_get? hcall extend

theorem anthropic_goesOn (hblocks : Blocks seen s)
    (h : anthropic.step s event = (out, some s')) :
    Blocks (seen ++ [event]) s' ∧ ∀ o ∈ out, o.quiet = true := by
  obtain ⟨hout, hs⟩ := Prod.mk.inj h
  cases event with
  | contentBlockStart index block =>
    obtain rfl := Option.some.inj hs
    exact ⟨hblocks.startBlock index block, hout ▸ nil_quiet⟩
  | contentBlockDelta index delta =>
    cases delta with
    | text text =>
      obtain rfl := Option.some.inj hs
      refine ⟨hblocks.other AnthropicEvent.noConfusion rfl (fun _ => rfl) rfl, ?_⟩
      replace hout : (if text ≠ "" then [Event.delta text false] else []) = out := hout
      exact hout ▸ ite_quiet _ rfl
    | inputJson partialJson =>
      obtain rfl := Option.some.inj hs
      refine ⟨hblocks.addJson index partialJson, ?_⟩
      replace hout : (s.addJson index partialJson).1 = out := hout
      rw [← hout, Anthropic.addJson]
      split
      · exact nil_quiet
      · split
        · exact nil_quiet
        · exact argDelta_quiet _ _ _
    | other =>
      obtain rfl := Option.some.inj hs
      exact ⟨hblocks.other AnthropicEvent.noConfusion rfl (fun _ => rfl) rfl, hout ▸ nil_quiet⟩
  | messageStart inputTokens =>
    obtain rfl := Option.some.inj hs
    exact ⟨hblocks.other AnthropicEvent.noConfusion rfl (fun _ => rfl) rfl, hout ▸ nil_quiet⟩
  | messageDelta outputTokens =>
    obtain rfl := Option.some.inj hs
    exact ⟨hblocks.other AnthropicEvent.noConfusion rfl (fun _ => rfl) rfl, hout ▸ nil_quiet⟩
  | messageStop => cases hs
  | error message => cases hs
  | other =>
    obtain rfl := Option.some.inj hs
    exact ⟨hblocks.other AnthropicEvent.noConfusion rfl (fun _ => rfl) rfl, hout ▸ nil_quiet⟩

theorem anthropic_stops (h : anthropic.step s event = (out, none))
    (hnormal : ∀ message, .error message ∉ out) : event = .messageStop ∧ out = s.stopped := by
  obtain ⟨hout, hs⟩ := Prod.mk.inj h
  cases event with
  | contentBlockStart index block => cases hs
  | contentBlockDelta index delta => cases delta <;> cases hs
  | messageStart inputTokens => cases hs
  | messageDelta outputTokens => cases hs
  | messageStop => exact ⟨rfl, hout.symm⟩
  | error message => exact absurd (hout ▸ List.mem_singleton_self _) (hnormal message)
  | other => cases hs

/-- The events before `message_stop`. -/
def upToStop (events : List AnthropicEvent) : List AnthropicEvent :=
  events.takeWhile fun event => decide (event ≠ .messageStop)

/-- How the loop ends where there is no error. -/
theorem anthropic_run (events : List AnthropicEvent)
    (hnormal : ∀ message, .error message ∉ anthropic.run .new events) :
    ∃ out : List Event, ∃ s : Anthropic, (∀ event ∈ out, event.quiet = true) ∧
      Blocks (upToStop events) s ∧ anthropic.run .new events =
        out ++ if .messageStop ∈ events then s.stopped else [.done] := by
  have hends : anthropic.Ends Blocks (fun event => event.quiet = true) events
      (anthropic.run .new events) :=
    Transducer.run_cases (fun _ _ _ _ _ hblocks h => anthropic_goesOn hblocks h)
      ⟨List.not_mem_nil, fun _ => rfl⟩ events
  have hgoesOn : ∀ seen : List AnthropicEvent, .messageStop ∉ seen →
      ∀ event ∈ seen, decide (event ≠ .messageStop) = true :=
    fun seen hseen event hevent => decide_eq_true fun heq => hseen (heq ▸ hevent)
  cases hends with
  | @closes s out hI hout h =>
    refine ⟨out, s, hout, ?_, ?_⟩
    · rw [upToStop, List.takeWhile_eq_self_iff.mpr (hgoesOn events hI.1)]
      exact hI
    · rw [if_neg hI.1]
      exact h
  | @stops s out seen event rest last hevents hI hout hlast h =>
    have hlastNormal : ∀ message, .error message ∉ last := fun message hmem =>
      hnormal message (h ▸ List.mem_append_right out hmem)
    obtain ⟨rfl, rfl⟩ := anthropic_stops hlast hlastNormal
    refine ⟨out, s, hout, ?_, ?_⟩
    · rw [hevents, upToStop, takeWhile_append_cons rest (hgoesOn seen hI.1) (by simp)]
      exact hI
    · have hmem : AnthropicEvent.messageStop ∈ events := by
        rw [hevents]
        exact List.mem_append_right seen List.mem_cons_self
      rw [if_pos hmem]
      exact h

end Anthropic

/-! ## Ollama -/

/-- The lines up to the one that is done. -/
def upToLast : List OllamaLine → List OllamaLine
  | [] => []
  | line :: rest => if line.done then [line] else line :: upToLast rest

/-- The calls of a line. -/
def OllamaLine.calls (line : OllamaLine) : List (String × String) :=
  line.toolCalls.map fun tc => (tc.name, argumentsText tc.arguments)

theorem upToLast_eq {lines : List OllamaLine} (h : ∀ line ∈ lines, line.done = false) :
    upToLast lines = lines := by
  induction lines with
  | nil => rfl
  | cons line lines ih =>
    rw [upToLast, h line List.mem_cons_self, if_neg Bool.false_ne_true,
      ih fun line' hline' => h line' (List.mem_cons_of_mem line hline')]

theorem upToLast_append_cons {seen : List OllamaLine} {line : OllamaLine} (rest : List OllamaLine)
    (hseen : ∀ line ∈ seen, line.done = false) (hdone : line.done = true) :
    upToLast (seen ++ line :: rest) = seen ++ [line] := by
  induction seen with
  | nil => rw [List.nil_append, upToLast, if_pos hdone, List.nil_append]
  | cons first seen ih =>
    rw [List.cons_append, upToLast, hseen first List.mem_cons_self, if_neg Bool.false_ne_true,
      ih fun line' hline' => hseen line' (List.mem_cons_of_mem first hline'), List.cons_append]

theorem said_foldl_addCall {tcs : List OllamaCall} (h : ∀ tc ∈ tcs, tc.name ≠ "")
    (calls : List Call) :
    (tcs.foldl addCall calls).map Call.said =
      calls.map Call.said ++ tcs.map fun tc => (tc.name, argumentsText tc.arguments) := by
  induction tcs generalizing calls with
  | nil => rw [List.foldl_nil, List.map_nil, List.append_nil]
  | cons tc tcs ih =>
    rw [List.foldl_cons, ih (fun tc' htc' => h tc' (List.mem_cons_of_mem tc htc')), addCall,
      if_neg (h tc List.mem_cons_self), List.map_append, List.append_assoc]
    rfl

/-- Every call has a name. -/
def Named (lines : List OllamaLine) : Prop :=
  ∀ line ∈ lines, ∀ tc ∈ line.toolCalls, tc.name ≠ ""

/-- The calls are those of the lines so far. -/
def Listed (seen : List OllamaLine) (s : Ollama) : Prop :=
  (∀ line ∈ seen, line.done = false) ∧
    (Named seen → s.toolCalls.map Call.said = seen.flatMap OllamaLine.calls)

theorem said_append {seen : List OllamaLine} {s : Ollama} (h : Listed seen s) {line : OllamaLine}
    (hnamed : Named (seen ++ [line])) :
    (line.toolCalls.foldl addCall s.toolCalls).map Call.said =
      (seen ++ [line]).flatMap OllamaLine.calls := by
  have hline := hnamed line (List.mem_append_right seen (List.mem_singleton_self line))
  have hseen : Named seen := fun line' hline' => hnamed line' (List.mem_append_left [line] hline')
  rw [said_foldl_addCall hline, h.2 hseen, List.flatMap_append, List.flatMap_singleton]
  rfl

/-- The parts of a line. -/
def saidBefore (s : Ollama) (line : OllamaLine) : List Event :=
  (if line.thinking ≠ "" then [.delta line.thinking true] else []) ++
    deltas (s.harmonyRouter.feed line.content.toList).1

theorem saidBefore_quiet (s : Ollama) (line : OllamaLine) :
    ∀ event ∈ saidBefore s line, event.quiet = true :=
  append_quiet (ite_quiet (line.thinking ≠ "") (e := .delta line.thinking true) rfl) (deltas_quiet _)

/-- The state after a line. -/
def Ollama.after (s : Ollama) (line : OllamaLine) : Ollama where
  toolCalls := line.toolCalls.foldl addCall s.toolCalls
  harmonyRouter := (s.harmonyRouter.feed line.content.toList).2

theorem ollama_step (s : Ollama) (line : OllamaLine) :
    ollama.step s line =
      if line.done then (saidBefore s line ++ (s.after line).ended line, none)
      else (saidBefore s line, some (s.after line)) := rfl

theorem ollama_run (lines : List OllamaLine) :
    ∃ out more : List Event, ∃ calls : List Call, (∀ event ∈ out, event.quiet = true) ∧
      (∀ event ∈ more, event.quiet = true) ∧
      (Named (upToLast lines) →
        calls.map Call.said = (upToLast lines).flatMap OllamaLine.calls) ∧
      ollama.run .new lines = out ++
        ((if lines.any OllamaLine.done then emitToolCalls calls else []) ++ (more ++ [.done])) := by
  have hends : ollama.Ends Listed (fun event => event.quiet = true) lines
      (ollama.run .new lines) := by
    refine Transducer.run_cases ?_ ⟨fun _ h => absurd h List.not_mem_nil, fun _ => rfl⟩ lines
    intro seen s line out s' hlisted hstep
    rw [ollama_step] at hstep
    cases hdone : line.done with
    | true =>
      rw [if_pos hdone] at hstep
      cases (Prod.mk.inj hstep).2
    | false =>
      rw [hdone, if_neg Bool.false_ne_true] at hstep
      obtain ⟨rfl, hs⟩ := Prod.mk.inj hstep
      obtain rfl := Option.some.inj hs
      refine ⟨⟨fun line' hline' => ?_, said_append hlisted⟩, saidBefore_quiet s line⟩
      obtain hline' | hline' := List.mem_append.mp hline'
      · exact hlisted.1 line' hline'
      · exact List.mem_singleton.mp hline' ▸ hdone
  cases hends with
  | @closes s out hI hout h =>
    have hany : lines.any OllamaLine.done = false :=
      List.any_eq_false.mpr fun line hline => Bool.not_eq_true _ ▸ hI.1 line hline
    refine ⟨out ++ deltas s.harmonyRouter.flush.1, [], s.toolCalls,
      append_quiet hout (deltas_quiet _), nil_quiet, ?_, ?_⟩
    · rw [upToLast_eq hI.1]
      exact hI.2
    · rw [hany, if_neg Bool.false_ne_true, List.append_assoc]
      exact h
  | @stops s out seen line rest last hlines hI hout hlast h =>
    rw [ollama_step] at hlast
    cases hdone : line.done with
    | false =>
      rw [hdone, if_neg Bool.false_ne_true] at hlast
      cases (Prod.mk.inj hlast).2
    | true =>
      rw [if_pos hdone] at hlast
      obtain ⟨rfl, -⟩ := Prod.mk.inj hlast
      have hany : lines.any OllamaLine.done = true :=
        List.any_eq_true.mpr ⟨line, hlines ▸ List.mem_append_right seen List.mem_cons_self, hdone⟩
      refine ⟨out ++ (saidBefore s line ++ deltas (s.after line).harmonyRouter.flush.1), _,
        (s.after line).toolCalls,
        append_quiet hout (append_quiet (saidBefore_quiet s line) (deltas_quiet _)),
        ite_quiet (line.promptEvalCount.isSome ∨ line.evalCount.isSome)
          (e := .usage (line.promptEvalCount.getD 0) (line.evalCount.getD 0)) rfl, ?_, ?_⟩
      · rw [hlines, upToLast_append_cons rest hI.1 hdone]
        exact said_append hI
      · rw [hany, if_pos rfl, h, Ollama.ended]
        simp only [List.append_assoc]

/-! ## The branches -/

/-- The calls that are sent. -/
def Answer.sent : Answer → List (String × String)
  | .openAi _ lines => callsOf ((upToDone lines).flatMap Line.fragments)
  | .anthropic events => (blocksOf (upToStop events)).map fun block => block.2.said
  | .ollama lines => (upToLast lines).flatMap OllamaLine.calls

/-- Each fragment says which call it is of: no fragment carries the index of a slot that was given
to a call without one; each event of a block carries the index of the block, which no other call has;
a call that comes whole has a name. -/
def Answer.WellFormed : Answer → Prop
  | .openAi _ lines => clashes .new [] ((upToDone lines).flatMap Line.kept) = false
  | .anthropic events => OwnIndices (upToStop events)
  | .ollama lines => Named (upToLast lines)

/-- What is taken in gives all the calls; and where it takes the provider's last event to deliver
them, that event comes, if there are any. -/
def Answer.spared : Answer → Prop
  | .openAi _ lines =>
    (callsOf ((upToDone lines).flatMap Line.kept)).Perm
      (callsOf ((upToDone lines).flatMap Line.fragments))
  | .anthropic events => .messageStop ∈ events ∨ blocksOf events = []
  | .ollama lines => lines.any OllamaLine.done = true ∨ lines.flatMap OllamaLine.calls = []

/-- In every stream that ends without an error, and whose fragments say which call they are of, the
calls are delivered if and only if the loop takes in what gives all of them and reaches the event
that delivers them. -/
theorem delivered_iff_spared {τ : Type} (guard : Guard τ) (start : τ) (answer : Answer)
    (hwell : answer.WellFormed)
    (hnormal : ∀ message, .error message ∉ streamLlm guard start answer) :
    Delivered answer.sent (streamLlm guard start answer) ↔ answer.spared := by
  cases answer with
  | openAi thinkingModel lines =>
    obtain ⟨out, s, hout, hrun, hslots⟩ := openAi_run rfl lines hnormal
    have hsaid : s.slots.acc.values.map Call.said =
        callsOf ((upToDone lines).flatMap Line.kept) := by
      rw [hslots, said_slots hwell]
    have hperm := map_inSlotOrder_perm s.slots.acc
    rw [hsaid] at hperm
    have hiff := delivered_iff (Answer.openAi thinkingModel lines).sent
      (inSlotOrder s.slots.acc) (append_quiet hout (deltas_quiet (flushRouter s.routing))) nil_quiet
    rw [List.append_assoc, List.nil_append] at hiff
    have hwhole : streamLlm guard start (.openAi thinkingModel lines) =
        out ++ (deltas (flushRouter s.routing) ++
          (emitToolCalls (inSlotOrder s.slots.acc) ++ [.done])) := hrun
    rw [hwhole, hiff]
    exact ⟨hperm.symm.trans, hperm.trans⟩
  | anthropic events =>
    obtain ⟨out, s, hout, hblocks, hrun⟩ := anthropic_run events hnormal
    have hrun' : streamLlm guard start (.anthropic events) =
        out ++ if .messageStop ∈ events then s.stopped else [.done] := hrun
    rw [hrun']
    by_cases hstop : .messageStop ∈ events
    · rw [if_pos hstop]
      have hsent : (Answer.anthropic events).sent = s.toolBlocks.values.map Call.said := by
        rw [Answer.sent, ← hblocks.2 hwell, Dict.values, List.map_map]
        rfl
      refine iff_of_true ?_ (.inl hstop)
      rw [hsent]
      exact (delivered_iff _ (inSlotOrder s.toolBlocks) hout
        (ite_quiet (s.inputTokens ≠ 0 ∨ s.outputTokens ≠ 0)
          (e := .usage s.inputTokens s.outputTokens) rfl)).mpr (map_inSlotOrder_perm s.toolBlocks)
    · rw [if_neg hstop]
      have hall : upToStop events = events := List.takeWhile_eq_self_iff.mpr fun event hevent =>
        decide_eq_true fun heq => hstop (heq ▸ hevent)
      refine (delivered_iff _ [] hout nil_quiet).trans ?_
      rw [List.map_nil, List.nil_perm, Answer.sent, hall, List.map_eq_nil_iff]
      exact ⟨.inr, fun h => h.resolve_left hstop⟩
  | ollama lines =>
    obtain ⟨out, more, calls, hout, hmore, hcalls, hrun⟩ := ollama_run lines
    have hrun' : streamLlm guard start (.ollama lines) = out ++
        ((if lines.any OllamaLine.done then emitToolCalls calls else []) ++ (more ++ [.done])) := hrun
    rw [hrun']
    cases hany : lines.any OllamaLine.done with
    | true =>
      rw [if_pos rfl]
      refine iff_of_true ((delivered_iff _ calls hout hmore).mpr ?_) (.inl hany)
      rw [hcalls hwell]
      rfl
    | false =>
      rw [if_neg Bool.false_ne_true]
      have hall : upToLast lines = lines :=
        upToLast_eq fun line hline => Bool.not_eq_true _ ▸ List.any_eq_false.mp hany line hline
      refine (delivered_iff _ [] hout hmore).trans ?_
      rw [List.map_nil, List.nil_perm, Answer.sent, hall]
      exact ⟨.inr, fun h => h.resolve_left (hany ▸ Bool.false_ne_true)⟩

/-! ## Two answers -/

/-- A guard that stops nothing. -/
def noGuard : Guard Unit := ⟨fun s _ => (s, none)⟩

/-- A delta with a text and fragments. -/
def deltaLine (content : String) (tcs : List Fragment) : Line :=
  .chunk ⟨none, some (some ⟨"", "", "", .text content, tcs.map some⟩), none⟩

/-- Two calls that come together with a text, one in the middle of the other, where the upstream
closes without `[DONE]`. -/
def twoCalls : Answer := .openAi false
  [deltaLine "Reading." [⟨some 0, "a", "read_file", "", none⟩, ⟨some 1, "b", "ls", "\x7b", none⟩],
    deltaLine "" [⟨some 0, "", "", "\x7b", none⟩], deltaLine "" [⟨some 1, "", "", "\x7d", none⟩],
    deltaLine "" [⟨some 0, "", "", "\x7d", none⟩]]

theorem not_error_of_all {events : List Event}
    (h : (events.all fun event =>
      match event with
      | .error _ => false
      | _ => true) = true) (message : String) : .error message ∉ events := by
  intro hmem
  cases List.all_eq_true.mp h _ hmem

theorem delivered_twoCalls :
    Delivered [("read_file", "\x7b\x7d"), ("ls", "\x7b\x7d")] (streamLlm noGuard () twoCalls) := by
  have hwell : twoCalls.WellFormed := by
    show clashes .new [] _ = false
    decide +kernel
  have hspared : twoCalls.spared := by
    show List.Perm _ _
    decide +kernel
  have hsent : twoCalls.sent = [("read_file", "\x7b\x7d"), ("ls", "\x7b\x7d")] := by decide +kernel
  rw [← hsent]
  exact (delivered_iff_spared noGuard () twoCalls hwell
    (not_error_of_all (by decide +kernel))).mpr hspared

/-- A call whose upstream closes without `message_stop`. -/
def cutOff : Answer := .anthropic
  [.messageStart 12, .contentBlockStart (some 0) (.toolUse "a" "read_file"),
    .contentBlockDelta (some 0) (.inputJson "\x7b\x7d")]

/-- The call is not delivered. -/
theorem not_delivered_cutOff : cutOff.WellFormed ∧
    (∀ message, .error message ∉ streamLlm noGuard () cutOff) ∧
    cutOff.sent = [("read_file", "\x7b\x7d")] ∧
    ¬ Delivered cutOff.sent (streamLlm noGuard () cutOff) := by
  have hsent : cutOff.sent = [("read_file", "\x7b\x7d")] := by decide +kernel
  refine ⟨⟨by decide +kernel, by decide +kernel⟩, not_error_of_all (by decide +kernel), hsent, ?_⟩
  have hrun : streamLlm noGuard () cutOff = [] ++ (emitToolCalls [] ++ ([] ++ [.done])) := rfl
  rw [hsent, hrun, delivered_iff _ [] nil_quiet nil_quiet, List.map_nil, List.nil_perm]
  exact List.cons_ne_nil _ _

end Pandamonium.StreamLlm
