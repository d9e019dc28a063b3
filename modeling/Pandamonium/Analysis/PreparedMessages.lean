import Mathlib.Data.List.Chain
import Mathlib.Data.List.TakeWhile
import Pandamonium.Library.Splits
import Pandamonium.Model.LlmMessages

/-!
# What is sent to the provider

Each pass in closed form, and what it leaves of what the passes before it have made.  Two things
fail: `.strip()` on a list, where no answer is left for the calls of a message, and `join` on one.
The neighbours of a system message are neighbours once it is put first, and are not merged then.
-/

set_option autoImplicit false

namespace Pandamonium.LlmMessages

open Pandamonium.Library

variable {β : Type} {m t : Message β} {rest l out : List (Message β)}

/-- The tool message answers the call. -/
def Answers (t : Message β) (tc : Option (ToolCall β)) : Prop :=
  ∃ call id, tc = some call ∧ call.id = some id ∧ t.toolCallId = some id

/-- The texts of a content that are not empty. -/
def contentTexts : Option (Content β) → List String
  | none => []
  | some (.text text) => [text].filter fun text => decide (text ≠ "")
  | some (.blocks items) =>
    (items.filterMap fun
      | .text text => some text
      | .other _ => none).filter fun text => decide (text ≠ "")

/-- The texts of the messages with the role, in order. -/
def texts (role : String) (l : List (Message β)) : List String :=
  (l.filter fun m => decide (m.role = role)).flatMap fun m => contentTexts m.content

/-- Neighbours of the first list are joined in the second one. -/
def Grouped (xs ys : List String) : Prop :=
  ∃ groups : List (List String), groups.flatten = xs ∧ groups.map joined = ys

/-- What a provider gets: a system message comes first, no two messages of the user are neighbours,
every tool message answers a call of the last message of the assistant before it, every call is
answered behind its message, and no text of the user or the system is lost. -/
structure Prepared (messages out : List (Message β)) : Prop where
  system : EveryPlace (fun before m _ => m.isSystem = true → before = []) out
  users : out.IsChain fun a b => ¬ (a.isUser = true ∧ b.isUser = true)
  tools : EveryPlace (fun before t _ => t.isTool = true → ∃ m tc,
    (before.filter Message.isAssistant).getLast? = some m ∧ tc ∈ m.toolCalls ∧ Answers t tc) out
  calls : EveryPlace (fun _ m after => m.isAssistant = true → ∀ tc ∈ m.toolCalls,
    ∃ t ∈ after.takeWhile Message.isTool, Answers t tc) out
  userTexts : Grouped (texts "user" messages) (texts "user" out)
  systemTexts : ∃ parts : List String, (parts.filter fun part => decide (part ≠ "")) =
    texts "system" messages ∧ (parts = [] ∨ out.head? = some (.plain "system" (joined parts)))

/-! ## The condition -/

/-- The content is a list that is not empty. -/
def hasBlocks : Option (Content β) → Bool
  | some (.blocks (_ :: _)) => true
  | _ => false

/-- No tool message behind it answers a call of the message. -/
def isUnanswered (m : Message β) (rest : List (Message β)) : Bool :=
  m.callsTools && (m.answers rest).isEmpty

/-- The message is a tool message, or loses its calls and has no text. -/
def isDropped (m : Message β) (rest : List (Message β)) : Bool :=
  m.isTool || (isUnanswered m rest && decide (strip (contentText m.content) = ""))

/-- A call has an id. -/
def isNamed (tc : Option (ToolCall β)) : Bool := tc.any fun call => call.id.isSome

/-- A property of each message and what is behind it. -/
def everyTail (p : Message β → List (Message β) → Bool) : List (Message β) → Bool
  | [] => true
  | m :: rest => p m rest && everyTail p rest

/-- No two messages of the user have system messages between them, and nothing else that is not
dropped; `afterUser` says whether the last other message was the user's, and `parted` whether a
system message came after it. -/
def areApart : Bool → Bool → List (Message β) → Bool
  | _, _, [] => true
  | afterUser, parted, m :: rest =>
    if isDropped m rest then areApart afterUser parted rest
    else if m.isSystem then areApart afterUser true rest
    else if m.isUser then !(afterUser && parted) && areApart true false rest
    else areApart false false rest

/-- A message that loses all its calls, and a system message, has no list for its content; no two
messages of the user are parted by system messages alone; and a call without an id does not pass for
one whose id is `"None"`. -/
def spares (messages : List (Message β)) : Bool :=
  everyTail (fun m rest => !(isUnanswered m rest && hasBlocks m.content)) messages &&
    messages.all (fun m => !(m.isSystem && hasBlocks m.content)) &&
    areApart false false messages &&
    everyTail (fun m rest => !m.callsTools || (m.pruned (m.answers rest)).toolCalls.all isNamed)
      messages

/-! ## The repair in closed form -/

/-- What the repair makes of a message that is not a tool message. -/
def repairedUnit (m : Message β) (rest : List (Message β)) : List (Message β) :=
  if m.callsTools then
    if (m.answers rest).isEmpty then
      if strip (contentText m.content) = "" then [] else [{ m with toolCalls := [] }]
    else m.pruned (m.answers rest) :: m.answers rest
  else [m]

/-- The messages after the repair. -/
def repairedList : List (Message β) → List (Message β)
  | [] => []
  | m :: rest => if m.isTool then repairedList rest else repairedUnit m rest ++ repairedList rest

theorem repairedList_cons (htool : m.isTool = false) :
    repairedList (m :: rest) = repairedUnit m rest ++ repairedList rest := by
  rw [repairedList, htool, if_neg Bool.false_ne_true]

theorem stripped_eq (content : Option (Content β)) :
    stripped content =
      if hasBlocks content then .error .attributeError else .ok (strip (contentText content)) := by
  match content with
  | none => rfl
  | some (.text text) => rfl
  | some (.blocks []) => rfl
  | some (.blocks (_ :: _)) => rfl

theorem callsTools_not_isTool (h : m.callsTools = true) : m.isTool = false := by
  simp only [Message.callsTools, Message.isAssistant, Bool.and_eq_true, decide_eq_true_eq] at h
  rw [Message.isTool, h.1]
  rfl

theorem isTool_not_callsTools (h : m.isTool = true) : m.callsTools = false := by
  cases hcalls : m.callsTools with
  | false => rfl
  | true => exact absurd (h.symm.trans (callsTools_not_isTool hcalls)) Bool.noConfusion

/-- One message of the repair: it fails where a list is stripped. -/
theorem repaired_cons (htool : m.isTool = false) :
    repaired (m :: rest) =
      if isUnanswered m rest && hasBlocks m.content then .error .attributeError
      else (repaired rest).map fun others => repairedUnit m rest ++ others := by
  rw [repaired, if_neg (by rw [htool]; exact Bool.false_ne_true), isUnanswered, repairedUnit]
  dsimp only
  cases m.callsTools with
  | false =>
    cases repaired rest with
    | error e => rfl
    | ok others => rfl
  | true =>
    cases (m.answers rest).isEmpty with
    | false =>
      cases repaired rest with
      | error e => rfl
      | ok others => rfl
    | true =>
      rw [stripped_eq]
      cases hasBlocks m.content with
      | true => rfl
      | false =>
        cases repaired rest with
        | error e => rfl
        | ok others =>
          by_cases htext : strip (contentText m.content) = ""
          · simp [htext, bind, Except.bind, pure, Except.pure, Except.map]
          · simp [htext, bind, Except.bind, pure, Except.pure, Except.map]

/-- The repair fails only where it strips a list. -/
theorem repaired_eq (l : List (Message β)) :
    repaired l =
      if everyTail (fun m rest => !(isUnanswered m rest && hasBlocks m.content)) l then
        .ok (repairedList l)
      else .error .attributeError := by
  induction l with
  | nil => rfl
  | cons m rest ih =>
    cases htool : m.isTool with
    | true =>
      rw [repaired, if_pos htool, everyTail, repairedList, if_pos htool, isUnanswered,
        isTool_not_callsTools htool, Bool.false_and, Bool.false_and, Bool.not_false, Bool.true_and]
      exact ih
    | false =>
      rw [repaired_cons htool, everyTail, repairedList_cons htool, ih]
      cases isUnanswered m rest && hasBlocks m.content with
      | true => rfl
      | false =>
        rw [if_neg Bool.false_ne_true, Bool.not_false, Bool.true_and]
        split
        · rfl
        · rfl

/-! ## The answers of a message -/

theorem mem_callIds {id : String} (h : id ∈ m.callIds) :
    id ≠ "" ∧ ∃ call, some call ∈ m.toolCalls ∧ call.id = some id := by
  obtain ⟨tc, hmem, hid⟩ := List.mem_filterMap.mp h
  obtain ⟨call, rfl, hcall⟩ := Option.bind_eq_some_iff.mp hid
  obtain ⟨hcallId, hne⟩ := Option.filter_eq_some_iff.mp hcall
  exact ⟨of_decide_eq_true hne, call, hmem, hcallId⟩

theorem mem_toolBatch {expected answeredIds : List String}
    (h : t ∈ toolBatch expected answeredIds l) : t ∈ l ∧ t.answeredId ∈ expected := by
  induction l generalizing answeredIds with
  | nil => cases h
  | cons m l ih =>
    rw [toolBatch] at h
    split at h
    case isTrue htaken =>
      obtain rfl | hmem := List.mem_cons.mp h
      · exact ⟨List.mem_cons_self, htaken.1⟩
      · exact ⟨List.mem_cons_of_mem m (ih hmem).1, (ih hmem).2⟩
    case isFalse => exact ⟨List.mem_cons_of_mem m (ih h).1, (ih h).2⟩

/-- An answer is a tool message with the id of a call. -/
theorem mem_answers (h : t ∈ m.answers rest) :
    t.isTool = true ∧ t.answeredId ∈ m.callIds ∧ t.toolCallId = some t.answeredId := by
  obtain ⟨hmem, hid⟩ := mem_toolBatch h
  refine ⟨List.mem_takeWhile_imp hmem, hid, ?_⟩
  have hne := (mem_callIds hid).1
  rw [Message.answeredId] at hne ⊢
  cases htool : t.toolCallId with
  | none =>
    rw [htool] at hne
    exact absurd rfl hne
  | some id => rfl

theorem answers_of_mem (h : t ∈ m.answers rest) :
    ∃ tc ∈ (m.pruned (m.answers rest)).toolCalls, Answers t tc := by
  obtain ⟨-, hid, htool⟩ := mem_answers h
  obtain ⟨-, call, hcall, hcallId⟩ := mem_callIds hid
  refine ⟨some call, List.mem_filter.mpr ⟨hcall, ?_⟩, call, t.answeredId, rfl, hcallId, htool⟩
  rw [isAnswered, hcallId]
  exact decide_eq_true (List.mem_map_of_mem h)

/-- A call that is left, and has an id, has an answer. -/
theorem exists_answer {tc : Option (ToolCall β)} (hnamed : isNamed tc = true)
    (h : tc ∈ (m.pruned (m.answers rest)).toolCalls) : ∃ t ∈ m.answers rest, Answers t tc := by
  obtain ⟨-, hanswered⟩ := List.mem_filter.mp h
  cases tc with
  | none => cases hnamed
  | some call =>
    obtain ⟨id, hid⟩ := Option.isSome_iff_exists.mp hnamed
    rw [isAnswered, hid] at hanswered
    obtain ⟨t, ht, rfl⟩ := List.mem_map.mp (of_decide_eq_true hanswered)
    exact ⟨t, ht, call, t.answeredId, rfl, hid, (mem_answers ht).2.2⟩

/-! ## Calls with their answers behind them -/

/-- The tool messages stand behind the message whose calls they answer. -/
inductive Paired : List (Message β) → Prop
  | nil : Paired []
  | single {m : Message β} {rest : List (Message β)} (htool : m.isTool = false)
      (hcalls : m.callsTools = false) (hrest : Paired rest) : Paired (m :: rest)
  | batch {m : Message β} {answers rest : List (Message β)} (hcalls : m.callsTools = true)
      (hanswers : ∀ t ∈ answers, t.isTool = true ∧ ∃ tc ∈ m.toolCalls, Answers t tc)
      (hanswered : ∀ tc ∈ m.toolCalls, isNamed tc = true → ∃ t ∈ answers, Answers t tc)
      (hrest : Paired rest) : Paired (m :: (answers ++ rest))

theorem isAssistant_of_callsTools (h : m.callsTools = true) : m.isAssistant = true :=
  (Bool.and_eq_true_iff.mp h).1

theorem paired_repairedList (l : List (Message β)) : Paired (repairedList l) := by
  induction l with
  | nil => exact .nil
  | cons m rest ih =>
    cases htool : m.isTool with
    | true =>
      rw [repairedList, if_pos htool]
      exact ih
    | false =>
      rw [repairedList_cons htool, repairedUnit]
      split
      case isFalse hcalls => exact .single htool (Bool.not_eq_true _ ▸ hcalls) ih
      case isTrue hcalls =>
        split
        case isTrue =>
          split
          · exact ih
          · refine .single htool ?_ ih
            rw [Message.callsTools, List.isEmpty_nil, Bool.not_true, Bool.and_false]
        case isFalse hempty =>
          -- an answer has a call that is left
          have hpruned : (m.pruned (m.answers rest)).callsTools = true := by
            obtain ⟨t, ht⟩ := List.exists_mem_of_ne_nil _ (mt List.isEmpty_iff.mpr hempty)
            obtain ⟨tc, htc, -⟩ := answers_of_mem ht
            refine Bool.and_eq_true_iff.mpr
              ⟨show m.isAssistant = true from isAssistant_of_callsTools hcalls, ?_⟩
            rw [Bool.not_eq_true', List.isEmpty_eq_false_iff]
            exact List.ne_nil_of_mem htc
          exact .batch hpruned (fun t ht => ⟨(mem_answers ht).1, answers_of_mem ht⟩)
            (fun tc htc hnamed => exists_answer hnamed htc) ih

theorem mergeInto_of_not_isUser {last : Message β} (h : last.isUser = false)
    (rest : List (Message β)) : mergeInto last rest = last :: merged rest := by
  cases rest with
  | nil => rfl
  | cons item rest =>
    rw [mergeInto, h, Bool.false_and, if_neg Bool.false_ne_true]
    rfl

theorem isTool_not_isUser (h : m.isTool = true) : m.isUser = false := by
  rw [Message.isUser, of_decide_eq_true h]
  rfl

theorem isAssistant_not_isUser (h : m.isAssistant = true) : m.isUser = false := by
  rw [Message.isUser, of_decide_eq_true h]
  rfl

theorem merged_append {answers : List (Message β)} (h : ∀ t ∈ answers, t.isTool = true)
    (rest : List (Message β)) : merged (answers ++ rest) = answers ++ merged rest := by
  induction answers with
  | nil => rfl
  | cons t answers ih =>
    rw [List.cons_append, merged,
      mergeInto_of_not_isUser (isTool_not_isUser (h t List.mem_cons_self)),
      ih fun t' ht' => h t' (List.mem_cons_of_mem t ht')]
    rfl

/-- A message of the user is neither a tool message nor one with calls. -/
theorem Paired.cons_user (hrest : Paired rest) (h : m.isUser = true) : Paired (m :: rest) := by
  have hrole := of_decide_eq_true h
  refine .single ?_ ?_ hrest
  · rw [Message.isTool, hrole]
    rfl
  · rw [Message.callsTools, Message.isAssistant, hrole]
    rfl

/-- Merging keeps the pairs, whether or not a message of the user is there to be merged. -/
theorem paired_merged (h : Paired l) :
    Paired (merged l) ∧ ∀ last : Message β, last.isUser = true → Paired (mergeInto last l) := by
  induction h with
  | nil => exact ⟨.nil, fun last hlast => Paired.nil.cons_user hlast⟩
  | @single m rest htool hcalls hrest ih =>
    have hmerged : Paired (mergeInto m rest) := by
      cases huser : m.isUser with
      | true => exact ih.2 m huser
      | false =>
        rw [mergeInto_of_not_isUser huser]
        exact .single htool hcalls ih.1
    refine ⟨hmerged, fun last hlast => ?_⟩
    rw [mergeInto, hlast, Bool.true_and]
    split
    case isFalse => exact hmerged.cons_user hlast
    case isTrue huser =>
      split
      · exact (Paired.single rfl rfl hmerged).cons_user hlast
      · exact ih.2 _ hlast
  | @batch m answers rest hcalls hanswers hanswered hrest ih =>
    have huser := isAssistant_not_isUser (isAssistant_of_callsTools hcalls)
    have hmerged : Paired (mergeInto m (answers ++ rest)) := by
      rw [mergeInto_of_not_isUser huser, merged_append fun t ht => (hanswers t ht).1]
      exact .batch hcalls hanswers hanswered ih.1
    refine ⟨hmerged, fun last hlast => ?_⟩
    rw [mergeInto, huser, Bool.and_false, if_neg Bool.false_ne_true]
    exact hmerged.cons_user hlast

/-- And so does taking out the system messages. -/
theorem Paired.filter (h : Paired l) : Paired (l.filter fun m => !m.isSystem) := by
  induction h with
  | nil => exact .nil
  | @single m rest htool hcalls hrest ih =>
    rw [List.filter_cons]
    split
    · exact .single htool hcalls ih
    · exact ih
  | @batch m answers rest hcalls hanswers hanswered hrest ih =>
    have hsystem : m.isSystem = false := by
      rw [Message.isSystem, of_decide_eq_true (isAssistant_of_callsTools hcalls)]
      rfl
    have hfilter : (answers.filter fun m => !m.isSystem) = answers := by
      refine List.filter_eq_self.mpr fun t ht => ?_
      rw [Message.isSystem, of_decide_eq_true (hanswers t ht).1]
      rfl
    rw [List.filter_cons_of_pos (by rw [hsystem]; rfl), List.filter_append, hfilter]
    exact .batch hcalls hanswers hanswered ih

/-! ## Neighbours that are the user's -/

/-- The same of the messages that are left, of which none is dropped. -/
def standApart : Bool → Bool → List (Message β) → Bool
  | _, _, [] => true
  | afterUser, parted, m :: rest =>
    if m.isSystem then standApart afterUser true rest
    else if m.isUser then !(afterUser && parted) && standApart true false rest
    else standApart false false rest

/-- No two messages of the user are neighbours once the system messages are taken out. -/
def noPairs : Bool → List (Message β) → Bool
  | _, [] => true
  | afterUser, m :: rest =>
    if m.isSystem then noPairs afterUser rest
    else if m.isUser then !afterUser && noPairs true rest
    else noPairs false rest

theorem isAssistant_not_isSystem (h : m.isAssistant = true) : m.isSystem = false := by
  rw [Message.isSystem, of_decide_eq_true h]
  rfl

theorem isTool_not_isSystem (h : m.isTool = true) : m.isSystem = false := by
  rw [Message.isSystem, of_decide_eq_true h]
  rfl

theorem isUser_not_isSystem (h : m.isUser = true) : m.isSystem = false := by
  rw [Message.isSystem, of_decide_eq_true h]
  rfl

/-- A message of neither the user nor the system. -/
theorem standApart_cons (hsystem : m.isSystem = false) (huser : m.isUser = false)
    (afterUser parted : Bool) :
    standApart afterUser parted (m :: rest) = standApart false false rest := by
  rw [standApart, hsystem, huser, if_neg Bool.false_ne_true, if_neg Bool.false_ne_true]

theorem standApart_append {answers : List (Message β)} (h : ∀ t ∈ answers, t.isTool = true) :
    standApart false false (answers ++ rest) = standApart false false rest := by
  induction answers with
  | nil => rfl
  | cons t answers ih =>
    have ht := h t List.mem_cons_self
    rw [List.cons_append, standApart_cons (isTool_not_isSystem ht) (isTool_not_isUser ht)]
    exact ih fun t' ht' => h t' (List.mem_cons_of_mem t ht')

theorem standApart_repairedList (afterUser parted : Bool) (l : List (Message β)) :
    standApart afterUser parted (repairedList l) = areApart afterUser parted l := by
  induction l generalizing afterUser parted with
  | nil => rfl
  | cons m rest ih =>
    rw [areApart, isDropped, isUnanswered]
    cases htool : m.isTool with
    | true =>
      rw [repairedList, if_pos htool, Bool.true_or, if_pos rfl]
      exact ih afterUser parted
    | false =>
      rw [repairedList_cons htool, repairedUnit, Bool.false_or]
      cases hcalls : m.callsTools with
      | false =>
        rw [if_neg Bool.false_ne_true, Bool.false_and, Bool.false_and, if_neg Bool.false_ne_true,
          List.cons_append, List.nil_append, standApart]
        simp only [ih]
      | true =>
        have hassistant := isAssistant_of_callsTools hcalls
        have hsystem := isAssistant_not_isSystem hassistant
        have huser := isAssistant_not_isUser hassistant
        rw [if_pos rfl, Bool.true_and, hsystem, huser, if_neg Bool.false_ne_true,
          if_neg Bool.false_ne_true]
        cases (m.answers rest).isEmpty with
        | true =>
          rw [if_pos rfl, Bool.true_and]
          by_cases htext : strip (contentText m.content) = ""
          · rw [if_pos htext, if_pos (decide_eq_true htext), List.nil_append, ih]
          · rw [if_neg htext, if_neg (by simpa using htext), ← ih false false]
            exact standApart_cons (m := { m with toolCalls := [] }) hsystem huser afterUser parted
        | false =>
          rw [if_neg Bool.false_ne_true, Bool.false_and, if_neg Bool.false_ne_true, ← ih false false,
            ← standApart_append fun t (ht : t ∈ m.answers rest) => (mem_answers ht).1]
          exact standApart_cons (m := m.pruned (m.answers rest)) hsystem huser afterUser parted

/-- Merging leaves those neighbours that system messages part. -/
theorem noPairs_mergeInto (afterUser : Bool) (last : Message β) (rest : List (Message β)) :
    noPairs afterUser (mergeInto last rest) =
      if last.isSystem then standApart afterUser true rest
      else if last.isUser then !afterUser && standApart true false rest
      else standApart false false rest := by
  induction rest generalizing afterUser last with
  | nil =>
    rw [mergeInto, noPairs]
    rfl
  | cons item rest ih =>
    rw [mergeInto]
    cases hsystem : last.isSystem with
    | true =>
      have huser : last.isUser = false := by
        rw [Message.isUser, of_decide_eq_true hsystem]
        rfl
      rw [huser, Bool.false_and, if_neg Bool.false_ne_true, noPairs, hsystem, if_pos rfl, if_pos rfl,
        ih, standApart, Bool.and_true]
    | false =>
      rw [if_neg Bool.false_ne_true]
      cases huser : last.isUser with
      | false =>
        rw [Bool.false_and, if_neg Bool.false_ne_true, if_neg Bool.false_ne_true, noPairs, hsystem,
          huser, if_neg Bool.false_ne_true, if_neg Bool.false_ne_true, ih, standApart, Bool.and_false]
      | true =>
        rw [if_pos rfl, Bool.true_and]
        cases hitem : item.isUser with
        | false =>
          rw [if_neg Bool.false_ne_true, noPairs, hsystem, huser, if_neg Bool.false_ne_true,
            if_pos rfl, ih, standApart, hitem, if_neg Bool.false_ne_true, if_neg Bool.false_ne_true]
        | true =>
          have hitemSystem := isUser_not_isSystem hitem
          rw [if_pos rfl, standApart, hitemSystem, hitem, if_neg Bool.false_ne_true, if_pos rfl,
            Bool.and_false, Bool.not_false, Bool.true_and]
          split
          · -- the message between the two is the assistant's
            have hboundary : noPairs true
                (Message.plain "assistant" referenceContextBoundary :: mergeInto item rest) =
                noPairs false (mergeInto item rest) := rfl
            rw [noPairs, hsystem, huser, if_neg Bool.false_ne_true, if_pos rfl, hboundary, ih,
              hitemSystem, hitem, if_neg Bool.false_ne_true, if_pos rfl, Bool.not_false,
              Bool.true_and]
          · rw [ih]
            show (if last.isSystem then _ else if last.isUser then _ else _) = _
            rw [hsystem, huser, if_neg Bool.false_ne_true, if_pos rfl]

theorem noPairs_merged (l : List (Message β)) :
    noPairs false (merged l) = standApart false false l := by
  cases l with
  | nil => rfl
  | cons item rest =>
    rw [merged, noPairs_mergeInto, standApart]
    rfl

/-- The messages without the system's are a chain where there are no such pairs. -/
theorem isChain_iff_noPairs (l : List (Message β)) :
    ((l.filter fun m => !m.isSystem).IsChain fun a b => ¬ (a.isUser = true ∧ b.isUser = true)) ↔
      noPairs false l = true := by
  suffices h : ∀ afterUser : Bool, (∀ first : Message β, first.isUser = afterUser →
      (List.IsChain (fun a b => ¬ (a.isUser = true ∧ b.isUser = true))
        (first :: l.filter fun m => !m.isSystem) ↔ noPairs afterUser l = true)) by
    have hfirst := h false (.plain "" "") rfl
    rw [← hfirst, List.isChain_cons_iff]
    constructor
    · intro hchain
      cases hl : l.filter fun m => !m.isSystem with
      | nil => exact .inl rfl
      | cons m rest => exact .inr ⟨m, rest, fun hboth => absurd hboth.1 Bool.noConfusion, hl ▸ hchain, rfl⟩
    · rintro (hnil | ⟨m, rest, -, hchain, hl⟩)
      · rw [hnil]
        exact .nil
      · rw [hl]
        exact hchain
  induction l with
  | nil =>
    intro afterUser first hfirst
    exact iff_of_true (.singleton first) rfl
  | cons m l ih =>
    intro afterUser first hfirst
    rw [noPairs, List.filter_cons]
    cases hsystem : m.isSystem with
    | true =>
      rw [Bool.not_true, if_neg Bool.false_ne_true, if_pos rfl]
      exact ih afterUser first hfirst
    | false =>
      rw [Bool.not_false, if_pos rfl, if_neg Bool.false_ne_true, List.isChain_cons_cons, hfirst]
      cases huser : m.isUser with
      | true =>
        rw [if_pos rfl, Bool.and_eq_true, Bool.not_eq_true', ih true m huser]
        simp
      | false =>
        rw [if_neg Bool.false_ne_true, ih false m huser]
        simp

/-! ## Calls without an id -/

/-- Every call of the assistant has an id. -/
def allNamed (l : List (Message β)) : Bool :=
  l.all fun m => !m.isAssistant || m.toolCalls.all isNamed

theorem allNamed_of_tools {answers : List (Message β)} (h : ∀ t ∈ answers, t.isTool = true) :
    allNamed answers = true := by
  refine List.all_eq_true.mpr fun t ht => ?_
  rw [Message.isAssistant, of_decide_eq_true (h t ht)]
  rfl

theorem allNamed_repairedList (l : List (Message β)) :
    allNamed (repairedList l) =
      everyTail (fun m rest => !m.callsTools || (m.pruned (m.answers rest)).toolCalls.all isNamed)
        l := by
  induction l with
  | nil => rfl
  | cons m rest ih =>
    rw [everyTail, ← ih]
    cases htool : m.isTool with
    | true =>
      rw [repairedList, if_pos htool, isTool_not_callsTools htool]
      rfl
    | false =>
      rw [repairedList_cons htool, repairedUnit, allNamed, List.all_append, ← allNamed, ← allNamed]
      congr 1
      cases hcalls : m.callsTools with
      | false =>
        rw [if_neg Bool.false_ne_true, allNamed, List.all_cons, List.all_nil, Bool.and_true]
        cases hassistant : m.isAssistant with
        | false => rfl
        | true =>
          rw [Message.callsTools, hassistant, Bool.true_and, Bool.not_eq_false',
            List.isEmpty_iff] at hcalls
          rw [hcalls]
          rfl
      | true =>
        have hassistant := isAssistant_of_callsTools hcalls
        rw [if_pos rfl, Bool.not_true, Bool.false_or]
        cases hempty : (m.answers rest).isEmpty with
        | true =>
          have hnone : (m.pruned (m.answers rest)).toolCalls = [] := by
            rw [Message.pruned, List.isEmpty_iff.mp hempty]
            refine List.filter_eq_nil_iff.mpr fun tc _ => ?_
            cases tc with
            | none => exact Bool.false_ne_true
            | some call => simp [isAnswered]
          rw [if_pos rfl, hnone]
          split
          · rfl
          · show (!m.isAssistant || true) && true = true
            rw [Bool.or_true]
            rfl
        | false =>
          rw [if_neg Bool.false_ne_true, allNamed, List.all_cons, ← allNamed,
            allNamed_of_tools fun t ht => (mem_answers ht).1, Bool.and_true]
          show (!m.isAssistant || _) = _
          rw [hassistant, Bool.not_true, Bool.false_or]

theorem allNamed_mergeInto (last : Message β) (rest : List (Message β)) :
    allNamed (mergeInto last rest) = allNamed (last :: rest) := by
  induction rest generalizing last with
  | nil => rfl
  | cons item rest ih =>
    have hcons : ∀ (m : Message β) (l : List (Message β)), allNamed (m :: l) =
        ((!m.isAssistant || m.toolCalls.all isNamed) && allNamed l) := fun _ _ => rfl
    rw [mergeInto]
    split
    case isFalse => rw [hcons, ih, ← hcons]
    case isTrue husers =>
      obtain ⟨hlast, hitem⟩ := Bool.and_eq_true_iff.mp husers
      have hnot : ∀ m : Message β, m.isUser = true → m.isAssistant = false := by
        intro m hm
        rw [Message.isAssistant, of_decide_eq_true hm]
        rfl
      split
      case isTrue =>
        rw [hcons, hcons, ih, hcons last]
        rfl
      case isFalse =>
        rw [ih, hcons, hcons last, hcons item, hnot item hitem, hnot last hlast]
        show ((!last.isAssistant || _) && _) = _
        rw [hnot last hlast]
        simp

/-! ## Texts -/

theorem Grouped.refl (xs : List String) : Grouped xs xs := by
  refine ⟨xs.map fun x => [x], ?_, ?_⟩
  · rw [← List.flatMap_def, List.flatMap_singleton']
  · rw [List.map_map]
    exact List.map_id'' (fun _ => rfl) xs

theorem Grouped.append {xs ys xs' ys' : List String} (h : Grouped xs ys) (h' : Grouped xs' ys') :
    Grouped (xs ++ xs') (ys ++ ys') := by
  obtain ⟨groups, rfl, rfl⟩ := h
  obtain ⟨groups', rfl, rfl⟩ := h'
  exact ⟨groups ++ groups', List.flatten_append, List.map_append⟩

theorem joined_concat {xs : List String} (hne : xs ≠ []) (x : String) :
    joined (xs ++ [x]) = joined xs ++ "\n\n" ++ x := by
  induction xs with
  | nil => exact absurd rfl hne
  | cons y xs ih =>
    cases xs with
    | nil => rfl
    | cons z xs =>
      show y ++ "\n\n" ++ joined (z :: xs ++ [x]) = y ++ "\n\n" ++ joined (z :: xs) ++ "\n\n" ++ x
      rw [ih (List.cons_ne_nil z xs)]
      simp only [String.append_assoc]

/-- A text that is joined to one that is not empty. -/
theorem Grouped.concat {xs : List String} {y : String} (h : Grouped xs [y]) (hy : y ≠ "")
    (x : String) : Grouped (xs ++ [x]) [y ++ "\n\n" ++ x] := by
  obtain ⟨groups, rfl, hmap⟩ := h
  obtain ⟨group, rfl, hgroup⟩ := List.map_eq_singleton_iff.mp hmap
  have hne : group ≠ [] := by
    rintro rfl
    exact hy hgroup.symm
  refine ⟨[group ++ [x]], by simp, ?_⟩
  rw [List.map_cons, List.map_nil, joined_concat hne, hgroup]

theorem contentTexts_asContentBlocks (content : Option (Content β)) :
    contentTexts (some (.blocks (asContentBlocks content))) = contentTexts content := by
  match content with
  | none => rfl
  | some (.blocks items) => rfl
  | some (.text text) =>
    rw [asContentBlocks]
    by_cases htext : text = ""
    · rw [if_pos htext, htext]
      rfl
    · rw [if_neg htext]
      rfl

theorem contentTexts_append (items items' : List (Block β)) :
    contentTexts (some (.blocks (items ++ items'))) =
      contentTexts (some (.blocks items)) ++ contentTexts (some (.blocks items')) := by
  simp only [contentTexts, List.filterMap_append, List.filter_append]

theorem contentTexts_text {text : String} (h : text ≠ "") :
    contentTexts (some (.text text) : Option (Content β)) = [text] := by
  rw [contentTexts]
  exact List.filter_cons_of_pos (decide_eq_true h)

theorem contentTexts_of_not_isList {content : Option (Content β)}
    (h : content.any Content.isList = false) :
    contentTexts content = [contentText content].filter fun text => decide (text ≠ "") := by
  match content with
  | none => rfl
  | some (.text text) => rfl
  | some (.blocks items) => cases h

/-- The texts of two messages that are merged. -/
theorem grouped_mergedContent {last item : Option (Content β)} {xs : List String}
    (h : Grouped xs (contentTexts last)) :
    Grouped (xs ++ contentTexts item) (contentTexts (mergedContent last item)) := by
  rw [mergedContent]
  split
  case isTrue =>
    have htexts : ∀ blocks, asContentBlocks last ++ asContentBlocks item = blocks →
        contentTexts (some (.blocks blocks)) = contentTexts last ++ contentTexts item := by
      rintro blocks rfl
      rw [contentTexts_append, contentTexts_asContentBlocks, contentTexts_asContentBlocks]
    split
    case h_1 hnil =>
      rw [show contentTexts (none : Option (Content β)) = _ from htexts [] hnil]
      exact h.append (Grouped.refl _)
    case h_2 =>
      rw [htexts _ rfl]
      exact h.append (Grouped.refl _)
  case isFalse hlists =>
    obtain ⟨hlast, hitem⟩ := Bool.or_eq_false_iff.mp (Bool.not_eq_true _ ▸ hlists)
    rw [contentTexts_of_not_isList hlast] at h
    rw [contentTexts_of_not_isList hitem]
    generalize contentText last = text at h ⊢
    generalize contentText item = text' at h ⊢
    have hempty : ([""].filter fun part => decide (part ≠ "")) = [] := by simp
    have hkept : ∀ part : String, part ≠ "" →
        ([part].filter fun part => decide (part ≠ "")) = [part] :=
      fun part hpart => List.filter_cons_of_pos (decide_eq_true hpart)
    by_cases htext : text = ""
    · subst htext
      rw [hempty] at h
      by_cases htext' : text' = ""
      · subst htext'
        have hjoined : joined (["", ""].filter fun part => decide (part ≠ "")) = "" := by
          simp [joined]
        dsimp only
        rw [hempty, List.append_nil, hjoined, if_pos rfl]
        exact h
      · have hjoined : joined (["", text'].filter fun part => decide (part ≠ "")) = text' := by
          simp [htext', joined]
        dsimp only
        rw [hjoined, if_neg htext', hkept text' htext', contentTexts_text htext']
        exact h.append (Grouped.refl [text'])
    · rw [hkept text htext] at h
      by_cases htext' : text' = ""
      · subst htext'
        have hjoined : joined ([text, ""].filter fun part => decide (part ≠ "")) = text := by
          simp [htext, joined]
        dsimp only
        rw [hempty, List.append_nil, hjoined, if_neg htext, contentTexts_text htext]
        exact h
      · have hjoined : joined ([text, text'].filter fun part => decide (part ≠ "")) =
            text ++ "\n\n" ++ text' := by
          simp [htext, htext', joined]
        have hne : text ++ "\n\n" ++ text' ≠ "" := by
          simp [String.append_eq_empty_iff]
        dsimp only
        rw [hjoined, if_neg hne, hkept text' htext', contentTexts_text hne]
        exact h.concat htext text'

theorem texts_cons (role : String) (m : Message β) (rest : List (Message β)) :
    texts role (m :: rest) =
      (if m.role = role then contentTexts m.content else []) ++ texts role rest := by
  rw [texts, List.filter_cons]
  by_cases h : m.role = role
  · rw [if_pos (decide_eq_true h), if_pos h]
    rfl
  · rw [if_neg (by simpa using h), if_neg h]
    rfl

/-- The texts of the user after merging, from those of the last message. -/
theorem grouped_mergeInto (last : Message β) (rest : List (Message β)) {xs : List String}
    (h : Grouped xs (if last.role = "user" then contentTexts last.content else [])) :
    Grouped (xs ++ texts "user" rest) (texts "user" (mergeInto last rest)) := by
  induction rest generalizing last xs with
  | nil =>
    rw [mergeInto, texts_cons]
    exact h.append (Grouped.refl [])
  | cons item rest ih =>
    have hnext : Grouped (texts "user" (item :: rest)) (texts "user" (mergeInto item rest)) := by
      rw [texts_cons]
      exact ih item (Grouped.refl _)
    rw [mergeInto]
    split
    case isFalse =>
      rw [texts_cons _ last]
      exact h.append hnext
    case isTrue husers =>
      obtain ⟨hlast, hitem⟩ := Bool.and_eq_true_iff.mp husers
      have hlast := of_decide_eq_true hlast
      have hitem := of_decide_eq_true hitem
      split
      case isTrue =>
        rw [texts_cons _ last, texts_cons _ (Message.plain _ _)]
        exact h.append hnext
      case isFalse =>
        rw [if_pos hlast] at h
        rw [texts_cons _ item, if_pos hitem, ← List.append_assoc]
        refine ih _ ?_
        show Grouped _ (if last.role = "user" then _ else _)
        rw [if_pos hlast]
        exact grouped_mergedContent h

theorem grouped_merged (l : List (Message β)) :
    Grouped (texts "user" l) (texts "user" (merged l)) := by
  cases l with
  | nil => exact Grouped.refl []
  | cons item rest =>
    rw [texts_cons]
    exact grouped_mergeInto item rest (Grouped.refl _)

/-! ## The system message in closed form -/

/-- The messages after the consolidation. -/
def consolidatedList (l : List (Message β)) : List (Message β) :=
  let parts := (l.filter Message.isSystem).map fun m => contentText m.content
  let nonSys := l.filter fun m => !m.isSystem
  if parts.isEmpty then nonSys else .plain "system" (joined parts) :: nonSys

theorem systemPart_eq (m : Message β) :
    systemPart m =
      if hasBlocks m.content then .error .typeError else .ok (contentText m.content) := by
  rw [systemPart]
  match m.content with
  | none => rfl
  | some (.text text) => rfl
  | some (.blocks []) => rfl
  | some (.blocks (_ :: _)) => rfl

theorem mapM_systemPart (l : List (Message β)) :
    l.mapM systemPart =
      if l.all fun m => !hasBlocks m.content then .ok (l.map fun m => contentText m.content)
      else .error .typeError := by
  induction l with
  | nil => rfl
  | cons m l ih =>
    rw [List.mapM_cons, systemPart_eq, ih, List.all_cons]
    cases hasBlocks m.content with
    | true => rfl
    | false =>
      rw [if_neg Bool.false_ne_true, Bool.not_false, Bool.true_and]
      split
      · rfl
      · rfl

theorem all_system (l : List (Message β)) :
    (l.filter Message.isSystem).all (fun m => !hasBlocks m.content) =
      l.all fun m => !(m.isSystem && hasBlocks m.content) := by
  induction l with
  | nil => rfl
  | cons m l ih =>
    rw [List.filter_cons, List.all_cons, ← ih]
    cases m.isSystem with
    | true => rfl
    | false => rfl

theorem consolidated_eq (l : List (Message β)) :
    consolidated l =
      if l.all fun m => !(m.isSystem && hasBlocks m.content) then .ok (consolidatedList l)
      else .error .typeError := by
  rw [consolidated, mapM_systemPart, all_system]
  split
  · rfl
  · rfl

/-- The messages of a role that the repair leaves alone. -/
theorem filter_repairedList {role : String} (htool : role ≠ "tool") (hassistant : role ≠ "assistant")
    (l : List (Message β)) :
    ((repairedList l).filter fun m => decide (m.role = role)) =
      l.filter fun m => decide (m.role = role) := by
  have hother : ∀ m : Message β, m.isTool = true ∨ m.isAssistant = true →
      decide (m.role = role) = false := by
    rintro m (hm | hm)
    · rw [of_decide_eq_true hm]
      exact decide_eq_false (Ne.symm htool)
    · rw [of_decide_eq_true hm]
      exact decide_eq_false (Ne.symm hassistant)
  induction l with
  | nil => rfl
  | cons m rest ih =>
    rw [List.filter_cons]
    cases hmtool : m.isTool with
    | true =>
      rw [repairedList, if_pos hmtool, hother m (.inl hmtool), if_neg Bool.false_ne_true, ih]
    | false =>
      rw [repairedList_cons hmtool, List.filter_append, ih, repairedUnit]
      split
      case isFalse =>
        rw [List.filter_cons]
        split
        · rfl
        · rfl
      case isTrue hcalls =>
        have hm := isAssistant_of_callsTools hcalls
        rw [hother m (.inr hm), if_neg Bool.false_ne_true]
        split
        case isTrue =>
          split
          · rfl
          · rw [List.filter_cons_of_neg]
            · rfl
            · rw [hother { m with toolCalls := [] } (.inr hm)]
              exact Bool.false_ne_true
        case isFalse =>
          rw [List.filter_cons_of_neg, List.filter_eq_nil_iff.mpr, List.nil_append]
          · intro t ht
            rw [hother t (.inl (mem_answers ht).1)]
            exact Bool.false_ne_true
          · rw [hother (m.pruned (m.answers rest)) (.inr hm)]
            exact Bool.false_ne_true

theorem filter_mergeInto (last : Message β) (rest : List (Message β)) :
    (mergeInto last rest).filter Message.isSystem = (last :: rest).filter Message.isSystem := by
  induction rest generalizing last with
  | nil => rfl
  | cons item rest ih =>
    rw [mergeInto]
    split
    case isFalse => rw [List.filter_cons, ih, ← List.filter_cons]
    case isTrue husers =>
      obtain ⟨hlast, hitem⟩ := Bool.and_eq_true_iff.mp husers
      have hnone : ∀ (m : Message β) (l : List (Message β)), m.isUser = true →
          (m :: l).filter Message.isSystem = l.filter Message.isSystem := fun m l hm =>
        List.filter_cons_of_neg (by rw [isUser_not_isSystem hm]; exact Bool.false_ne_true)
      split
      case isTrue =>
        rw [hnone last _ hlast, hnone last _ hlast, ← ih item]
        rfl
      case isFalse =>
        rw [ih, hnone last _ hlast, hnone item _ hitem]
        exact hnone { last with content := mergedContent last.content item.content } rest hlast

theorem filter_merged (l : List (Message β)) :
    (merged l).filter Message.isSystem = l.filter Message.isSystem := by
  cases l with
  | nil => rfl
  | cons item rest => exact filter_mergeInto item rest

theorem allNamed_consolidatedList (l : List (Message β)) :
    allNamed (consolidatedList l) = allNamed l := by
  have hfilter : allNamed (l.filter fun m => !m.isSystem) = allNamed l := by
    induction l with
    | nil => rfl
    | cons m l ih =>
      rw [List.filter_cons]
      cases hsystem : m.isSystem with
      | false =>
        rw [Bool.not_false, if_pos rfl, allNamed, List.all_cons, ← allNamed, ih]
        rfl
      | true =>
        have hassistant : m.isAssistant = false := by
          rw [Message.isAssistant, of_decide_eq_true hsystem]
          rfl
        rw [Bool.not_true, if_neg Bool.false_ne_true, ih, allNamed, allNamed, List.all_cons,
          hassistant]
        rfl
  rw [consolidatedList]
  split
  · exact hfilter
  · rw [← hfilter]
    rfl

/-! ## The parts of what is sent -/

theorem Paired.tools (h : Paired l) : EveryPlace (fun before t _ => t.isTool = true → ∃ m tc,
    (before.filter Message.isAssistant).getLast? = some m ∧ tc ∈ m.toolCalls ∧ Answers t tc) l := by
  have hcons : ∀ (m : Message β) {before : List (Message β)} {m' : Message β},
      (before.filter Message.isAssistant).getLast? = some m' →
      ((m :: before).filter Message.isAssistant).getLast? = some m' := by
    intro m before m' hlast
    rw [List.filter_cons]
    split
    · rw [List.getLast?_cons, hlast]
      rfl
    · exact hlast
  induction h with
  | nil => exact everyPlace_nil _
  | @single m rest htool hcalls hrest ih =>
    refine everyPlace_cons.mpr ⟨fun hm => absurd (htool.symm.trans hm) Bool.noConfusion, ?_⟩
    intro before t after hl ht
    obtain ⟨m', tc, hlast, htc, hanswers⟩ := ih before t after hl ht
    exact ⟨m', tc, hcons m hlast, htc, hanswers⟩
  | @batch m answers rest hcalls hanswers hanswered hrest ih =>
    refine everyPlace_cons.mpr
      ⟨fun hm => absurd ((callsTools_not_isTool hcalls).symm.trans hm) Bool.noConfusion, ?_⟩
    have hassistant := isAssistant_of_callsTools hcalls
    -- the message is the last one of the assistant before its answers
    have hbatch : ∀ before : List (Message β), (∀ t ∈ before, t.isTool = true) →
        ((m :: before).filter Message.isAssistant).getLast? = some m := by
      intro before hbefore
      rw [List.filter_cons_of_pos hassistant, List.filter_eq_nil_iff.mpr]
      · rfl
      · intro t ht
        rw [Message.isAssistant, of_decide_eq_true (hbefore t ht)]
        decide
    intro before t after hl ht
    obtain ⟨answers', hbefore, hrest'⟩ | ⟨behind, hbefore, hafter⟩ := List.append_eq_append_iff.mp hl
    · obtain ⟨m', tc, hlast, htc, hthis⟩ := ih answers' t after hrest' ht
      refine ⟨m', tc, hcons m ?_, htc, hthis⟩
      rw [hbefore, List.filter_append, List.getLast?_append, hlast]
      rfl
    · cases behind with
      | nil =>
        obtain ⟨m', tc, hlast, -⟩ := ih [] t after hafter.symm ht
        cases hlast
      | cons t' behind =>
        obtain ⟨rfl, -⟩ := List.cons.inj hafter
        have hmem : t ∈ answers := hbefore ▸ List.mem_append_right before List.mem_cons_self
        obtain ⟨-, tc, htc, hthis⟩ := hanswers t hmem
        exact ⟨m, tc, hbatch before fun t' ht' =>
          (hanswers t' (hbefore ▸ List.mem_append_left _ ht')).1, htc, hthis⟩

theorem Paired.calls (h : Paired l) : EveryPlace (fun _ m after => m.isAssistant = true →
    ∀ tc ∈ m.toolCalls, isNamed tc = true →
      ∃ t ∈ after.takeWhile Message.isTool, Answers t tc) l := by
  induction h with
  | nil => exact everyPlace_nil _
  | @single m rest htool hcalls hrest ih =>
    refine everyPlace_tails.mpr ⟨fun hassistant tc htc _ => ?_, ih⟩
    rw [Message.callsTools, hassistant, Bool.true_and, Bool.not_eq_false', List.isEmpty_iff] at hcalls
    rw [hcalls] at htc
    cases htc
  | @batch m answers rest hcalls hanswers hanswered hrest ih =>
    refine everyPlace_tails.mpr ⟨fun _ tc htc hnamed => ?_, ?_⟩
    · obtain ⟨t, ht, hthis⟩ := hanswered tc htc hnamed
      refine ⟨t, ?_, hthis⟩
      rw [List.takeWhile_append_of_pos fun t ht => (hanswers t ht).1]
      exact List.mem_append_left _ ht
    · clear hanswered
      induction answers with
      | nil => exact ih
      | cons t answers ihAnswers =>
        refine everyPlace_tails.mpr ⟨fun hassistant => ?_,
          ihAnswers fun t' ht' => hanswers t' (List.mem_cons_of_mem t ht')⟩
        have htool := of_decide_eq_true (hanswers t List.mem_cons_self).1
        rw [Message.isAssistant, htool] at hassistant
        cases hassistant

/-- Cleaning leaves the texts of a role that it keeps. -/
theorem texts_cleaned {role : String} (hempty : role ≠ "") (htool : role ≠ "tool")
    (hassistant : role ≠ "assistant") (messages : List (Option (Message β))) :
    texts role (cleaned messages) = texts role (messages.filterMap id) := by
  rw [cleaned]
  generalize messages.filterMap id = l
  induction l with
  | nil => rfl
  | cons m l ih =>
    rw [List.filter_cons, texts_cons]
    by_cases hrole : m.role = role
    · rw [if_pos hrole]
      have hkept : m.isKept = m.content.isSome := by
        rw [Message.isKept, Message.isAssistant, Message.isTool, hrole, if_neg hempty,
          decide_eq_false hassistant, decide_eq_false htool, if_neg Bool.false_ne_true,
          if_neg Bool.false_ne_true]
      split
      · rw [List.map_cons, texts_cons, ih]
        exact congrArg (· ++ _) (if_pos hrole)
      case isFalse hnot =>
        rw [hkept, Bool.not_eq_true, Option.isSome_eq_false_iff, Option.isNone_iff_eq_none] at hnot
        rw [ih, hnot]
        rfl
    · rw [if_neg hrole, List.nil_append]
      split
      · rw [List.map_cons, texts_cons, ih]
        exact (congrArg (· ++ _) (if_neg hrole)).trans (List.nil_append _)
      · exact ih

/-- The system's texts are the parts that are joined, without the empty ones. -/
theorem filter_parts (h : l.all (fun m => !(m.isSystem && hasBlocks m.content)) = true) :
    (((l.filter Message.isSystem).map fun m => contentText m.content).filter
      fun part => decide (part ≠ "")) = texts "system" l := by
  induction l with
  | nil => rfl
  | cons m l ih =>
    obtain ⟨hm, hrest⟩ := Bool.and_eq_true_iff.mp h
    rw [List.filter_cons, texts_cons]
    by_cases hrole : m.role = "system"
    · have hsystem : m.isSystem = true := decide_eq_true hrole
      dsimp only at hm
      rw [hsystem, Bool.true_and, Bool.not_eq_true'] at hm
      have hcontent : contentTexts m.content =
          [contentText m.content].filter fun part => decide (part ≠ "") := by
        match hmc : m.content with
        | none => simp [contentTexts, contentText]
        | some (.text text) => rfl
        | some (.blocks []) => simp [contentTexts, contentText]
        | some (.blocks (_ :: _)) =>
          rw [hmc] at hm
          cases hm
      rw [if_pos hsystem, if_pos hrole, hcontent, List.map_cons, ← ih hrest, ← List.filter_append]
      rfl
    · rw [if_neg (by simpa [Message.isSystem] using hrole), if_neg hrole, List.nil_append]
      exact ih hrest

/-- The messages are sent where the two passes that may fail do not. -/
theorem prepared_eq (messages : List (Option (Message β))) (out : List (Message β)) :
    prepared messages = .ok out ↔
      everyTail (fun m rest => !(isUnanswered m rest && hasBlocks m.content)) (cleaned messages) =
        true ∧
      ((cleaned messages).all fun m => !(m.isSystem && hasBlocks m.content)) = true ∧
      out = consolidatedList (merged (repairedList (cleaned messages))) := by
  have hsystem : ((merged (repairedList (cleaned messages))).all
      fun m => !(m.isSystem && hasBlocks m.content)) =
      (cleaned messages).all fun m => !(m.isSystem && hasBlocks m.content) := by
    have hfilter : (repairedList (cleaned messages)).filter Message.isSystem =
        (cleaned messages).filter Message.isSystem :=
      filter_repairedList (by decide : "system" ≠ "tool") (by decide) _
    rw [← all_system, filter_merged, hfilter, all_system]
  rw [prepared, sanitizeLlmMessages, repaired_eq]
  split
  case isFalse hrepair =>
    constructor
    · intro h
      cases h
    · rintro ⟨h, -⟩
      exact absurd h hrepair
  case isTrue hrepair =>
    show consolidated (merged (repairedList (cleaned messages))) = _ ↔ _
    rw [consolidated_eq, hsystem]
    split
    case isFalse hlists =>
      constructor
      · intro h
        cases h
      · rintro ⟨-, h, -⟩
        exact absurd h hlists
    case isTrue hlists =>
      constructor
      · intro h
        exact ⟨hrepair, hlists, (Except.ok.inj h).symm⟩
      · rintro ⟨-, -, rfl⟩
        rfl

/-- A list without system messages, after one if there is one. -/
theorem consolidatedList_cases (l : List (Message β)) :
    (l.filter Message.isSystem = [] ∧
      consolidatedList l = l.filter fun m => !m.isSystem) ∨
    consolidatedList l = .plain "system"
      (joined ((l.filter Message.isSystem).map fun m => contentText m.content)) ::
        l.filter fun m => !m.isSystem := by
  rw [consolidatedList]
  split
  case isTrue hempty =>
    exact .inl ⟨List.map_eq_nil_iff.mp (List.isEmpty_iff.mp hempty), rfl⟩
  case isFalse => exact .inr rfl

theorem paired_consolidatedList (h : Paired l) : Paired (consolidatedList l) := by
  obtain ⟨-, hlist⟩ | hlist := consolidatedList_cases l
  · rw [hlist]
    exact h.filter
  · rw [hlist]
    exact .single rfl rfl h.filter

theorem isChain_consolidatedList :
    ((consolidatedList l).IsChain fun a b => ¬ (a.isUser = true ∧ b.isUser = true)) ↔
      noPairs false l = true := by
  rw [← isChain_iff_noPairs]
  obtain ⟨-, hlist⟩ | hlist := consolidatedList_cases l
  · rw [hlist]
  · rw [hlist]
    constructor
    · exact fun h => h.tail
    · intro h
      cases hl : l.filter fun m => !m.isSystem with
      | nil => exact .singleton _
      | cons m rest =>
        rw [hl] at h
        exact List.isChain_cons_cons.mpr ⟨fun hboth => absurd hboth.1 Bool.noConfusion, h⟩

theorem system_consolidatedList (l : List (Message β)) :
    EveryPlace (fun before m _ => m.isSystem = true → before = []) (consolidatedList l) := by
  have hnone : ∀ m ∈ l.filter fun m => !m.isSystem, m.isSystem = false := fun m hm => by
    simpa using (List.mem_filter.mp hm).2
  intro before m after hl hsystem
  obtain ⟨-, hlist⟩ | hlist := consolidatedList_cases l
  · rw [hlist] at hl
    have hmem : m ∈ l.filter fun m => !m.isSystem := by
      rw [hl]
      exact List.mem_append_right before List.mem_cons_self
    exact absurd ((hnone m hmem).symm.trans hsystem) Bool.noConfusion
  · rw [hlist] at hl
    cases before with
    | nil => rfl
    | cons m' before =>
      have hmem : m ∈ l.filter fun m => !m.isSystem := by
        rw [(List.cons.inj hl).2]
        exact List.mem_append_right before List.mem_cons_self
      exact absurd ((hnone m hmem).symm.trans hsystem) Bool.noConfusion

theorem texts_consolidatedList (l : List (Message β)) :
    texts "user" (consolidatedList l) = texts "user" l := by
  have hfilter : texts "user" (l.filter fun m => !m.isSystem) = texts "user" l := by
    rw [texts, texts, List.filter_filter]
    refine congrArg (List.flatMap _) (List.filter_congr fun m _ => ?_)
    by_cases hrole : m.role = "user"
    · rw [isUser_not_isSystem (decide_eq_true hrole)]
      exact Bool.and_true _
    · rw [decide_eq_false hrole]
      rfl
  obtain ⟨-, hlist⟩ | hlist := consolidatedList_cases l
  · rw [hlist, hfilter]
  · rw [hlist, texts_cons, hfilter]
    rfl

/-- Messages are prepared as a provider expects it exactly where none of the four cases comes up in
which the passes fail or undo each other's work. -/
theorem prepared_iff (messages : List (Option (Message β))) :
    (∃ out, prepared messages = .ok out ∧ Prepared (messages.filterMap id) out) ↔
      spares (cleaned messages) = true := by
  have hnamed : allNamed (consolidatedList (merged (repairedList (cleaned messages)))) =
      everyTail (fun m rest => !m.callsTools || (m.pruned (m.answers rest)).toolCalls.all isNamed)
        (cleaned messages) := by
    rw [allNamed_consolidatedList, ← allNamed_repairedList]
    cases repairedList (cleaned messages) with
    | nil => rfl
    | cons item rest => exact allNamed_mergeInto item rest
  have hpaired := paired_consolidatedList (paired_merged (paired_repairedList (cleaned messages))).1
  simp only [spares, Bool.and_eq_true]
  rw [← standApart_repairedList, ← noPairs_merged, ← isChain_consolidatedList, ← hnamed]
  simp only [prepared_eq]
  constructor
  · rintro ⟨out, ⟨hrepair, hlists, rfl⟩, h⟩
    refine ⟨⟨⟨hrepair, hlists⟩, h.users⟩, List.all_eq_true.mpr fun m hm => ?_⟩
    cases hassistant : m.isAssistant with
    | false => rfl
    | true =>
      obtain ⟨before, after, hplace⟩ := List.mem_iff_append.mp hm
      refine List.all_eq_true.mpr fun tc htc => ?_
      obtain ⟨-, -, call, id, rfl, hid, -⟩ := h.calls before m after hplace hassistant tc htc
      rw [isNamed, Option.any_some, hid]
      rfl
  · rintro ⟨⟨⟨hrepair, hlists⟩, husers⟩, hcalls⟩
    refine ⟨_, ⟨hrepair, hlists, rfl⟩, ?_⟩
    exact {
      system := system_consolidatedList _
      users := husers
      tools := hpaired.tools
      calls := by
        intro before m after hplace hassistant tc htc
        refine hpaired.calls before m after hplace hassistant tc htc ?_
        have hm := List.all_eq_true.mp hcalls m
          (hplace ▸ List.mem_append_right before List.mem_cons_self)
        rw [hassistant, Bool.not_true, Bool.false_or] at hm
        exact List.all_eq_true.mp hm tc htc
      userTexts := by
        have husers' : texts "user" (repairedList (cleaned messages)) =
            texts "user" (messages.filterMap id) := by
          rw [texts, filter_repairedList (by decide) (by decide), ← texts]
          exact texts_cleaned (by decide) (by decide) (by decide) messages
        rw [texts_consolidatedList, ← husers']
        exact grouped_merged _
      systemTexts := by
        have hfilter : (repairedList (cleaned messages)).filter Message.isSystem =
            (cleaned messages).filter Message.isSystem :=
          filter_repairedList (by decide : "system" ≠ "tool") (by decide) _
        refine ⟨_, (filter_parts hlists).trans
          (texts_cleaned (by decide) (by decide) (by decide) messages), ?_⟩
        obtain ⟨hnone, -⟩ | hlist :=
          consolidatedList_cases (merged (repairedList (cleaned messages)))
        · rw [filter_merged, hfilter] at hnone
          exact .inl (List.map_eq_nil_iff.mpr hnone)
        · rw [hlist, filter_merged, hfilter]
          exact .inr rfl }

/-- A system message between two of the user. -/
theorem not_prepared_parted :
    ¬ ∃ out, prepared ([some (.plain "user" "a"), some (.plain "system" "b"),
      some (.plain "user" "c")] : List (Option (Message ℕ))) = .ok out ∧
      Prepared [.plain "user" "a", .plain "system" "b", .plain "user" "c"] out := by
  rintro ⟨out, hout, h⟩
  have hlist : out = [.plain "system" "b", .plain "user" "a", .plain "user" "c"] := by
    have hrun : prepared ([some (.plain "user" "a"), some (.plain "system" "b"),
        some (.plain "user" "c")] : List (Option (Message ℕ))) =
        .ok [.plain "system" "b", .plain "user" "a", .plain "user" "c"] := by decide +kernel
    exact Except.ok.inj (hout.symm.trans hrun)
  have husers := h.users
  rw [hlist] at husers
  obtain ⟨-, htail⟩ := List.isChain_cons_cons.mp husers
  exact (List.isChain_cons_cons.mp htail).1 ⟨rfl, rfl⟩

end Pandamonium.LlmMessages
