import Pandamonium.Analysis.ForcedAnswers
import Pandamonium.Analysis.PreparedMessages

/-!
# The results that reach the model

The results of a round are appended to the messages and go through `_sanitize_llm_messages`.  What
that makes of them does not depend on the messages before.  The calls and the texts are joined by
position, and the answers are told apart by the ids of the calls: a result without a call, an id that
is empty or comes twice, and a call that was not executed are where this goes wrong.
-/

set_option autoImplicit false

namespace Pandamonium.LlmMessages

variable {β : Type} {m : Message β} {l : List (Message β)}

/-! ## Messages behind others -/

theorem takeWhile_isTool_append (h : m.isTool = false) (xs : List (Message β)) :
    (xs ++ m :: l).takeWhile Message.isTool = xs.takeWhile Message.isTool := by
  induction xs with
  | nil => rw [List.nil_append, List.takeWhile_cons_of_neg (by simp [h]), List.takeWhile_nil]
  | cons x xs ih =>
    cases hx : x.isTool with
    | true => rw [List.cons_append, List.takeWhile_cons_of_pos hx, List.takeWhile_cons_of_pos hx, ih]
    | false =>
      rw [List.cons_append, List.takeWhile_cons_of_neg (by simp [hx]),
        List.takeWhile_cons_of_neg (by simp [hx])]

theorem answers_append (h : m.isTool = false) (x : Message β) (xs : List (Message β)) :
    x.answers (xs ++ m :: l) = x.answers xs := by
  rw [Message.answers, takeWhile_isTool_append h, Message.answers]

/-- The repair takes the messages up to one that is no tool message for themselves. -/
theorem repairedList_append (h : m.isTool = false) (xs : List (Message β)) :
    repairedList (xs ++ m :: l) = repairedList xs ++ repairedList (m :: l) := by
  induction xs with
  | nil => rfl
  | cons x xs ih =>
    rw [List.cons_append, repairedList, repairedList, ih, repairedUnit, repairedUnit,
      answers_append h]
    split
    · rfl
    · rw [List.append_assoc]

theorem everyTail_append (h : m.isTool = false) (xs : List (Message β)) :
    everyTail (fun m rest => !(isUnanswered m rest && hasBlocks m.content)) (xs ++ m :: l) =
      (everyTail (fun m rest => !(isUnanswered m rest && hasBlocks m.content)) xs &&
        everyTail (fun m rest => !(isUnanswered m rest && hasBlocks m.content)) (m :: l)) := by
  induction xs with
  | nil => rfl
  | cons x xs ih =>
    have hfirst : isUnanswered x (xs ++ m :: l) = isUnanswered x xs := by
      rw [isUnanswered, answers_append h, isUnanswered]
    rw [List.cons_append, everyTail, hfirst, ih, ← Bool.and_assoc]
    rfl

theorem mergeInto_append (h : m.isUser = false) (last : Message β) (xs : List (Message β)) :
    mergeInto last (xs ++ m :: l) = mergeInto last xs ++ merged (m :: l) := by
  induction xs generalizing last with
  | nil =>
    show mergeInto last (m :: l) = last :: merged (m :: l)
    rw [mergeInto, h, Bool.and_false, if_neg Bool.false_ne_true]
    rfl
  | cons x xs ih =>
    rw [List.cons_append, mergeInto, mergeInto, ih x, ih { last with content := _ }]
    split
    · split
      · rfl
      · rfl
    · rfl

theorem merged_split (h : m.isUser = false) (xs : List (Message β)) :
    merged (xs ++ m :: l) = merged xs ++ merged (m :: l) := by
  cases xs with
  | nil => rfl
  | cons x xs => exact mergeInto_append h x xs

theorem merged_eq_self (h : ∀ x ∈ l, x.isUser = false) : merged l = l := by
  induction l with
  | nil => rfl
  | cons x xs ih =>
    rw [merged, mergeInto_of_not_isUser (h x List.mem_cons_self),
      ih fun y hy => h y (List.mem_cons_of_mem x hy)]

theorem cleaned_append (messages fresh : List (Option (Message β))) :
    cleaned (messages ++ fresh) = cleaned messages ++ cleaned fresh := by
  simp only [cleaned, List.filterMap_append, List.filter_append, List.map_append]

/-- What comes behind the messages and begins with the assistant is sanitised for itself. -/
theorem sanitizeLlmMessages_append {fresh : List (Option (Message β))}
    (hclean : cleaned fresh = m :: l) (hassistant : m.isAssistant = true)
    (hplain : everyTail (fun m rest => !(isUnanswered m rest && hasBlocks m.content)) (m :: l) =
      true)
    (hfirst : ∀ x xs, repairedList (m :: l) = x :: xs → x.isUser = false)
    (messages : List (Option (Message β))) :
    sanitizeLlmMessages (messages ++ fresh) =
      (sanitizeLlmMessages messages).map fun out => out ++ merged (repairedList (m :: l)) := by
  have htool : m.isTool = false := by
    rw [Message.isTool, of_decide_eq_true hassistant]
    rfl
  unfold sanitizeLlmMessages
  rw [cleaned_append, hclean, repaired_eq, repaired_eq, everyTail_append htool, hplain,
    Bool.and_true, repairedList_append htool]
  split
  · cases hlist : repairedList (m :: l) with
    | nil =>
      simp only [List.append_nil]
      show Except.ok _ = Except.ok (_ ++ merged [])
      rw [merged, List.append_nil]
    | cons x xs =>
      show Except.ok _ = Except.ok (_ ++ merged (x :: xs))
      rw [merged_split (hfirst x xs hlist)]
  · rfl

/-! ## The answers that are kept -/

theorem toolBatch_eq_nil_iff (expected answeredIds : List String) (l : List (Message β)) :
    toolBatch expected answeredIds l = [] ↔
      ∀ t ∈ l, t.answeredId ∈ expected → t.answeredId ∈ answeredIds := by
  induction l with
  | nil => simp [toolBatch]
  | cons t l ih =>
    rw [toolBatch, List.forall_mem_cons]
    split
    · rename_i htaken
      constructor
      · intro h
        cases h
      · intro h
        exact absurd (h.1 htaken.1) htaken.2
    · rename_i hpassed
      rw [ih]
      constructor
      · intro h
        exact ⟨fun hexpected => by_contra fun hnew => hpassed ⟨hexpected, hnew⟩, h⟩
      · exact And.right

/-- The answers are to different ids, which are expected and were not answered before. -/
theorem nodup_toolBatch (expected answeredIds : List String) (l : List (Message β)) :
    ((toolBatch expected answeredIds l).map Message.answeredId).Nodup ∧
      ∀ t ∈ toolBatch expected answeredIds l,
        t.answeredId ∈ expected ∧ t.answeredId ∉ answeredIds := by
  induction l generalizing answeredIds with
  | nil => exact ⟨List.nodup_nil, fun _ h => absurd h List.not_mem_nil⟩
  | cons t l ih =>
    rw [toolBatch]
    split
    · rename_i htaken
      obtain ⟨hnodup, hmem⟩ := ih (t.answeredId :: answeredIds)
      refine ⟨List.nodup_cons.mpr ⟨?_, hnodup⟩, List.forall_mem_cons.mpr ⟨htaken, ?_⟩⟩
      · intro hagain
        obtain ⟨t', ht', hid⟩ := List.mem_map.mp hagain
        exact (hmem t' ht').2 (hid ▸ List.mem_cons_self)
      · intro t' ht'
        exact ⟨(hmem t' ht').1, fun hold => (hmem t' ht').2 (List.mem_cons_of_mem _ hold)⟩
    · exact ih answeredIds

theorem toolBatch_append {expected : List String} (xs ys : List (Message β))
    {answeredIds : List String} (hexpected : ∀ t ∈ xs, t.answeredId ∈ expected)
    (hnew : ∀ t ∈ xs, t.answeredId ∉ answeredIds) (hnodup : (xs.map Message.answeredId).Nodup) :
    toolBatch expected answeredIds (xs ++ ys) =
      xs ++ toolBatch expected ((xs.map Message.answeredId).reverse ++ answeredIds) ys := by
  induction xs generalizing answeredIds with
  | nil => rfl
  | cons t xs ih =>
    obtain ⟨hfirst, hrest⟩ := List.forall_mem_cons.mp hexpected
    obtain ⟨hnewFirst, hnewRest⟩ := List.forall_mem_cons.mp hnew
    obtain ⟨happart, hnodupRest⟩ := List.nodup_cons.mp hnodup
    rw [List.cons_append, toolBatch, if_pos ⟨hfirst, hnewFirst⟩, ih hrest ?_ hnodupRest,
      List.map_cons, List.reverse_cons, List.append_assoc, List.singleton_append,
      List.cons_append]
    intro t' ht' hmem
    cases List.mem_cons.mp hmem with
    | inl hsame => exact happart (hsame ▸ List.mem_map_of_mem ht')
    | inr hold => exact hnewRest t' ht' hold

/-- The id that a message answers, and its text. -/
def Message.answer (t : Message β) : String × String := (t.answeredId, contentText t.content)

/-- Those that are kept are the first messages in some order exactly where these answer expected ids
that differ, and the messages behind them answer no other. -/
theorem perm_toolBatch_iff (expected : List String) (xs ys : List (Message β)) :
    ((toolBatch expected [] (xs ++ ys)).map Message.answer).Perm (xs.map Message.answer) ↔
      (∀ t ∈ xs, t.answeredId ∈ expected) ∧ (xs.map Message.answeredId).Nodup ∧
        ∀ t ∈ ys, t.answeredId ∈ expected → t.answeredId ∈ xs.map Message.answeredId := by
  constructor
  · intro h
    have hids := h.map Prod.fst
    rw [List.map_map, List.map_map] at hids
    change ((toolBatch expected [] (xs ++ ys)).map Message.answeredId).Perm
      (xs.map Message.answeredId) at hids
    obtain ⟨hnodup, hmem⟩ := nodup_toolBatch expected [] (xs ++ ys)
    have hexpected : ∀ t ∈ xs, t.answeredId ∈ expected := by
      intro t ht
      obtain ⟨t', ht', hid⟩ := List.mem_map.mp (hids.mem_iff.mpr (List.mem_map_of_mem ht))
      exact hid ▸ (hmem t' ht').1
    have hxs := hids.nodup_iff.mp hnodup
    have happend := toolBatch_append xs ys hexpected
      (fun t _ => (List.not_mem_nil : t.answeredId ∉ [])) hxs
    have hlength := h.length_eq
    rw [happend, List.length_map, List.length_map, List.length_append] at hlength
    have hrest := List.eq_nil_of_length_eq_zero (Nat.left_eq_add.mp hlength.symm)
    rw [toolBatch_eq_nil_iff] at hrest
    refine ⟨hexpected, hxs, fun t ht hid => ?_⟩
    simpa using hrest t ht hid
  · rintro ⟨hexpected, hnodup, hrest⟩
    rw [toolBatch_append xs ys hexpected (fun _ _ => List.not_mem_nil) hnodup,
      (toolBatch_eq_nil_iff _ _ ys).mpr (fun t ht hid => by simpa using hrest t ht hid),
      List.append_nil]

end Pandamonium.LlmMessages

namespace Pandamonium.AgentLoop

open LlmMessages

variable {f : Feedback} {r : RoundRecord}

/-! ## The results of a round and what is sent of them -/

/-- The results go back on the structured channel. -/
def Feedback.isNative (f : Feedback) : Bool := f.usedNative && !f.calls.isEmpty

/-- The ids of the calls. -/
def Feedback.ids (f : Feedback) : List String :=
  f.calls.mapIdx fun j tc => callId f.roundNum j tc

/-- The results of the calls on the structured channel, each with the id of its call. -/
def RoundRecord.nativeResults (r : RoundRecord) (roundNum : ℕ) : List (String × String) :=
  (r.executed.mapIdx fun j e => e.call.map fun tc => (callId roundNum j tc, e.text)).reduceOption

/-- The results of what was executed beside those. -/
def RoundRecord.otherTexts (r : RoundRecord) : List String :=
  (r.executed.filter fun e => e.call.isNone).map Execution.text

/-- Each result of the round is there once: as the answer to its call, or in the user's message that
has the others; and no other call is answered. -/
structure Delivered (r : RoundRecord) (roundNum : ℕ) (sent : List Message) : Prop where
  native : ((sent.filter Message.isTool).map Message.answer).Perm (r.nativeResults roundNum)
  others : (sent.filter Message.isUser).map Message.content =
    if r.otherTexts.isEmpty then []
    else [(untrustedContextMessage (joined r.otherTexts)).content]

/-- What is sent behind the messages that were there before has the results of the round. -/
def Delivers (r : RoundRecord) (f : Feedback) : Prop :=
  ∃ sent, (∀ messages : List Message,
    sanitizeLlmMessages ((appendToolResults f messages).map some) =
      (sanitizeLlmMessages ((messages.map withoutReasoning).map some)).map fun out => out ++ sent) ∧
    Delivered r f.roundNum sent

/-- If the results go back on the structured channel, then all that was executed are calls of it,
with ids that differ and are not empty, and each call that was not executed has no id or one of
these. -/
def Answerable (r : RoundRecord) (f : Feedback) : Prop :=
  f.isNative = true →
    (∀ e ∈ r.executed, e.call.isSome = true) ∧
      (f.ids.take r.executed.length).Nodup ∧ "" ∉ f.ids.take r.executed.length ∧
        ∀ id ∈ f.ids.drop r.executed.length, id = "" ∨ id ∈ f.ids.take r.executed.length

instance : Decidable (Answerable r f) :=
  inferInstanceAs (Decidable (f.isNative = true → _ ∧ _ ∧ _ ∧ ∀ id ∈ _, _ ∨ _))

/-- The results of the round are those that are fed back. -/
structure Fed (r : RoundRecord) (f : Feedback) : Prop where
  nonempty : r.executed ≠ []
  texts : f.texts = r.executed.map Execution.text
  calls : f.isNative = true → (∀ e ∈ r.executed, e.call.isSome = true) →
    r.executed.map Execution.call = (f.calls.take r.executed.length).map some
  others : f.isNative = false → ∀ e ∈ r.executed, e.call = none

/-! ## As tool messages -/

theorem map_mapIdx {α γ δ : Type} (g : γ → δ) (h : ℕ → α → γ) (l : List α) :
    (l.mapIdx h).map g = l.mapIdx fun j a => g (h j a) := by
  apply List.ext_getElem?
  intro j
  simp [Option.map_map, Function.comp_def]

theorem cleaned_map_some {l : List Message} (h : ∀ m ∈ l, m.isKept = true) :
    cleaned (l.map some) =
      l.map fun m => { m with extras := m.extras.filter fun extra => decide (extra.1 ∈ allowed) } := by
  rw [cleaned, List.filterMap_map, Function.id_comp, List.filterMap_some,
    List.filter_eq_self.mpr h]

theorem filter_reasoningExtras (reasoning : String) :
    (reasoningExtras reasoning).filter (fun extra => decide (extra.1 ∈ allowed)) =
      reasoningExtras reasoning := by
  unfold reasoningExtras
  split
  · rfl
  · simp [allowed]

/-- The answers as they are sent. -/
def sentResults (f : Feedback) : List Message :=
  f.calls.mapIdx fun j tc =>
    { resultMessage (callId f.roundNum j tc) tc.name (f.texts.getD j "") with extras := [] }

theorem callsTools_callMessage (h : f.isNative = true) : (callMessage f).callsTools = true := by
  have hcalls := (Bool.and_eq_true_iff.mp h).2
  simpa [Message.callsTools, callMessage, Message.isAssistant] using hcalls

theorem isKept_callMessage (h : f.isNative = true) : (callMessage f).isKept = true := by
  have hcalls : (callMessage f).toolCalls.isEmpty = false := by
    simpa using (Bool.and_eq_true_iff.mp (callsTools_callMessage h)).2
  unfold Message.isKept
  rw [hcalls, Bool.not_false, Bool.or_true]
  rfl

theorem cleaned_native (h : f.isNative = true) :
    cleaned ((feedbackMessages f).map some) = callMessage f :: sentResults f := by
  have hmessages : feedbackMessages f = callMessage f :: f.calls.mapIdx fun j tc =>
      resultMessage (callId f.roundNum j tc) tc.name (f.texts.getD j "") := if_pos h
  rw [hmessages, cleaned_map_some]
  · rw [List.map_cons, map_mapIdx]
    congr 1
    have hextras : (callMessage f).extras = reasoningExtras f.reasoning := rfl
    rw [hextras, filter_reasoningExtras]
    rfl
  · refine List.forall_mem_cons.mpr ⟨isKept_callMessage h, fun m hm => ?_⟩
    obtain ⟨j, hj, hmj⟩ := List.mem_mapIdx.mp hm
    rw [← hmj]
    rfl

theorem isTool_of_mem_sentResults {m : Message} (h : m ∈ sentResults f) : m.isTool = true := by
  obtain ⟨j, hj, hm⟩ := List.mem_mapIdx.mp h
  rw [← hm]
  rfl

theorem answers_callMessage (f : Feedback) :
    (callMessage f).answers (sentResults f) =
      toolBatch (callMessage f).callIds [] (sentResults f) := by
  rw [Message.answers, List.takeWhile_eq_self_iff.mpr fun m hm => isTool_of_mem_sentResults hm]

theorem repairedList_of_tools {l : List Message} (h : ∀ m ∈ l, m.isTool = true) :
    repairedList l = [] := by
  induction l with
  | nil => rfl
  | cons m l ih =>
    rw [repairedList, if_pos (h m List.mem_cons_self)]
    exact ih fun m' hm' => h m' (List.mem_cons_of_mem m hm')

/-- The answers that are sent, and what is sent with them. -/
theorem repairedList_native (h : f.isNative = true) :
    ∃ first : List Message, (∀ m ∈ first, m.isAssistant = true) ∧
      repairedList (callMessage f :: sentResults f) =
        first ++ toolBatch (callMessage f).callIds [] (sentResults f) := by
  have htool := callsTools_not_isTool (callsTools_callMessage h)
  rw [repairedList_cons htool, repairedList_of_tools (fun m hm => isTool_of_mem_sentResults hm),
    List.append_nil, repairedUnit, if_pos (callsTools_callMessage h), answers_callMessage]
  cases hanswers : toolBatch (callMessage f).callIds [] (sentResults f) with
  | nil =>
    rw [List.isEmpty_nil, if_pos rfl]
    split
    · exact ⟨[], fun _ hm => absurd hm List.not_mem_nil, rfl⟩
    · refine ⟨[{ callMessage f with toolCalls := [] }], fun m hm => ?_, by rw [List.append_nil]⟩
      rw [List.mem_singleton.mp hm]
      rfl
  | cons t batch =>
    rw [List.isEmpty_cons, if_neg Bool.false_ne_true]
    refine ⟨[(callMessage f).pruned (t :: batch)], fun m hm => ?_, rfl⟩
    rw [List.mem_singleton.mp hm]
    rfl

theorem hasBlocks_callMessage (f : Feedback) : hasBlocks (callMessage f).content = false := by
  unfold callMessage
  split
  · rfl
  · rfl

theorem everyTail_of_tools {l : List Message} (h : ∀ m ∈ l, m.isTool = true) :
    everyTail (fun m rest => !(isUnanswered m rest && hasBlocks m.content)) l = true := by
  induction l with
  | nil => rfl
  | cons m l ih =>
    rw [everyTail, isUnanswered, isTool_not_callsTools (h m List.mem_cons_self),
      ih fun m' hm' => h m' (List.mem_cons_of_mem m hm')]
    rfl

/-- What is sent of results on the structured channel. -/
theorem sent_native (h : f.isNative = true) :
    ∃ first : List Message, (∀ m ∈ first, m.isAssistant = true) ∧ ∀ messages : List Message,
      sanitizeLlmMessages ((appendToolResults f messages).map some) =
        (sanitizeLlmMessages ((messages.map withoutReasoning).map some)).map fun out =>
          out ++ (first ++ toolBatch (callMessage f).callIds [] (sentResults f)) := by
  obtain ⟨first, hfirst, hrepaired⟩ := repairedList_native h
  have hnotUser : ∀ m ∈ first ++ toolBatch (callMessage f).callIds [] (sentResults f),
      m.isUser = false := by
    intro m hm
    cases List.mem_append.mp hm with
    | inl hmem => exact isAssistant_not_isUser (hfirst m hmem)
    | inr hmem => exact isTool_not_isUser (isTool_of_mem_sentResults (mem_toolBatch hmem).1)
  refine ⟨first, hfirst, fun messages => ?_⟩
  rw [appendToolResults, List.map_append,
    sanitizeLlmMessages_append (cleaned_native h)
      (isAssistant_of_callsTools (callsTools_callMessage h)), hrepaired, merged_eq_self hnotUser]
  · rw [everyTail, hasBlocks_callMessage, Bool.and_false, Bool.not_false, Bool.true_and]
    exact everyTail_of_tools fun m hm => isTool_of_mem_sentResults hm
  · intro x xs hlist
    rw [hrepaired] at hlist
    exact hnotUser x (hlist ▸ List.mem_cons_self)

/-! ## As a message of the user -/

/-- The message of the assistant, without calls. -/
def plainMessage (f : Feedback) : Message where
  role := "assistant"
  content := some (.text f.response)
  toolCalls := []
  toolCallId := none
  extras := reasoningExtras f.reasoning

/-- What is sent of results that are not on the structured channel. -/
theorem sent_textual (h : f.isNative = false) (messages : List Message) :
    sanitizeLlmMessages ((appendToolResults f messages).map some) =
      (sanitizeLlmMessages ((messages.map withoutReasoning).map some)).map fun out =>
        out ++ [plainMessage f, { untrustedContextMessage (joined f.texts) with extras := [] }] := by
  have hmessages : feedbackMessages f =
      [plainMessage f, untrustedContextMessage (joined f.texts)] :=
    if_neg (by rw [show (f.usedNative && !f.calls.isEmpty) = false from h]; exact Bool.noConfusion)
  have hclean : cleaned ((feedbackMessages f).map some) =
      [plainMessage f, { untrustedContextMessage (joined f.texts) with extras := [] }] := by
    rw [hmessages, cleaned_map_some]
    · have hextras : (plainMessage f).extras = reasoningExtras f.reasoning := rfl
      rw [List.map_cons, hextras, filter_reasoningExtras]
      rfl
    · intro m hm
      cases List.mem_cons.mp hm with
      | inl hfirst =>
        rw [hfirst]
        rfl
      | inr hlast =>
        rw [List.mem_singleton.mp hlast]
        rfl
  have hrepaired : repairedList
      [plainMessage f, { untrustedContextMessage (joined f.texts) with extras := [] }] =
        [plainMessage f, { untrustedContextMessage (joined f.texts) with extras := [] }] := rfl
  rw [appendToolResults, List.map_append, sanitizeLlmMessages_append hclean rfl rfl ?_, hrepaired,
    merged, mergeInto_of_not_isUser rfl]
  · rfl
  · intro x xs hlist
    rw [hrepaired] at hlist
    cases hlist
    rfl

/-! ## When the results are delivered -/

theorem mem_callIds_iff {id : String} :
    id ∈ (callMessage f).callIds ↔ id ≠ "" ∧ id ∈ f.ids := by
  constructor
  · intro h
    obtain ⟨hne, call, hcall, hid⟩ := mem_callIds h
    refine ⟨hne, ?_⟩
    obtain ⟨j, hj, heq⟩ := List.mem_mapIdx.mp hcall
    refine List.mem_mapIdx.mpr ⟨j, hj, ?_⟩
    cases heq
    exact Option.some.inj hid
  · rintro ⟨hne, hid⟩
    obtain ⟨j, hj, heq⟩ := List.mem_mapIdx.mp hid
    refine List.mem_filterMap.mpr ⟨_, List.mem_mapIdx.mpr ⟨j, hj, rfl⟩, ?_⟩
    show (some (callId f.roundNum j f.calls[j])).filter (fun id => decide (id ≠ "")) = some id
    rw [heq, Option.filter_some, if_pos (decide_eq_true hne)]

theorem answeredId_sentResults (f : Feedback) :
    (sentResults f).map Message.answeredId = f.ids := map_mapIdx _ _ _

theorem answer_sentResults (f : Feedback) :
    (sentResults f).map Message.answer =
      f.calls.mapIdx fun j tc => (callId f.roundNum j tc, f.texts.getD j "") := map_mapIdx _ _ _

/-- The first answers are those to what was executed. -/
theorem nativeResults_eq (h : Fed r f) (hnative : f.isNative = true)
    (hall : ∀ e ∈ r.executed, e.call.isSome = true) :
    r.nativeResults f.roundNum =
      ((sentResults f).take r.executed.length).map Message.answer := by
  have hcalls := h.calls hnative hall
  have hsome : (r.executed.mapIdx fun j e =>
      e.call.map fun tc => (callId f.roundNum j tc, e.text)) =
        (((sentResults f).take r.executed.length).map Message.answer).map some := by
    rw [List.map_take, answer_sentResults]
    apply List.ext_getElem?
    intro j
    have hj := congrArg (fun l => l[j]?) hcalls
    simp only [List.getElem?_map] at hj
    rw [List.getElem?_mapIdx, List.getElem?_map]
    cases he : r.executed[j]? with
    | none =>
      rw [List.getElem?_eq_none_iff] at he
      rw [List.getElem?_take_eq_none he]
      rfl
    | some e =>
      obtain ⟨hlt, _⟩ := List.getElem?_eq_some_iff.mp he
      have htext : f.texts.getD j "" = e.text := by
        rw [h.texts, List.getD_eq_getElem?_getD, List.getElem?_map, he]
        rfl
      rw [he, List.getElem?_take_of_lt hlt] at hj
      rw [List.getElem?_take_of_lt hlt, List.getElem?_mapIdx, htext]
      cases hcall : f.calls[j]? with
      | none =>
        rw [hcall] at hj
        cases hj
      | some tc =>
        rw [hcall] at hj
        simp only [Option.map_some, Option.some.injEq] at hj ⊢
        rw [hj]
        rfl
  rw [RoundRecord.nativeResults, hsome]
  show List.filterMap id _ = _
  rw [List.filterMap_map]
  exact List.filterMap_some

theorem otherTexts_isEmpty_iff :
    r.otherTexts.isEmpty = true ↔ ∀ e ∈ r.executed, e.call.isSome = true := by
  simp [RoundRecord.otherTexts, Option.isSome_iff_ne_none]

/-- What is sent does not depend on the messages before, so it is the only thing to look at. -/
theorem delivers_iff_delivered {out : List Message}
    (h : ∀ messages : List Message, sanitizeLlmMessages ((appendToolResults f messages).map some) =
      (sanitizeLlmMessages ((messages.map withoutReasoning).map some)).map fun before =>
        before ++ out) :
    Delivers r f ↔ Delivered r f.roundNum out := by
  constructor
  · rintro ⟨sent, hsent, hdelivered⟩
    have hsame : (Except.ok ([] ++ sent) : Except PyError (List Message)) = .ok ([] ++ out) :=
      (hsent []).symm.trans (h [])
    rw [Except.ok.injEq, List.nil_append, List.nil_append] at hsame
    exact hsame ▸ hdelivered
  · intro hdelivered
    exact ⟨out, h, hdelivered⟩

theorem filter_isTool_sent {first batch : List Message} (hfirst : ∀ m ∈ first, m.isAssistant = true)
    (hbatch : ∀ m ∈ batch, m.isTool = true) : (first ++ batch).filter Message.isTool = batch := by
  have hnone : first.filter Message.isTool = [] := by
    refine List.filter_eq_nil_iff.mpr fun m hm => ?_
    rw [Message.isTool, of_decide_eq_true (hfirst m hm)]
    exact Bool.noConfusion
  rw [List.filter_append, hnone, List.nil_append, List.filter_eq_self.mpr hbatch]

theorem filter_isUser_sent {first batch : List Message} (hfirst : ∀ m ∈ first, m.isAssistant = true)
    (hbatch : ∀ m ∈ batch, m.isTool = true) : (first ++ batch).filter Message.isUser = [] := by
  refine List.filter_eq_nil_iff.mpr fun m hm => ?_
  rw [Bool.not_eq_true]
  cases List.mem_append.mp hm with
  | inl hmem => exact isAssistant_not_isUser (hfirst m hmem)
  | inr hmem => exact isTool_not_isUser (hbatch m hmem)

/-- On the structured channel the ids have to tell the calls apart. -/
theorem answers_native (n : ℕ) :
    ((toolBatch (callMessage f).callIds [] (sentResults f)).map Message.answer).Perm
        (((sentResults f).take n).map Message.answer) ↔
      (f.ids.take n).Nodup ∧ "" ∉ f.ids.take n ∧
        ∀ id ∈ f.ids.drop n, id = "" ∨ id ∈ f.ids.take n := by
  have htake : ((sentResults f).take n).map Message.answeredId = f.ids.take n := by
    rw [List.map_take, answeredId_sentResults]
  have hdrop : ((sentResults f).drop n).map Message.answeredId = f.ids.drop n := by
    rw [List.map_drop, answeredId_sentResults]
  have hperm := perm_toolBatch_iff (callMessage f).callIds ((sentResults f).take n)
    ((sentResults f).drop n)
  rw [List.take_append_drop, htake] at hperm
  rw [hperm]
  have hexpected : (∀ t ∈ (sentResults f).take n, t.answeredId ∈ (callMessage f).callIds) ↔
      "" ∉ f.ids.take n := by
    rw [← htake, List.mem_map]
    constructor
    · rintro h ⟨t, ht, hid⟩
      exact (mem_callIds_iff.mp (h t ht)).1 hid
    · intro h t ht
      refine mem_callIds_iff.mpr ⟨fun hid => h ⟨t, ht, hid⟩, ?_⟩
      exact answeredId_sentResults f ▸ List.mem_map_of_mem (List.mem_of_mem_take ht)
  have hrest : (∀ t ∈ (sentResults f).drop n, t.answeredId ∈ (callMessage f).callIds →
      t.answeredId ∈ f.ids.take n) ↔
        ∀ id ∈ f.ids.drop n, id = "" ∨ id ∈ f.ids.take n := by
    rw [← hdrop, List.forall_mem_map]
    refine forall₂_congr fun t ht => ?_
    have hmem : t.answeredId ∈ f.ids :=
      answeredId_sentResults f ▸ List.mem_map_of_mem (List.mem_of_mem_drop ht)
    rw [mem_callIds_iff]
    constructor
    · intro h
      by_cases hid : t.answeredId = ""
      · exact .inl hid
      · exact .inr (h ⟨hid, hmem⟩)
    · rintro h ⟨hne, _⟩
      exact h.resolve_left hne
  rw [hexpected, hrest]
  exact ⟨fun ⟨h, h', h''⟩ => ⟨h', h, h''⟩, fun ⟨h, h', h''⟩ => ⟨h', h, h''⟩⟩

theorem delivers_native (h : Fed r f) (hnative : f.isNative = true) :
    Delivers r f ↔ Answerable r f := by
  obtain ⟨first, hfirst, hsent⟩ := sent_native hnative
  have hbatch : ∀ m ∈ toolBatch (callMessage f).callIds [] (sentResults f), m.isTool = true :=
    fun m hm => isTool_of_mem_sentResults (mem_toolBatch hm).1
  have hanswerable : Answerable r f ↔ _ := ⟨fun hall => hall hnative, fun hall _ => hall⟩
  rw [delivers_iff_delivered hsent, hanswerable, ← answers_native]
  constructor
  · rintro ⟨hanswers, hothers⟩
    rw [filter_isUser_sent hfirst hbatch] at hothers
    rw [filter_isTool_sent hfirst hbatch] at hanswers
    have hall : ∀ e ∈ r.executed, e.call.isSome = true := by
      rw [← otherTexts_isEmpty_iff]
      by_contra hsome
      rw [if_neg hsome] at hothers
      cases hothers
    rw [nativeResults_eq h hnative hall] at hanswers
    exact ⟨hall, hanswers⟩
  · rintro ⟨hall, hanswers⟩
    constructor
    · rw [filter_isTool_sent hfirst hbatch, nativeResults_eq h hnative hall]
      exact hanswers
    · rw [filter_isUser_sent hfirst hbatch, if_pos (otherTexts_isEmpty_iff.mpr hall)]
      rfl

/-- As a message of the user, the results are always delivered. -/
theorem delivers_textual (h : Fed r f) (hnative : f.isNative = false) : Delivers r f := by
  rw [delivers_iff_delivered (sent_textual hnative)]
  have hnone := h.others hnative
  have htexts : r.otherTexts = f.texts := by
    rw [RoundRecord.otherTexts, h.texts, List.filter_eq_self.mpr]
    intro e he
    rw [hnone e he]
    rfl
  constructor
  · have hresults : r.nativeResults f.roundNum = [] := by
      rw [RoundRecord.nativeResults]
      refine List.filterMap_eq_nil_iff.mpr fun answer hanswer => ?_
      obtain ⟨j, hj, heq⟩ := List.mem_mapIdx.mp hanswer
      rw [← heq, hnone _ (List.getElem_mem hj)]
      rfl
    rw [hresults]
    exact .nil
  · have hne : r.otherTexts.isEmpty = false := by
      rw [htexts, h.texts]
      simpa using h.nonempty
    rw [hne, if_neg Bool.false_ne_true, htexts]
    rfl

/-- The results of a round are delivered exactly where the ids tell the calls apart. -/
theorem delivers_iff_of_fed (h : Fed r f) : Delivers r f ↔ Answerable r f := by
  cases hnative : f.isNative with
  | true => exact delivers_native h hnative
  | false =>
    refine ⟨fun _ hcontra => ?_, fun _ => delivers_textual h hnative⟩
    rw [hnative] at hcontra
    cases hcontra

/-! ## What a round feeds back -/

section Rounds

variable {turn : Turn} {s s' b : LoopState} {input : RoundInput} {batch : Batch} {run : BatchRun}

/-- What was executed is the beginning of the blocks. -/
theorem prefix_executeBlocks (outcome : ℕ → Outcome)
    (blocks : List (ToolBlock × Option NativeCall)) (i : ℕ) (b : LoopState) :
    ((executeBlocks turn outcome i b blocks).executed.map Execution.call).IsPrefix
      (blocks.map Prod.snd) := by
  induction blocks generalizing i b with
  | nil => exact List.nil_prefix
  | cons pair rest ih =>
    obtain ⟨block, call⟩ := pair
    unfold executeBlocks
    split
    · exact List.nil_prefix
    dsimp only
    split
    · exact List.cons_prefix_cons.mpr ⟨rfl, List.nil_prefix⟩
    · exact List.cons_prefix_cons.mpr ⟨rfl, ih (i + 1) _⟩

/-- Something was executed, unless the budget was spent. -/
theorem executed_ne_nil (outcome : ℕ → Outcome) {blocks : List (ToolBlock × Option NativeCall)}
    (hne : blocks ≠ []) (i : ℕ) (b : LoopState)
    (hbudget : (executeBlocks turn outcome i b blocks).budgetHit = false ∨
      (executeBlocks turn outcome i b blocks).retryable = true) :
    (executeBlocks turn outcome i b blocks).executed ≠ [] := by
  cases blocks with
  | nil => exact absurd rfl hne
  | cons pair rest =>
    obtain ⟨block, call⟩ := pair
    unfold executeBlocks at hbudget ⊢
    split
    · rename_i hspent
      rw [if_pos hspent] at hbudget
      cases hbudget with
      | inl h => cases h
      | inr h => cases h
    dsimp only
    split
    · exact List.cons_ne_nil _ _
    · exact List.cons_ne_nil _ _

theorem keptCalls_nil (keep : ToolBlock → Bool) (blocks : List ToolBlock) :
    keptCalls keep blocks [] = [] := by
  cases blocks with
  | nil => rfl
  | cons block blocks => rfl

/-- Calls are converted on the structured channel alone. -/
def Batch.Converts (batch : Batch) : Prop := batch.usedNative = false → batch.convertedCalls = []

theorem converts_resolveToolBlocks (extraToolNames : List String) (response : String)
    (nativeToolCalls : List NativeCall) :
    (resolveToolBlocks turn extraToolNames response nativeToolCalls).Converts := by
  unfold resolveToolBlocks
  dsimp only
  split
  · exact fun _ => rfl
  · intro hnative
    cases hnative

theorem converts_keepFirstCreate (h : batch.Converts) : (keepFirstCreate batch).Converts := by
  unfold keepFirstCreate
  split
  · exact fun _ => rfl
  · intro hnative
    simp [h hnative]

theorem converts_dropMemoryLookups (h : batch.Converts) :
    (dropMemoryLookups turn batch).Converts := by
  unfold dropMemoryLookups
  split
  · exact h
  · intro hnative
    simp only [h hnative, keptCalls_nil]

theorem converts_resolvedBatch (extraToolNames : List String) (reply : Reply) :
    (resolvedBatch turn extraToolNames reply).Converts := by
  unfold resolvedBatch
  dsimp only
  generalize (if turn.odyDocFinetuneMode = true then _ else reply.response) = response
  have hresolve := @converts_resolveToolBlocks turn extraToolNames response
    reply.nativeToolCalls
  split
  · exact converts_keepFirstCreate hresolve
  · exact hresolve

theorem converts_replyBatch (extraToolNames : List String) (reply : Reply) :
    (replyBatch turn extraToolNames reply).Converts := by
  have hresolved := @converts_resolvedBatch turn extraToolNames reply
  unfold replyBatch
  dsimp only
  split
  · exact converts_dropMemoryLookups hresolved
  · exact hresolved

/-- Of a call that is executed, the position among the blocks is that among the calls. -/
theorem call_of_executed {force : Bool} {blocks : List ToolBlock}
    (hstart : (run.executed.map Execution.call).IsPrefix
      ((withCalls force blocks batch).map Prod.snd)) {j : ℕ} {e : Execution}
    (he : run.executed[j]? = some e) :
    e.call = (if force then [] else batch.convertedCalls)[j]? := by
  obtain ⟨rest, happend⟩ := hstart
  have hlt : j < (run.executed.map Execution.call).length := by
    rw [List.length_map]
    exact (List.getElem?_eq_some_iff.mp he).1
  have hat := List.ext_getElem?_iff.mp happend j
  rw [List.getElem?_append_left hlt, List.getElem?_map, he, withCalls, map_mapIdx,
    List.getElem?_mapIdx] at hat
  cases hblock : blocks[j]? with
  | none =>
    rw [hblock] at hat
    cases hat
  | some block =>
    rw [hblock] at hat
    exact Option.some.inj hat

theorem fed_feedback {reply : Reply} {force : Bool} {blocks : List ToolBlock} {asked : Bool}
    (hstart : (run.executed.map Execution.call).IsPrefix
      ((withCalls force blocks batch).map Prod.snd))
    (hne : run.executed ≠ []) (hnative : batch.Converts) :
    Fed ⟨asked, force, run.executed, some (feedback batch reply run b)⟩
      (feedback batch reply run b) where
  nonempty := hne
  texts := rfl
  calls := by
    intro _ hall
    have htake : (feedback batch reply run b).calls.take run.executed.length =
        batch.convertedCalls.take run.executed.length := by
      unfold feedback
      dsimp only
      split
      · rw [List.take_take, Nat.min_self]
      · rfl
    show run.executed.map Execution.call = _
    rw [htake]
    apply List.ext_getElem?
    intro j
    rw [List.getElem?_map, List.getElem?_map]
    cases he : run.executed[j]? with
    | none =>
      rw [List.getElem?_take_eq_none (List.getElem?_eq_none_iff.mp he)]
      rfl
    | some e =>
      obtain ⟨hlt, _⟩ := List.getElem?_eq_some_iff.mp he
      have hcall := call_of_executed hstart he
      have hsome := hall e (List.mem_of_getElem? he)
      rw [List.getElem?_take_of_lt hlt]
      cases force with
      | true =>
        rw [if_pos rfl, List.getElem?_nil] at hcall
        rw [hcall] at hsome
        cases hsome
      | false =>
        rw [if_neg Bool.false_ne_true] at hcall
        rw [← hcall, Option.map_some]
        cases hec : e.call with
        | none =>
          rw [hec] at hsome
          cases hsome
        | some tc => rfl
  others := by
    intro hnot e he
    have hcalls : batch.convertedCalls = [] := by
      cases hused : batch.usedNative with
      | false => exact hnative hused
      | true =>
        have hempty : (feedback batch reply run b).calls = [] := by
          have hnone : (batch.usedNative && !(feedback batch reply run b).calls.isEmpty) = false :=
            hnot
          rw [hused, Bool.true_and, Bool.not_eq_false'] at hnone
          exact List.isEmpty_iff.mp hnone
        unfold feedback at hempty
        dsimp only at hempty
        split at hempty
        · cases List.take_eq_nil_iff.mp hempty with
          | inl hzero => exact absurd (List.eq_nil_of_length_eq_zero hzero) hne
          | inr hnone => exact hnone
        · exact hempty
    obtain ⟨j, hj⟩ := List.mem_iff_getElem?.mp he
    rw [call_of_executed hstart hj, hcalls, ite_self, List.getElem?_nil]

theorem record_of_noted {asked forced : Bool} {executed : List Execution}
    {fedBack : Option Feedback} {rounds : List RoundRecord} (hrounds : s.rounds = rounds)
    (h : (s.noted asked forced executed fedBack).rounds = rounds ++ [r]) :
    r = ⟨asked, forced, executed, fedBack⟩ := by
  rw [LoopState.noted, hrounds] at h
  exact (List.singleton_inj.mp (List.append_cancel_left h)).symm

theorem rounds_afterFeedback (resumed : Bool) (s : LoopState) :
    (afterFeedback turn resumed s).rounds = s.rounds := by
  unfold afterFeedback
  dsimp only
  split
  · split
    · rfl
    · rfl
  · split
    · rfl
    · rfl

/-- The blocks of a round were executed, and their results are fed back. -/
theorem fed_withTools {resumed : Bool} {reply : Reply} {outcome : ℕ → Outcome}
    {blocks : List ToolBlock} (hne : blocks ≠ []) (hconverts : batch.Converts)
    (hr : (withTools turn resumed batch reply outcome blocks b).rounds = b.rounds ++ [r])
    (hf : r.fedBack = some f) : Fed r f := by
  have hpairs : withCalls b.forceAnswer blocks batch ≠ [] := by
    unfold withCalls
    simpa using hne
  have hstart := @prefix_executeBlocks turn outcome
    (withCalls b.forceAnswer blocks batch) 0 b
  have hsome := @executed_ne_nil turn outcome _ hpairs 0 b
  have hrounds := (@executes_executeBlocks turn outcome
    (withCalls b.forceAnswer blocks batch) 0 b).same.rounds
  unfold withTools at hr
  generalize executeBlocks turn outcome 0 b (withCalls b.forceAnswer blocks batch) = run at *
  dsimp only at hr
  have hfed : ∀ asked : Bool, run.executed ≠ [] →
      r = ⟨asked, b.forceAnswer, run.executed, some (feedback batch reply run b)⟩ → Fed r f := by
    intro asked hexecuted hrecord
    rw [hrecord] at hf
    obtain rfl := Option.some.inj hf
    exact hrecord ▸ fed_feedback hstart hexecuted hconverts
  split at hr
  · rename_i hretry
    exact hfed _ (hsome (.inr hretry)) (record_of_noted hrounds hr)
  split at hr
  · rw [record_of_noted hrounds hr] at hf
    cases hf
  · rename_i hgoes
    have hbudget : run.budgetHit = false := by
      cases hspent : run.budgetHit with
      | false => rfl
      | true =>
        refine absurd ?_ hgoes
        rw [endsAfterCalls, hspent, Bool.or_true]
        rfl
    exact hfed _ (hsome (.inl hbudget))
      (record_of_noted ((rounds_afterFeedback resumed run.state).trans hrounds) hr)

/-- What a round feeds back are the results of what it has executed. -/
theorem fed_afterReply {resumed : Bool} {reply : Reply}
    (hr : (afterReply turn resumed reply input b).rounds = b.rounds ++ [r])
    (hf : r.fedBack = some f) : Fed r f := by
  unfold afterReply at hr
  dsimp only at hr
  have hconverts := @converts_replyBatch turn input.extraToolNames reply
  generalize replyBatch turn input.extraToolNames reply = batch at hr hconverts
  split at hr
  · rw [record_of_noted rfl hr] at hf
    cases hf
  generalize hblocks : executedBlocks turn b.forceAnswer reply.response batch = blocks at hr
  split at hr
  · rw [record_of_noted (@changes_withoutTools turn _ _ b).rounds hr] at hf
    cases hf
  rename_i hne
  split at hr
  · rw [record_of_noted rfl hr] at hf
    cases hf
  · exact fed_withTools (fun hnil => hne (List.isEmpty_iff.mpr hnil)) hconverts hr hf

theorem fed_round (h : round turn s input = some s') (hr : s'.rounds = s.rounds ++ [r])
    (hf : r.fedBack = some f) : Fed r f := by
  unfold round at h
  split at h
  · cases h
  cases hbegin : beginRound turn s with
  | none =>
    simp only [hbegin, Option.some.injEq] at h
    subst h
    have hlength := congrArg List.length hr
    simp at hlength
  | some begun =>
    obtain ⟨resumed, b⟩ := begun
    simp only [hbegin, Option.some.injEq] at h
    have hrounds : b.rounds = s.rounds := by
      obtain ⟨_, _, hb⟩ | ⟨_, _, _, hb⟩ | ⟨_, _, _, _, hb⟩ := beginRound_cases hbegin
      · rw [hb]
      · rw [hb]
      · rw [hb]
    rw [← h, ← hrounds] at hr
    exact fed_afterReply hr hf

/-- Where a round feeds its results back, what is sent to the model has each result once, under the
id of its call, and no other answer, exactly where the results go to the user's message or the ids
tell the calls apart that were executed, and only them. -/
theorem delivers_iff (h : round turn s input = some s') (hr : s'.rounds = s.rounds ++ [r])
    (hf : r.fedBack = some f) : Delivers r f ↔ Answerable r f :=
  delivers_iff_of_fed (fed_round h hr hf)

end Rounds

/-! ## Two rounds -/

/-- Two calls in one reply, and both are executed. -/
theorem delivers_weatherCalls : ∃ s' r f,
    round weatherTurn (.begin weatherTurn)
      (weatherRound "" [weatherCall, ⟨some "c2", "weather", "", none⟩]) = some s' ∧
    s'.rounds = [r] ∧ r.fedBack = some f ∧ r.executed.map Execution.text = ["sunny", "sunny"] ∧
      Delivers r f := by
  have hseen : (round weatherTurn (.begin weatherTurn)
      (weatherRound "" [weatherCall, ⟨some "c2", "weather", "", none⟩])).map LoopState.rounds =
        some [⟨true, false,
          [⟨some weatherCall, true, "sunny"⟩,
            ⟨some ⟨some "c2", "weather", "", none⟩, true, "sunny"⟩],
          some ⟨"", "", [weatherCall, ⟨some "c2", "weather", "", none⟩], ["sunny", "sunny"],
            true, 1⟩⟩] := by decide +kernel
  obtain ⟨s', hs', hrounds⟩ := Option.map_eq_some_iff.mp hseen
  exact ⟨s', _, _, hs', hrounds, rfl, rfl, (delivers_iff hs' hrounds rfl).mpr (by decide +kernel)⟩

/-- A call, and a long code block that is made into a document. -/
theorem not_delivers_document : ∃ input s' r f,
    round weatherTurn (.begin weatherTurn) input = some s' ∧ s'.rounds = [r] ∧
      r.fedBack = some f ∧ ¬ Delivers r f := by
  let block := "```\n" ++ String.join (List.replicate 31 "x\n") ++ "```"
  have hseen : (round weatherTurn (.begin weatherTurn) (weatherRound block [weatherCall])).map
      LoopState.rounds =
        some [⟨true, false, [⟨some weatherCall, true, "sunny"⟩, ⟨none, true, "sunny"⟩],
          some ⟨block, "", [weatherCall], ["sunny", "sunny"], true, 1⟩⟩] := by decide +kernel
  obtain ⟨s', hs', hrounds⟩ := Option.map_eq_some_iff.mp hseen
  refine ⟨_, s', _, _, hs', hrounds, rfl, fun hdelivers => ?_⟩
  have hanswerable := (delivers_iff_of_fed (fed_round hs' hrounds rfl)).mp hdelivers
  have hcall := (hanswerable rfl).1 ⟨none, true, "sunny"⟩
    (List.mem_cons_of_mem _ List.mem_cons_self)
  cases hcall

end Pandamonium.AgentLoop
