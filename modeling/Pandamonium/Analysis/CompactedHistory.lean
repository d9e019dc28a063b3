import Mathlib.Data.List.Nodup
import Pandamonium.Model.ContextCompactor

/-!
# The history behind a compacted conversation

The half that is summarised is taken from the assembled list, and the history is cut by its length
and by the number of system messages in that list.  Nothing is lost and nothing is kept twice
exactly where what is summarised stands in the history right behind as many messages.
-/

set_option autoImplicit false

namespace Pandamonium.ContextCompactor

/-- The message of the history is part of what is summarised. -/
def summarised (messages : List Assembled) (h : HistoryMessage) : Bool :=
  some h.ref ∈ (older messages).map Assembled.copyOf

/-- The messages of the history that are not summarised. -/
def unsummarised (messages : List Assembled) (history : History) : List HistoryMessage :=
  history.messages.filter fun h => !summarised messages h

/-- The message that stands for what is summarised. -/
def historySummary (summary : String) (ref : ℕ) : HistoryMessage :=
  ⟨ref, "system", "[Conversation summary]\n" ++ summary⟩

/-- The history is the summary and behind it what is not summarised. -/
def SummaryFirst (messages : List Assembled) (history : History) (summary : String) (ref : ℕ)
    (result : Compaction) : Prop :=
  result.history = historySummary summary ref :: unsummarised messages history

/-- The history is what is not summarised, in order, with the summary at some place. -/
def LosesNothing (messages : List Assembled) (history : History) (summary : String) (ref : ℕ)
    (result : Compaction) : Prop :=
  ∃ front back, result.history = front ++ historySummary summary ref :: back ∧
    front ++ back = unsummarised messages history

/-- What is summarised are the messages of the history behind as many as there are system messages
in the list, and some more are left. -/
def Aligned (messages : List Assembled) (history : History) : Prop :=
  let systems := (systemMsgs messages).length
  systems + splitPoint messages < history.messages.length ∧
    (∀ h ∈ history.messages.take systems, summarised messages h = false) ∧
    (∀ h ∈ (history.messages.drop systems).take (splitPoint messages),
      summarised messages h = true) ∧
    ∀ h ∈ history.messages.drop (systems + splitPoint messages), summarised messages h = false

variable {crowded : ℕ → ℕ → Bool} {contextLength : ℕ} {messages : List Assembled}
  {history : History} {summary : String} {ref : ℕ} {result : Compaction}

/-- A compaction has cut the history. -/
theorem history_of_maybeCompact
    (h : maybeCompact crowded contextLength messages history.messages (some summary) ref =
      some result) (hcompacted : result.wasCompacted = true) :
    result.history = updateSessionHistory history.messages (splitPoint messages) summary
      (systemMsgs messages).length ref := by
  unfold maybeCompact at h
  simp only at h
  split at h
  · obtain rfl := Option.some.inj h
    cases hcompacted
  · split at h
    · obtain rfl := Option.some.inj h
      cases hcompacted
    · split at h
      · cases h
      · obtain rfl := Option.some.inj h
        rfl

/-- The three parts of a list with respect to two places in it. -/
theorem take_append_take_append_drop {α : Type} (l : List α) (m n : ℕ) :
    l = l.take m ++ ((l.drop m).take n ++ l.drop (m + n)) := by
  rw [← List.drop_drop, List.take_append_drop, List.take_append_drop]

/-- Of a list without repetitions a middle part is filtered out exactly where the filter takes it
and leaves the rest. -/
theorem filter_eq_iff {α : Type} {before middle after : List α} {p : α → Bool}
    (hnodup : (before ++ (middle ++ after)).Nodup) :
    (before ++ (middle ++ after)).filter p = before ++ after ↔
      (∀ x ∈ before, p x = true) ∧ (∀ x ∈ middle, p x = false) ∧ ∀ x ∈ after, p x = true := by
  constructor
  · intro h
    have hmem : ∀ x, x ∈ before ++ after → p x = true := by
      intro x hx
      rw [← h] at hx
      exact (List.mem_filter.mp hx).2
    refine ⟨fun x hx => hmem x (List.mem_append_left _ hx), fun x hx => ?_,
      fun x hx => hmem x (List.mem_append_right _ hx)⟩
    by_contra hp
    rw [Bool.not_eq_false] at hp
    have hkept : x ∈ before ++ after := by
      rw [← h]
      refine List.mem_filter.mpr ⟨?_, hp⟩
      exact List.mem_append_right _ (List.mem_append_left _ hx)
    obtain ⟨-, hrest, hcross⟩ := List.nodup_append.mp hnodup
    obtain ⟨-, -, hcross'⟩ := List.nodup_append.mp hrest
    rcases List.mem_append.mp hkept with hx' | hx'
    · exact hcross x hx' x (List.mem_append_left _ hx) rfl
    · exact hcross' x hx x hx' rfl
  · rintro ⟨hbefore, hmiddle, hafter⟩
    have hnone : middle.filter p = [] := by
      rw [List.filter_eq_nil_iff]
      intro x hx
      rw [hmiddle x hx]
      simp
    rw [List.filter_append, List.filter_append, List.filter_eq_self.mpr hbefore, hnone,
      List.filter_eq_self.mpr hafter, List.nil_append]

/-- What is cut is what is summarised. -/
theorem take_append_drop_eq_iff (messages : List Assembled) (history : History) :
    history.messages.take (systemMsgs messages).length ++
        history.messages.drop ((systemMsgs messages).length + splitPoint messages) =
      unsummarised messages history ↔
    (∀ h ∈ history.messages.take (systemMsgs messages).length, summarised messages h = false) ∧
      (∀ h ∈ (history.messages.drop (systemMsgs messages).length).take (splitPoint messages),
        summarised messages h = true) ∧
      ∀ h ∈ history.messages.drop ((systemMsgs messages).length + splitPoint messages),
        summarised messages h = false := by
  have hparts := take_append_take_append_drop history.messages (systemMsgs messages).length
    (splitPoint messages)
  have hnodup := List.Nodup.of_map _ history.nodup
  rw [hparts] at hnodup
  have hiff := @filter_eq_iff _ _ _ _ (fun h => !summarised messages h) hnodup
  rw [← hparts] at hiff
  simp only [Bool.not_eq_true', Bool.not_eq_false'] at hiff
  rw [unsummarised, eq_comm, hiff]

/-- The place of the summary, which is not in the history. -/
theorem append_cons_eq_iff {α : Type} {before after front back : List α} {x : α}
    (hbefore : x ∉ before) (hafter : x ∉ after) :
    before ++ x :: after = front ++ x :: back ↔ before = front ∧ after = back := by
  constructor
  · intro h
    rw [List.append_eq_append_iff] at h
    rcases h with ⟨rest, rfl, hrest⟩ | ⟨rest, rfl, hrest⟩
    · cases rest with
      | nil =>
        rw [List.nil_append, List.cons.injEq] at hrest
        exact ⟨(List.append_nil _).symm, hrest.2⟩
      | cons y rest =>
        rw [List.cons_append, List.cons.injEq] at hrest
        rw [hrest.2] at hafter
        exact absurd (List.mem_append_right _ List.mem_cons_self) hafter
    · cases rest with
      | nil =>
        rw [List.nil_append, List.cons.injEq] at hrest
        exact ⟨List.append_nil _, hrest.2.symm⟩
      | cons y rest =>
        rw [List.cons_append, List.cons.injEq] at hrest
        rw [← hrest.1] at hbefore
        exact absurd (List.mem_append_right _ List.mem_cons_self) hbefore
  · rintro ⟨rfl, rfl⟩
    rfl

/-- After a compaction nothing is lost and nothing is kept twice exactly where what is summarised
stands behind as many messages of the history as there are system messages in the list; and the
summary comes first where, besides, there are none. -/
theorem losesNothing_iff
    (h : maybeCompact crowded contextLength messages history.messages (some summary) ref =
      some result) (hcompacted : result.wasCompacted = true)
    (hnew : ref ∉ history.messages.map HistoryMessage.ref) :
    (LosesNothing messages history summary ref result ↔ Aligned messages history) ∧
      (SummaryFirst messages history summary ref result ↔
        systemMsgs messages = [] ∧ Aligned messages history) := by
  have hhistory := history_of_maybeCompact h hcompacted
  have hnot : historySummary summary ref ∉ history.messages := fun hmem =>
    hnew (List.mem_map_of_mem hmem)
  have hcut := take_append_drop_eq_iff messages history
  unfold updateSessionHistory at hhistory
  by_cases hshort : history.messages.length ≤ (systemMsgs messages).length + splitPoint messages
  · -- the history stays as it is, without a summary
    simp only [hshort, if_true] at hhistory
    have hnotAligned : ¬ Aligned messages history := fun haligned =>
      absurd haligned.1 (Nat.not_lt.mpr hshort)
    refine ⟨iff_of_false ?_ hnotAligned, iff_of_false ?_ fun haligned => hnotAligned haligned.2⟩
    · rintro ⟨front, back, hsplit, -⟩
      rw [hhistory] at hsplit
      rw [hsplit] at hnot
      exact hnot (List.mem_append_right _ List.mem_cons_self)
    · intro hfirst
      rw [SummaryFirst, hhistory] at hfirst
      rw [hfirst] at hnot
      exact hnot List.mem_cons_self
  · simp only [hshort, if_false, List.append_assoc, List.singleton_append] at hhistory
    have hlong := Nat.lt_of_not_le hshort
    have haligned : Aligned messages history ↔
        history.messages.take (systemMsgs messages).length ++
          history.messages.drop ((systemMsgs messages).length + splitPoint messages) =
            unsummarised messages history := by
      rw [hcut]
      exact ⟨fun haligned => haligned.2, fun hrest => ⟨hlong, hrest⟩⟩
    have hbefore : historySummary summary ref ∉
        history.messages.take (systemMsgs messages).length := fun hmem =>
      hnot (List.mem_of_mem_take hmem)
    have hafter : historySummary summary ref ∉
        history.messages.drop ((systemMsgs messages).length + splitPoint messages) := fun hmem =>
      hnot (List.mem_of_mem_drop hmem)
    rw [haligned]
    constructor
    · constructor
      · rintro ⟨front, back, hsplit, hsame⟩
        rw [hhistory] at hsplit
        obtain ⟨hfront, hback⟩ := (append_cons_eq_iff hbefore hafter).mp hsplit
        rw [hfront, hback, hsame]
      · intro hsame
        exact ⟨_, _, hhistory, hsame⟩
    · rw [SummaryFirst, hhistory]
      have hcons := @append_cons_eq_iff _ _ _ [] (unsummarised messages history) _ hbefore hafter
      rw [List.nil_append] at hcons
      rw [historySummary] at hcons
      rw [historySummary, hcons]
      have hempty : history.messages.take (systemMsgs messages).length = [] ↔
          systemMsgs messages = [] := by
        rw [List.take_eq_nil_iff, List.length_eq_zero_iff]
        constructor
        · rintro (hnone | hnone)
          · exact hnone
          · rw [hnone, List.length_nil] at hlong
            omega
        · exact Or.inl
      constructor
      · rintro ⟨hnone, hsame⟩
        refine ⟨hempty.mp hnone, ?_⟩
        rw [hnone, List.nil_append, hsame]
      · rintro ⟨hnone, hsame⟩
        rw [hempty.mpr hnone, List.nil_append] at hsame
        exact ⟨hempty.mpr hnone, hsame⟩

/-- Six messages of a conversation. -/
def sixMessages : History where
  messages := (List.range 6).map fun i =>
    ⟨i, if i % 2 = 0 then "user" else "assistant", toString i⟩
  nodup := by decide

/-- A message that is sent. -/
def sent (role text : String) (copyOf : Option ℕ) : Assembled :=
  { role := role, content := .text text, toolCalls := [], toolCallId := ""
    metadata := ⟨none, "", false, false, false⟩, isProtected := false, copyOf := copyOf }

/-- The copies of the six messages. -/
def sixCopies : List Assembled :=
  sixMessages.messages.map fun h => sent h.role h.content (some h.ref)

theorem losesNothing_sixCopies : ∃ result,
    maybeCompact (fun _ _ => true) 100 sixCopies sixMessages.messages (some "Counting.") 9 =
      some result ∧
    SummaryFirst sixCopies sixMessages "Counting." 9 result := by
  refine ⟨_, rfl, ?_⟩
  refine (@losesNothing_iff (fun _ _ => true) 100 sixCopies sixMessages "Counting." 9 _ rfl rfl
    ?_).2.mpr ?_
  · decide
  · unfold Aligned
    decide

/-- With a system prompt that is not in the history, the message `3` is lost and `0` is kept. -/
theorem not_losesNothing_prompt : ∃ result,
    maybeCompact (fun _ _ => true) 100 (sent "system" "Count." none :: sixCopies)
      sixMessages.messages (some "Counting.") 9 = some result ∧
    result.wasCompacted = true ∧
    ¬ SummaryFirst (sent "system" "Count." none :: sixCopies) sixMessages "Counting." 9 result ∧
    (result.history.map HistoryMessage.ref) = [0, 9, 4, 5] := by
  refine ⟨_, rfl, rfl, ?_, ?_⟩
  · unfold SummaryFirst
    decide
  · decide

end Pandamonium.ContextCompactor
