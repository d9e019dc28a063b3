import Mathlib.Algebra.Order.BigOperators.Group.List
import Mathlib.Algebra.Order.Ring.Nat
import Pandamonium.Analysis.ProtectedMessages

/-!
# The size of what is cut

A text that is cut loses its middle and gets a notice, and one for which there is no room is
replaced by a notice.  So a cut text can be longer than the text, and a message that is cut to what
is left of the ceiling of its class can be larger than that.  What is left under each ceiling is
known from the messages alone (`ceilingLeft`), and so are the messages that are cut.
-/

set_option autoImplicit false

namespace Pandamonium.ContextCompactor

open Pandamonium.Library

/-! ## Texts -/

/-- The characters up to which a text is not cut. -/
def maxChars (tokenBudget : ℕ) : ℕ := max 200 (overThreeTenths (tokenBudget - 16))

/-- The characters that are kept of a text that is cut. -/
def keepChars (tokenBudget : ℕ) : ℕ := max 200 (maxChars tokenBudget - 120)

def headLength (tokenBudget : ℕ) : ℕ := max 100 (timesSevenTenths (keepChars tokenBudget))

def tailLength (tokenBudget : ℕ) : ℕ := max 80 (keepChars tokenBudget - headLength tokenBudget)

/-- The number of blanks at the end of a text. -/
def blanksBehind (cs : List Char) : ℕ := (cs.reverse.takeWhile isSpace).length

/-- The number of blanks at the start of a text. -/
def blanksBefore (cs : List Char) : ℕ := (cs.takeWhile isSpace).length

/-- The length of a text once it is cut: the notice alone, the whole text, or its two ends without
the blanks at the cut and 122 characters of notice between them. -/
def cutLength (text : String) (tokenBudget : ℕ) : ℕ :=
  if tokenBudget ≤ 32 then 69
  else if text.length ≤ maxChars tokenBudget then text.length
  else
    let head := text.toList.take (headLength tokenBudget)
    let tail := text.toList.drop (text.length - tailLength tokenBudget)
    head.length - blanksBehind head + 122 + (tail.length - blanksBefore tail)

theorem length_lstrip (cs : List Char) : (lstrip cs).length = cs.length - blanksBefore cs := by
  have h := congrArg List.length (@List.takeWhile_append_dropWhile _ isSpace cs)
  rw [List.length_append] at h
  rw [lstrip, blanksBefore]
  omega

theorem length_rstrip (cs : List Char) : (rstrip cs).length = cs.length - blanksBehind cs := by
  have h := length_lstrip cs.reverse
  rw [lstrip, List.length_reverse] at h
  rw [rstrip, List.length_reverse, h, blanksBefore, blanksBehind]

theorem length_truncateTextToTokenBudget (text : String) (tokenBudget : ℕ) :
    (truncateTextToTokenBudget text tokenBudget).length = cutLength text tokenBudget := by
  have homitted : omittedText.length = 69 := by decide +kernel
  have hnotice : ("\n\n" ++ pastedNotice).length = 120 := by decide +kernel
  have hbreak : "\n\n".length = 2 := by decide
  unfold truncateTextToTokenBudget cutLength maxChars
  split
  · exact homitted
  · split
    · rename_i hshort
      rw [if_pos hshort]
    · rename_i hlong
      rw [if_neg hlong]
      simp only [String.length_append, String.length_ofList, hnotice, hbreak, length_rstrip,
        length_lstrip, headLength, tailLength, keepChars, maxChars]

/-! ## Contents -/

variable (project : String → ℕ → Option String)

/-- The estimate of the parts of a content once they are cut. -/
def cutBlocks : ℕ → List Block → ℕ
  | _, [] => 0
  | remaining, .other :: items => cutBlocks remaining items
  | remaining, .text text :: items =>
    let tokens := cutLength text remaining * 3 / 10
    tokens + cutBlocks (remaining - (tokens + 4)) items

/-- The estimate of a content once it is cut. -/
def cutTokens (tokenBudget : ℕ) : Content → ℕ
  | .none => 0
  | .text s =>
    match project s (overThreeTenths (tokenBudget - 16)) with
    | some projected => textTokens projected
    | none => cutLength s tokenBudget * 3 / 10
  | .blocks items => cutBlocks tokenBudget items

theorem tokens_blocks_text (text : String) (items : List Block) :
    (Content.blocks (.text text :: items)).tokens =
      textTokens text + (Content.blocks items).tokens := rfl

theorem tokens_blocks_other (items : List Block) :
    (Content.blocks (.other :: items)).tokens = (Content.blocks items).tokens :=
  Nat.zero_add _

theorem tokens_truncateBlocks (remaining : ℕ) (items : List Block) :
    (Content.blocks (truncateBlocks remaining items)).tokens = cutBlocks remaining items := by
  induction items generalizing remaining with
  | nil => rfl
  | cons item items ih =>
    cases item with
    | other =>
      rw [truncateBlocks, cutBlocks, tokens_blocks_other]
      exact ih remaining
    | text text =>
      have hrest := ih (remaining - (cutLength text remaining * 3 / 10 + 4))
      simp only [truncateBlocks, cutBlocks, tokens_blocks_text, messageTextTokenEstimate,
        textTokens, length_truncateTextToTokenBudget, hrest]

theorem tokens_truncateContent (tokenBudget : ℕ) (content : Content) :
    (truncateContent project tokenBudget content).tokens = cutTokens project tokenBudget content := by
  cases content with
  | none => rfl
  | text s =>
    simp only [truncateContent, cutTokens, Content.tokens]
    cases project s (overThreeTenths (tokenBudget - 16)) with
    | some projected => rfl
    | none =>
      simp only [Option.getD_none, textTokens, length_truncateTextToTokenBudget]
  | blocks items => exact tokens_truncateBlocks tokenBudget items

/-! ## Arguments -/

theorem length_toString_le {n : ℕ} (hn : 57 ≤ n) : (toString n).length + 28 ≤ n := by
  have hpow : ∀ k, 2 ≤ k → k + 28 < 10 ^ k := by
    intro k hk
    induction k, hk using Nat.le_induction with
    | base => decide
    | succ k _ ih =>
      rw [Nat.pow_succ]
      omega
  have hlt := hpow (n - 28) (by omega)
  have hlength : (toString n).length ≤ n - 28 :=
    (Nat.length_repr_le_iff (by omega)).mpr (by omega)
  omega

/-- Arguments are only replaced by shorter ones. -/
theorem tokens_truncateToolCallArgs_le (m : Message) (tokenBudget : ℕ) :
    ((truncateToolCallArgs m tokenBudget).toolCalls.map ToolCall.tokens).sum ≤
      (m.toolCalls.map ToolCall.tokens).sum := by
  simp only [truncateToolCallArgs, List.map_map]
  refine List.sum_le_sum fun call _ => ?_
  simp only [Function.comp_apply]
  cases hargs : call.arguments with
  | printed text => simp
  | text text =>
    simp only
    split
    · rename_i hlong
      have hmany : 57 ≤ text.length := by
        have := Nat.le_max_left 16 ((tokenBudget - (4 + m.content.tokens)) / m.toolCalls.length)
        simp only [textTokens] at hlong
        omega
      have hshort := length_toString_le hmany
      have hframe : "\x7b\"_truncated_for_context\": ".length = 27 ∧ "\x7d".length = 1 := by decide
      simp only [ToolCall.tokens, hargs, Arguments.asText, String.length_append, hframe]
      omega
    · exact Nat.le_refl _

/-! ## Classes -/

variable (percentages : List (String × ℕ)) (classBase : ℕ)

/-- The estimate of the messages of a class. -/
def classTokens (c : String) (messages : List Mounted) : ℕ :=
  estimateTokens (messages.filter fun m => m.contextClass = c)

/-- The messages of a class are within its ceiling once the ceilings have been applied. -/
def WithinCeiling (c : String) (messages : List Mounted) : Prop :=
  classTokens c (applyClassBudgets project percentages classBase messages).2 ≤
    classCeiling classBase ((percentages.lookup c).getD 0)

/-- Each message of the class that is cut to what is left of its ceiling fits there. -/
def CutsFit (c : String) (messages : List Mounted) : Prop :=
  EveryPlace (fun _ m newer =>
    let left := ceilingLeft percentages classBase newer c
    m.contextClass = c → left < m.tokens → 64 ≤ left →
      (truncateContextMessage project m left true).tokens ≤ left) messages

theorem classTokens_cons (c : String) (m : Mounted) (messages : List Mounted) :
    classTokens c (m :: messages) =
      if m.contextClass = c then m.tokens + classTokens c messages
      else classTokens c messages := by
  unfold classTokens
  by_cases h : m.contextClass = c
  · rw [if_pos h, List.filter_cons_of_pos (by simpa using h)]
    rfl
  · rw [if_neg h, List.filter_cons_of_neg (by simpa using h)]

variable {percentages} {c : String}

/-- What one message adds to the total of a class. -/
theorem classTokens_applyClassBudgets (hc : (percentages.lookup c).isNone = false) (m : Mounted)
    (newer : List Mounted) :
    classTokens c (applyClassBudgets project percentages classBase (m :: newer)).2 =
      classTokens c (applyClassBudgets project percentages classBase newer).2 +
        (let left := ceilingLeft percentages classBase newer c
        if m.contextClass ≠ c then 0
        else if m.tokens ≤ left then m.tokens
        else if 64 ≤ left then (truncateContextMessage project m left true).tokens
        else 0) := by
  have hleft := applyClassBudgets_left project percentages classBase newer c hc
  by_cases hclass : m.contextClass = c
  · subst hclass
    simp only [applyClassBudgets, hc, Bool.false_eq_true, if_false, ne_eq, not_true_eq_false, hleft]
    split
    · rw [classTokens_cons, if_pos rfl, Nat.add_comm]
    · split
      · have hsame := (truncateContextMessage_shortened project m
          (ceilingLeft percentages classBase newer m.contextClass) true).contextClass
        rw [classTokens_cons, if_pos hsame, Nat.add_comm]
      · rfl
  · simp only [applyClassBudgets, ne_eq, hclass, not_false_eq_true, if_true, Nat.add_zero]
    split
    · rw [classTokens_cons, if_neg hclass]
    · split
      · rw [classTokens_cons, if_neg hclass]
      · split
        · have hsame := (truncateContextMessage_shortened project m
            ((applyClassBudgets project percentages classBase newer).1 m.contextClass)
            true).contextClass
          rw [classTokens_cons, hsame, if_neg hclass]
        · rfl

/-- Until a message is cut, the total and what is left make up the ceiling. -/
theorem classTokens_add_left (hc : (percentages.lookup c).isNone = false)
    (messages : List Mounted) :
    ceilingLeft percentages classBase messages c = 0 ∨
      classTokens c (applyClassBudgets project percentages classBase messages).2 +
          ceilingLeft percentages classBase messages c =
        classCeiling classBase ((percentages.lookup c).getD 0) := by
  induction messages with
  | nil =>
    right
    simp only [applyClassBudgets, ceilingLeft]
    exact Nat.zero_add _
  | cons m newer ih =>
    rw [classTokens_applyClassBudgets project classBase hc]
    simp only [ceilingLeft]
    split
    · simpa using ih
    · split
      · omega
      · split
        · left
          rfl
        · simpa using ih

/-- Where a message that is cut does not fit, the class is over its ceiling, however many older
messages there are. -/
theorem withinCeiling_iff (hc : (percentages.lookup c).isNone = false) (messages : List Mounted) :
    WithinCeiling project percentages classBase c messages ↔
      CutsFit project percentages classBase c messages := by
  induction messages with
  | nil => exact iff_of_true (Nat.zero_le _) (everyPlace_nil _)
  | cons m newer ih =>
    have htotal := classTokens_add_left project classBase hc newer
    unfold CutsFit at ih ⊢
    rw [everyPlace_tails, ← ih]
    unfold WithinCeiling
    rw [classTokens_applyClassBudgets project classBase hc]
    by_cases hclass : m.contextClass = c
    · simp only [hclass, ne_eq, not_true_eq_false, if_false, true_implies]
      split
      · omega
      · split <;> omega
    · simp only [ne_eq, hclass, not_false_eq_true, if_true, Nat.add_zero, false_implies, true_and]

/-! ## Both -/

/-- A message of 400 characters of a class with 64 tokens. -/
def longClock : Mounted :=
  { systemMessage (String.ofList (List.replicate 400 'a'))
      { plainMetadata with josContext := some ⟨"time", false⟩ } with
    position := 0 }

/-- What is left of its text when it is cut. -/
def cutClock : List Char :=
  List.replicate 140 'a' ++ ("\n\n".toList ++ pastedNotice.toList) ++ "\n\n".toList ++
    List.replicate 80 'a'

theorem toList_cutClock :
    (truncateTextToTokenBudget (String.ofList (List.replicate 400 'a')) 64).toList = cutClock := by
  have hnotice : ("\n\n" ++ pastedNotice).length = 120 := by decide +kernel
  have hmax : max 200 (overThreeTenths (64 - 16)) = 200 := by decide
  have hkeep : max 200 (200 - 120) = 200 := by decide
  have hhead : max 100 (timesSevenTenths 200) = 140 := by decide +kernel
  have htail : 400 - max 80 (200 - 140) = 320 := by decide
  have hfirst : rstrip ((List.replicate 400 'a').take 140) = List.replicate 140 'a' := by
    decide +kernel
  have hlast : lstrip ((List.replicate 400 'a').drop 320) = List.replicate 80 'a' := by
    decide +kernel
  unfold truncateTextToTokenBudget
  rw [if_neg (by decide)]
  simp only [hmax, String.length_ofList, List.length_replicate, hnotice, String.toList_ofList]
  rw [if_neg (by decide), hkeep, hhead, htail, hfirst, hlast]
  simp only [String.toList_append, String.toList_ofList, cutClock]

theorem tokens_cut (project : String → ℕ → Option String) {m : Mounted} {s : String}
    (hcontent : m.content = .text s) (hcalls : m.toolCalls = []) (tokenBudget : ℕ)
    (hproject : project s (overThreeTenths (tokenBudget - 16)) = none) {l : List Char}
    (hl : (truncateTextToTokenBudget s tokenBudget).toList = l) :
    (truncateContextMessage project m tokenBudget true).tokens =
      4 + (replaceChars pastedNotice.toList sourceNotice.toList
        (replaceChars omittedText.toList sourceOmittedText.toList l.length l).length
        (replaceChars omittedText.toList sourceOmittedText.toList l.length l)).length * 3 / 10 := by
  subst hl
  simp [truncateContextMessage, truncateMessageToTokenBudget, truncateContent, hcontent, hcalls,
    hproject, noticeContent, Message.tokens, Content.tokens, textTokens, replaceText,
    String.length_toList]

theorem not_withinCeiling_longClock :
    ¬ WithinCeiling (fun _ _ => none) defaultClassBudgetPercent 256 "time" [longClock] := by
  have hcontent : longClock.content = .text (String.ofList (List.replicate 400 'a')) := rfl
  have hcalls : longClock.toolCalls = [] := rfl
  have htokens : longClock.tokens = 124 := by
    rw [Message.tokens, hcontent, hcalls, Content.tokens, textTokens, String.length_ofList,
      List.length_replicate]
    rfl
  have hleft : ceilingLeft defaultClassBudgetPercent 256 [] "time" = 64 := by decide +kernel
  have hcut : ¬ (truncateContextMessage (fun _ _ => none) longClock 64 true).tokens ≤ 64 := by
    rw [tokens_cut _ hcontent hcalls 64 rfl toList_cutClock]
    decide +kernel
  rw [withinCeiling_iff _ 256 (by decide) _]
  intro hfit
  have hlast := hfit [] longClock [] rfl
  simp only [hleft, htokens] at hlast
  exact hcut (hlast rfl (by decide) le_rfl)

end Pandamonium.ContextCompactor
