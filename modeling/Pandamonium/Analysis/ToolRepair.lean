import Pandamonium.Analysis.ContextSelection

/-!
# The repair of the tool calls

`_sanitize_tool_messages` in closed form: a tool result goes unless a batch is open before it,
and a call without results loses its calls, or goes when no text is left of it (`repaired`).
What comes out is `Clean`, and stays so when texts are shortened, so the second repair, after
the shrinking, changes nothing.

`trimForContext_eq` puts the passes together: the output is the repair of the messages
selected, each shortened, unless the repair fails.
-/

set_option autoImplicit false

namespace Pandamonium.ContextCompactor

open Pandamonium.Library

/-- Whether a batch is open behind a message. -/
def stillOpen (inBatch : Bool) (m : Message) : Bool := if m.isTool then inBatch else m.callsTools

/-- Whether a batch is open behind the messages. -/
def batchOpen (inBatch : Bool) (messages : List Mounted) : Bool :=
  messages.foldl (fun inBatch m => stillOpen inBatch m.toMessage) inBatch

/-- `(m.get("content") or "").strip()` is not empty. -/
def hasText : Content → Bool
  | .text text => strip text ≠ ""
  | _ => false

/-- `.strip()` fails on this content. -/
def hasBlocks : Content → Bool
  | .blocks items => !items.isEmpty
  | _ => false

/-- A call with no result right behind it. -/
def dangling (m : Mounted) (rest : List Mounted) : Bool := m.callsTools && !startsWithTool rest

/-- No call without a result has a list for its content. -/
def Repairable (messages : List Mounted) : Prop :=
  EveryPlace (fun _ m rest => dangling m rest = true → hasBlocks m.content = false) messages

/-- What the repair makes of one message. -/
def repairedMessage (inBatch : Bool) (m : Mounted) (rest : List Mounted) : Option Mounted :=
  if m.isTool then if inBatch then some m else none
  else if dangling m rest then
    if hasText m.content then some { m with toolCalls := [] } else none
  else some m

/-- The messages after the repair. -/
def repaired : Bool → List Mounted → List Mounted
  | _, [] => []
  | inBatch, m :: rest =>
    (repairedMessage inBatch m rest).toList ++ repaired (stillOpen inBatch m.toMessage) rest

theorem repairable_nil : Repairable [] := everyPlace_nil _

theorem repairable_cons {m : Mounted} {rest : List Mounted} :
    Repairable (m :: rest) ↔
      (dangling m rest = true → hasBlocks m.content = false) ∧ Repairable rest :=
  everyPlace_cons

theorem callsTools_not_isTool {m : Message} (h : m.callsTools = true) : m.isTool = false := by
  simp only [Message.callsTools, Bool.and_eq_true, decide_eq_true_eq] at h
  simp [Message.isTool, h.1]

theorem isTool_not_callsTools {m : Message} (h : m.isTool = true) : m.callsTools = false := by
  cases hc : m.callsTools with
  | false => rfl
  | true =>
    rw [callsTools_not_isTool hc] at h
    cases h

theorem startsWithTool_dropOrphans (rest : List Mounted) :
    startsWithTool (dropOrphans true rest) = startsWithTool rest := by
  cases rest with
  | nil => rfl
  | cons m rest =>
    simp only [dropOrphans]
    cases h : m.isTool <;> simp [startsWithTool, h]

/-- The two passes at one message: only a dangling call with a list for its content fails. -/
theorem dropDangling_cons (inBatch : Bool) (m : Mounted) (rest : List Mounted) :
    dropDangling (dropOrphans inBatch (m :: rest)) =
      (dropDangling (dropOrphans (stillOpen inBatch m.toMessage) rest)).bind fun kept =>
        if dangling m rest && hasBlocks m.content then none
        else some ((repairedMessage inBatch m rest).toList ++ kept) := by
  cases hm : m.isTool with
  | true =>
    have hcalls := isTool_not_callsTools hm
    cases inBatch <;>
      simp [dropOrphans, dropDangling, stillOpen, repairedMessage, dangling, hm, hcalls]
  | false =>
    cases hcalls : m.callsTools with
    | false => simp [dropOrphans, dropDangling, stillOpen, repairedMessage, dangling, hm, hcalls]
    | true =>
      simp only [dropOrphans, dropDangling, stillOpen, repairedMessage, dangling, hm, hcalls,
        Bool.false_eq_true, if_false, startsWithTool_dropOrphans]
      cases hstarts : startsWithTool rest with
      | true => simp
      | false =>
        cases hcontent : m.content with
        | none => simp [hasText, hasBlocks]
        | text text => by_cases ht : strip text = "" <;> simp [hasText, hasBlocks, ht]
        | blocks items => cases hitems : items.isEmpty <;> simp [hasText, hasBlocks, hitems]

theorem dropDangling_eq {inBatch : Bool} {messages : List Mounted} (h : Repairable messages) :
    dropDangling (dropOrphans inBatch messages) = some (repaired inBatch messages) := by
  induction messages generalizing inBatch with
  | nil => rfl
  | cons m rest ih =>
    obtain ⟨hm, hrest⟩ := repairable_cons.mp h
    have hgood : ¬ ((dangling m rest && hasBlocks m.content) = true) := by
      rw [Bool.and_eq_true]
      rintro ⟨hd, hb⟩
      rw [hm hd] at hb
      cases hb
    rw [dropDangling_cons, ih hrest, Option.bind_some, if_neg hgood]
    rfl

theorem dropDangling_eq_none {inBatch : Bool} {messages : List Mounted}
    (h : ¬ Repairable messages) : dropDangling (dropOrphans inBatch messages) = none := by
  induction messages generalizing inBatch with
  | nil => exact absurd repairable_nil h
  | cons m rest ih =>
    rw [dropDangling_cons]
    by_cases hrest : Repairable rest
    · have hbad : (dangling m rest && hasBlocks m.content) = true := by
        by_contra hgood
        apply h
        refine repairable_cons.mpr ⟨?_, hrest⟩
        intro hd
        simpa [hd] using hgood
      rw [dropDangling_eq hrest, Option.bind_some, if_pos hbad]
    · rw [ih hrest, Option.bind_none]

theorem sanitizeToolMessages_eq {messages : List Mounted} (h : Repairable messages) :
    sanitizeToolMessages messages = some (repaired false messages) :=
  dropDangling_eq h

theorem sanitizeToolMessages_eq_none {messages : List Mounted} (h : ¬ Repairable messages) :
    sanitizeToolMessages messages = none :=
  dropDangling_eq_none h

/-! ## Repaired messages need no repair -/

/-- Every result has an open batch before it, and every call a result behind it. -/
def Clean : Bool → List Mounted → Prop
  | _, [] => True
  | inBatch, m :: rest =>
    (m.isTool → inBatch = true) ∧ dangling m rest = false ∧
      Clean (stillOpen inBatch m.toMessage) rest

theorem Clean.repairable {inBatch : Bool} {messages : List Mounted} (h : Clean inBatch messages) :
    Repairable messages := by
  induction messages generalizing inBatch with
  | nil => exact repairable_nil
  | cons m rest ih =>
    obtain ⟨_, hd, hrest⟩ := h
    refine repairable_cons.mpr ⟨?_, ih hrest⟩
    intro hd'
    rw [hd] at hd'
    cases hd'

theorem Clean.repaired_eq {inBatch : Bool} {messages : List Mounted} (h : Clean inBatch messages) :
    repaired inBatch messages = messages := by
  induction messages generalizing inBatch with
  | nil => rfl
  | cons m rest ih =>
    obtain ⟨htool, hd, hrest⟩ := h
    have hm : repairedMessage inBatch m rest = some m := by
      simp only [repairedMessage, hd, Bool.false_eq_true, if_false]
      split
      · rename_i ht
        rw [htool ht, if_pos rfl]
      · rfl
    rw [repaired, hm, ih hrest]
    rfl

/-- Nothing of repaired messages is repaired again. -/
theorem Clean.sanitize {messages : List Mounted} (h : Clean false messages) :
    sanitizeToolMessages messages = some messages := by
  rw [sanitizeToolMessages_eq h.repairable, h.repaired_eq]

theorem AllShortened.startsWithTool {a b : List Mounted} (h : AllShortened a b) :
    startsWithTool b = startsWithTool a := by
  cases h with
  | nil => rfl
  | cons hx _ => exact hx.isTool

theorem AllShortened.dangling {m m' : Mounted} {a b : List Mounted} (hm : Shortened m m')
    (h : AllShortened a b) : dangling m' b = dangling m a := by
  simp only [ContextCompactor.dangling, hm.callsTools, h.startsWithTool]

theorem Shortened.stillOpen {m m' : Mounted} (h : Shortened m m') (inBatch : Bool) :
    stillOpen inBatch m'.toMessage = stillOpen inBatch m.toMessage := by
  simp only [ContextCompactor.stillOpen, h.isTool, h.callsTools]

theorem Clean.shortened {inBatch : Bool} {a b : List Mounted} (h : Clean inBatch a)
    (hab : AllShortened a b) : Clean inBatch b := by
  induction hab generalizing inBatch with
  | nil => trivial
  | cons hm hrest ih =>
    obtain ⟨htool, hd, hclean⟩ := h
    refine ⟨?_, ?_, ?_⟩
    · rw [hm.isTool]
      exact htool
    · rw [AllShortened.dangling hm hrest]
      exact hd
    · rw [hm.stillOpen]
      exact ih hclean

/-- The results right behind a call stay right behind it. -/
theorem startsWithTool_repaired {rest : List Mounted} (h : startsWithTool rest = true) :
    startsWithTool (repaired true rest) = true := by
  cases rest with
  | nil => cases h
  | cons m rest =>
    have hm : m.isTool = true := h
    simp [repaired, repairedMessage, hm, startsWithTool]

/-- Where no result comes first it does not matter whether a batch is open. -/
theorem repaired_flag {rest : List Mounted} (h : startsWithTool rest = false) (b b' : Bool) :
    repaired b rest = repaired b' rest := by
  cases rest with
  | nil => rfl
  | cons m rest =>
    have hm : m.isTool = false := h
    simp [repaired, repairedMessage, stillOpen, hm]

theorem clean_repaired (inBatch : Bool) (messages : List Mounted) :
    Clean inBatch (repaired inBatch messages) := by
  induction messages generalizing inBatch with
  | nil => trivial
  | cons m rest ih =>
    cases hm : m.isTool with
    | true =>
      have hcalls := isTool_not_callsTools hm
      cases inBatch with
      | false => simpa [repaired, repairedMessage, stillOpen, hm] using ih false
      | true =>
        have hrest := ih true
        simp [repaired, repairedMessage, stillOpen, hm, Clean, dangling, hcalls, hrest]
    | false =>
      cases hd : dangling m rest with
      | true =>
        have hcalls : m.callsTools = true ∧ startsWithTool rest = false := by
          simpa [dangling] using hd
        have hflag := repaired_flag hcalls.2 true
        cases htext : hasText m.content with
        | true =>
          have hhead : repairedMessage inBatch m rest = some { m with toolCalls := [] } := by
            simp only [repairedMessage, hm, hd, htext, Bool.false_eq_true, if_false, if_true]
          have hnone : ({ m with toolCalls := [] } : Mounted).callsTools = false := by
            simp [Message.callsTools]
          have hnot : ({ m with toolCalls := [] } : Mounted).isTool = false := hm
          have hopen : stillOpen inBatch m.toMessage = true := by
            simp only [stillOpen, hm, hcalls.1, Bool.false_eq_true, if_false]
          have hclosed : stillOpen inBatch ({ m with toolCalls := [] } : Mounted).toMessage =
              false := by
            simp only [stillOpen, hnot, hnone, Bool.false_eq_true, if_false]
          rw [repaired, hhead, hopen, hflag false]
          refine ⟨?_, ?_, ?_⟩
          · intro ht
            rw [hnot] at ht
            cases ht
          · simp only [dangling, hnone, Bool.false_and]
          · rw [hclosed]
            exact ih false
        | false =>
          have hhead : repairedMessage inBatch m rest = none := by
            simp [repairedMessage, hm, hd, htext]
          have hopen : stillOpen inBatch m.toMessage = true := by
            simp only [stillOpen, hm, hcalls.1, Bool.false_eq_true, if_false]
          rw [repaired, hhead, hopen, hflag inBatch]
          exact ih inBatch
      | false =>
        have hrest := ih m.callsTools
        have hfollowed : dangling m (repaired m.callsTools rest) = false := by
          cases hcalls : m.callsTools with
          | false => simp [dangling, hcalls]
          | true =>
            have hstarts : startsWithTool rest = true := by
              simpa [dangling, hcalls] using hd
            simp [dangling, startsWithTool_repaired hstarts]
        simp [repaired, repairedMessage, stillOpen, hm, hd, Clean, hfollowed, hrest]

/-- The second repair changes nothing. -/
theorem sanitize_repaired_shortened {messages shortened : List Mounted}
    (h : AllShortened (repaired false messages) shortened) :
    sanitizeToolMessages shortened = some shortened :=
  ((clean_repaired false messages).shortened h).sanitize

/-! ## Shrinking -/

section Shrink

variable (project : String → ℕ → Option String) (budget : ℕ)

theorem allShortened_set {messages : List Mounted} {n : ℕ} {m m' : Mounted}
    (hm : messages[n]? = some m) (h : Shortened m m') :
    AllShortened messages (messages.set n m') := by
  induction messages generalizing n with
  | nil => simp at hm
  | cons x rest ih =>
    cases n with
    | zero =>
      simp only [List.getElem?_cons_zero, Option.some.injEq] at hm
      subst hm
      exact List.Forall₂.cons h (AllShortened.refl rest)
    | succ n => exact List.Forall₂.cons (Shortened.refl x) (ih hm)

theorem shrinkClass_shortened (contextClass : String) (n : ℕ) (messages : List Mounted) :
    AllShortened messages (shrinkClass project budget contextClass n messages) := by
  induction n generalizing messages with
  | zero => exact AllShortened.refl messages
  | succ n ih =>
    simp only [shrinkClass]
    split
    · exact AllShortened.refl messages
    · cases hn : messages[n]? with
      | none => exact ih messages
      | some m =>
        simp only
        split
        · exact ih messages
        · refine AllShortened.trans (allShortened_set hn ?_) (ih _)
          exact truncateContextMessage_shortened project m _ _

theorem shrink_shortened (messages : List Mounted) :
    AllShortened messages (shrink project budget messages) := by
  unfold shrink
  induction shrinkOrder generalizing messages with
  | nil => exact AllShortened.refl messages
  | cons c classes ih =>
    rw [List.foldl_cons]
    exact (shrinkClass_shortened project budget c messages.length messages).trans (ih _)

end Shrink

/-! ## The passes together -/

section Trim

variable (project : String → ℕ → Option String) (lower : String → String) (limits : Limits)
  (messages : List Message)

/-- The messages the class ceilings leave, as they leave them. -/
def budgeted : List Mounted :=
  (applyClassBudgets project limits.percentages limits.classBase
    (annotateContextMessages lower messages)).2

/-- The messages that are left for the repair. -/
def selectedMessages : List Mounted :=
  selected limits.budget (budgeted project lower limits messages)

theorem ordered_budgeted : Ordered (budgeted project lower limits messages) :=
  (applyClassBudgets_shortened project limits.percentages limits.classBase _).ordered
    ((ordered_annotateFrom lower 0 messages).underCeilings limits.percentages limits.classBase)

theorem ordered_selectedMessages : Ordered (selectedMessages project lower limits messages) :=
  (ordered_budgeted project lower limits messages).sublist List.filter_sublist

theorem trimForContext_eq : trimForContext project lower limits messages =
    if estimateTokens (budgeted project lower limits messages) ≤ limits.budget then
      sanitizeToolMessages (budgeted project lower limits messages)
    else (sanitizeToolMessages (selectedMessages project lower limits messages)).bind fun kept =>
      sanitizeToolMessages (shrink project limits.budget kept) := by
  unfold selectedMessages
  rw [← dropLowest_candidates (ordered_budgeted project lower limits messages)]
  rfl

theorem selectedMessages_of_fits
    (h : estimateTokens (budgeted project lower limits messages) ≤ limits.budget) :
    selectedMessages project lower limits messages = budgeted project lower limits messages :=
  selected_of_fits h

variable {project lower limits messages}

/-- The output is the repair of the messages selected, each of them shortened. -/
theorem trimForContext_of_repairable
    (h : Repairable (selectedMessages project lower limits messages)) :
    ∃ out, trimForContext project lower limits messages = some out ∧
      AllShortened (repaired false (selectedMessages project lower limits messages)) out := by
  rw [trimForContext_eq, sanitizeToolMessages_eq h]
  split
  · rename_i hfits
    rw [selectedMessages_of_fits project lower limits messages hfits] at h ⊢
    exact ⟨_, sanitizeToolMessages_eq h, AllShortened.refl _⟩
  · have hshort := shrink_shortened project limits.budget
      (repaired false (selectedMessages project lower limits messages))
    rw [Option.bind_some, sanitize_repaired_shortened hshort]
    exact ⟨_, rfl, hshort⟩

/-- A dangling call whose content is a list makes the call fail. -/
theorem trimForContext_of_not_repairable
    (h : ¬ Repairable (selectedMessages project lower limits messages)) :
    trimForContext project lower limits messages = none := by
  have hnone := sanitizeToolMessages_eq_none h
  rw [trimForContext_eq, hnone, Option.bind_none]
  split
  · rename_i hfits
    rw [selectedMessages_of_fits project lower limits messages hfits] at hnone
    exact hnone
  · rfl

/-- A call that returns had messages it could repair. -/
theorem repairable_of_trimForContext {out : List Mounted}
    (h : trimForContext project lower limits messages = some out) :
    Repairable (selectedMessages project lower limits messages) ∧
      AllShortened (repaired false (selectedMessages project lower limits messages)) out := by
  have hrep : Repairable (selectedMessages project lower limits messages) := by
    by_contra hnot
    rw [trimForContext_of_not_repairable hnot] at h
    cases h
  obtain ⟨out', hout', hshort⟩ := trimForContext_of_repairable hrep
  rw [h, Option.some.injEq] at hout'
  subst hout'
  exact ⟨hrep, hshort⟩

end Trim

end Pandamonium.ContextCompactor
