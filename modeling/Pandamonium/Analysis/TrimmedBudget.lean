import Pandamonium.Analysis.ProtectedMessages

/-!
# The budget of a trimmed conversation

Every pass lowers the token total or leaves it as it is, except the shrinking, which only runs on
what is over the budget.  So where the protected messages alone are within the budget, the output
is, too, and its messages stand in the order of the input.
-/

set_option autoImplicit false

namespace Pandamonium.ContextCompactor

open Pandamonium.Library

/-! ## The total goes down -/

theorem estimateTokens_cons (m : Mounted) (messages : List Mounted) :
    estimateTokens (m :: messages) = m.tokens + estimateTokens messages := by
  simp only [estimateTokens, List.map_cons, List.sum_cons]

theorem repairedMessage_tokens_le (inBatch : Bool) (m : Mounted) (rest : List Mounted) :
    estimateTokens (repairedMessage inBatch m rest).toList ≤ m.tokens := by
  have hempty : estimateTokens [] = 0 := rfl
  have hself : estimateTokens [m] = m.tokens := by
    rw [estimateTokens_cons, hempty, Nat.add_zero]
  have hplain : estimateTokens [{ m with toolCalls := [] }] ≤ m.tokens := by
    rw [estimateTokens_cons, hempty]
    simp only [Message.tokens, List.map_nil, List.sum_nil]
    omega
  unfold repairedMessage
  split
  · split
    · exact Nat.le_of_eq hself
    · exact Nat.zero_le _
  · split
    · split
      · exact hplain
      · exact Nat.zero_le _
    · exact Nat.le_of_eq hself

theorem estimateTokens_append (a b : List Mounted) :
    estimateTokens (a ++ b) = estimateTokens a + estimateTokens b := by
  simp only [estimateTokens, List.map_append, List.sum_append]

/-- The repair of the tool calls adds nothing. -/
theorem estimateTokens_repaired_le (inBatch : Bool) (messages : List Mounted) :
    estimateTokens (repaired inBatch messages) ≤ estimateTokens messages := by
  induction messages generalizing inBatch with
  | nil => exact Nat.le_refl _
  | cons m rest ih =>
    have hm := repairedMessage_tokens_le inBatch m rest
    have hrest := ih (stillOpen inBatch m.toMessage)
    rw [repaired, estimateTokens_append, estimateTokens_cons]
    omega

/-- Either the messages that are left fit, or all candidates have been dropped. -/
theorem dropLowest_fits_or (budget : ℕ) (todo kept : List Mounted) :
    estimateTokens (dropLowest budget todo kept) ≤ budget ∨
      dropLowest budget todo kept = kept.filter fun m => m.position ∉ todo.map Mounted.position := by
  induction todo generalizing kept with
  | nil =>
    right
    rw [dropLowest]
    simp
  | cons m rest ih =>
    rw [dropLowest]
    split
    · left
      assumption
    · rcases ih (kept.filter (·.position ≠ m.position)) with hfits | hall
      · exact .inl hfits
      · right
        rw [hall, List.filter_filter]
        apply List.filter_congr
        intro x _
        rw [Bool.eq_iff_iff]
        simp only [Bool.and_eq_true, decide_eq_true_eq, List.map_cons, List.mem_cons, not_or, ne_eq]
        exact and_comm

/-- What is left fits where the protected messages do. -/
theorem estimateTokens_selected_le {budget : ℕ} {messages : List Mounted} (h : Ordered messages)
    (hfits : estimateTokens (messages.filter (isProtectedIn messages)) ≤ budget) :
    estimateTokens (selected budget messages) ≤ budget := by
  rw [← dropLowest_candidates h]
  rcases dropLowest_fits_or budget (candidates messages) messages with hdropped | hall
  · exact hdropped
  · rw [hall]
    refine Nat.le_trans (Nat.le_of_eq ?_) hfits
    congr 1
    apply List.filter_congr
    intro m hm
    have hcandidate : m.position ∈ (candidates messages).map Mounted.position ↔
        isProtectedIn messages m = false := by
      constructor
      · intro hmem
        obtain ⟨x, hx, hposition⟩ := List.mem_map.mp hmem
        obtain ⟨hx, hnot⟩ := mem_candidates.mp hx
        rwa [← h.eq_of_position hx hm hposition]
      · intro hnot
        exact List.mem_map_of_mem (mem_candidates.mpr ⟨hm, hnot⟩)
    cases hprotected : isProtectedIn messages m <;> simp [hcandidate, hprotected]

theorem shrink_of_fits (project : String → ℕ → Option String) {budget : ℕ}
    {messages : List Mounted} (hfits : estimateTokens messages ≤ budget) :
    shrink project budget messages = messages := by
  have hclass (contextClass : String) (n : ℕ) :
      shrinkClass project budget contextClass n messages = messages := by
    cases n with
    | zero => rfl
    | succ n => rw [shrinkClass, if_pos hfits]
  unfold shrink
  induction shrinkOrder with
  | nil => rfl
  | cons c classes ih => rw [List.foldl_cons, hclass, ih]

/-! ## The output -/

section Output

variable {project : String → ℕ → Option String} {lower : String → String} {limits : Limits}
  {messages : List Message}

theorem annotateFrom_positions (lower : String → String) (position : ℕ) (messages : List Message) :
    (annotateFrom lower position messages).map Mounted.position =
      List.range' position messages.length := by
  induction messages generalizing position with
  | nil => rfl
  | cons m rest ih =>
    rw [annotateFrom, List.map_cons, ih, List.length_cons, List.range'_succ]

/-- The messages of the output are copies of some of the input, in its order. -/
theorem positions_of_trimForContext {out : List Mounted}
    (h : trimForContext project lower limits messages = some out) :
    List.Sublist (out.map Mounted.position) (List.range messages.length) := by
  obtain ⟨-, hshort⟩ := repairable_of_trimForContext h
  have hbudgeted := (applyClassBudgets_shortened project limits.percentages limits.classBase
    (annotateContextMessages lower messages)).positions
  have hunder := (underCeilings_sublist limits.percentages limits.classBase
    (annotateContextMessages lower messages)).map Mounted.position
  have hselected : List.Sublist
      ((selectedMessages project lower limits messages).map Mounted.position)
      ((budgeted project lower limits messages).map Mounted.position) :=
    List.filter_sublist.map Mounted.position
  have hrange : (annotateContextMessages lower messages).map Mounted.position =
      List.range messages.length := by
    rw [annotateContextMessages, annotateFrom_positions, List.range_eq_range']
  rw [hshort.positions]
  rw [budgeted, hbudgeted] at hselected
  exact ((repaired_positions false _).trans hselected).trans (hrange ▸ hunder)

/-- Where the protected messages that the class ceilings leave are within the budget, so is the
output; and its messages are in the order of the input. -/
theorem estimateTokens_le_of_trimForContext {out : List Mounted}
    (h : trimForContext project lower limits messages = some out) :
    (estimateTokens ((budgeted project lower limits messages).filter
        (isProtectedIn (budgeted project lower limits messages))) ≤ limits.budget →
      estimateTokens out ≤ limits.budget) ∧
    List.Sublist (out.map Mounted.position) (List.range messages.length) := by
  refine ⟨fun hfits => ?_, positions_of_trimForContext h⟩
  obtain ⟨hrepairable, -⟩ := repairable_of_trimForContext h
  have hselected : estimateTokens (selectedMessages project lower limits messages) ≤
      limits.budget :=
    estimateTokens_selected_le (ordered_budgeted project lower limits messages) hfits
  have hrepaired : estimateTokens
      (repaired false (selectedMessages project lower limits messages)) ≤ limits.budget :=
    Nat.le_trans (estimateTokens_repaired_le false _) hselected
  have hclean := (clean_repaired false (selectedMessages project lower limits messages)).sanitize
  have hout : out = repaired false (selectedMessages project lower limits messages) := by
    rw [trimForContext_eq, sanitizeToolMessages_eq hrepairable, Option.bind_some,
      shrink_of_fits project hrepaired, hclean] at h
    split at h
    · rename_i hbudgeted
      rw [← selectedMessages_of_fits project lower limits messages hbudgeted,
        sanitizeToolMessages_eq hrepairable] at h
      exact (Option.some.inj h).symm
    · exact (Option.some.inj h).symm
  rw [hout]
  exact hrepaired

end Output

/-- A request, its answer and the next request; 64 tokens hold two of them. -/
def threeTurns : List Message :=
  [{ systemMessage (String.ofList (List.replicate 90 'a')) plainMetadata with role := "system" },
    { systemMessage (String.ofList (List.replicate 90 'b')) plainMetadata with role := "assistant" },
    { systemMessage (String.ofList (List.replicate 70 'c')) plainMetadata with role := "user" }]

def smallLimits : Limits := { primerLimits with contextLength := 64, reserveTokens := 0 }

theorem estimateTokens_le_threeTurns : ∃ out,
    trimForContext (fun _ _ => none) id smallLimits threeTurns = some out ∧
      estimateTokens out ≤ smallLimits.budget := by
  have hfits : estimateTokens ((budgeted (fun _ _ => none) id smallLimits threeTurns).filter
      (isProtectedIn (budgeted (fun _ _ => none) id smallLimits threeTurns))) ≤
        smallLimits.budget := by
    decide +kernel
  cases hout : trimForContext (fun _ _ => none) id smallLimits threeTurns with
  | none =>
    have hruns : trimForContext (fun _ _ => none) id smallLimits threeTurns ≠ none := by
      decide +kernel
    exact absurd hout hruns
  | some out => exact ⟨out, rfl, (estimateTokens_le_of_trimForContext hout).1 hfits⟩

end Pandamonium.ContextCompactor
