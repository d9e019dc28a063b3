import Pandamonium.Analysis.ToolRepair

/-!
# Protected messages

`trim_for_context` exempts its protected messages from the dropping by priority only.  The
class ceilings come before and know nothing of protection, and the repair of the tool calls
comes after.  `keepsProtected_iff` says what they spare: every protected message is in the
output if and only if each is under its ceiling when its turn comes, and none of them is a
result without a batch or a call without a result and without a text.
-/

set_option autoImplicit false

namespace Pandamonium.ContextCompactor

open Pandamonium.Library

/-- The protected messages of a conversation: marked so, a research primer, of a protected
class, or of the last tool call with results. -/
def Protects (messages : List Mounted) (m : Mounted) : Prop :=
  m.isProtected = true ∨ m.metadata.researchSpinoffFrom = true ∨
    m.contextClass ∈ ["policy", "operator_intent", "presentation"] ∨
    (m.contextClass = "identity_policy" ∧ m.inferred = false) ∨
    (1 < (activeToolPair messages).length ∧ m.position ∈ activeToolPair messages)

/-- A copy of the message, its texts cut or its calls gone. -/
def Present (m : Mounted) (out : List Mounted) : Prop :=
  ∃ m' ∈ out, Shortened m m' ∨ Shortened { m with toolCalls := [] } m'

/-- The repair keeps a message where it stands. -/
def Survives (inBatch : Bool) (before : List Mounted) (m : Mounted) (after : List Mounted) :
    Prop :=
  (m.isTool = true → batchOpen inBatch before = true) ∧
    (dangling m after = true → hasText m.content = true)

instance (inBatch : Bool) (before : List Mounted) (m : Mounted) (after : List Mounted) :
    Decidable (Survives inBatch before m after) := by
  unfold Survives
  infer_instance

/-! ## What the repair keeps -/

theorem mem_repaired {inBatch : Bool} {messages : List Mounted} {x : Mounted}
    (hx : x ∈ repaired inBatch messages) :
    ∃ m ∈ messages, x = m ∨ x = { m with toolCalls := [] } := by
  induction messages generalizing inBatch with
  | nil => cases hx
  | cons m rest ih =>
    rcases List.mem_append.mp hx with hhead | hrest
    · refine ⟨m, List.mem_cons_self, ?_⟩
      rw [Option.mem_toList] at hhead
      unfold repairedMessage at hhead
      split at hhead
      · split at hhead
        · left
          simpa using hhead.symm
        · simp at hhead
      · split at hhead
        · split at hhead
          · right
            simpa using hhead.symm
          · simp at hhead
        · left
          simpa using hhead.symm
    · obtain ⟨m', hm', heq⟩ := ih hrest
      exact ⟨m', List.mem_cons_of_mem m hm', heq⟩

theorem repairedMessage_isSome (inBatch : Bool) (m : Mounted) (rest : List Mounted) :
    (repairedMessage inBatch m rest).isSome = true ↔ Survives inBatch [] m rest := by
  unfold repairedMessage Survives
  cases hm : m.isTool with
  | true =>
    have hd : dangling m rest = false := by
      simp only [dangling, isTool_not_callsTools hm, Bool.false_and]
    cases inBatch <;> simp [batchOpen, hd]
  | false => cases hd : dangling m rest <;> cases ht : hasText m.content <;> simp

variable {m : Mounted} {b a : List Mounted}

theorem repairedMessage_position {inBatch : Bool} {x : Mounted} {rest : List Mounted}
    (h : repairedMessage inBatch m rest = some x) : x.position = m.position := by
  unfold repairedMessage at h
  split at h
  · split at h
    · rw [← Option.some.inj h]
    · cases h
  · split at h
    · split at h
      · rw [← Option.some.inj h]
      · cases h
    · rw [← Option.some.inj h]

theorem repaired_positions (inBatch : Bool) (messages : List Mounted) :
    List.Sublist ((repaired inBatch messages).map Mounted.position)
      (messages.map Mounted.position) := by
  induction messages generalizing inBatch with
  | nil => exact List.Sublist.slnil
  | cons m rest ih =>
    have hrest := ih (stillOpen inBatch m.toMessage)
    cases hm : repairedMessage inBatch m rest with
    | none =>
      simp only [repaired, hm, Option.toList_none, List.nil_append, List.map_cons]
      exact hrest.cons m.position
    | some x =>
      simp only [repaired, hm, Option.toList_some, List.singleton_append, List.map_cons,
        repairedMessage_position hm]
      exact hrest.cons_cons m.position

/-- The repair keeps a message if and only if it survives where it stands. -/
theorem position_mem_repaired {inBatch : Bool} {messages : List Mounted} (h : Ordered messages)
    (hm : m ∈ messages) :
    m.position ∈ (repaired inBatch messages).map Mounted.position ↔
      AtPlace (fun before after => Survives inBatch before m after) m messages := by
  induction messages generalizing inBatch with
  | nil => cases hm
  | cons x rest ih =>
    obtain ⟨hx, hrest⟩ := List.pairwise_cons.mp h
    have hsub := repaired_positions (stillOpen inBatch x.toMessage) rest
    simp only [repaired, List.map_append, List.mem_append]
    by_cases hmx : m = x
    · subst hmx
      have hnot : m ∉ rest := fun hmem => Nat.lt_irrefl _ (hx m hmem)
      have hgone : m.position ∉
          (repaired (stillOpen inBatch m.toMessage) rest).map Mounted.position := by
        intro hmem
        obtain ⟨m', hm', hpos⟩ := List.mem_map.mp (hsub.subset hmem)
        have hlt := hx m' hm'
        omega
      rw [atPlace_cons_self hnot, ← repairedMessage_isSome, or_iff_left hgone]
      cases hhead : repairedMessage inBatch m rest with
      | none => simp
      | some y => simp [repairedMessage_position hhead]
    · have hmem : m ∈ rest := by
        rcases List.mem_cons.mp hm with heq | hmem
        · exact absurd heq hmx
        · exact hmem
      have hhead : m.position ∉
          (repairedMessage inBatch x rest).toList.map Mounted.position := by
        intro hpos
        obtain ⟨y, hy, heq⟩ := List.mem_map.mp hpos
        rw [Option.mem_toList] at hy
        have hxpos := repairedMessage_position hy
        have hlt := hx m hmem
        omega
      rw [or_iff_right hhead, ih hrest hmem, atPlace_cons_of_ne hmx]
      rfl

/-- What survives is there, with its calls or without them. -/
theorem present_repaired {messages : List Mounted} (h : Ordered messages) (hm : m ∈ messages)
    (hplace : AtPlace (fun before after => Survives false before m after) m messages) :
    Present m (repaired false messages) := by
  have hpos := (position_mem_repaired h hm).mpr hplace
  obtain ⟨x, hx, hxpos⟩ := List.mem_map.mp hpos
  obtain ⟨m', hm', heq⟩ := mem_repaired hx
  have hsame : m' = m := by
    apply h.eq_of_position hm' hm
    rcases heq with rfl | rfl
    · exact hxpos
    · exact hxpos
  subst hsame
  refine ⟨x, hx, ?_⟩
  rcases heq with rfl | rfl
  · exact Or.inl (Shortened.refl _)
  · exact Or.inr (Shortened.refl _)

/-! ## The active tool pair -/

theorem any_callsTools_of_mem_activeToolPair {messages : List Mounted} {p : ℕ}
    (h : p ∈ activeToolPair messages) : messages.any (·.callsTools) = true := by
  cases messages with
  | nil => cases h
  | cons m rest =>
    rw [activeToolPair] at h
    rw [List.any_cons]
    split at h
    · rename_i hany
      rw [hany, Bool.or_true]
    · split at h
      · rename_i hm
        rw [hm, Bool.true_or]
      · cases h

theorem any_callsTools_sublist (h : List.Sublist a b) (hb : b.any (·.callsTools) = false) :
    a.any (·.callsTools) = false := by
  rw [List.any_eq_false] at hb ⊢
  intro m hm
  exact hb m (h.subset hm)

/-- A run that nothing is taken from stays a run. -/
theorem mem_run_of_sublist (hab : List.Sublist a b) (h : Ordered b)
    (hkept : ∀ m ∈ b.takeWhile (·.isTool), m ∈ a) :
    ∀ m ∈ b.takeWhile (·.isTool), m ∈ a.takeWhile (·.isTool) := by
  induction hab with
  | slnil => exact fun m hm => hm
  | cons x hsub ih =>
    obtain ⟨hx, hrest⟩ := List.pairwise_cons.mp h
    cases htool : x.isTool with
    | false =>
      intro m hm
      simp [htool] at hm
    | true =>
      have hmem := hsub.subset (hkept x (by simp [htool]))
      exact absurd (hx x hmem) (Nat.lt_irrefl _)
  | cons_cons x hsub ih =>
    obtain ⟨hx, hrest⟩ := List.pairwise_cons.mp h
    cases htool : x.isTool with
    | false =>
      intro m hm
      simp [htool] at hm
    | true =>
      simp only [List.takeWhile_cons, htool, if_true] at hkept ⊢
      have hkept' := fun m hm => List.mem_of_ne_of_mem
        (fun heq => Nat.lt_irrefl _ (heq ▸ hx m ((List.takeWhile_sublist _).subset hm)))
        (hkept m (List.mem_cons_of_mem x hm))
      intro m hm
      rcases List.mem_cons.mp hm with rfl | hm
      · exact List.mem_cons_self
      · exact List.mem_cons_of_mem x (ih hrest hkept' m hm)

/-- The active pair stays active while none of it is taken. -/
theorem activeToolPair_of_sublist (hab : List.Sublist a b) (h : Ordered b)
    (hkept : ∀ m ∈ b, m.position ∈ activeToolPair b → m ∈ a) :
    ∀ p ∈ activeToolPair b, p ∈ activeToolPair a := by
  induction hab with
  | slnil => exact fun p hp => hp
  | @cons a b x hsub ih =>
    obtain ⟨hx, hrest⟩ := List.pairwise_cons.mp h
    rw [activeToolPair] at hkept ⊢
    split at hkept
    · rename_i hany
      rw [if_pos hany]
      exact ih hrest fun m hm hp => hkept m (List.mem_cons_of_mem x hm) hp
    · rename_i hany
      rw [if_neg hany]
      split at hkept
      · have hmem := hsub.subset (hkept x List.mem_cons_self (by simp))
        exact absurd (hx x hmem) (Nat.lt_irrefl _)
      · rename_i hcalls
        rw [if_neg hcalls]
        intro p hp
        cases hp
  | @cons_cons a b x hsub ih =>
    obtain ⟨hx, hrest⟩ := List.pairwise_cons.mp h
    have htail : ∀ m ∈ b, m ∈ x :: a → m ∈ a := by
      intro m hm hma
      refine List.mem_of_ne_of_mem ?_ hma
      rintro rfl
      exact absurd (hx m hm) (Nat.lt_irrefl _)
    rw [activeToolPair] at hkept ⊢
    split at hkept
    · rename_i hany
      rw [if_pos hany]
      intro p hp
      have hpa := ih hrest
        (fun m hm hpm => htail m hm (hkept m (List.mem_cons_of_mem x hm) hpm)) p hp
      rw [activeToolPair, if_pos (any_callsTools_of_mem_activeToolPair hpa)]
      exact hpa
    · rename_i hany
      rw [if_neg hany]
      have hanya := any_callsTools_sublist hsub (Bool.not_eq_true _ ▸ hany)
      split at hkept
      · rename_i hcalls
        rw [if_pos hcalls, activeToolPair, if_neg (by rw [hanya]; decide), if_pos hcalls]
        have hrun := mem_run_of_sublist hsub hrest fun m hm => by
          have hmb := (List.takeWhile_sublist _).subset hm
          refine htail m hmb (hkept m (List.mem_cons_of_mem x hmb) ?_)
          exact List.mem_cons_of_mem _ (List.mem_map_of_mem hm)
        intro p hp
        rcases List.mem_cons.mp hp with rfl | hp
        · exact List.mem_cons_self
        · obtain ⟨m, hm, rfl⟩ := List.mem_map.mp hp
          exact List.mem_cons_of_mem _ (List.mem_map_of_mem (hrun m hm))
      · rename_i hcalls
        rw [if_neg hcalls]
        intro p hp
        cases hp

theorem AllShortened.any_callsTools (h : AllShortened a b) :
    b.any (·.callsTools) = a.any (·.callsTools) := by
  induction h with
  | nil => rfl
  | cons hx _ ih => rw [List.any_cons, List.any_cons, hx.callsTools, ih]

theorem AllShortened.run (h : AllShortened a b) :
    AllShortened (a.takeWhile (·.isTool)) (b.takeWhile (·.isTool)) := by
  induction h with
  | nil => exact List.Forall₂.nil
  | cons hx hrest ih =>
    rw [List.takeWhile_cons, List.takeWhile_cons, hx.isTool]
    split
    · exact List.Forall₂.cons hx ih
    · exact List.Forall₂.nil

theorem AllShortened.activeToolPair (h : AllShortened a b) :
    activeToolPair b = activeToolPair a := by
  induction h with
  | nil => rfl
  | cons hx hrest ih =>
    rw [ContextCompactor.activeToolPair, ContextCompactor.activeToolPair,
      AllShortened.any_callsTools hrest, hx.callsTools, hx.position, ih,
      (AllShortened.run hrest).positions]

theorem AllShortened.exists_of_mem (h : AllShortened a b) (hm : m ∈ a) :
    ∃ m' ∈ b, Shortened m m' := by
  induction h with
  | nil => cases hm
  | cons hx _ ih =>
    rcases List.mem_cons.mp hm with rfl | hm
    · exact ⟨_, List.mem_cons_self, hx⟩
    · obtain ⟨m', hm', hshort⟩ := ih hm
      exact ⟨m', List.mem_cons_of_mem _ hm', hshort⟩

/-! ## Protected messages in the output -/

section Output

variable (project : String → ℕ → Option String) (lower : String → String) (limits : Limits)
  (messages : List Message)

/-- The trimming returns, in the order of the conversation, and every protected message is
there. -/
def KeepsProtected : Prop :=
  ∃ out, trimForContext project lower limits messages = some out ∧ Ordered out ∧
    ∀ m ∈ annotateContextMessages lower messages,
      Protects (annotateContextMessages lower messages) m → Present m out

/-- Every protected message is under its class ceiling when its turn comes, and survives the
repair among the messages selected; and the repair does not fail. -/
def SparesProtected : Prop :=
  Repairable (selectedMessages project lower limits messages) ∧
    ∀ m ∈ annotateContextMessages lower messages,
      Protects (annotateContextMessages lower messages) m →
      AtPlace (fun _ newer => UnderCeiling limits.percentages limits.classBase m newer) m
        (annotateContextMessages lower messages) ∧
      ∀ m' ∈ selectedMessages project lower limits messages, m'.position = m.position →
        AtPlace (fun before after => Survives false before m' after) m'
          (selectedMessages project lower limits messages)

variable {project lower limits messages}

/-- A shortened message that the conversation protects is exempt from the dropping, when the
ceilings spare every protected message. -/
theorem isProtectedIn_of_protects {annotated kept : List Mounted} (h : Ordered annotated)
    (hsub : List.Sublist kept annotated) {budgeted : List Mounted}
    (hshort : AllShortened kept budgeted)
    (hspared : ∀ m ∈ annotated, Protects annotated m → m ∈ kept) {m' : Mounted}
    (hm : Protects annotated m) (hmm' : Shortened m m') :
    isProtectedIn budgeted m' = true := by
  simp only [isProtectedIn, decide_eq_true_eq]
  rw [hmm'.contextClass, hmm'.inferred, hmm'.isProtected, hmm'.metadata, hmm'.position,
    AllShortened.activeToolPair hshort]
  rcases hm with hm | hm | hm | ⟨hclass, hinferred⟩ | ⟨hpair, hpos⟩
  · simp [hm]
  · simp [hm]
  · exact Or.inr (Or.inl hm)
  · exact Or.inr (Or.inr (Or.inl ⟨hclass, Or.inl hinferred⟩))
  · left
    apply activeToolPair_of_sublist hsub h _ _ hpos
    intro x hx hxpos
    exact hspared x hx (Or.inr (Or.inr (Or.inr (Or.inr ⟨hpair, hxpos⟩))))

/-- What is shortened after it is there is still there. -/
theorem Present.shortened {m' : Mounted} {kept out : List Mounted} (h : Present m' kept)
    (hm : Shortened m m') (hout : AllShortened kept out) : Present m out := by
  obtain ⟨x, hx, hcopy⟩ := h
  obtain ⟨y, hy, hxy⟩ := AllShortened.exists_of_mem hout hx
  refine ⟨y, hy, ?_⟩
  rcases hcopy with hcopy | hcopy
  · exact Or.inl ((hm.trans hcopy).trans hxy)
  · right
    have hstrip : Shortened { m with toolCalls := [] } { m' with toolCalls := [] } :=
      ⟨hm.position, hm.role, hm.content, rfl, hm.toolCallId, hm.metadata, hm.isProtected⟩
    exact (hstrip.trans hcopy).trans hxy

theorem Present.position_mem {out : List Mounted} (h : Present m out) :
    m.position ∈ out.map Mounted.position := by
  obtain ⟨x, hx, hcopy⟩ := h
  rcases hcopy with hcopy | hcopy
  · exact List.mem_map.mpr ⟨x, hx, hcopy.position⟩
  · exact List.mem_map.mpr ⟨x, hx, hcopy.position⟩

/-- The protected messages are all kept, in order, if and only if the ceilings and the repair
spare them. -/
theorem keepsProtected_iff :
    KeepsProtected project lower limits messages ↔
      SparesProtected project lower limits messages := by
  have hA : Ordered (annotateContextMessages lower messages) := ordered_annotateFrom lower 0 messages
  have hsub := underCeilings_sublist limits.percentages limits.classBase
    (annotateContextMessages lower messages)
  have hbudgeted : AllShortened _ (budgeted project lower limits messages) :=
    applyClassBudgets_shortened project limits.percentages limits.classBase
      (annotateContextMessages lower messages)
  have hL := ordered_selectedMessages project lower limits messages
  have hRL : List.Sublist (selectedMessages project lower limits messages)
      (budgeted project lower limits messages) := List.filter_sublist
  constructor
  · rintro ⟨out, hout, _, hkeeps⟩
    obtain ⟨hrep, hshort⟩ := repairable_of_trimForContext hout
    refine ⟨hrep, ?_⟩
    intro m hm hprot
    have hpos := (hkeeps m hm hprot).position_mem
    rw [hshort.positions] at hpos
    constructor
    · -- a position in the output is one of what the ceilings leave
      have hposR := (hRL.map Mounted.position).subset ((repaired_positions _ _).subset hpos)
      rw [hbudgeted.positions] at hposR
      obtain ⟨x, hx, hxpos⟩ := List.mem_map.mp hposR
      have hxm := hA.eq_of_position (hsub.subset hx) hm hxpos
      rw [← mem_underCeilings _ _ hA hm, ← hxm]
      exact hx
    · intro m' hm' hpos'
      rw [← hpos'] at hpos
      exact (position_mem_repaired hL hm').mp hpos
  · rintro ⟨hrep, hspares⟩
    obtain ⟨out, hout, hshort⟩ := trimForContext_of_repairable hrep
    have hordered : Ordered out := by
      refine AllShortened.ordered hshort ?_
      rw [ordered_iff_positions] at hL ⊢
      exact hL.sublist (repaired_positions _ _)
    refine ⟨out, hout, hordered, ?_⟩
    have hkept : ∀ m ∈ annotateContextMessages lower messages,
        Protects (annotateContextMessages lower messages) m →
        m ∈ underCeilings limits.percentages limits.classBase
          (annotateContextMessages lower messages) := by
      intro m hm hprot
      exact (mem_underCeilings _ _ hA hm).mpr (hspares m hm hprot).1
    intro m hm hprot
    obtain ⟨m', hm', hmm'⟩ := AllShortened.exists_of_mem hbudgeted (hkept m hm hprot)
    have hprot' := isProtectedIn_of_protects hA hsub hbudgeted hkept hprot hmm'
    have hsel : m' ∈ selectedMessages project lower limits messages := by
      refine List.mem_filter.mpr ⟨hm', ?_⟩
      rw [outlives, hprot', Bool.true_or]
    have hpresent := present_repaired hL hsel ((hspares m hm hprot).2 m' hsel hmm'.position)
    exact hpresent.shortened hmm' hshort

end Output

/-! A research primer with retrieved knowledge behind it.  The newer source takes 61 of the 64
tokens the class has, so the ceiling drops the primer, though the two of them are far within
the budget of 256 tokens. -/

def plainMetadata : Metadata :=
  { josContext := none, source := "", untrusted := false, researchSpinoffFrom := false,
    compacted := false }

def systemMessage (text : String) (metadata : Metadata) : Message :=
  { role := "system", content := .text text, toolCalls := [], toolCallId := "",
    metadata := metadata, isProtected := false }

/-- The research primer and a retrieved source. -/
def primerConversation : List Message :=
  [systemMessage "=== REPORT ===" { plainMetadata with researchSpinoffFrom := true },
    systemMessage (String.ofList (List.replicate 190 'r'))
      { plainMetadata with source := "web", untrusted := true }]

def primerLimits : Limits :=
  { contextLength := 512, reserveTokens := 256, classBudgetBase := none,
    percentages := defaultClassBudgetPercent }

theorem tokens_replicate {n : ℕ} (htext : m.content = .text (String.ofList (List.replicate n 'r')))
    (hcalls : m.toolCalls = []) :
    m.tokens = 4 + n * 3 / 10 := by
  simp [Message.tokens, htext, hcalls, Content.tokens, textTokens]

/-- Of two messages of a class, the newer takes so much that the older is neither kept nor cut. -/
theorem applyClassBudgets_pair {project : String → ℕ → Option String}
    {percentages : List (String × ℕ)} {classBase percent : ℕ} {older newer : Mounted} {c : String}
    (holder : older.contextClass = c) (hnewer : newer.contextClass = c)
    (hpercent : percentages.lookup c = some percent)
    (hfits : newer.tokens ≤ classCeiling classBase percent)
    (hover : classCeiling classBase percent < newer.tokens + older.tokens)
    (hleft : classCeiling classBase percent < newer.tokens + 64) :
    (applyClassBudgets project percentages classBase [older, newer]).2 = [newer] := by
  have hpast : ¬ older.tokens ≤ classCeiling classBase percent - newer.tokens := by omega
  have hlow : ¬ 64 ≤ classCeiling classBase percent - newer.tokens := by omega
  simp [applyClassBudgets, holder, hnewer, hpercent, hfits, hpast, hlow]

/-- The primer is not in the output. -/
theorem not_keepsProtected_primer :
    ¬ KeepsProtected (fun _ _ => none) id primerLimits primerConversation := by
  rintro ⟨out, hout, _, hkeeps⟩
  obtain ⟨primer, source, hannotated, hprimer, hclass, hspinoff, hpos, hsource, hclass', hpos'⟩ :
      ∃ primer source, annotateContextMessages id primerConversation = [primer, source] ∧
        primer.tokens = 8 ∧ primer.contextClass = "retrieved_knowledge" ∧
        primer.metadata.researchSpinoffFrom = true ∧ primer.position = 0 ∧
        source.tokens = 61 ∧ source.contextClass = "retrieved_knowledge" ∧ source.position = 1 :=
    ⟨_, _, rfl, by decide +kernel, rfl, rfl, rfl, tokens_replicate (n := 190) rfl rfl, rfl, rfl⟩
  have hceiling : classCeiling primerLimits.classBase 25 = 64 := by decide
  have hbudgeted : budgeted (fun _ _ => none) id primerLimits primerConversation = [source] := by
    rw [budgeted, hannotated]
    exact applyClassBudgets_pair hclass hclass'
      (show primerLimits.percentages.lookup "retrieved_knowledge" = some 25 from rfl)
      (by omega) (by omega) (by omega)
  have hpresent := (hkeeps primer (by rw [hannotated]; exact List.mem_cons_self)
    (Or.inr (Or.inl hspinoff))).position_mem
  rw [(repairable_of_trimForContext hout).2.positions] at hpresent
  have hkept := (List.filter_sublist.map Mounted.position).subset
    ((repaired_positions _ _).subset hpresent)
  rw [hbudgeted, List.map_singleton, List.mem_singleton, hpos, hpos'] at hkept
  cases hkept

end Pandamonium.ContextCompactor
