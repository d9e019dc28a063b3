import Pandamonium.Library.Splits
import Pandamonium.Model.ContextCompactor

/-!
# What is left of a conversation

The passes of `trim_for_context` in closed form.  A message is under its class ceiling or
not, which depends on the newer messages of its class only (`UnderCeiling`); it outlives the
dropping by priority or not, which depends on the token total of what is not dropped before
it (`outlives`).  The ceilings only shorten the texts of the messages they keep (`Shortened`).

The repair of the tool calls, and the passes put together, are in `Analysis.ToolRepair`.
-/

set_option autoImplicit false

namespace Pandamonium.ContextCompactor

open Pandamonium.Library

/-- The positions go up. -/
def Ordered (messages : List Mounted) : Prop :=
  messages.Pairwise fun a b => a.position < b.position

theorem annotateFrom_position (lower : String → String) (position : ℕ) (messages : List Message) :
    ∀ m ∈ annotateFrom lower position messages, position ≤ m.position := by
  induction messages generalizing position with
  | nil => simp [annotateFrom]
  | cons m rest ih =>
    intro m' hm'
    rcases List.mem_cons.mp hm' with rfl | hm'
    · exact Nat.le_refl _
    · exact Nat.le_of_succ_le (ih (position + 1) m' hm')

theorem ordered_annotateFrom (lower : String → String) (position : ℕ) (messages : List Message) :
    Ordered (annotateFrom lower position messages) := by
  induction messages generalizing position with
  | nil => exact List.Pairwise.nil
  | cons m rest ih =>
    refine List.Pairwise.cons ?_ (ih (position + 1))
    intro m' hm'
    exact annotateFrom_position lower (position + 1) rest m' hm'

variable {messages : List Mounted}

theorem Ordered.eq_of_position (h : Ordered messages) {a b : Mounted} (ha : a ∈ messages)
    (hb : b ∈ messages) (hab : a.position = b.position) : a = b := by
  induction messages with
  | nil => cases ha
  | cons m rest ih =>
    obtain ⟨hm, hrest⟩ := List.pairwise_cons.mp h
    rcases List.mem_cons.mp ha with rfl | ha'
    · rcases List.mem_cons.mp hb with rfl | hb'
      · rfl
      · have hlt := hm b hb'
        omega
    · rcases List.mem_cons.mp hb with rfl | hb'
      · have hlt := hm a ha'
        omega
      · exact ih hrest ha' hb'

/-! ## Shortened messages -/

/-- The parts of a content that are not its texts. -/
def Content.frame : Content → Option (Option (List Bool))
  | .none => Option.none
  | .text _ => some Option.none
  | .blocks items => some (some (items.map fun
    | .text _ => true
    | .other => false))

/-- The same message, with texts and arguments of calls cut. -/
structure Shortened (m m' : Mounted) : Prop where
  position : m'.position = m.position
  role : m'.role = m.role
  content : m'.content.frame = m.content.frame
  calls : (m'.toolCalls.map fun call => (call.id, call.name)) =
    m.toolCalls.map fun call => (call.id, call.name)
  toolCallId : m'.toolCallId = m.toolCallId
  metadata : m'.metadata = m.metadata
  isProtected : m'.isProtected = m.isProtected

theorem Shortened.refl (m : Mounted) : Shortened m m := ⟨rfl, rfl, rfl, rfl, rfl, rfl, rfl⟩

theorem Shortened.trans {a b c : Mounted} (h : Shortened a b) (h' : Shortened b c) :
    Shortened a c :=
  ⟨h'.position.trans h.position, h'.role.trans h.role, h'.content.trans h.content,
    h'.calls.trans h.calls, h'.toolCallId.trans h.toolCallId, h'.metadata.trans h.metadata,
    h'.isProtected.trans h.isProtected⟩

variable {m m' : Mounted}

theorem Shortened.isEmpty (h : Shortened m m') :
    m'.toolCalls.isEmpty = m.toolCalls.isEmpty := by
  have hlen := congrArg List.length h.calls
  simp only [List.length_map] at hlen
  cases hm : m.toolCalls <;> cases hm' : m'.toolCalls <;> simp_all

theorem Shortened.callsTools (h : Shortened m m') :
    m'.callsTools = m.callsTools := by
  simp only [Message.callsTools, h.role, h.isEmpty]

theorem Shortened.isTool (h : Shortened m m') : m'.isTool = m.isTool := by
  simp only [Message.isTool, h.role]

theorem Shortened.contextClass (h : Shortened m m') :
    m'.contextClass = m.contextClass := by
  simp only [Message.contextClass, h.metadata]

theorem Shortened.inferred (h : Shortened m m') : m'.inferred = m.inferred := by
  simp only [Message.inferred, h.metadata]

theorem truncateBlocks_frame (remaining : ℕ) (items : List Block) :
    (Content.blocks (truncateBlocks remaining items)).frame = (Content.blocks items).frame := by
  simp only [Content.frame, Option.some.injEq]
  induction items generalizing remaining with
  | nil => rfl
  | cons item items ih =>
    cases item with
    | other => simp only [truncateBlocks, List.map_cons, ih]
    | text s => simp only [truncateBlocks, List.map_cons, ih]

theorem truncateToolCallArgs_calls (m : Message) (tokenBudget : ℕ) :
    ((truncateToolCallArgs m tokenBudget).toolCalls.map fun call => (call.id, call.name)) =
      m.toolCalls.map fun call => (call.id, call.name) := by
  simp only [truncateToolCallArgs, List.map_map]
  apply List.map_congr_left
  intro call _
  simp only [Function.comp]
  cases call.arguments with
  | printed s => rfl
  | text s =>
    simp only
    split <;> rfl

theorem truncateContent_frame (project : String → ℕ → Option String) (tokenBudget : ℕ)
    (content : Content) : (truncateContent project tokenBudget content).frame = content.frame := by
  cases content with
  | none => rfl
  | text s => simp only [truncateContent, Content.frame]
  | blocks items => exact truncateBlocks_frame tokenBudget items

theorem noticeContent_frame (content : Content) : (noticeContent content).frame = content.frame := by
  cases content with
  | none => rfl
  | text s => simp only [noticeContent, Content.frame]
  | blocks items => rfl

/-- `_truncate_context_message` touches the texts only. -/
theorem truncateContextMessage_shortened (project : String → ℕ → Option String) (m : Mounted)
    (tokenBudget : ℕ) (notice : Bool) :
    Shortened m (truncateContextMessage project m tokenBudget notice) := by
  have hcontent := truncateContent_frame project tokenBudget m.content
  have hnotice : ∀ c : Content, (if notice then noticeContent c else c).frame = c.frame := by
    intro c
    cases notice with
    | false => rfl
    | true => exact noticeContent_frame c
  unfold truncateContextMessage truncateMessageToTokenBudget
  simp only
  split
  · exact ⟨rfl, rfl, (hnotice _).trans hcontent, rfl, rfl, rfl, rfl⟩
  · exact ⟨rfl, rfl, (hnotice _).trans hcontent, truncateToolCallArgs_calls _ _, rfl, rfl, rfl⟩

/-- A list of messages, each shortened. -/
abbrev AllShortened (messages messages' : List Mounted) : Prop :=
  List.Forall₂ Shortened messages messages'

theorem AllShortened.refl (messages : List Mounted) : AllShortened messages messages := by
  induction messages with
  | nil => exact List.Forall₂.nil
  | cons m rest ih => exact List.Forall₂.cons (Shortened.refl m) ih

theorem AllShortened.trans {a b c : List Mounted} (h : AllShortened a b) (h' : AllShortened b c) :
    AllShortened a c := by
  induction h generalizing c with
  | nil =>
    cases h'
    exact List.Forall₂.nil
  | cons hx _ ih =>
    cases h' with
    | cons hy hrest => exact List.Forall₂.cons (hx.trans hy) (ih hrest)

theorem AllShortened.positions {a b : List Mounted} (h : AllShortened a b) :
    b.map Mounted.position = a.map Mounted.position := by
  induction h with
  | nil => rfl
  | cons hx _ ih => rw [List.map_cons, List.map_cons, hx.position, ih]

theorem ordered_iff_positions (messages : List Mounted) :
    Ordered messages ↔ (messages.map Mounted.position).Pairwise (· < ·) := by
  rw [List.pairwise_map]
  rfl

theorem AllShortened.ordered {a b : List Mounted} (h : AllShortened a b) (ha : Ordered a) :
    Ordered b := by
  rw [ordered_iff_positions] at ha ⊢
  rw [h.positions]
  exact ha

/-! ## Class ceilings -/

/-- What the newer messages of a class leave of its ceiling: a message that does not fit takes
what is left, unless that is under 64 tokens. -/
def ceilingLeft (percentages : List (String × ℕ)) (classBase : ℕ) : List Mounted → String → ℕ
  | [], c => classCeiling classBase ((percentages.lookup c).getD 0)
  | m :: newer, c =>
    let left := ceilingLeft percentages classBase newer c
    if m.contextClass ≠ c then left
    else if m.tokens ≤ left then left - m.tokens
    else if 64 ≤ left then 0
    else left

/-- The class of a message has no ceiling, or there is room under it, for the whole message or
for 64 tokens of it. -/
def UnderCeiling (percentages : List (String × ℕ)) (classBase : ℕ) (m : Mounted)
    (newer : List Mounted) : Prop :=
  percentages.lookup m.contextClass = none ∨
    m.tokens ≤ ceilingLeft percentages classBase newer m.contextClass ∨
    64 ≤ ceilingLeft percentages classBase newer m.contextClass

instance (percentages : List (String × ℕ)) (classBase : ℕ) (m : Mounted) (newer : List Mounted) :
    Decidable (UnderCeiling percentages classBase m newer) := by
  unfold UnderCeiling
  infer_instance

/-- The messages their ceilings leave. -/
def underCeilings (percentages : List (String × ℕ)) (classBase : ℕ) : List Mounted → List Mounted
  | [] => []
  | m :: newer =>
    if UnderCeiling percentages classBase m newer then
      m :: underCeilings percentages classBase newer
    else underCeilings percentages classBase newer

section Ceilings

variable (project : String → ℕ → Option String) (percentages : List (String × ℕ)) (classBase : ℕ)

/-- The running remainders are what the newer messages leave. -/
theorem applyClassBudgets_left (messages : List Mounted) (c : String)
    (hc : (percentages.lookup c).isNone = false) :
    (applyClassBudgets project percentages classBase messages).1 c =
      ceilingLeft percentages classBase messages c := by
  induction messages with
  | nil => rfl
  | cons m newer ih =>
    simp only [applyClassBudgets, ceilingLeft]
    by_cases hclass : m.contextClass = c
    · subst hclass
      simp only [hc, Bool.false_eq_true, if_false, ne_eq, not_true_eq_false, ← ih]
      split
      · simp
      · split <;> simp
    · have hne : c ≠ m.contextClass := fun heq => hclass heq.symm
      simp only [ne_eq, hclass, not_false_eq_true, if_true, ← ih]
      split
      · rfl
      · split
        · simp [hne]
        · split
          · simp [hne]
          · rfl

theorem applyClassBudgets_shortened (messages : List Mounted) :
    AllShortened (underCeilings percentages classBase messages)
      (applyClassBudgets project percentages classBase messages).2 := by
  induction messages with
  | nil => exact List.Forall₂.nil
  | cons m newer ih =>
    simp only [applyClassBudgets, underCeilings]
    cases hnone : (percentages.lookup m.contextClass).isNone with
    | true =>
      have hunder : UnderCeiling percentages classBase m newer :=
        Or.inl (Option.isNone_iff_eq_none.mp hnone)
      rw [if_pos hunder, if_pos rfl]
      exact List.Forall₂.cons (Shortened.refl m) ih
    | false =>
      have hleft := applyClassBudgets_left project percentages classBase newer m.contextClass hnone
      have hbudgeted : percentages.lookup m.contextClass ≠ none := by
        intro heq
        rw [heq] at hnone
        cases hnone
      simp only [hleft, Bool.false_eq_true, if_false]
      by_cases hfits : m.tokens ≤ ceilingLeft percentages classBase newer m.contextClass
      · have hunder : UnderCeiling percentages classBase m newer := Or.inr (Or.inl hfits)
        rw [if_pos hunder, if_pos hfits]
        exact List.Forall₂.cons (Shortened.refl m) ih
      · rw [if_neg hfits]
        by_cases hroom : 64 ≤ ceilingLeft percentages classBase newer m.contextClass
        · have hunder : UnderCeiling percentages classBase m newer := Or.inr (Or.inr hroom)
          rw [if_pos hunder, if_pos hroom]
          exact List.Forall₂.cons (truncateContextMessage_shortened project m _ true) ih
        · have hover : ¬ UnderCeiling percentages classBase m newer := by
            rintro (h | h | h)
            · exact hbudgeted h
            · exact hfits h
            · exact hroom h
          rw [if_neg hover, if_neg hroom]
          exact ih

theorem underCeilings_sublist (messages : List Mounted) :
    List.Sublist (underCeilings percentages classBase messages) messages := by
  induction messages with
  | nil => exact List.Sublist.slnil
  | cons m newer ih =>
    simp only [underCeilings]
    split
    · exact ih.cons_cons m
    · exact ih.cons m

theorem Ordered.underCeilings (h : Ordered messages) :
    Ordered (underCeilings percentages classBase messages) :=
  h.sublist (underCeilings_sublist percentages classBase messages)

/-- A message is left if and only if it is under its ceiling. -/
theorem mem_underCeilings (h : Ordered messages) (hm : m ∈ messages) :
    m ∈ underCeilings percentages classBase messages ↔
      AtPlace (fun _ newer => UnderCeiling percentages classBase m newer) m messages := by
  induction messages with
  | nil => cases hm
  | cons x rest ih =>
    obtain ⟨hx, hrest⟩ := List.pairwise_cons.mp h
    have hsub := underCeilings_sublist percentages classBase rest
    by_cases hxm : m = x
    · subst hxm
      have hnot : m ∉ rest := fun hmem => Nat.lt_irrefl _ (hx m hmem)
      rw [atPlace_cons_self hnot]
      simp only [underCeilings]
      split
      · rename_i hunder
        simp [hunder]
      · rename_i hover
        constructor
        · intro hmem
          exact absurd (hsub.subset hmem) hnot
        · intro hunder
          exact absurd hunder hover
    · have hmem : m ∈ rest := by
        rcases List.mem_cons.mp hm with heq | hmem
        · exact absurd heq hxm
        · exact hmem
      rw [atPlace_cons_of_ne hxm, ← ih hrest hmem]
      simp only [underCeilings]
      split
      · rw [List.mem_cons]
        exact or_iff_right hxm
      · rfl

end Ceilings

/-! ## Dropping by priority -/

/-- `a` comes before `b` in the order in which candidates are dropped. -/
def dropsBefore (a b : Mounted) : Bool :=
  dropPriority a.contextClass < dropPriority b.contextClass ||
    (dropPriority a.contextClass = dropPriority b.contextClass && a.position < b.position)

/-- A message is protected, or everything that is not dropped before it fits. -/
def outlives (budget : ℕ) (messages : List Mounted) (m : Mounted) : Bool :=
  isProtectedIn messages m ||
    estimateTokens (messages.filter fun x => isProtectedIn messages x || !dropsBefore x m) ≤ budget

theorem estimateTokens_sublist {a b : List Mounted} (h : List.Sublist a b) :
    estimateTokens a ≤ estimateTokens b := by
  unfold estimateTokens
  induction h with
  | slnil => exact Nat.le_refl _
  | cons x _ ih =>
    simp only [List.map_cons, List.sum_cons]
    omega
  | cons_cons x _ ih =>
    simp only [List.map_cons, List.sum_cons]
    omega

theorem keyLe_trans (a b c : Mounted) (hab : keyLe a b = true) (hbc : keyLe b c = true) :
    keyLe a c = true := by
  simp only [keyLe, Bool.or_eq_true, Bool.and_eq_true, decide_eq_true_eq] at hab hbc ⊢
  omega

theorem keyLe_total (a b : Mounted) : (keyLe a b || keyLe b a) = true := by
  simp only [keyLe, Bool.or_eq_true, Bool.and_eq_true, decide_eq_true_eq]
  omega

theorem mem_candidates :
    m ∈ candidates messages ↔ m ∈ messages ∧ isProtectedIn messages m = false := by
  simp [candidates, List.mem_filter]

/-- The candidates are dropped one after the other. -/
theorem candidates_pairwise (h : Ordered messages) :
    (candidates messages).Pairwise fun a b => dropsBefore a b = true := by
  have hsorted := List.pairwise_mergeSort keyLe_trans keyLe_total
    (messages.filter fun m => !isProtectedIn messages m)
  have hdistinct : (candidates messages).Pairwise fun a b => a.position ≠ b.position := by
    have hperm := List.mergeSort_perm (messages.filter fun m => !isProtectedIn messages m) keyLe
    refine (hperm.pairwise_iff fun hab => hab.symm).mpr ?_
    refine List.Pairwise.imp ?_ (h.sublist List.filter_sublist)
    intro a b hab
    exact Nat.ne_of_lt hab
  refine List.Pairwise.imp₂ ?_ hsorted hdistinct
  intro a b hle hne
  simp only [keyLe, dropsBefore, Bool.or_eq_true, Bool.and_eq_true, decide_eq_true_eq] at hle ⊢
  omega

theorem dropsBefore_asymm {a b : Mounted} (h : dropsBefore a b = true) : dropsBefore b a = false := by
  simp only [dropsBefore, Bool.or_eq_true, Bool.and_eq_true, decide_eq_true_eq] at h
  simp only [dropsBefore, Bool.or_eq_false_iff, Bool.and_eq_false_iff, decide_eq_false_iff_not]
  omega

/-- The loop, when the candidates `done` have been dropped: the rest of them go up to the first
that outlives them. -/
theorem dropLowest_eq {budget : ℕ} {done : List Mounted} {todo : List Mounted}
    (h : Ordered messages) (hsplit : candidates messages = done ++ todo) :
    dropLowest budget todo (messages.filter fun x => x ∉ done) =
      messages.filter fun x => x ∉ done ∧ (x ∉ todo ∨ outlives budget messages x) := by
  have hpairs := candidates_pairwise h
  -- what stands before a candidate is what is dropped before it
  have hbefore : ∀ first m last, candidates messages = first ++ m :: last → ∀ x ∈ messages,
      (isProtectedIn messages x || !dropsBefore x m) = decide (x ∉ first) := by
    intro first m last hc x hx
    rw [hc] at hpairs
    obtain ⟨_, hml, hcross⟩ := List.pairwise_append.mp hpairs
    obtain ⟨hm, _⟩ := List.pairwise_cons.mp hml
    by_cases hfirst : x ∈ first
    · have hdrop := hcross x hfirst m (by simp)
      have hcand : x ∈ candidates messages := by
        rw [hc]
        exact List.mem_append_left _ hfirst
      have hprot := (mem_candidates.mp hcand).2
      simp [hfirst, hdrop, hprot]
    · cases hprot : isProtectedIn messages x with
      | true => simp [hfirst]
      | false =>
        have hcand : x ∈ first ++ m :: last := by
          rw [← hc]
          exact mem_candidates.mpr ⟨hx, hprot⟩
        have hnot : dropsBefore x m = false := by
          rcases List.mem_append.mp hcand with hx' | hx'
          · exact absurd hx' hfirst
          · rcases List.mem_cons.mp hx' with rfl | hx'
            · cases hself : dropsBefore x x with
              | false => rfl
              | true => exact absurd hself (by simp [dropsBefore_asymm hself])
            · exact dropsBefore_asymm (hm x hx')
        simp [hfirst, hnot]
  have houtlives : ∀ first m last, candidates messages = first ++ m :: last →
      outlives budget messages m =
        decide (estimateTokens (messages.filter fun x => x ∉ first) ≤ budget) := by
    intro first m last hc
    have hcand : m ∈ candidates messages := by
      rw [hc]
      simp
    have hfilter : (messages.filter fun x => isProtectedIn messages x || !dropsBefore x m) =
        messages.filter fun x => x ∉ first :=
      List.filter_congr fun x hx => hbefore first m last hc x hx
    rw [outlives, (mem_candidates.mp hcand).2, hfilter]
    rfl
  induction todo generalizing done with
  | nil => simp [dropLowest]
  | cons m rest ih =>
    simp only [dropLowest]
    have hm := houtlives done m rest hsplit
    by_cases hfits : estimateTokens (messages.filter fun x => x ∉ done) ≤ budget
    · rw [if_pos hfits]
      apply List.filter_congr
      intro x _
      have hall : x ∈ m :: rest → outlives budget messages x = true := by
        intro hx
        obtain ⟨before, after, hsplit'⟩ := List.append_of_mem hx
        have hc : candidates messages = (done ++ before) ++ x :: after := by
          rw [hsplit, hsplit', List.append_assoc]
        rw [houtlives (done ++ before) x after hc, decide_eq_true_eq]
        refine Nat.le_trans (estimateTokens_sublist ?_) hfits
        apply List.monotone_filter_right
        intro y hy
        simp only [List.mem_append, not_or, decide_eq_true_eq] at hy ⊢
        exact hy.1
      by_cases hx : x ∈ m :: rest
      · simp [hall hx]
      · simp [hx]
    · rw [if_neg hfits]
      have hout : outlives budget messages m = false := by
        rw [hm, decide_eq_false_iff_not]
        exact hfits
      have hmem : m ∈ messages := by
        have hcand : m ∈ candidates messages := by
          rw [hsplit]
          simp
        exact (mem_candidates.mp hcand).1
      have hnext : ((messages.filter fun x => x ∉ done).filter (·.position ≠ m.position)) =
          messages.filter fun x => x ∉ done ++ [m] := by
        rw [List.filter_filter]
        apply List.filter_congr
        intro x hx
        have heq : x.position = m.position ↔ x = m :=
          ⟨fun hp => h.eq_of_position hx hmem hp, fun hxm => by rw [hxm]⟩
        by_cases hd : x ∈ done <;> by_cases hxm : x = m <;> simp [hd, hxm, heq]
      rw [hnext, ih (by rw [hsplit, List.append_assoc]; rfl)]
      apply List.filter_congr
      intro x _
      by_cases hxm : x = m
      · subst hxm
        simp [hout]
      · simp [hxm]

/-- The messages selected, of those their ceilings leave. -/
def selected (budget : ℕ) (messages : List Mounted) : List Mounted :=
  messages.filter (outlives budget messages)

theorem dropLowest_candidates {budget : ℕ} (h : Ordered messages) :
    dropLowest budget (candidates messages) messages = selected budget messages := by
  have hloop := @dropLowest_eq messages budget [] (candidates messages) h (List.nil_append _).symm
  have hall : (messages.filter fun x => x ∉ ([] : List Mounted)) = messages := by
    simp
  rw [hall] at hloop
  rw [hloop, selected]
  apply List.filter_congr
  intro x hx
  cases hprot : isProtectedIn messages x with
  | true =>
    have hnot : x ∉ candidates messages := by
      intro hmem
      rw [(mem_candidates.mp hmem).2] at hprot
      cases hprot
    simp [hnot, outlives, hprot]
  | false => simp [mem_candidates.mpr ⟨hx, hprot⟩]

/-- Nothing is dropped from what fits. -/
theorem selected_of_fits {budget : ℕ} (hfits : estimateTokens messages ≤ budget) :
    selected budget messages = messages := by
  apply List.filter_eq_self.mpr
  intro m _
  have hle : estimateTokens (messages.filter fun x => isProtectedIn messages x || !dropsBefore x m) ≤
      budget := Nat.le_trans (estimateTokens_sublist List.filter_sublist) hfits
  simp [outlives, hle]

end Pandamonium.ContextCompactor
