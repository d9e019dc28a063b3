import Mathlib.Data.List.ReduceOption
import Pandamonium.Library.FailingReads
import Pandamonium.Model.ToolParsing

/-!
# Fences that run and fences that vanish

A fence is taken out of the visible text as soon as it has the shape of a call.  It gives a block
exactly where it has a content too, or the tag of an email tool, and where a content with `<invoke`
in it holds an invocation that the converter takes: an empty fence, and one whose invocations are
all turned away, are taken out and run nothing.
-/

set_option autoImplicit false

namespace Pandamonium.ToolText

open Pandamonium.Library
open Pandamonium.StreamLlm (findText)

section

variable (rt : Runtime) (floats : Json.FloatText) (misfenced : String → String → Option ToolBlock)
  (others : String → Except Raised (List ToolBlock))

/-! ## What is to agree -/

/-- `strip_tool_blocks` puts nothing in the place of the fence. -/
def Removed (m : Fence) : Prop := stripExecutedFence rt floats m = []

/-- There is a block from the fence, and it is among those that `parse_tool_blocks` returns. -/
def Yields (text : String) (m : Fence) : Prop :=
  ∃ block own blocks, blocksOf rt floats misfenced m = .ok (block :: own) ∧
    parseToolBlocks rt floats misfenced others text = .ok blocks ∧ block :: own <:+: blocks

/-- The fences that are removed from a text are those that a block comes from. -/
def FencesAgree (text : String) : Prop :=
  ∀ m ∈ fences rt (normalizeDsml text),
    Removed rt floats m ↔ Yields rt floats misfenced others text m

/-! ## When they do -/

/-- The converter knows the tool, and has one of the arguments it asks for. -/
def Convertible (name : String) (params : Object) : Prop :=
  hasRequiredArgs rt (toolTypeOf name) params = true ∧
    ("mcp__".toList.isPrefixOf (toolTypeOf name).toList = true ∨ name ∈ builtinEmailTools ∨
      toolTypeOf name ∈ toolTags)

/-- The colours of a theme are a text, which has no colours in it. -/
def AsksForTextColors (name : String) (params : Object) : Prop :=
  toolTypeOf name = "ui_control" ∧ params.get? "action" = some (.str "create_theme") ∧
    (params.get? "colors").isSome

/-- The name and the parameters that the converter gets for an invocation. -/
def invocations (content : String) : List (String × Object) :=
  (iterXmlInvoke rt content.toList).map fun inv =>
    (rt.lower (String.ofList inv.1), invokeParams rt inv.2)

/-- A fence that is a call has something to run. -/
def Runs (m : Fence) : Prop :=
  ∀ tag content, fencedToolCall rt floats m = some (tag, content) →
    (content = "" → tag ∈ builtinEmailTools) ∧
      ((findText "<invoke".toList content.toList).isSome →
        (∀ inv ∈ invocations rt content, ¬ AsksForTextColors inv.1 inv.2) ∧
          ∃ inv ∈ invocations rt content, Convertible rt inv.1 inv.2)

/-! ## The converter on texts -/

/-- Every parameter is a text. -/
def AllTexts (params : Object) : Prop := ∀ key v, params.get? key = some v → ∃ s, v = .str s

variable {params : Object} {cs : List Char}

theorem AllTexts.set (h : AllTexts params) (key s : String) :
    AllTexts (params.set key (.str s)) := by
  intro key' v hv
  rw [Object.get?_set] at hv
  split at hv
  · exact ⟨s, (Option.some.inj hv).symm⟩
  · exact h key' v hv

theorem allTexts_invokeParams (body : List Char) : AllTexts (invokeParams rt body) := by
  have h (blocks : List (List Char × List Char)) (params : Object) (hparams : AllTexts params) :
      AllTexts (blocks.foldl (fun params m =>
        Object.set params (String.ofList m.1) (.str (strip (String.ofList m.2)))) params) := by
    induction blocks generalizing params with
    | nil => exact hparams
    | cons m blocks ih => exact ih _ (hparams.set _ _)
  exact h _ [] fun key v hv => by cases hv

theorem AllTexts.getOr (h : AllTexts params) (key s : String) :
    ∃ s', getOr params key (.str s) = .str s' := by
  cases hget : params.get? key with
  | none => exact ⟨s, by simp [ToolText.getOr, hget]⟩
  | some v =>
    obtain ⟨s', rfl⟩ := h key v hget
    exact ⟨s', by simp [ToolText.getOr, hget]⟩

theorem concat_of_texts {parts : List Value} (h : ∀ v ∈ parts, ∃ s, v = .str s) :
    ∃ s, concat parts = .ok s := by
  induction parts with
  | nil => exact ⟨"", rfl⟩
  | cons v parts ih =>
    obtain ⟨s, rfl⟩ := h v (List.mem_cons_self ..)
    obtain ⟨s', hs'⟩ := ih fun v hv => h v (List.mem_cons_of_mem _ hv)
    exact ⟨s ++ s', by rw [concat, hs']; rfl⟩

theorem joinLines_of_texts {parts : List Value} (h : ∀ v ∈ parts, ∃ s, v = .str s) :
    ∃ s, joinLines parts = .ok s := by
  refine concat_of_texts fun v hv => ?_
  have hmem (parts : List Value) (hv : v ∈ parts.intersperse (.str "\n")) :
      v = .str "\n" ∨ v ∈ parts := by
    induction parts with
    | nil => cases hv
    | cons w parts ih =>
      cases parts with
      | nil => exact .inr hv
      | cons w' parts =>
        simp only [List.intersperse_cons_cons, List.mem_cons] at hv
        rcases hv with rfl | rfl | hv
        · exact .inr (List.mem_cons_self ..)
        · exact .inl rfl
        · exact (ih hv).imp id (List.mem_cons_of_mem _)
  rcases hmem parts hv with rfl | hv
  · exact ⟨"\n", rfl⟩
  · exact h v hv

theorem AllTexts.orElse {v w : Value} (hv : ∃ s, v = .str s) (hw : ∃ s, w = .str s) :
    ∃ s, ToolText.orElse v w = .str s := by
  unfold ToolText.orElse
  split
  · exact hv
  · exact hw

theorem AllTexts.orElse_null (h : AllTexts params) (key : String) {w : Value} (hw : ∃ s, w = .str s) :
    ∃ s, ToolText.orElse (ToolText.getOr params key .null) w = .str s := by
  cases hget : params.get? key with
  | none => simpa [ToolText.getOr, hget, ToolText.orElse, Value.truthy] using hw
  | some v =>
    obtain ⟨s, rfl⟩ := h key v hget
    simpa [ToolText.getOr, hget] using orElse ⟨s, rfl⟩ hw

theorem AllTexts.firstOf (h : AllTexts params) (keys : List String) {w : Value}
    (hw : ∃ s, w = .str s) : ∃ s, ToolText.firstOf params keys w = .str s := by
  induction keys with
  | nil => exact hw
  | cons key keys ih => exact h.orElse_null key ih

theorem AllTexts.truthy_getOr (h : AllTexts params) {key : String}
    (htruthy : (ToolText.getOr params key .null).truthy = true) :
    ∃ s, ToolText.getOr params key .null = .str s := by
  cases hget : params.get? key with
  | none => simp [ToolText.getOr, hget, Value.truthy] at htruthy
  | some v =>
    obtain ⟨s, rfl⟩ := h key v hget
    exact ⟨s, by simp [ToolText.getOr, hget]⟩

theorem isOk_concat {parts : List Value} (h : ∀ v ∈ parts, ∃ s, v = .str s) :
    ∃ content, (concat parts).map Value.str = .ok content := by
  obtain ⟨s, hs⟩ := concat_of_texts h
  exact ⟨.str s, by rw [hs]; rfl⟩

/-- A text argument, a separator and another text argument. -/
theorem AllTexts.isOk_pair (h : AllTexts params) (key key' sep default : String) :
    ∃ content, (concat [ToolText.getOr params key (.str default), .str sep,
      getText params key']).map Value.str = .ok content := by
  refine isOk_concat fun v hv => ?_
  simp only [List.mem_cons, List.not_mem_nil, or_false] at hv
  rcases hv with rfl | rfl | rfl
  · exact h.getOr key default
  · exact ⟨sep, rfl⟩
  · exact h.getOr key' ""

theorem AllTexts.createDocumentContent (h : AllTexts params) :
    ∃ content, ToolText.createDocumentContent params = .ok content := by
  refine joinLines_of_texts fun v hv => ?_
  simp only [List.mem_cons, List.mem_append, List.not_mem_nil, or_false] at hv
  rcases hv with rfl | hv | rfl
  · exact h.getOr "title" "Untitled"
  · split at hv
    · rename_i hlanguage
      rw [List.mem_singleton] at hv
      rw [hv]
      exact h.truthy_getOr hlanguage
    · cases hv
  · exact h.getOr "content" ""

theorem AllTexts.manageSessionContent (h : AllTexts params) :
    ∃ content, ToolText.manageSessionContent rt params = .ok content := by
  have haction := h.getOr "action" ""
  obtain ⟨value, hvalue⟩ := h.getOr "value" ""
  unfold ToolText.manageSessionContent
  simp only
  split
  · obtain ⟨keyword, hkeyword⟩ := orElse (h.getOr "session_id" "")
      (orElse (h.getOr "keyword" "") ⟨value, hvalue⟩)
    simp only [getText, hkeyword]
    exact ⟨_, rfl⟩
  · refine isOk_concat fun v hv => ?_
    simp only [List.mem_append, List.mem_cons, List.not_mem_nil, or_false] at hv
    rcases hv with (rfl | rfl | rfl) | hv
    · exact haction
    · exact ⟨"\n", rfl⟩
    · exact h.getOr "session_id" "current"
    · split at hv
      · simp only [List.mem_cons, List.not_mem_nil, or_false] at hv
        rcases hv with rfl | rfl
        · exact ⟨"\n", rfl⟩
        · exact ⟨value, hvalue⟩
      · cases hv

theorem AllTexts.manageMemoryContent (h : AllTexts params) :
    ∃ content, ToolText.manageMemoryContent rt params = .ok content := by
  have hcategory (v : Value) (tail : List Value)
      (hv : v ∈ if (ToolText.getOr params "category" .null).truthy = true then
        [.str "\n", ToolText.getOr params "category" .null] else tail)
      (htail : v ∈ tail → ∃ s, v = .str s) : ∃ s, v = .str s := by
    split at hv
    · rename_i htruthy
      simp only [List.mem_cons, List.not_mem_nil, or_false] at hv
      rcases hv with rfl | rfl
      · exact ⟨"\n", rfl⟩
      · exact h.truthy_getOr htruthy
    · exact htail hv
  unfold ToolText.manageMemoryContent
  simp only
  split
  · refine isOk_concat fun v hv => ?_
    rw [List.mem_cons] at hv
    rcases hv with rfl | hv
    · exact ⟨_, rfl⟩
    · refine hcategory v _ hv fun hv => ?_
      split at hv
      · simp only [List.mem_cons, List.not_mem_nil, or_false] at hv
        rcases hv with rfl | rfl
        · exact ⟨"\n", rfl⟩
        · exact ⟨_, rfl⟩
      · cases hv
  · refine isOk_concat fun v hv => ?_
    simp only [List.mem_cons, List.not_mem_nil, or_false] at hv
    rcases hv with rfl | rfl | rfl | rfl
    · exact ⟨_, rfl⟩
    · exact h.getOr "memory_id" ""
    · exact ⟨_, rfl⟩
    · exact h.getOr "text" ""
  · refine isOk_concat fun v hv => ?_
    simp only [List.mem_cons, List.not_mem_nil, or_false] at hv
    rcases hv with rfl | rfl
    · exact ⟨_, rfl⟩
    · exact h.getOr "memory_id" ""
  · refine isOk_concat fun v hv => ?_
    simp only [List.mem_cons, List.not_mem_nil, or_false] at hv
    rcases hv with rfl | rfl
    · exact ⟨_, rfl⟩
    · exact h.firstOf _ ⟨"", rfl⟩
  · refine isOk_concat fun v hv => ?_
    rw [List.mem_cons] at hv
    rcases hv with rfl | hv
    · exact ⟨_, rfl⟩
    · exact hcategory v [] hv fun hv => by cases hv
  · exact ⟨_, rfl⟩

/-- Of the actions of `ui_control` only the theme looks into an argument. -/
theorem AllTexts.uiControlContent (h : AllTexts params) :
    (∃ content, ToolText.uiControlContent rt params = .ok content) ↔
      ¬ (params.get? "action" = some (.str "create_theme") ∧ (params.get? "colors").isSome) := by
  have haction : getText params "action" = .str "create_theme" ↔
      params.get? "action" = some (.str "create_theme") := by
    cases hget : params.get? "action" with
    | none => simp [getText, ToolText.getOr, hget]
    | some v => simp [getText, ToolText.getOr, hget]
  by_cases htheme : getText params "action" = .str "create_theme"
  · rw [← haction]
    simp only [ToolText.uiControlContent, htheme, true_and]
    cases hcolors : params.get? "colors" with
    | none => simp [ToolText.getOr, hcolors]
    | some v =>
      obtain ⟨s, rfl⟩ := h "colors" v hcolors
      simp [ToolText.getOr, hcolors]
  · rw [← haction]
    simp only [htheme, false_and, not_false_eq_true, iff_true]
    unfold ToolText.uiControlContent
    simp only
    split
    all_goals first
      | exact ⟨_, rfl⟩
      | exact absurd ‹_› htheme

theorem AllTexts.contentOf (h : AllTexts params) (toolType : String) :
    (∃ content, ToolText.contentOf rt toolType params = .ok content) ↔
      ¬ (toolType = "ui_control" ∧ params.get? "action" = some (.str "create_theme") ∧
        (params.get? "colors").isSome) := by
  by_cases htype : toolType = "ui_control"
  · subst htype
    simp only [true_and]
    exact h.uiControlContent rt
  · simp only [htype, false_and, not_false_eq_true, iff_true]
    unfold ToolText.contentOf
    split
    case h_6 => exact h.isOk_pair "path" "content" "\n" ""
    case h_7 =>
      obtain ⟨s, hs⟩ := h.createDocumentContent
      exact ⟨.str s, by rw [hs]; rfl⟩
    all_goals first
      | exact ⟨_, rfl⟩
      | exact absurd rfl htype
      | exact h.isOk_pair _ _ _ _
      | exact h.manageSessionContent rt
      | exact h.manageMemoryContent rt

theorem not_mem_builtinEmailTools {name tool : String} (hname : toolTypeOf name = tool)
    (htool : tool ∉ builtinEmailTools) : name ∉ builtinEmailTools := by
  have hself : ∀ email ∈ builtinEmailTools, toolTypeOf email = email := by decide
  intro hmem
  rw [← hname, hself name hmem] at htool
  exact htool hmem

/-- A local tool that can do without any argument gets its content. -/
theorem functionCallToToolBlock_of_tool {name tool : String} (hname : toolTypeOf name = tool)
    (hrequired : requiredNativeToolArgs.lookup tool = none)
    (hmcp : "mcp__".toList.isPrefixOf tool.toList = false) (hemail : tool ∉ builtinEmailTools)
    (htag : tool ∈ toolTags) (args : Object) :
    functionCallToToolBlock rt name args =
      (contentOf rt tool args).map fun content => some ⟨tool, content⟩ := by
  have hhas : hasRequiredArgs rt tool args = true := by simp only [hasRequiredArgs, hrequired]
  simp only [functionCallToToolBlock, hname, hhas]
  rw [if_neg (by simp), if_neg (by rw [hmcp]; simp),
    if_neg (not_mem_builtinEmailTools hname hemail), if_neg (not_not_intro htag)]

theorem functionCallToToolBlock_of_asks {name : String} (h : AllTexts params)
    (hasks : AsksForTextColors name params) :
    ∃ raised, functionCallToToolBlock rt name params = .error raised := by
  have hcontent : ¬ ∃ content, contentOf rt "ui_control" params = .ok content := fun hok =>
    (h.contentOf rt "ui_control").mp hok ⟨rfl, hasks.2⟩
  rw [functionCallToToolBlock_of_tool rt hasks.1 (by decide) (by decide) (by decide) (by decide)]
  cases hraised : contentOf rt "ui_control" params with
  | error raised => exact ⟨raised, rfl⟩
  | ok content => exact absurd ⟨content, hraised⟩ hcontent

theorem functionCallToToolBlock_of_not_asks {name : String} (h : AllTexts params)
    (hasks : ¬ AsksForTextColors name params) :
    ∃ block, functionCallToToolBlock rt name params = .ok block ∧
      (block.isSome ↔ Convertible rt name params) := by
  obtain ⟨content, hcontent⟩ := (h.contentOf rt (toolTypeOf name)).mpr hasks
  unfold functionCallToToolBlock Convertible
  simp only [hcontent]
  by_cases hrequired : hasRequiredArgs rt (toolTypeOf name) params = true
  · rw [if_neg (not_not_intro hrequired)]
    split
    · rename_i hmcp
      exact ⟨_, rfl, fun _ => ⟨hrequired, .inl hmcp⟩, fun _ => rfl⟩
    · split
      · rename_i hemail
        exact ⟨_, rfl, fun _ => ⟨hrequired, .inr (.inl hemail)⟩, fun _ => rfl⟩
      · split
        · rename_i hmcp hemail htag
          refine ⟨_, rfl, fun h => (Bool.false_ne_true h).elim, fun h => ?_⟩
          exact (h.2.elim hmcp fun h => h.elim hemail htag).elim
        · rename_i htag
          exact ⟨_, rfl, fun _ => ⟨hrequired, .inr (.inr (not_not.mp htag))⟩, fun _ => rfl⟩
  · rw [if_pos hrequired]
    exact ⟨_, rfl, fun h => (Bool.false_ne_true h).elim, fun h => absurd h.1 hrequired⟩

/-! ## The blocks of one fence -/

/-- The parser gets through the invocations of a content where none asks for colours in a text, and
has a block where one of them is convertible. -/
theorem mapM_parseXmlInvoke_iff (content : String) :
    (∃ block blocks, ((iterXmlInvoke rt content.toList).mapM (parseXmlInvoke rt)).map
        List.reduceOption = .ok (block :: blocks)) ↔
      (∀ inv ∈ invocations rt content, ¬ AsksForTextColors inv.1 inv.2) ∧
        ∃ inv ∈ invocations rt content, Convertible rt inv.1 inv.2 := by
  have htexts (inv : List Char × List Char) := allTexts_invokeParams rt inv.2
  simp only [invocations, List.mem_map, exists_exists_and_eq_and, forall_exists_index, and_imp,
    forall_apply_eq_imp_iff₂]
  constructor
  · rintro ⟨block, blocks, h⟩
    cases hparsed : (iterXmlInvoke rt content.toList).mapM (parseXmlInvoke rt) with
    | error raised =>
      rw [hparsed] at h
      cases h
    | ok parsed =>
      have hnot : ∀ inv ∈ iterXmlInvoke rt content.toList,
          ¬ AsksForTextColors (rt.lower (String.ofList inv.1)) (invokeParams rt inv.2) := by
        intro inv hinv hasks
        obtain ⟨raised, hraised⟩ := functionCallToToolBlock_of_asks rt (htexts inv) hasks
        obtain ⟨block', hblock'⟩ := exists_mapM_eq_ok_iff.mp ⟨parsed, hparsed⟩ inv hinv
        exact absurd (hraised.symm.trans hblock') (by simp)
      refine ⟨hnot, ?_⟩
      rw [hparsed] at h
      have hmem : block ∈ parsed.reduceOption := by
        rw [show parsed.reduceOption = block :: blocks from Except.ok.inj h]
        exact List.mem_cons_self ..
      obtain ⟨inv, hinv, hblock⟩ :=
        (mem_iff_of_mapM_eq_ok hparsed).mp (List.reduceOption_mem_iff.mp hmem)
      obtain ⟨block', hblock', hiff⟩ :=
        functionCallToToolBlock_of_not_asks rt (htexts inv) (hnot inv hinv)
      have hsame : some block = block' := Except.ok.inj (hblock.symm.trans hblock')
      exact ⟨inv, hinv, hiff.mp (by rw [← hsame]; rfl)⟩
  · rintro ⟨hnot, inv, hinv, hconvertible⟩
    have hok : ∀ inv ∈ iterXmlInvoke rt content.toList,
        ∃ block, parseXmlInvoke rt inv = .ok block := by
      intro inv hinv
      obtain ⟨block, hblock, -⟩ :=
        functionCallToToolBlock_of_not_asks rt (htexts inv) (hnot inv hinv)
      exact ⟨block, hblock⟩
    obtain ⟨parsed, hparsed⟩ := exists_mapM_eq_ok_iff.mpr hok
    obtain ⟨block, hblock, hiff⟩ :=
      functionCallToToolBlock_of_not_asks rt (htexts inv) (hnot inv hinv)
    obtain ⟨block, rfl⟩ := Option.isSome_iff_exists.mp (hiff.mpr hconvertible)
    have hmem : block ∈ parsed.reduceOption :=
      List.reduceOption_mem_iff.mpr ((mem_iff_of_mapM_eq_ok hparsed).mpr ⟨inv, hinv, hblock⟩)
    rw [hparsed]
    cases hreduced : parsed.reduceOption with
    | nil => rw [hreduced] at hmem; cases hmem
    | cons block' blocks => exact ⟨block', blocks, congrArg Except.ok hreduced⟩

/-- A fence gives a block exactly where it is a call with something to run. -/
theorem exists_blocksOf_iff (m : Fence) :
    (∃ block blocks, blocksOf rt floats misfenced m = .ok (block :: blocks)) ↔
      (fencedToolCall rt floats m).isSome ∧ Runs rt floats m := by
  unfold blocksOf Runs
  cases hcall : fencedToolCall rt floats m with
  | none => simp
  | some call =>
    obtain ⟨tag, content⟩ := call
    simp only [Option.isSome_some, Option.some.injEq, Prod.mk.injEq, and_imp, true_and]
    by_cases hempty : content = ""
    · subst hempty
      by_cases hemail : tag ∈ builtinEmailTools
      · simp [hemail, findText]
      · simp [hemail]
    · rw [if_neg hempty]
      by_cases hinvoke : (findText "<invoke".toList content.toList).isSome = true
      · rw [if_pos hinvoke, mapM_parseXmlInvoke_iff]
        exact ⟨fun h _ _ htag hcontent => by
          subst htag hcontent
          exact ⟨fun h => absurd h hempty, fun _ => h⟩,
          fun h => (h tag content rfl rfl).2 hinvoke⟩
      · rw [if_neg hinvoke]
        refine ⟨fun _ _ _ htag hcontent => ?_, fun _ => ⟨_, _, rfl⟩⟩
        subst htag hcontent
        exact ⟨fun h => absurd h hempty, fun h => absurd h hinvoke⟩

theorem exists_blocksOf_of_runs {m : Fence} (h : Runs rt floats m) :
    ∃ blocks, blocksOf rt floats misfenced m = .ok blocks := by
  cases hcall : fencedToolCall rt floats m with
  | none => exact ⟨[], by rw [blocksOf, hcall]⟩
  | some call =>
    have hsome : (fencedToolCall rt floats m).isSome := by rw [hcall]; rfl
    obtain ⟨block, blocks, hblocks⟩ :=
      (exists_blocksOf_iff rt floats misfenced m).mpr ⟨hsome, h⟩
    exact ⟨_, hblocks⟩

/-! ## The fences of a text -/

theorem suffix_of_splitAtText {text before behind : List Char}
    (h : splitAtText text cs = some (before, behind)) : behind <:+ cs := by
  obtain ⟨i, -, hi⟩ := Option.map_eq_some_iff.mp h
  rw [← (Prod.mk.inj hi).2]
  exact List.drop_suffix _ _

theorem suffix_skipNewline (cs : List Char) : skipNewline cs <:+ cs := by
  have htail (p : Prop) [Decidable p] (cs : List Char) : (if p then cs.tail else cs) <:+ cs := by
    split
    · exact List.tail_suffix cs
    · exact List.suffix_rfl
  exact (htail _ _).trans (htail _ _)

theorem suffix_of_readBody {body rest : List Char} (h : readBody cs = some (body, rest)) :
    rest <:+ cs := by
  unfold readBody at h
  simp only at h
  split at h
  · exact (suffix_of_splitAtText h).trans
      ((suffix_skipNewline _).trans (List.dropWhile_suffix _))
  · cases h

theorem suffix_of_readInline {m : List Char × List Char × List Char} (h : readInline cs = some m) :
    m.2.2 <:+ cs := by
  induction cs generalizing m with
  | nil => cases h
  | cons x cs ih =>
    rw [readInline] at h
    split at h
    · rename_i hbody
      cases h
      exact suffix_of_readBody hbody
    · split at h
      · cases h
      · obtain ⟨m', hm', rfl⟩ := Option.map_eq_some_iff.mp h
        exact (ih hm').trans (List.suffix_cons x cs)

theorem suffix_of_readAfterTag {m : Option (List Char) × List Char × List Char}
    (h : readAfterTag cs = some m) : m.2.2 <:+ cs := by
  have hdrop := List.dropWhile_suffix (l := cs) isBlankOrTab
  unfold readAfterTag at h
  split at h
  · rename_i x cs' hcs
    rw [hcs] at hdrop
    split at h
    · obtain ⟨m', hm', rfl⟩ := Option.map_eq_some_iff.mp h
      exact (suffix_of_readInline hm').trans ((List.suffix_cons x cs').trans hdrop)
    · obtain ⟨m', hm', rfl⟩ := Option.map_eq_some_iff.mp h
      exact (suffix_of_readBody hm').trans hdrop
  · cases h

/-- The match and what is behind it make up the text, and the match is not empty. -/
theorem raw_of_readFence {rest : List Char} {m : Fence} (h : readFence rt cs = some (m, rest)) :
    m.raw ++ rest = cs ∧ m.raw ≠ [] := by
  unfold readFence at h
  split at h
  · rename_i hticks
    obtain ⟨behind, rfl⟩ := List.isPrefixOf_iff_prefix.mp hticks
    rw [show (ticks ++ behind).drop 3 = behind from rfl] at h
    obtain ⟨tag, -, hread⟩ := List.exists_of_findSome?_eq_some h
    simp only at hread
    split at hread
    · cases hread
    · rename_i word afterTag hword
      split at hread
      · cases hread
      · obtain ⟨⟨inline, body, rest'⟩, hafter, heq⟩ := Option.map_eq_some_iff.mp hread
        obtain ⟨rfl, rfl⟩ := Prod.mk.inj heq
        have hafterTag : afterTag <:+ behind := by
          unfold takeIgnoringCase at hword
          split at hword
          · rw [List.splitAt_eq] at hword
            obtain ⟨-, rfl⟩ := Prod.mk.inj (Option.some.inj hword)
            exact List.drop_suffix _ _
          · cases hword
        obtain ⟨taken, rfl⟩ := (suffix_of_readAfterTag hafter).trans hafterTag
        simp only at *
        refine ⟨?_, by simp [ticks]⟩
        simp
  · cases h

theorem raw_ne_nil_of_mem_fences {text : String} {m : Fence} (h : m ∈ fences rt text) :
    m.raw ≠ [] := by
  have hscan (fuel : ℕ) (cs : List Char) (hm : Piece.fence m ∈ scan rt fuel cs) : m.raw ≠ [] := by
    induction fuel generalizing cs with
    | zero => rw [scan] at hm; cases hm
    | succ fuel ih =>
      cases cs with
      | nil => cases hm
      | cons x cs =>
        rw [scan] at hm
        split at hm
        · rename_i m' rest hread
          rcases List.mem_cons.mp hm with heq | hm
          · rw [Piece.fence.inj heq]
            exact (raw_of_readFence rt hread).2
          · exact ih rest hm
        · rcases List.mem_cons.mp hm with heq | hm
          · cases heq
          · exact ih cs hm
  obtain ⟨piece, hpiece, hm⟩ := List.mem_filterMap.mp h
  cases piece with
  | plain x => cases hm
  | fence m' =>
    cases hm
    exact hscan _ _ hpiece

theorem removed_iff {text : String} {m : Fence} (h : m ∈ fences rt text) :
    Removed rt floats m ↔ (fencedToolCall rt floats m).isSome := by
  unfold Removed stripExecutedFence
  split
  · rename_i hsome
    simp [hsome]
  · rename_i hnone
    simp [hnone, raw_ne_nil_of_mem_fences rt h]

/-- Where every fence has something to run, `parse_tool_blocks` returns the blocks of each. -/
theorem yields_of_runs {text : String}
    (hruns : ∀ m ∈ fences rt (normalizeDsml text), Runs rt floats m) {m : Fence}
    (hm : m ∈ fences rt (normalizeDsml text)) (hcall : (fencedToolCall rt floats m).isSome) :
    Yields rt floats misfenced others text m := by
  obtain ⟨block, own, hown⟩ :=
    (exists_blocksOf_iff rt floats misfenced m).mpr ⟨hcall, hruns m hm⟩
  obtain ⟨blocks, hblocks⟩ := exists_mapM_eq_ok_iff.mpr fun m hm =>
    exists_blocksOf_of_runs rt floats misfenced (hruns m hm)
  have hmem : block :: own ∈ blocks := (mem_iff_of_mapM_eq_ok hblocks).mpr ⟨m, hm, hown⟩
  have hinfix : block :: own <:+: blocks.flatten := List.infix_of_mem_flatten hmem
  have hfenced : fencedBlocks rt floats misfenced (normalizeDsml text) = .ok blocks.flatten := by
    rw [fencedBlocks, hblocks]
    rfl
  refine ⟨block, own, blocks.flatten, hown, ?_, hinfix⟩
  unfold parseToolBlocks
  simp only [hfenced]
  cases hflatten : blocks.flatten with
  | nil =>
    rw [hflatten] at hinfix
    exact absurd (List.infix_nil.mp hinfix) (by simp)
  | cons first rest => rfl

end

/-- A fence without a body. -/
def emptyFence : Fence := ⟨"```bash\n```".toList, "bash".toList, none, []⟩

end Pandamonium.ToolText
