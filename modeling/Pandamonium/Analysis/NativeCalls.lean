import Pandamonium.Analysis.FencedBlocks
import Pandamonium.Analysis.MarkedTexts
import Pandamonium.Model.ToolDecoders

/-!
# Native calls read back from their blocks

The arguments of a native call are joined to one text, by newlines or by markers, and the tool takes
the text apart again.  The parts come back exactly where none of them holds what separates them:
where the markers of an edit first occur behind its texts, where the text and the category of a
memory are single lines without blanks at their ends, where the title of a document is such a line
and its content does not begin with the name of a language or end with blanks.

A document whose text holds tags of the other format that the tool reads is not taken apart by
lines; nothing is said about it here.
-/

set_option autoImplicit false

namespace Pandamonium.ToolText

open Pandamonium.Library

/-! ## Stripped texts and lines -/

/-- `text.rstrip()` -/
def rstrip (text : String) : String := String.ofList (text.toList.rdropWhile isSpace)

theorem toList_rstrip (text : String) : (rstrip text).toList = text.toList.rdropWhile isSpace := by
  rw [rstrip, String.toList_ofList]

variable {text line content : String} {args : Object}

theorem rstrip_eq_empty_iff :
    rstrip text = "" ↔ text.toList.rdropWhile isSpace = [] := by
  rw [← String.toList_inj, toList_rstrip, String.toList_empty]

theorem rstrip_of_strip (h : strip text = text) : rstrip text = text := by
  rw [← String.toList_inj, toList_rstrip]
  exact (dropWhile_of_trim (strip_eq_self_iff.mp h)).2

/-- One line without blanks at its ends. -/
def IsLine (text : String) : Prop := strip text = text ∧ '\n' ∉ text.toList

theorem rstrip_append_newline (text behind : String) :
    rstrip (text ++ "\n" ++ behind) =
      if rstrip behind = "" then rstrip text else text ++ "\n" ++ rstrip behind := by
  have hnewline : "\n".toList = ['\n'] := rfl
  by_cases h : rstrip behind = ""
  · rw [if_pos h, ← String.toList_inj]
    simp only [toList_rstrip, String.toList_append, hnewline, List.append_assoc,
      List.singleton_append, rdropWhile_append,
      rdropWhile_singleton_append (show isSpace '\n' = true by decide),
      rstrip_eq_empty_iff.mp h, if_true]
  · rw [if_neg h, ← String.toList_inj]
    have hne := mt rstrip_eq_empty_iff.mpr h
    simp only [toList_rstrip, String.toList_append, hnewline, List.append_assoc,
      List.singleton_append, rdropWhile_append,
      rdropWhile_singleton_append (show isSpace '\n' = true by decide), if_neg hne,
      List.cons_ne_nil, if_false]

/-- A line in front stays when the whole is stripped. -/
theorem strip_line_append (h : strip line = line) (hne : line ≠ "") (behind : String) :
    strip (line ++ "\n" ++ behind) =
      if rstrip behind = "" then line else line ++ "\n" ++ rstrip behind := by
  have hnewline : "\n".toList = ['\n'] := rfl
  have htrim := trim_append_cons (strip_eq_self_iff.mp h) (by rwa [ne_eq, String.toList_eq_nil_iff])
    (show isSpace '\n' = true by decide) behind.toList
  rw [← String.toList_inj, toList_strip, String.toList_append, String.toList_append, hnewline,
    List.append_assoc, List.singleton_append, htrim]
  by_cases hbehind : rstrip behind = ""
  · rw [if_pos hbehind, if_pos (rstrip_eq_empty_iff.mp hbehind)]
  · rw [if_neg hbehind, if_neg (mt rstrip_eq_empty_iff.mpr hbehind)]
    simp only [String.toList_append, hnewline, List.append_assoc, List.singleton_append,
      toList_rstrip]

theorem splitLines_line (h : '\n' ∉ line.toList) : splitLines line = [line] := by
  rw [splitLines, List.splitOn_eq_singleton h, List.map_singleton, String.ofList_toList]

theorem splitLines_line_append (h : '\n' ∉ line.toList) (behind : String) :
    splitLines (line ++ "\n" ++ behind) = line :: splitLines behind := by
  have hnewline : "\n".toList = ['\n'] := rfl
  rw [splitLines, String.toList_append, String.toList_append, hnewline, List.append_assoc,
    List.singleton_append, List.splitOn_append_cons_self_of_not_mem h, List.map_cons,
    String.ofList_toList, splitLines]

theorem splitLines_ne_nil (text : String) : splitLines text ≠ [] := by
  simp [splitLines]

theorem not_mem_of_mem_splitLines (h : line ∈ splitLines text) :
    '\n' ∉ line.toList := by
  obtain ⟨piece, hpiece, rfl⟩ := List.mem_map.mp h
  rw [String.toList_ofList]
  exact not_mem_of_mem_splitOn hpiece

theorem intercalate_splitLines (text : String) : "\n".intercalate (splitLines text) = text := by
  have hnewline : "\n".toList = ['\n'] := rfl
  rw [← String.toList_inj, String.toList_intercalate, splitLines, List.map_map,
    String.toList_comp_ofList, List.map_id, hnewline, List.intercalate_splitOn]

theorem isLine_strip (h : line ∈ splitLines text) : IsLine (strip line) := by
  refine ⟨strip_strip line, fun hmem => not_mem_of_mem_splitLines h ?_⟩
  rw [toList_strip] at hmem
  exact (List.dropWhile_suffix _).subset ((List.rdropWhile_prefix _ _).subset hmem)

/-- The lines of a stripped text that begins with a line. -/
theorem splitLines_strip_append (h : IsLine line) (hne : line ≠ "") (behind : String) :
    splitLines (strip (line ++ "\n" ++ behind)) =
      line :: if rstrip behind = "" then [] else splitLines (rstrip behind) := by
  rw [strip_line_append h.1 hne]
  by_cases hbehind : rstrip behind = ""
  · rw [if_pos hbehind, if_pos hbehind, splitLines_line h.2]
  · rw [if_neg hbehind, if_neg hbehind, splitLines_line_append h.2]

/-! ## Edits -/

/-- The markers of the block first occur behind the texts of the edit. -/
def KeptEdit (edit : List Char × List Char) : Prop :=
  FirstBehind replaceMarker edit.1 ∧ FirstBehind endMarker edit.2

/-- The block of an edit. -/
def blockText (edit : List Char × List Char) : List Char :=
  findMarker ++ (edit.1 ++ (replaceMarker ++ (edit.2 ++ endMarker)))

theorem readEdit_findMarker (cs : List Char) :
    readEdit (findMarker ++ cs) =
      (splitAtText replaceMarker cs).bind fun found =>
        (splitAtText endMarker found.2).map fun ended => ((found.1, ended.1), ended.2) := by
  rw [readEdit, if_pos (List.isPrefixOf_iff_prefix.mpr (List.prefix_append _ _)), List.drop_left]
  cases splitAtText replaceMarker cs with
  | none => rfl
  | some found =>
    obtain ⟨find, behind⟩ := found
    cases hended : splitAtText endMarker behind with
    | none => simp [hended]
    | some ended => simp [hended]

/-- An edit is read from its block, and it is the one that was written exactly where the markers
first occur behind its texts. -/
theorem exists_readEdit_blockText (edit : List Char × List Char) (behind : List Char) :
    ∃ found rest, readEdit (blockText edit ++ behind) = some (found, rest) ∧
      (found = edit ↔ KeptEdit edit) ∧ (KeptEdit edit → rest = behind) := by
  obtain ⟨find, replace⟩ := edit
  have htext : blockText (find, replace) ++ behind =
      findMarker ++ (find ++ (replaceMarker ++ (replace ++ (endMarker ++ behind)))) := by
    rw [blockText, List.append_assoc, List.append_assoc, List.append_assoc, List.append_assoc]
  rw [htext, readEdit_findMarker]
  by_cases hfind : FirstBehind replaceMarker find
  · rw [splitAtText_append (by decide) hfind, Option.bind_some]
    obtain ⟨found, rest, hsplit, hfound, -⟩ :=
      @exists_splitAtText_append endMarker (by decide) replace behind
    rw [hsplit, Option.map_some]
    refine ⟨_, _, rfl, ?_, fun hkept => ?_⟩
    · rw [Prod.mk.injEq, KeptEdit, hfound]
      simp [hfind]
    · rw [splitAtText_append (by decide) hkept.2] at hsplit
      exact ((Prod.mk.inj (Option.some.inj hsplit)).2).symm
  · obtain ⟨found, rest, hsplit, hfound, before, hrest⟩ :=
      @exists_splitAtText_append replaceMarker (by decide) find
        (replace ++ (endMarker ++ behind))
    rw [hsplit, Option.bind_some]
    obtain ⟨ended, rest', hsplit', -, -⟩ :=
      @exists_splitAtText_append endMarker (by decide) (before ++ replace) behind
    rw [List.append_assoc, hrest] at hsplit'
    rw [hsplit', Option.map_some]
    refine ⟨_, _, rfl, ?_, fun hkept => absurd hkept.1 hfind⟩
    rw [Prod.mk.injEq, hfound, KeptEdit]
    simp [hfind]

/-- The blocks of a list of edits, each on lines of its own. -/
def blocksText (edits : List (List Char × List Char)) : List Char :=
  ['\n'].intercalate (edits.map blockText)

theorem readEdit_newline (cs : List Char) : readEdit ('\n' :: cs) = none := by
  rw [readEdit, if_neg]
  rw [List.isPrefixOf_iff_prefix]
  rintro ⟨rest, h⟩
  exact absurd (List.cons.inj h).1 (by decide)

theorem readEdits_blocksText_iff (edits : List (List Char × List Char)) {lead : List Char}
    (hlead : lead = [] ∨ lead = ['\n']) {fuel : ℕ} (hfuel : edits.length ≤ fuel) :
    readEdits fuel (lead ++ blocksText edits) = edits ↔ ∀ edit ∈ edits, KeptEdit edit := by
  induction edits generalizing lead fuel with
  | nil =>
    simp only [List.not_mem_nil, false_implies, implies_true, iff_true]
    cases fuel with
    | zero => rfl
    | succ fuel => rcases hlead with rfl | rfl <;> rfl
  | cons edit edits ih =>
    cases fuel with
    | zero => exact absurd hfuel (by simp)
    | succ fuel =>
      obtain ⟨next, hnext, htext⟩ : ∃ next, (next = [] ∨ next = ['\n']) ∧
          blocksText (edit :: edits) = blockText edit ++ (next ++ blocksText edits) := by
        cases edits with
        | nil => exact ⟨[], .inl rfl, by simp [blocksText]⟩
        | cons edit' edits => exact ⟨['\n'], .inr rfl, by simp [blocksText]⟩
      obtain ⟨found, rest, hread, hfound, hrest⟩ :=
        exists_readEdit_blockText edit (next ++ blocksText edits)
      have hsearch : searchFirst readEdit (lead ++ blocksText (edit :: edits)) =
          some (found, rest) := by
        rw [htext]
        rcases hlead with rfl | rfl
        · exact searchFirst_eq hread
        · rw [List.singleton_append, searchFirst, readEdit_newline]
          exact searchFirst_eq hread
      rw [readEdits, hsearch]
      simp only [List.cons.injEq, List.forall_mem_cons, hfound]
      refine and_congr_right fun hkept => ?_
      rw [hrest hkept]
      exact ih hnext (Nat.le_of_succ_le_succ hfuel)

/-! ## Calls -/

/-- What a native call says. -/
inductive NativeCall
  | createDocument (title : String) (language : Option String) (content : String)
  | editDocument (edits : List (String × String))
  | addMemory (text : String) (category : Option String)
  | editMemory (memoryId text : String)

/-- The type of its tool. -/
def NativeCall.tool : NativeCall → String
  | .createDocument _ _ _ => "create_document"
  | .editDocument _ => "edit_document"
  | .addMemory _ _ => "manage_memory"
  | .editMemory _ _ => "manage_memory"

/-- The arguments say it; there may be others. -/
def Says (args : Object) : NativeCall → Prop
  | .createDocument title language content =>
    args.get? "title" = some (.str title) ∧ args.get? "language" = language.map .str ∧
      args.get? "content" = some (.str content)
  | .editDocument edits =>
    ∃ items, args.get? "edits" = some (.list items) ∧
      List.Forall₂ (fun item edit => ∃ fields : Object, item = .dict fields ∧
        fields.get? "find" = some (.str edit.1) ∧ fields.get? "replace" = some (.str edit.2))
        items edits
  | .addMemory text category =>
    args.get? "action" = some (.str "add") ∧ args.get? "text" = some (.str text) ∧
      args.get? "category" = category.map .str
  | .editMemory memoryId text =>
    args.get? "action" = some (.str "edit") ∧ args.get? "memory_id" = some (.str memoryId) ∧
      args.get? "text" = some (.str text)

section

variable (rt : Runtime) (floats : Json.FloatText)

/-- The tool reads from the content what the call says, a language and a category where it has
one. -/
def GivenBack (content : String) : NativeCall → Prop
  | .createDocument title language text =>
    (createDocument rt floats content).title = title ∧
      (∀ l, language = some l → (createDocument rt floats content).language = l) ∧
      (createDocument rt floats content).content = text
  | .editDocument edits => parseEditBlocks content = edits
  | .addMemory text category =>
    ∃ category', memoryRequest rt content = .add text category' ∧
      ∀ c, category = some c → category' = c
  | .editMemory memoryId text => memoryRequest rt content = .edit memoryId text

/-- The call becomes a block for its tool, which gives it back. -/
def Survives (name : String) (args : Object) (call : NativeCall) : Prop :=
  ∃ content, functionCallToToolBlock rt name args = .ok (some ⟨call.tool, .str content⟩) ∧
    GivenBack rt floats content call

/-- The content of the block of a document. -/
def documentText (title : String) (language : Option String) (content : String) : String :=
  match language with
  | some l => if l = "" then title ++ "\n" ++ content else title ++ "\n" ++ (l ++ "\n" ++ content)
  | none => title ++ "\n" ++ content

/-- Nothing in the text of a document is read as one of the tags. -/
def Untagged : NativeCall → Prop
  | .createDocument title language content =>
    let raw := documentText title language content
    taggedText "title" raw = none ∧ taggedText "content" raw = none ∧ ¬ strayTag.Occurs raw.toList
  | _ => True

/-- What the call says can be told apart once it is joined. -/
def Separable : NativeCall → Prop
  | .createDocument title language content =>
    IsLine title ∧ title ≠ "" ∧ rstrip content = content ∧
      match language with
      | none => languageLine rt ((splitLines content).headD "") = none
      | some l => l ∈ knownLangs ∧ (looksLikeEmailDocument rt content title = true → l = "email")
  | .editDocument edits => ∀ edit ∈ edits, KeptEdit (edit.1.toList, edit.2.toList)
  | .addMemory text category =>
    IsLine text ∧ text ≠ "" ∧
      ∀ c, category = some c → lowerLine rt (splitLines (rstrip c)) 0 = some c
  | .editMemory memoryId text => IsLine memoryId ∧ IsLine text ∧ text ≠ ""

/-- `str.lower` leaves small ASCII letters as they are, and no text vanishes. -/
structure LowersTexts : Prop where
  letters : ∀ text : String, (∀ x ∈ text.toList, 'a' ≤ x ∧ x ≤ 'z') → rt.lower text = text
  nonempty : ∀ text : String, rt.lower text = "" → text = ""

/-! ## Documents with edits -/

theorem toList_editBlocks {items : List Value} {edits : List (String × String)}
    (h : List.Forall₂ (fun item edit => ∃ fields : Object, item = .dict fields ∧
      fields.get? "find" = some (.str edit.1) ∧ fields.get? "replace" = some (.str edit.2))
      items edits) :
    (editBlocks rt [("<<<FIND>>>", "find"), ("<<<REPLACE>>>", "replace")] (.list items)).toList =
      blocksText (edits.map fun edit => (edit.1.toList, edit.2.toList)) := by
  have hblock (fields : Object) (edit : String × String)
      (hfind : fields.get? "find" = some (.str edit.1))
      (hreplace : fields.get? "replace" = some (.str edit.2)) :
      (String.join ([("<<<FIND>>>", "find"), ("<<<REPLACE>>>", "replace")].map fun field =>
        field.1 ++ "\n" ++ (getText fields field.2).text rt ++ "\n") ++ "<<<END>>>").toList =
        blockText (edit.1.toList, edit.2.toList) := by
    have htexts : findMarker = "<<<FIND>>>".toList ++ "\n".toList ∧
        replaceMarker = "\n".toList ++ ("<<<REPLACE>>>".toList ++ "\n".toList) ∧
        endMarker = "\n".toList ++ "<<<END>>>".toList := by decide
    simp only [blockText, htexts, List.map_cons, List.map_nil, getText, getOr, hfind, hreplace,
      Option.getD_some, Value.text, String.toList_append, String.toList_join, List.flatMap_cons,
      List.flatMap_nil, List.append_nil, List.append_assoc]
  unfold editBlocks blocksText
  simp only [String.toList_intercalate]
  congr 1
  induction h with
  | nil => rfl
  | cons hitem _ ih =>
    obtain ⟨fields, rfl, hfind, hreplace⟩ := hitem
    exact congrArg₂ List.cons (hblock fields _ hfind hreplace) ih

theorem length_le_length_blocksText (edits : List (List Char × List Char)) :
    edits.length ≤ (blocksText edits).length := by
  have hblock (edit : List Char × List Char) : 1 ≤ (blockText edit).length := by
    rw [blockText, List.length_append]
    exact Nat.le_add_right_of_le (by decide)
  induction edits with
  | nil => exact Nat.zero_le _
  | cons edit edits ih =>
    cases edits with
    | nil => simpa [blocksText] using hblock edit
    | cons edit' edits =>
      have hcons : blocksText (edit :: edit' :: edits) =
          blockText edit ++ '\n' :: blocksText (edit' :: edits) := by
        simp [blocksText]
      have := hblock edit
      simp only [hcons, List.length_append, List.length_cons] at ih ⊢
      omega

theorem parseEditBlocks_iff {edits : List (String × String)}
    (h : content.toList = blocksText (edits.map fun edit => (edit.1.toList, edit.2.toList))) :
    parseEditBlocks content = edits ↔ Separable rt (.editDocument edits) := by
  have hread := @readEdits_blocksText_iff
    (edits.map fun edit => (edit.1.toList, edit.2.toList)) [] (.inl rfl) _
    (length_le_length_blocksText _)
  rw [List.nil_append, ← h, List.forall_mem_map] at hread
  rw [Separable, ← hread, parseEditBlocks]
  have htexts : ∀ edit : String × String,
      (String.ofList edit.1.toList, String.ofList edit.2.toList) = edit := by simp
  constructor
  · intro hparsed
    have hback := congrArg (List.map fun edit : String × String =>
      (edit.1.toList, edit.2.toList)) hparsed
    rw [List.map_map] at hback
    simpa [Function.comp_def] using hback
  · intro hparsed
    rw [hparsed, List.map_map]
    exact (List.map_congr_left fun edit _ => htexts edit).trans (List.map_id _)

/-! ## Memories -/

theorem memoryRequest_eq_add {category : String} (h : memoryRequest rt content = .add text category) :
    IsLine text ∧ text ≠ "" := by
  unfold memoryRequest at h
  simp only at h
  split at h
  · cases h
  · split at h
    · cases h
    · rename_i line hline
      split at h
      · cases h
      · rename_i hne
        obtain ⟨rfl, -⟩ := MemoryRequest.add.inj h
        exact ⟨isLine_strip (List.mem_of_getElem? hline), hne⟩
  · split at h
    · split at h <;> cases h
    · cases h
  · split at h <;> cases h
  · split at h <;> cases h
  · cases h

theorem memoryRequest_eq_edit {memoryId : String}
    (h : memoryRequest rt content = .edit memoryId text) :
    Separable rt (.editMemory memoryId text) := by
  unfold memoryRequest at h
  simp only at h
  split at h
  · cases h
  · split at h
    · cases h
    · split at h <;> cases h
  · split at h
    · rename_i hmemoryId htext
      split at h
      · cases h
      · rename_i hne
        obtain ⟨rfl, rfl⟩ := MemoryRequest.edit.inj h
        exact ⟨isLine_strip (List.mem_of_getElem? hmemoryId),
          isLine_strip (List.mem_of_getElem? htext), hne⟩
    · cases h
  · split at h <;> cases h
  · split at h <;> cases h
  · cases h

theorem append_newline_ne_empty (line behind : String) : line ++ "\n" ++ behind ≠ "" := by
  intro h
  have hmem : '\n' ∈ (line ++ "\n" ++ behind).toList := by
    rw [String.toList_append, String.toList_append]
    exact List.mem_append_left _ (List.mem_append_right _ (List.mem_singleton_self _))
  rw [h] at hmem
  cases hmem

theorem splitLines_strip_action {action : String} (h : IsLine action) (hne : action ≠ "")
    (hline : IsLine line) (hline' : line ≠ "") (behind : String) :
    splitLines (strip (action ++ "\n" ++ (line ++ "\n" ++ behind))) =
      action :: line :: if rstrip behind = "" then [] else splitLines (rstrip behind) := by
  have hcons : rstrip (line ++ "\n" ++ behind) =
      if rstrip behind = "" then line else line ++ "\n" ++ rstrip behind := by
    rw [rstrip_append_newline, rstrip_of_strip hline.1]
  rw [splitLines_strip_append h hne, hcons]
  by_cases hbehind : rstrip behind = ""
  · rw [if_pos hbehind, if_neg hline', splitLines_line hline.2, if_pos hbehind]
  · rw [if_neg hbehind, if_neg (append_newline_ne_empty _ _), splitLines_line_append hline.2,
      if_neg hbehind]

theorem isLine_action : IsLine "add" ∧ IsLine "edit" := by
  unfold IsLine
  decide

variable {rt} in
theorem LowersTexts.action (hlower : LowersTexts rt) :
    rt.lower (strip "add") = "add" ∧ rt.lower (strip "edit") = "edit" := by
  constructor
  · rw [isLine_action.1.1, hlower.letters "add" (by simp)]
  · rw [isLine_action.2.1, hlower.letters "edit" (by simp)]

variable {rt} in
/-- The text of a new memory is read from its line, and the category from the next one. -/
theorem LowersTexts.memoryRequest_add (hlower : LowersTexts rt) (h : IsLine text) (hne : text ≠ "")
    (behind : String) :
    memoryRequest rt ("add" ++ "\n" ++ (text ++ "\n" ++ behind)) =
      .add text ((lowerLine rt (splitLines (rstrip behind)) 0).getD "fact") := by
  have hlines := splitLines_strip_action isLine_action.1 (by decide) h hne behind
  unfold memoryRequest
  simp only [hlines, List.headD_cons, hlower.action.1, List.getElem?_cons_succ,
    List.getElem?_cons_zero, h.1, if_neg hne]
  have hshift (lines : List String) :
      lowerLine rt ("add" :: text :: lines) 2 = lowerLine rt lines 0 := by
    simp only [lowerLine, List.getElem?_cons_succ]
  rw [hshift]
  by_cases hbehind : rstrip behind = ""
  · have hempty : splitLines "" = [""] := by decide
    rw [if_pos hbehind, hbehind, hempty]
    simp [lowerLine]
  · rw [if_neg hbehind]

variable {rt} in
theorem LowersTexts.memoryRequest_add_line (hlower : LowersTexts rt) (h : IsLine text)
    (hne : text ≠ "") :
    memoryRequest rt ("add" ++ "\n" ++ text) = .add text "fact" := by
  have hlines := splitLines_strip_append isLine_action.1 (by decide) text
  rw [rstrip_of_strip h.1, if_neg hne, splitLines_line h.2] at hlines
  unfold memoryRequest
  simp only [hlines, List.headD_cons, hlower.action.1, List.getElem?_cons_succ,
    List.getElem?_cons_zero, h.1, if_neg hne, lowerLine, List.getElem?_nil, Option.getD_none]

variable {rt} in
theorem LowersTexts.memoryRequest_edit (hlower : LowersTexts rt) {memoryId : String}
    (h : Separable rt (.editMemory memoryId text)) :
    memoryRequest rt ("edit" ++ "\n" ++ (memoryId ++ "\n" ++ text)) = .edit memoryId text := by
  obtain ⟨hid, htext, hne⟩ := h
  have hrstrip : rstrip (memoryId ++ "\n" ++ text) = memoryId ++ "\n" ++ text := by
    rw [rstrip_append_newline, rstrip_of_strip htext.1, if_neg hne]
  have hlines := splitLines_strip_append isLine_action.2 (by decide) (memoryId ++ "\n" ++ text)
  rw [hrstrip, if_neg (append_newline_ne_empty _ _), splitLines_line_append hid.2,
    splitLines_line htext.2] at hlines
  unfold memoryRequest
  simp only [hlines, List.headD_cons, hlower.action.2, List.getElem?_cons_succ,
    List.getElem?_cons_zero, hid.1, htext.1, if_neg hne]

theorem lowerLine_ne_empty (hlower : LowersTexts rt) {lines : List String} {i : ℕ} :
    (lowerLine rt lines i).getD "fact" ≠ "" := by
  unfold lowerLine
  split
  · split
    · decide
    · rename_i hne
      exact fun h => hne (hlower.nonempty _ h)
  · decide

/-- A category comes back from its lines only where it is read from the first one. -/
theorem getD_lowerLine_eq_iff (category : String) :
    (lowerLine rt (splitLines (rstrip category)) 0).getD "fact" = category ↔
      lowerLine rt (splitLines (rstrip category)) 0 = some category := by
  cases hline : lowerLine rt (splitLines (rstrip category)) 0 with
  | some c => simp
  | none =>
    simp only [Option.getD_none, reduceCtorEq, iff_false]
    rintro rfl
    have hfact : splitLines (rstrip "fact") = ["fact"] := by decide
    have hstrip : strip "fact" = "fact" := by decide
    simp [lowerLine, hfact, hstrip] at hline

theorem manageMemoryContent_add (haction : args.get? "action" = some (.str "add"))
    (htext : args.get? "text" = some (.str text)) (hne : text ≠ "") :
    manageMemoryContent rt args =
      (concat (.str ("add\n" ++ text) ::
        if (getOr args "category" .null).truthy then [.str "\n", getOr args "category" .null]
        else if (getOr args "key" .null).truthy then
          [.str "\n", .str ((getOr args "key" .null).text rt)]
        else [])).map .str := by
  have hfirst : firstOf args ["text", "value", "content"] (.str "") = .str text := by
    simp [firstOf, getOr, htext, orElse, Value.truthy, hne]
  have haction' : getText args "action" = .str "add" := by simp [getText, getOr, haction]
  have htruthy : (Value.str text).truthy = true := by simp [Value.truthy, hne]
  simp only [manageMemoryContent, haction', hfirst, htruthy, if_true, Value.text]

/-- What the memory is read from, with a second line behind its text or without one. -/
theorem concat_add (text : String) (behind : String) :
    (concat [.str ("add\n" ++ text)]).map Value.str = .ok (.str ("add" ++ "\n" ++ text)) ∧
    (concat [.str ("add\n" ++ text), .str "\n", .str behind]).map Value.str =
      .ok (.str ("add" ++ "\n" ++ (text ++ "\n" ++ behind))) := by
  have hadd : "add\n" = "add" ++ "\n" := by decide
  simp only [hadd, concat, Except.map, String.append_empty, String.append_assoc, and_self]

theorem givenBack_addMemory_iff (hlower : LowersTexts rt) {category : Option String}
    (hmeant : Says args (.addMemory text category)) :
    (∃ content, manageMemoryContent rt args = .ok (.str content) ∧
        GivenBack rt floats content (.addMemory text category)) ↔
      Separable rt (.addMemory text category) := by
  obtain ⟨haction, htext, hcategory⟩ := hmeant
  by_cases hline : IsLine text ∧ text ≠ ""
  · obtain ⟨hline, hne⟩ := hline
    rw [manageMemoryContent_add rt haction htext hne, getOr, hcategory]
    -- without a category that is written, some other one is read, and it is not empty
    have hother : ∃ content category',
        (concat (.str ("add\n" ++ text) ::
          if (getOr args "key" .null).truthy then
            [.str "\n", .str ((getOr args "key" .null).text rt)]
          else [])).map Value.str = .ok (.str content) ∧
          memoryRequest rt content = .add text category' ∧ category' ≠ "" := by
      by_cases hkey : (getOr args "key" .null).truthy = true
      · rw [if_pos hkey]
        exact ⟨_, _, (concat_add text _).2, hlower.memoryRequest_add hline hne _,
          lowerLine_ne_empty rt hlower⟩
      · rw [if_neg hkey]
        exact ⟨_, _, (concat_add text "").1, hlower.memoryRequest_add_line hline hne, by decide⟩
    cases category with
    | none =>
      obtain ⟨content, category', hcontent, hrequest, -⟩ := hother
      refine ⟨fun _ => ⟨hline, hne, fun c hc => by cases hc⟩, fun _ => ⟨content, hcontent, ?_⟩⟩
      exact ⟨category', hrequest, fun c hc => by cases hc⟩
    | some c =>
      by_cases hempty : c = ""
      · subst hempty
        obtain ⟨content, category', hcontent, hrequest, hne'⟩ := hother
        have hfalse : (Value.str "").truthy = false := rfl
        simp only [Option.map_some, Option.getD_some, hfalse, Bool.false_eq_true, if_false,
          hcontent, Except.ok.injEq, Value.str.injEq, exists_eq_left']
        constructor
        · rintro ⟨category'', hrequest', hsame⟩
          rw [hrequest] at hrequest'
          obtain ⟨-, rfl⟩ := MemoryRequest.add.inj hrequest'
          exact absurd (hsame "" rfl) hne'
        · rintro ⟨-, -, hread⟩
          have := hread "" rfl
          have hnone : splitLines (rstrip "") = [""] := by decide
          simp [lowerLine, hnone] at this
      · have htruthy : (Value.str c).truthy = true := by simp [Value.truthy, hempty]
        simp only [Option.map_some, Option.getD_some, htruthy, if_true, (concat_add text c).2,
          Except.ok.injEq, Value.str.injEq, exists_eq_left', GivenBack, Separable,
          hlower.memoryRequest_add hline hne, MemoryRequest.add.injEq, true_and,
          Option.some.injEq, forall_eq', hline, hne, ne_eq, not_false_eq_true]
        exact getD_lowerLine_eq_iff rt c
  · constructor
    · rintro ⟨content, -, category', hrequest, -⟩
      exact absurd (memoryRequest_eq_add rt hrequest) hline
    · rintro ⟨hline', hne, -⟩
      exact absurd ⟨hline', hne⟩ hline

theorem givenBack_editMemory_iff (hlower : LowersTexts rt) {memoryId : String}
    (hmeant : Says args (.editMemory memoryId text)) :
    (∃ content, manageMemoryContent rt args = .ok (.str content) ∧
        GivenBack rt floats content (.editMemory memoryId text)) ↔
      Separable rt (.editMemory memoryId text) := by
  obtain ⟨haction, hid, htext⟩ := hmeant
  have hedit : "edit\n" = "edit" ++ "\n" := by decide
  have hcontent : manageMemoryContent rt args =
      .ok (.str ("edit" ++ "\n" ++ (memoryId ++ "\n" ++ text))) := by
    simp only [manageMemoryContent, getText, getOr, haction, hid, htext, Option.getD_some, concat,
      hedit, Except.map, String.append_empty, String.append_assoc]
  rw [hcontent]
  constructor
  · rintro ⟨content, -, hrequest⟩
    exact memoryRequest_eq_edit rt hrequest
  · intro h
    exact ⟨_, rfl, hlower.memoryRequest_edit h⟩

/-! ## Documents -/

theorem createDocumentContent_eq {title : String} {language : Option String}
    (hmeant : Says args (.createDocument title language content)) :
    createDocumentContent args = .ok (documentText title language content) := by
  obtain ⟨htitle, hlanguage, hcontent⟩ := hmeant
  have htitle' : getOr args "title" (.str "Untitled") = .str title := by simp [getOr, htitle]
  have hcontent' : getText args "content" = .str content := by simp [getText, getOr, hcontent]
  have hlanguage' : getOr args "language" .null = (language.map Value.str).getD .null := by
    rw [getOr, hlanguage]
  have hshort : joinLines [.str title, .str content] = .ok (title ++ "\n" ++ content) := by
    simp only [joinLines, List.intersperse_cons_cons, List.intersperse_singleton, concat, Except.map,
      String.append_empty, String.append_assoc]
  unfold createDocumentContent
  rw [htitle', hcontent', hlanguage']
  cases language with
  | none => exact hshort
  | some l =>
    by_cases hempty : l = ""
    · subst hempty
      exact hshort
    · have htruthy : (Value.str l).truthy = true := by simp [Value.truthy, hempty]
      simp only [Option.map_some, Option.getD_some, htruthy, if_true, List.singleton_append,
        joinLines, List.intersperse_cons_cons, List.intersperse_singleton, concat, Except.map,
        String.append_empty, documentText, if_neg hempty, String.append_assoc]

/-- The text is read by lines where there is nothing like a tag in it. -/
theorem documentParts_of_untagged {raw : String} (htitle : taggedText "title" raw = none)
    (hcontent : taggedText "content" raw = none) (hstray : ¬ strayTag.Occurs raw.toList) :
    documentParts rt raw =
      (strip ((splitLines (strip raw)).headD ""),
        (takeLanguage rt none (splitLines (strip raw)).tail).1,
        "\n".intercalate (takeLanguage rt none (splitLines (strip raw)).tail).2) := by
  have hsub : strayTag.sub "" raw = raw := by
    rw [Regex.sub_eq_replace, Regex.replace_of_not_occurs (by decide) hstray]
  simp only [documentParts, htitle, hcontent, hsub, Option.isSome_none, Bool.false_eq_true,
    or_self, if_false, Option.getD_none]

theorem title_of_untagged {raw : String} (htitle : taggedText "title" raw = none)
    (hcontent : taggedText "content" raw = none) (hstray : ¬ strayTag.Occurs raw.toList) :
    IsLine (createDocument rt floats raw).title ∧ (createDocument rt floats raw).title ≠ "" := by
  simp only [createDocument, documentParts_of_untagged rt htitle hcontent hstray]
  split
  · unfold IsLine
    decide
  · rename_i hne
    refine ⟨@isLine_strip (strip raw) _ ?_, hne⟩
    cases hlines : splitLines (strip raw) with
    | nil => exact absurd hlines (splitLines_ne_nil _)
    | cons line lines => exact List.mem_cons_self ..

theorem sniffDocLanguage_mem (text : String) : sniffDocLanguage rt floats text ∈ knownLangs := by
  have hite (p : Prop) [Decidable p] {a b : String} (ha : a ∈ knownLangs) (hb : b ∈ knownLangs) :
      (if p then a else b) ∈ knownLangs := by
    split
    · exact ha
    · exact hb
  unfold sniffDocLanguage
  repeat' apply hite
  all_goals decide

/-- Whatever is read, the language is one that the editor knows. -/
theorem language_mem (raw : String) : (createDocument rt floats raw).language ∈ knownLangs := by
  simp only [createDocument]
  split
  · decide
  · split
    · split
      · assumption
      · exact sniffDocLanguage_mem rt floats _
    · exact sniffDocLanguage_mem rt floats _

/-- The lines that are left of a content. -/
def contentLines (content : String) : List String :=
  if rstrip content = "" then [] else splitLines (rstrip content)

theorem intercalate_contentLines (content : String) :
    "\n".intercalate (contentLines content) = rstrip content := by
  unfold contentLines
  split
  · rename_i hempty
    rw [hempty]
    rfl
  · exact intercalate_splitLines _

theorem length_rstrip_le (content : String) :
    (rstrip content).toList.length ≤ content.toList.length := by
  rw [toList_rstrip]
  exact (List.rdropWhile_prefix _ _).length_le

/-- A content that loses its first line is another one. -/
theorem intercalate_ne_of_cons {lines : List String} (h : contentLines content = line :: lines) :
    "\n".intercalate lines ≠ content := by
  have hne : rstrip content ≠ "" := by
    intro hempty
    rw [contentLines, if_pos hempty] at h
    cases h
  have hjoin := intercalate_contentLines content
  rw [h] at hjoin
  have hle := length_rstrip_le content
  intro heq
  cases lines with
  | nil =>
    have hcontent : content = "" := heq.symm
    subst hcontent
    exact hne (by decide)
  | cons line' lines =>
    have hcons : "\n".intercalate (line :: line' :: lines) =
        line ++ "\n" ++ "\n".intercalate (line' :: lines) := by
      rw [String.intercalate_cons_cons]
    rw [heq] at hcons
    rw [hcons] at hjoin
    rw [← hjoin, String.toList_append, String.toList_append, List.length_append, List.length_append]
      at hle
    have hnewline : "\n".toList.length = 1 := rfl
    omega

theorem knownLangs_lines : ∀ l ∈ knownLangs, strip l = l ∧ '\n' ∉ l.toList ∧ l ≠ "" ∧
    ∀ x ∈ l.toList, 'a' ≤ x ∧ x ≤ 'z' := by
  have hlines : ∀ l ∈ knownLangs, strip l = l ∧ '\n' ∉ l.toList ∧ l ≠ "" := by decide
  have hletters : ∀ l ∈ knownLangs, ∀ x ∈ l.toList, 'a' ≤ x ∧ x ≤ 'z' := by simp [knownLangs]
  intro l hl
  obtain ⟨hstrip, hline, hne⟩ := hlines l hl
  exact ⟨hstrip, hline, hne, hletters l hl⟩

variable {rt} in
theorem LowersTexts.languageLine_of_mem (hlower : LowersTexts rt) {l : String}
    (h : l ∈ knownLangs) : languageLine rt l = some l := by
  obtain ⟨hstrip, -, -, hletters⟩ := knownLangs_lines l h
  simp only [languageLine, hstrip, hlower.letters l hletters, if_pos h]

variable {rt} in
theorem LowersTexts.languageLine_empty (hlower : LowersTexts rt) : languageLine rt "" = none := by
  have hempty : rt.lower "" = "" := hlower.letters "" fun x hx => by cases hx
  have hnot : "" ∉ knownLangs := by decide
  simp only [languageLine, strip_empty, hempty, if_neg hnot]

/-- A document of a title and a content behind it, where the lines behind the title are known. -/
theorem createDocument_eq {raw title : String} {lines : List String} (hne : title ≠ "")
    (hstrip : strip title = title) (htitle : taggedText "title" raw = none)
    (hcontent : taggedText "content" raw = none) (hstray : ¬ strayTag.Occurs raw.toList)
    (hlines : splitLines (strip raw) = title :: lines) :
    (createDocument rt floats raw).title = title ∧
      (createDocument rt floats raw).content = "\n".intercalate (takeLanguage rt none lines).2 ∧
      ∀ l ∈ knownLangs, (takeLanguage rt none lines).1 = some l →
        (createDocument rt floats raw).language =
          if looksLikeEmailDocument rt ("\n".intercalate (takeLanguage rt none lines).2) title then
            "email"
          else l := by
  have hparts := documentParts_of_untagged rt htitle hcontent hstray
  rw [hlines, List.headD_cons, List.tail_cons, hstrip] at hparts
  simp only [createDocument, hparts, if_neg hne]
  refine ⟨trivial, trivial, fun l hl hlanguage => ?_⟩
  simp only [hlanguage, if_pos hl]

/-- Without a language the content comes back where it ends in no blanks and does not begin with the
name of one. -/
theorem content_eq_iff (hlower : LowersTexts rt) (content : String) :
    "\n".intercalate (takeLanguage rt none (contentLines content)).2 = content ↔
      rstrip content = content ∧ languageLine rt ((splitLines content).headD "") = none := by
  cases hlines : contentLines content with
  | nil =>
    have hempty : rstrip content = "" := by
      rw [← intercalate_contentLines, hlines]
      rfl
    have hjoin : "\n".intercalate (takeLanguage rt none []).2 = "" := rfl
    rw [hjoin, hempty]
    constructor
    · rintro rfl
      exact ⟨rfl, hlower.languageLine_empty⟩
    · exact fun h => h.1
  | cons line lines =>
    have hjoin := intercalate_contentLines content
    rw [hlines] at hjoin
    cases hlanguage : languageLine rt line with
    | some l =>
      have htake : takeLanguage rt none (line :: lines) = (some l, lines) := by
        simp only [takeLanguage, hlanguage]
      rw [htake]
      refine ⟨fun h => absurd h (intercalate_ne_of_cons hlines), fun h => ?_⟩
      have hne : rstrip content ≠ "" := by
        intro hempty
        rw [contentLines, if_pos hempty] at hlines
        cases hlines
      rw [contentLines, if_neg hne, h.1] at hlines
      rw [hlines, List.headD_cons, hlanguage] at h
      cases h.2
    | none =>
      have htake : takeLanguage rt none (line :: lines) = (none, line :: lines) := by
        simp only [takeLanguage, hlanguage]
      rw [htake, hjoin]
      refine ⟨fun h => ⟨h, ?_⟩, fun h => h.1⟩
      have hne : rstrip content ≠ "" := by
        intro hempty
        rw [contentLines, if_pos hempty] at hlines
        cases hlines
      rw [contentLines, if_neg hne, h] at hlines
      rw [hlines, List.headD_cons, hlanguage]

theorem givenBack_createDocument_iff (hlower : LowersTexts rt) {title : String}
    {language : Option String} (huntagged : Untagged (.createDocument title language content)) :
    GivenBack rt floats (documentText title language content)
        (.createDocument title language content) ↔
      Separable rt (.createDocument title language content) := by
  obtain ⟨htitle, hcontent, hstray⟩ := huntagged
  by_cases hline : IsLine title ∧ title ≠ ""
  · obtain ⟨hline, hne⟩ := hline
    cases language with
    | none =>
      have htext : documentText title none content = title ++ "\n" ++ content := rfl
      rw [htext] at htitle hcontent hstray
      have hlines : splitLines (strip (title ++ "\n" ++ content)) =
          title :: contentLines content := splitLines_strip_append hline hne content
      obtain ⟨htitle', hcontent', -⟩ :=
        createDocument_eq rt floats hne hline.1 htitle hcontent hstray hlines
      simp only [GivenBack, Separable, htext, hline, hne, ne_eq, not_false_eq_true, true_and,
        htitle', hcontent', reduceCtorEq, false_implies, implies_true]
      exact content_eq_iff rt hlower content
    | some l =>
      by_cases hknown : l ∈ knownLangs
      · obtain ⟨hstrip, hnewline, hne', -⟩ := knownLangs_lines l hknown
        have htext : documentText title (some l) content =
            title ++ "\n" ++ (l ++ "\n" ++ content) := if_neg hne'
        rw [htext] at htitle hcontent hstray
        have hlines : splitLines (strip (title ++ "\n" ++ (l ++ "\n" ++ content))) =
            title :: l :: contentLines content :=
          splitLines_strip_action hline hne ⟨hstrip, hnewline⟩ hne' content
        obtain ⟨htitle', hcontent', hlanguage'⟩ :=
          createDocument_eq rt floats hne hline.1 htitle hcontent hstray hlines
        have htake : takeLanguage rt none (l :: contentLines content) =
            (some l, contentLines content) := by
          simp only [takeLanguage, hlower.languageLine_of_mem hknown]
        rw [htake, intercalate_contentLines] at hcontent' hlanguage'
        have hlanguage := hlanguage' l hknown rfl
        simp only [GivenBack, Separable, htext, hline, hne, ne_eq, not_false_eq_true, true_and,
          htitle', hcontent', hknown, hlanguage, Option.some.injEq, forall_eq']
        rw [and_comm]
        refine and_congr_right fun hsame => ?_
        rw [hsame]
        by_cases hemail : looksLikeEmailDocument rt content title = true
        · simp [hemail, eq_comm]
        · simp [hemail]
      · constructor
        · rintro ⟨-, hlanguage, -⟩
          refine absurd ?_ hknown
          rw [← hlanguage l rfl]
          exact language_mem rt floats _
        · rintro ⟨-, -, -, hknown', -⟩
          exact absurd hknown' hknown
  · constructor
    · rintro ⟨hsame, -, -⟩
      have hread := title_of_untagged rt floats htitle hcontent hstray
      rw [hsame] at hread
      exact absurd hread hline
    · rintro ⟨hline', hne, -⟩
      exact absurd ⟨hline', hne⟩ hline

/-! ## The round trip -/

/-- A call whose text is not taken for tags comes back exactly where what it says can be told
apart. -/
theorem survives_iff (hlower : LowersTexts rt) {name : String} {args : Object} {call : NativeCall}
    (hname : toolTypeOf name = call.tool) (hmeant : Says args call) (huntagged : Untagged call) :
    Survives rt floats name args call ↔ Separable rt call := by
  have hblock {content : Except Raised Value} (hcontent : contentOf rt call.tool args = content) :
      Survives rt floats name args call ↔
        ∃ text, content = .ok (.str text) ∧ GivenBack rt floats text call := by
    have hcall : functionCallToToolBlock rt name args =
        (contentOf rt call.tool args).map fun content => some ⟨call.tool, content⟩ := by
      cases call with
      | createDocument =>
        exact @functionCallToToolBlock_of_tool rt name "create_document" hname (by decide)
          (by decide) (by decide) (by decide) args
      | editDocument =>
        exact @functionCallToToolBlock_of_tool rt name "edit_document" hname (by decide)
          (by decide) (by decide) (by decide) args
      | addMemory | editMemory =>
        exact @functionCallToToolBlock_of_tool rt name "manage_memory" hname (by decide)
          (by decide) (by decide) (by decide) args
    rw [Survives, hcall, hcontent]
    refine exists_congr fun text => and_congr_left fun _ => ?_
    cases content with
    | error raised => simp [Except.map]
    | ok content => simp [Except.map]
  cases call with
  | createDocument title language content =>
    have hcontent : contentOf rt "create_document" args =
        .ok (.str (documentText title language content)) := by
      show (createDocumentContent args).map Value.str = _
      rw [createDocumentContent_eq hmeant]
      rfl
    rw [hblock hcontent]
    simp only [Except.ok.injEq, Value.str.injEq, exists_eq_left']
    exact givenBack_createDocument_iff rt floats hlower huntagged
  | editDocument edits =>
    obtain ⟨items, hitems, hedits⟩ := hmeant
    have hcontent : contentOf rt "edit_document" args =
        .ok (.str (editBlocks rt [("<<<FIND>>>", "find"), ("<<<REPLACE>>>", "replace")]
          (.list items))) := by
      show Except.ok (Value.str (editBlocks rt _ (getOr args "edits" (.list [])))) = _
      rw [getOr, hitems]
      rfl
    rw [hblock hcontent]
    simp only [Except.ok.injEq, Value.str.injEq, exists_eq_left']
    exact parseEditBlocks_iff rt (toList_editBlocks rt hedits)
  | addMemory text category =>
    rw [@hblock (manageMemoryContent rt args) rfl]
    exact givenBack_addMemory_iff rt floats hlower hmeant
  | editMemory memoryId text =>
    rw [@hblock (manageMemoryContent rt args) rfl]
    exact givenBack_editMemory_iff rt floats hlower hmeant

end

theorem lowersTexts_plain : LowersTexts Runtime.plain where
  letters := by
    intro text h
    have hsmall : ∀ x ∈ text.toList, Char.toLower x = id x := by
      intro x hx
      refine dif_neg ?_
      rintro ⟨-, hle⟩
      have hge : 'a'.val ≤ x.val := (h x hx).1
      rw [UInt32.le_iff_toNat_le] at hge hle
      exact absurd (hge.trans hle) (by decide)
    show String.ofList (text.toList.map Char.toLower) = text
    rw [List.map_congr_left hsmall, List.map_id, String.ofList_toList]
  nonempty := by
    intro text h
    have hempty : (String.ofList (text.toList.map Char.toLower)).toList = "".toList :=
      congrArg String.toList h
    rw [String.toList_ofList, String.toList_empty, List.map_eq_nil_iff] at hempty
    exact String.toList_eq_nil_iff.mp hempty

/-- A call for one edit. -/
def oneEdit : Object :=
  [("edits", .list [.dict [("find", .str "a"), ("replace", .str "")]])]

theorem survives_iff_oneEdit :
    Survives Runtime.plain Json.FloatText.plain "edit_document" oneEdit
        (.editDocument [("a", "")]) ↔
      Separable Runtime.plain (.editDocument [("a", "")]) :=
  survives_iff Runtime.plain Json.FloatText.plain lowersTexts_plain (by decide)
    ⟨_, rfl, .cons ⟨_, rfl, rfl, rfl⟩ .nil⟩ trivial

/-- A call for a page, which has a title of its own. -/
def htmlPage : Object :=
  [("title", .str "Page"), ("language", .str "html"), ("content", .str "<title>Home</title>")]

theorem not_survives_htmlPage :
    ¬ Survives Runtime.plain Json.FloatText.plain "create_document" htmlPage
      (.createDocument "Page" (some "html") "<title>Home</title>") := by
  rintro ⟨content, hblock, htitle, -, -⟩
  have hwritten : functionCallToToolBlock Runtime.plain "create_document" htmlPage =
      .ok (some ⟨"create_document", .str "Page\nhtml\n<title>Home</title>"⟩) := by
    rfl
  rw [hwritten] at hblock
  cases hblock
  revert htitle
  decide

end Pandamonium.ToolText
