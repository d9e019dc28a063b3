import Pandamonium.Analysis.FormBullets

/-!
# Values read back from the markdown of a form

The document that is written for a form gives back the values of its fields, a signature that is not
chosen and a placeholder as no value at all.  With names that differ, bullets on one line each and no
further bullets in the texts around them, it does so exactly where each name is kept in ASCII and each
bullet is legible.
-/

set_option autoImplicit false

namespace Pandamonium.PdfForm

open Pandamonium.Library
open Pandamonium.ToolText

variable {rt : Runtime}

/-! ## Fields -/

/-- Whether a checkbox holds a text, or something else that is true. -/
def Field.ticked (rt : Runtime) (f : Field) : Bool :=
  match f.value with
  | .str _ => flatten rt f.value != ""
  | v => v.truthy

/-- The value of a field, without its line breaks. -/
def Field.held (rt : Runtime) (f : Field) : Value :=
  match f.type with
  | .checkbox => .bool (f.ticked rt)
  | _ => .str (flatten rt f.value)

/-- The value that the document is to give back: a signature has one where it has been chosen, and a
placeholder stands for none. -/
def Field.offered (rt : Runtime) (f : Field) : Value :=
  match f.type with
  | .checkbox => .bool (f.ticked rt)
  | .signature =>
    if "signature:".toList.isPrefixOf (flatten rt f.value).toList then .str (flatten rt f.value)
    else .str ""
  | _ => .str (withoutPlaceholder (flatten rt f.value))

/-- The pattern of the field's type finds the value where the bullet has it: behind a label, past its
first character, that holds no `:**`, or behind the options. -/
def Field.Legible (rt : Runtime) (f : Field) : Prop :=
  let label := (f.shownLabel rt).toList.tail
  let options := (" / ".intercalate f.options).toList
  match f.type with
  | .checkbox => (flatten rt f.value != "") = f.ticked rt
  | .choice =>
    searchFirst readOptions (optionsPart label options) = some [] ∨
      searchFirst readOptions (optionsPart label options) = none ∧ f.offered rt = .str ""
  | _ => FirstBehind ":**".toList label

theorem offered_eq {f : Field} (h : f.type ≠ .checkbox) :
    f.offered rt = .str (withoutPlaceholder (f.shown rt)) := by
  have hempty : withoutPlaceholder "" = "" := by decide
  have hnone : withoutPlaceholder "_(empty)_" = "" ∧
      withoutPlaceholder "_(not selected)_" = "" ∧ withoutPlaceholder "_(unsigned)_" = "" := by
    decide
  have hsigned : ∀ p ∈ placeholders, ¬ "signature:".toList.isPrefixOf p.toList = true := by decide
  have hunsigned : ¬ "signature:".toList.isPrefixOf "".toList = true := by decide
  unfold Field.offered Field.shown
  cases htype : f.type with
  | checkbox => exact absurd htype h
  | signature =>
    simp only
    by_cases hprefix : "signature:".toList.isPrefixOf (flatten rt f.value).toList = true
    · have hvalue : flatten rt f.value ≠ "" := fun heq => hunsigned (heq ▸ hprefix)
      rw [if_pos hprefix, if_pos ⟨hvalue, hprefix⟩, withoutPlaceholder, if_neg]
      exact fun hmem => hsigned _ hmem hprefix
    · rw [if_neg hprefix, if_neg fun hboth => hprefix hboth.2, hnone.2.2]
  | _ =>
    simp only
    by_cases hvalue : flatten rt f.value = ""
    · rw [hvalue, if_neg (not_not_intro rfl), hempty]
      simp only [hnone]
    · rw [if_pos hvalue]

theorem offered_eq_empty_iff {f : Field} (h : f.type ≠ .checkbox) :
    f.offered rt = .str "" ↔ f.shown rt ∈ placeholders := by
  rw [offered_eq h, Value.str.injEq, withoutPlaceholder]
  split
  · rename_i hmem
    exact iff_of_true rfl hmem
  · rename_i hmem
    exact iff_of_false (fun heq => (shown_solid rt f).2 (by rw [heq]; rfl)) hmem

/-- The value of a field is read back where its bullet is legible. -/
theorem readValue_eq_offered_iff {f : Field} (hlabel : f.shownLabel rt ≠ "") :
    readValue f.type.word.toList (f.body rt).toList = f.offered rt ↔ f.Legible rt := by
  obtain ⟨hshown, hne⟩ := shown_solid rt f
  obtain ⟨x, label, hcons⟩ :=
    List.exists_cons_of_ne_nil (mt String.toList_eq_nil_iff.mp hlabel)
  have hcheckboxWord : ∀ type : FieldType,
      type.word.toList = "checkbox".toList ↔ type = .checkbox := by
    intro type
    cases type <;> decide
  have hchoiceWord : ∀ type : FieldType, type.word.toList = "choice".toList ↔ type = .choice := by
    intro type
    cases type <;> decide
  unfold readValue
  simp only [hcheckboxWord, hchoiceWord]
  by_cases hcheckbox : f.type = .checkbox
  · have hticked : readTick (f.body rt).toList = (flatten rt f.value != "") := by
      rw [toList_body_checkbox hcheckbox, readTick, lstrip_cons (by decide)]
      by_cases hvalue : flatten rt f.value = ""
      · simp [hvalue]
      · simp [hvalue]
    rw [if_pos hcheckbox, hticked]
    simp only [Field.offered, Field.Legible, hcheckbox, Value.bool.injEq]
  · rw [if_neg hcheckbox, offered_eq hcheckbox, Value.str.injEq]
    by_cases hchoice : f.type = .choice
    · have hiff := withoutPlaceholder_choice_iff x label (" / ".intercalate f.options).toList
        hshown hne
      rw [if_pos hchoice, toList_body_choice hchoice, hcons]
      simp only [optionsPart, List.cons_append, List.append_assoc] at hiff ⊢
      rw [hiff, ← offered_eq_empty_iff hcheckbox]
      simp only [Field.Legible, hchoice, hcons, List.tail_cons, optionsPart, List.append_assoc]
    · rw [if_neg hchoice, toList_body_text hcheckbox hchoice, hcons, List.cons_append,
        withoutPlaceholder_text_iff label hshown hne]
      unfold Field.Legible
      cases htype : f.type with
      | checkbox => exact absurd htype hcheckbox
      | choice => exact absurd htype hchoice
      | _ => simp only [hcons, List.tail_cons]

/-! ## Lines -/

theorem splitlines_line {line : List Char} (h : ∀ x ∈ line, isLineBreak x = false)
    (rest : List Char) : splitlines (line ++ '\n' :: rest) = line :: splitlines rest := by
  induction line with
  | nil =>
    rw [List.nil_append, splitlines, if_pos (by decide)]
    intro _ hreturn
    exact absurd hreturn (by decide)
  | cons x line ih =>
    have hx := h x List.mem_cons_self
    rw [List.cons_append, splitlines, if_neg (by rw [hx]; exact Bool.false_ne_true),
      ih fun y hy => h y (List.mem_cons_of_mem x hy)]
    rintro _ rfl
    exact absurd hx (by decide)

theorem none_isLineBreak {cs : List Char} (h : cs.any isLineBreak = false) :
    ∀ x ∈ cs, isLineBreak x = false := fun x hx =>
  Bool.eq_false_iff.mpr (List.any_eq_false.mp h x hx)

theorem splitlines_cons {x : Char} {cs : List Char} (h : ∀ cs', x = '\r' → cs ≠ '\n' :: cs') :
    splitlines (x :: cs) =
      if isLineBreak x then [] :: splitlines cs
      else
        match splitlines cs with
        | [] => [[x]]
        | line :: lines => (x :: line) :: lines := by
  rw [splitlines]
  all_goals first | exact h | rfl

theorem splitlines_ne_nil {cs : List Char} (h : cs ≠ []) : splitlines cs ≠ [] := by
  fun_cases splitlines cs with
  | case1 => exact absurd rfl h
  | _ => exact List.cons_ne_nil _ _

/-- The lines of a text that ends in a line feed come before those of what follows. -/
theorem splitlines_append (text rest : List Char) :
    splitlines (text ++ '\n' :: rest) = splitlines (text ++ ['\n']) ++ splitlines rest := by
  have hfeed : ∀ rest : List Char, splitlines ('\n' :: rest) = [] :: splitlines rest :=
    fun rest => splitlines_line (fun x hx => absurd hx List.not_mem_nil) rest
  have hstep : ∀ (x : Char) (cs : List Char), (∀ cs', x = '\r' → cs ≠ '\n' :: cs') →
      splitlines (cs ++ '\n' :: rest) = splitlines (cs ++ ['\n']) ++ splitlines rest →
      splitlines (x :: cs ++ '\n' :: rest) =
        splitlines (x :: cs ++ ['\n']) ++ splitlines rest := by
    intro x cs hreturn ih
    simp only [List.cons_append]
    by_cases hpair : x = '\r' ∧ cs = []
    · -- the line feed becomes part of the break
      obtain ⟨rfl, rfl⟩ := hpair
      rfl
    · have hnot : ∀ behind cs' : List Char, x = '\r' → cs ++ '\n' :: behind ≠ '\n' :: cs' := by
        intro behind cs' hx
        cases cs with
        | nil => exact absurd ⟨hx, rfl⟩ hpair
        | cons y cs =>
          intro heq
          exact hreturn cs hx (by rw [(List.cons.inj heq).1])
      rw [splitlines_cons (hnot rest), splitlines_cons (hnot []), ih]
      split
      · rfl
      · obtain ⟨line, lines, hlines⟩ := List.exists_cons_of_ne_nil
          (splitlines_ne_nil (List.append_ne_nil_of_right_ne_nil cs (List.cons_ne_nil '\n' [])))
        rw [hlines]
        rfl
  induction text using splitlines.induct with
  | case1 =>
    rw [List.nil_append, List.nil_append, hfeed, hfeed]
    rfl
  | case2 cs ih =>
    simp only [List.cons_append]
    rw [splitlines, splitlines, ih, List.cons_append]
  | case3 x cs hreturn _ ih => exact hstep x cs hreturn ih
  | case4 x cs hreturn _ _ ih => exact hstep x cs hreturn ih
  | case5 x cs hreturn _ _ _ _ ih => exact hstep x cs hreturn ih

/-! ### Bullets on one line -/

/-- The texts of a field that are shown as they are hold no line breaks: its name, where it stands for
the label, and the options of a choice. -/
structure Field.OnOneLine (rt : Runtime) (f : Field) : Prop where
  label : flatten rt f.label = "" → ∀ x ∈ f.name.toList, isLineBreak x = false
  options : f.type = .choice → ∀ option ∈ f.options, ∀ x ∈ option.toList, isLineBreak x = false

theorem isLineBreak_of_isSpace {x : Char} (h : isSpace x = false) : isLineBreak x = false := by
  by_contra hbreak
  rw [isSpace_of_isLineBreak (by simpa using hbreak)] at h
  cases h

theorem isLineBreak_flatten {v : Value} {x : Char} (hx : x ∈ (flatten rt v).toList) :
    isLineBreak x = false := by
  by_contra hbreak
  have hbreak : isLineBreak x = true := by simpa using hbreak
  rw [eq_of_mem_flatten hx (isSpace_of_isLineBreak hbreak)] at hbreak
  exact absurd hbreak (by decide)

theorem mem_intercalate {α : Type} {sep : List α} {pieces : List (List α)} {x : α}
    (h : x ∈ sep.intercalate pieces) : x ∈ sep ∨ ∃ piece ∈ pieces, x ∈ piece := by
  induction pieces with
  | nil => cases h
  | cons piece pieces ih =>
    cases pieces with
    | nil =>
      rw [List.intercalate_singleton] at h
      exact Or.inr ⟨piece, List.mem_cons_self, h⟩
    | cons piece' pieces =>
      rw [List.intercalate_cons_cons, List.mem_append, List.mem_append] at h
      rcases h with (h | h) | h
      · exact Or.inr ⟨piece, List.mem_cons_self, h⟩
      · exact Or.inl h
      · rcases ih h with h | ⟨found, hfound, h⟩
        · exact Or.inl h
        · exact Or.inr ⟨found, List.mem_cons_of_mem _ hfound, h⟩

theorem Field.OnOneLine.shownLabel {f : Field} (h : f.OnOneLine rt) :
    ∀ x ∈ (f.shownLabel rt).toList, isLineBreak x = false := by
  unfold Field.shownLabel
  split
  · exact fun x hx => isLineBreak_flatten hx
  · rename_i hempty
    exact h.label (not_not.mp hempty)

theorem isLineBreak_shown (f : Field) : ∀ x ∈ (f.shown rt).toList, isLineBreak x = false := by
  have hplaceholders : ∀ p ∈ placeholders, ∀ x ∈ p.toList, isLineBreak x = false := fun p hp =>
    none_isLineBreak ((by decide : ∀ p ∈ placeholders, p.toList.any isLineBreak = false) p hp)
  have hvalue : ∀ p ∈ placeholders, ∀ (ok : Prop) [Decidable ok],
      ∀ x ∈ (if ok then flatten rt f.value else p).toList, isLineBreak x = false := by
    intro p hp ok _
    split
    · exact fun x hx => isLineBreak_flatten hx
    · exact hplaceholders p hp
  unfold Field.shown
  cases f.type with
  | choice => exact hvalue _ (by decide) _
  | signature => exact hvalue _ (by decide) _
  | _ => exact hvalue _ (by decide) _

theorem Field.OnOneLine.body {f : Field} (h : f.OnOneLine rt) :
    ∀ x ∈ (f.body rt).toList, isLineBreak x = false := by
  intro x hx
  by_cases hcheckbox : f.type = .checkbox
  · have hopening : isLineBreak '[' = false ∧ isLineBreak ']' = false ∧
        isLineBreak (if flatten rt f.value ≠ "" then 'x' else ' ') = false := by
      refine ⟨by decide, by decide, ?_⟩
      split <;> decide
    have hstars : (∀ x ∈ " **".toList, isLineBreak x = false) ∧
        ∀ x ∈ "**".toList, isLineBreak x = false :=
      ⟨none_isLineBreak (by decide), none_isLineBreak (by decide)⟩
    rw [toList_body_checkbox hcheckbox] at hx
    simp only [List.mem_cons, List.mem_append] at hx
    rcases hx with rfl | rfl | rfl | (hx | hx) | hx
    · exact hopening.1
    · exact hopening.2.2
    · exact hopening.2.1
    · exact hstars.1 x hx
    · exact h.shownLabel x hx
    · exact hstars.2 x hx
  · by_cases hchoice : f.type = .choice
    · have hopening : (∀ x ∈ "** [".toList, isLineBreak x = false) ∧
          ∀ x ∈ "]:".toList, isLineBreak x = false :=
        ⟨none_isLineBreak (by decide), none_isLineBreak (by decide)⟩
      rw [toList_body_choice hchoice] at hx
      simp only [List.mem_cons, List.mem_append] at hx
      rcases hx with rfl | rfl | (hx | (hx | hx) | hx) | rfl | hx
      · decide
      · decide
      · exact h.shownLabel x hx
      · exact hopening.1 x hx
      · rw [String.toList_intercalate] at hx
        rcases mem_intercalate hx with hx | ⟨piece, hpiece, hx⟩
        · have hslash : ∀ x ∈ " / ".toList, isLineBreak x = false := none_isLineBreak (by decide)
          exact hslash x hx
        · obtain ⟨option, hoption, rfl⟩ := List.mem_map.mp hpiece
          exact h.options hchoice option hoption x hx
      · exact hopening.2 x hx
      · decide
      · exact isLineBreak_shown f x hx
    · have hmarker : ∀ x ∈ ":**".toList, isLineBreak x = false := none_isLineBreak (by decide)
      rw [toList_body_text hcheckbox hchoice] at hx
      simp only [List.mem_cons, List.mem_append] at hx
      rcases hx with rfl | rfl | hx | hx | rfl | hx
      · decide
      · decide
      · exact h.shownLabel x hx
      · exact hmarker x hx
      · decide
      · exact isLineBreak_shown f x hx

theorem Field.OnOneLine.bullet (hwords : Words rt) {f : Field} (h : f.OnOneLine rt) :
    ∀ x ∈ (formatFieldBullet rt f).toList, isLineBreak x = false := by
  have hopening : ∀ x ∈ "!--".toList, isLineBreak x = false := none_isLineBreak (by decide)
  have hfield : ∀ x ∈ "field=".toList, isLineBreak x = false := none_isLineBreak (by decide)
  have htypeIs : ∀ x ∈ "type=".toList, isLineBreak x = false := none_isLineBreak (by decide)
  have hclosing : ∀ x ∈ "-->".toList, isLineBreak x = false := none_isLineBreak (by decide)
  have htype : ∀ x ∈ f.type.word.toList, isLineBreak x = false :=
    none_isLineBreak (by cases f.type <;> decide)
  intro x hx
  rw [toList_formatFieldBullet] at hx
  simp only [anchorTail, List.mem_cons, List.mem_append] at hx
  rcases hx with rfl | rfl | hx | rfl | rfl | hx | rfl | hx | hx | rfl | hx | hx | rfl | hx
  · decide
  · decide
  · exact h.body x hx
  · decide
  · decide
  · exact hopening x hx
  · decide
  · exact hfield x hx
  · exact isLineBreak_of_isSpace (isSpace_encodeName hwords f.name x hx)
  · decide
  · exact htypeIs x hx
  · exact htype x hx
  · decide
  · exact hclosing x hx

/-! ## The document -/

/-- Lines, each with its line feed. -/
def joined (lines : List String) : List Char := lines.flatMap fun line => line.toList ++ ['\n']

theorem toList_intercalate_newline {lines : List String} (h : lines ≠ []) :
    ("\n".intercalate lines ++ "\n").toList = joined lines := by
  have hnewline : "\n".toList = ['\n'] := by decide
  rw [String.toList_append, String.toList_intercalate, hnewline, joined]
  induction lines with
  | nil => exact absurd rfl h
  | cons line lines ih =>
    cases lines with
    | nil =>
      rw [List.map_singleton, List.intercalate_singleton, List.flatMap_cons, List.flatMap_nil,
        List.append_nil]
    | cons line' lines =>
      rw [List.map_cons, List.map_cons, List.intercalate_cons_cons, ← List.map_cons,
        List.append_assoc, ih (List.cons_ne_nil _ _)]
      rfl

theorem joined_cons (line : String) (lines : List String) :
    joined (line :: lines) = line.toList ++ '\n' :: joined lines := by
  rw [joined, List.flatMap_cons, List.append_assoc, List.singleton_append, ← joined]

theorem splitlines_joined_append (lines : List String) (rest : List Char) :
    splitlines (joined lines ++ rest) = splitlines (joined lines) ++ splitlines rest := by
  induction lines with
  | nil => rfl
  | cons line lines ih =>
    rw [joined_cons, List.append_assoc, List.cons_append, splitlines_append, ih, splitlines_append _
      (joined lines), List.append_assoc]

theorem splitlines_joined {lines : List String}
    (h : ∀ line ∈ lines, ∀ x ∈ line.toList, isLineBreak x = false) :
    splitlines (joined lines) = lines.map String.toList := by
  induction lines with
  | nil => rfl
  | cons line lines ih =>
    rw [joined_cons, splitlines_line (h line List.mem_cons_self),
      ih fun l hl => h l (List.mem_cons_of_mem _ hl), List.map_cons]

/-- No line before the fields and none behind them is a bullet with a comment. -/
def NothingBeside (rt : Runtime) (form : Form) : Prop :=
  ∀ line ∈ splitlines (joined (preface form)) ++ splitlines (joined (appendix form)),
    readLine rt line = none

theorem isLineBreak_page (page : Int) :
    ∀ x ∈ (toString page).toList, isLineBreak x = false := by
  have hdigits : ∀ n : ℕ, ∀ x ∈ (Nat.repr n).toList, isLineBreak x = false := by
    intro n x hx
    rw [Nat.repr, String.toList_ofList] at hx
    have hdigit := Nat.isDigit_of_mem_toDigits (by decide) (by decide) hx
    refine isLineBreak_of_isSpace (isSpace_eq_false_of_isNameChar ?_)
    rw [isNameChar, Char.isAlphanum, hdigit, Bool.or_true, Bool.true_or]
  intro x hx
  cases page with
  | ofNat n => exact hdigits n x hx
  | negSucc n =>
    have hminus : (toString (Int.negSucc n)).toList = '-' :: (Nat.repr (n + 1)).toList := by
      rw [show toString (Int.negSucc n) = "-" ++ Nat.repr (n + 1) from rfl, String.toList_append]
      rfl
    rw [hminus] at hx
    rcases List.mem_cons.mp hx with rfl | hx
    · decide
    · exact hdigits (n + 1) x hx

theorem readLine_of_head {x : Char} (hspace : isSpace x = false) (hx : x ≠ '-') (cs : List Char) :
    readLine rt (x :: cs) = none := by
  have hnone : (x :: cs).dropPrefix? ['-'] = none := by
    rw [Option.eq_none_iff_forall_ne_some]
    intro rest hrest
    rw [dropPrefix?_eq_some] at hrest
    exact hx (List.cons.inj hrest).1
  rw [readLine, readBullet, lstrip_cons hspace, hnone]
  rfl

/-- The lines of the fields are read as their bullets. -/
theorem filterMap_fieldLines (hwords : Words rt) {fields : List Field} (lastPage : Option Int)
    (h : ∀ f ∈ fields, f.OnOneLine rt) :
    (splitlines (joined (fieldLines rt lastPage fields))).filterMap (readLine rt) =
      fields.filterMap fun f => readLine rt (formatFieldBullet rt f).toList := by
  have hheading : ∀ page : Int, ("## Page " ++ toString page).toList =
      '#' :: ("# Page ".toList ++ (toString page).toList) := by
    intro page
    rw [String.toList_append]
    rfl
  induction fields generalizing lastPage with
  | nil => rfl
  | cons f fields ih =>
    have hlines : ∀ line ∈ (if some f.page ≠ lastPage then ["", "## Page " ++ toString f.page, ""]
        else []), (∀ x ∈ line.toList, isLineBreak x = false) ∧ readLine rt line.toList = none := by
      have hempty : (∀ x ∈ "".toList, isLineBreak x = false) ∧ readLine rt "".toList = none :=
        ⟨fun x hx => absurd hx List.not_mem_nil, rfl⟩
      have hpage : (∀ x ∈ ("## Page " ++ toString f.page).toList, isLineBreak x = false) ∧
          readLine rt ("## Page " ++ toString f.page).toList = none := by
        refine ⟨fun x hx => ?_, ?_⟩
        · have htitle : ∀ x ∈ "## Page ".toList, isLineBreak x = false :=
            none_isLineBreak (by decide)
          rw [String.toList_append, List.mem_append] at hx
          exact hx.elim (htitle x) (isLineBreak_page f.page x)
        · rw [hheading]
          exact readLine_of_head (by decide) (by decide) _
      split
      · simp only [List.mem_cons, List.not_mem_nil, or_false]
        rintro line (rfl | rfl | rfl)
        · exact hempty
        · exact hpage
        · exact hempty
      · exact fun line hline => absurd hline List.not_mem_nil
    have hbullet := (h f List.mem_cons_self).bullet hwords
    have hrest := ih (some f.page) fun g hg => h g (List.mem_cons_of_mem _ hg)
    rw [fieldLines, joined, List.flatMap_append, ← joined, ← joined, splitlines_joined_append,
      splitlines_joined fun line hline => (hlines line hline).1, List.filterMap_append,
      joined, List.flatMap_cons, List.append_assoc, List.singleton_append, ← joined,
      splitlines_line hbullet, List.filterMap_cons, List.filterMap_cons, hrest]
    rw [List.filterMap_eq_nil_iff.mpr]
    · rfl
    · intro cs hcs
      obtain ⟨line, hline, rfl⟩ := List.mem_map.mp hcs
      exact (hlines line hline).2

/-- What the document gives back is what its bullets give back, in their order. -/
theorem parseMarkdownToValues_render (hwords : Words rt) {form : Form}
    (hbeside : NothingBeside rt form) (hline : ∀ f ∈ form.fields, f.OnOneLine rt) :
    parseMarkdownToValues rt (renderFormAsMarkdown rt form) =
      (form.fields.filterMap fun f => readLine rt (formatFieldBullet rt f).toList).foldl
        (fun values found => values.set found.1 found.2) Dict.empty := by
  have hnone : ∀ lines : List (List Char), (∀ line ∈ lines, readLine rt line = none) →
      lines.filterMap (readLine rt) = [] := fun _ => List.filterMap_eq_nil_iff.mpr
  have hdocument : (renderFormAsMarkdown rt form).toList =
      joined (preface form) ++ (joined (fieldLines rt none form.fields) ++
        joined (appendix form)) := by
    have hne : preface form ++ (fieldLines rt none form.fields ++ appendix form) ≠ [] :=
      List.append_ne_nil_of_left_ne_nil (List.cons_ne_nil _ _) _
    rw [renderFormAsMarkdown, toList_intercalate_newline hne]
    simp only [joined, List.flatMap_append]
  have hlines : (splitlines (renderFormAsMarkdown rt form).toList).filterMap (readLine rt) =
      form.fields.filterMap fun f => readLine rt (formatFieldBullet rt f).toList := by
    rw [hdocument, splitlines_joined_append, splitlines_joined_append, List.filterMap_append,
      List.filterMap_append, filterMap_fieldLines hwords none hline,
      hnone _ fun line hmem => hbeside line (List.mem_append_left _ hmem),
      hnone _ fun line hmem => hbeside line (List.mem_append_right _ hmem), List.nil_append,
      List.append_nil]
  rw [← hlines, List.foldl_filterMap, parseMarkdownToValues]
  congr 1
  funext values line
  cases readLine rt line with
  | none => rfl
  | some found => rfl

/-! ## What is read back -/

/-- Under the name of each field its value is found, and nothing is found under other names. -/
def ReadsBack (rt : Runtime) (value : Field → Value) (form : Form) : Prop :=
  let values := parseMarkdownToValues rt (renderFormAsMarkdown rt form)
  (∀ f ∈ form.fields, values.get? f.name = some (value f)) ∧
    ∀ name, (values.get? name).isSome → ∃ f ∈ form.fields, f.name = name

/-- With distinct names, bullets on one line each, and no bullets beside them, the values are read
back exactly where each name is taken by the pattern of a bullet and each bullet is legible. -/
theorem readsBack_iff (hwords : Words rt) {form : Form}
    (hdistinct : (form.fields.map Field.name).Nodup) (hbeside : NothingBeside rt form)
    (hline : ∀ f ∈ form.fields, f.OnOneLine rt) :
    ReadsBack rt (Field.offered rt) form ↔ ∀ f ∈ form.fields, f.Named rt ∧ f.Legible rt := by
  classical
  have hread : ∀ f : Field, readLine rt (formatFieldBullet rt f).toList =
      if f.Named rt then some (f.name, readValue f.type.word.toList (f.body rt).toList)
      else none :=
    fun f => readLine_formatFieldBullet hwords f (body_solid f).1 (body_solid f).2
  have hname : ∀ f found, readLine rt (formatFieldBullet rt f).toList = some found →
      found.1 = f.name := by
    intro f found hfound
    rw [hread] at hfound
    split at hfound
    · rw [← Option.some.inj hfound]
    · cases hfound
  have hsublist : ∀ fields : List Field, ((fields.filterMap fun f =>
      readLine rt (formatFieldBullet rt f).toList).map Prod.fst).Sublist
        (fields.map Field.name) := by
    intro fields
    induction fields with
    | nil => exact List.Sublist.refl _
    | cons f fields ih =>
      rw [List.filterMap_cons, List.map_cons]
      cases hfound : readLine rt (formatFieldBullet rt f).toList with
      | none => exact ih.cons _
      | some found =>
        rw [← hname f found hfound]
        exact ih.cons_cons _
  have hnodup := (hsublist form.fields).nodup hdistinct
  rw [ReadsBack, parseMarkdownToValues_render hwords hbeside hline]
  generalize hentries : (form.fields.filterMap fun f =>
    readLine rt (formatFieldBullet rt f).toList) = entries at hnodup
  have hmem : ∀ found, found ∈ entries ↔
      ∃ f ∈ form.fields, readLine rt (formatFieldBullet rt f).toList = some found := by
    intro found
    rw [← hentries, List.mem_filterMap]
  -- under its name a field finds what its own bullet gives back, as no other has that name
  have hget : ∀ f ∈ form.fields,
      (entries.foldl (fun values found => values.set found.1 found.2)
        (Dict.empty : Dict String Value)).get? f.name =
        if f.Named rt then some (readValue f.type.word.toList (f.body rt).toList) else none := by
    intro f hf
    split
    · rename_i hnamed
      refine Dict.get?_foldl_set hnodup ((hmem _).mpr ⟨f, hf, ?_⟩) _
      rw [hread, if_pos hnamed]
    · rename_i hnamed
      rw [Dict.get?_foldl_set_of_not_mem]
      · rfl
      · intro hkey
        obtain ⟨found, hfound, hfst⟩ := List.mem_map.mp hkey
        obtain ⟨g, hg, hfound⟩ := (hmem found).mp hfound
        have hsame : g = f := List.inj_on_of_nodup_map hdistinct hg hf
          ((hname g found hfound).symm.trans hfst)
        rw [hsame, hread, if_neg hnamed] at hfound
        cases hfound
  have hlabel : ∀ f : Field, f.Named rt → f.shownLabel rt ≠ "" := by
    intro f hnamed
    unfold Field.shownLabel
    split
    · assumption
    · exact hnamed.1
  constructor
  · rintro ⟨hvalues, -⟩ f hf
    have hvalue := hvalues f hf
    rw [hget f hf] at hvalue
    split at hvalue
    · rename_i hnamed
      exact ⟨hnamed, (readValue_eq_offered_iff (hlabel f hnamed)).mp (Option.some.inj hvalue)⟩
    · cases hvalue
  · intro hall
    constructor
    · intro f hf
      obtain ⟨hnamed, hlegible⟩ := hall f hf
      rw [hget f hf, if_pos hnamed, (readValue_eq_offered_iff (hlabel f hnamed)).mpr hlegible]
    · intro name hsome
      by_contra hnone
      rw [Dict.get?_foldl_set_of_not_mem] at hsome
      · cases hsome
      · intro hkey
        obtain ⟨found, hfound, hfst⟩ := List.mem_map.mp hkey
        obtain ⟨f, hf, hfound⟩ := (hmem found).mp hfound
        exact hnone ⟨f, hf, (hname f found hfound).symm.trans hfst⟩

theorem words_plain : Words Runtime.plain where
  ascii _ _ := rfl
  notSpace x h := by
    refine isSpace_eq_false_of_isNameChar ?_
    rw [isNameChar, Bool.or_eq_true]
    rcases (Bool.or_eq_true _ _).mp h with h | h
    · exact Or.inl h
    · rw [eq_of_beq h]
      exact Or.inr rfl

/-- A form with a field of each kind; its signature has not been chosen. -/
def taxForm : Form where
  fields :=
    [⟨"topmost.name[0]", .str "Name *", .text, .str "Ann Lee: 9:00", [], 1⟩,
      ⟨"state", .str "State", .choice, .str "NY", ["CA", "NY"], 1⟩,
      ⟨"agree", .null, .checkbox, .str "Yes", [], 2⟩,
      ⟨"sign", .str "Signature", .signature, .str "Ann", [], 2⟩]
  uploadId := "a.pdf"
  title := "Tax"
  introText := some "Form 1"

theorem lines_taxForm : ∀ lines ∈ [preface taxForm, appendix taxForm],
    ∀ line ∈ lines.map String.toList,
      (∀ x ∈ line, isLineBreak x = false) ∧ readLine Runtime.plain line = none := by
  have happendix : appendix taxForm =
      ["", "---", "", "## Original form text", "", "Form 1"] := by
    decide +kernel
  have hall : [preface taxForm, appendix taxForm].all (fun lines =>
      (lines.map String.toList).all fun line => line.all (fun x => !isLineBreak x) &&
        (readLine Runtime.plain line).isNone) = true := by
    rw [happendix]
    simp only [preface, taxForm, List.map_cons, List.map_nil, String.toList_append]
    -- with the characters written out, none of them is decoded from its bytes
    repeat rw [String.toList_ofList]
    decide +kernel
  intro lines hlines line hline
  have hline := List.all_eq_true.mp (List.all_eq_true.mp hall lines hlines) line hline
  rw [Bool.and_eq_true, Option.isNone_iff_eq_none, List.all_eq_true] at hline
  exact ⟨fun x hx => by simpa using hline.1 x hx, hline.2⟩

theorem taxForm_fields : (taxForm.fields.map Field.name).Nodup ∧
    NothingBeside Runtime.plain taxForm ∧
    (∀ f ∈ taxForm.fields, f.OnOneLine Runtime.plain) ∧
    (∀ f ∈ taxForm.fields, f.Named Runtime.plain) ∧
    ∀ f ∈ taxForm.fields, f.Legible Runtime.plain := by
  refine ⟨by decide, ?_, ?_, ?_, ?_⟩
  · have hread : ∀ lines ∈ [preface taxForm, appendix taxForm],
        ∀ line ∈ splitlines (joined lines), readLine Runtime.plain line = none := by
      intro lines hlines line hline
      rw [splitlines_joined fun l hl =>
        (lines_taxForm lines hlines _ (List.mem_map_of_mem hl)).1] at hline
      exact (lines_taxForm lines hlines line hline).2
    intro line hline
    rcases List.mem_append.mp hline with hline | hline
    · exact hread _ List.mem_cons_self line hline
    · exact hread _ (List.mem_cons_of_mem _ List.mem_cons_self) line hline
  · have hlabel : ∀ f ∈ taxForm.fields, f.name.toList.any isLineBreak = false := by decide
    have hoptions : ∀ f ∈ taxForm.fields, ∀ option ∈ f.options,
        option.toList.any isLineBreak = false := by
      decide
    exact fun f hf => ⟨fun _ => none_isLineBreak (hlabel f hf),
      fun _ option hoption => none_isLineBreak (hoptions f hf option hoption)⟩
  · have hnamed : ∀ f ∈ taxForm.fields, f.name ≠ "" ∧
        f.name.toList.all (fun x => !Runtime.plain.isWord x || decide (x.toNat < 128)) = true := by
      decide +kernel
    refine fun f hf => ⟨(hnamed f hf).1, fun x hx hword => ?_⟩
    simpa [hword] using List.all_eq_true.mp (hnamed f hf).2 x hx
  · simp only [taxForm, List.forall_mem_cons, Field.Legible]
    refine ⟨?_, Or.inl (by decide +kernel), by decide +kernel, ?_, fun _ h => by cases h⟩
    · unfold FirstBehind
      decide +kernel
    · unfold FirstBehind
      decide +kernel

end Pandamonium.PdfForm
