import Pandamonium.Analysis.StrippedThoughts

/-!
# What the passes on prose leave

The prompt echo is taken off at the front, and paragraphs of reasoning are, where the paragraphs
that stay are joined again.  What is left is part of the text in its order and spells no think tag
that was not there.
-/

set_option autoImplicit false

namespace Pandamonium.ThinkTags

open Library

variable {rt : Runtime} {a b cs text body : List Char}

/-! ## Echoes -/

theorem dropUntil_suffix (stops : List Char → Bool) (cs : List Char) : dropUntil stops cs <:+ cs := by
  induction cs with
  | nil => exact List.suffix_refl _
  | cons x cs ih =>
    rw [dropUntil]
    split
    · exact List.suffix_refl _
    · exact ih.trans (List.suffix_cons ..)

theorem dropQwenThinking_suffix (out : List Char) : dropQwenThinking out <:+ out := by
  rw [dropQwenThinking]
  split
  · exact List.suffix_refl _
  · rename_i hrest
    rw [dropWord_eq_drop hrest]
    exact (dropUntil_suffix ..).trans (List.drop_suffix ..)

theorem dropPromptEcho_suffix (header out : List Char) : dropPromptEcho header out <:+ out := by
  rw [dropPromptEcho]
  split
  · exact (dropUntil_suffix ..).trans (List.drop_suffix ..)
  · exact List.suffix_refl _

theorem dropEchoes_suffix (out : List Char) : dropEchoes out <:+ out :=
  (dropPromptEcho_suffix ..).trans ((dropPromptEcho_suffix ..).trans (dropQwenThinking_suffix out))

/-! ## Joined paragraphs -/

/-- The first text is the second one with the blank lines between some lines made the same. -/
inductive Widens : List Char → List Char → Prop
  | nil : Widens [] []
  | same (x : Char) {a b} (rest : Widens a b) : Widens (x :: a) (x :: b)
  | gap (w : List Char) {a b} (blank : ∀ x ∈ w, isSpace x = true) (rest : Widens a b) :
    Widens ('\n' :: '\n' :: a) ('\n' :: (w ++ '\n' :: b))

theorem Widens.sublist (h : Widens a b) : a.Sublist b := by
  induction h with
  | nil => exact .slnil
  | same x _ ih => exact ih.cons_cons x
  | gap w _ _ ih => exact ((ih.cons_cons '\n').trans (List.sublist_append_right w _)).cons_cons '\n'

theorem isInside_of_isSpace {x : Char} (h : isSpace x = true) : x ≠ '<' ∧ x ≠ '>' := by
  constructor
  · rintro rfl
    exact absurd h (by decide)
  · rintro rfl
    exact absurd h (by decide)

theorem closedBody_char {x : Char} (hlt : x ≠ '<') (hgt : x ≠ '>') (ts : List Token) :
    closedBody (.char x :: ts) = (closedBody ts).map (x :: ·) := by
  rw [closedBody, if_neg hgt, if_neg hlt]

theorem closedBody_blank {w : List Char} (hw : ∀ x ∈ w, isSpace x = true) (ts : List Token) :
    closedBody (w.map .char ++ ts) = (closedBody ts).map (w ++ ·) := by
  induction w with
  | nil => simp
  | cons x w ih =>
    obtain ⟨hlt, hgt⟩ := isInside_of_isSpace (hw x (List.mem_cons_self ..))
    rw [List.map_cons, List.cons_append, closedBody_char hlt hgt,
      ih fun y hy => hw y (List.mem_cons_of_mem _ hy), Option.map_map]
    rfl

/-- A tag of the first text is one of the second with blank lines in it. -/
theorem Widens.body_of_body (h : Widens a b) (hbody : closedBody (a.map .char) = some body) :
    ∃ wide, closedBody (b.map .char) = some wide ∧ Widens body wide := by
  induction h generalizing body with
  | nil => cases hbody
  | same x rest ih =>
    rw [List.map_cons, closedBody] at hbody ⊢
    split
    · rename_i hgt
      rw [if_pos hgt] at hbody
      cases hbody
      exact ⟨[], rfl, .nil⟩
    · rename_i hgt
      rw [if_neg hgt] at hbody
      split
      · rename_i hlt
        rw [if_pos hlt] at hbody
        cases hbody
      · rename_i hlt
        rw [if_neg hlt] at hbody
        obtain ⟨found, hfound, rfl⟩ := Option.map_eq_some_iff.mp hbody
        obtain ⟨wide, hwide, hwidens⟩ := ih hfound
        exact ⟨x :: wide, by rw [hwide]; rfl, hwidens.same x⟩
  | gap w blank rest ih =>
    have hnewline : ∀ ts, closedBody (.char '\n' :: ts) =
        (closedBody ts).map ('\n' :: ·) := closedBody_char (by decide) (by decide)
    rw [List.map_cons, List.map_cons, hnewline, hnewline, Option.map_map] at hbody
    obtain ⟨found, hfound, rfl⟩ := Option.map_eq_some_iff.mp hbody
    obtain ⟨wide, hwide, hwidens⟩ := ih hfound
    refine ⟨'\n' :: (w ++ '\n' :: wide), ?_, hwidens.gap w blank⟩
    rw [List.map_cons, List.map_append, List.map_cons, hnewline, closedBody_blank blank, hnewline,
      hwide]
    rfl

theorem Widens.word_of_word {word rest : List Char} (h : Widens a b)
    (hword : ∀ letter ∈ word, isLetter letter '\n' = false)
    (hrest : dropWord word a = some rest) : ∃ rest', dropWord word b = some rest' := by
  induction word generalizing a b with
  | nil => exact ⟨b, rfl⟩
  | cons letter word ih =>
    cases h with
    | nil => cases hrest
    | same x h =>
      rw [dropWord] at hrest ⊢
      split at hrest
      · rename_i hx
        rw [if_pos hx]
        exact ih h (fun l hl => hword l (List.mem_cons_of_mem _ hl)) hrest
      · cases hrest
    | gap w blank h =>
      rw [dropWord, hword letter (List.mem_cons_self ..),
        if_neg Bool.false_ne_true] at hrest
      cases hrest

theorem Widens.named_of_named (h : Widens a b) (hnamed : named thinkTagName (fun _ => true) a = true) :
    named thinkTagName (fun _ => true) b = true := by
  obtain ⟨name, hname, rest, hrest, -⟩ := named_iff.mp hnamed
  have hall : (thinkTagName.all fun name => name.all fun letter => !isLetter letter '\n') = true :=
    by decide
  have hword : ∀ letter ∈ name, isLetter letter '\n' = false := by
    intro letter hletter
    simpa using List.all_eq_true.mp (List.all_eq_true.mp hall name hname) letter hletter
  obtain ⟨rest', hrest'⟩ := h.word_of_word hword hrest
  exact named_iff.mpr ⟨name, hname, rest', hrest', rfl⟩

theorem Widens.think_of_think (h : Widens a b) (ha : isThinkTag a = true) : isThinkTag b = true := by
  rcases Bool.or_eq_true_iff.mp ha with ha | ha
  · exact Bool.or_eq_true_iff.mpr (.inl (h.named_of_named ha))
  · refine Bool.or_eq_true_iff.mpr (.inr ?_)
    cases h with
    | nil => cases ha
    | same x h =>
      obtain ⟨hx, ha⟩ := Bool.and_eq_true_iff.mp ha
      exact Bool.and_eq_true_iff.mpr ⟨hx, h.named_of_named ha⟩
    | gap w blank h => exact absurd ha (by simp [slashed])

theorem Widens.tags_eq_nil (h : Widens a b) (hb : tags isThinkTag b = []) : tags isThinkTag a = [] := by
  rw [tags_eq_nil_iff] at hb ⊢
  induction h with
  | nil => trivial
  | same x h ih =>
    refine ⟨fun hx body hbody => ?_, ih hb.2⟩
    obtain ⟨wide, hwide, hwidens⟩ := h.body_of_body hbody
    exact Bool.eq_false_iff.mpr fun htrue =>
      Bool.false_ne_true ((hb.1 hx wide hwide).symm.trans (hwidens.think_of_think htrue))
  | gap w blank h ih =>
    have hlater := hb.2
    rw [List.map_append] at hlater
    have hrest := ih hlater.right.2
    exact ⟨fun hx => absurd hx (by decide), fun hx => absurd hx (by decide), hrest⟩

theorem take_blankLine (h : 0 < blankLine cs) :
    ∃ w, cs.take (blankLine cs) = w ++ ['\n'] ∧ ∀ x ∈ w, isSpace x = true := by
  have hall := SpeechBlocks.all_take_blankLine cs
  have hrun := List.rdropWhile_prefix (· ≠ '\n') (l := cs.takeWhile isSpace)
  have htake := List.prefix_iff_eq_take.mp (hrun.trans (List.takeWhile_prefix isSpace))
  have hlength : blankLine cs = ((cs.takeWhile isSpace).rdropWhile (· ≠ '\n')).length := by
    rw [blankLine, List.rdropWhile, List.length_reverse]
  rw [← hlength] at htake
  rcases List.eq_nil_or_concat (cs.take (blankLine cs)) with hnil | ⟨w, x, hconcat⟩
  · rw [hlength, htake, hnil] at h
    cases h
  · rw [List.concat_eq_append] at hconcat
    have hx : x = '\n' := by
      have hne : (cs.takeWhile isSpace).rdropWhile (· ≠ '\n') ≠ [] := by
        rw [htake, hconcat]
        simp
      have hlast := List.rdropWhile_last_not (· ≠ '\n') (cs.takeWhile isSpace) hne
      simp only [htake, hconcat] at hlast
      simpa using hlast
    refine ⟨w, by rw [hconcat, hx], fun y hy => hall y ?_⟩
    rw [hconcat]
    exact List.mem_append_left _ hy

theorem intercalate_cons_head (sep piece : List Char) (x : Char) (later : List (List Char)) :
    sep.intercalate ((x :: piece) :: later) = x :: sep.intercalate (piece :: later) := by
  cases later with
  | nil => simp
  | cons second later => rw [List.intercalate_cons_cons, List.intercalate_cons_cons]; rfl

/-- Joined again, the pieces of a text are the text with the same blank lines. -/
theorem widens_intercalate (skip : ℕ) (cs : List Char) :
    Widens ("\n\n".toList.intercalate (splitBlankLines skip cs)) (cs.drop skip) := by
  induction cs generalizing skip with
  | nil =>
    cases skip with
    | zero => exact .nil
    | succ skip => exact .nil
  | cons x cs ih =>
    cases skip with
    | succ skip => exact ih skip
    | zero =>
      rw [splitBlankLines, List.drop_zero]
      split
      · rename_i hsep
        obtain ⟨rfl, hpos⟩ := hsep
        obtain ⟨w, htake, hw⟩ := take_blankLine hpos
        obtain ⟨piece, later, hsplit⟩ :=
          List.exists_cons_of_ne_nil (SpeechBlocks.splitBlankLines_ne_nil (blankLine cs) cs)
        have hrest := ih (blankLine cs)
        have hcs : cs = w ++ '\n' :: cs.drop (blankLine cs) := by
          conv_lhs => rw [← List.take_append_drop (blankLine cs) cs, htake]
          simp
        rw [hsplit] at hrest ⊢
        rw [List.intercalate_cons_cons]
        conv_rhs => rw [hcs]
        exact hrest.gap w hw
      · obtain ⟨piece, later, hsplit⟩ :=
          List.exists_cons_of_ne_nil (SpeechBlocks.splitBlankLines_ne_nil 0 cs)
        have hrest := ih 0
        rw [hsplit] at hrest ⊢
        rw [List.modifyHead_cons, intercalate_cons_head]
        exact hrest.same x

/-- The pieces behind some are those of the rest of the text. -/
theorem splitBlankLines_suffix {skip : ℕ} {later : List (List Char)} (hne : later ≠ [])
    (h : later <:+ splitBlankLines skip cs) :
    ∃ rest, rest <:+ cs ∧ splitBlankLines 0 rest = later := by
  induction cs generalizing skip with
  | nil =>
    have hnil : splitBlankLines skip [] = [[]] := by
      cases skip with
      | zero => rfl
      | succ skip => rfl
    rw [hnil] at h
    rcases List.suffix_cons_iff.mp h with rfl | h
    · exact ⟨[], List.suffix_refl _, rfl⟩
    · exact absurd (List.suffix_nil.mp h) hne
  | cons x cs ih =>
    cases skip with
    | succ skip =>
      obtain ⟨rest, hrest, hsplit⟩ := ih h
      exact ⟨rest, hrest.trans (List.suffix_cons ..), hsplit⟩
    | zero =>
      by_cases hwhole : later = splitBlankLines 0 (x :: cs)
      · exact ⟨x :: cs, List.suffix_refl _, hwhole.symm⟩
      · rw [splitBlankLines] at h hwhole
        split at h
        · rename_i hsep
          rw [if_pos hsep] at hwhole
          obtain ⟨rest, hrest, hsplit⟩ := ih ((List.suffix_cons_iff.mp h).resolve_left hwhole)
          exact ⟨rest, hrest.trans (List.suffix_cons ..), hsplit⟩
        · rename_i hsep
          rw [if_neg hsep] at hwhole
          obtain ⟨piece, more, hpieces⟩ :=
            List.exists_cons_of_ne_nil (SpeechBlocks.splitBlankLines_ne_nil 0 cs)
          rw [hpieces, List.modifyHead_cons] at h hwhole
          have hmore := (List.suffix_cons_iff.mp h).resolve_left hwhole
          obtain ⟨rest, hrest, hsplit⟩ := ih (hpieces ▸ hmore.trans (List.suffix_cons ..))
          exact ⟨rest, hrest.trans (List.suffix_cons ..), hsplit⟩

theorem stripChars_within (cs : List Char) : stripChars cs <:+: cs := by
  obtain ⟨front, back, hcs, -, -⟩ := exists_trim isSpace cs
  exact ⟨front, back, hcs.symm⟩

/-- What the passes on prose leave of a text without think tags. -/
structure Leaves (cs out : List Char) : Prop where
  ordered : out.Sublist cs
  untagged : tags isThinkTag out = []

theorem Leaves.infix {out out' : List Char} (h : Leaves cs out) (hwithin : out' <:+: out) :
    Leaves cs out' :=
  ⟨hwithin.sublist.trans h.ordered, tags_eq_nil_of_infix h.untagged hwithin⟩

theorem Leaves.stripReasoningProse {out : List Char} (rt : Runtime) (h : Leaves cs out) :
    Leaves cs (stripReasoningProse rt out) := by
  rw [ThinkTags.stripReasoningProse]
  split
  · exact h
  · dsimp only
    split
    · exact h
    · split
      · exact h
      · split
        · rename_i hkeep
          obtain ⟨rest, hrest, hsplit⟩ :=
            splitBlankLines_suffix hkeep (List.dropWhile_suffix (isReasoning rt))
          have hinside := h.infix (hrest.isInfix.trans (stripChars_within out))
          have hwidens := widens_intercalate 0 rest
          rw [hsplit, List.drop_zero] at hwidens
          have hjoined : Leaves cs ("\n\n".toList.intercalate
              ((splitBlankLines 0 (stripChars out)).dropWhile (isReasoning rt))) :=
            ⟨hwidens.sublist.trans hinside.ordered, hwidens.tags_eq_nil hinside.untagged⟩
          exact hjoined.infix (stripChars_within _)
        · exact h

theorem leaves_finish (rt : Runtime) (prose promptEcho : Bool) (h : tags isThinkTag cs = []) :
    Leaves cs (finish rt prose promptEcho cs) := by
  have hcs : Leaves cs cs := ⟨List.Sublist.refl cs, h⟩
  have hecho : Leaves cs (if promptEcho then dropEchoes cs else cs) := by
    split
    · exact hcs.infix (dropEchoes_suffix cs).isInfix
    · exact hcs
  refine Leaves.infix ?_ (stripChars_within _)
  split
  · exact hecho.stripReasoningProse rt
  · exact hecho

/-! ## Blocks of any depth -/

/-- The characters outside of the think blocks, which may lie inside of one another. -/
def outside : ℕ → List Token → List Char
  | _, [] => []
  | 0, .char x :: ts => x :: outside 0 ts
  | depth + 1, .char _ :: ts => outside (depth + 1) ts
  | depth, .tag body :: ts =>
    if isThinkOpenTag body then outside (depth + 1) ts
    else if isClosing body then outside (depth - 1) ts
    else outside depth ts

def outsideText (text : List Char) : List Char := outside 0 (tokens isTag text)

/-- What lies outside of all blocks is kept, since a reading inside of a block is inside of one of
any depth. -/
theorem outside_sublist_kept (ts : List Token) (depth : ℕ) (mode : Mode)
    (hmode : mode = .inside → 0 < depth) :
    (bare isSpace (outside depth ts)).Sublist
      (bare isSpace (kept isThinkOpenTag isClosing isSpace mode ts)) := by
  induction ts generalizing depth mode with
  | nil => exact List.nil_sublist _
  | cons t ts ih =>
    cases t with
    | char x =>
      cases mode with
      | inside =>
        obtain ⟨depth, rfl⟩ := Nat.exists_eq_succ_of_ne_zero (Nat.pos_iff_ne_zero.mp (hmode rfl))
        exact ih (depth + 1) .inside fun _ => Nat.succ_pos depth
      | outside eat =>
        rw [kept]
        split
        · rename_i heat
          have hx := (Bool.and_eq_true_iff.mp heat).2
          have hlater := ih depth (.outside true) (fun h => by cases h)
          cases depth with
          | zero => rwa [outside, bare_cons_of_pos hx]
          | succ depth => exact hlater
        · have hlater := ih depth (.outside false) (fun h => by cases h)
          cases depth with
          | zero =>
            rw [outside]
            cases hx : isSpace x with
            | true => rwa [bare_cons_of_pos hx, bare_cons_of_pos hx]
            | false =>
              rw [bare_cons_of_neg hx, bare_cons_of_neg hx]
              exact hlater.cons_cons x
          | succ depth =>
            cases hx : isSpace x with
            | true => rwa [bare_cons_of_pos hx]
            | false =>
              rw [bare_cons_of_neg hx]
              exact hlater.cons x
    | tag body =>
      have hstep : outside depth (.tag body :: ts) =
          if isThinkOpenTag body then outside (depth + 1) ts
          else if isClosing body then outside (depth - 1) ts else outside depth ts := by
        cases depth with
        | zero => rfl
        | succ depth => rfl
      rw [hstep]
      cases hopen : isThinkOpenTag body with
      | true =>
        rw [if_pos rfl]
        cases mode with
        | inside =>
          rw [kept, isClosing_of_open hopen, if_neg Bool.false_ne_true]
          exact ih (depth + 1) .inside fun _ => Nat.succ_pos depth
        | outside eat =>
          rw [kept, if_pos hopen]
          exact ih (depth + 1) .inside fun _ => Nat.succ_pos depth
      | false =>
        rw [if_neg Bool.false_ne_true]
        cases hclose : isClosing body with
        | true =>
          rw [if_pos rfl]
          cases mode with
          | inside =>
            rw [kept, if_pos hclose]
            exact ih (depth - 1) (.outside true) (fun h => by cases h)
          | outside eat =>
            rw [kept, hopen, if_neg Bool.false_ne_true]
            exact ih (depth - 1) (.outside true) (fun h => by cases h)
        | false =>
          rw [if_neg Bool.false_ne_true]
          cases mode with
          | inside =>
            rw [kept, hclose, if_neg Bool.false_ne_true]
            exact ih depth .inside hmode
          | outside eat =>
            rw [kept, hopen, if_neg Bool.false_ne_true]
            exact ih depth (.outside true) (fun h => by cases h)

/-! ## Texts -/

/-- Nothing but the reasoning is removed, and all of it. -/
structure StripsExactly (rt : Runtime) (prose promptEcho : Bool) (text : List Char) : Prop where
  untagged : tags isThinkTag (stripThink rt prose promptEcho text) = []
  exact_ : bare isSpace (stripThink rt prose promptEcho text) = bare isSpace (outsideText text)
  settled : stripThink rt prose promptEcho (stripThink rt prose promptEcho text) =
    stripThink rt prose promptEcho text

theorem stripChars_stripChars (cs : List Char) : stripChars (stripChars cs) = stripChars cs :=
  trim_trim cs

theorem keptText_of_untagged (h : tags isTag text = []) : keptText text = text := by
  rw [tags_eq_nil_iff] at h
  have hread := tokens_spell h
  rw [spell_map_char] at hread
  rw [keptText, hread]
  generalize text = cs
  induction cs with
  | nil => rfl
  | cons x cs ih =>
    rw [List.map_cons, kept, Bool.false_and, if_neg Bool.false_ne_true, ih]

end Pandamonium.ThinkTags
