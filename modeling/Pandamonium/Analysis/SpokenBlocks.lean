import Pandamonium.Model.SpeechBlocks
import Pandamonium.Library.Splits
import Mathlib.Data.List.Chain

/-!
# What the blocks of a spoken text are

A block ends at a sentence end that is looked for in one character more than the limit, and the end
of that slice counts as the end of the text.  `Speaks` says what the blocks are to be, and
`speaks_iff` on which texts they are.
-/

set_option autoImplicit false

namespace Pandamonium.SpeechBlocks

open Library

variable {limits : Limits} {first : Bool} {text cs tail x : List Char} {r : Round} {i e : ℕ}

theorem stripChars_eq_trim (cs : List Char) : stripChars cs = trim isSpace cs := rfl

/-! ## Paragraphs -/

/-- No white space in front, and no two white spaces in a row. -/
structure Spaced (cs : List Char) : Prop where
  front : cs ≠ [] → breaks isSpace cs = false
  single : cs.IsChain fun x y => isSpace x = true → isSpace y = false

theorem splitBlankLines_ne_nil (skip : ℕ) (cs : List Char) : splitBlankLines skip cs ≠ [] := by
  induction cs generalizing skip with
  | nil =>
    cases skip with
    | zero => exact List.cons_ne_nil _ _
    | succ skip => exact List.cons_ne_nil _ _
  | cons c cs ih =>
    cases skip with
    | succ skip => exact ih skip
    | zero =>
      rw [splitBlankLines]
      split
      · exact List.cons_ne_nil _ _
      · obtain ⟨piece, later, hsplit⟩ := List.exists_cons_of_ne_nil (ih 0)
        rw [hsplit]
        exact List.cons_ne_nil _ _

/-- The first piece is cut off in front of white space. -/
theorem breaks_head_splitBlankLines {piece : List Char} {later : List (List Char)}
    (h : splitBlankLines 0 cs = piece :: later) : breaks isSpace piece = breaks isSpace cs := by
  cases cs with
  | nil =>
    obtain ⟨rfl, rfl⟩ := List.cons.inj h
    rfl
  | cons c cs =>
    rw [splitBlankLines] at h
    split at h
    · rename_i hsep
      obtain ⟨rfl, rfl⟩ := List.cons.inj h
      rw [hsep.1]
      rfl
    · obtain ⟨first, rest, hsplit⟩ := List.exists_cons_of_ne_nil (splitBlankLines_ne_nil 0 cs)
      rw [hsplit] at h
      obtain ⟨rfl, rfl⟩ := List.cons.inj h
      rfl

theorem all_take_blankLine (cs : List Char) :
    ∀ c ∈ cs.take (blankLine cs), isSpace c = true := by
  have hrun := (List.rdropWhile_prefix (· ≠ '\n') (l := cs.takeWhile isSpace))
  have htake := List.prefix_iff_eq_take.mp (hrun.trans (List.takeWhile_prefix isSpace))
  intro c hc
  rw [blankLine, ← List.length_reverse, ← List.rdropWhile, ← htake] at hc
  exact List.mem_takeWhile_imp (hrun.subset hc)

theorem flatMap_splitBlankLines (skip : ℕ) (cs : List Char) :
    (splitBlankLines skip cs).flatMap (marks isSpace) = marks isSpace (cs.drop skip) := by
  induction cs generalizing skip with
  | nil =>
    cases skip with
    | zero => rfl
    | succ skip => rfl
  | cons c cs ih =>
    cases skip with
    | succ skip => exact ih skip
    | zero =>
      rw [splitBlankLines, List.drop_zero]
      split
      · rename_i hsep
        have hc : isSpace c = true := by
          rw [hsep.1]
          rfl
        have hrun := marks_append_of_all (all_take_blankLine cs) (cs.drop (blankLine cs))
        rw [List.take_append_drop] at hrun
        rw [List.flatMap_cons, ih, marks_cons_of_pos hc, hrun]
        rfl
      · obtain ⟨piece, later, hsplit⟩ := List.exists_cons_of_ne_nil (splitBlankLines_ne_nil 0 cs)
        have hbreaks := breaks_head_splitBlankLines hsplit
        have hcs := ih 0
        rw [hsplit, List.flatMap_cons, List.drop_zero] at hcs
        rw [hsplit, List.modifyHead_cons, List.flatMap_cons, marks, marks, hbreaks, ← hcs]
        split
        · rfl
        · rfl

theorem marks_stripChars (cs : List Char) : marks isSpace (stripChars cs) = marks isSpace cs := by
  have htrim := marks_trim_append (p := isSpace) (v := []) cs rfl
  rwa [List.append_nil, List.append_nil] at htrim

/-- The paragraphs have the marks of the text. -/
theorem flatMap_paragraphs (text : List Char) :
    (paragraphs text).flatMap (marks isSpace) = marks isSpace text := by
  have hparts := flatMap_splitBlankLines 0 (stripChars text)
  rw [List.drop_zero, marks_stripChars] at hparts
  rw [paragraphs, List.flatMap_map, ← hparts]
  generalize splitBlankLines 0 (stripChars text) = parts
  induction parts with
  | nil => rfl
  | cons part parts ih =>
    rw [List.flatMap_cons, ← ih]
    by_cases hblank : stripChars part = []
    · have hmarks : marks isSpace part = [] := by
        rw [← marks_stripChars, hblank]
        rfl
      rw [List.filter_cons_of_neg (by simpa using hblank), hmarks, List.nil_append]
    · rw [List.filter_cons_of_pos (by simpa using hblank), List.flatMap_cons,
        marks_intercalate rfl, marks_words]

theorem spaced_word {w : List Char} (hword : ∀ c ∈ w, isSpace c = false) : Spaced w := by
  constructor
  · intro hne
    obtain ⟨c, rest, rfl⟩ := List.exists_cons_of_ne_nil hne
    exact hword c (List.mem_cons_self ..)
  · induction w with
    | nil => exact .nil
    | cons c w ih =>
      cases w with
      | nil => exact .singleton c
      | cons d w =>
        refine List.isChain_cons_cons.mpr ⟨fun _ => hword d (by simp), ih ?_⟩
        exact fun c hc => hword c (List.mem_cons_of_mem _ hc)

theorem spaced_word_append {w v : List Char} (hne : w ≠ []) (hword : ∀ c ∈ w, isSpace c = false)
    (hv : Spaced v) : Spaced (w ++ ' ' :: v) := by
  constructor
  · intro _
    rw [breaks_append_of_ne_nil hne]
    exact (spaced_word hword).front hne
  · refine List.isChain_append.mpr ⟨(spaced_word hword).single, ?_, ?_⟩
    · cases v with
      | nil => exact .singleton _
      | cons c v =>
        exact List.isChain_cons_cons.mpr ⟨fun _ => hv.front (List.cons_ne_nil _ _), hv.single⟩
    · intro c hc y _ hspace
      rw [hword c (List.mem_of_mem_getLast? hc)] at hspace
      cases hspace

theorem spaced_intercalate {ws : List (List Char)}
    (hwords : ∀ w ∈ ws, w ≠ [] ∧ ∀ c ∈ w, isSpace c = false) : Spaced ([' '].intercalate ws) := by
  induction ws with
  | nil => exact spaced_word fun c hc => absurd hc List.not_mem_nil
  | cons w ws ih =>
    obtain ⟨hne, hw⟩ := hwords w (List.mem_cons_self ..)
    cases ws with
    | nil => simpa using spaced_word hw
    | cons w' ws =>
      have hlater := ih fun v hv => hwords v (List.mem_cons_of_mem _ hv)
      rw [List.intercalate_cons_cons, List.append_assoc, List.singleton_append]
      exact spaced_word_append hne hw hlater

theorem mem_paragraphs {paragraph : List Char} (h : paragraph ∈ paragraphs text) :
    Spaced paragraph := by
  obtain ⟨part, -, rfl⟩ := List.mem_map.mp h
  exact spaced_intercalate fun w hw => mem_words hw

/-! ## Rounds -/

theorem isSpace_of_isTerminator {c : Char} (h : isTerminator c = true) : isSpace c = false := by
  have hall : (".!?".toList.all fun c => !isSpace c) = true := by decide
  simpa using List.all_eq_true.mp hall c (List.contains_iff_mem.mp h)

theorem isSpace_of_isCloser {c : Char} (h : isCloser c = true) : isSpace c = false := by
  have hall : ("\"')]".toList.all fun c => !isSpace c) = true := by decide
  simpa using List.all_eq_true.mp hall c (List.contains_iff_mem.mp h)

theorem isCloser_of_isTerminator {c : Char} (h : isTerminator c = true) : isCloser c = false := by
  have hall : (".!?".toList.all fun c => !isCloser c) = true := by decide
  simpa using List.all_eq_true.mp hall c (List.contains_iff_mem.mp h)

/-- The end of a match stands behind a character that is no white space and in front of white
space or the end of the slice. -/
theorem mem_sentenceEnds (h : e ∈ sentenceEnds i cs) :
    ∃ front c back, cs = front ++ c :: back ∧ e = i + front.length + 1 ∧ isSpace c = false ∧
      breaks isSpace back = true := by
  induction cs generalizing i with
  | nil => cases h
  | cons c cs ih =>
    have hlater : e ∈ sentenceEnds (i + 1) cs → ∃ front d back, c :: cs = front ++ d :: back ∧
        e = i + front.length + 1 ∧ isSpace d = false ∧ breaks isSpace back = true := by
      intro hmem
      obtain ⟨front, d, back, hcs, he, hd, hback⟩ := ih hmem
      refine ⟨c :: front, d, back, by rw [hcs]; rfl, ?_, hd, hback⟩
      rw [he, List.length_cons]
      omega
    rw [sentenceEnds] at h
    split at h
    · rename_i hmatch
      obtain ⟨hc, hbreaks⟩ := Bool.and_eq_true_iff.mp hmatch
      rcases List.mem_cons.mp h with rfl | h
      · have hcs : cs.takeWhile isCloser ++ cs.dropWhile isCloser = cs :=
          List.takeWhile_append_dropWhile
        rcases List.eq_nil_or_concat (cs.takeWhile isCloser) with hrun | ⟨q, d, hrun⟩
        · rw [hrun, List.nil_append] at hcs
          refine ⟨[], c, cs, rfl, by rw [hrun]; rfl, isSpace_of_isTerminator hc, ?_⟩
          rwa [hcs] at hbreaks
        · have hd : isCloser d = true := by
            refine List.mem_takeWhile_imp (l := cs) ?_
            rw [hrun, List.concat_eq_append]
            exact List.mem_append_right q (List.mem_singleton_self d)
          refine ⟨c :: q, d, cs.dropWhile isCloser, ?_, ?_, isSpace_of_isCloser hd, hbreaks⟩
          · conv_lhs => rw [← hcs, hrun]
            simp
          · rw [hrun]
            rw [List.length_concat, List.length_cons]
            omega
      · exact hlater h
    · exact hlater h

/-- A match does not end inside of a run of closers in front. -/
theorem lt_of_mem_sentenceEnds (h : e ∈ sentenceEnds i cs) :
    i + (cs.takeWhile isCloser).length < e := by
  induction cs generalizing i with
  | nil => cases h
  | cons c cs ih =>
    have hrun : ((c :: cs).takeWhile isCloser).length ≤ (cs.takeWhile isCloser).length + 1 := by
      rw [List.takeWhile_cons]
      split
      · exact le_refl _
      · exact Nat.zero_le _
    have hlater : e ∈ sentenceEnds (i + 1) cs → i + ((c :: cs).takeWhile isCloser).length < e := by
      intro hmem
      have := ih hmem
      omega
    rw [sentenceEnds] at h
    split at h
    · rename_i hmatch
      rcases List.mem_cons.mp h with rfl | h
      · have hc := isCloser_of_isTerminator (Bool.and_eq_true_iff.mp hmatch).1
        rw [List.takeWhile_cons_of_neg (by simp [hc]), List.length_nil]
        omega
      · exact hlater h
    · exact hlater h

/-- The ends of the matches come one after the other. -/
theorem pairwise_sentenceEnds (i : ℕ) (cs : List Char) : (sentenceEnds i cs).Pairwise (· < ·) := by
  induction cs generalizing i with
  | nil => exact .nil
  | cons c cs ih =>
    rw [sentenceEnds]
    split
    · exact .cons (fun e he => lt_of_mem_sentenceEnds he) (ih (i + 1))
    · exact ih (i + 1)

theorem le_getLast_of_pairwise {l : List ℕ} (hl : l.Pairwise (· < ·)) (hlast : l.getLast? = some i)
    (hmem : e ∈ l) : e ≤ i := by
  obtain ⟨front, rfl⟩ := List.getLast?_eq_some_iff.mp hlast
  rcases List.mem_append.mp hmem with hmem | hmem
  · exact Nat.le_of_lt ((List.pairwise_append.mp hl).2.2 e hmem i (List.mem_singleton_self i))
  · exact Nat.le_of_eq (List.mem_singleton.mp hmem)

/-- What the loop knows of what is left of a paragraph. -/
structure Ready (r : Round) : Prop where
  limit : 0 < r.hardLimit
  left : r.remainder ≠ []
  spaced : Spaced r.remainder

theorem Ready.bare_take_ne_nil (h : Ready r) (hi : 0 < i) :
    bare isSpace (r.remainder.take i) ≠ [] := by
  obtain ⟨c, rest, hcons⟩ := List.exists_cons_of_ne_nil h.left
  have hc := h.spaced.front h.left
  obtain ⟨i, rfl⟩ := Nat.exists_eq_succ_of_ne_zero (Nat.pos_iff_ne_zero.mp hi)
  rw [hcons, breaks_cons] at hc
  rw [hcons, List.take_succ_cons, bare_cons_of_neg hc]
  exact List.cons_ne_nil _ _

/-- A block and what is left behind it are what was left before. -/
theorem bare_block_append_rest (r : Round) :
    bare isSpace r.block ++ bare isSpace r.rest = bare isSpace r.remainder := by
  rw [Round.block, Round.rest]
  split
  · exact List.append_nil _
  · rw [stripChars_eq_trim, stripChars_eq_trim, bare_trim, bare_trim, ← bare_append,
      List.take_append_drop]

theorem Ready.block_ne_nil (h : Ready r) : r.block ≠ [] := by
  rw [Round.block]
  split
  · exact h.left
  · intro hnil
    refine h.bare_take_ne_nil (index_cut_pos h.limit h.left) ?_
    rw [← bare_trim, ← stripChars_eq_trim, hnil]
    rfl

theorem Ready.spaced_rest (h : Ready r) : Spaced r.rest := by
  rw [Round.rest]
  split
  · exact spaced_word fun c hc => absurd hc List.not_mem_nil
  · refine ⟨fun hne => breaks_trim hne, ?_⟩
    obtain ⟨front, back, hdrop, -, -⟩ :=
      exists_trim isSpace (r.remainder.drop (r.cut.index r.remainder))
    have hchain := h.spaced.single.suffix (List.drop_suffix (r.cut.index r.remainder) _)
    exact hchain.infix ⟨front, back, hdrop.symm⟩

/-! ## The end of one block -/

/-- What a round has to do: the block is short enough, and a sentence ends in what is left of the
paragraph where it is cut. -/
structure Round.Good (limits : Limits) (r : Round) : Prop where
  short : r.block.length ≤ limits.maxChars
  ends : ∀ e, r.cut = .sentence e → breaks isSpace (r.remainder.drop e) = true

/-- On what is left of a paragraph a round does so: no sentence cut lies past the limit, and where
the slice ends with a sentence the paragraph goes on with white space. -/
def Round.Fits (limits : Limits) (r : Round) : Prop :=
  if r.remainder.length ≤ r.hardLimit then r.remainder.length ≤ limits.maxChars
  else if r.sentenceCuts ≠ [] then
    (∀ e ∈ r.sentenceCuts, e ≤ limits.maxChars) ∧
      (r.hardLimit + 1 ∈ r.sentenceCuts →
        breaks isSpace (r.remainder.drop (r.hardLimit + 1)) = true)
  else if r.spaceCuts ≠ [] then ∀ i ∈ r.spaceCuts, i ≤ limits.maxChars
  else r.hardLimit ≤ limits.maxChars ∨
    (r.hardLimit = limits.maxChars + 1 ∧ r.remainder[limits.maxChars]?.any isSpace = true)

/-- A sentence cut lies in the slice, behind a character that is no white space, and in front of
white space where it is not at the end of the slice. -/
theorem mem_sentenceCuts (hlong : r.hardLimit < r.remainder.length) (he : e ∈ r.sentenceCuts) :
    ∃ front c, r.remainder.take e = front ++ [c] ∧ isSpace c = false ∧ e = front.length + 1 ∧
      e ≤ r.hardLimit + 1 ∧
      (e ≤ r.hardLimit → breaks isSpace (r.remainder.drop e) = true) := by
  obtain ⟨front, c, back, hslice, rfl, hc, hback⟩ := mem_sentenceEnds (List.mem_filter.mp he).1
  rw [Nat.zero_add] at *
  have hlength : (front ++ c :: back).length = r.hardLimit + 1 := by
    rw [← hslice, List.length_take]
    omega
  have hremainder : r.remainder =
      (front ++ [c]) ++ (back ++ r.remainder.drop (r.hardLimit + 1)) := by
    conv_lhs => rw [← List.take_append_drop (r.hardLimit + 1) r.remainder, hslice]
    simp
  have hfront : (front ++ [c]).length = front.length + 1 := by simp
  rw [List.length_append, List.length_cons] at hlength
  refine ⟨front, c, ?_, hc, rfl, by omega, ?_⟩
  · rw [hremainder, ← hfront, List.take_left]
  · intro hinside
    have hne : back ≠ [] := by
      rintro rfl
      rw [List.length_nil] at hlength
      omega
    rw [hremainder, ← hfront, List.drop_left, breaks_append_of_ne_nil hne]
    exact hback

theorem Ready.breaks_take (h : Ready r) (hi : 0 < i) :
    breaks isSpace (r.remainder.take i) = false := by
  obtain ⟨i, rfl⟩ := Nat.exists_eq_succ_of_ne_zero (Nat.pos_iff_ne_zero.mp hi)
  obtain ⟨c, rest, hcons⟩ := List.exists_cons_of_ne_nil h.left
  have hc := h.spaced.front h.left
  rw [hcons] at hc ⊢
  exact hc

theorem Ready.stripChars_take (h : Ready r) {front : List Char} {c : Char}
    (htake : r.remainder.take i = front ++ [c]) (hc : isSpace c = false) :
    stripChars (r.remainder.take i) = r.remainder.take i := by
  have hi : 0 < i := by
    refine Nat.pos_of_ne_zero ?_
    rintro rfl
    rw [List.take_zero] at htake
    exact absurd htake.symm (by simp)
  have hbreaks := h.breaks_take hi
  rw [htake] at hbreaks ⊢
  exact trim_eq_self_of_ends hbreaks hc

theorem Ready.isSpace_before (h : Ready r) (hi : i + 1 < r.remainder.length)
    (hspace : isSpace r.remainder[i + 1] = true) : isSpace r.remainder[i] = false := by
  by_contra hboth
  have hchain := List.isChain_iff_getElem.mp h.spaced.single i hi
  rw [hchain (by simpa using hboth)] at hspace
  cases hspace

theorem pairwise_sentenceCuts (r : Round) : r.sentenceCuts.Pairwise (· < ·) :=
  (pairwise_sentenceEnds ..).filter _

theorem pairwise_spaceCuts (r : Round) : r.spaceCuts.Pairwise (· < ·) :=
  List.pairwise_lt_range.filter _

theorem of_cut_eq_sentence (h : r.cut = .sentence e) :
    r.hardLimit < r.remainder.length ∧ e ∈ r.sentenceCuts := by
  rw [Round.cut] at h
  split at h
  · cases h
  · rename_i hlong
    refine ⟨by omega, ?_⟩
    split at h
    · rename_i hlast
      obtain rfl := Cut.sentence.inj h
      exact List.mem_of_getLast? hlast
    · cases h
    · cases h

theorem Ready.block_sentence (h : Ready r) (hcut : r.cut = .sentence e) :
    r.block = r.remainder.take e := by
  obtain ⟨hlong, hmem⟩ := of_cut_eq_sentence hcut
  obtain ⟨front, c, htake, hc, -⟩ := mem_sentenceCuts hlong hmem
  rw [Round.block, hcut]
  exact h.stripChars_take htake hc

theorem Ready.good_sentence (h : Ready r) (hlong : r.hardLimit < r.remainder.length)
    (hlast : r.sentenceCuts.getLast? = some e) :
    r.Good limits ↔ (∀ i ∈ r.sentenceCuts, i ≤ limits.maxChars) ∧
      (r.hardLimit + 1 ∈ r.sentenceCuts →
        breaks isSpace (r.remainder.drop (r.hardLimit + 1)) = true) := by
  have hmem := List.mem_of_getLast? hlast
  obtain ⟨front, c, -, -, -, hslice, hinside⟩ := mem_sentenceCuts hlong hmem
  have hcut : r.cut = .sentence e := by
    rw [Round.cut, if_neg (by omega), hlast]
  have hlength : r.block.length = e := by
    rw [h.block_sentence hcut, List.length_take]
    omega
  constructor
  · intro hgood
    refine ⟨fun i hi => ?_, fun hend => ?_⟩
    · have hle := le_getLast_of_pairwise (pairwise_sentenceCuts r) hlast hi
      have hshort := hgood.short
      omega
    · have hle := le_getLast_of_pairwise (pairwise_sentenceCuts r) hlast hend
      obtain rfl : e = r.hardLimit + 1 := by omega
      exact hgood.ends _ hcut
  · rintro ⟨hmax, hend⟩
    refine ⟨hlength ▸ hmax e hmem, fun i hi => ?_⟩
    obtain rfl : e = i := Cut.sentence.inj (hcut.symm.trans hi)
    by_cases hin : e ≤ r.hardLimit
    · exact hinside hin
    · obtain rfl : e = r.hardLimit + 1 := by omega
      exact hend hmem

theorem Ready.good_space (h : Ready r) (hlong : r.hardLimit < r.remainder.length)
    (hnone : r.sentenceCuts = []) (hlast : r.spaceCuts.getLast? = some i) :
    r.Good limits ↔ ∀ j ∈ r.spaceCuts, j ≤ limits.maxChars := by
  have hmem := List.mem_of_getLast? hlast
  have hcut : r.cut = .space i := by
    rw [Round.cut, if_neg (by omega), hlast, hnone]
    rfl
  have hspace : r.remainder[i]? = some ' ' := by
    have := (List.mem_filter.mp hmem).2
    rw [decide_eq_true_eq] at this
    exact this.2
  obtain ⟨hi, hat⟩ := List.getElem?_eq_some_iff.mp hspace
  have hpos : 0 < i := lt_of_lt_of_le (lt_of_lt_of_le (by decide) (le_max_left 80 _))
    (le_of_mem_spaceCuts hmem)
  have hblock : r.block = r.remainder.take i := by
    rw [Round.block, hcut]
    obtain ⟨j, rfl⟩ := Nat.exists_eq_succ_of_ne_zero (Nat.pos_iff_ne_zero.mp hpos)
    refine h.stripChars_take (List.take_succ_eq_append_getElem (by omega)) ?_
    exact h.isSpace_before hi (by rw [hat]; rfl)
  have hlength : r.block.length = i := by
    rw [hblock, List.length_take]
    omega
  constructor
  · intro hgood j hj
    have hle := le_getLast_of_pairwise (pairwise_spaceCuts r) hlast hj
    have hshort := hgood.short
    omega
  · intro hmax
    refine ⟨hlength ▸ hmax i hmem, fun e he => ?_⟩
    rw [hcut] at he
    cases he

theorem Ready.good_hard (h : Ready r) (hlong : r.hardLimit < r.remainder.length)
    (hnone : r.sentenceCuts = []) (hspaces : r.spaceCuts = []) :
    r.Good limits ↔ r.hardLimit ≤ limits.maxChars ∨ (r.hardLimit = limits.maxChars + 1 ∧
      r.remainder[limits.maxChars]?.any isSpace = true) := by
  have hcut : r.cut = .hard r.hardLimit := by
    rw [Round.cut, if_neg (by omega), hspaces, hnone]
    rfl
  have hgood : r.Good limits ↔ r.block.length ≤ limits.maxChars := by
    refine ⟨Round.Good.short, fun hshort => ⟨hshort, fun e he => ?_⟩⟩
    rw [hcut] at he
    cases he
  obtain ⟨j, hj⟩ := Nat.exists_eq_succ_of_ne_zero (Nat.pos_iff_ne_zero.mp h.limit)
  have hin : j < r.remainder.length := by omega
  have htake : r.remainder.take r.hardLimit = r.remainder.take j ++ [r.remainder[j]] := by
    rw [hj]
    exact List.take_succ_eq_append_getElem hin
  have hblock : r.block = stripChars (r.remainder.take r.hardLimit) := by
    rw [Round.block, hcut]
    rfl
  have hlimit : (r.remainder.take r.hardLimit).length = j + 1 := by
    rw [List.length_take]
    omega
  rw [hgood, hblock]
  cases hspace : isSpace r.remainder[j] with
  | false =>
    rw [h.stripChars_take htake hspace, hlimit]
    constructor
    · intro hle
      exact .inl (by omega)
    · rintro (hle | ⟨heq, hany⟩)
      · omega
      · obtain rfl : j = limits.maxChars := by omega
        rw [List.getElem?_eq_getElem hin, Option.any_some, hspace] at hany
        cases hany
  | true =>
    have hstrip : stripChars (r.remainder.take r.hardLimit) = r.remainder.take j := by
      have hfront := h.breaks_take h.limit
      rw [htake] at hfront ⊢
      cases j with
      | zero => exact absurd (hspace.symm.trans hfront) (by decide)
      | succ k =>
        have hbefore := h.isSpace_before hin hspace
        have htrim := h.stripChars_take (List.take_succ_eq_append_getElem (by omega)) hbefore
        have hne : r.remainder.take (k + 1) ≠ [] := by
          simpa using h.left
        exact (trim_append_cons htrim hne hspace []).trans (if_pos rfl)
    rw [hstrip, List.length_take]
    constructor
    · intro hle
      by_cases hfit : r.hardLimit ≤ limits.maxChars
      · exact .inl hfit
      · obtain rfl : j = limits.maxChars := by omega
        refine .inr ⟨hj, ?_⟩
        rw [List.getElem?_eq_getElem hin, Option.any_some, hspace]
    · rintro (hle | ⟨heq, -⟩)
      · omega
      · omega

theorem Ready.good_iff_fits (h : Ready r) : r.Good limits ↔ r.Fits limits := by
  rw [Round.Fits]
  by_cases hlong : r.remainder.length ≤ r.hardLimit
  · rw [if_pos hlong]
    have hcut : r.cut = .whole := by
      rw [Round.cut, if_pos hlong]
    have hblock : r.block = r.remainder := by
      rw [Round.block, hcut]
    refine ⟨fun hgood => hblock ▸ hgood.short, fun hle => ⟨hblock.symm ▸ hle, fun e he => ?_⟩⟩
    rw [hcut] at he
    cases he
  · rw [if_neg hlong]
    have hlong : r.hardLimit < r.remainder.length := by omega
    cases hsentence : r.sentenceCuts.getLast? with
    | some e =>
      have hne : r.sentenceCuts ≠ [] := List.ne_nil_of_mem (List.mem_of_getLast? hsentence)
      rw [if_pos hne]
      exact h.good_sentence hlong hsentence
    | none =>
      have hnone := List.getLast?_eq_none_iff.mp hsentence
      rw [if_neg (not_not_intro hnone)]
      cases hspaces : r.spaceCuts.getLast? with
      | some i =>
        have hne : r.spaceCuts ≠ [] := List.ne_nil_of_mem (List.mem_of_getLast? hspaces)
        rw [if_pos hne]
        exact h.good_space hlong hnone hspaces
      | none =>
        have hempty := List.getLast?_eq_none_iff.mp hspaces
        rw [if_neg (not_not_intro hempty)]
        exact h.good_hard hlong hnone hempty

/-- Where the limit of the round is not above the limit of a block, only a sentence end at the end
of the slice goes wrong. -/
theorem fits_iff_of_le (hlong : r.hardLimit < r.remainder.length)
    (hle : r.hardLimit ≤ limits.maxChars) :
    r.Fits limits ↔ (r.hardLimit + 1 ∈ r.sentenceCuts → r.hardLimit < limits.maxChars ∧
      breaks isSpace (r.remainder.drop (r.hardLimit + 1)) = true) := by
  rw [Round.Fits, if_neg (by omega)]
  split
  · constructor
    · rintro ⟨hmax, hend⟩ hmem
      exact ⟨hmax _ hmem, hend hmem⟩
    · intro hfits
      refine ⟨fun e he => ?_, fun hmem => (hfits hmem).2⟩
      obtain ⟨-, -, -, -, -, hslice, -⟩ := mem_sentenceCuts hlong he
      by_cases hin : e ≤ r.hardLimit
      · omega
      · obtain rfl : e = r.hardLimit + 1 := by omega
        exact (hfits he).1
  · rename_i hnone
    have hnone : r.sentenceCuts = [] := not_not.mp hnone
    have hnot : r.hardLimit + 1 ∈ r.sentenceCuts → r.hardLimit < limits.maxChars ∧
        breaks isSpace (r.remainder.drop (r.hardLimit + 1)) = true := by
      intro hmem
      rw [hnone] at hmem
      cases hmem
    refine iff_of_true ?_ hnot
    split
    · intro i hi
      have := List.mem_range.mp (List.mem_filter.mp hi).1
      omega
    · exact .inl hle

/-! ## All rounds -/

theorem ready_of_mem_rounds (hspaced : Spaced cs) (hmem : r ∈ rounds limits first cs) : Ready r := by
  fun_induction rounds limits first cs with
  | case1 => cases hmem
  | case2 first cs hne r' _ ih =>
    have hready : Ready r' := ⟨hardLimit_pos .., hne, hspaced⟩
    rcases List.mem_cons.mp hmem with rfl | hmem
    · exact hready
    · exact ih hready.spaced_rest hmem

theorem bare_blocks_rounds (limits : Limits) (first : Bool) (cs : List Char) :
    bare isSpace ((rounds limits first cs).flatMap Round.block) = bare isSpace cs := by
  fun_induction rounds limits first cs with
  | case1 => rfl
  | case2 first cs hne r' _ ih =>
    rw [List.flatMap_cons, bare_append, ih, bare_block_append_rest]

/-- Behind a block the word ends are those of what is left behind it. -/
theorem endsWord_block (hlater : r.rest ≠ []) (htail : breaks isSpace tail = true) (hx : x ≠ []) :
    EndsWord isSpace (r.remainder ++ tail) (bare isSpace r.block ++ x) ↔
      EndsWord isSpace (r.rest ++ tail) x := by
  rw [Round.rest] at hlater ⊢
  rw [Round.block]
  split at hlater
  · exact absurd rfl hlater
  · rw [stripChars_eq_trim, stripChars_eq_trim, bare_trim,
      endsWord_congr (marks_trim_append _ htail) hx, ← endsWord_append _ _ hx,
      ← List.append_assoc, List.take_append_drop]

/-- Behind the blocks of the rounds before, the word ends of a paragraph are those of what a round
starts with. -/
theorem endsWord_rounds {before after : List Round}
    (hsplit : rounds limits first cs = before ++ r :: after) (htail : breaks isSpace tail = true)
    (hx : x ≠ []) :
    EndsWord isSpace (cs ++ tail) (bare isSpace (before.flatMap Round.block) ++ x) ↔
      EndsWord isSpace (r.remainder ++ tail) x := by
  fun_induction rounds limits first cs generalizing before with
  | case1 => exact absurd hsplit.symm (by simp)
  | case2 first cs hne r' _ =>
    rename_i ih
    cases before with
    | nil =>
      obtain ⟨rfl, -⟩ := List.cons.inj hsplit
      rfl
    | cons r₀ before =>
      obtain ⟨rfl, hlater⟩ := List.cons.inj hsplit
      have hrest : r'.rest ≠ [] := by
        intro hnil
        rw [hnil, rounds, dif_pos rfl] at hlater
        exact absurd hlater.symm (by simp)
      rw [List.flatMap_cons, bare_append, List.append_assoc]
      exact (endsWord_block hrest htail (by simp [hx])).trans (ih hlater)

/-- The paragraphs one after the other. -/
def joined (ps : List (List Char)) : List Char := ps.flatMap (' ' :: ·)

theorem joined_cons (paragraph : List Char) (ps : List (List Char)) :
    joined (paragraph :: ps) = ' ' :: (paragraph ++ joined ps) := rfl

theorem breaks_joined (ps : List (List Char)) : breaks isSpace (joined ps) = true := by
  cases ps with
  | nil => rfl
  | cons paragraph ps => rfl

theorem marks_joined (ps : List (List Char)) :
    marks isSpace (joined ps) = ps.flatMap (marks isSpace) := by
  induction ps with
  | nil => rfl
  | cons paragraph ps ih =>
    rw [joined_cons, marks_cons_of_pos rfl, marks_append _ (breaks_joined ps), ih,
      List.flatMap_cons]

variable {ps : List (List Char)}

theorem ready_of_mem_allRounds (hspaced : ∀ paragraph ∈ ps, Spaced paragraph)
    (hmem : r ∈ allRounds limits first ps) : Ready r := by
  induction ps generalizing first with
  | nil => cases hmem
  | cons paragraph ps ih =>
    rcases List.mem_append.mp hmem with hmem | hmem
    · exact ready_of_mem_rounds (hspaced paragraph (List.mem_cons_self ..)) hmem
    · exact ih (fun other hother => hspaced other (List.mem_cons_of_mem _ hother)) hmem

theorem bare_blocks_allRounds (limits : Limits) (first : Bool) (ps : List (List Char)) :
    bare isSpace ((allRounds limits first ps).flatMap Round.block) =
      bare isSpace (joined ps) := by
  induction ps generalizing first with
  | nil => rfl
  | cons paragraph ps ih =>
    rw [allRounds, List.flatMap_append, bare_append, bare_blocks_rounds, ih, joined_cons,
      bare_cons_of_pos rfl, bare_append]

/-- An element of two lists one after the other lies in the first or in the second. -/
theorem append_eq_append_cons {α : Type} {u v before after : List α} {y : α}
    (h : u ++ v = before ++ y :: after) :
    (∃ more, u = before ++ y :: more) ∨ ∃ more, before = u ++ more ∧ v = more ++ y :: after := by
  rcases List.append_eq_append_iff.mp h with ⟨more, hbefore, hv⟩ | ⟨more, hu, hv⟩
  · exact .inr ⟨more, hbefore, hv⟩
  · cases more with
    | nil => exact .inr ⟨[], by rw [hu, List.append_nil, List.append_nil], hv.symm⟩
    | cons z more =>
      obtain ⟨rfl, -⟩ := List.cons.inj hv
      exact .inl ⟨more, hu⟩

/-- Behind the blocks of the rounds before, the word ends of the paragraphs are those of what a
round starts with, in front of the later paragraphs. -/
theorem endsWord_allRounds {before after : List Round}
    (hsplit : allRounds limits first ps = before ++ r :: after) :
    ∃ tail, breaks isSpace tail = true ∧ ∀ x ≠ [],
      (EndsWord isSpace (joined ps) (bare isSpace (before.flatMap Round.block) ++ x) ↔
        EndsWord isSpace (r.remainder ++ tail) x) := by
  induction ps generalizing first before with
  | nil => exact absurd hsplit.symm (by simp [allRounds])
  | cons paragraph ps ih =>
    have hcons : ∀ {y : List Char}, y ≠ [] → (EndsWord isSpace (joined (paragraph :: ps)) y ↔
        EndsWord isSpace (paragraph ++ joined ps) y) :=
      fun hy => endsWord_cons_of_pos rfl hy
    rw [allRounds] at hsplit
    rcases append_eq_append_cons hsplit with ⟨more, hhere⟩ | ⟨more, hbefore, hlater⟩
    · refine ⟨joined ps, breaks_joined ps, fun x hx => ?_⟩
      rw [hcons (by simp [hx])]
      exact endsWord_rounds hhere (breaks_joined ps) hx
    · obtain ⟨tail, htail, hends⟩ := ih hlater
      refine ⟨tail, htail, fun x hx => ?_⟩
      rw [hcons (by simp [hx]), hbefore, List.flatMap_append, bare_append, bare_blocks_rounds,
        List.append_assoc, endsWord_append _ _ (by simp [hx])]
      exact hends x hx

/-! ## Texts -/

/-- What the blocks of a text are to be: none is empty or too long, together they are the text up
to white space, and where one is cut behind a sentence white space or the end of the text
follows. -/
structure Speaks (limits : Limits) (text : List Char) : Prop where
  bounded : ∀ block ∈ speechBlocks limits text, block ≠ [] ∧ block.length ≤ limits.maxChars
  complete : bare isSpace (speechBlocks limits text).flatten = bare isSpace text
  sentences : EveryPlace (fun before r _ => ∀ e, r.cut = .sentence e →
    EndsWord isSpace text (bare isSpace (before.flatMap Round.block ++ r.block)))
    (textRounds limits text)

theorem ready_of_mem_textRounds (hmem : r ∈ textRounds limits text) : Ready r :=
  ready_of_mem_allRounds (fun _ => mem_paragraphs) hmem

theorem marks_joined_paragraphs (text : List Char) :
    marks isSpace (joined (paragraphs text)) = marks isSpace text := by
  rw [marks_joined, flatMap_paragraphs]

/-- No block is dropped. -/
theorem speechBlocks_eq (limits : Limits) (text : List Char) :
    speechBlocks limits text = (textRounds limits text).map Round.block := by
  rw [speechBlocks, List.filter_eq_self]
  intro block hblock
  obtain ⟨r, hr, rfl⟩ := List.mem_map.mp hblock
  simpa using (ready_of_mem_textRounds hr).block_ne_nil

theorem bare_speechBlocks (limits : Limits) (text : List Char) :
    bare isSpace (speechBlocks limits text).flatten = bare isSpace text := by
  rw [speechBlocks_eq, ← List.flatMap_def, textRounds, bare_blocks_allRounds, ← map_fst_marks,
    marks_joined_paragraphs, map_fst_marks]

/-- A sentence cut is in front of white space in the text where it is in what its round starts
with. -/
theorem endsWord_sentence {before after : List Round}
    (hsplit : textRounds limits text = before ++ r :: after) (hcut : r.cut = .sentence e) :
    EndsWord isSpace text (bare isSpace (before.flatMap Round.block ++ r.block)) ↔
      breaks isSpace (r.remainder.drop e) = true := by
  have hready : Ready r := by
    refine (ready_of_mem_textRounds : r ∈ textRounds limits text → Ready r) ?_
    rw [hsplit]
    exact List.mem_append_right _ (List.mem_cons_self ..)
  obtain ⟨hlong, hmem⟩ := of_cut_eq_sentence hcut
  obtain ⟨front, c, htake, hc, -⟩ := mem_sentenceCuts hlong hmem
  obtain ⟨tail, htail, hends⟩ := endsWord_allRounds hsplit
  have hblock : r.block = front ++ [c] := (hready.block_sentence hcut).trans htake
  have hne : bare isSpace (front ++ [c]) ≠ [] := by
    rw [bare_append, bare_cons_of_neg hc]
    simp
  have hremainder : r.remainder ++ tail = front ++ c :: (r.remainder.drop e ++ tail) := by
    conv_lhs => rw [← List.take_append_drop e r.remainder, htake]
    simp
  rw [bare_append, hblock, ← endsWord_congr (marks_joined_paragraphs text)
    (fun hnil => hne (List.append_eq_nil_iff.mp hnil).2), hends _ hne, hremainder, endsWord_append_self front _ hc, breaks_append _ htail]

/-- The blocks of a text are as they are to be where every round finds what it is right on. -/
theorem speaks_iff (limits : Limits) (text : List Char) :
    Speaks limits text ↔ ∀ r ∈ textRounds limits text, r.Fits limits := by
  constructor
  · intro h r hr
    refine (ready_of_mem_textRounds hr).good_iff_fits.mp ⟨?_, fun e he => ?_⟩
    · refine (h.bounded r.block ?_).2
      rw [speechBlocks_eq]
      exact List.mem_map_of_mem hr
    · obtain ⟨before, after, hsplit⟩ := List.append_of_mem hr
      exact (endsWord_sentence hsplit he).mp (h.sentences before r after hsplit e he)
  · intro h
    have hgood : ∀ r ∈ textRounds limits text, r.Good limits :=
      fun r hr => (ready_of_mem_textRounds hr).good_iff_fits.mpr (h r hr)
    refine ⟨fun block hblock => ?_, bare_speechBlocks limits text, ?_⟩
    · rw [speechBlocks_eq] at hblock
      obtain ⟨r, hr, rfl⟩ := List.mem_map.mp hblock
      exact ⟨(ready_of_mem_textRounds hr).block_ne_nil, (hgood r hr).short⟩
    · intro before r after hsplit e he
      refine (endsWord_sentence hsplit he).mpr ((hgood r ?_).ends e he)
      rw [hsplit]
      exact List.mem_append_right _ (List.mem_cons_self ..)

theorem not_speaks_of_first (h : paragraphs text = [cs]) (hne : cs ≠ [])
    (hfits : ¬ Round.Fits limits ⟨hardLimit limits true cs, cs⟩) : ¬ Speaks limits text := by
  intro hspeaks
  refine hfits ((speaks_iff limits text).mp hspeaks _ ?_)
  rw [textRounds, h, allRounds, rounds, dif_neg hne]
  exact List.mem_append_left _ (List.mem_cons_self ..)

/-- A number whose point is the last character of the slice. -/
def numberAtLimit : List Char := List.replicate 280 'a' ++ ".5".toList ++ List.replicate 79 'a'

/-- The number is cut in two. -/
theorem not_speaks_number : ¬ Speaks .default numberAtLimit := by
  have hparagraphs : paragraphs numberAtLimit = [numberAtLimit] := by decide +kernel
  refine not_speaks_of_first hparagraphs (by decide +kernel) ?_
  have hlimit : hardLimit .default true numberAtLimit = 280 := by decide +kernel
  have hlong : 280 < numberAtLimit.length := by decide +kernel
  have hmem : 281 ∈ (⟨280, numberAtLimit⟩ : Round).sentenceCuts := by decide +kernel
  have hinside : breaks isSpace (numberAtLimit.drop 281) = false := by decide +kernel
  rw [hlimit, fits_iff_of_le hlong (by decide)]
  intro hfits
  exact Bool.false_ne_true (hinside.symm.trans (hfits hmem).2)

end Pandamonium.SpeechBlocks
