import Pandamonium.Model.StreamingSegmenter
import Mathlib.Data.List.TakeWhile

/-!
# The boundaries of a text

The scan takes one line after the other: what a line does to the open fence is `passLine`, and what
boundary lies behind it is `mark`.  What a scan finds behind a boundary is what a scan from there
finds, and what it finds inside of a text it finds in every longer one.
-/

set_option autoImplicit false

namespace Pandamonium.Segmenter

variable {i fuel fuel' : ℕ} {line after rest more : Text} {fence : Option Text}

/-! ## Lines -/

theorem lineOf_terminated (h : newline ∉ line) (after : Text) :
    lineOf (line ++ newline :: after) = line := by
  have hline : ∀ c ∈ line, decide (c ≠ newline) = true :=
    fun c hc => decide_eq_true fun heq => h (heq ▸ hc)
  rw [lineOf, List.takeWhile_append_of_pos hline, List.takeWhile_cons_of_neg (by simp),
    List.append_nil]

theorem afterLine_terminated (h : newline ∉ line) (after : Text) :
    afterLine (line ++ newline :: after) = after := by
  rw [afterLine, lineOf_terminated h, ← List.drop_drop, List.drop_left]
  rfl

theorem afterNl_terminated (h : newline ∉ line) (i : ℕ) (after : Text) :
    afterNl i (line ++ newline :: after) = i + line.length + 1 := by
  rw [afterNl, afterLine_terminated h, List.length_append, List.length_cons]
  omega

theorem lineOf_unterminated (h : newline ∉ rest) : lineOf rest = rest := by
  rw [lineOf, List.takeWhile_eq_self_iff]
  exact fun c hc => decide_eq_true fun heq => h (heq ▸ hc)

theorem afterLine_unterminated (h : newline ∉ rest) : afterLine rest = [] := by
  rw [afterLine, lineOf_unterminated h]
  exact List.drop_eq_nil_of_le (Nat.le_succ _)

theorem afterNl_unterminated (h : newline ∉ rest) (i : ℕ) : afterNl i rest = i + rest.length := by
  rw [afterNl, afterLine_unterminated h]
  rfl

theorem terminated_or (rest : Text) :
    newline ∉ rest ∨ ∃ line after, rest = line ++ newline :: after ∧ newline ∉ line := by
  by_cases h : newline ∈ rest
  · exact .inr (List.eq_append_cons_of_mem h)
  · exact .inl h

theorem length_afterLine_lt (h : rest ≠ []) : (afterLine rest).length < rest.length := by
  have := List.length_pos_of_ne_nil h
  rw [afterLine, List.length_drop]
  omega

/-- A text is made of lines, of which the last one may be without its newline. -/
theorem lineInduction {motive : Text → Prop} (nil : motive [])
    (unterminated : ∀ rest, rest ≠ [] → newline ∉ rest → motive rest)
    (terminated : ∀ line after, newline ∉ line → motive after →
      motive (line ++ newline :: after)) (rest : Text) : motive rest := by
  induction hlength : rest.length using Nat.strong_induction_on generalizing rest with
  | _ n ih =>
    obtain hnone | ⟨line, after, rfl, hline⟩ := terminated_or rest
    · by_cases hrest : rest = []
      · exact hrest ▸ nil
      · exact unterminated rest hrest hnone
    · refine terminated line after hline (ih after.length ?_ after rfl)
      rw [← hlength, List.length_append, List.length_cons]
      omega

/-! ## One line -/

/-- The line closes the fence that is open. -/
def isClose (fence : Option Text) (line : Text) : Bool :=
  match matchFence line, fence with
  | some found, some marker => found.closes marker
  | _, _ => false

/-- The line is blank and no fence is open. -/
def isGap (fence : Option Text) (line : Text) : Bool := fence.isNone && isBlank line

/-- The fence that is open behind the line. -/
def passLine (fence : Option Text) (line : Text) : Option Text :=
  match matchFence line, fence with
  | some found, none => some found.marker
  | some found, some marker => if found.closes marker then none else some marker
  | none, fence => fence

theorem matchFence_of_isBlank (h : isBlank line = true) : matchFence line = none := by
  have hdrop : ∀ c ∈ line.dropWhile (· = 32), isSpace c = true :=
    fun c hc => List.all_eq_true.mp h c ((List.dropWhile_suffix _).subset hc)
  have hmarker : ∀ c : UInt16, isSpace c = false →
      (line.dropWhile (· = 32)).takeWhile (· = c) = [] := by
    intro c hc
    rw [List.takeWhile_eq_nil_iff]
    intro hpos heq
    have hspace := hdrop _ (List.get_mem _ ⟨0, hpos⟩)
    rw [of_decide_eq_true heq, hc] at hspace
    cases hspace
  simp [matchFence, hmarker 96 (by decide), hmarker 126 (by decide)]

theorem isClose_of_isBlank (h : isBlank line = true) : isClose fence line = false := by
  unfold isClose
  simp only [matchFence_of_isBlank h]

theorem passLine_of_isBlank (h : isBlank line = true) : passLine fence line = fence := by
  unfold passLine
  simp only [matchFence_of_isBlank h]

theorem passLine_of_isClose (h : isClose fence line = true) : passLine fence line = none := by
  unfold isClose at h
  unfold passLine
  cases hfound : matchFence line with
  | none => simp [hfound] at h
  | some found =>
    cases fence with
    | none => simp [hfound] at h
    | some marker =>
      simp only [hfound] at h
      exact if_pos h

theorem scan_succ (hrest : rest ≠ []) : scan (fuel + 1) i rest fence =
    if isClose fence (lineOf rest) then
      ⟨afterNl i rest, true⟩ :: scan fuel (afterNl i rest) (afterLine rest) none
    else if isGap fence (lineOf rest) then
      ⟨(skipBlank fuel (afterNl i rest) (afterLine rest)).1, false⟩ ::
        scan fuel (skipBlank fuel (afterNl i rest) (afterLine rest)).1
          (skipBlank fuel (afterNl i rest) (afterLine rest)).2 none
    else scan fuel (afterNl i rest) (afterLine rest) (passLine fence (lineOf rest)) := by
  conv_lhs => unfold scan
  rw [if_neg hrest]
  by_cases hblank : isBlank (lineOf rest) = true
  · rw [isClose_of_isBlank hblank, passLine_of_isBlank hblank]
    cases fence with
    | none => simp [matchFence_of_isBlank hblank, isGap, hblank]
    | some marker => simp [matchFence_of_isBlank hblank, isGap]
  · unfold isClose passLine
    cases matchFence (lineOf rest) with
    | none => cases fence <;> simp [isGap, hblank]
    | some found =>
      cases fence with
      | none => simp [isGap, hblank]
      | some marker =>
        by_cases hcloses : found.closes marker = true <;> simp [isGap, hcloses]

/-! ## Enough turns -/

theorem length_skipBlank (fuel j : ℕ) (rest : Text) :
    (skipBlank fuel j rest).2.length ≤ rest.length := by
  induction fuel generalizing j rest with
  | zero => exact Nat.le_refl _
  | succ fuel ih =>
    unfold skipBlank
    split_ifs with hrest hblank
    · exact Nat.le_refl _
    · exact Nat.le_trans (ih _ _) (Nat.le_of_lt (length_afterLine_lt hrest))
    · exact Nat.le_refl _

theorem skipBlank_fuel (j : ℕ) (h : rest.length ≤ fuel) (h' : rest.length ≤ fuel') :
    skipBlank fuel j rest = skipBlank fuel' j rest := by
  induction fuel generalizing fuel' j rest with
  | zero =>
    obtain rfl := List.length_eq_zero_iff.mp (Nat.le_zero.mp h)
    cases fuel' <;> rfl
  | succ fuel ih =>
    by_cases hrest : rest = []
    · subst hrest
      cases fuel' <;> rfl
    · have hlt := length_afterLine_lt hrest
      cases fuel' with
      | zero => omega
      | succ fuel' =>
        have hafter : skipBlank fuel (afterNl j rest) (afterLine rest) =
            skipBlank fuel' (afterNl j rest) (afterLine rest) := ih _ (by omega) (by omega)
        unfold skipBlank
        rw [hafter]

theorem scan_nil (fuel i : ℕ) (fence : Option Text) : scan fuel i [] fence = [] := by
  cases fuel <;> rfl

theorem scan_fuel (i : ℕ) (fence : Option Text) (h : rest.length ≤ fuel)
    (h' : rest.length ≤ fuel') : scan fuel i rest fence = scan fuel' i rest fence := by
  induction fuel generalizing fuel' i rest fence with
  | zero =>
    obtain rfl := List.length_eq_zero_iff.mp (Nat.le_zero.mp h)
    rw [scan_nil, scan_nil]
  | succ fuel ih =>
    by_cases hrest : rest = []
    · subst hrest
      rw [scan_nil, scan_nil]
    · have hlt := length_afterLine_lt hrest
      cases fuel' with
      | zero => omega
      | succ fuel' =>
        have hlength := length_skipBlank fuel' (afterNl i rest) (afterLine rest)
        have hskip : skipBlank fuel (afterNl i rest) (afterLine rest) =
            skipBlank fuel' (afterNl i rest) (afterLine rest) :=
          skipBlank_fuel _ (by omega) (by omega)
        have hafter : ∀ fence, scan fuel (afterNl i rest) (afterLine rest) fence =
            scan fuel' (afterNl i rest) (afterLine rest) fence :=
          fun fence => ih _ fence (by omega) (by omega)
        have hskipped : ∀ j, scan fuel j (skipBlank fuel' (afterNl i rest) (afterLine rest)).2 none =
            scan fuel' j (skipBlank fuel' (afterNl i rest) (afterLine rest)).2 none :=
          fun j => ih j none (by omega) (by omega)
        rw [scan_succ hrest, scan_succ hrest, hskip, hafter, hafter, hskipped]

/-- The scan of all that is left. -/
def scanAll (i : ℕ) (rest : Text) (fence : Option Text) : List Boundary :=
  scan rest.length i rest fence

theorem findBoundaries_eq (text : Text) (fromOffset : ℕ) :
    findBoundaries text fromOffset = scanAll fromOffset (text.drop fromOffset) none := by
  rw [findBoundaries, scanAll, List.length_drop]

/-- The text starts with a blank line. -/
def startsBlank (rest : Text) : Bool := !rest.isEmpty && isBlank (lineOf rest)

/-- The boundary behind a line; a run of blank lines has its boundary behind the last one. -/
def mark (i : ℕ) (fence : Option Text) (line after : Text) : List Boundary :=
  if isClose fence line then [⟨i, true⟩]
  else if isGap fence line && !startsBlank after then [⟨i, false⟩]
  else []

/-- Behind a gap the scan is on, whether the gap goes on or not. -/
theorem scan_skipBlank (i : ℕ) (after : Text) (h : after.length ≤ fuel) :
    (⟨(skipBlank fuel i after).1, false⟩ : Boundary) ::
        scan fuel (skipBlank fuel i after).1 (skipBlank fuel i after).2 none =
      (if startsBlank after then [] else [⟨i, false⟩]) ++ scanAll i after none := by
  by_cases hafter : after = []
  · subst hafter
    cases fuel <;> rfl
  have hlt := length_afterLine_lt hafter
  obtain ⟨fuel, rfl⟩ : ∃ n, fuel = n + 1 := ⟨fuel - 1, by omega⟩
  have hsame : scanAll i after none = scan (fuel + 1) i after none :=
    scan_fuel i none (Nat.le_refl _) h
  by_cases hblank : isBlank (lineOf after) = true
  · have hstarts : startsBlank after = true := by simp [startsBlank, hafter, hblank]
    have hskip : skipBlank (fuel + 1) i after =
        skipBlank fuel (afterNl i after) (afterLine after) := by
      conv_lhs => unfold skipBlank
      rw [if_neg hafter, if_neg (by simp [hblank])]
    have hlength := length_skipBlank fuel (afterNl i after) (afterLine after)
    rw [if_pos hstarts, hsame, scan_succ hafter, isClose_of_isBlank hblank, hskip]
    simp only [isGap, hblank, Option.isNone_none, Bool.and_self, if_true, Bool.false_eq_true,
      if_false, List.nil_append]
    rw [scan_fuel _ none (by omega : _ ≤ fuel + 1) (by omega : _ ≤ fuel)]
  · have hstarts : startsBlank after = false := by simp [startsBlank, hblank]
    have hskip : skipBlank (fuel + 1) i after = (i, after) := by
      unfold skipBlank
      rw [if_neg hafter, if_pos hblank]
    rw [hskip, hsame, hstarts]
    rfl

/-- A line that is ended, and what is behind it. -/
theorem scanAll_terminated (h : newline ∉ line) (i : ℕ) (fence : Option Text) (after : Text) :
    scanAll i (line ++ newline :: after) fence =
      mark (i + line.length + 1) fence line after ++
        scanAll (i + line.length + 1) after (passLine fence line) := by
  have hne : line ++ newline :: after ≠ [] := by simp
  have hlength : (line ++ newline :: after).length = line.length + after.length + 1 := by
    rw [List.length_append, List.length_cons]
    omega
  have hfuel := scan_fuel (i + line.length + 1) (passLine fence line)
    (by omega : after.length ≤ line.length + after.length) (Nat.le_refl after.length)
  rw [scanAll, hlength, scan_succ hne, lineOf_terminated h, afterLine_terminated h,
    afterNl_terminated h, mark]
  by_cases hclose : isClose fence line = true
  · rw [if_pos hclose, if_pos hclose, ← passLine_of_isClose hclose, hfuel]
    rfl
  · rw [if_neg hclose, if_neg hclose]
    by_cases hgap : isGap fence line = true
    · have hgap' := hgap
      simp only [isGap, Bool.and_eq_true, Option.isNone_iff_eq_none] at hgap'
      obtain ⟨rfl, hblank⟩ := hgap'
      rw [if_pos hgap, hgap, scan_skipBlank _ _ (by omega), passLine_of_isBlank hblank]
      cases startsBlank after <;> rfl
    · rw [if_neg hgap, hfuel, Bool.not_eq_true _ |>.mp hgap]
      rfl

/-- The last line, without a newline. -/
theorem scanAll_unterminated (hne : rest ≠ []) (h : newline ∉ rest) (i : ℕ)
    (fence : Option Text) : scanAll i rest fence = mark (i + rest.length) fence rest [] := by
  obtain ⟨n, hn⟩ : ∃ n, rest.length = n + 1 :=
    ⟨rest.length - 1, by have := List.length_pos_of_ne_nil hne; omega⟩
  have hskip : skipBlank n (i + rest.length) [] = (i + rest.length, []) := by cases n <;> rfl
  rw [scanAll, hn, scan_succ hne, lineOf_unterminated h, afterLine_unterminated h,
    afterNl_unterminated h, hskip, mark]
  simp only [scan_nil, startsBlank, List.isEmpty_nil, Bool.not_true, Bool.false_and, Bool.not_false,
    Bool.and_true, hn]

theorem scanAll_nil (i : ℕ) (fence : Option Text) : scanAll i [] fence = [] := rfl

theorem offset_of_mem_mark {b : Boundary} (hb : b ∈ mark i fence line after) : b.offset = i := by
  unfold mark at hb
  split_ifs at hb
  · rw [List.mem_singleton.mp hb]
  · rw [List.mem_singleton.mp hb]
  · cases hb

theorem mark_of_mem {b : Boundary} (hb : b ∈ mark i fence line after) :
    mark i fence line after = [b] := by
  unfold mark at hb ⊢
  split_ifs at hb ⊢
  · rw [List.mem_singleton.mp hb]
  · rw [List.mem_singleton.mp hb]
  · cases hb

theorem passLine_of_mem_mark {b : Boundary} (hb : b ∈ mark i fence line after) :
    passLine fence line = none := by
  unfold mark at hb
  split_ifs at hb with hclose hgap
  · exact passLine_of_isClose hclose
  · simp only [isGap, Bool.and_eq_true, Option.isNone_iff_eq_none] at hgap
    obtain ⟨⟨rfl, hblank⟩, -⟩ := hgap
    exact passLine_of_isBlank hblank
  · cases hb

/-! ## A scan from a boundary -/

/-- A boundary lies behind a newline or at the end of the text, and behind it the scan is a scan from
there. -/
theorem exists_of_mem_scanAll {b : Boundary} (hb : b ∈ scanAll i rest fence) :
    ∃ before after bs, rest = before ++ after ∧ b.offset = i + before.length ∧
      before ≠ [] ∧ (after = [] ∨ before.getLast? = some newline) ∧
      scanAll i rest fence = bs ++ scanAll b.offset after none ∧ bs.getLast? = some b ∧
      ∀ b' ∈ bs, b'.offset ≤ b.offset := by
  induction rest using lineInduction generalizing i fence with
  | nil => cases hb
  | unterminated rest hne hrest =>
    rw [scanAll_unterminated hne hrest] at hb ⊢
    have hoffset := offset_of_mem_mark hb
    refine ⟨rest, [], [b], (List.append_nil rest).symm, hoffset, hne, .inl rfl, mark_of_mem hb, rfl,
      fun b' hb' => ?_⟩
    rw [List.mem_singleton.mp hb']
  | terminated line after hline ih =>
    rw [scanAll_terminated hline] at hb ⊢
    obtain hb | hb := List.mem_append.mp hb
    · have hoffset := offset_of_mem_mark hb
      refine ⟨line ++ [newline], after, [b], by simp, by simp [hoffset, Nat.add_assoc], by simp,
        .inr (by simp), ?_, rfl, fun b' hb' => ?_⟩
      · rw [passLine_of_mem_mark hb, mark_of_mem hb, hoffset]
      · rw [List.mem_singleton.mp hb']
    · obtain ⟨before, after', bs, rfl, hoffset, hne, hend, hscan, hlast, hle⟩ := ih hb
      refine ⟨line ++ newline :: before, after',
        mark (i + line.length + 1) fence line (before ++ after') ++ bs, by simp, ?_, by simp, ?_, ?_,
        ?_, fun b' hb' => ?_⟩
      · rw [hoffset, List.length_append, List.length_cons]
        omega
      · refine hend.imp_right fun hnewline => ?_
        rw [List.getLast?_append_of_ne_nil _ (by simp), List.getLast?_cons, hnewline]
        rfl
      · rw [hscan, List.append_assoc]
      · rw [List.getLast?_append, hlast]
        rfl
      · obtain hb' | hb' := List.mem_append.mp hb'
        · rw [offset_of_mem_mark hb', hoffset]
          omega
        · exact hle b' hb'

/-! ## A longer text -/

theorem startsBlank_append (h : after ≠ []) (hstarts : startsBlank after = false) (more : Text) :
    startsBlank (after ++ more) = false := by
  have hblank : isBlank (lineOf after) = false := by
    simpa [startsBlank, h] using hstarts
  have hline : isBlank (lineOf (after ++ more)) = false := by
    obtain hnone | ⟨line, after, rfl, hline⟩ := terminated_or after
    · have hall : ∀ c ∈ after, decide (c ≠ newline) = true :=
        fun c hc => decide_eq_true fun heq => hnone (heq ▸ hc)
      rw [lineOf_unterminated hnone] at hblank
      rw [lineOf, List.takeWhile_append_of_pos hall, isBlank, List.all_append, ← isBlank, hblank]
      rfl
    · rw [lineOf_terminated hline] at hblank
      rw [List.append_assoc, List.cons_append, lineOf_terminated hline]
      exact hblank
  simp [startsBlank, hline]

/-- What is found inside of a text is found in a longer one, and so is a fence whose closing line the
text ends with. -/
theorem mem_scanAll_append {b : Boundary} (hb : b ∈ scanAll i rest fence)
    (hinside : b.offset < i + rest.length ∨
      b.afterClosedFence = true ∧ rest.getLast? = some newline) (more : Text) :
    b ∈ scanAll i (rest ++ more) fence := by
  induction rest using lineInduction generalizing i fence with
  | nil => cases hb
  | unterminated rest hne hrest =>
    rw [scanAll_unterminated hne hrest] at hb
    obtain hlt | ⟨-, hlast⟩ := hinside
    · rw [offset_of_mem_mark hb] at hlt
      exact absurd hlt (Nat.lt_irrefl _)
    · exact absurd (List.mem_of_getLast? hlast) hrest
  | terminated line after hline ih =>
    rw [scanAll_terminated hline] at hb
    rw [List.append_assoc, List.cons_append, scanAll_terminated hline]
    obtain hb | hb := List.mem_append.mp hb
    · refine List.mem_append_left _ ?_
      have hoffset := offset_of_mem_mark hb
      unfold mark at hb ⊢
      split_ifs at hb with hclose hgap
      · rw [if_pos hclose]
        exact hb
      · rw [if_neg hclose]
        have hafter : after ≠ [] := by
          intro hnil
          obtain hlt | ⟨hfence, -⟩ := hinside
          · rw [hoffset, hnil, List.length_append] at hlt
            simp only [List.length_cons, List.length_nil] at hlt
            omega
          · rw [List.mem_singleton.mp hb] at hfence
            cases hfence
        simp only [Bool.and_eq_true, Bool.not_eq_true'] at hgap
        rw [hgap.1, startsBlank_append hafter hgap.2]
        exact hb
      · cases hb
    · refine List.mem_append_right _ (ih hb ?_)
      refine hinside.imp (fun hlt => ?_) (fun ⟨hfence, hlast⟩ => ⟨hfence, ?_⟩)
      · rw [List.length_append, List.length_cons] at hlt
        omega
      · have hafter : after ≠ [] := by
          rintro rfl
          rw [scanAll_nil] at hb
          cases hb
        rwa [List.getLast?_append_of_ne_nil _ (by simp), List.getLast?_cons_of_ne_nil hafter]
          at hlast

/-! ## The end of a text -/

/-- The fence that is open and the line that is not ended. -/
structure Reading where
  fence : Option Text
  line : Text

def Reading.step (r : Reading) (c : UInt16) : Reading :=
  if c = newline then ⟨passLine r.fence r.line, []⟩ else ⟨r.fence, r.line ++ [c]⟩

/-- What is open behind a text. -/
def reading (fence : Option Text) (text : Text) : Reading := text.foldl Reading.step ⟨fence, []⟩

/-- The text ends with a line that closes a fence and is not ended by a newline. -/
def endsInClose (text : Text) : Bool :=
  isClose (reading none text).fence (reading none text).line

theorem foldl_step_line (h : newline ∉ line) (r : Reading) :
    line.foldl Reading.step r = ⟨r.fence, r.line ++ line⟩ := by
  induction line generalizing r with
  | nil => simp
  | cons c line ih =>
    have hc : c ≠ newline := fun heq => h (heq ▸ List.mem_cons_self)
    rw [List.foldl_cons, ih (fun hmem => h (List.mem_cons_of_mem c hmem)), Reading.step, if_neg hc,
      List.append_assoc]
    rfl

theorem reading_terminated (h : newline ∉ line) (fence : Option Text) (after : Text) :
    reading fence (line ++ newline :: after) = reading (passLine fence line) after := by
  rw [reading, List.foldl_append, foldl_step_line h, List.foldl_cons, Reading.step, if_pos rfl]
  rfl

theorem reading_unterminated (h : newline ∉ rest) (fence : Option Text) :
    reading fence rest = ⟨fence, rest⟩ := foldl_step_line h _

theorem isClose_nil : isClose fence [] = false := isClose_of_isBlank rfl

/-- The scan finds a closed fence at the end of the text and of no line exactly where the text ends
with an unfinished line that closes it. -/
theorem mem_scanAll_end_iff :
    (⟨i + rest.length, true⟩ ∈ scanAll i rest fence ∧ rest.getLast? ≠ some newline) ↔
      isClose (reading fence rest).fence (reading fence rest).line = true := by
  induction rest using lineInduction generalizing i fence with
  | nil => simp [scanAll_nil, reading, isClose_nil]
  | unterminated rest hne hrest =>
    rw [scanAll_unterminated hne hrest, reading_unterminated hrest]
    have hlast : rest.getLast? ≠ some newline := fun h => hrest (List.mem_of_getLast? h)
    unfold mark
    split_ifs with hclose hgap
    · simp [hclose, hlast]
    · simp [hclose]
    · simp [hclose]
  | terminated line after hline ih =>
    rw [scanAll_terminated hline, reading_terminated hline,
      ← @ih (i + line.length + 1) (passLine fence line), List.mem_append]
    have hend : i + (line ++ newline :: after).length = i + line.length + 1 + after.length := by
      rw [List.length_append, List.length_cons]
      omega
    rw [hend]
    by_cases hafter : after = []
    · subst hafter
      simp [scanAll_nil]
    · have hmark : ⟨i + line.length + 1 + after.length, true⟩ ∉
          mark (i + line.length + 1) fence line after := by
        intro hmem
        have hoffset := offset_of_mem_mark hmem
        have := List.length_pos_of_ne_nil hafter
        simp only at hoffset
        omega
      rw [List.getLast?_append_of_ne_nil _ (by simp), List.getLast?_cons_of_ne_nil hafter]
      simp [hmark]

end Pandamonium.Segmenter
