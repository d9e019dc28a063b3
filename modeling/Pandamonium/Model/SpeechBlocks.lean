import Pandamonium.Model.Value
import Pandamonium.Library.Words

/-!
# Speech blocks

`speech_blocks` of `src/voice_pcm.py`, which cuts a final spoken text into blocks.  Texts are lists
of characters.
-/

set_option autoImplicit false

namespace Pandamonium.SpeechBlocks

open Library

/-- `first_max_chars` and `max_chars`. -/
structure Limits where
  firstMaxChars : ℕ
  maxChars : ℕ
  first_pos : 0 < firstMaxChars
  max_pos : 0 < maxChars

/-- The defaults. -/
def Limits.default : Limits := ⟨280, 360, by decide, by decide⟩

/-! ## Paragraphs -/

/-- `paragraphs` -/
def paragraphs (text : List Char) : List (List Char) :=
  ((splitBlankLines 0 (stripChars text)).filter fun part => stripChars part ≠ []).map fun part =>
    [' '].intercalate (Library.words isSpace part)

/-! ## Cuts -/

def isTerminator (x : Char) : Bool := ".!?".toList.contains x

def isCloser (x : Char) : Bool := "\"')]".toList.contains x

/-- The ends of the matches of `_SENTENCE_END`, in a text that starts at an index.  A run of
closers is taken as a whole, since none of them is white space. -/
def sentenceEnds : ℕ → List Char → List ℕ
  | _, [] => []
  | i, x :: cs =>
    if isTerminator x && breaks isSpace (cs.dropWhile isCloser) then
      (i + 1 + (cs.takeWhile isCloser).length) :: sentenceEnds (i + 1) cs
    else sentenceEnds (i + 1) cs

/-- A round of the loop: the limit of its block and what is left of the paragraph. -/
structure Round where
  hardLimit : ℕ
  remainder : List Char

/-- `minimum` -/
def Round.minimum (r : Round) : ℕ := max 80 (r.hardLimit / 2)

/-- `sentence_cuts` -/
def Round.sentenceCuts (r : Round) : List ℕ :=
  (sentenceEnds 0 (r.remainder.take (r.hardLimit + 1))).filter (r.minimum ≤ ·)

/-- The indices among which `remainder.rfind(" ", minimum, hard_limit + 1)` finds the last one. -/
def Round.spaceCuts (r : Round) : List ℕ :=
  (List.range (r.hardLimit + 1)).filter fun i => r.minimum ≤ i ∧ r.remainder[i]? = some ' '

inductive Cut where
  | whole
  | sentence (index : ℕ)
  | space (index : ℕ)
  | hard (index : ℕ)
  deriving DecidableEq, Repr

/-- Where the block of a round ends. -/
def Round.cut (r : Round) : Cut :=
  if r.remainder.length ≤ r.hardLimit then .whole
  else
    match r.sentenceCuts.getLast?, r.spaceCuts.getLast? with
    | some i, _ => .sentence i
    | none, some i => .space i
    | none, none => .hard r.hardLimit

/-- The number of characters up to a cut. -/
def Cut.index (remainder : List Char) : Cut → ℕ
  | .whole => remainder.length
  | .sentence i | .space i | .hard i => i

def Round.block (r : Round) : List Char :=
  match r.cut with
  | .whole => r.remainder
  | cut => stripChars (r.remainder.take (cut.index r.remainder))

def Round.rest (r : Round) : List Char :=
  match r.cut with
  | .whole => []
  | cut => stripChars (r.remainder.drop (cut.index r.remainder))

theorem le_of_mem_sentenceCuts {r : Round} {i : ℕ} (h : i ∈ r.sentenceCuts) : r.minimum ≤ i := by
  simpa using (List.mem_filter.mp h).2

theorem le_of_mem_spaceCuts {r : Round} {i : ℕ} (h : i ∈ r.spaceCuts) : r.minimum ≤ i := by
  have := (List.mem_filter.mp h).2
  rw [decide_eq_true_eq] at this
  exact this.1

theorem index_cut_pos {r : Round} (hlimit : 0 < r.hardLimit) (hne : r.remainder ≠ []) :
    0 < r.cut.index r.remainder := by
  have hminimum : 0 < r.minimum := lt_of_lt_of_le (by decide) (le_max_left 80 _)
  rw [Round.cut]
  split
  · exact List.length_pos_of_ne_nil hne
  · split
    · rename_i i _ hlast
      exact lt_of_lt_of_le hminimum (le_of_mem_sentenceCuts (List.mem_of_getLast? hlast))
    · rename_i i _ hlast
      exact lt_of_lt_of_le hminimum (le_of_mem_spaceCuts (List.mem_of_getLast? hlast))
    · exact hlimit

theorem length_stripChars_le (cs : List Char) : (stripChars cs).length ≤ cs.length := by
  rw [stripChars, List.length_reverse]
  have houter := (List.dropWhile_sublist isSpace (l := (cs.dropWhile isSpace).reverse)).length_le
  have hinner := (List.dropWhile_sublist isSpace (l := cs)).length_le
  rw [List.length_reverse] at houter
  omega

theorem length_rest_lt {r : Round} (hlimit : 0 < r.hardLimit) (hne : r.remainder ≠ []) :
    r.rest.length < r.remainder.length := by
  have hpos := List.length_pos_of_ne_nil hne
  have hindex := index_cut_pos hlimit hne
  rw [Round.rest]
  split
  · exact hpos
  · have hlength := length_stripChars_le (r.remainder.drop (r.cut.index r.remainder))
    rw [List.length_drop] at hlength
    omega

variable (limits : Limits)

/-- `hard_limit`, where it is known whether there is no block yet. -/
def hardLimit (first : Bool) (remainder : List Char) : ℕ :=
  if first ∧ limits.maxChars < remainder.length then limits.firstMaxChars else limits.maxChars

theorem hardLimit_pos (first : Bool) (remainder : List Char) :
    0 < hardLimit limits first remainder := by
  rw [hardLimit]
  split
  · exact limits.first_pos
  · exact limits.max_pos

/-- The inner loop. -/
def rounds (first : Bool) (remainder : List Char) : List Round :=
  if h : remainder = [] then []
  else
    let r : Round := ⟨hardLimit limits first remainder, remainder⟩
    have : r.rest.length < remainder.length := length_rest_lt (hardLimit_pos ..) h
    r :: rounds false r.rest
termination_by remainder.length

/-- The outer loop; every round appends a block. -/
def allRounds : Bool → List (List Char) → List Round
  | _, [] => []
  | first, paragraph :: later =>
    let here := rounds limits first paragraph
    here ++ allRounds (first && here.isEmpty) later

/-- The rounds on a text. -/
def textRounds (text : List Char) : List Round := allRounds limits true (paragraphs text)

/-- `speech_blocks` -/
def speechBlocks (text : List Char) : List (List Char) :=
  ((textRounds limits text).map Round.block).filter (· ≠ [])

end Pandamonium.SpeechBlocks
