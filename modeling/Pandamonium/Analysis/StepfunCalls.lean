import Pandamonium.Library.TagBlocks
import Pandamonium.Model.TextScanners

/-!
# Which StepFun calls are found

A well-formed call is a begin marker, a name, a separator, a body and an end marker, with no other
marker in between.  The scan finds those that begin where it is outside of every call: a begin marker
that is not followed by a separator and an end marker of its own goes on into the calls behind it.
-/

set_option autoImplicit false

namespace Pandamonium.TextScanners

open Pandamonium.Library

def isMarker (body : List Char) : Bool := body == callBegin || body == callSep || body == callEnd

/-! ## Well-formed calls -/

/-- What has been read of a well-formed call, and whether the scan was outside where it began. -/
inductive Progress
  | idle
  | name (found : Bool) (name : List Char)
  | body (found : Bool) (name body : List Char)
  deriving DecidableEq

/-- Where the scan is. -/
inductive Place
  | outside | name | body
  deriving DecidableEq

def Place.step (place : Place) (marker : List Char) : Place :=
  match place with
  | .outside => if marker = callBegin then .name else .outside
  | .name => if marker = callSep then .body else .name
  | .body => if marker = callEnd then .outside else .body

/-- The well-formed calls, each with whether the scan is outside at its begin marker. -/
def calls : Place → Progress → List Token → List ((List Char × List Char) × Bool)
  | _, _, [] => []
  | place, .idle, .char _ :: ts => calls place .idle ts
  | place, .name found n, .char x :: ts => calls place (.name found (n ++ [x])) ts
  | place, .body found n b, .char x :: ts => calls place (.body found n (b ++ [x])) ts
  | place, progress, .tag marker :: ts =>
    if marker = callBegin then
      calls (place.step marker) (.name (decide (place = .outside)) []) ts
    else
      match progress with
      | .name found n =>
        if marker = callSep then calls (place.step marker) (.body found n []) ts
        else calls (place.step marker) .idle ts
      | .body found n b =>
        if marker = callEnd then ((n, b), found) :: calls (place.step marker) .idle ts
        else calls (place.step marker) .idle ts
      | .idle => calls (place.step marker) .idle ts

/-- The well-formed calls of a text that have a name. -/
def wellFormed (text : List Char) : List ((List Char × List Char) × Bool) :=
  (calls .outside .idle (tokens isMarker text)).filter fun call => isNamed call.1

/-- There is no marker in the name or in the body. -/
def isPlain (call : List Char × List Char) : Bool :=
  (tags isMarker call.1).isEmpty && (tags isMarker call.2).isEmpty

/-- Every well-formed call is found once, in order. -/
def FindsCalls (text : List Char) : Prop :=
  ((stepfunSpans text).filter fun call => isNamed call && isPlain call) =
    (wellFormed text).map Prod.fst

/-! ## The scan over tokens -/

/-- The scan, with what it has read of a call. -/
inductive Reading
  | outside
  | name (name : List Token)
  | body (name body : List Token)

def spans : Reading → List Token → List (List Token × List Token)
  | _, [] => []
  | .outside, t :: ts => if t = .tag callBegin then spans (.name []) ts else spans .outside ts
  | .name n, t :: ts => if t = .tag callSep then spans (.body n []) ts else spans (.name (n ++ [t])) ts
  | .body n b, t :: ts =>
    if t = .tag callEnd then (n, b) :: spans .outside ts else spans (.body n (b ++ [t])) ts

theorem spans_outside (ts : List Token) :
    spans .outside ts = match findTag (fun body => body == callBegin) ts with
      | none => []
      | some (_, _, rest) => spans (.name []) rest := by
  induction ts with
  | nil => rfl
  | cons t ts ih =>
    cases t with
    | char x =>
      rw [spans, if_neg (by simp), ih, findTag]
      cases findTag (fun body => body == callBegin) ts <;> rfl
    | tag body =>
      rw [spans, findTag]
      by_cases h : body = callBegin
      · simp [h]
      · rw [if_neg (by simpa using h), if_neg (by simpa using h), ih]
        cases findTag (fun body => body == callBegin) ts <;> rfl

theorem spans_name (n ts : List Token) :
    spans (.name n) ts = match findTag (fun body => body == callSep) ts with
      | none => []
      | some (before, _, rest) => spans (.body (n ++ before) []) rest := by
  induction ts generalizing n with
  | nil => rfl
  | cons t ts ih =>
    cases t with
    | char x =>
      rw [spans, if_neg (by simp), ih, findTag]
      cases findTag (fun body => body == callSep) ts <;> simp
    | tag body =>
      rw [spans, findTag]
      by_cases h : body = callSep
      · simp [h]
      · rw [if_neg (by simpa using h), if_neg (by simpa using h), ih]
        cases findTag (fun body => body == callSep) ts <;> simp

theorem spans_body (n b ts : List Token) :
    spans (.body n b) ts = match findTag (fun body => body == callEnd) ts with
      | none => []
      | some (before, _, rest) => (n, b ++ before) :: spans .outside rest := by
  induction ts generalizing b with
  | nil => rfl
  | cons t ts ih =>
    cases t with
    | char x =>
      rw [spans, if_neg (by simp), ih, findTag]
      cases findTag (fun body => body == callEnd) ts <;> simp
    | tag body =>
      rw [spans, findTag]
      by_cases h : body = callEnd
      · simp [h]
      · rw [if_neg (by simpa using h), if_neg (by simpa using h), ih]
        cases findTag (fun body => body == callEnd) ts <;> simp

theorem search_marker {inside : List Char} (hinside : isMarker inside = true) {ts : List Token}
    (h : Legible isMarker ts) : (marker inside).search (spell ts) =
      (findTag (fun body => body == inside) ts).map fun found =>
        (spell found.1, found.2.1, spell found.2.2) := by
  rw [marker, search_tagPattern (fun body hbody => by rw [eq_of_beq hbody, hinside]) h]
  have hall : ∀ cs : List Char, cs.dropWhile (fun _ => false) = cs := by
    intro cs
    cases cs <;> rfl
  simp only [hall]

theorem stepfunSpans_eq (text : List Char) :
    stepfunSpans text = match (marker callBegin).search text with
      | none => []
      | some (_, _, behindBegin) => match (marker callSep).search behindBegin with
        | none => []
        | some (name, _, behindSep) => match (marker callEnd).search behindSep with
          | none => []
          | some (body, _, rest) => (name, body) :: stepfunSpans rest := by
  rw [stepfunSpans]
  split <;> rename_i h <;> rw [h]
  dsimp only
  split <;> rename_i h <;> rw [h]
  dsimp only
  split <;> rename_i h <;> rw [h]

/-- What is found in a text is found among its tokens, and the parts of a call are texts of tokens. -/
theorem stepfunSpans_spell {ts : List Token} (h : Legible isMarker ts) :
    stepfunSpans (spell ts) = (spans .outside ts).map (fun call => (spell call.1, spell call.2)) ∧
      ∀ call ∈ spans .outside ts, Legible isMarker call.1 ∧ Legible isMarker call.2 := by
  induction hlength : ts.length using Nat.strong_induction_on generalizing ts with
  | _ n ih =>
    have hnone : ([] : List (List Char × List Char)) =
        ([] : List (List Token × List Token)).map (fun call => (spell call.1, spell call.2)) ∧
        ∀ call ∈ ([] : List (List Token × List Token)),
          Legible isMarker call.1 ∧ Legible isMarker call.2 := ⟨rfl, nofun⟩
    rw [stepfunSpans_eq, search_marker (by decide) h, spans_outside]
    cases hbegin : findTag (fun body => body == callBegin) ts with
    | none => exact hnone
    | some found =>
      obtain ⟨before, _, ts₁⟩ := found
      obtain ⟨rfl, -, -⟩ := findTag_eq hbegin
      have h₁ : Legible isMarker ts₁ := h.right.2.2
      simp only [Option.map_some, search_marker (by decide : isMarker callSep = true) h₁, spans_name]
      cases hsep : findTag (fun body => body == callSep) ts₁ with
      | none => exact hnone
      | some found =>
        obtain ⟨name, _, ts₂⟩ := found
        obtain ⟨rfl, -, -⟩ := findTag_eq hsep
        have h₂ : Legible isMarker ts₂ := h₁.right.2.2
        simp only [Option.map_some, search_marker (by decide : isMarker callEnd = true) h₂, spans_body]
        cases hend : findTag (fun body => body == callEnd) ts₂ with
        | none => exact hnone
        | some found =>
          obtain ⟨body, _, ts₃⟩ := found
          obtain ⟨rfl, -, -⟩ := findTag_eq hend
          obtain ⟨heq, hlegible⟩ := ih ts₃.length (by simp at hlength; omega) h₂.right.2.2 rfl
          refine ⟨by simp [heq], fun call hcall => ?_⟩
          rcases List.mem_cons.mp hcall with rfl | hcall
          · exact ⟨h₁.left, h₂.left⟩
          · exact hlegible call hcall

/-! ## Both readings side by side -/

def isPlainTokens (ts : List Token) : Bool := ts.all fun
  | .char _ => true
  | .tag _ => false

/-- A call that has been begun counts as one that the scan does not find. -/
def Progress.isLost : Progress → Bool
  | .idle => true
  | .name found _ => !found
  | .body found _ _ => !found

/-- The scan is outside, or in the call that is being read, or past a marker in the midst of one. -/
inductive Related : Place → Progress → Reading → Prop
  | outside : Related .outside .idle .outside
  | name (n : List Char) : Related .name (.name true n) (.name (n.map .char))
  | body (n b : List Char) : Related .body (.body true n b) (.body (n.map .char) (b.map .char))
  | lostName {progress : Progress} {n : List Token} (hlost : progress.isLost = true)
    (hn : isPlainTokens n = false) : Related .name progress (.name n)
  | lostBody {progress : Progress} {n b : List Token} (hlost : progress.isLost = true)
    (hn : (isPlainTokens n && isPlainTokens b) = false) : Related .body progress (.body n b)

theorem isPlainTokens_map (cs : List Char) : isPlainTokens (cs.map .char) = true := by
  simp [isPlainTokens]

theorem isPlainTokens_append (ts us : List Token) :
    isPlainTokens (ts ++ us) = (isPlainTokens ts && isPlainTokens us) := by
  simp [isPlainTokens]

theorem isPlainTokens_tag (body : List Char) : isPlainTokens [.tag body] = false := rfl

theorem not_plain_append {n : List Token} (h : isPlainTokens n = false) (us : List Token) :
    isPlainTokens (n ++ us) = false := by
  rw [isPlainTokens_append, h, Bool.false_and]

theorem not_plain_append_body {n b : List Token} (h : (isPlainTokens n && isPlainTokens b) = false)
    (us : List Token) : (isPlainTokens n && isPlainTokens (b ++ us)) = false := by
  rw [isPlainTokens_append, ← Bool.and_assoc, h, Bool.false_and]

theorem distinct_markers :
    callBegin ≠ callSep ∧ callBegin ≠ callEnd ∧ callSep ≠ callEnd := by
  decide

/-- The calls without a marker in them that the scan finds are the well-formed ones at whose begin
marker it is outside. -/
theorem filter_spans {place : Place} {progress : Progress} {reading : Reading} (ts : List Token)
    (h : Related place progress reading) :
    (((spans reading ts).filter fun call => isPlainTokens call.1 && isPlainTokens call.2).map
        fun call => (spell call.1, spell call.2)) =
      ((calls place progress ts).filter Prod.snd).map Prod.fst := by
  obtain ⟨hbs, hbe, hse⟩ := distinct_markers
  induction ts generalizing place progress reading with
  | nil => cases h <;> simp [spans, calls]
  | cons t ts ih =>
    cases t with
    | char x =>
      cases h with
      | outside => simpa [spans, calls] using ih .outside
      | name n => simpa [spans, calls] using ih (.name (n ++ [x]))
      | body n b => simpa [spans, calls] using ih (.body n (b ++ [x]))
      | lostName hlost hn =>
        have hn := not_plain_append hn [.char x]
        cases progress <;> simpa [spans, calls] using ih (.lostName (by exact hlost) hn)
      | lostBody hlost hn =>
        have hn := not_plain_append_body hn [.char x]
        cases progress <;> simpa [spans, calls] using ih (.lostBody (by exact hlost) hn)
    | tag body =>
      have hother : ∀ n, isPlainTokens (n ++ [Token.tag body]) = false := fun n => by
        rw [isPlainTokens_append, isPlainTokens_tag, Bool.and_false]
      cases h with
      | outside =>
        by_cases hb : body = callBegin
        · subst hb
          simpa [spans, calls, Place.step] using ih (.name [])
        · simpa [spans, calls, Place.step, hb] using ih .outside
      | name n =>
        by_cases hb : body = callBegin
        · subst hb
          simpa [spans, calls, Place.step, hbs] using ih (.lostName rfl (hother _))
        · by_cases hs : body = callSep
          · subst hs
            simpa [spans, calls, Place.step, hb] using ih (.body n [])
          · simpa [spans, calls, Place.step, hb, hs] using ih (.lostName rfl (hother _))
      | body n b =>
        have hlost : (isPlainTokens (n.map .char) &&
            isPlainTokens (b.map .char ++ [Token.tag body])) = false := by
          rw [hother, Bool.and_false]
        by_cases hb : body = callBegin
        · subst hb
          simpa [spans, calls, Place.step, hbe] using ih (.lostBody rfl hlost)
        · by_cases he : body = callEnd
          · subst he
            simpa [spans, calls, Place.step, hb, isPlainTokens_map, spell_map_char] using ih .outside
          · simpa [spans, calls, Place.step, hb, he] using ih (.lostBody rfl hlost)
      | @lostName progress n hlost hn =>
        by_cases hb : body = callBegin
        · subst hb
          simpa [spans, calls, Place.step, hbs] using ih (.lostName rfl (hother n))
        · by_cases hs : body = callSep
          · subst hs
            have hn : (isPlainTokens n && isPlainTokens []) = false := by rw [hn, Bool.false_and]
            cases progress <;>
              simpa [spans, calls, Place.step, hb, hse] using
                ih (.lostBody (by first | exact hlost | rfl) hn)
          · have hlater := ih (@Related.lostName .idle _ rfl (hother n))
            cases progress with
            | idle => simpa [spans, calls, Place.step, hb, hs] using hlater
            | name found m => simpa [spans, calls, Place.step, hb, hs] using hlater
            | body found m m' =>
              obtain rfl : found = false := by simpa [Progress.isLost] using hlost
              by_cases he : body = callEnd
              · subst he
                simpa [spans, calls, Place.step, hb, hs] using hlater
              · simpa [spans, calls, Place.step, hb, hs, he] using hlater
      | @lostBody progress n b hlost hn =>
        have hmore := not_plain_append_body hn [.tag body]
        by_cases hb : body = callBegin
        · subst hb
          simpa [spans, calls, Place.step, hbe] using ih (.lostBody rfl hmore)
        · by_cases he : body = callEnd
          · subst he
            cases progress with
            | idle => simpa [spans, calls, Place.step, hb, hn] using ih .outside
            | name found m => simpa [spans, calls, Place.step, hb, hn, hse.symm] using ih .outside
            | body found m m' =>
              obtain rfl : found = false := by simpa [Progress.isLost] using hlost
              simpa [spans, calls, Place.step, hb, hn] using ih .outside
          · cases progress with
            | idle => simpa [spans, calls, Place.step, hb, he] using ih (.lostBody rfl hmore)
            | name found m =>
              by_cases hs : body = callSep
              · subst hs
                simpa [spans, calls, Place.step, hb, hse] using ih (.lostBody (by exact hlost) hmore)
              · simpa [spans, calls, Place.step, hb, he, hs] using ih (.lostBody rfl hmore)
            | body found m m' => simpa [spans, calls, Place.step, hb, he] using ih (.lostBody rfl hmore)

/-! ## The calls of a text -/

theorem isEmpty_tags_spell {ts : List Token} (h : Legible isMarker ts) :
    (tags isMarker (spell ts)).isEmpty = isPlainTokens ts := by
  rw [tags, tokens_spell h]
  induction ts with
  | nil => rfl
  | cons t ts ih =>
    cases t with
    | char x => simpa [isPlainTokens] using ih h.2
    | tag body => rfl

theorem found_eq (text : List Char) :
    ((stepfunSpans text).filter fun call => isNamed call && isPlain call) =
      ((wellFormed text).filter Prod.snd).map Prod.fst := by
  obtain ⟨hspans, hlegible⟩ := stepfunSpans_spell (legible_tokens isMarker text)
  rw [spell_tokens] at hspans
  have hplain : (stepfunSpans text).filter isPlain =
      ((calls .outside .idle (tokens isMarker text)).filter Prod.snd).map Prod.fst := by
    rw [hspans, List.filter_map, ← filter_spans (tokens isMarker text) .outside]
    refine congrArg (List.map _) (List.filter_congr fun call hcall => ?_)
    obtain ⟨hname, hbody⟩ := hlegible call hcall
    simp only [Function.comp_apply, isPlain, isEmpty_tags_spell hname, isEmpty_tags_spell hbody]
  rw [← List.filter_filter, hplain, List.filter_map, wellFormed, List.filter_filter,
    List.filter_filter]
  refine congrArg (List.map _) (List.filter_congr fun call _ => ?_)
  exact Bool.and_comm _ _

/-- Every well-formed call is found, once and in order, exactly if the scan is outside of every call
at the begin marker of each of them. -/
theorem findsCalls_iff (text : List Char) :
    FindsCalls text ↔ ∀ call ∈ wellFormed text, call.2 = true := by
  rw [FindsCalls, found_eq]
  constructor
  · intro h
    have hlength := congrArg List.length h
    rw [List.length_map, List.length_map, List.length_filter_eq_length_iff] at hlength
    exact hlength
  · intro h
    rw [List.filter_eq_self.mpr h]

/-- A call without a separator takes the one of the call behind it. -/
theorem not_findsCalls_noSeparator :
    ¬ FindsCalls ("<｜tool▁call▁begin｜>a<｜tool▁call▁end｜>".toList ++
      "<｜tool▁call▁begin｜>b<｜tool▁sep｜>c<｜tool▁call▁end｜>".toList) := by
  rw [FindsCalls, found_eq]
  intro h
  exact absurd (congrArg List.length h) (by decide +kernel)

end Pandamonium.TextScanners
