import Pandamonium.Library.Patterns
import Mathlib.Data.List.TakeWhile

/-!
# Tags in angle brackets

A tag is an opening bracket, characters that are no angle brackets, and a closing one, so that no
two tags overlap.  A text is read into tokens, the tags of a class and the other characters, and a
pattern that matches tags of the class finds and replaces tokens.  A list of tokens that has been
put together from others is what its text is read into where no characters of it spell a tag of
the class (`Legible`).
-/

set_option autoImplicit false

namespace Pandamonium.Library

/-- Neither `<` nor `>`. -/
def isInside (x : Char) : Bool := x != '<' && x != '>'

/-- The inside of the tag that a text starts with, and what stands behind the tag. -/
def leadingTag : List Char → Option (List Char × List Char)
  | [] => none
  | x :: cs =>
    if x = '<' then
      match cs.dropWhile isInside with
      | [] => none
      | y :: rest => if y = '>' then some (cs.takeWhile isInside, rest) else none
    else none

theorem length_of_leadingTag {cs body rest : List Char}
    (h : leadingTag cs = some (body, rest)) : rest.length < cs.length := by
  cases cs with
  | nil => cases h
  | cons x cs =>
    rw [leadingTag] at h
    split at h
    · split at h
      · cases h
      · rename_i y later hdrop
        split at h
        · cases h
          have hlength := (List.dropWhile_sublist isInside (l := cs)).length_le
          rw [hdrop, List.length_cons] at hlength
          rw [List.length_cons]
          omega
        · cases h
    · cases h

inductive Token where
  | char (x : Char)
  | tag (body : List Char)
  deriving DecidableEq, Repr

def Token.spell : Token → List Char
  | .char x => [x]
  | .tag body => '<' :: (body ++ ['>'])

def spell (ts : List Token) : List Char := ts.flatMap Token.spell

variable (q : List Char → Bool)

/-- The tags of a class and the other characters of a text. -/
def tokens : List Char → List Token
  | [] => []
  | x :: cs =>
    match h : leadingTag (x :: cs) with
    | none => .char x :: tokens cs
    | some (body, rest) =>
      if q body then .tag body :: tokens rest else .char x :: tokens cs
termination_by cs => cs.length
decreasing_by
  · exact Nat.lt_succ_self _
  · exact length_of_leadingTag h
  · exact Nat.lt_succ_self _

/-- The insides of the tags of a class in a text. -/
def tags (cs : List Char) : List (List Char) :=
  (tokens q cs).filterMap fun
    | .char _ => none
    | .tag body => some body

/-- The inside of the tag that a text starts with, when its opening bracket has been read. -/
def closedBody : List Token → Option (List Char)
  | [] => none
  | .tag _ :: _ => none
  | .char x :: ts =>
    if x = '>' then some [] else if x = '<' then none else (closedBody ts).map (x :: ·)

/-- The tags are of the class, and no characters spell one. -/
def Legible : List Token → Prop
  | [] => True
  | .tag body :: ts => q body = true ∧ body.all isInside = true ∧ Legible ts
  | .char x :: ts => (x = '<' → ∀ body, closedBody ts = some body → q body = false) ∧ Legible ts

variable {q} {ts : List Token} {cs body : List Char} {x : Char}

@[simp] theorem spell_nil : spell [] = [] := rfl

@[simp] theorem spell_char (x : Char) (ts : List Token) :
    spell (.char x :: ts) = x :: spell ts := rfl

@[simp] theorem spell_tag (body : List Char) (ts : List Token) :
    spell (.tag body :: ts) = '<' :: (body ++ '>' :: spell ts) := by
  simp [spell, Token.spell]

@[simp] theorem spell_append (ts us : List Token) : spell (ts ++ us) = spell ts ++ spell us :=
  List.flatMap_append

theorem leadingTag_of_ne (h : x ≠ '<') (cs : List Char) : leadingTag (x :: cs) = none := by
  rw [leadingTag, if_neg h]

theorem leadingTag_tag (hbody : body.all isInside = true) (cs : List Char) :
    leadingTag ('<' :: (body ++ '>' :: cs)) = some (body, cs) := by
  have hall := List.all_eq_true.mp hbody
  have hgt : ¬ isInside '>' = true := by decide
  rw [leadingTag, if_pos rfl, List.takeWhile_append_of_pos hall, List.dropWhile_append_of_pos hall,
    List.takeWhile_cons_of_neg hgt, List.dropWhile_cons_of_neg hgt]
  simp

/-- What a text starts with behind an opening bracket can be read off its tokens. -/
theorem map_fst_leadingTag (ts : List Token) :
    (leadingTag ('<' :: spell ts)).map Prod.fst = closedBody ts := by
  induction ts with
  | nil => rfl
  | cons t ts ih =>
    cases t with
    | tag body =>
      have hlt : ¬ isInside '<' = true := by decide
      rw [spell_tag, leadingTag, if_pos rfl, List.dropWhile_cons_of_neg hlt]
      rfl
    | char x =>
      rw [leadingTag, if_pos rfl] at ih
      rw [spell_char, leadingTag, if_pos rfl, closedBody]
      by_cases hgt : x = '>'
      · subst hgt
        rfl
      · by_cases hlt : x = '<'
        · subst hlt
          rfl
        · have hin : isInside x = true := by simp [isInside, hgt, hlt]
          rw [if_neg hgt, if_neg hlt, ← ih, List.dropWhile_cons_of_pos hin,
            List.takeWhile_cons_of_pos hin]
          split
          · rfl
          · split
            · rfl
            · rfl

theorem of_leadingTag {rest : List Char} (h : leadingTag (x :: cs) = some (body, rest)) :
    x = '<' ∧ body.all isInside = true ∧ cs = body ++ '>' :: rest := by
  rw [leadingTag] at h
  split at h
  · rename_i hx
    refine ⟨hx, ?_⟩
    split at h
    · cases h
    · rename_i y later hdrop
      split at h
      · rename_i hy
        cases h
        refine ⟨List.all_eq_true.mpr fun c => List.mem_takeWhile_imp, ?_⟩
        rw [← hy, ← hdrop, List.takeWhile_append_dropWhile]
      · cases h
  · cases h

theorem tokens_cons (q : List Char → Bool) (x : Char) (cs : List Char) :
    tokens q (x :: cs) =
      match leadingTag (x :: cs) with
      | none => .char x :: tokens q cs
      | some (body, rest) => if q body then .tag body :: tokens q rest else .char x :: tokens q cs := by
  rw [tokens]
  split
  · rename_i h
    simp only [h]
  · rename_i h
    simp only [h]

theorem spell_tokens (q : List Char → Bool) (cs : List Char) : spell (tokens q cs) = cs := by
  induction hlength : cs.length using Nat.strong_induction_on generalizing cs with
  | _ n ih =>
    cases cs with
    | nil =>
      rw [tokens]
      rfl
    | cons x cs =>
      have hchar : spell (.char x :: tokens q cs) = x :: cs := by
        rw [spell_char, ih cs.length (by rw [← hlength]; exact Nat.lt_succ_self _) cs rfl]
      rw [tokens_cons]
      split
      · exact hchar
      · rename_i body rest h
        split
        · obtain ⟨rfl, -, rfl⟩ := of_leadingTag h
          have hshort := length_of_leadingTag h
          rw [spell_tag, ih rest.length (hlength ▸ hshort) rest rfl]
        · exact hchar

theorem legible_tokens (q : List Char → Bool) (cs : List Char) : Legible q (tokens q cs) := by
  induction hlength : cs.length using Nat.strong_induction_on generalizing cs with
  | _ n ih =>
    cases cs with
    | nil =>
      rw [tokens]
      trivial
    | cons x cs =>
      have hlater := ih cs.length (by rw [← hlength]; exact Nat.lt_succ_self _) cs rfl
      have hread := map_fst_leadingTag (tokens q cs)
      rw [spell_tokens] at hread
      rw [tokens_cons]
      split
      · rename_i h
        refine ⟨?_, hlater⟩
        rintro rfl body hclosed
        rw [h, hclosed] at hread
        cases hread
      · rename_i body rest h
        split
        · rename_i hq
          obtain ⟨-, hinside, -⟩ := of_leadingTag h
          exact ⟨hq, hinside, ih rest.length (hlength ▸ length_of_leadingTag h) rest rfl⟩
        · rename_i hq
          refine ⟨?_, hlater⟩
          rintro rfl found hclosed
          rw [h, hclosed] at hread
          obtain rfl := Option.some.inj hread
          exact Bool.eq_false_iff.mpr hq

theorem leadingTag_of_legible {rest : List Char} (h : Legible q (.char x :: ts))
    (htag : leadingTag (x :: spell ts) = some (body, rest)) : q body = false := by
  obtain ⟨rfl, -, -⟩ := of_leadingTag htag
  refine h.1 rfl body ?_
  rw [← map_fst_leadingTag, htag]
  rfl

/-- A legible list of tokens is what its text is read into. -/
theorem tokens_spell (h : Legible q ts) : tokens q (spell ts) = ts := by
  induction ts with
  | nil =>
    rw [spell_nil, tokens]
  | cons t ts ih =>
    cases t with
    | tag body =>
      obtain ⟨hq, hinside, hlater⟩ := h
      rw [spell_tag, tokens_cons, leadingTag_tag hinside]
      simp only [hq, if_true, ih hlater]
    | char x =>
      have hlater := ih h.2
      rw [spell_char, tokens_cons]
      split
      · rw [hlater]
      · rename_i htag
        rw [if_neg (by rw [leadingTag_of_legible h htag]; exact Bool.false_ne_true), hlater]

/-! ## Parts -/

theorem Legible.right {us : List Token} (h : Legible q (us ++ ts)) : Legible q ts := by
  induction us with
  | nil => exact h
  | cons t us ih =>
    cases t with
    | tag body => exact ih h.2.2
    | char x => exact ih h.2

theorem closedBody_append {us : List Token} (h : closedBody us = some body) (ts : List Token) :
    closedBody (us ++ ts) = some body := by
  induction us generalizing body with
  | nil => cases h
  | cons t us ih =>
    cases t with
    | tag body => cases h
    | char x =>
      rw [closedBody] at h
      rw [List.cons_append, closedBody]
      split
      · rename_i hgt
        rwa [if_pos hgt] at h
      · rename_i hgt
        rw [if_neg hgt] at h
        split
        · rename_i hlt
          rw [if_pos hlt] at h
          cases h
        · rename_i hlt
          rw [if_neg hlt] at h
          obtain ⟨found, hfound, rfl⟩ := Option.map_eq_some_iff.mp h
          rw [ih hfound]
          rfl

theorem Legible.left {us : List Token} (h : Legible q (us ++ ts)) : Legible q us := by
  induction us with
  | nil => trivial
  | cons t us ih =>
    cases t with
    | tag body => exact ⟨h.1, h.2.1, ih h.2.2⟩
    | char x => exact ⟨fun hx body hbody => h.1 hx body (closedBody_append hbody ts), ih h.2⟩

theorem spell_map_char (cs : List Char) : spell (cs.map .char) = cs := by
  induction cs with
  | nil => rfl
  | cons x cs ih => rw [List.map_cons, spell_char, ih]

theorem eq_map_char (h : ∀ t ∈ ts, ∃ x, t = .char x) : ts = (spell ts).map .char := by
  induction ts with
  | nil => rfl
  | cons t ts ih =>
    obtain ⟨x, rfl⟩ := h t (List.mem_cons_self ..)
    rw [spell_char, List.map_cons, ← ih fun t ht => h t (List.mem_cons_of_mem _ ht)]

/-- There is no tag in a text whose characters spell none. -/
theorem tags_eq_nil_iff : tags q cs = [] ↔ Legible q (cs.map .char) := by
  constructor
  · intro h
    have hall : ∀ t ∈ tokens q cs, ∃ x, t = .char x := by
      intro t ht
      cases t with
      | char x => exact ⟨x, rfl⟩
      | tag body => exact absurd (List.filterMap_eq_nil_iff.mp h _ ht) (by simp)
    have hchars := eq_map_char hall
    rw [spell_tokens] at hchars
    exact hchars ▸ legible_tokens q cs
  · intro h
    have hread := tokens_spell h
    rw [spell_map_char] at hread
    rw [tags, hread]
    simp

theorem mem_tags {q : List Char → Bool} {cs body : List Char} :
    body ∈ tags q cs ↔ .tag body ∈ tokens q cs := by
  rw [tags, List.mem_filterMap]
  constructor
  · rintro ⟨t, ht, hbody⟩
    cases t with
    | char x => cases hbody
    | tag b =>
      obtain rfl := Option.some.inj hbody
      exact ht
  · exact fun h => ⟨_, h, rfl⟩

theorem tags_eq_nil_of_imp {p : List Char → Bool} (hp : ∀ body, p body = true → q body = true)
    (h : tags q cs = []) : tags p cs = [] := by
  rw [tags_eq_nil_iff] at h ⊢
  induction cs with
  | nil => trivial
  | cons x cs ih =>
    refine ⟨fun hx body hbody => Bool.eq_false_iff.mpr fun htrue => ?_, ih h.2⟩
    exact Bool.false_ne_true ((h.1 hx body hbody).symm.trans (hp body htrue))

theorem tags_eq_nil_of_infix {ds : List Char} (h : tags q cs = []) (hwithin : ds <:+: cs) :
    tags q ds = [] := by
  obtain ⟨front, back, rfl⟩ := hwithin
  rw [tags_eq_nil_iff, List.map_append, List.map_append] at h
  exact tags_eq_nil_iff.mpr h.left.right

/-! ## Patterns of tags -/

/-- The pattern of the tags of a class, with the characters of another class behind them. -/
def tagPattern (p : List Char → Bool) (blank : Char → Bool) : Pattern Char (List Char) where
  matchAt cs :=
    match leadingTag cs with
    | none => none
    | some (body, rest) => if p body then some (body, rest.dropWhile blank) else none
  shrinks := by
    intro cs body rest h
    split at h
    · cases h
    · rename_i found later htag
      split at h
      · cases h
        exact Nat.lt_of_le_of_lt (List.dropWhile_sublist blank).length_le (length_of_leadingTag htag)
      · cases h

/-- The first tag of a class, with the tokens before and behind it. -/
def findTag (p : List Char → Bool) : List Token → Option (List Token × List Char × List Token)
  | [] => none
  | .tag body :: ts =>
    if p body then some ([], body, ts)
    else (findTag p ts).map fun (before, found) => (.tag body :: before, found)
  | .char x :: ts => (findTag p ts).map fun (before, found) => (.char x :: before, found)

/-- The tokens without the characters of a class at the front. -/
def dropBlank (blank : Char → Bool) : List Token → List Token
  | [] => []
  | .tag body :: ts => .tag body :: ts
  | .char x :: ts => if blank x then dropBlank blank ts else .char x :: ts

variable {p : List Char → Bool} {blank : Char → Bool}

theorem spell_dropBlank (hlt : blank '<' = false) (ts : List Token) :
    spell (dropBlank blank ts) = (spell ts).dropWhile blank := by
  induction ts with
  | nil => rfl
  | cons t ts ih =>
    cases t with
    | tag body =>
      rw [dropBlank, spell_tag, List.dropWhile_cons_of_neg (by simp [hlt])]
    | char x =>
      rw [dropBlank, spell_char]
      by_cases hx : blank x = true
      · rw [if_pos hx, List.dropWhile_cons_of_pos hx, ih]
      · rw [if_neg hx, List.dropWhile_cons_of_neg hx, spell_char]

theorem matchAt_tagPattern (cs : List Char) :
    (tagPattern p blank).matchAt cs =
      match leadingTag cs with
      | none => none
      | some (body, rest) => if p body then some (body, rest.dropWhile blank) else none := rfl

theorem tagPattern_of_ne (h : x ≠ '<') (cs : List Char) :
    (tagPattern p blank).matchAt (x :: cs) = none := by
  rw [matchAt_tagPattern, leadingTag_of_ne h]

theorem tagPattern_tag (hbody : body.all isInside = true) (cs : List Char) :
    (tagPattern p blank).matchAt ('<' :: (body ++ '>' :: cs)) =
      if p body then some (body, cs.dropWhile blank) else none := by
  rw [matchAt_tagPattern, leadingTag_tag hbody]

/-- A character that is no part of a tag starts no match. -/
theorem tagPattern_char (hp : ∀ body, p body = true → q body = true)
    (h : Legible q (.char x :: ts)) : (tagPattern p blank).matchAt (x :: spell ts) = none := by
  rw [matchAt_tagPattern]
  cases htag : leadingTag (x :: spell ts) with
  | none => rfl
  | some found =>
    obtain ⟨body, rest⟩ := found
    have hq := leadingTag_of_legible h htag
    have hnot : p body ≠ true := fun hbody => Bool.false_ne_true (hq.symm.trans (hp body hbody))
    exact if_neg hnot

/-- Inside of a tag no match starts. -/
theorem tagPattern_inside (hbody : body.all isInside = true) (hnot : p body = false)
    (cs : List Char) : ∀ u x v, '<' :: (body ++ ['>']) = u ++ x :: v →
      (tagPattern p blank).matchAt (x :: v ++ cs) = none := by
  intro u x v hsplit
  cases u with
  | nil =>
    obtain ⟨rfl, rfl⟩ := List.cons.inj hsplit
    rw [List.cons_append, List.append_assoc, List.singleton_append, tagPattern_tag hbody, hnot]
    rfl
  | cons y u =>
    obtain ⟨-, hmore⟩ := List.cons.inj hsplit
    have hmem : x ∈ body ++ ['>'] := hmore ▸ List.mem_append_right u (List.mem_cons_self ..)
    refine tagPattern_of_ne ?_ _
    rintro rfl
    rcases List.mem_append.mp hmem with hin | hgt
    · exact absurd (List.all_eq_true.mp hbody '<' hin) (by decide)
    · exact absurd (List.mem_singleton.mp hgt) (by decide)

theorem search_tagPattern (hp : ∀ body, p body = true → q body = true) (h : Legible q ts) :
    (tagPattern p blank).search (spell ts) =
      (findTag p ts).map fun (before, found, rest) =>
        (spell before, found, (spell rest).dropWhile blank) := by
  induction ts with
  | nil => rfl
  | cons t ts ih =>
    cases t with
    | char x =>
      rw [spell_char, Pattern.search_of_none (tagPattern_char hp h), ih h.2, findTag,
        Option.map_map, Option.map_map]
      rfl
    | tag body =>
      obtain ⟨-, hinside, hlater⟩ := h
      cases hbody : p body with
      | true =>
        rw [spell_tag, Pattern.search, tagPattern_tag hinside, findTag]
        simp only [hbody, if_true]
        rfl
      | false =>
        have hspell : spell (.tag body :: ts) = '<' :: (body ++ ['>']) ++ spell ts := by simp
        rw [hspell, Pattern.search_append_of_none (tagPattern_inside hinside hbody _), ih hlater,
          findTag, hbody, if_neg Bool.false_ne_true, Option.map_map, Option.map_map]
        refine congrArg (Option.map · (findTag p ts)) (funext fun found => ?_)
        simp

theorem findTag_of_none (h : ∀ body, .tag body ∈ ts → p body = false) : findTag p ts = none := by
  induction ts with
  | nil => rfl
  | cons t ts ih =>
    have hlater := ih fun body hbody => h body (List.mem_cons_of_mem _ hbody)
    cases t with
    | char x => rw [findTag, hlater, Option.map_none]
    | tag body =>
      rw [findTag, h body (List.mem_cons_self ..), if_neg Bool.false_ne_true, hlater,
        Option.map_none]

/-! ## Renamed tags -/

/-- The tag with another inside, where it is of a class. -/
def Token.rename (p : List Char → Bool) (f : List Char → List Char) : Token → Token
  | .char x => .char x
  | .tag body => .tag (if p body then f body else body)

theorem sub_rename {f : List Char → List Char} (hp : ∀ body, p body = true → q body = true)
    (h : Legible q ts) :
    (tagPattern p fun _ => false).sub (fun body => '<' :: (f body ++ ['>'])) (spell ts) =
      spell (ts.map (Token.rename p f)) := by
  induction ts with
  | nil =>
    rw [spell_nil, Pattern.sub]
    rfl
  | cons t ts ih =>
    cases t with
    | char x =>
      rw [spell_char, Pattern.sub_of_none (tagPattern_char hp h), ih h.2]
      rfl
    | tag body =>
      obtain ⟨-, hinside, hlater⟩ := h
      cases hbody : p body with
      | true =>
        rw [spell_tag, Pattern.sub_cons, tagPattern_tag hinside, if_pos hbody]
        have hnone : (spell ts).dropWhile (fun _ => false) = spell ts := by
          cases spell ts with
          | nil => rfl
          | cons c cs => rfl
        simp only [hnone, ih hlater, List.map_cons, Token.rename, hbody, if_true, spell_tag]
        simp
      | false =>
        have hspell : spell (.tag body :: ts) = '<' :: (body ++ ['>']) ++ spell ts := by simp
        rw [hspell, Pattern.sub_append_of_none (tagPattern_inside hinside hbody _), ih hlater]
        simp [Token.rename, hbody]

theorem closedBody_rename (f : List Char → List Char) (ts : List Token) :
    closedBody (ts.map (Token.rename p f)) = closedBody ts := by
  induction ts with
  | nil => rfl
  | cons t ts ih =>
    cases t with
    | tag body => rfl
    | char x =>
      rw [List.map_cons, Token.rename, closedBody, closedBody, ih]

theorem Legible.rename {f : List Char → List Char} (h : Legible q ts)
    (hf : ∀ body, p body = true → body.all isInside = true →
      q (f body) = true ∧ (f body).all isInside = true) :
    Legible q (ts.map (Token.rename p f)) := by
  induction ts with
  | nil => trivial
  | cons t ts ih =>
    cases t with
    | char x =>
      refine ⟨fun hx body hbody => h.1 hx body ?_, ih h.2⟩
      rwa [closedBody_rename] at hbody
    | tag body =>
      obtain ⟨hq, hinside, hlater⟩ := h
      cases hbody : p body with
      | true =>
        obtain ⟨hqf, hinsidef⟩ := hf body hbody hinside
        simp only [List.map_cons, Token.rename, hbody, if_true]
        exact ⟨hqf, hinsidef, ih hlater⟩
      | false =>
        simp only [List.map_cons, Token.rename, hbody, Bool.false_eq_true, if_false]
        exact ⟨hq, hinside, ih hlater⟩

end Pandamonium.Library
