import Pandamonium.Analysis.MarkedTexts
import Pandamonium.Model.PdfForm

/-!
# Reading the bullet of a field

A bullet is read back as its field's name and what its body holds.  The name comes back where the
encoding keeps nothing that the pattern of a bullet does not take for part of a name; the value does
where the pattern of its type finds the end of the label, or of the options, where the bullet has it.
-/

set_option autoImplicit false

namespace Pandamonium.PdfForm

open Pandamonium.Library
open Pandamonium.StreamLlm (lstrip)
open Pandamonium.ToolText

variable (rt : Runtime)

/-- What is documented of `\w`: its ASCII characters, and that white space is none of it. -/
structure Words : Prop where
  ascii : ∀ x : Char, x.toNat < 128 → rt.isWord x = (x.isAlphanum || x == '_')
  notSpace : ∀ x, rt.isWord x = true → isSpace x = false

variable {rt}

variable {x : Char} {cs : List Char}

theorem isSpace_of_isLineBreak (h : isLineBreak x = true) : isSpace x = true := by
  have hlist : ∀ n ∈ [0x0a, 0x0b, 0x0c, 0x0d, 0x1c, 0x1d, 0x1e, 0x85, 0x2028, 0x2029],
      n ∈ [0x09, 0x0a, 0x0b, 0x0c, 0x0d, 0x1c, 0x1d, 0x1e, 0x1f, 0x20, 0x85, 0xa0, 0x1680, 0x2028,
        0x2029, 0x202f, 0x205f, 0x3000] := by
    decide
  rw [isLineBreak, List.contains_iff_mem] at h
  rw [isSpace, Bool.or_eq_true]
  exact Or.inl (decide_eq_true (hlist _ h))

/-! ## Flattened texts -/

theorem eq_of_mem_collapse (hx : x ∈ collapse cs) (hspace : isSpace x = true) : x = ' ' := by
  induction cs with
  | nil => cases hx
  | cons y cs ih =>
    rw [collapse] at hx
    split at hx
    · split at hx
      · exact ih hx
      · exact (List.mem_cons.mp hx).elim id ih
    · rename_i hy
      rcases List.mem_cons.mp hx with rfl | hx
      · exact absurd hspace hy
      · exact ih hx

theorem mem_of_mem_trim {α : Type} {p : α → Bool} {l : List α} {x : α} (h : x ∈ trim p l) : x ∈ l :=
  (List.dropWhile_suffix _).subset ((List.rdropWhile_prefix _ _).subset h)

theorem exists_toList_flatten (rt : Runtime) (v : Value) :
    ∃ cs, (flatten rt v).toList = trim isSpace (collapse cs) := by
  cases v with
  | null => exact ⟨[], rfl⟩
  | _ => exact ⟨_, (toList_strip _).trans (congrArg (trim isSpace) String.toList_ofList)⟩

theorem eq_of_mem_flatten {v : Value} (hx : x ∈ (flatten rt v).toList) (hspace : isSpace x = true) :
    x = ' ' := by
  obtain ⟨cs, hcs⟩ := exists_toList_flatten rt v
  rw [hcs] at hx
  exact eq_of_mem_collapse (mem_of_mem_trim hx) hspace

theorem trim_flatten (v : Value) :
    trim isSpace (flatten rt v).toList = (flatten rt v).toList := by
  obtain ⟨cs, hcs⟩ := exists_toList_flatten rt v
  rw [hcs, trim_trim]

/-! ## Parts of the patterns -/

theorem dropPrefix?_eq_some {p rest : List Char} :
    cs.dropPrefix? p = some rest ↔ cs = p ++ rest := by
  rw [List.dropPrefix?_eq_some_iff]
  constructor
  · rintro ⟨p', rfl, hp⟩
    rw [eq_of_beq hp]
  · rintro rfl
    exact ⟨p, rfl, beq_self_eq_true p⟩

theorem mem_lstrip_iff (hx : isSpace x = false) :
    x ∈ lstrip cs ↔ x ∈ cs := by
  refine ⟨fun h => (List.dropWhile_suffix _).subset h, fun h => ?_⟩
  rw [← List.takeWhile_append_dropWhile (p := isSpace) (l := cs), List.mem_append] at h
  refine h.resolve_left fun hspaces => ?_
  rw [List.mem_takeWhile_imp hspaces] at hx
  cases hx

theorem readSome_eq_some {p : Char → Bool} {found rest : List Char}
    (h : readSome p cs = some (found, rest)) :
    cs = found ++ rest ∧ ∀ x ∈ found, p x = true := by
  unfold readSome at h
  split at h
  · cases h
  · obtain ⟨rfl, rfl⟩ := Prod.mk.inj (Option.some.inj h)
    exact ⟨List.takeWhile_append_dropWhile.symm, fun x hx => List.mem_takeWhile_imp hx⟩

theorem readSome_append {p : Char → Bool} {found : List Char} (hne : found ≠ [])
    (hfound : ∀ x ∈ found, p x = true) {y : Char} (hy : p y = false) (rest : List Char) :
    readSome p (found ++ y :: rest) = some (found, y :: rest) := by
  have htake : (found ++ y :: rest).takeWhile p = found := by
    rw [List.takeWhile_append_of_pos hfound, List.takeWhile_cons_of_neg (by simp [hy]),
      List.append_nil]
  have hdrop : (found ++ y :: rest).dropWhile p = y :: rest := by
    rw [List.dropWhile_append_of_pos hfound, List.dropWhile_cons_of_neg (by simp [hy])]
  rw [readSome, htake, hdrop]
  cases found with
  | nil => exact absurd rfl hne
  | cons x found => rfl

theorem readSome_eq_none {p : Char → Bool} {y : Char} (hy : p y = false) (rest : List Char) :
    readSome p (y :: rest) = none := by
  rw [readSome, List.takeWhile_cons_of_neg (by simp [hy])]

theorem readSpaces_blank {y : Char} (hy : isSpace y = false) :
    readSpaces (' ' :: y :: cs) = some (y :: cs) := by
  have hblank := @readSome_append isSpace [' '] (List.cons_ne_nil _ _)
    (List.all_eq_true.mp (by decide)) y hy cs
  rw [readSpaces, ← List.singleton_append, hblank]
  rfl

theorem lstrip_cons {y : Char} (hy : isSpace y = false) (cs : List Char) :
    lstrip (y :: cs) = y :: cs :=
  List.dropWhile_cons_of_neg (by rw [hy]; exact Bool.false_ne_true)

theorem lstrip_blank (cs : List Char) : lstrip (' ' :: cs) = lstrip cs :=
  List.dropWhile_cons_of_pos (by decide)

/-! ## The comment of a bullet -/

/-- What is behind the comment's first character. -/
def anchorTail (name type : List Char) : List Char :=
  "!--".toList ++ ' ' :: ("field=".toList ++ (name ++ ' ' :: ("type=".toList ++
    (type ++ ' ' :: "-->".toList))))

theorem opening_eq : "<!--".toList = '<' :: "!--".toList := by decide

/-- Behind its first character the comment holds no `<`. -/
theorem not_mem_tail_of_readAnchor (hwords : Words rt) {found : List Char × List Char}
    (h : readAnchor rt cs = some found) : '<' ∉ cs.tail := by
  have hspace : isSpace '<' = false := by decide
  have hword : rt.isWord '<' = false := by
    rw [hwords.ascii '<' (by decide)]
    decide
  rw [readAnchor] at h
  simp only [Option.bind_eq_bind, Option.bind_eq_some_iff, dropPrefix?_eq_some] at h
  obtain ⟨cs₁, rfl, cs₂, hfield, ⟨name, cs₃⟩, hname, cs₄, hspaces, cs₅, rfl, ⟨type, cs₆⟩, htype,
    cs₇, hend, hrest⟩ := h
  obtain ⟨⟨spaces, cs₄⟩, hblank, rfl⟩ := Option.map_eq_some_iff.mp hspaces
  obtain ⟨rfl, hnameChars⟩ := readSome_eq_some hname
  obtain ⟨rfl, hblanks⟩ := readSome_eq_some hblank
  obtain ⟨htypeEq, htypeChars⟩ := readSome_eq_some htype
  have hrest₇ : '<' ∉ cs₇ := by
    rw [← mem_lstrip_iff hspace]
    split at hrest
    · rename_i hempty
      rw [List.isEmpty_iff.mp hempty]
      exact List.not_mem_nil
    · cases hrest
  have hrest₆ : '<' ∉ cs₆ := by
    rw [← mem_lstrip_iff hspace, hend, List.mem_append]
    exact not_or_intro (by decide) hrest₇
  have hnotName : '<' ∉ name := fun hmem => absurd (hnameChars _ hmem) (by decide)
  have hnotSpaces : '<' ∉ spaces := fun hmem => absurd (hblanks _ hmem) (by rw [hspace]; decide)
  have hnotType : '<' ∉ type := fun hmem => absurd (htypeChars _ hmem) (by rw [hword]; decide)
  have hrest₁ : '<' ∉ cs₁ := by
    rw [← mem_lstrip_iff hspace, hfield]
    simp only [htypeEq, List.mem_append, not_or]
    exact ⟨by decide, hnotName, hnotSpaces, by decide, hnotType, hrest₆⟩
  rw [opening_eq, List.cons_append, List.tail_cons, List.mem_append]
  exact not_or_intro (by decide) hrest₁

theorem not_mem_anchorTail {name type : List Char} (hname : '<' ∉ name) (htype : '<' ∉ type) :
    '<' ∉ anchorTail name type := by
  have hopening : '<' ∉ "!--".toList := by decide
  have hfield : '<' ∉ ' ' :: "field=".toList := by decide
  have htypeIs : '<' ∉ ' ' :: "type=".toList := by decide
  have hclosing : '<' ∉ ' ' :: "-->".toList := by decide
  intro h
  rw [anchorTail, ← List.cons_append, ← List.cons_append] at h
  simp only [List.mem_append] at h
  rcases h with h | h | h | h | h | h
  · exact hopening h
  · exact hfield h
  · exact hname h
  · exact htypeIs h
  · exact htype h
  · exact hclosing h

/-- The name of a comment is not read where a character of it is none of the pattern. -/
theorem readName_eq_none {name : List Char} (hspaces : ∀ x ∈ name, isSpace x = false)
    (hnames : ¬ (name ≠ [] ∧ ∀ x ∈ name, isNameChar x = true)) (rest : List Char) :
    (readSome isNameChar (name ++ ' ' :: rest)).bind (fun found => readSpaces found.2) = none := by
  by_cases hall : ∀ x ∈ name, isNameChar x = true
  · have hempty : name = [] := by
      by_contra hne
      exact hnames ⟨hne, hall⟩
    rw [hempty, List.nil_append, readSome_eq_none (by decide), Option.bind_none]
  · have hne : name.dropWhile isNameChar ≠ [] := by
      rw [ne_eq, List.dropWhile_eq_nil_iff]
      exact hall
    obtain ⟨x, behind, hcons⟩ := List.exists_cons_of_ne_nil hne
    have hx : isNameChar x = false := by
      have := List.head_dropWhile_not isNameChar hne
      simpa only [hcons, List.head_cons] using this
    have hmem : x ∈ name :=
      (List.dropWhile_suffix _).subset (hcons ▸ List.mem_cons_self : x ∈ name.dropWhile isNameChar)
    have hsplit : name ++ ' ' :: rest =
        name.takeWhile isNameChar ++ x :: (behind ++ ' ' :: rest) := by
      conv_lhs => rw [← List.takeWhile_append_dropWhile (p := isNameChar) (l := name), hcons]
      rw [List.append_assoc, List.cons_append]
    rw [hsplit]
    by_cases hfront : name.takeWhile isNameChar = []
    · rw [hfront, List.nil_append, readSome_eq_none hx, Option.bind_none]
    · rw [readSome_append hfront (fun y hy => List.mem_takeWhile_imp hy) hx, Option.bind_some,
        readSpaces, readSome_eq_none (hspaces x hmem), Option.map_none]

/-- The comment is read where its name has characters of the pattern only. -/
theorem readAnchor_anchor (hwords : Words rt) {name type : List Char}
    (hspaces : ∀ x ∈ name, isSpace x = false) (htype : type ≠ [])
    (hletters : ∀ x ∈ type, rt.isWord x = true)
    [Decidable (name ≠ [] ∧ ∀ x ∈ name, isNameChar x = true)] :
    readAnchor rt ('<' :: anchorTail name type) =
      if name ≠ [] ∧ ∀ x ∈ name, isNameChar x = true then some (name, type) else none := by
  have hopening : ('<' :: anchorTail name type).dropPrefix? "<!--".toList =
      some (' ' :: ("field=".toList ++ (name ++ ' ' :: ("type=".toList ++
        (type ++ ' ' :: "-->".toList))))) := by
    rw [dropPrefix?_eq_some, opening_eq, anchorTail, List.cons_append]
  have hfield : (lstrip (' ' :: ("field=".toList ++ (name ++ ' ' :: ("type=".toList ++
      (type ++ ' ' :: "-->".toList)))))).dropPrefix? "field=".toList =
        some (name ++ ' ' :: ("type=".toList ++ (type ++ ' ' :: "-->".toList))) := by
    rw [lstrip_blank, dropPrefix?_eq_some]
    exact lstrip_cons (by decide) _
  have hnotWord : rt.isWord ' ' = false := by
    rw [hwords.ascii ' ' (by decide)]
    decide
  have hspaced : readSpaces (' ' :: ("type=".toList ++ (type ++ ' ' :: "-->".toList))) =
      some ("type=".toList ++ (type ++ ' ' :: "-->".toList)) := readSpaces_blank (by decide)
  have htypeIs : ("type=".toList ++ (type ++ ' ' :: "-->".toList)).dropPrefix? "type=".toList =
      some (type ++ ' ' :: "-->".toList) := dropPrefix?_eq_some.mpr rfl
  have hclosing : (lstrip (' ' :: "-->".toList)).dropPrefix? "-->".toList = some [] := by decide
  rw [readAnchor, hopening]
  simp only [Option.bind_eq_bind, Option.bind_some, hfield]
  split
  · rename_i hnames
    rw [readSome_append hnames.1 hnames.2 (by decide)]
    simp only [Option.bind_some, hspaced, htypeIs, readSome_append htype hletters hnotWord,
      hclosing]
    rfl
  · rename_i hnames
    have hnone := readName_eq_none hspaces hnames ("type=".toList ++ (type ++ ' ' :: "-->".toList))
    cases hread : readSome isNameChar (name ++ ' ' :: ("type=".toList ++
        (type ++ ' ' :: "-->".toList))) with
    | none => rfl
    | some found =>
      rw [hread, Option.bind_some] at hnone
      simp only [Option.bind_some, hnone, Option.bind_none]

/-! ## The bullet of a field -/

theorem readBody_eq_none (h : '<' ∉ cs) : readBody rt cs = none := by
  induction cs with
  | nil => rfl
  | cons x cs ih =>
    have hnone : readAnchor rt (lstrip (x :: cs)) = none := by
      rw [readAnchor]
      cases hopening : (lstrip (x :: cs)).dropPrefix? "<!--".toList with
      | none => rfl
      | some rest =>
        rw [dropPrefix?_eq_some, opening_eq] at hopening
        refine absurd ((mem_lstrip_iff (by decide)).mp ?_) h
        rw [hopening]
        exact List.mem_cons_self
    rw [readBody, hnone]
    simp only [ih (not_or.mp (mt List.mem_cons.mpr h)).2, Option.map_none]

/-- The body of a bullet ends at the comment, however often a comment begins before. -/
theorem readBody_append (hwords : Words rt) {body tail : List Char}
    (hbody : body.rdropWhile isSpace = body) (htail : '<' ∉ tail) :
    readBody rt (body ++ ' ' :: '<' :: tail) =
      (readAnchor rt ('<' :: tail)).map fun anchor => (body, anchor) := by
  induction body with
  | nil =>
    rw [List.nil_append, readBody, lstrip_blank, lstrip_cons (by decide)]
    cases hanchor : readAnchor rt ('<' :: tail) with
    | some anchor => rfl
    | none =>
      have hbehind : readBody rt ('<' :: tail) = none := by
        rw [readBody, lstrip_cons (by decide), hanchor]
        simp only [readBody_eq_none htail, Option.map_none]
      simp only [hbehind, Option.map_none]
  | cons x body ih =>
    have hsolid : lstrip (x :: body) ≠ [] := by
      intro hblank
      rw [lstrip, List.dropWhile_eq_nil_iff] at hblank
      rw [List.rdropWhile_eq_nil_iff.mpr hblank] at hbody
      cases hbody
    obtain ⟨y, behind, hcons⟩ := List.exists_cons_of_ne_nil hsolid
    have hnone : readAnchor rt (lstrip (x :: body ++ ' ' :: '<' :: tail)) = none := by
      by_contra hsome
      obtain ⟨found, hfound⟩ := Option.ne_none_iff_exists'.mp hsome
      refine not_mem_tail_of_readAnchor hwords hfound ?_
      rw [lstrip, List.dropWhile_append, ← lstrip, hcons]
      simp
    have hrest : body.rdropWhile isSpace = body := by
      rw [← List.singleton_append, rdropWhile_append] at hbody
      split at hbody
      · rename_i hempty
        have hlength := congrArg List.length hbody
        have hle := (List.rdropWhile_prefix isSpace (l := [x])).length_le
        simp only [List.length_append, List.length_singleton] at hlength hle
        rw [List.length_eq_zero_iff.mp (by omega : body.length = 0)]
        rfl
      · exact List.append_cancel_left hbody
    rw [List.cons_append] at hnone ⊢
    rw [readBody, hnone]
    simp only [ih hrest, Option.map_map]
    rfl

/-! ### The name -/

/-- Every character of the name that the encoding keeps for a letter or a digit is ASCII. -/
def Field.Named (rt : Runtime) (f : Field) : Prop :=
  f.name ≠ "" ∧ ∀ x ∈ f.name.toList, rt.isWord x = true → x.toNat < 128

theorem isNameChar_hexDigits : ∀ n < 16, isNameChar (hexDigits.getD n '0') = true := by decide

theorem isNameChar_hexByte (b : UInt8) : ∀ x ∈ '%' :: hexByte b, isNameChar x = true := by
  have hbound := b.toNat_lt
  intro x hx
  rcases List.mem_cons.mp hx with rfl | hx
  · decide
  · rcases List.mem_cons.mp hx with rfl | hx
    · exact isNameChar_hexDigits _ (by omega)
    · obtain rfl := List.mem_singleton.mp hx
      exact isNameChar_hexDigits _ (by omega)

theorem mem_encodeName {name : String} (hx : x ∈ (encodeName rt name).toList) :
    isNameChar x = true ∨ x ∈ name.toList ∧ rt.isWord x = true := by
  rw [encodeName, String.toList_ofList, percentEncode, List.mem_flatMap] at hx
  obtain ⟨y, hy, hx⟩ := hx
  split at hx
  · rename_i hkeep
    obtain rfl := List.mem_singleton.mp hx
    rcases (Bool.or_eq_true _ _).mp hkeep with hkeep | hkeep
    · exact Or.inr ⟨hy, (Bool.and_eq_true_iff.mp hkeep).1⟩
    · have hkept : ∀ x ∈ ['_', '.', '-'], isNameChar x = true := List.all_eq_true.mp (by decide)
      exact Or.inl (hkept x (List.contains_iff_mem.mp hkeep))
  · obtain ⟨b, -, hx⟩ := List.mem_flatMap.mp hx
    exact Or.inl (isNameChar_hexByte b x hx)

theorem toNat_lt_of_isAlphanum (h : x.isAlphanum = true) : x.toNat < 128 := by
  delta Char.isAlphanum Char.isAlpha Char.isUpper Char.isLower Char.isDigit at h
  simp only [Bool.or_eq_true, Bool.and_eq_true, decide_eq_true_eq, UInt32.le_iff_toNat_le,
    ge_iff_le] at h
  have htoNat : x.toNat = x.val.toNat := rfl
  have hupper : 'Z'.val.toNat = 90 := rfl
  have hlower : 'z'.val.toNat = 122 := rfl
  have hdigit : '9'.val.toNat = 57 := rfl
  omega

theorem toNat_lt_of_isNameChar (h : isNameChar x = true) : x.toNat < 128 := by
  rcases (Bool.or_eq_true _ _).mp h with h | h
  · exact toNat_lt_of_isAlphanum h
  · have hlist : ∀ x ∈ ['_', '.', '%', '-'], x.toNat < 128 := by simp
    exact hlist x (List.contains_iff_mem.mp h)

theorem isNameChar_spaces : ∀ n < 128, isSpace (Char.ofNat n) = true →
    isNameChar (Char.ofNat n) = false := by
  decide

theorem isSpace_eq_false_of_isNameChar (h : isNameChar x = true) :
    isSpace x = false := by
  by_contra hspace
  have hnot := isNameChar_spaces x.toNat (toNat_lt_of_isNameChar h)
  rw [Char.ofNat_toNat] at hnot
  rw [hnot (by simpa using hspace)] at h
  cases h

theorem isSpace_encodeName (hwords : Words rt) (name : String) :
    ∀ x ∈ (encodeName rt name).toList, isSpace x = false := by
  intro x hx
  rcases mem_encodeName hx with h | h
  · exact isSpace_eq_false_of_isNameChar h
  · exact hwords.notSpace x h.2

theorem percentDecode_encodeName (hwords : Words rt) (name : String) :
    percentDecode (encodeName rt name).toList = name.toList := by
  have hpercent : isalnum rt '%' = false := by
    rw [isalnum, hwords.ascii '%' (by decide)]
    decide
  rw [encodeName, String.toList_ofList]
  refine percentDecode_percentEncode ?_ _
  rw [hpercent]
  decide

theorem mem_encodeName_of_isWord {name : String} (hx : x ∈ name.toList) (hword : rt.isWord x = true) :
    x ∈ (encodeName rt name).toList := by
  rw [encodeName, String.toList_ofList, percentEncode, List.mem_flatMap]
  refine ⟨x, hx, ?_⟩
  have hkeep : (isalnum rt x || ['_', '.', '-'].contains x) = true := by
    by_cases hscore : x = '_'
    · rw [hscore]
      exact Bool.or_true _
    · rw [isalnum, hword, Bool.true_and, bne_iff_ne.mpr hscore, Bool.true_or]
  rw [if_pos hkeep]
  exact List.mem_singleton_self x

/-- The pattern takes the encoded name where the encoding has kept nothing else. -/
theorem named_iff (hwords : Words rt) (f : Field) :
    ((encodeName rt f.name).toList ≠ [] ∧
      ∀ x ∈ (encodeName rt f.name).toList, isNameChar x = true) ↔ f.Named rt := by
  constructor
  · rintro ⟨hne, hall⟩
    refine ⟨?_, fun x hx hword =>
      toNat_lt_of_isNameChar (hall x (mem_encodeName_of_isWord hx hword))⟩
    intro hempty
    rw [hempty] at hne
    exact hne rfl
  · rintro ⟨hne, hascii⟩
    constructor
    · intro hempty
      have hdecode := percentDecode_encodeName hwords f.name
      rw [hempty] at hdecode
      exact hne (String.toList_eq_nil_iff.mp hdecode.symm)
    · intro x hx
      rcases mem_encodeName hx with h | ⟨hmem, hword⟩
      · exact h
      · rw [hwords.ascii x (hascii x hmem hword), Bool.or_eq_true] at hword
        rw [isNameChar, Bool.or_eq_true]
        rcases hword with h | h
        · exact Or.inl h
        · rw [eq_of_beq h]
          exact Or.inr rfl

/-! ### The line -/

theorem word_eq (type : FieldType) : type.word ≠ "" ∧
    ∀ x ∈ type.word.toList, x.toNat < 128 ∧ x.isAlphanum = true ∧ x ≠ '<' := by
  have hall : type.word.toList.all
      (fun x => decide (x.toNat < 128) && x.isAlphanum && x != '<') = true := by
    cases type <;> decide
  refine ⟨by cases type <;> decide, fun x hx => ?_⟩
  simpa [and_assoc] using List.all_eq_true.mp hall x hx

theorem ofList_encodeName (hwords : Words rt) (name : String) :
    String.ofList (percentDecode (encodeName rt name).toList) = name := by
  rw [percentDecode_encodeName hwords, String.ofList_toList]

theorem toList_formatFieldBullet (f : Field) :
    (formatFieldBullet rt f).toList =
      '-' :: ' ' :: ((f.body rt).toList ++ ' ' :: '<' ::
        anchorTail (encodeName rt f.name).toList f.type.word.toList) := by
  have hdash : "- ".toList = ['-', ' '] := by decide
  have hopening : " <!-- field=".toList = ' ' :: '<' :: ("!--".toList ++ ' ' :: "field=".toList) := by
    decide
  have htype : " type=".toList = ' ' :: "type=".toList := by decide
  have hclosing : " -->".toList = ' ' :: "-->".toList := by decide
  simp only [formatFieldBullet, String.toList_append, hdash, hopening, htype, hclosing, anchorTail,
    List.append_assoc, List.cons_append, List.nil_append]

/-- What is read of a bullet on a line of its own. -/
theorem readLine_formatFieldBullet (hwords : Words rt) (f : Field)
    (hbody : trim isSpace (f.body rt).toList = (f.body rt).toList)
    (hne : (f.body rt).toList ≠ []) [Decidable (f.Named rt)] :
    readLine rt (formatFieldBullet rt f).toList =
      if f.Named rt then some (f.name, readValue f.type.word.toList (f.body rt).toList)
      else none := by
  obtain ⟨hfront, hback⟩ := dropWhile_of_trim hbody
  obtain ⟨y, behind, hcons⟩ := List.exists_cons_of_ne_nil hne
  have hy : isSpace y = false := by
    by_contra hspace
    rw [hcons, List.dropWhile_cons_of_pos (by simpa using hspace)] at hfront
    have hle := (List.dropWhile_suffix isSpace (l := behind)).length_le
    rw [hfront, List.length_cons] at hle
    omega
  obtain ⟨htypeNe, htypeChars⟩ := word_eq f.type
  have hletters : ∀ x ∈ f.type.word.toList, rt.isWord x = true := by
    intro x hx
    obtain ⟨hascii, halnum, -⟩ := htypeChars x hx
    rw [hwords.ascii x hascii, halnum, Bool.true_or]
  have hspaces := isSpace_encodeName hwords f.name
  have hname : '<' ∉ (encodeName rt f.name).toList := by
    intro hmem
    rcases mem_encodeName hmem with h | ⟨-, h⟩
    · exact absurd h (by decide)
    · rw [hwords.ascii '<' (by decide)] at h
      exact absurd h (by decide)
  have htail := not_mem_anchorTail hname fun hmem => (htypeChars _ hmem).2.2 rfl
  have hspaced : readSpaces (' ' :: ((f.body rt).toList ++ ' ' :: '<' ::
      anchorTail (encodeName rt f.name).toList f.type.word.toList)) =
        some ((f.body rt).toList ++ ' ' :: '<' ::
          anchorTail (encodeName rt f.name).toList f.type.word.toList) := by
    rw [hcons]
    exact readSpaces_blank hy
  have hanchor := readAnchor_anchor hwords hspaces (by
    rwa [ne_eq, String.toList_eq_nil_iff]) hletters
  rw [toList_formatFieldBullet, readLine, readBullet, lstrip_cons (by decide)]
  have hdash : ∀ cs : List Char, ('-' :: cs).dropPrefix? ['-'] = some cs :=
    fun cs => dropPrefix?_eq_some.mpr rfl
  simp only [hdash, Option.bind_eq_bind, Option.bind_some, hspaced,
    readBody_append hwords hback htail, hanchor, named_iff hwords f]
  split
  · simp only [Option.map_some, ofList_encodeName hwords]
  · rfl

/-! ## The value that a bullet shows -/

theorem shown_solid (rt : Runtime) (f : Field) :
    trim isSpace (f.shown rt).toList = (f.shown rt).toList ∧ (f.shown rt).toList ≠ [] := by
  have hvalue : ∀ placeholder : String, trim isSpace placeholder.toList = placeholder.toList →
      placeholder ≠ "" → ∀ (ok : Prop) [Decidable ok], (ok → flatten rt f.value ≠ "") →
      trim isSpace (if ok then flatten rt f.value else placeholder).toList =
        (if ok then flatten rt f.value else placeholder).toList ∧
      (if ok then flatten rt f.value else placeholder).toList ≠ [] := by
    intro placeholder htrim hne ok _ hok
    by_cases h : ok
    · rw [if_pos h]
      exact ⟨trim_flatten _, mt String.toList_eq_nil_iff.mp (hok h)⟩
    · rw [if_neg h]
      exact ⟨htrim, mt String.toList_eq_nil_iff.mp hne⟩
  unfold Field.shown
  cases f.type with
  | choice => exact hvalue _ (by decide) (by decide) _ id
  | signature => exact hvalue _ (by decide) (by decide) _ And.left
  | _ => exact hvalue _ (by decide) (by decide) _ id

theorem toList_body_choice {f : Field} (h : f.type = .choice) :
    (f.body rt).toList = '*' :: '*' :: ((f.shownLabel rt).toList ++
      ("** [".toList ++ (" / ".intercalate f.options).toList ++ "]:".toList) ++
        ' ' :: (f.shown rt).toList) := by
  have hstars : "**".toList = ['*', '*'] := by decide
  have hcolon : "]: ".toList = "]:".toList ++ [' '] := by decide
  unfold Field.body
  rw [h]
  simp only [String.toList_append, hstars, hcolon, List.append_assoc, List.cons_append,
    List.nil_append]

theorem toList_body_text {f : Field} (hcheckbox : f.type ≠ .checkbox) (hchoice : f.type ≠ .choice) :
    (f.body rt).toList = '*' :: '*' :: ((f.shownLabel rt).toList ++ (":**".toList ++
      ' ' :: (f.shown rt).toList)) := by
  have hstars : "**".toList = ['*', '*'] := by decide
  have hcolon : ":** ".toList = ":**".toList ++ [' '] := by decide
  have hbody : f.body rt = "**" ++ f.shownLabel rt ++ ":** " ++ f.shown rt := by
    unfold Field.body
    cases htype : f.type with
    | checkbox => exact absurd htype hcheckbox
    | choice => exact absurd htype hchoice
    | _ => rfl
  simp only [hbody, String.toList_append, hstars, hcolon, List.append_assoc, List.cons_append,
    List.nil_append]

theorem toList_body_checkbox {f : Field} (h : f.type = .checkbox) :
    (f.body rt).toList = '[' :: (if flatten rt f.value ≠ "" then 'x' else ' ') :: ']' ::
      (" **".toList ++ (f.shownLabel rt).toList ++ "**".toList) := by
  have hticked : "[x]".toList = ['[', 'x', ']'] := by decide
  have hunticked : "[ ]".toList = ['[', ' ', ']'] := by decide
  unfold Field.body
  rw [h]
  simp only [String.toList_append, checkboxMarker]
  split <;> simp only [hticked, hunticked, List.append_assoc, List.cons_append, List.nil_append]

theorem body_solid (f : Field) :
    trim isSpace (f.body rt).toList = (f.body rt).toList ∧ (f.body rt).toList ≠ [] := by
  obtain ⟨hshown, hne⟩ := shown_solid rt f
  by_cases hcheckbox : f.type = .checkbox
  · rw [toList_body_checkbox hcheckbox]
    have hlast : trim isSpace "**".toList = "**".toList := by decide
    have htrim := trim_cons_append (show isSpace '[' = false by decide)
      ((if flatten rt f.value ≠ "" then 'x' else ' ') :: ']' ::
        (" **".toList ++ (f.shownLabel rt).toList)) hlast (by decide)
    simp only [List.cons_append] at htrim
    exact ⟨htrim, List.cons_ne_nil _ _⟩
  · by_cases hchoice : f.type = .choice
    · rw [toList_body_choice hchoice]
      have htrim := trim_cons_append (show isSpace '*' = false by decide)
        ('*' :: ((f.shownLabel rt).toList ++
          ("** [".toList ++ (" / ".intercalate f.options).toList ++ "]:".toList) ++ [' ']))
        hshown hne
      simp only [List.cons_append, List.append_assoc, List.nil_append] at htrim ⊢
      exact ⟨htrim, List.cons_ne_nil _ _⟩
    · rw [toList_body_text hcheckbox hchoice]
      have htrim := trim_cons_append (show isSpace '*' = false by decide)
        ('*' :: ((f.shownLabel rt).toList ++ (":**".toList ++ [' ']))) hshown hne
      simp only [List.cons_append, List.append_assoc, List.nil_append] at htrim ⊢
      exact ⟨htrim, List.cons_ne_nil _ _⟩

/-- What is read of a bullet whose shown value stands behind something that is not blank is not
what it shows. -/
theorem strip_append_shown {e shown : List Char} (hx : x ∈ e) (hspace : isSpace x = false)
    (hshown : trim isSpace shown = shown) (hne : shown ≠ []) :
    (strip (String.ofList (e ++ ' ' :: shown))).toList = lstrip e ++ ' ' :: shown ∧
      x ∈ lstrip e := by
  have hmem := (mem_lstrip_iff hspace).mpr hx
  refine ⟨?_, hmem⟩
  have hfront : (e ++ ' ' :: shown).dropWhile isSpace = lstrip e ++ ' ' :: shown := by
    rw [List.dropWhile_append, if_neg]
    · rfl
    · rw [List.isEmpty_iff]
      exact List.ne_nil_of_mem hmem
  have hback : (lstrip e ++ ' ' :: shown).rdropWhile isSpace = lstrip e ++ ' ' :: shown := by
    rw [← List.singleton_append, ← List.append_assoc, rdropWhile_append,
      (dropWhile_of_trim hshown).2, if_neg hne]
  rw [toList_strip, String.toList_ofList, trim, hfront, hback]

theorem strip_shown {shown : String} (h : trim isSpace shown.toList = shown.toList) :
    strip (String.ofList (' ' :: shown.toList)) = shown := by
  have hblank : (' ' :: shown.toList).dropWhile isSpace = shown.toList.dropWhile isSpace :=
    List.dropWhile_cons_of_pos (by decide)
  rw [← String.toList_inj, toList_strip, String.toList_ofList, trim, hblank, ← trim, h]

/-- No placeholder holds what stands in front of a value. -/
theorem not_mem_placeholders {raw : String} (hx : x = '*' ∨ x = ':') (h : x ∈ raw.toList) :
    raw ∉ placeholders := by
  have hlist : ∀ p ∈ placeholders, '*' ∉ p.toList ∧ ':' ∉ p.toList := by decide
  intro hmem
  rcases hx with rfl | rfl
  · exact (hlist raw hmem).1 h
  · exact (hlist raw hmem).2 h

theorem withoutPlaceholder_ne {e : List Char} {shown : String} (hx : x ∈ e)
    (hmark : x = '*' ∨ x = ':') (hshown : trim isSpace shown.toList = shown.toList)
    (hne : shown.toList ≠ []) :
    withoutPlaceholder (strip (String.ofList (e ++ ' ' :: shown.toList))) ≠
      withoutPlaceholder shown := by
  have hspace : isSpace x = false := by
    rcases hmark with rfl | rfl <;> decide
  obtain ⟨hraw, hmem⟩ := strip_append_shown hx hspace hshown hne
  have hnot := not_mem_placeholders hmark (by rw [hraw]; exact List.mem_append_left _ hmem)
  rw [withoutPlaceholder, if_neg hnot, withoutPlaceholder]
  intro heq
  have hlength := congrArg (fun s : String => s.toList.length) heq
  simp only [hraw, List.length_append, List.length_cons] at hlength
  split at hlength
  · simp at hlength
  · omega

/-! ## Texts -/

/-- A text value is read as it is shown where `:**` first stands behind the label. -/
theorem withoutPlaceholder_text_iff (label : List Char) {shown : String}
    (hshown : trim isSpace shown.toList = shown.toList) (hne : shown.toList ≠ []) :
    withoutPlaceholder (strip (String.ofList ((searchFirst readText ('*' :: '*' :: x :: (label ++
      (":**".toList ++ ' ' :: shown.toList)))).getD []))) = withoutPlaceholder shown ↔
        FirstBehind ":**".toList label := by
  have hmarker : ":**".toList ≠ [] := by decide
  obtain ⟨before, rest, hsplit, hbefore, -⟩ :=
    exists_splitAtText_append hmarker label (' ' :: shown.toList)
  have hread : readText ('*' :: '*' :: x :: (label ++ (":**".toList ++ ' ' :: shown.toList))) =
      some rest := by
    rw [readText, hsplit, Option.map_some]
  rw [searchFirst_eq hread, Option.getD_some, ← hbefore]
  have hwhole := append_of_splitAtText hmarker hsplit
  constructor
  · intro hsame
    by_contra hother
    obtain ⟨e, he⟩ : ∃ e, rest = e ++ ' ' :: shown.toList := by
      obtain ⟨_, _, hsplit', -, hsuffix⟩ :=
        exists_splitAtText_append hmarker label (' ' :: shown.toList)
      obtain ⟨-, rfl⟩ := Prod.mk.inj (Option.some.inj (hsplit.symm.trans hsplit'))
      obtain ⟨e, he⟩ := hsuffix
      exact ⟨e, he.symm⟩
    rw [he, ← List.append_assoc, ← List.append_assoc, ← List.append_assoc,
      List.append_left_inj] at hwhole
    -- what is left in front of the value ends in the last star of the marker
    rcases List.eq_nil_or_concat e with rfl | ⟨front, last, rfl⟩
    · rw [List.append_nil, List.append_left_inj] at hwhole
      exact hother hwhole.symm
    · have hlast : last = '*' := by
        have hends := congrArg List.getLast? hwhole
        have hstar : ":**".toList = [':', '*'] ++ ['*'] := by decide
        rw [hstar, ← List.append_assoc, List.getLast?_concat, ← List.append_assoc,
          List.concat_eq_append, ← List.append_assoc, List.getLast?_concat] at hends
        exact (Option.some.inj hends).symm
      refine withoutPlaceholder_ne (x := '*') ?_ (Or.inl rfl) hshown hne (he ▸ hsame)
      rw [List.concat_eq_append, hlast]
      exact List.mem_append_right _ (List.mem_singleton_self _)
  · rintro rfl
    rw [List.append_cancel_left_eq, List.append_cancel_left_eq] at hwhole
    rw [← hwhole, strip_shown hshown]

/-! ## Choices -/

theorem dropPrefix?_append {p : List Char} (h : p.length ≤ cs.length) (behind : List Char) :
    (cs ++ behind).dropPrefix? p = (cs.dropPrefix? p).map (· ++ behind) := by
  cases hread : cs.dropPrefix? p with
  | some rest =>
    rw [dropPrefix?_eq_some.mp hread, List.append_assoc]
    exact dropPrefix?_eq_some.mpr rfl
  | none =>
    rw [Option.map_none, Option.eq_none_iff_forall_ne_some]
    intro rest hrest
    rw [dropPrefix?_eq_some] at hrest
    have hstarts : p <+: cs :=
      List.prefix_of_prefix_length_le ⟨rest, hrest.symm⟩ (List.prefix_append _ _) h
    obtain ⟨rest', rfl⟩ := hstarts
    rw [dropPrefix?_eq_some.mpr rfl] at hread
    cases hread

theorem dropWhile_append_cons {α : Type} {p : α → Bool} {x : α} (hx : p x = false) (l l' : List α) :
    (l ++ x :: l').dropWhile p = l.dropWhile p ++ x :: l' := by
  rw [List.dropWhile_append, List.dropWhile_cons_of_neg (by rw [hx]; exact Bool.false_ne_true)]
  split
  · rename_i hempty
    rw [List.isEmpty_iff.mp hempty, List.nil_append]
  · rfl

/-- Behind the end of the options of a bullet, nothing changes what is read before. -/
theorem readOptions_append (front behind : List Char) :
    readOptions (front ++ "]:".toList ++ behind) =
      (readOptions (front ++ "]:".toList)).map (· ++ behind) := by
  have hclosing : "]:".toList = [']', ':'] := by decide
  have hstars : "**".toList = ['*', '*'] := by decide
  have hpair : 2 ≤ (front ++ "]:".toList).length := by
    rw [List.length_append, hclosing, List.length_cons, List.length_cons, List.length_nil]
    omega
  rw [readOptions, readOptions, dropPrefix?_append (by rw [hstars]; exact hpair)]
  cases hopening : (front ++ "]:".toList).dropPrefix? "**".toList with
  | none => rfl
  | some cs =>
    obtain ⟨cs, rfl⟩ : ∃ cs', cs = cs' ++ "]:".toList := by
      rw [dropPrefix?_eq_some, hclosing, hstars] at hopening
      match front, hopening with
      | [], h => cases h
      | [_], h => cases h
      | _ :: _ :: front, h => exact ⟨front, (List.cons.inj (List.cons.inj h).2).2.symm⟩
    have hspaces : ∀ l : List Char, lstrip (cs ++ ']' :: l) = lstrip cs ++ ']' :: l :=
      fun l => dropWhile_append_cons (by decide) cs l
    simp only [Option.bind_eq_bind, Option.map_some, Option.bind_some, hclosing, List.append_assoc,
      List.cons_append, List.nil_append, hspaces]
    cases hfirst : lstrip cs with
    | nil => rfl
    | cons x cs =>
      by_cases hx : x = '['
      · subst hx
        have hbracket : ∀ l : List Char, ('[' :: cs ++ l).dropPrefix? ['['] = some (cs ++ l) :=
          fun l => dropPrefix?_eq_some.mpr rfl
        have hinside : ∀ l : List Char, (cs ++ ']' :: l).dropWhile (· != ']') =
            cs.dropWhile (· != ']') ++ ']' :: l := fun l => dropWhile_append_cons (by decide) cs l
        simp only [hbracket, Option.bind_some, hinside]
        cases hend : cs.dropWhile (· != ']') with
        | nil =>
          have hdrop : ∀ l : List Char, (']' :: l).dropPrefix? [']'] = some l :=
            fun l => dropPrefix?_eq_some.mpr rfl
          have hcolon : ∀ l : List Char, (lstrip (':' :: l)).dropPrefix? [':'] = some l :=
            fun l => dropPrefix?_eq_some.mpr (lstrip_cons (by decide) l)
          simp only [List.nil_append, hdrop, Option.bind_some, hcolon, Option.map_some]
        | cons y rest =>
          have hy : y = ']' := by
            have hne : cs.dropWhile (· != ']') ≠ [] := hend ▸ List.cons_ne_nil _ _
            have hnot := List.head_dropWhile_not (· != ']') hne
            simpa only [hend, List.head_cons, bne_eq_false_iff_eq] using hnot
          subst hy
          have hdrop : ∀ l : List Char, (']' :: rest ++ l).dropPrefix? [']'] = some (rest ++ l) :=
            fun l => dropPrefix?_eq_some.mpr rfl
          have hcolon : ∀ l : List Char, lstrip (rest ++ ']' :: l) = lstrip rest ++ ']' :: l :=
            fun l => dropWhile_append_cons (by decide) rest l
          simp only [hdrop, Option.bind_some, hcolon]
          have hlength : [':'].length ≤ (lstrip rest ++ [']', ':']).length := by
            simp only [List.length_append, List.length_cons, List.length_nil]
            omega
          have happend := dropPrefix?_append hlength behind
          rw [List.append_assoc] at happend
          exact happend
      · have hnone : ∀ l : List Char, (x :: cs ++ l).dropPrefix? ['['] = none := by
          intro l
          rw [Option.eq_none_iff_forall_ne_some]
          intro rest hrest
          rw [dropPrefix?_eq_some] at hrest
          exact hx (List.cons.inj hrest).1
        simp only [hnone, Option.bind_none, Option.map_none]

theorem readOptions_eq_none (hx : x ≠ '*') (cs : List Char) :
    readOptions (x :: cs) = none := by
  have hstars : "**".toList = ['*', '*'] := by decide
  have hnone : (x :: cs).dropPrefix? "**".toList = none := by
    rw [Option.eq_none_iff_forall_ne_some]
    intro rest hrest
    rw [dropPrefix?_eq_some, hstars] at hrest
    exact hx (List.cons.inj hrest).1
  rw [readOptions, hnone]
  rfl

theorem searchFirst_readOptions_append (front behind : List Char) :
    searchFirst readOptions (front ++ "]:".toList ++ behind) =
      match searchFirst readOptions (front ++ "]:".toList) with
      | some rest => some (rest ++ behind)
      | none => searchFirst readOptions behind := by
  induction front with
  | nil =>
    have hclosing : "]:".toList = [']', ':'] := by decide
    have hstep : ∀ x : Char, x ≠ '*' → ∀ cs : List Char,
        searchFirst readOptions (x :: cs) = searchFirst readOptions cs := by
      intro x hx cs
      rw [searchFirst, readOptions_eq_none hx]
    rw [List.nil_append, hclosing]
    simp only [List.cons_append, List.nil_append]
    rw [hstep ']' (by decide), hstep ':' (by decide), hstep ']' (by decide), hstep ':' (by decide)]
    rfl
  | cons x front ih =>
    have hread := readOptions_append (x :: front) behind
    simp only [List.cons_append] at hread ih ⊢
    rw [searchFirst, searchFirst, hread, ih]
    cases readOptions (x :: (front ++ "]:".toList)) with
    | none => rfl
    | some rest => rfl

theorem length_of_readOptions {rest : List Char} (h : readOptions cs = some rest) :
    rest <:+ cs ∧ rest.length + 2 ≤ cs.length := by
  rw [readOptions] at h
  simp only [Option.bind_eq_bind, Option.bind_eq_some_iff, dropPrefix?_eq_some] at h
  obtain ⟨cs₁, rfl, cs₂, hopening, cs₃, hclosing, hcolon⟩ := h
  have hstars : "**".toList = ['*', '*'] := by decide
  have hrest : rest <:+ cs₃ :=
    (hcolon ▸ List.suffix_append [':'] rest : rest <:+ lstrip cs₃).trans (List.dropWhile_suffix _)
  have hinside : cs₃ <:+ cs₂ :=
    (hclosing ▸ List.suffix_append [']'] cs₃ : cs₃ <:+ cs₂.dropWhile (· != ']')).trans
      (List.dropWhile_suffix _)
  have hbehind : cs₂ <:+ cs₁ :=
    (hopening ▸ List.suffix_append ['['] cs₂ : cs₂ <:+ lstrip cs₁).trans (List.dropWhile_suffix _)
  have hall := hrest.trans (hinside.trans hbehind)
  refine ⟨hall.trans (List.suffix_append _ _), ?_⟩
  have hle := hall.length_le
  rw [List.length_append, hstars, List.length_cons, List.length_cons, List.length_nil]
  omega

theorem suffix_of_searchFirst_readOptions {rest : List Char}
    (h : searchFirst readOptions cs = some rest) :
    rest <:+ cs ∧ rest.length + 2 ≤ cs.length := by
  obtain ⟨s, hs, hread⟩ := exists_suffix_of_searchFirst h
  obtain ⟨hsuffix, hlength⟩ := length_of_readOptions hread
  have hle := hs.length_le
  exact ⟨hsuffix.trans hs, by omega⟩

theorem searchFirst_readChoice (x : Char) (cs : List Char) :
    searchFirst readChoice ('*' :: '*' :: x :: cs) = searchFirst readOptions cs := by
  cases hread : searchFirst readOptions cs with
  | some rest => exact searchFirst_eq hread
  | none =>
    rw [searchFirst_eq_none_iff]
    intro s hs
    rw [searchFirst_eq_none_iff] at hread
    unfold readChoice
    split
    · rename_i y behind
      refine searchFirst_eq_none_iff.mpr fun t ht => hread t (ht.trans ?_)
      have hbehind : behind <:+ '*' :: '*' :: x :: cs :=
        (List.suffix_append ['*', '*', y] behind).trans hs
      have hlength := hs.length_le
      simp only [List.length_cons] at hlength
      exact List.suffix_of_suffix_length_le hbehind (List.suffix_append ['*', '*', x] cs) (by omega)
    · rfl

/-- The options of a choice, from behind the first character of its label. -/
def optionsPart (label options : List Char) : List Char :=
  label ++ ("** [".toList ++ options ++ "]:".toList)

/-- A choice is read as it is shown where the pattern finds the end of the options, and where it finds
none and nothing is to be read. -/
theorem withoutPlaceholder_choice_iff (x : Char) (label options : List Char) {shown : String}
    (hshown : trim isSpace shown.toList = shown.toList) (hne : shown.toList ≠ []) :
    withoutPlaceholder (strip (String.ofList ((searchFirst readChoice ('*' :: '*' :: x ::
      (optionsPart label options ++ ' ' :: shown.toList))).getD []))) = withoutPlaceholder shown ↔
        searchFirst readOptions (optionsPart label options) = some [] ∨
          searchFirst readOptions (optionsPart label options) = none ∧ shown ∈ placeholders := by
  have hpart : optionsPart label options =
      label ++ ("** [".toList ++ options) ++ "]:".toList := (List.append_assoc label _ _).symm
  have hplaceholders : ∀ p ∈ placeholders,
      searchFirst readOptions (' ' :: p.toList) = none := by
    decide
  rw [searchFirst_readChoice, hpart, searchFirst_readOptions_append, ← hpart]
  cases hfound : searchFirst readOptions (optionsPart label options) with
  | some rest =>
    simp only [Option.getD_some, Option.some.injEq, reduceCtorEq, false_and, or_false]
    constructor
    · intro hsame
      by_contra hrest
      obtain ⟨hsuffix, -⟩ := suffix_of_searchFirst_readOptions hfound
      obtain ⟨front, last, rfl⟩ := (List.eq_nil_or_concat rest).resolve_left hrest
      have hlast : last = ':' := by
        obtain ⟨before, hbefore⟩ := hsuffix
        have hends := congrArg List.getLast? hbefore
        have hcolon : "]:".toList = [']'] ++ [':'] := by decide
        rw [hpart, hcolon, List.concat_eq_append, ← List.append_assoc, List.getLast?_concat,
          ← List.append_assoc, List.getLast?_concat] at hends
        exact Option.some.inj hends
      refine withoutPlaceholder_ne (x := ':') ?_ (Or.inr rfl) hshown hne hsame
      rw [List.concat_eq_append, hlast]
      exact List.mem_append_right _ (List.mem_singleton_self _)
    · rintro rfl
      rw [List.nil_append, strip_shown hshown]
  | none =>
    simp only [reduceCtorEq, true_and, false_or]
    by_cases hmem : shown ∈ placeholders
    · rw [hplaceholders shown hmem, withoutPlaceholder, withoutPlaceholder, if_pos hmem]
      exact iff_of_true (by decide) hmem
    · refine iff_of_false ?_ hmem
      have hlength : ((searchFirst readOptions (' ' :: shown.toList)).getD []).length <
          shown.toList.length := by
        cases hbehind : searchFirst readOptions (' ' :: shown.toList) with
        | none => exact List.length_pos_iff.mpr hne
        | some rest =>
          obtain ⟨-, hle⟩ := suffix_of_searchFirst_readOptions hbehind
          rw [List.length_cons] at hle
          rw [Option.getD_some]
          omega
      intro hsame
      rw [withoutPlaceholder, withoutPlaceholder, if_neg hmem] at hsame
      have htexts := congrArg (fun s : String => s.toList.length) hsame
      split at htexts
      · have hzero : "".toList.length = 0 := by decide
        rw [hzero] at htexts
        exact hne (List.length_eq_zero_iff.mp htexts.symm)
      · rw [toList_strip, String.toList_ofList] at htexts
        have hle := (List.rdropWhile_prefix isSpace (l :=
          ((searchFirst readOptions (' ' :: shown.toList)).getD []).dropWhile isSpace)).length_le
        have hle' := (List.dropWhile_suffix isSpace (l :=
          (searchFirst readOptions (' ' :: shown.toList)).getD [])).length_le
        rw [trim] at htexts
        omega

end Pandamonium.PdfForm
