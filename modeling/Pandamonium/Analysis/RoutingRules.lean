import Mathlib.Data.List.TakeWhile
import Pandamonium.Library.RegexLanguage
import Pandamonium.Model.ContentRouting

/-!
# The rules of the routing

When each rule for a piece of a streamed text applies, and what it takes from the text: a rule looks
at one piece, so it applies only where what it looks for is in one piece, and a piece that none
applies to is yielded as it is.
-/

set_option autoImplicit false

namespace Pandamonium.StreamLlm

open Pandamonium.Library

/-! ## Letters -/

/-- The letters that `str.lower` makes of one. -/
def lowerChar (x : Char) : List Char :=
  if x = '\u0130' then ['i', '\u0307'] else if x = '\u212a' then ['k'] else [x.toLower]

theorem lower_eq_flatMap (cs : List Char) : lower cs = cs.flatMap lowerChar := rfl

theorem lower_append (a b : List Char) : lower (a ++ b) = lower a ++ lower b :=
  List.flatMap_append

theorem lower_cons (x : Char) (cs : List Char) : lower (x :: cs) = lowerChar x ++ lower cs :=
  List.flatMap_cons

theorem lowerChar_eq (x : Char) :
    (∃ y, lowerChar x = [y]) ∨ lowerChar x = ['i', '\u0307'] := by
  unfold lowerChar
  split
  · exact .inr rfl
  · split
    · exact .inl ⟨_, rfl⟩
    · exact .inl ⟨_, rfl⟩

theorem length_lower_le (cs : List Char) : (lower cs).length ≤ 2 * cs.length := by
  induction cs with
  | nil => exact le_refl 0
  | cons x cs ih =>
    have hx : (lowerChar x).length ≤ 2 := by
      obtain ⟨y, hy⟩ | hy := lowerChar_eq x <;> simp [hy]
    rw [lower_cons, List.length_append, List.length_cons]
    omega

/-- A space is the same in lower case. -/
theorem lowerChar_of_isSpace {x : Char} (h : isSpace x = true) : lowerChar x = [x] := by
  have hcode : ¬ (65 ≤ x.toNat ∧ x.toNat ≤ 90) ∧ x.toNat ≠ 0x130 ∧ x.toNat ≠ 0x212a := by
    simp only [isSpace, Bool.or_eq_true, decide_eq_true_eq, List.mem_cons,
      List.not_mem_nil, or_false] at h
    omega
  have hdotted : x ≠ '\u0130' := fun hx => hcode.2.1 (congrArg Char.toNat hx)
  have hkelvin : x ≠ '\u212a' := fun hx => hcode.2.2 (congrArg Char.toNat hx)
  have hlower : x.toLower = x := by
    refine dif_neg ?_
    rintro ⟨hge, hle⟩
    exact hcode.1 ⟨UInt32.le_iff_toNat_le.mp hge, UInt32.le_iff_toNat_le.mp hle⟩
  rw [lowerChar, if_neg hdotted, if_neg hkelvin, hlower]

/-! ## Tags -/

variable {tag : String} {w cs : List Char}

/-- A text that in lower case starts with the letters of a tag has a piece for them.  The letter
that becomes two must not be cut. -/
theorem exists_of_prefix_lower {tag : List Char} (hdot : '\u0307' ∉ tag)
    (hlast : tag.getLast? ≠ some 'i') (h : tag <+: lower cs) :
    ∃ w c, cs = w ++ c ∧ lower w = tag := by
  induction tag generalizing cs with
  | nil => exact ⟨[], cs, rfl, rfl⟩
  | cons x tag ih =>
    cases cs with
    | nil => exact absurd (List.prefix_nil.mp h) nofun
    | cons y cs =>
      rw [lower_cons] at h
      obtain ⟨z, hz⟩ | hz := lowerChar_eq y
      · rw [hz, List.singleton_append, List.cons_prefix_cons] at h
        have hlast' : tag.getLast? ≠ some 'i' := by
          intro htag
          rw [List.getLast?_cons, htag] at hlast
          exact hlast rfl
        obtain ⟨w, c, hcs, hw⟩ := ih (fun hmem => hdot (List.mem_cons_of_mem _ hmem)) hlast' h.2
        exact ⟨y :: w, c, by rw [hcs]; rfl, by rw [lower_cons, hz, hw, h.1]; rfl⟩
      · rw [hz, List.cons_append, List.cons_prefix_cons] at h
        obtain ⟨rfl, htag⟩ := h
        cases tag with
        | nil => exact absurd rfl hlast
        | cons x' tag =>
          rw [List.cons_append, List.cons_prefix_cons] at htag
          exact absurd (htag.1 ▸ List.mem_cons_of_mem _ List.mem_cons_self) hdot

theorem startsWithTag_iff {text : List Char} :
    startsWithTag tag text = true ↔ tag.toList <+: lower (lstrip text) :=
  List.isPrefixOf_iff_prefix

/-- What a piece starts with, the text that begins with the piece starts with. -/
theorem startsWithTag_of_begins (htag : tag.toList ≠ []) {p text : List Char}
    (h : startsWithTag tag p = true) (hp : p <+: text) : startsWithTag tag text = true := by
  rw [startsWithTag_iff] at h ⊢
  obtain ⟨c, rfl⟩ := hp
  have hne : lstrip p ≠ [] := by
    intro hnil
    rw [hnil] at h
    exact htag (List.prefix_nil.mp h)
  have hstrip : lstrip (p ++ c) = lstrip p ++ c := by
    unfold lstrip at hne ⊢
    rw [List.dropWhile_append, if_neg (by rwa [List.isEmpty_iff])]
  rw [hstrip, lower_append]
  exact h.trans (List.prefix_append _ _)

theorem startsWithTag_eq_false_of_begins (htag : tag.toList ≠ []) {p text : List Char}
    (h : startsWithTag tag text = false) (hp : p <+: text) :
    startsWithTag tag p = false := by
  rw [← Bool.not_eq_true] at h ⊢
  exact fun hstarts => h (startsWithTag_of_begins htag hstarts hp)

/-- The start of a tag is longer than one character. -/
theorem startsWithTag_singleton (htag : 2 < tag.toList.length) (x : Char) :
    startsWithTag tag [x] = false := by
  rw [← Bool.not_eq_true, startsWithTag_iff]
  intro h
  have hlower := length_lower_le (lstrip [x])
  have hstrip : (lstrip [x]).length ≤ 1 := List.length_dropWhile_le _ _
  have hle := h.length_le
  omega

/-- Where a text starts with a tag: the spaces before it, the tag, and the rest. -/
theorem exists_of_startsWithTag {text : List Char} (hdot : '\u0307' ∉ tag.toList)
    (hlast : tag.toList.getLast? ≠ some 'i') (h : startsWithTag tag text = true) :
    ∃ spaces w c, text = spaces ++ w ++ c ∧ (∀ x ∈ spaces, isSpace x = true) ∧
      lower w = tag.toList := by
  obtain ⟨w, c, hcs, hw⟩ := exists_of_prefix_lower hdot hlast (startsWithTag_iff.mp h)
  refine ⟨text.takeWhile isSpace, w, c, ?_, fun x hx => List.mem_takeWhile_imp hx, hw⟩
  rw [List.append_assoc, ← hcs]
  exact (List.takeWhile_append_dropWhile).symm

/-- What comes before the letters of a tag are the spaces. -/
theorem lstrip_spaces_append {tag spaces : List Char} (hspaces : ∀ x ∈ spaces, isSpace x = true)
    (hw : lower w = '<' :: tag) : lstrip (spaces ++ w) = w := by
  have hkeeps : lstrip w = w := by
    cases w with
    | nil => rfl
    | cons y w =>
      refine List.dropWhile_cons_of_neg fun hy => ?_
      rw [lower_cons, lowerChar_of_isSpace hy, List.singleton_append] at hw
      obtain rfl : y = '<' := (List.cons.inj hw).1
      exact absurd hy (by decide)
  have hdrop : spaces.dropWhile isSpace = [] := List.dropWhile_eq_nil_iff.mpr hspaces
  unfold lstrip at hkeeps ⊢
  rw [List.dropWhile_append, hdrop, List.isEmpty_nil, if_pos rfl, hkeeps]

/-- A character that is no letter is not in a piece whose letters do not have it. -/
theorem not_mem_of_lower {x : Char} (hx : lowerChar x = [x]) (h : x ∉ lower w) :
    x ∉ w := by
  intro hmem
  rw [lower_eq_flatMap, List.mem_flatMap] at h
  exact h ⟨x, hmem, by rw [hx]; exact List.mem_singleton_self x⟩

/-- A piece of spaces and the letters of a tag has no other characters in lower case. -/
theorem not_mem_spaces_append {x : Char} (hspace : isSpace x = false) (hx : lowerChar x = [x])
    {spaces : List Char} (hspaces : ∀ x ∈ spaces, isSpace x = true) (hw : x ∉ lower w) :
    x ∉ spaces ++ w ∧ x ∉ lower (spaces ++ w) := by
  have hnotSpaces : x ∉ spaces := fun hmem => by
    rw [hspaces x hmem] at hspace
    exact Bool.noConfusion hspace
  constructor
  · rw [List.mem_append, not_or]
    exact ⟨hnotSpaces, not_mem_of_lower hx hw⟩
  · rw [lower_append, List.mem_append, not_or]
    refine ⟨fun hmem => ?_, hw⟩
    obtain ⟨y, hy, hxy⟩ := List.mem_flatMap.mp hmem
    rw [← lowerChar, lowerChar_of_isSpace (hspaces y hy), List.mem_singleton] at hxy
    exact hnotSpaces (hxy ▸ hy)

/-! ## Finding -/

theorem findText_eq_none_iff {text : List Char} (hne : text ≠ []) :
    findText text cs = none ↔ ¬ text <:+: cs := by
  induction cs with
  | nil =>
    rw [findText, if_neg (by rwa [List.isEmpty_iff]), List.infix_nil]
    exact iff_of_true rfl hne
  | cons x cs ih =>
    rw [findText, List.infix_cons_iff, not_or, ← ih]
    by_cases hstart : text <+: x :: cs
    · rw [if_pos (List.isPrefixOf_iff_prefix.mpr hstart)]
      exact iff_of_false nofun fun h => h.1 hstart
    · rw [if_neg fun h => hstart (List.isPrefixOf_iff_prefix.mp h), Option.map_eq_none_iff]
      exact ⟨fun h => ⟨hstart, h⟩, And.right⟩

theorem findText_eq_none_of_not_mem {x : Char} {text : List Char} (hx : x ∈ text) (h : x ∉ cs) :
    findText text cs = none :=
  (findText_eq_none_iff (List.ne_nil_of_mem hx)).mpr fun hwithin => h (hwithin.subset hx)

theorem searchMarker_eq_some {before after : List Char} {marker : String}
    (h : searchMarker cs = some (before, marker, after)) :
    marker ∈ harmonyMarkers ∧ cs = before ++ marker.toList ++ after := by
  induction cs generalizing before with
  | nil => exact absurd h nofun
  | cons x cs ih =>
    rw [searchMarker] at h
    cases hfind : harmonyMarkers.find? fun marker => marker.toList.isPrefixOf (x :: cs) with
    | some found =>
      rw [hfind] at h
      simp only [Option.some.injEq, Prod.mk.injEq] at h
      obtain ⟨rfl, rfl, rfl⟩ := h
      refine ⟨List.mem_of_find?_eq_some hfind, ?_⟩
      have hfound := List.find?_some hfind
      obtain ⟨rest, hrest⟩ := List.isPrefixOf_iff_prefix.mp hfound
      rw [List.nil_append, ← hrest, ← String.length_toList, List.drop_left]
    | none =>
      rw [hfind] at h
      cases hrest : searchMarker cs with
      | none => rw [hrest] at h; exact absurd h nofun
      | some found =>
        obtain ⟨before', marker', after'⟩ := found
        rw [hrest] at h
        simp only [Option.map_some, Option.some.injEq, Prod.mk.injEq] at h
        obtain ⟨rfl, rfl, rfl⟩ := h
        obtain ⟨hmarker, hcs⟩ := ih hrest
        exact ⟨hmarker, by rw [hcs]; rfl⟩

theorem searchMarker_eq_none_iff :
    searchMarker cs = none ↔ ∀ marker ∈ harmonyMarkers, ¬ marker.toList <:+: cs := by
  induction cs with
  | nil =>
    refine iff_of_true rfl fun marker hmarker hwithin => ?_
    have hnonempty : ∀ marker ∈ harmonyMarkers, marker.toList ≠ [] := by decide
    exact hnonempty marker hmarker (List.infix_nil.mp hwithin)
  | cons x cs ih =>
    rw [searchMarker]
    cases hfind : harmonyMarkers.find? fun marker => marker.toList.isPrefixOf (x :: cs) with
    | some found =>
      refine iff_of_false nofun fun h => ?_
      have hfound := List.find?_some hfind
      exact h found (List.mem_of_find?_eq_some hfind)
        (List.isPrefixOf_iff_prefix.mp hfound).isInfix
    | none =>
      dsimp only
      rw [Option.map_eq_none_iff, ih]
      refine forall₂_congr fun marker hmarker => ?_
      have hstart : ¬ marker.toList <+: x :: cs := fun h =>
        List.find?_eq_none.mp hfind marker hmarker (List.isPrefixOf_iff_prefix.mpr h)
      rw [List.infix_cons_iff, not_or]
      exact ⟨fun h => ⟨hstart, h⟩, And.right⟩

theorem searchMarker_of_within {text : List Char} (h : searchMarker text = none)
    (hwithin : cs <:+: text) : searchMarker cs = none :=
  searchMarker_eq_none_iff.mpr fun marker hmarker hcs =>
    searchMarker_eq_none_iff.mp h marker hmarker (hcs.trans hwithin)

/-! ## Patterns -/

theorem mem_language_litIgnoringCase {text : String} :
    w ∈ (litIgnoringCase text).language ↔ w.map foldCase = text.toList := by
  unfold litIgnoringCase
  induction text.toList generalizing w with
  | nil => exact Regex.mem_language_epsilon.trans List.map_eq_nil_iff.symm
  | cons x cs ih =>
    rw [List.foldr_cons, Regex.mem_language_seq]
    constructor
    · rintro ⟨a, ha, b, hb, rfl⟩
      obtain ⟨y, hy, rfl⟩ := Regex.mem_language_char.mp ha
      rw [List.singleton_append, List.map_cons, beq_iff_eq.mp hy, ih.mp hb]
    · intro h
      obtain ⟨y, w', rfl, hy, hw'⟩ := List.map_eq_cons_iff.mp h
      exact ⟨[y], Regex.mem_language_char.mpr ⟨y, beq_iff_eq.mpr hy, rfl⟩, w', ih.mpr hw', rfl⟩

/-- `</mm:think>` -/
abbrev mmThinkClose : Regex := litIgnoringCase "</mm:think>"

theorem lookFree_artifact : visibleChatTemplateArtifact.lookFree = true := by decide

theorem lookFree_mmThinkOpen : mmThinkOpen.lookFree = true := by decide

theorem lookFree_mmThinkClose : mmThinkClose.lookFree = true := by decide

theorem minLength_artifact : visibleChatTemplateArtifact.minLength = 10 := by decide

theorem minLength_mmThinkOpen : mmThinkOpen.minLength = 10 := by decide

theorem minLength_mmThinkClose : mmThinkClose.minLength = 11 := by decide

theorem strip_of_not_occurs {text : String}
    (h : ¬ visibleChatTemplateArtifact.Occurs text.toList) :
    stripVisibleChatTemplateArtifacts text = text := by
  rw [stripVisibleChatTemplateArtifacts, Regex.sub_eq_replace,
    Regex.replace_of_not_occurs lookFree_artifact h]

theorem strip_of_mem {text : String} (h : text.toList ∈ visibleChatTemplateArtifact.language) :
    stripVisibleChatTemplateArtifacts text = "" := by
  have hlen := Regex.minLength_le h
  rw [minLength_artifact] at hlen
  have hne : text.toList ≠ [] := fun hnil => by
    rw [hnil] at hlen
    exact absurd hlen (by decide)
  rw [stripVisibleChatTemplateArtifacts, Regex.sub_eq_replace, Regex.replace_of_mem h hne]
  rfl

/-- What an opening tag's alias is replaced by. -/
abbrev thinkOpening (found : List Char) : List Char :=
  "<think".toList ++ found.drop "<mm:think".length

theorem length_thinkOpening (hw : w ∈ mmThinkOpen.language) :
    (thinkOpening w).length < w.length := by
  have hlen := Regex.minLength_le hw
  rw [minLength_mmThinkOpen] at hlen
  have hopen : "<think".toList.length = 6 := by decide
  have halias : "<mm:think".length = 9 := by decide
  rw [List.length_append, List.length_drop, hopen, halias]
  omega

theorem length_thinkClosing (hw : w ∈ mmThinkClose.language) :
    "</think>".toList.length < w.length := by
  have hlen := Regex.minLength_le hw
  have hclose : "</think>".toList.length = 8 := by decide
  rw [minLength_mmThinkClose] at hlen
  omega

theorem length_strip_le (text : String) :
    (stripVisibleChatTemplateArtifacts text).toList.length ≤ text.toList.length := by
  have hshortens := Regex.replace_shortens lookFree_artifact (f := fun _ => "".toList)
    (fun w hw => by
      have hlen := Regex.minLength_le hw
      rw [minLength_artifact] at hlen
      exact (Nat.zero_lt_succ 9).trans_le hlen) text
  rw [stripVisibleChatTemplateArtifacts, Regex.sub_eq_replace]
  cases hshortens with
  | inl h => rw [h]
  | inr h => exact h.le

theorem replaceMmThink_of_not_occurs {content : List Char} (hopen : ¬ mmThinkOpen.Occurs content)
    (hclose : ¬ mmThinkClose.Occurs content) : replaceMmThink content = content := by
  have hopened : (mmThinkOpen.replace thinkOpening (String.ofList content)).2 =
      String.ofList content :=
    Regex.replace_of_not_occurs lookFree_mmThinkOpen (by rwa [String.toList_ofList])
  have hclosed : (mmThinkClose.replace (fun _ => "</think>".toList) (String.ofList content)).2 =
      String.ofList content :=
    Regex.replace_of_not_occurs lookFree_mmThinkClose (by rwa [String.toList_ofList])
  simp only [replaceMmThink, Regex.sub_eq_replace, hopened, hclosed, String.toList_ofList]

/-- The second substitution does not lengthen what is left by the first. -/
theorem length_replaceMmThink_le_opened (content : List Char) :
    (replaceMmThink content).length ≤
      (mmThinkOpen.replace thinkOpening (String.ofList content)).2.toList.length := by
  have hclosed := Regex.replace_shortens lookFree_mmThinkClose
    (f := fun _ => "</think>".toList) (fun _ => length_thinkClosing)
    (mmThinkOpen.replace thinkOpening (String.ofList content)).2
  rw [replaceMmThink, Regex.sub_eq_replace]
  cases hclosed with
  | inl h => rw [h]
  | inr h => exact h.le

theorem opened_shortens (content : List Char) :
    (mmThinkOpen.replace thinkOpening (String.ofList content)).2 = String.ofList content ∨
      (mmThinkOpen.replace thinkOpening (String.ofList content)).2.toList.length <
        content.length := by
  have hopened := Regex.replace_shortens lookFree_mmThinkOpen (f := thinkOpening)
    (fun _ => length_thinkOpening) (String.ofList content)
  rwa [String.toList_ofList] at hopened

theorem length_replaceMmThink_le (content : List Char) :
    (replaceMmThink content).length ≤ content.length := by
  refine (length_replaceMmThink_le_opened content).trans ?_
  cases opened_shortens content with
  | inl h => rw [h, String.toList_ofList]
  | inr h => exact h.le

/-- A text that is an alias of a tag is shortened. -/
theorem length_replaceMmThink_of_mem (hw : w ∈ mmThinkOpen.language ∨ w ∈ mmThinkClose.language) :
    (replaceMmThink w).length < w.length := by
  have hle := length_replaceMmThink_le_opened w
  cases opened_shortens w with
  | inr h => exact hle.trans_lt h
  | inl hsame =>
    cases hw with
    | inl hw =>
      have hlen := length_thinkOpening hw
      have hwhole : (mmThinkOpen.replace thinkOpening (String.ofList w)).2 =
          String.ofList (thinkOpening (String.ofList w).toList) :=
        Regex.replace_of_mem (by rwa [String.toList_ofList])
        (by rw [String.toList_ofList]; exact List.ne_nil_of_length_pos (Nat.zero_lt_of_lt hlen))
      rw [hwhole, String.toList_ofList, String.toList_ofList] at hle
      exact hle.trans_lt hlen
    | inr hw =>
      have hlen := length_thinkClosing hw
      have hwhole : (mmThinkClose.replace (fun _ => "</think>".toList) (String.ofList w)).2 =
          String.ofList "</think>".toList :=
        Regex.replace_of_mem (by rwa [String.toList_ofList])
        (by rw [String.toList_ofList]; exact List.ne_nil_of_length_pos (Nat.zero_lt_of_lt hlen))
      rw [replaceMmThink, Regex.sub_eq_replace, hsame, hwhole, String.toList_ofList]
      exact hlen

/-- An alias does not start as a repaired answer does. -/
theorem not_prefix_of_mem_alias {c : List Char}
    (hw : w ∈ mmThinkOpen.language ∨ w ∈ mmThinkClose.language) :
    ¬ "<think>".toList <+: w ++ c := by
  obtain ⟨x, y, rest, hwx, hy⟩ : ∃ x y rest, w = x :: y :: rest ∧ foldCase y ≠ 't' := by
    cases hw with
    | inl hw =>
      obtain ⟨a, ha, b, -, rfl⟩ := Regex.mem_language_seq.mp hw
      obtain ⟨x, a, rfl, -, ha⟩ := List.map_eq_cons_iff.mp (mem_language_litIgnoringCase.mp ha)
      obtain ⟨y, a, rfl, hy, -⟩ := List.map_eq_cons_iff.mp ha
      exact ⟨x, y, a ++ b, rfl, by rw [hy]; decide⟩
    | inr hw =>
      obtain ⟨x, a, rfl, -, ha⟩ := List.map_eq_cons_iff.mp (mem_language_litIgnoringCase.mp hw)
      obtain ⟨y, a, rfl, hy, -⟩ := List.map_eq_cons_iff.mp ha
      exact ⟨x, y, a, rfl, by rw [hy]; decide⟩
  rintro ⟨d, hd⟩
  rw [hwx] at hd
  obtain ⟨-, hd⟩ := List.cons.inj hd
  obtain ⟨rfl, -⟩ := List.cons.inj hd
  exact hy (by decide)

/-! ## Channels -/

/-- The text of the parts that are thinking, or of those that are visible. -/
def channel (thinking : Bool) (parts : List Part) : List Char :=
  (parts.filter fun p => p.2 == thinking).flatMap Prod.fst

/-- The number of the characters of the parts. -/
def size (parts : List Part) : ℕ := (channel false parts).length + (channel true parts).length

@[simp] theorem channel_nil (thinking : Bool) : channel thinking [] = [] := rfl

@[simp] theorem channel_append (thinking : Bool) (ps qs : List Part) :
    channel thinking (ps ++ qs) = channel thinking ps ++ channel thinking qs := by
  rw [channel, List.filter_append, List.flatMap_append, channel, channel]

@[simp] theorem channel_cons_self (thinking : Bool) (text : List Char) (ps : List Part) :
    channel thinking ((text, thinking) :: ps) = text ++ channel thinking ps := by
  cases thinking <;> rfl

@[simp] theorem channel_false_cons_true (text : List Char) (ps : List Part) :
    channel false ((text, true) :: ps) = channel false ps := rfl

@[simp] theorem channel_true_cons_false (text : List Char) (ps : List Part) :
    channel true ((text, false) :: ps) = channel true ps := rfl

theorem size_append (ps qs : List Part) : size (ps ++ qs) = size ps + size qs := by
  simp only [size, channel_append, List.length_append]
  omega

theorem size_cons (text : List Char) (thinking : Bool) (ps : List Part) :
    size ((text, thinking) :: ps) = text.length + size ps := by
  cases thinking <;>
    simp only [size, channel_cons_self, channel_false_cons_true, channel_true_cons_false,
      List.length_append] <;> omega

/-- A part that is yielded where it is not empty is all of its channel. -/
@[simp] theorem channel_part_self (text : List Char) (thinking : Bool) :
    channel thinking (part text thinking) = text := by
  cases text with
  | nil => rfl
  | cons x text => exact (channel_cons_self thinking _ []).trans (List.append_nil _)

@[simp] theorem channel_true_part_false (text : List Char) :
    channel true (part text false) = [] := by
  cases text <;> rfl

@[simp] theorem channel_false_part_true (text : List Char) :
    channel false (part text true) = [] := by
  cases text <;> rfl

theorem size_part (text : List Char) (thinking : Bool) :
    size (part text thinking) = text.length := by
  cases thinking <;> simp [size]

/-! ## The harmony router -/

variable {r : HarmonyRouter} {text : List Char}

theorem size_appendText_le (r : HarmonyRouter) (text : List Char) :
    size (r.appendText text) ≤ text.length := by
  unfold HarmonyRouter.appendText
  split
  · exact Nat.zero_le _
  · split
    · exact (size_cons text false []).le
    · split
      · exact (size_cons text _ []).le
      · exact Nat.zero_le _

theorem appendText_unmarked (h : r.seenHarmony = false) : r.appendText text = part text false := by
  rw [HarmonyRouter.appendText, h, part]
  rfl

/-- What is yielded and what is kept is no more than the buffer. -/
theorem size_drainMarkers_le (n : ℕ) (r : HarmonyRouter) :
    size (r.drainMarkers n).1 + (r.drainMarkers n).2.buf.length ≤ r.buf.length := by
  induction n generalizing r with
  | zero => exact (Nat.zero_add _).le
  | succ n ih =>
    rw [HarmonyRouter.drainMarkers]
    cases hsearch : searchMarker r.buf with
    | none => exact (Nat.zero_add _).le
    | some found =>
      obtain ⟨before, marker, after⟩ := found
      dsimp only
      have hcut : r.buf.length = before.length + marker.toList.length + after.length := by
        rw [(searchMarker_eq_some hsearch).2, List.length_append, List.length_append]
      have hbefore := size_appendText_le r before
      have hafter := ih { r.handleMarker marker with buf := after }
      dsimp only at hafter
      rw [size_append]
      omega

theorem size_drain_le (r : HarmonyRouter) (final : Bool) :
    size (r.drain final).1 + (r.drain final).2.buf.length ≤ r.buf.length := by
  have hmarkers := size_drainMarkers_le (r.buf.length + 1) r
  rw [HarmonyRouter.drain]
  dsimp only
  generalize r.drainMarkers (r.buf.length + 1) = drained at hmarkers ⊢
  generalize (if final then 0 else harmonySuffixHoldLen drained.2.buf) = hold
  have htext := size_appendText_le drained.2
    (drained.2.buf.take (drained.2.buf.length - hold))
  rw [List.length_take] at htext
  rw [size_append, List.length_drop]
  omega

theorem size_feed_le (r : HarmonyRouter) (text : List Char) :
    size (r.feed text).1 + (r.feed text).2.buf.length ≤ r.buf.length + text.length := by
  rw [HarmonyRouter.feed]
  split
  · exact (Nat.zero_add _).trans_le (Nat.le_add_right _ _)
  · have hdrain := size_drain_le { r with buf := r.buf ++ text } false
    rwa [List.length_append] at hdrain

/-- A buffer without a marker is yielded as it is, up to what may start one. -/
theorem drain_unmarked (h : r.seenHarmony = false) (hsearch : searchMarker r.buf = none)
    (final : Bool) :
    ∃ emit rest, r.buf = emit ++ rest ∧
      r.drain final = (part emit false, { r with buf := rest }) := by
  have hmarkers : r.drainMarkers (r.buf.length + 1) = ([], r) := by
    rw [HarmonyRouter.drainMarkers, hsearch]
  rw [HarmonyRouter.drain, hmarkers]
  dsimp only
  rw [appendText_unmarked h]
  exact ⟨_, _, (List.take_append_drop _ _).symm, rfl⟩

theorem feed_unmarked (h : r.seenHarmony = false) (hsearch : searchMarker (r.buf ++ text) = none) :
    ∃ emit rest, r.buf ++ text = emit ++ rest ∧
      r.feed text = (part emit false, { r with buf := rest }) := by
  rw [HarmonyRouter.feed]
  by_cases htext : text.isEmpty = true
  · rw [if_pos htext, List.isEmpty_iff.mp htext, List.append_nil]
    exact ⟨[], r.buf, rfl, rfl⟩
  · rw [if_neg htext]
    exact drain_unmarked (r := { r with buf := r.buf ++ text }) h hsearch false

/-- Where the stream ends nothing is held back. -/
theorem flush_unmarked (h : r.seenHarmony = false) (hsearch : searchMarker r.buf = none) :
    r.flush.1 = part r.buf false := by
  have hmarkers : r.drainMarkers (r.buf.length + 1) = ([], r) := by
    rw [HarmonyRouter.drainMarkers, hsearch]
  rw [HarmonyRouter.flush, HarmonyRouter.drain, hmarkers]
  dsimp only
  rw [appendText_unmarked h, if_pos rfl, Nat.sub_zero, List.take_length]
  rfl

/-- A marker that comes in one piece is taken whole. -/
theorem feed_marker : ∀ marker ∈ harmonyMarkers,
    (HarmonyRouter.new.feed marker.toList).1 = [] ∧
      (HarmonyRouter.new.feed marker.toList).2.buf = [] := by
  decide +kernel

end Pandamonium.StreamLlm
