import Pandamonium.Model.ThinkTags
import Pandamonium.Library.TagBlocks
import Pandamonium.Analysis.SpokenBlocks

/-!
# What is left when the reasoning has been stripped

The passes on tags read a text once: each opener is paired with the first closer behind it
(`keptText`), so that what lies behind the closer of an inner block stays.  This holds where what
is left does not spell a tag that the removals have put together.
-/

set_option autoImplicit false

namespace Pandamonium.ThinkTags

open Library

variable {rt : Runtime} {text body : List Char} {ts : List Token}

/-! ## The kinds of tags -/

/-- The tags that the passes look for. -/
def isTag (body : List Char) : Bool :=
  isThinkTag body || isChannelOpen body || isChannelClose body

/-- The closers of think blocks, with attributes or without. -/
def isClosing (body : List Char) : Bool := isThinkCloseTag body || isThinkAttrClose body

theorem dropWord_eq_drop {word cs rest : List Char} (h : dropWord word cs = some rest) :
    rest = cs.drop word.length := by
  induction word generalizing cs with
  | nil =>
    cases h
    rfl
  | cons letter word ih =>
    cases cs with
    | nil => cases h
    | cons x cs =>
      rw [dropWord] at h
      split at h
      · exact ih h
      · cases h

variable {p : List Char → Bool} {f : List Char → List Char}

theorem named_iff {names : List (List Char)} :
    named names p body = true ↔
      ∃ name ∈ names, ∃ rest, dropWord name body = some rest ∧ p rest = true := by
  rw [named, List.any_eq_true]
  refine exists_congr fun name => and_congr_right fun _ => ?_
  rw [Option.any_eq_true]

theorem named_mono {names names' : List (List Char)} {p' : List Char → Bool}
    (hnames : names ⊆ names') (hp : ∀ cs, p cs = true → p' cs = true)
    (h : named names p body = true) : named names' p' body = true := by
  obtain ⟨name, hname, rest, hrest, hbehind⟩ := named_iff.mp h
  exact named_iff.mpr ⟨name, hnames hname, rest, hrest, hp rest hbehind⟩

theorem slashed_mono {p' : List Char → Bool} (hp : ∀ cs, p cs = true → p' cs = true)
    (h : slashed p body = true) : slashed p' body = true := by
  cases body with
  | nil => cases h
  | cons x body =>
    obtain ⟨hx, hbody⟩ := Bool.and_eq_true_iff.mp h
    exact Bool.and_eq_true_iff.mpr ⟨hx, hp body hbody⟩

/-- A tag with a name has no slash in front of it. -/
theorem slashed_of_named {p' : List Char → Bool} (h : named thinkTagName p body = true) :
    slashed p' body = false := by
  obtain ⟨name, hname, rest, hrest, -⟩ := named_iff.mp h
  have hletter : ∃ word, name = 't' :: word := by
    rcases List.mem_cons.mp hname with rfl | hname
    · exact ⟨_, rfl⟩
    · rcases List.mem_cons.mp hname with rfl | hname
      · exact ⟨_, rfl⟩
      · rw [List.mem_singleton.mp hname]
        exact ⟨_, rfl⟩
  obtain ⟨word, rfl⟩ := hletter
  cases body with
  | nil => rfl
  | cons x body =>
    rw [dropWord] at hrest
    split at hrest
    · rename_i hx
      have hslash : (x == '/') = false := by
        rw [beq_eq_false_iff_ne]
        rintro rfl
        exact absurd hx (by decide)
      rw [slashed, hslash, Bool.false_and]
    · cases hrest

theorem thought_subset : ["thought".toList] ⊆ thinkTagName := by
  intro name hname
  rw [List.mem_singleton.mp hname]
  decide

theorem isThinkTag_of_open (h : isThinkOpenTag body = true) : isThinkTag body = true :=
  Bool.or_eq_true_iff.mpr (.inl (named_mono (List.Subset.refl _) (fun _ _ => rfl) h))

theorem isThinkTag_of_closing (h : isClosing body = true) : isThinkTag body = true := by
  refine Bool.or_eq_true_iff.mpr (.inr ?_)
  rcases Bool.or_eq_true_iff.mp h with h | h
  · exact slashed_mono (fun _ => named_mono (List.Subset.refl _) fun _ _ => rfl) h
  · exact slashed_mono (fun _ => named_mono (List.Subset.refl _) fun _ _ => rfl) h

/-- An opener closes nothing. -/
theorem isClosing_of_open (h : isThinkOpenTag body = true) : isClosing body = false := by
  rw [isClosing, isThinkCloseTag, isThinkAttrClose, slashed_of_named h, slashed_of_named h,
    Bool.or_false]

/-- A closer opens nothing. -/
theorem isThinkOpenTag_of_closing (h : isClosing body = true) : isThinkOpenTag body = false := by
  refine Bool.eq_false_iff.mpr fun hopen => ?_
  rw [isClosing_of_open hopen] at h
  cases h

/-! ## Renamed tags -/

/-- A pass that gives tags another inside of the same kind. -/
structure KeepsKind (p : List Char → Bool) (f : List Char → List Char) : Prop where
  find : ∀ b, p b = true → isThinkTag b = true
  tag : ∀ b, p b = true → isThinkTag (f b) = true
  opens : ∀ b, p b = true → isThinkOpenTag (f b) = isThinkOpenTag b
  closes : ∀ b, p b = true → isClosing (f b) = isClosing b
  inside : ∀ b, p b = true → b.all isInside = true → (f b).all isInside = true

theorem keepsKind_open (hp : ∀ b, p b = true → isThinkOpenTag b = true)
    (hf : ∀ b, p b = true → isThinkOpenTag (f b) = true)
    (hinside : ∀ b, p b = true → b.all isInside = true → (f b).all isInside = true) :
    KeepsKind p f where
  find b hb := isThinkTag_of_open (hp b hb)
  tag b hb := isThinkTag_of_open (hf b hb)
  opens b hb := (hf b hb).trans (hp b hb).symm
  closes b hb := (isClosing_of_open (hf b hb)).trans (isClosing_of_open (hp b hb)).symm
  inside := hinside

theorem keepsKind_closing (hp : ∀ b, p b = true → isClosing b = true)
    (hf : ∀ b, p b = true → isClosing (f b) = true)
    (hinside : ∀ b, p b = true → b.all isInside = true → (f b).all isInside = true) :
    KeepsKind p f where
  find b hb := isThinkTag_of_closing (hp b hb)
  tag b hb := isThinkTag_of_closing (hf b hb)
  opens b hb :=
    (isThinkOpenTag_of_closing (hf b hb)).trans (isThinkOpenTag_of_closing (hp b hb)).symm
  closes b hb := (hf b hb).trans (hp b hb).symm
  inside := hinside

theorem keepsKind_thoughtOpen :
    KeepsKind isThoughtTagOpen fun body => "think".toList ++ body.drop 7 := by
  refine keepsKind_open (fun b hb => named_mono thought_subset (fun _ h => h) hb) ?_ ?_
  · intro b hb
    obtain ⟨name, hname, rest, hrest, hbehind⟩ := named_iff.mp hb
    obtain rfl := List.mem_singleton.mp hname
    obtain rfl := dropWord_eq_drop hrest
    exact named_iff.mpr ⟨"think".toList, List.mem_cons_self .., _, rfl, hbehind⟩
  · intro b _ hb
    rw [List.all_append, Bool.and_eq_true_iff]
    refine ⟨by decide, List.all_eq_true.mpr fun x hx => ?_⟩
    exact List.all_eq_true.mp hb x (List.mem_of_mem_drop hx)

theorem keepsKind_thoughtClose : KeepsKind isThoughtTagClose fun _ => "/think".toList := by
  refine keepsKind_closing (fun b hb => ?_) (fun _ _ => by decide) (fun _ _ _ => by decide)
  refine Bool.or_eq_true_iff.mpr (.inl (slashed_mono (fun _ => ?_) hb))
  exact named_mono thought_subset fun _ h => h

theorem keepsKind_attr : KeepsKind isThinkAttr fun _ => "think".toList := by
  refine keepsKind_open (fun b hb => ?_) (fun _ _ => by decide) (fun _ _ _ => by decide)
  exact named_mono (List.Subset.refl _) (fun _ h => Bool.or_eq_true_iff.mpr (.inr h)) hb

theorem keepsKind_attrClose : KeepsKind isThinkAttrClose fun _ => "/think".toList :=
  keepsKind_closing (fun _ hb => Bool.or_eq_true_iff.mpr (.inr hb)) (fun _ _ => by decide)
    (fun _ _ _ => by decide)

/-- The tokens of a text whose tags are all think tags. -/
structure Reads (ts : List Token) : Prop where
  legible : Legible isTag ts
  think : ∀ b, .tag b ∈ ts → isThinkTag b = true

theorem isTag_of_isThinkTag (h : isThinkTag body = true) : isTag body = true := by
  rw [isTag, h]
  rfl

theorem Reads.rename (h : Reads ts) (hkind : KeepsKind p f) :
    Reads (ts.map (Token.rename p f)) where
  legible := h.legible.rename fun b hb hinside =>
    ⟨isTag_of_isThinkTag (hkind.tag b hb), hkind.inside b hb hinside⟩
  think := by
    intro b hb
    obtain ⟨t, ht, heq⟩ := List.mem_map.mp hb
    cases t with
    | char x => cases heq
    | tag body =>
      cases heq
      split
      · rename_i hp
        exact hkind.tag body hp
      · exact h.think body ht

theorem KeepsKind.kept_eq (hkind : KeepsKind p f) (ts : List Token) :
    kept isThinkOpenTag isClosing isSpace (.outside false) (ts.map (Token.rename p f)) =
      kept isThinkOpenTag isClosing isSpace (.outside false) ts :=
  kept_rename (fun b hb => ⟨hkind.opens b hb, hkind.closes b hb⟩) _ ts

theorem Reads.sub_eq (h : Reads ts) (hkind : KeepsKind p f) :
    (alone p).sub (fun body => '<' :: (f body ++ ['>'])) (spell ts) =
      spell (ts.map (Token.rename p f)) :=
  sub_rename (fun b hb => isTag_of_isThinkTag (hkind.find b hb)) h.legible

/-! ## Channel markers -/

theorem head_of_isThinkTag (h : isThinkTag body = true) :
    ∃ x cs, body = x :: cs ∧ (x = 't' ∨ x = 'T' ∨ x = '/') := by
  cases body with
  | nil => exact absurd h (by decide)
  | cons x cs =>
    refine ⟨x, cs, rfl, ?_⟩
    rcases Bool.or_eq_true_iff.mp h with h | h
    · obtain ⟨name, hname, rest, hrest, -⟩ := named_iff.mp h
      have hletter : isLetter 't' x = true := by
        by_contra hnot
        simp only [thinkTagName, List.mem_cons, List.not_mem_nil, or_false] at hname
        rcases hname with rfl | rfl | rfl
        · exact absurd hrest (by simp [dropWord, hnot])
        · exact absurd hrest (by simp [dropWord, hnot])
        · exact absurd hrest (by simp [dropWord, hnot])
      have hcases : x = 't' ∨ x = 'T' := by simpa [isLetter] using hletter
      exact hcases.elim .inl fun hx => .inr (.inl hx)
    · obtain ⟨hx, -⟩ := Bool.and_eq_true_iff.mp h
      exact .inr (.inr (beq_iff_eq.mp hx))

/-- A think tag is no channel marker. -/
theorem isChannel_of_isThinkTag (h : isThinkTag body = true) :
    isChannelOpen body = false ∧ isChannelClose body = false := by
  obtain ⟨x, cs, rfl, rfl | rfl | rfl⟩ := head_of_isThinkTag h
  · exact ⟨rfl, rfl⟩
  · exact ⟨rfl, rfl⟩
  · exact ⟨rfl, rfl⟩

theorem matchAt_channelPattern (name cs : List Char) (h : (alone isChannelOpen).matchAt cs = none) :
    (channelPattern name).matchAt cs = none := by
  rw [alone, matchAt_tagPattern] at h
  cases htag : leadingTag cs with
  | none => simp only [channelPattern, htag]
  | some tag =>
    obtain ⟨body, rest⟩ := tag
    simp only [channelPattern, htag] at h ⊢
    split at h
    · cases h
    · rename_i hnot
      exact if_neg hnot

/-- Where all tags are think tags no channel marker is found. -/
theorem Reads.search_channel (h : Reads ts) (name : List Char) :
    (channelPattern name).search (spell ts) = none := by
  refine Pattern.search_eq_none (matchAt_channelPattern name) ?_
  have hq : ∀ b, isChannelOpen b = true → isTag b = true := by
    intro b hb
    rw [isTag, hb, Bool.or_true, Bool.true_or]
  rw [alone, search_tagPattern hq h.legible,
    findTag_of_none fun b hb => (isChannel_of_isThinkTag (h.think b hb)).1]
  rfl

theorem Reads.search_channelClose (h : Reads ts) (blank : Char → Bool) :
    (tagPattern isChannelClose blank).search (spell ts) = none := by
  have hq : ∀ b, isChannelClose b = true → isTag b = true := by
    intro b hb
    rw [isTag, hb, Bool.or_true]
  rw [search_tagPattern hq h.legible,
    findTag_of_none fun b hb => (isChannel_of_isThinkTag (h.think b hb)).2]
  rfl

/-! ## All passes on tags -/

/-- The tokens with the names and attributes that the passes have made the same. -/
def plainTags (ts : List Token) : List Token :=
  (((ts.map (.rename isThoughtTagOpen fun body => "think".toList ++ body.drop 7)).map
    (.rename isThoughtTagClose fun _ => "/think".toList)).map
    (.rename isThinkAttr fun _ => "think".toList)).map
    (.rename isThinkAttrClose fun _ => "/think".toList)

theorem Reads.plainTags (h : Reads ts) : Reads (plainTags ts) :=
  (((h.rename keepsKind_thoughtOpen).rename keepsKind_thoughtClose).rename keepsKind_attr).rename
    keepsKind_attrClose

theorem kept_plainTags (ts : List Token) :
    kept isThinkOpenTag isClosing isSpace (.outside false) (plainTags ts) =
      kept isThinkOpenTag isClosing isSpace (.outside false) ts := by
  rw [plainTags, keepsKind_attrClose.kept_eq, keepsKind_attr.kept_eq,
    keepsKind_thoughtClose.kept_eq, keepsKind_thoughtOpen.kept_eq]

/-- There are no closers with attributes any more. -/
theorem isClosing_plainTags {b : List Char} (hb : .tag b ∈ plainTags ts) :
    isClosing b = isThinkCloseTag b := by
  obtain ⟨t, -, heq⟩ := List.mem_map.mp hb
  cases t with
  | char x => cases heq
  | tag body =>
    cases heq
    split
    · exact (by decide : isClosing "/think".toList = isThinkCloseTag "/think".toList)
    · rename_i hnot
      rw [isClosing, Bool.eq_false_iff.mpr hnot, Bool.or_false]

theorem normalizeThinkingMarkup_eq (h : Reads ts) :
    normalizeThinkingMarkup (spell ts) =
      spell ((ts.map (.rename isThoughtTagOpen fun body => "think".toList ++ body.drop 7)).map
        (.rename isThoughtTagClose fun _ => "/think".toList)) := by
  have hopen := h.rename keepsKind_thoughtOpen
  have hclose := hopen.rename keepsKind_thoughtClose
  have hsub : (alone isThoughtTagClose).sub (fun _ => "</think>".toList) (spell _) = spell _ :=
    hopen.sub_eq keepsKind_thoughtClose
  rw [normalizeThinkingMarkup, h.sub_eq keepsKind_thoughtOpen, hsub]
  simp only [gemmaThoughtChannelOpen, gemmaResponseOpen, Pattern.subDelimited_eq,
    hclose.search_channel]
  rw [Pattern.sub_eq_self (hclose.search_channel _)]
  exact Pattern.sub_eq_self (hclose.search_channelClose _)

/-- What is left of a text: its characters without the tags and the white space behind them, and
without what lies between an opener and the first closer behind it. -/
def keptText (text : List Char) : List Char :=
  kept isThinkOpenTag isClosing isSpace (.outside false) (tokens isTag text)

/-- The passes behind those on tags. -/
def finish (rt : Runtime) (prose promptEcho : Bool) (out : List Char) : List Char :=
  let out := if promptEcho then dropEchoes out else out
  let out := if prose then stripReasoningProse rt out else out
  stripChars out

theorem reads_tokens (hthink : ∀ b ∈ tags isTag text, isThinkTag b = true) :
    Reads (tokens isTag text) :=
  ⟨legible_tokens isTag text, fun b hb => hthink b (mem_tags.mpr hb)⟩

/-- The passes on tags leave what is kept, where this spells no tag. -/
theorem stripThink_eq (rt : Runtime) (prose promptEcho : Bool)
    (hthink : ∀ b ∈ tags isTag text, isThinkTag b = true) (hkept : tags isTag (keptText text) = []) :
    stripThink rt prose promptEcho text = finish rt prose promptEcho (keptText text) := by
  have hreads := reads_tokens hthink
  have hplain := hreads.plainTags
  have hplainKept : kept isThinkOpenTag isThinkCloseTag isSpace (.outside false)
      (plainTags (tokens isTag text)) = keptText text := by
    rw [← kept_congr (fun b hb => isClosing_plainTags hb), kept_plainTags]
    rfl
  have hclose : ∀ b, isThinkCloseTag b = true → isTag b = true := fun b hb =>
    isTag_of_isThinkTag (isThinkTag_of_closing (Bool.or_eq_true_iff.mpr (.inl hb)))
  have hpasses := passes_eq_kept (fun b hb => isTag_of_isThinkTag (isThinkTag_of_open hb)) hclose
    (fun b => isTag_of_isThinkTag) rfl hplain.legible hplain.think (hplainKept.symm ▸ hkept)
  rw [hplainKept] at hpasses
  have hnormalized := normalizeThinkingMarkup_eq hreads
  rw [spell_tokens] at hnormalized
  have hopened := hreads.rename keepsKind_thoughtOpen
  have hclosed := hopened.rename keepsKind_thoughtClose
  have hattr : (alone isThinkAttr).sub (fun _ => "<think>".toList) (spell _) = spell _ :=
    hclosed.sub_eq keepsKind_attr
  have hattrClose : (alone isThinkAttrClose).sub (fun _ => "</think>".toList) (spell _) = spell _ :=
    (hclosed.rename keepsKind_attr).sub_eq keepsKind_attrClose
  by_cases hempty : text = []
  · subst hempty
    have hnil : keptText [] = [] := by
      rw [keptText, tokens]
      rfl
    rw [stripThink, if_pos rfl, hnil]
    cases prose <;> cases promptEcho <;> rfl
  · rw [stripThink, if_neg hempty]
    simp only [hnormalized, gemmaThoughtChannelOpen,
      Pattern.upTo_eq_self (hclosed.search_channel _), hattr, hattrClose]
    exact congrArg (finish rt prose promptEcho) hpasses

end Pandamonium.ThinkTags
