import Pandamonium.Library.AngleTags
import Pandamonium.Library.Splits

/-!
# Blocks between tags

Blocks are taken out of a text by a pattern for their openers and one for their closers, each opener
up to the first closer behind it.  Then the text is cut off at an opener that is left, and the tags
that are left are taken out.  White space behind a tag goes with it.  What is left in the end is
read off the tokens in one pass (`kept`), where what is left spells no tag.
-/

set_option autoImplicit false

namespace Pandamonium.Library

/-- Behind a tag, with or without white space still to be dropped, or inside of a block. -/
inductive Mode where
  | outside (eat : Bool)
  | inside
  deriving DecidableEq, Repr

section

variable (opens closes : List Char → Bool) (blank : Char → Bool)

/-- The characters that are left of a text. -/
def kept : Mode → List Token → List Char
  | _, [] => []
  | .inside, .char _ :: ts => kept .inside ts
  | .inside, .tag body :: ts => if closes body then kept (.outside true) ts else kept .inside ts
  | .outside eat, .char x :: ts =>
    if eat && blank x then kept (.outside true) ts else x :: kept (.outside false) ts
  | .outside _, .tag body :: ts =>
    if opens body then kept .inside ts else kept (.outside true) ts

/-- Where the reading stands behind some tokens. -/
def modeBehind : Mode → List Token → Mode
  | mode, [] => mode
  | .inside, .char _ :: ts => modeBehind .inside ts
  | .inside, .tag body :: ts =>
    if closes body then modeBehind (.outside true) ts else modeBehind .inside ts
  | .outside eat, .char x :: ts =>
    if eat && blank x then modeBehind (.outside true) ts else modeBehind (.outside false) ts
  | .outside _, .tag body :: ts =>
    if opens body then modeBehind .inside ts else modeBehind (.outside true) ts

end

theorem dropBlank_suffix (blank : Char → Bool) (ts : List Token) : dropBlank blank ts <:+ ts := by
  induction ts with
  | nil => exact List.suffix_refl _
  | cons t ts ih =>
    cases t with
    | tag body => exact List.suffix_refl _
    | char x =>
      rw [dropBlank]
      split
      · exact ih.trans (List.suffix_cons ..)
      · exact List.suffix_refl _

variable {p : List Char → Bool}

theorem findTag_eq {ts before rest : List Token} {body : List Char}
    (h : findTag p ts = some (before, body, rest)) :
    ts = before ++ .tag body :: rest ∧ p body = true ∧ ∀ b, Token.tag b ∈ before → p b = false := by
  induction ts generalizing before with
  | nil => cases h
  | cons t ts ih =>
    have hlater : ∀ {front}, (findTag p ts).map (fun found => (t :: found.1, found.2)) =
        some (front, body, rest) → (∀ b, t = .tag b → p b = false) →
        t :: ts = front ++ .tag body :: rest ∧ p body = true ∧ ∀ b, Token.tag b ∈ front → p b = false := by
      intro front hmap ht
      obtain ⟨⟨before, found⟩, hfind, heq⟩ := Option.map_eq_some_iff.mp hmap
      cases heq
      obtain ⟨hts, hbody, hbefore⟩ := ih hfind
      refine ⟨by rw [hts]; rfl, hbody, fun b hb => ?_⟩
      rcases List.mem_cons.mp hb with heq | hb
      · exact ht b heq.symm
      · exact hbefore b hb
    cases t with
    | char x => exact hlater h fun b hb => absurd hb (by simp)
    | tag b =>
      rw [findTag] at h
      split at h
      · rename_i hb
        cases h
        exact ⟨rfl, hb, fun c hc => absurd hc List.not_mem_nil⟩
      · rename_i hb
        refine hlater h fun c hc => ?_
        cases hc
        exact Bool.eq_false_iff.mpr hb

theorem findTag_append {front : List Token} (h : ∀ b, Token.tag b ∈ front → p b = false)
    (ts : List Token) :
    findTag p (front ++ ts) =
      (findTag p ts).map fun (before, found) => (front ++ before, found) := by
  induction front with
  | nil => simp
  | cons t front ih =>
    have hlater := ih fun b hb => h b (List.mem_cons_of_mem _ hb)
    cases t with
    | char x =>
      rw [List.cons_append, findTag, hlater, Option.map_map]
      rfl
    | tag body =>
      rw [List.cons_append, findTag, h body (List.mem_cons_self ..), if_neg Bool.false_ne_true,
        hlater, Option.map_map]
      rfl

theorem findTag_eq_none {ts : List Token} (h : findTag p ts = none) :
    ∀ b, Token.tag b ∈ ts → p b = false := by
  induction ts with
  | nil => exact fun b hb => absurd hb List.not_mem_nil
  | cons t ts ih =>
    intro b hb
    cases t with
    | char x =>
      rcases List.mem_cons.mp hb with heq | hb
      · cases heq
      · exact ih (Option.map_eq_none_iff.mp h) b hb
    | tag c =>
      rw [findTag] at h
      split at h
      · cases h
      · rename_i hc
        rcases List.mem_cons.mp hb with heq | hb
        · cases heq
          exact Bool.eq_false_iff.mpr hc
        · exact ih (Option.map_eq_none_iff.mp h) b hb

section

variable (opens closes : List Char → Bool) (blank : Char → Bool)

/-- The tokens without the blocks, and without white space behind them. -/
def unblock (ts : List Token) : List Token :=
  match h : findTag opens ts with
  | none => ts
  | some (before, _, rest) =>
    match h' : findTag closes rest with
    | none => ts
    | some (_, _, later) =>
      have : (dropBlank blank later).length < ts.length := by
        have hts := congrArg List.length (findTag_eq h).1
        have hrest := congrArg List.length (findTag_eq h').1
        have hlater := (dropBlank_suffix blank later).length_le
        rw [List.length_append, List.length_cons] at hts hrest
        omega
      before ++ unblock (dropBlank blank later)
termination_by ts.length

/-- A run of blocks, the last of which is not closed, and what comes before and behind. -/
inductive Unblocks : List Token → List Token → Prop
  | done {ts} (unopened : ∀ b, Token.tag b ∈ ts → opens b = false) : Unblocks ts ts
  | unclosed {before body rest} (unopened : ∀ b, Token.tag b ∈ before → opens b = false)
      (opened : opens body = true) (open_ : ∀ b, Token.tag b ∈ rest → closes b = false) :
      Unblocks (before ++ .tag body :: rest) (before ++ .tag body :: rest)
  | block {before body inner closer later ts}
      (unopened : ∀ b, Token.tag b ∈ before → opens b = false) (opened : opens body = true)
      (unclosed : ∀ b, Token.tag b ∈ inner → closes b = false) (closed : closes closer = true)
      (rest : Unblocks (dropBlank blank later) ts) :
      Unblocks (before ++ .tag body :: (inner ++ .tag closer :: later)) (before ++ ts)

/-- What `unblock` does, one block after the other. -/
theorem unblocks_unblock (ts : List Token) :
    Unblocks opens closes blank ts (unblock opens closes blank ts) := by
  fun_induction unblock opens closes blank ts with
  | case1 ts h => exact .done (findTag_eq_none h)
  | case2 ts before body rest h h' =>
    obtain ⟨rfl, hbody, hbefore⟩ := findTag_eq h
    exact .unclosed hbefore hbody (findTag_eq_none h')
  | case3 ts before body rest h inner closer later h' hlt ih =>
    obtain ⟨rfl, hbody, hbefore⟩ := findTag_eq h
    obtain ⟨rfl, hcloser, hinner⟩ := findTag_eq h'
    exact .block hbefore hbody hinner hcloser ih

end

variable {opens closes q : List Char → Bool} {blank : Char → Bool} {ts us front : List Token}
  {body : List Char} {mode : Mode} {eat : Bool}

/-! ## What is kept -/

theorem kept_append (mode : Mode) (front ts : List Token) :
    kept opens closes blank mode (front ++ ts) =
      kept opens closes blank mode front ++
        kept opens closes blank (modeBehind opens closes blank mode front) ts := by
  induction front generalizing mode with
  | nil =>
    cases mode with
    | inside => rfl
    | outside eat => rfl
  | cons t front ih =>
    rw [List.cons_append]
    cases mode with
    | inside =>
      cases t with
      | char x =>
        rw [kept, kept, modeBehind]
        exact ih _
      | tag body =>
        rw [kept, kept, modeBehind]
        split
        · exact ih _
        · exact ih _
    | outside eat =>
      cases t with
      | char x =>
        rw [kept, kept, modeBehind]
        split
        · exact ih _
        · rw [ih]
          rfl
      | tag body =>
        rw [kept, kept, modeBehind]
        split
        · exact ih _
        · exact ih _

theorem modeBehind_append (mode : Mode) (front ts : List Token) :
    modeBehind opens closes blank mode (front ++ ts) =
      modeBehind opens closes blank (modeBehind opens closes blank mode front) ts := by
  induction front generalizing mode with
  | nil =>
    cases mode with
    | inside => rfl
    | outside eat => rfl
  | cons t front ih =>
    rw [List.cons_append]
    cases mode with
    | inside =>
      cases t with
      | char x =>
        rw [modeBehind, modeBehind]
        exact ih _
      | tag body =>
        rw [modeBehind, modeBehind]
        split
        · exact ih _
        · exact ih _
    | outside eat =>
      cases t with
      | char x =>
        rw [modeBehind, modeBehind]
        split
        · exact ih _
        · exact ih _
      | tag body =>
        rw [modeBehind, modeBehind]
        split
        · exact ih _
        · exact ih _

/-- Other insides of the same kinds change nothing. -/
theorem kept_rename {f : List Char → List Char}
    (h : ∀ b, p b = true → opens (f b) = opens b ∧ closes (f b) = closes b) (mode : Mode)
    (ts : List Token) :
    kept opens closes blank mode (ts.map (Token.rename p f)) =
      kept opens closes blank mode ts := by
  induction ts generalizing mode with
  | nil => rfl
  | cons t ts ih =>
    cases t with
    | char x =>
      cases mode with
      | inside => exact ih .inside
      | outside eat => simp only [List.map_cons, Token.rename, kept, ih]
    | tag body =>
      have hkinds : opens (if p body then f body else body) = opens body ∧
          closes (if p body then f body else body) = closes body := by
        split
        · rename_i hp
          exact h body hp
        · exact ⟨rfl, rfl⟩
      cases mode with
      | inside => simp only [List.map_cons, Token.rename, kept, ih, hkinds.2]
      | outside eat => simp only [List.map_cons, Token.rename, kept, ih, hkinds.1]

theorem kept_congr {closes' : List Char → Bool} (h : ∀ b, Token.tag b ∈ ts → closes b = closes' b)
    (mode : Mode) : kept opens closes blank mode ts = kept opens closes' blank mode ts := by
  induction ts generalizing mode with
  | nil => rfl
  | cons t ts ih =>
    have hlater := ih fun b hb => h b (List.mem_cons_of_mem _ hb)
    cases t with
    | char x =>
      cases mode with
      | inside => exact hlater .inside
      | outside eat => simp only [kept, hlater]
    | tag body =>
      cases mode with
      | inside => simp only [kept, hlater, h body (List.mem_cons_self ..)]
      | outside eat => simp only [kept, hlater]

variable (closes) (blank) in
/-- Without an opener no block begins. -/
theorem modeBehind_unopened (h : ∀ b, Token.tag b ∈ front → opens b = false) (eat : Bool) :
    ∃ eat', modeBehind opens closes blank (.outside eat) front = .outside eat' := by
  induction front generalizing eat with
  | nil => exact ⟨eat, rfl⟩
  | cons t front ih =>
    have hlater := ih fun b hb => h b (List.mem_cons_of_mem _ hb)
    cases t with
    | char x =>
      rw [modeBehind]
      split
      · exact hlater true
      · exact hlater false
    | tag body =>
      rw [modeBehind, h body (List.mem_cons_self ..), if_neg Bool.false_ne_true]
      exact hlater true

variable (opens) (blank) in
theorem kept_unclosed (h : ∀ b, Token.tag b ∈ front → closes b = false) :
    kept opens closes blank .inside front = [] ∧
      modeBehind opens closes blank .inside front = .inside := by
  induction front with
  | nil => exact ⟨rfl, rfl⟩
  | cons t front ih =>
    have hlater := ih fun b hb => h b (List.mem_cons_of_mem _ hb)
    cases t with
    | char x =>
      rw [kept, modeBehind]
      exact hlater
    | tag body =>
      rw [kept, modeBehind, h body (List.mem_cons_self ..), if_neg Bool.false_ne_true,
        if_neg Bool.false_ne_true]
      exact hlater

/-- Behind a closer it is the same whether white space has been dropped. -/
theorem kept_dropBlank (eat : Bool) (ts : List Token) :
    kept opens closes blank (.outside eat) (dropBlank blank ts) =
      kept opens closes blank (.outside true) ts := by
  induction ts with
  | nil => rfl
  | cons t ts ih =>
    cases t with
    | tag body =>
      rw [dropBlank, kept, kept]
    | char x =>
      rw [dropBlank]
      by_cases hx : blank x = true
      · rw [if_pos hx, ih, kept, Bool.true_and, if_pos hx]
      · rw [if_neg hx, kept, kept, Bool.eq_false_iff.mpr hx, Bool.and_false, Bool.and_false]

/-- The characters that are left of a text are those that are left when the blocks have been
taken out. -/
theorem Unblocks.kept_eq (h : Unblocks opens closes blank ts us) (eat : Bool) :
    kept opens closes blank (.outside eat) us = kept opens closes blank (.outside eat) ts := by
  induction h generalizing eat with
  | done => rfl
  | unclosed => rfl
  | @block before body inner closer later us unopened opened unclosed closed rest ih =>
    obtain ⟨eat', hmode⟩ := modeBehind_unopened closes blank unopened eat
    obtain ⟨hinner, hinside⟩ := kept_unclosed opens blank unclosed
    rw [kept_append, kept_append _ before, hmode, ih, kept_dropBlank, kept, if_pos opened,
      kept_append, hinner, hinside, kept, if_pos closed]
    rfl

theorem Unblocks.unclosed_of_findTag (h : Unblocks opens closes blank ts us)
    {before rest : List Token} (hfind : findTag opens us = some (before, body, rest)) :
    ∀ b, Token.tag b ∈ rest → closes b = false := by
  induction h generalizing before with
  | done unopened =>
    rw [findTag_of_none unopened] at hfind
    cases hfind
  | unclosed unopened opened open_ =>
    rw [findTag_append unopened, findTag, if_pos opened] at hfind
    cases hfind
    exact open_
  | block unopened opened unclosed closed rest ih =>
    rw [findTag_append unopened] at hfind
    obtain ⟨⟨front, found⟩, hlater, heq⟩ := Option.map_eq_some_iff.mp hfind
    cases heq
    exact ih hlater

/-- The tokens up to the first opener. -/
def untilOpener (opens : List Char → Bool) (ts : List Token) : List Token :=
  match findTag opens ts with
  | none => ts
  | some (before, _, _) => before

theorem not_mem_untilOpener : .tag body ∈ untilOpener opens ts → opens body = false := by
  rw [untilOpener]
  split
  · rename_i h
    exact findTag_eq_none h body
  · rename_i h
    exact (findTag_eq h).2.2 body

theorem untilOpener_front (opens : List Char → Bool) (ts : List Token) :
    untilOpener opens ts <+: ts := by
  rw [untilOpener]
  split
  · exact List.prefix_refl _
  · rename_i h
    exact ⟨_, (findTag_eq h).1.symm⟩

/-- Behind an opener that is left nothing is kept. -/
theorem Unblocks.kept_untilOpener (h : Unblocks opens closes blank ts us) (eat : Bool) :
    kept opens closes blank (.outside eat) (untilOpener opens us) =
      kept opens closes blank (.outside eat) us := by
  rw [untilOpener]
  split
  · rfl
  · rename_i before body rest hfind
    have hrest := h.unclosed_of_findTag hfind
    obtain ⟨hus, hbody, hbefore⟩ := findTag_eq hfind
    obtain ⟨eat', hmode⟩ := modeBehind_unopened closes blank hbefore eat
    rw [hus, kept_append, hmode, kept, if_pos hbody,
      (kept_unclosed opens blank hrest).1, List.append_nil]

/-! ## Legible texts -/

/-- Inside of a block that is never closed stands what stood there before. -/
theorem Unblocks.suffix_of_inside (h : Unblocks opens closes blank ts us) {later : List Token}
    (hus : us = front ++ later)
    (hmode : modeBehind opens closes blank (.outside eat) front = .inside) : later <:+ ts := by
  induction h generalizing front eat with
  | done => exact ⟨front, hus.symm⟩
  | unclosed => exact ⟨front, hus.symm⟩
  | @block before body inner closer behind us unopened opened unclosed closed rest ih =>
    have hbehind : behind <:+ before ++ .tag body :: (inner ++ .tag closer :: behind) :=
      ⟨before ++ .tag body :: (inner ++ [.tag closer]), by simp⟩
    have hblank := (dropBlank_suffix blank behind).trans hbehind
    rcases List.append_eq_append_iff.mp hus with ⟨more, rfl, hlater⟩ | ⟨more, rfl, -⟩
    · obtain ⟨eat', hbefore⟩ :=
        modeBehind_unopened closes blank unopened eat
      rw [modeBehind_append, hbefore] at hmode
      exact (ih hlater hmode).trans hblank
    · have hunopened : ∀ b, Token.tag b ∈ front → opens b = false :=
        fun b hb => unopened b (List.mem_append_left _ hb)
      obtain ⟨eat', hfront⟩ :=
        modeBehind_unopened closes blank hunopened eat
      rw [hfront] at hmode
      cases hmode

/-- A tag that characters spell is one that the characters that are left spell. -/
theorem kept_closedBody (h : closedBody ts = some body) :
    closedBody ((kept opens closes blank (.outside false) ts).map .char) = some body := by
  induction ts generalizing body with
  | nil => cases h
  | cons t ts ih =>
    cases t with
    | tag b => cases h
    | char x =>
      rw [kept, Bool.false_and, if_neg Bool.false_ne_true, List.map_cons, closedBody]
      rw [closedBody] at h
      split
      · rename_i hgt
        rwa [if_pos hgt] at h
      · rename_i hgt
        rw [if_neg hgt] at h
        split
        · rename_i hlt
          rw [if_pos hlt] at h
          cases h
        · rename_i hlt
          rw [if_neg hlt] at h
          obtain ⟨found, hfound, rfl⟩ := Option.map_eq_some_iff.mp h
          rw [ih hfound]
          rfl

theorem legible_iff : Legible q ts ↔
    (∀ b, Token.tag b ∈ ts → q b = true ∧ b.all isInside = true) ∧
      EveryPlace (fun _ t later => t = .char '<' → ∀ b, closedBody later = some b → q b = false)
        ts := by
  induction ts with
  | nil =>
    exact iff_of_true trivial ⟨fun b hb => absurd hb List.not_mem_nil, everyPlace_nil _⟩
  | cons t ts ih =>
    rw [everyPlace_tails]
    cases t with
    | tag body =>
      rw [Legible, ih]
      constructor
      · rintro ⟨hq, hinside, hmem, hplaces⟩
        refine ⟨fun b hb => ?_, fun heq => absurd heq (by simp), hplaces⟩
        rcases List.mem_cons.mp hb with heq | hb
        · cases heq
          exact ⟨hq, hinside⟩
        · exact hmem b hb
      · rintro ⟨hmem, -, hplaces⟩
        obtain ⟨hq, hinside⟩ := hmem body (List.mem_cons_self ..)
        exact ⟨hq, hinside, fun b hb => hmem b (List.mem_cons_of_mem _ hb), hplaces⟩
    | char x =>
      rw [Legible, ih]
      constructor
      · rintro ⟨hx, hmem, hplaces⟩
        refine ⟨fun b hb => ?_, fun heq => hx (Token.char.inj heq), hplaces⟩
        rcases List.mem_cons.mp hb with heq | hb
        · cases heq
        · exact hmem b hb
      · rintro ⟨hmem, hx, hplaces⟩
        exact ⟨fun heq => hx (congrArg _ heq), fun b hb => hmem b (List.mem_cons_of_mem _ hb),
          hplaces⟩

theorem Unblocks.subset (h : Unblocks opens closes blank ts us) : us ⊆ ts := by
  induction h with
  | done => exact List.Subset.refl _
  | unclosed => exact List.Subset.refl _
  | @block before body inner closer behind us unopened opened unclosed closed rest ih =>
    intro t ht
    rcases List.mem_append.mp ht with ht | ht
    · exact List.mem_append_left _ ht
    · have hbehind := (dropBlank_suffix blank behind).subset (ih ht)
      exact List.mem_append_right _ (List.mem_cons_of_mem _ (List.mem_append_right _
        (List.mem_cons_of_mem _ hbehind)))

/-- When the blocks have been taken out of a legible text, the characters spell a tag only where
those spell one that are left in the end. -/
theorem Unblocks.legible (h : Unblocks opens closes blank ts us) (hts : Legible q ts)
    (hblank : blank '<' = false)
    (hkept : tags q (kept opens closes blank (.outside false) ts) = []) : Legible q us := by
  obtain ⟨hmem, hplaces⟩ := legible_iff.mp hts
  refine legible_iff.mpr ⟨fun b hb => hmem b (h.subset hb), ?_⟩
  rintro front t later hus rfl b hclosed
  cases hmode : modeBehind opens closes blank (.outside false) front with
  | inside =>
    obtain ⟨before, hbefore⟩ := h.suffix_of_inside hus hmode
    exact hplaces before _ later hbefore.symm rfl b hclosed
  | outside eat =>
    rw [← h.kept_eq, hus, kept_append, hmode, kept, hblank, Bool.and_false,
      if_neg Bool.false_ne_true, tags_eq_nil_iff, List.map_append] at hkept
    exact hkept.right.1 rfl b (kept_closedBody hclosed)

/-! ## Texts -/

theorem subDelimited_tags (ho : ∀ b, opens b = true → q b = true)
    (hc : ∀ b, closes b = true → q b = true) (hblank : blank '<' = false) (hts : Legible q ts) :
    (tagPattern opens fun _ => false).subDelimited (tagPattern closes blank) (fun _ => [])
      (spell ts) = spell (unblock opens closes blank ts) := by
  have hnone : ∀ cs : List Char, cs.dropWhile (fun _ => false) = cs := by
    intro cs
    cases cs with
    | nil => rfl
    | cons c cs => rfl
  fun_induction unblock opens closes blank ts with
  | case1 ts h =>
    rw [Pattern.subDelimited_eq, search_tagPattern ho hts, h]
    rfl
  | case2 ts before body rest h h' =>
    obtain ⟨hsplit, -, -⟩ := findTag_eq h
    have hrest : Legible q rest := by
      rw [hsplit, List.append_cons] at hts
      exact hts.right
    rw [Pattern.subDelimited_eq, search_tagPattern ho hts, h]
    simp only [Option.map_some, hnone, search_tagPattern hc hrest, h', Option.map_none]
  | case3 ts before body rest h inner closer later h' hlt ih =>
    obtain ⟨hsplit, -, -⟩ := findTag_eq h
    obtain ⟨hsplit', -, -⟩ := findTag_eq h'
    have hrest : Legible q rest := by
      rw [hsplit, List.append_cons] at hts
      exact hts.right
    have hlater : Legible q later := by
      rw [hsplit', List.append_cons] at hrest
      exact hrest.right
    have hdropped : Legible q (dropBlank blank later) := by
      obtain ⟨front, hfront⟩ := dropBlank_suffix blank later
      rw [← hfront] at hlater
      exact hlater.right
    rw [Pattern.subDelimited_eq, search_tagPattern ho hts, h]
    simp only [Option.map_some, hnone, search_tagPattern hc hrest, h', ← spell_dropBlank hblank,
      ih hdropped, spell_append, List.append_nil]

variable (closes) in
/-- Taking the tags out of a text that has no opener. -/
theorem sub_tags (hp : ∀ b, p b = true → q b = true) (hblank : blank '<' = false)
    (hts : Legible q ts) (hall : ∀ b, Token.tag b ∈ ts → p b = true)
    (hopen : ∀ b, Token.tag b ∈ ts → opens b = false) (eat : Bool) :
    (tagPattern p blank).sub (fun _ => [])
        (if eat then (spell ts).dropWhile blank else spell ts) =
      kept opens closes blank (.outside eat) ts := by
  induction ts generalizing eat with
  | nil =>
    rw [spell_nil, List.dropWhile_nil, ite_self, Pattern.sub]
    rfl
  | cons t ts ih =>
    have hbehind : ∀ b, Token.tag b ∈ ts → p b = true := fun b hb => hall b (List.mem_cons_of_mem _ hb)
    have hunopened : ∀ b, Token.tag b ∈ ts → opens b = false :=
      fun b hb => hopen b (List.mem_cons_of_mem _ hb)
    cases t with
    | char x =>
      have hsub : (tagPattern p blank).sub (fun _ => []) (x :: spell ts) =
          x :: kept opens closes blank (.outside false) ts := by
        rw [Pattern.sub_of_none (tagPattern_char hp hts), ← ih hts.2 hbehind hunopened false]
        rfl
      rw [spell_char, kept]
      cases eat with
      | false => exact hsub
      | true =>
        rw [if_pos rfl, Bool.true_and]
        by_cases hx : blank x = true
        · rw [List.dropWhile_cons_of_pos hx, if_pos hx]
          exact ih hts.2 hbehind hunopened true
        · rw [List.dropWhile_cons_of_neg hx, if_neg hx]
          exact hsub
    | tag body =>
      obtain ⟨-, hinside, hlater⟩ := hts
      have hdrop : (if eat then (spell (.tag body :: ts)).dropWhile blank
          else spell (.tag body :: ts)) = spell (.tag body :: ts) := by
        rw [spell_tag, List.dropWhile_cons_of_neg (by simp [hblank]), ite_self]
      rw [hdrop, spell_tag, Pattern.sub_cons, tagPattern_tag hinside,
        if_pos (hall body (List.mem_cons_self ..)), kept, hopen body (List.mem_cons_self ..),
        if_neg Bool.false_ne_true]
      exact ih hlater hbehind hunopened true

theorem upTo_opener (ho : ∀ b, opens b = true → q b = true) (hts : Legible q ts) :
    (tagPattern opens fun _ => false).upTo (spell ts) = spell (untilOpener opens ts) := by
  rw [Pattern.upTo, search_tagPattern ho hts, untilOpener]
  cases findTag opens ts with
  | none => rfl
  | some found => rfl

/-- All passes on a legible text whose tags are all taken out: what is left is what is kept. -/
theorem passes_eq_kept (ho : ∀ b, opens b = true → q b = true)
    (hc : ∀ b, closes b = true → q b = true) (hp : ∀ b, p b = true → q b = true)
    (hblank : blank '<' = false) (hts : Legible q ts) (hall : ∀ b, Token.tag b ∈ ts → p b = true)
    (hkept : tags q (kept opens closes blank (.outside false) ts) = []) :
    (tagPattern p blank).sub (fun _ => []) ((tagPattern opens fun _ => false).upTo
        ((tagPattern opens fun _ => false).subDelimited (tagPattern closes blank) (fun _ => [])
          (spell ts))) =
      kept opens closes blank (.outside false) ts := by
  have hunblocks := unblocks_unblock opens closes blank ts
  have hlegible := hunblocks.legible hts hblank hkept
  have huntil : Legible q (untilOpener opens (unblock opens closes blank ts)) := by
    obtain ⟨rest, hrest⟩ := untilOpener_front opens (unblock opens closes blank ts)
    rw [← hrest] at hlegible
    exact hlegible.left
  have hmem : ∀ b, Token.tag b ∈ untilOpener opens (unblock opens closes blank ts) → p b = true :=
    fun b hb => hall b (hunblocks.subset ((untilOpener_front ..).subset hb))
  have hsub := sub_tags closes hp hblank huntil hmem
    (fun b => not_mem_untilOpener) false
  rw [hunblocks.kept_untilOpener, hunblocks.kept_eq] at hsub
  rw [subDelimited_tags ho hc hblank hts, upTo_opener ho hlegible]
  exact hsub

end Pandamonium.Library
