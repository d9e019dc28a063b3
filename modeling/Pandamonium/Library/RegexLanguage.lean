import Mathlib.Computability.Language
import Pandamonium.Library.Regex

/-!
# The language of a regular expression

The texts that an expression matches, for one that does not look at what is around the match.  A
text is found to match where it has a piece that is in the language, and a substitution takes such
pieces and leaves the rest.
-/

set_option autoImplicit false

namespace Pandamonium.Library.Regex

open scoped Computability

/-- The texts that the expression matches; a test of the cursor is not one of a text. -/
def language : Regex → Language Char
  | epsilon => 1
  | char p => {w | ∃ x, p x = true ∧ w = [x]}
  | look _ => 0
  | seq r s => r.language * s.language
  | alt r s => r.language + s.language
  | star r => r.language∗

/-- Nothing is asked of what is around a match. -/
def lookFree : Regex → Bool
  | epsilon => true
  | char _ => true
  | look _ => false
  | seq r s => r.lookFree && s.lookFree
  | alt r s => r.lookFree && s.lookFree
  | star r => r.lookFree

/-- A number of characters that each match has. -/
def minLength : Regex → ℕ
  | epsilon => 0
  | char _ => 1
  | look _ => 0
  | seq r s => r.minLength + s.minLength
  | alt r s => min r.minLength s.minLength
  | star _ => 0

variable {r s : Regex} {w text : List Char} {c c' : Cursor}

theorem mem_language_char {p : Char → Bool} :
    w ∈ (char p).language ↔ ∃ x, p x = true ∧ w = [x] := Iff.rfl

theorem mem_language_seq :
    w ∈ (seq r s).language ↔ ∃ a ∈ r.language, ∃ b ∈ s.language, a ++ b = w :=
  Language.mem_mul

theorem mem_language_alt : w ∈ (alt r s).language ↔ w ∈ r.language ∨ w ∈ s.language :=
  Language.mem_add _ _ _

theorem mem_language_epsilon : w ∈ epsilon.language ↔ w = [] := Iff.rfl

theorem minLength_le (hw : w ∈ r.language) : r.minLength ≤ w.length := by
  induction r generalizing w with
  | epsilon => exact Nat.zero_le _
  | char p =>
    obtain ⟨x, -, rfl⟩ := mem_language_char.mp hw
    exact le_refl 1
  | look p => exact Nat.zero_le _
  | seq r s ihr ihs =>
    obtain ⟨a, ha, b, hb, rfl⟩ := mem_language_seq.mp hw
    have hra := ihr ha
    have hsb := ihs hb
    simp only [minLength, List.length_append]
    omega
  | alt r s ihr ihs =>
    simp only [minLength]
    cases mem_language_alt.mp hw with
    | inl h => exact (Nat.min_le_left _ _).trans (ihr h)
    | inr h => exact (Nat.min_le_right _ _).trans (ihs h)
  | star r ih => exact Nat.zero_le _

/-! ## Matches at a cursor -/

/-- What is repeated is a sequence of matches. -/
theorem exists_of_mem_repeats {step : Cursor → List Cursor} {L : Language Char}
    (hstep : ∀ c, ∀ c' ∈ step c, ∃ w ∈ L, c.rest = w ++ c'.rest) {n : ℕ} (h : c' ∈ repeats step n c) :
    ∃ w ∈ L∗, c.rest = w ++ c'.rest := by
  induction n generalizing c with
  | zero =>
    rw [repeats, List.mem_singleton] at h
    exact ⟨[], Language.nil_mem_kstar L, by rw [h, List.nil_append]⟩
  | succ n ih =>
    rw [repeats, List.mem_cons] at h
    cases h with
    | inl h => exact ⟨[], Language.nil_mem_kstar L, by rw [h, List.nil_append]⟩
    | inr h =>
      obtain ⟨c₁, hc₁, hrest⟩ := List.mem_flatMap.mp h
      obtain ⟨a, ha, hca⟩ := hstep c c₁ (List.mem_filter.mp hc₁).1
      obtain ⟨b, hb, hcb⟩ := ih hrest
      obtain ⟨S, rfl, hS⟩ := Language.mem_kstar.mp hb
      refine ⟨a ++ S.flatten, Language.mem_kstar.mpr ⟨a :: S, rfl, ?_⟩, ?_⟩
      · intro y hy
        cases List.mem_cons.mp hy with
        | inl h => exact h ▸ ha
        | inr h => exact hS y h
      · rw [hca, hcb, List.append_assoc]

theorem exists_of_mem_ends (hr : r.lookFree = true) (h : c' ∈ ends r c) :
    ∃ w ∈ r.language, c.rest = w ++ c'.rest := by
  induction r generalizing c c' with
  | epsilon =>
    rw [ends, List.mem_singleton] at h
    exact ⟨[], rfl, by rw [h, List.nil_append]⟩
  | char p =>
    obtain ⟨before, rest⟩ := c
    cases rest with
    | nil => exact absurd h List.not_mem_nil
    | cons x rest =>
      simp only [ends] at h
      split at h
      · rename_i hx
        rw [List.mem_singleton] at h
        exact ⟨[x], mem_language_char.mpr ⟨x, hx, rfl⟩, by rw [h]; rfl⟩
      · exact absurd h List.not_mem_nil
  | look p => exact absurd hr Bool.false_ne_true
  | seq r s ihr ihs =>
    simp only [lookFree, Bool.and_eq_true] at hr
    rw [ends] at h
    obtain ⟨c₁, hc₁, hc'⟩ := List.mem_flatMap.mp h
    obtain ⟨a, ha, hca⟩ := ihr hr.1 hc₁
    obtain ⟨b, hb, hcb⟩ := ihs hr.2 hc'
    exact ⟨a ++ b, mem_language_seq.mpr ⟨a, ha, b, hb, rfl⟩, by rw [hca, hcb, List.append_assoc]⟩
  | alt r s ihr ihs =>
    simp only [lookFree, Bool.and_eq_true] at hr
    rw [ends, List.mem_append] at h
    cases h with
    | inl h =>
      obtain ⟨w, hw, hc⟩ := ihr hr.1 h
      exact ⟨w, mem_language_alt.mpr (.inl hw), hc⟩
    | inr h =>
      obtain ⟨w, hw, hc⟩ := ihs hr.2 h
      exact ⟨w, mem_language_alt.mpr (.inr hw), hc⟩
  | star r ih => exact exists_of_mem_repeats (fun c c' hc' => ih hr hc') h

/-- A sequence of matches that move is repeated. -/
theorem exists_mem_repeats {step : Cursor → List Cursor} {L : Language Char}
    (hstep : ∀ c, ∀ w ∈ L, ∀ rest, c.rest = w ++ rest → ∃ before, ⟨before, rest⟩ ∈ step c)
    {S : List (List Char)} (hS : ∀ y ∈ S, y ∈ L ∧ y ≠ []) {rest : List Char} {n : ℕ}
    (hc : c.rest = S.flatten ++ rest) (hn : S.length ≤ n) :
    ∃ before, ⟨before, rest⟩ ∈ repeats step n c := by
  induction S generalizing n c with
  | nil =>
    obtain ⟨before, here⟩ := c
    have hhere : here = rest := hc
    refine ⟨before, ?_⟩
    cases n with
    | zero => rw [hhere]; exact List.mem_singleton_self _
    | succ n => rw [hhere]; exact List.mem_cons_self
  | cons a S ih =>
    cases n with
    | zero => exact absurd hn (Nat.not_succ_le_zero _)
    | succ n =>
      obtain ⟨ha, hne⟩ := hS a List.mem_cons_self
      rw [List.flatten_cons, List.append_assoc] at hc
      obtain ⟨mid, hmid⟩ := hstep c a ha _ hc
      obtain ⟨before, hbefore⟩ := ih (fun y hy => hS y (List.mem_cons_of_mem _ hy))
        (c := ⟨mid, S.flatten ++ rest⟩) rfl (Nat.le_of_succ_le_succ hn)
      have hmoves : (S.flatten ++ rest).length < c.rest.length := by
        have ha := List.length_pos_of_ne_nil hne
        simp only [hc, List.length_append]
        omega
      refine ⟨before, List.mem_cons_of_mem _ (List.mem_flatMap.mpr ⟨_, ?_, hbefore⟩)⟩
      exact List.mem_filter.mpr ⟨hmid, decide_eq_true hmoves⟩

theorem length_le_length_flatten {S : List (List Char)} (hS : ∀ y ∈ S, y ≠ []) :
    S.length ≤ S.flatten.length := by
  induction S with
  | nil => exact le_refl 0
  | cons a S ih =>
    have ha := List.length_pos_of_ne_nil (hS a List.mem_cons_self)
    have hS := ih fun y hy => hS y (List.mem_cons_of_mem _ hy)
    rw [List.flatten_cons, List.length_append, List.length_cons]
    omega

/-- A text of the language is matched wherever it stands. -/
theorem exists_mem_ends {rest : List Char} (hw : w ∈ r.language) (hc : c.rest = w ++ rest) :
    ∃ before, ⟨before, rest⟩ ∈ ends r c := by
  induction r generalizing w rest c with
  | epsilon =>
    rw [mem_language_epsilon.mp hw, List.nil_append] at hc
    exact ⟨c.before, by rw [ends, ← hc]; exact List.mem_singleton_self _⟩
  | char p =>
    obtain ⟨x, hx, rfl⟩ := mem_language_char.mp hw
    obtain ⟨before, here⟩ := c
    subst hc
    refine ⟨some x, ?_⟩
    simp only [List.singleton_append, ends, if_pos hx]
    exact List.mem_singleton_self _
  | look p => exact absurd hw (Set.notMem_empty _)
  | seq r s ihr ihs =>
    obtain ⟨a, ha, b, hb, rfl⟩ := mem_language_seq.mp hw
    rw [List.append_assoc] at hc
    obtain ⟨mid, hmid⟩ := ihr ha hc
    obtain ⟨before, hbefore⟩ := ihs hb (c := ⟨mid, b ++ rest⟩) rfl
    exact ⟨before, List.mem_flatMap.mpr ⟨_, hmid, hbefore⟩⟩
  | alt r s ihr ihs =>
    cases mem_language_alt.mp hw with
    | inl h =>
      obtain ⟨before, hbefore⟩ := ihr h hc
      exact ⟨before, List.mem_append_left _ hbefore⟩
    | inr h =>
      obtain ⟨before, hbefore⟩ := ihs h hc
      exact ⟨before, List.mem_append_right _ hbefore⟩
  | star r ih =>
    obtain ⟨S, rfl, hS⟩ := Language.mem_kstar_iff_exists_nonempty.mp hw
    refine exists_mem_repeats (fun c w hw rest hc => ih hw hc) hS hc ?_
    rw [hc, List.length_append]
    exact (length_le_length_flatten fun y hy => (hS y hy).2).trans (Nat.le_add_right _ _)

/-! ## Finding a match -/

/-- The text has a piece that is in the language. -/
def Occurs (r : Regex) (text : List Char) : Prop := ∃ w ∈ r.language, w <:+: text

theorem Occurs.mono {text' : List Char} (h : r.Occurs text) (hwithin : text <:+: text') :
    r.Occurs text' := by
  obtain ⟨w, hw, hwtext⟩ := h
  exact ⟨w, hw, hwtext.trans hwithin⟩

theorem not_occurs_of_length_lt (h : text.length < r.minLength) : ¬ r.Occurs text := by
  rintro ⟨w, hw, hwtext⟩
  have hmin := minLength_le hw
  have hle := hwtext.length_le
  omega

theorem occurs_cons_iff {x : Char} {rest : List Char} :
    r.Occurs (x :: rest) ↔ (∃ w ∈ r.language, w <+: x :: rest) ∨ r.Occurs rest := by
  constructor
  · rintro ⟨w, hw, hwtext⟩
    cases List.infix_cons_iff.mp hwtext with
    | inl h => exact .inl ⟨w, hw, h⟩
    | inr h => exact .inr ⟨w, hw, h⟩
  · intro h
    cases h with
    | inl h =>
      obtain ⟨w, hw, hstart⟩ := h
      exact ⟨w, hw, hstart.isInfix⟩
    | inr h => exact h.mono (List.suffix_cons x rest).isInfix

section Searching

variable (hr : r.lookFree = true)
include hr

theorem ends_ne_nil_iff :
    ends r c ≠ [] ↔ ∃ w ∈ r.language, w <+: c.rest := by
  constructor
  · intro h
    obtain ⟨c', hc'⟩ := List.exists_mem_of_ne_nil _ h
    obtain ⟨w, hw, hc⟩ := exists_of_mem_ends hr hc'
    exact ⟨w, hw, c'.rest, hc.symm⟩
  · rintro ⟨w, hw, rest, hc⟩
    obtain ⟨before, hbefore⟩ := exists_mem_ends hw hc.symm
    exact List.ne_nil_of_mem hbefore

theorem searchFrom_eq_true_iff {before : Option Char} :
    searchFrom r before text = true ↔ r.Occurs text := by
  induction text generalizing before with
  | nil =>
    rw [searchFrom, Bool.not_eq_true', List.isEmpty_eq_false_iff, ends_ne_nil_iff hr]
    exact exists_congr fun w => and_congr_right fun _ =>
      List.prefix_nil.trans List.infix_nil.symm
  | cons x rest ih =>
    rw [searchFrom, Bool.or_eq_true, ih, Bool.not_eq_true', List.isEmpty_eq_false_iff,
      ends_ne_nil_iff hr, occurs_cons_iff]

theorem search_eq_true_iff {text : String} :
    r.search text = true ↔ r.Occurs text.toList :=
  searchFrom_eq_true_iff hr

theorem search_eq_false_iff {text : String} :
    r.search text = false ↔ ¬ r.Occurs text.toList := by
  rw [← search_eq_true_iff hr, Bool.not_eq_true]

end Searching

/-! ## The longest match -/

/-- The longer of two matches. -/
def longer : Option Cursor → Cursor → Option Cursor
  | none, c => some c
  | some b, c => if c.rest.length < b.rest.length then some c else some b

theorem longest_eq (r : Regex) (c : Cursor) : longest r c = (ends r c).foldl longer none := by
  unfold longest
  congr 1
  funext best c'
  cases best <;> rfl

/-- None of the matches leaves less than the longest. -/
theorem foldl_longer (l : List Cursor) (b : Cursor) :
    ∃ found, l.foldl longer (some b) = some found ∧ (found ∈ l ∨ found = b) ∧
      found.rest.length ≤ b.rest.length ∧ ∀ c ∈ l, found.rest.length ≤ c.rest.length := by
  induction l generalizing b with
  | nil => exact ⟨b, rfl, .inr rfl, le_refl _, fun _ hc => absurd hc List.not_mem_nil⟩
  | cons c l ih =>
    rw [List.foldl_cons, longer]
    by_cases hshorter : c.rest.length < b.rest.length
    · rw [if_pos hshorter]
      obtain ⟨found, hfound, hmem, hle, hall⟩ := ih c
      refine ⟨found, hfound, .inl ?_, by omega, ?_⟩
      · cases hmem with
        | inl h => exact List.mem_cons_of_mem _ h
        | inr h => exact h ▸ List.mem_cons_self
      · intro c' hc'
        cases List.mem_cons.mp hc' with
        | inl h => exact h ▸ hle
        | inr h => exact hall c' h
    · rw [if_neg hshorter]
      obtain ⟨found, hfound, hmem, hle, hall⟩ := ih b
      refine ⟨found, hfound, hmem.imp_left (List.mem_cons_of_mem _), hle, ?_⟩
      intro c' hc'
      cases List.mem_cons.mp hc' with
      | inl h => rw [h]; omega
      | inr h => exact hall c' h

theorem longest_eq_none (h : ends r c = []) : longest r c = none := by
  rw [longest_eq, h]
  rfl

theorem exists_longest (h : c' ∈ ends r c) :
    ∃ found, longest r c = some found ∧ found.rest.length ≤ c'.rest.length := by
  rw [longest_eq]
  cases hends : ends r c with
  | nil => exact absurd (hends ▸ h) List.not_mem_nil
  | cons b l =>
    obtain ⟨found, hfound, -, hle, hall⟩ := foldl_longer l b
    refine ⟨found, hfound, ?_⟩
    cases List.mem_cons.mp (hends ▸ h) with
    | inl h => exact h ▸ hle
    | inr h => exact hall c' h

theorem mem_ends_of_longest {found : Cursor} (h : longest r c = some found) :
    found ∈ ends r c := by
  rw [longest_eq] at h
  cases hends : ends r c with
  | nil =>
    rw [hends, List.foldl_nil] at h
    exact absurd h nofun
  | cons b l =>
    obtain ⟨found', hfound, hmem, -, -⟩ := foldl_longer l b
    rw [hends] at h
    obtain rfl : found' = found := Option.some.inj (hfound.symm.trans h)
    exact List.mem_cons.mpr hmem.symm

/-! ## Substitution -/

variable {f : List Char → List Char}

/-- Where the expression does not occur, nothing is replaced. -/
theorem replaceFrom_of_not_occurs (hr : r.lookFree = true) (n : ℕ) (before : Option Char)
    (h : ¬ r.Occurs text) : replaceFrom r f n before text = (0, text) := by
  induction n generalizing before text with
  | zero => rfl
  | succ n ih =>
    cases text with
    | nil => rfl
    | cons x rest =>
      rw [occurs_cons_iff, not_or] at h
      have hends : ends r ⟨before, x :: rest⟩ = [] := by
        by_contra hne
        exact h.1 ((ends_ne_nil_iff hr).mp hne)
      rw [replaceFrom, longest_eq_none hends, ih (some x) h.2]

/-- Where each match is taken to less, a text of which something is replaced is shortened. -/
theorem replaceFrom_shortens (hr : r.lookFree = true)
    (hf : ∀ w ∈ r.language, (f w).length < w.length) (n : ℕ) (before : Option Char)
    (text : List Char) :
    (replaceFrom r f n before text).2 = text ∨
      (replaceFrom r f n before text).2.length < text.length := by
  induction n generalizing before text with
  | zero => exact .inl rfl
  | succ n ih =>
    cases text with
    | nil => exact .inl rfl
    | cons x rest =>
      have hkeeps : (x :: (replaceFrom r f n (some x) rest).2 = x :: rest) ∨
          (x :: (replaceFrom r f n (some x) rest).2).length < (x :: rest).length :=
        (ih (some x) rest).imp (congrArg _) Nat.succ_lt_succ
      rw [replaceFrom]
      cases hlongest : longest r ⟨before, x :: rest⟩ with
      | none => exact hkeeps
      | some c =>
        dsimp only
        by_cases hmoves : c.rest.length ≤ rest.length
        · rw [if_pos hmoves]
          obtain ⟨w, hw, hcut⟩ := exists_of_mem_ends hr (mem_ends_of_longest hlongest)
          dsimp only at hcut
          have hlen : rest.length + 1 = w.length + c.rest.length := by
            rw [← List.length_append, ← hcut, List.length_cons]
          have htake : (x :: rest).take (rest.length + 1 - c.rest.length) = w := by
            rw [hcut, hlen, Nat.add_sub_cancel]
            exact List.take_left
          have hfw := hf w hw
          have hafter : (replaceFrom r f n c.before c.rest).2.length ≤ c.rest.length := by
            cases ih c.before c.rest with
            | inl h => rw [h]
            | inr h => exact h.le
          refine .inr ?_
          simp only [htake, List.length_append, List.length_cons]
          omega
        · rw [if_neg hmoves]
          exact hkeeps

/-- A text that is matched whole is replaced whole. -/
theorem replaceFrom_of_mem (hw : w ∈ r.language) (hne : w ≠ []) (n : ℕ)
    (before : Option Char) : (replaceFrom r f (n + 1) before w).2 = f w := by
  obtain ⟨x, rest, rfl⟩ := List.exists_cons_of_ne_nil hne
  obtain ⟨last, hlast⟩ := exists_mem_ends (c := ⟨before, x :: rest⟩) hw (List.append_nil _).symm
  obtain ⟨found, hfound, hle⟩ := exists_longest hlast
  have hend : found.rest = [] := List.eq_nil_of_length_eq_zero (Nat.le_zero.mp hle)
  rw [replaceFrom, hfound]
  dsimp only
  rw [hend, List.length_nil, if_pos (Nat.zero_le _), Nat.sub_zero]
  have htake : (x :: rest).take (rest.length + 1) = x :: rest :=
    List.take_of_length_le (le_refl (x :: rest).length)
  rw [htake]
  cases n <;> exact List.append_nil _

theorem subFrom_eq_replaceFrom (replacement : List Char) (n : ℕ) (before : Option Char)
    (text : List Char) :
    subFrom r replacement n before text =
      (replaceFrom r (fun _ => replacement) n before text).2 := by
  induction n generalizing before text with
  | zero => rfl
  | succ n ih =>
    cases text with
    | nil => rfl
    | cons x rest =>
      rw [subFrom, replaceFrom]
      cases longest r ⟨before, x :: rest⟩ with
      | none => exact congrArg _ (ih (some x) rest)
      | some c =>
        dsimp only
        split
        · exact congrArg _ (ih c.before c.rest)
        · exact congrArg _ (ih (some x) rest)

/-! On texts. -/

theorem replace_of_not_occurs (hr : r.lookFree = true) {text : String}
    (h : ¬ r.Occurs text.toList) : (r.replace f text).2 = text := by
  rw [replace, replaceFrom_of_not_occurs hr _ _ h]
  exact String.ofList_toList

theorem replace_shortens (hr : r.lookFree = true)
    (hf : ∀ w ∈ r.language, (f w).length < w.length) (text : String) :
    (r.replace f text).2 = text ∨ (r.replace f text).2.toList.length < text.toList.length := by
  rw [replace, String.toList_ofList]
  refine (replaceFrom_shortens hr hf _ _ _).imp_left fun h => ?_
  rw [h, String.ofList_toList]

theorem replace_of_mem {text : String} (hw : text.toList ∈ r.language) (hne : text.toList ≠ []) :
    (r.replace f text).2 = String.ofList (f text.toList) := by
  rw [replace, replaceFrom_of_mem hw hne]

theorem sub_eq_replace (replacement text : String) :
    r.sub replacement text = (r.replace (fun _ => replacement.toList) text).2 := by
  rw [sub, replace, subFrom_eq_replaceFrom]

end Pandamonium.Library.Regex
