import Pandamonium.Analysis.RoutingRules
import Pandamonium.Library.Words
import Pandamonium.Model.ToolParsing

/-!
# Stripped texts and first markers

A text that is stripped stays as it is when it is stripped again.  A marker that stands behind a text
is found there exactly where it does not occur before, the overlaps with the text included.
-/

set_option autoImplicit false

namespace Pandamonium.ToolText

open Pandamonium.Library
open Pandamonium.StreamLlm (findText)

/-! ## Stripped texts -/

theorem toList_strip (text : String) : (strip text).toList = trim isSpace text.toList := by
  rw [strip, String.toList_ofList]
  rfl

theorem strip_eq_self_iff {text : String} :
    strip text = text ↔ trim isSpace text.toList = text.toList := by
  rw [← String.toList_inj, toList_strip]

theorem strip_strip (text : String) : strip (strip text) = strip text := by
  rw [strip_eq_self_iff, toList_strip, trim_trim]

/-! ## Markers -/

/-- Behind the text the marker occurs for the first time. -/
def FirstBehind (marker text : List Char) : Prop := ¬ marker <:+: text ++ marker.dropLast

theorem findText_eq_some_iff {text cs : List Char} (hne : text ≠ []) {i : ℕ} :
    findText text cs = some i ↔ text <+: cs.drop i ∧ ∀ j < i, ¬ text <+: cs.drop j := by
  induction cs generalizing i with
  | nil => simp [findText, hne]
  | cons x cs ih =>
    rw [findText]
    by_cases hstarts : text <+: x :: cs
    · rw [if_pos (List.isPrefixOf_iff_prefix.mpr hstarts)]
      constructor
      · rintro ⟨rfl⟩
        exact ⟨hstarts, fun j hj => absurd hj (Nat.not_lt_zero j)⟩
      · rintro ⟨-, hfirst⟩
        cases i with
        | zero => rfl
        | succ i => exact absurd hstarts (hfirst 0 (Nat.succ_pos i))
    · rw [if_neg (mt List.isPrefixOf_iff_prefix.mp hstarts), Option.map_eq_some_iff]
      constructor
      · rintro ⟨i, hi, rfl⟩
        obtain ⟨hhere, hfirst⟩ := ih.mp hi
        refine ⟨hhere, fun j hj => ?_⟩
        cases j with
        | zero => exact hstarts
        | succ j => exact hfirst j (by omega)
      · rintro ⟨hhere, hfirst⟩
        cases i with
        | zero => exact absurd hhere hstarts
        | succ i =>
          exact ⟨i, ih.mpr ⟨hhere, fun j hj => hfirst (j + 1) (by omega)⟩, rfl⟩

theorem findText_append_iff {marker : List Char} (hne : marker ≠ []) (text behind : List Char) :
    findText marker (text ++ (marker ++ behind)) = some text.length ↔ FirstBehind marker text := by
  obtain ⟨front, last, rfl⟩ : ∃ front last, marker = front ++ [last] :=
    ⟨marker.dropLast, marker.getLast hne, (List.dropLast_append_getLast hne).symm⟩
  rw [findText_eq_some_iff hne, List.drop_left, FirstBehind, List.dropLast_concat]
  have hregroup : text ++ (front ++ [last] ++ behind) = (text ++ front) ++ (last :: behind) := by
    simp
  constructor
  · rintro ⟨-, hfirst⟩ ⟨before, rest, hwithin⟩
    have hlength := congrArg List.length hwithin
    simp only [List.length_append, List.length_singleton] at hlength
    refine hfirst before.length (by omega) ?_
    rw [hregroup, ← hwithin, List.append_assoc, List.append_assoc, List.drop_left]
    exact List.prefix_append _ _
  · intro hnot
    refine ⟨List.prefix_append _ _, fun j hj hstarts => hnot ?_⟩
    rw [hregroup, List.drop_append_of_le_length (by rw [List.length_append]; omega)] at hstarts
    have hshort : (front ++ [last]).length ≤ ((text ++ front).drop j).length := by
      simp only [List.length_append, List.length_singleton, List.length_drop]
      omega
    have hinside := List.prefix_of_prefix_length_le hstarts (List.prefix_append _ _) hshort
    exact hinside.isInfix.trans (List.drop_suffix _ _).isInfix

theorem splitAtText_append {marker : List Char} (hne : marker ≠ []) {text : List Char}
    (h : FirstBehind marker text) (behind : List Char) :
    splitAtText marker (text ++ (marker ++ behind)) = some (text, behind) := by
  rw [splitAtText, (findText_append_iff hne text behind).mpr h, Option.map_some, List.take_left,
    ← List.append_assoc, ← List.length_append, List.drop_left]

/-- Where a marker is behind a text, the text ends at it or before it, exactly at it where it is the
first one. -/
theorem exists_splitAtText_append {marker : List Char} (hne : marker ≠ [])
    (text behind : List Char) :
    ∃ before rest, splitAtText marker (text ++ (marker ++ behind)) = some (before, rest) ∧
      (before = text ↔ FirstBehind marker text) ∧ behind <:+ rest := by
  have hfound : ¬ findText marker (text ++ (marker ++ behind)) = none := by
    rw [StreamLlm.findText_eq_none_iff hne, not_not]
    exact ⟨text, behind, List.append_assoc _ _ _⟩
  obtain ⟨i, hi⟩ := Option.ne_none_iff_exists'.mp hfound
  obtain ⟨hhere, hfirst⟩ := (findText_eq_some_iff hne).mp hi
  have hle : i ≤ text.length := by
    by_contra hlt
    refine hfirst text.length (by omega) ?_
    rw [List.drop_left]
    exact List.prefix_append _ _
  refine ⟨_, _, by rw [splitAtText, hi]; rfl, ?_, ?_⟩
  · rw [← findText_append_iff hne text behind, hi, Option.some.injEq]
    constructor
    · intro htake
      have hlength := congrArg List.length htake
      rw [List.length_take, List.length_append] at hlength
      omega
    · rintro rfl
      exact List.take_left
  · refine List.suffix_iff_eq_drop.mpr ?_
    rw [List.drop_drop, List.length_drop, List.length_append, List.length_append,
      ← List.append_assoc]
    rw [show i + marker.length + (text.length + (marker.length + behind.length) -
      (i + marker.length) - behind.length) = (text ++ marker).length by
        rw [List.length_append]; omega, List.drop_left]

theorem append_of_splitAtText {marker cs before rest : List Char} (hne : marker ≠ [])
    (h : splitAtText marker cs = some (before, rest)) : cs = before ++ (marker ++ rest) := by
  obtain ⟨i, hi, hpieces⟩ := Option.map_eq_some_iff.mp h
  obtain ⟨rfl, rfl⟩ := Prod.mk.inj hpieces
  obtain ⟨behind, hbehind⟩ := ((findText_eq_some_iff hne).mp hi).1
  rw [← List.drop_drop, ← hbehind, List.drop_left, hbehind, List.take_append_drop]

/-! ## Searching -/

theorem searchFirst_eq {α : Type} {read : List Char → Option α} {cs : List Char} {found : α}
    (h : read cs = some found) : searchFirst read cs = some found := by
  cases cs with
  | nil => exact h
  | cons x cs => rw [searchFirst, h]

theorem searchFirst_eq_none_iff {α : Type} {read : List Char → Option α} {cs : List Char} :
    searchFirst read cs = none ↔ ∀ s, s <:+ cs → read s = none := by
  induction cs with
  | nil =>
    rw [searchFirst]
    exact ⟨fun h s hs => List.suffix_nil.mp hs ▸ h, fun h => h [] List.suffix_rfl⟩
  | cons x cs ih =>
    rw [searchFirst]
    constructor
    · intro h s hs
      cases hread : read (x :: cs) with
      | some found =>
        rw [hread] at h
        cases h
      | none =>
        rw [hread] at h
        rcases List.suffix_cons_iff.mp hs with rfl | hs
        · exact hread
        · exact ih.mp h s hs
    · intro h
      rw [h _ List.suffix_rfl]
      exact ih.mpr fun s hs => h s (hs.trans (List.suffix_cons x cs))

/-- What is left of a text when a search has found something is what the reading leaves. -/
theorem exists_suffix_of_searchFirst {α : Type} {read : List Char → Option α} {cs : List Char}
    {found : α} (h : searchFirst read cs = some found) : ∃ s, s <:+ cs ∧ read s = some found := by
  by_contra hnone
  simp only [not_exists, not_and] at hnone
  induction cs with
  | nil => exact hnone [] List.suffix_rfl h
  | cons x cs ih =>
    rw [searchFirst] at h
    cases hread : read (x :: cs) with
    | some other =>
      rw [hread] at h
      exact hnone _ List.suffix_rfl (hread.trans h)
    | none =>
      rw [hread] at h
      exact ih h fun s hs => hnone s (hs.trans (List.suffix_cons x cs))

end Pandamonium.ToolText
