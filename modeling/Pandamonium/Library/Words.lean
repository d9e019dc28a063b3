import Mathlib.Data.List.Infix
import Mathlib.Data.List.DropRight

/-!
# The words of a list

A class of elements, the white space, cuts a list into words.  Two lists with the same marks have
the same elements outside of the class and the same word ends, so that what lies between two words
can be exchanged (`marks_append`), and where a word ends can be read off the marks
(`endsWord_congr`).
-/

set_option autoImplicit false

/-!
## Trimmed texts and their lines

What is left of a list when the elements of a class are taken off its ends, and the pieces between
the occurrences of a separator.  A trimmed piece in front of a separator of the class stays when the
whole is trimmed (`trim_append_cons`), and is the first piece (`List.splitOn`).
-/

namespace Pandamonium.Library

variable {α : Type} {p : α → Bool}

/-- The list without the elements of a class at its ends. -/
def trim (p : α → Bool) (l : List α) : List α := (l.dropWhile p).rdropWhile p

theorem rdropWhile_append (l l' : List α) :
    (l ++ l').rdropWhile p =
      if l'.rdropWhile p = [] then l.rdropWhile p else l ++ l'.rdropWhile p := by
  simp only [List.rdropWhile, List.reverse_append, List.dropWhile_append, List.isEmpty_iff,
    List.reverse_eq_nil_iff]
  split
  · rfl
  · rw [List.reverse_append, List.reverse_reverse]

theorem rdropWhile_singleton_append {x : α} (hx : p x = true) (l : List α) :
    (x :: l).rdropWhile p = if l.rdropWhile p = [] then [] else x :: l.rdropWhile p := by
  rw [← List.singleton_append, rdropWhile_append, List.rdropWhile_singleton, if_pos hx]
  rfl

/-- Nothing is taken off a trimmed list at either end. -/
theorem dropWhile_of_trim {l : List α} (h : trim p l = l) :
    l.dropWhile p = l ∧ l.rdropWhile p = l := by
  have hdrop : l.dropWhile p = l := by
    have hsuffix := List.dropWhile_suffix (l := l) p
    refine hsuffix.eq_of_length_le ?_
    have hlength := (List.rdropWhile_prefix p (l := l.dropWhile p)).length_le
    rwa [← trim, h] at hlength
  refine ⟨hdrop, ?_⟩
  rwa [trim, hdrop] at h

theorem head_trim {l rest : List α} {x : α} (h : trim p l = x :: rest) : p x = false := by
  have hne : l.dropWhile p ≠ [] := by
    intro hnil
    rw [trim, hnil] at h
    cases h
  obtain ⟨y, behind, hcons⟩ := List.exists_cons_of_ne_nil hne
  have hy : p y = false := by
    simpa only [hcons, List.head_cons, Bool.not_eq_true] using List.head_dropWhile_not p hne
  have hstarts := List.rdropWhile_prefix p (l := l.dropWhile p)
  rw [← trim, h, hcons] at hstarts
  rwa [(List.cons_prefix_cons.mp hstarts).1]

theorem trim_trim (l : List α) : trim p (trim p l) = trim p l := by
  have hdrop : (trim p l).dropWhile p = trim p l := by
    cases htrim : trim p l with
    | nil => rfl
    | cons x rest =>
      exact List.dropWhile_cons_of_neg (by rw [head_trim htrim]; exact Bool.false_ne_true)
  rw [trim, hdrop, trim, List.rdropWhile_idempotent]

/-- What is taken off at the ends is of the class. -/
theorem exists_trim (p : α → Bool) (l : List α) :
    ∃ front back, l = front ++ trim p l ++ back ∧ (∀ x ∈ front, p x = true) ∧
      ∀ x ∈ back, p x = true := by
  have hback : (l.dropWhile p).rdropWhile p ++ ((l.dropWhile p).reverse.takeWhile p).reverse =
      l.dropWhile p := by
    rw [List.rdropWhile, ← List.reverse_append, List.takeWhile_append_dropWhile,
      List.reverse_reverse]
  refine ⟨l.takeWhile p, ((l.dropWhile p).reverse.takeWhile p).reverse, ?_,
    fun x hx => List.mem_takeWhile_imp hx, ?_⟩
  · rw [trim, List.append_assoc, hback, List.takeWhile_append_dropWhile]
  · intro x hx
    exact List.mem_takeWhile_imp (List.mem_reverse.mp hx)

/-- Nothing is taken off between an element outside the class and a trimmed piece. -/
theorem trim_cons_append {x : α} (hx : p x = false) (mid : List α) {last : List α}
    (h : trim p last = last) (hne : last ≠ []) :
    trim p (x :: mid ++ last) = x :: mid ++ last := by
  have hfront : (x :: mid ++ last).dropWhile p = x :: mid ++ last :=
    List.dropWhile_cons_of_neg (by rw [hx]; exact Bool.false_ne_true)
  obtain ⟨-, hlast⟩ := dropWhile_of_trim h
  rw [trim, hfront, rdropWhile_append, hlast, if_neg hne]

/-- A trimmed piece, a separator of the class and what follows it. -/
theorem trim_append_cons {l : List α} {x : α} (h : trim p l = l) (hne : l ≠ []) (hx : p x = true)
    (l' : List α) :
    trim p (l ++ x :: l') = if l'.rdropWhile p = [] then l else l ++ x :: l'.rdropWhile p := by
  obtain ⟨hdrop, hrdrop⟩ := dropWhile_of_trim h
  have hfront : (l ++ x :: l').dropWhile p = l ++ x :: l' := by
    rw [List.dropWhile_append, hdrop, if_neg (by simpa using hne)]
  rw [trim, hfront, rdropWhile_append, rdropWhile_singleton_append hx, hrdrop]
  by_cases hnil : l'.rdropWhile p = []
  · simp [hnil]
  · simp [hnil]

/-! ## Pieces -/

variable [BEq α] [LawfulBEq α] {sep : α}

theorem not_mem_of_mem_splitOn {l piece : List α} (h : piece ∈ l.splitOn sep) : sep ∉ piece := by
  induction l generalizing piece with
  | nil =>
    rw [List.splitOn_nil, List.mem_singleton] at h
    rw [h]
    exact List.not_mem_nil
  | cons x l ih =>
    rw [List.splitOn_cons_eq_if_modifyHead] at h
    split at h
    · rcases List.mem_cons.mp h with rfl | h
      · exact List.not_mem_nil
      · exact ih h
    · rename_i hx
      obtain ⟨first, rest, hsplit⟩ := List.exists_cons_of_ne_nil (List.splitOn_ne_nil sep l)
      rw [hsplit, List.modifyHead_cons] at h
      rcases List.mem_cons.mp h with rfl | h
      · have hfirst := ih (hsplit ▸ List.mem_cons_self ..)
        rintro (_ | ⟨_, hmem⟩)
        · exact hx (beq_self_eq_true _)
        · exact hfirst hmem
      · exact ih (hsplit ▸ List.mem_cons_of_mem _ h)

end Pandamonium.Library

namespace Pandamonium.Library

variable {α : Type} (p : α → Bool)

/-- The elements outside a class. -/
def bare (l : List α) : List α := l.filter fun x => !p x

/-- The pieces between the elements of a class, without the empty ones. -/
def words (l : List α) : List (List α) := (l.splitOnP p).filter fun w => !w.isEmpty

/-- Nothing stands at the front of the list, or an element of the class does. -/
def breaks (l : List α) : Bool := l.head?.all p

/-- Every element outside the class, and whether a word ends with it. -/
def marks : List α → List (α × Bool)
  | [] => []
  | x :: l => if p x then marks l else (x, breaks p l) :: marks l

/-- A word of the list ends behind the given elements outside the class. -/
def EndsWord (l spoken : List α) : Prop :=
  ∃ front back, l = front ++ back ∧ bare p front = spoken ∧ breaks p back = true

variable {p} {l l' u v w x : List α} {s : α}

@[simp] theorem bare_append (u v : List α) : bare p (u ++ v) = bare p u ++ bare p v :=
  List.filter_append ..

theorem bare_cons_of_pos (h : p s = true) (l : List α) : bare p (s :: l) = bare p l := by
  simp [bare, h]

theorem bare_cons_of_neg (h : p s = false) (l : List α) : bare p (s :: l) = s :: bare p l := by
  simp [bare, h]

theorem bare_eq_nil_iff : bare p l = [] ↔ ∀ c ∈ l, p c = true := by
  simp [bare, List.filter_eq_nil_iff]

@[simp] theorem breaks_cons (x : α) (l : List α) : breaks p (x :: l) = p x := rfl

theorem breaks_append_of_all (h : ∀ c ∈ u, p c = true) (hv : breaks p v = true) :
    breaks p (u ++ v) = true := by
  cases u with
  | nil => exact hv
  | cons c u => exact h c (List.mem_cons_self ..)

theorem breaks_append_of_ne_nil (hne : u ≠ []) (v : List α) :
    breaks p (u ++ v) = breaks p u := by
  obtain ⟨c, u, rfl⟩ := List.exists_cons_of_ne_nil hne
  rfl

theorem breaks_append (u : List α) (hv : breaks p v = true) : breaks p (u ++ v) = breaks p u := by
  cases u with
  | nil => exact hv
  | cons c u => rfl

/-! ## Words -/

theorem words_append_cons (h : p s = true) (u v : List α) :
    words p (u ++ s :: v) = words p u ++ words p v := by
  rw [words, List.splitOnP_append_cons u v h, List.filter_append]
  rfl

theorem words_of_forall (hne : w ≠ []) (h : ∀ c ∈ w, p c = false) : words p w = [w] := by
  rw [words, List.splitOnP_eq_singleton h]
  simp [hne]

/-- A word is not empty and has no element of the class. -/
theorem mem_words (h : w ∈ words p l) : w ≠ [] ∧ ∀ c ∈ w, p c = false := by
  obtain ⟨hw, hne⟩ := List.mem_filter.mp h
  refine ⟨by simpa using hne, ?_⟩
  clear h hne
  induction l generalizing w with
  | nil =>
    rw [List.splitOnP_nil, List.mem_singleton] at hw
    simp [hw]
  | cons x l ih =>
    rw [List.splitOnP_cons_eq_if_modifyHead] at hw
    split at hw
    · rcases List.mem_cons.mp hw with rfl | hw
      · simp
      · exact ih hw
    · rename_i hx
      obtain ⟨first, rest, hsplit⟩ := List.exists_cons_of_ne_nil (List.splitOnP_ne_nil p l)
      rw [hsplit, List.modifyHead_cons] at hw
      rcases List.mem_cons.mp hw with rfl | hw
      · intro c hc
        rcases List.mem_cons.mp hc with rfl | hc
        · simpa using hx
        · exact ih (hsplit ▸ List.mem_cons_self ..) c hc
      · exact ih (hsplit ▸ List.mem_cons_of_mem _ hw)

/-- A list is one piece without elements of the class, or such a piece in front of one of them. -/
theorem piece_or (p : α → Bool) (l : List α) :
    (∀ c ∈ l, p c = false) ∨
      ∃ u s v, l = u ++ s :: v ∧ (∀ c ∈ u, p c = false) ∧ p s = true := by
  by_cases h : ∃ c ∈ l, p c = true
  · obtain ⟨s, hs⟩ := Option.isSome_iff_exists.mp (List.find?_isSome.mpr h)
    obtain ⟨hps, u, v, rfl, hu⟩ := List.find?_eq_some_iff_append.mp hs
    exact .inr ⟨u, s, v, rfl, by simpa using hu, hps⟩
  · exact .inl (by simpa using h)

/-! ## Marks -/

theorem map_fst_marks (l : List α) : (marks p l).map Prod.fst = bare p l := by
  induction l with
  | nil => rfl
  | cons c l ih =>
    rw [marks]
    split
    · rename_i hc
      rw [ih, bare_cons_of_pos hc]
    · rename_i hc
      rw [List.map_cons, ih, bare_cons_of_neg (by simpa using hc)]

theorem marks_append (u : List α) (hv : breaks p v = true) :
    marks p (u ++ v) = marks p u ++ marks p v := by
  induction u with
  | nil => rfl
  | cons c u ih =>
    rw [List.cons_append, marks, marks, ih, breaks_append u hv]
    split <;> rfl

theorem marks_cons_of_pos (h : p s = true) (l : List α) : marks p (s :: l) = marks p l := by
  rw [marks, if_pos h]

theorem marks_append_cons (u : List α) (h : p s = true) (v : List α) :
    marks p (u ++ s :: v) = marks p u ++ marks p v := by
  rw [marks_append u (by simpa using h), marks_cons_of_pos h]

theorem marks_append_of_all (h : ∀ c ∈ u, p c = true) (v : List α) :
    marks p (u ++ v) = marks p v := by
  induction u with
  | nil => rfl
  | cons c u ih =>
    rw [List.cons_append, marks_cons_of_pos (h c (List.mem_cons_self ..)),
      ih fun d hd => h d (List.mem_cons_of_mem _ hd)]

/-- The marks of a list are those of its words. -/
theorem marks_words (l : List α) : (words p l).flatMap (marks p) = marks p l := by
  induction hlength : l.length using Nat.strong_induction_on generalizing l with
  | _ n ih =>
    obtain hpiece | ⟨u, s, v, rfl, hu, hs⟩ := piece_or p l
    · by_cases hne : l = []
      · rw [hne]
        rfl
      · rw [words_of_forall hne hpiece, List.flatMap_singleton]
    · have hlater := ih v.length (by rw [← hlength]; simp; omega) v rfl
      rw [words_append_cons hs, List.flatMap_append, hlater, marks_append_cons u hs]
      by_cases hne : u = []
      · rw [hne]
        rfl
      · rw [words_of_forall hne hu, List.flatMap_singleton]

theorem marks_intercalate (h : p s = true) (pieces : List (List α)) :
    marks p ([s].intercalate pieces) = pieces.flatMap (marks p) := by
  induction pieces with
  | nil => rfl
  | cons first pieces ih =>
    cases pieces with
    | nil => simp
    | cons second pieces =>
      rw [List.intercalate_cons_cons, List.append_assoc, List.singleton_append,
        marks_append_cons first h, ih]
      rfl

/-! ## Trimmed lists -/

theorem bare_trim (l : List α) : bare p (trim p l) = bare p l := by
  obtain ⟨front, back, hl, hfront, hback⟩ := exists_trim p l
  conv_rhs => rw [hl]
  rw [bare_append, bare_append, bare_eq_nil_iff.mpr hfront, bare_eq_nil_iff.mpr hback,
    List.nil_append, List.append_nil]

/-- A list can be trimmed in front of a break. -/
theorem marks_trim_append (l : List α) (hv : breaks p v = true) :
    marks p (trim p l ++ v) = marks p (l ++ v) := by
  obtain ⟨front, back, hl, hfront, hback⟩ := exists_trim p l
  conv_rhs => rw [hl]
  rw [List.append_assoc, List.append_assoc, marks_append_of_all hfront,
    marks_append _ (breaks_append_of_all hback hv), marks_append_of_all hback, marks_append _ hv]

theorem breaks_trim (hne : trim p l ≠ []) : breaks p (trim p l) = false := by
  obtain ⟨x, rest, htrim⟩ := List.exists_cons_of_ne_nil hne
  rw [htrim, breaks_cons]
  exact head_trim htrim

theorem trim_eq_self_of_ends {x : α} (hfront : breaks p (u ++ [x]) = false) (hx : p x = false) :
    trim p (u ++ [x]) = u ++ [x] := by
  obtain ⟨y, rest, hcons⟩ : ∃ y rest, u ++ [x] = y :: rest := List.exists_cons_of_ne_nil (by simp)
  have hdrop : (u ++ [x]).dropWhile p = u ++ [x] := by
    rw [hcons] at hfront ⊢
    exact List.dropWhile_cons_of_neg (by simpa using hfront)
  rw [trim, hdrop, List.rdropWhile_concat_neg p u x (by simp [hx])]

/-! ## Word ends -/

theorem endsWord_cons_of_pos (h : p s = true) (hx : x ≠ []) :
    EndsWord p (s :: l) x ↔ EndsWord p l x := by
  constructor
  · rintro ⟨front, back, hl, rfl, hback⟩
    cases front with
    | nil => exact absurd rfl hx
    | cons c front =>
      obtain ⟨rfl, rfl⟩ := List.cons.inj hl
      exact ⟨front, back, rfl, (bare_cons_of_pos h front).symm, hback⟩
  · rintro ⟨front, back, rfl, rfl, hback⟩
    exact ⟨s :: front, back, rfl, bare_cons_of_pos h front, hback⟩

theorem endsWord_nil_right : EndsWord p l [] ↔ breaks p l = true := by
  constructor
  · rintro ⟨front, back, rfl, hfront, hback⟩
    exact breaks_append_of_all (bare_eq_nil_iff.mp hfront) hback
  · exact fun h => ⟨[], l, rfl, rfl, h⟩

theorem endsWord_cons_of_neg (h : p s = false) :
    EndsWord p (s :: l) (s :: x) ↔ EndsWord p l x := by
  constructor
  · rintro ⟨front, back, hl, hfront, hback⟩
    cases front with
    | nil => cases hfront
    | cons c front =>
      obtain ⟨rfl, rfl⟩ := List.cons.inj hl
      rw [bare_cons_of_neg h] at hfront
      exact ⟨front, back, rfl, (List.cons.inj hfront).2, hback⟩
  · rintro ⟨front, back, rfl, rfl, hback⟩
    exact ⟨s :: front, back, rfl, bare_cons_of_neg h front, hback⟩

/-- Where a word ends depends on the marks alone. -/
theorem endsWord_iff_marks (hx : x ≠ []) :
    EndsWord p l x ↔
      ∃ ms, ms <+: marks p l ∧ ms.map Prod.fst = x ∧ ms.getLast?.all Prod.snd = true := by
  induction l generalizing x with
  | nil =>
    constructor
    · rintro ⟨front, back, hl, rfl, -⟩
      rw [(List.append_eq_nil_iff.mp hl.symm).1] at hx
      exact absurd rfl hx
    · rintro ⟨ms, hms, rfl, -⟩
      rw [marks, List.prefix_nil] at hms
      rw [hms] at hx
      exact absurd rfl hx
  | cons s l ih =>
    cases hs : p s with
    | true => rw [endsWord_cons_of_pos hs hx, marks_cons_of_pos hs, ih hx]
    | false =>
      rw [marks, if_neg (by simp [hs])]
      obtain ⟨y, x, rfl⟩ := List.exists_cons_of_ne_nil hx
      constructor
      · intro hends
        obtain rfl : y = s := by
          obtain ⟨front, back, hl, hfront, -⟩ := hends
          cases front with
          | nil => cases hfront
          | cons c front =>
            obtain ⟨rfl, rfl⟩ := List.cons.inj hl
            rw [bare_cons_of_neg hs] at hfront
            exact (List.cons.inj hfront).1.symm
        rw [endsWord_cons_of_neg hs] at hends
        by_cases hnil : x = []
        · subst hnil
          exact ⟨[(y, breaks p l)], List.prefix_append .., rfl, endsWord_nil_right.mp hends⟩
        · obtain ⟨ms, hms, rfl, hlast⟩ := (ih hnil).mp hends
          refine ⟨(y, breaks p l) :: ms, List.cons_prefix_cons.mpr ⟨rfl, hms⟩, rfl, ?_⟩
          have hne : ms ≠ [] := fun h => hnil (h ▸ rfl)
          rwa [List.getLast?_cons_of_ne_nil hne]
      · rintro ⟨ms, hms, hmap, hlast⟩
        cases ms with
        | nil => cases hmap
        | cons m ms =>
          obtain ⟨rfl, hbehind⟩ := List.cons_prefix_cons.mp hms
          obtain ⟨rfl, rfl⟩ := List.cons.inj hmap
          rw [endsWord_cons_of_neg hs]
          by_cases hnil : ms = []
          · subst hnil
            exact endsWord_nil_right.mpr hlast
          · refine (ih (by simpa using hnil)).mpr ⟨ms, hbehind, rfl, ?_⟩
            rwa [List.getLast?_cons_of_ne_nil hnil] at hlast

theorem endsWord_congr (h : marks p l = marks p l') (hx : x ≠ []) :
    EndsWord p l x ↔ EndsWord p l' x := by
  rw [endsWord_iff_marks hx, endsWord_iff_marks hx, h]

/-- Behind what has been spoken, the ends are those of what is left. -/
theorem endsWord_append (u v : List α) (hx : x ≠ []) :
    EndsWord p (u ++ v) (bare p u ++ x) ↔ EndsWord p v x := by
  induction u with
  | nil => rfl
  | cons c u ih =>
    cases hc : p c with
    | true =>
      rw [bare_cons_of_pos hc, List.cons_append, endsWord_cons_of_pos hc (by simp [hx]), ih]
    | false => rw [bare_cons_of_neg hc, List.cons_append, List.cons_append,
        endsWord_cons_of_neg hc, ih]

theorem endsWord_append_self (u v : List α) (hc : p s = false) :
    EndsWord p (u ++ s :: v) (bare p (u ++ [s])) ↔ breaks p v = true := by
  rw [bare_append, bare_cons_of_neg hc, endsWord_append u _ (by simp), endsWord_cons_of_neg hc]
  exact endsWord_nil_right

end Pandamonium.Library
