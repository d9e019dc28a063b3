import Mathlib.Data.List.Range
import Pandamonium.Analysis.RoutingRules

/-!
# Harmony streams in pieces

What the router yields depends on the text only, not on the pieces in which it comes.  What is held
back is the longest ending that a marker may start with, so no marker starts in front of it, whatever
comes behind.
-/

set_option autoImplicit false

namespace Pandamonium.StreamLlm

/-- The characters of parts, each with the flag of its part. -/
def chars (ps : List Part) : List (Char × Bool) := ps.flatMap fun p => p.1.map fun x => (x, p.2)

/-- The parts, where adjacent ones with the same flag are one. -/
def mergeParts (ps : List Part) : List Part :=
  ((chars ps).splitBy fun c c' => c.2 == c'.2).map fun run =>
    (run.map Prod.fst, run.any Prod.snd)

/-- `feed` with the pieces, one after the other. -/
def HarmonyRouter.feedAll (r : HarmonyRouter) : List (List Char) → List Part × HarmonyRouter
  | [] => ([], r)
  | piece :: pieces =>
    let fed := r.feed piece
    let rest := fed.2.feedAll pieces
    (fed.1 ++ rest.1, rest.2)

/-- What a fresh router yields for the pieces and at the end. -/
def routePieces (pieces : List (List Char)) : List Part :=
  let fed := HarmonyRouter.new.feedAll pieces
  fed.1 ++ fed.2.flush.1

/-- The pieces are routed as the whole text is, no marker is in a part, and what is in front of the
first marker is visible. -/
structure Routes (pieces : List (List Char)) : Prop where
  merged : mergeParts (routePieces pieces) = mergeParts (routePieces [pieces.flatten])
  unmarked : ∀ p ∈ routePieces pieces, ∀ marker ∈ harmonyMarkers, ¬ marker.toList <:+: p.1
  plain : (∀ marker ∈ harmonyMarkers, ¬ marker.toList <:+: pieces.flatten) →
    chars (routePieces pieces) = pieces.flatten.map fun x => (x, false)
  kept : ∀ before marker after, searchMarker pieces.flatten = some (before, marker, after) →
    (before.map fun x => (x, false)) <+: chars (routePieces pieces)

@[simp] theorem chars_append (ps qs : List Part) : chars (ps ++ qs) = chars ps ++ chars qs :=
  List.flatMap_append

/-! ## Where markers start -/

/-- A marker starts the text. -/
def Starts (text : List Char) : Prop := ∃ marker ∈ harmonyMarkers, marker.toList <+: text

/-- No marker starts in the first text, where the second one follows. -/
def NoStart (u v : List Char) : Prop :=
  ∀ u₁ u₂, u = u₁ ++ u₂ → u₂ ≠ [] → ¬ Starts (u₂ ++ v)

/-- A marker has its bracket at its beginning and no other one. -/
theorem marker_bracket : ∀ marker ∈ harmonyMarkers,
    marker.toList.head? = some '<' ∧ '<' ∉ marker.toList.tail := by decide

variable {cs before after : List Char} {marker : String}

theorem find_eq_none_iff :
    (harmonyMarkers.find? fun marker => marker.toList.isPrefixOf cs) = none ↔ ¬ Starts cs := by
  simp only [List.find?_eq_none, List.isPrefixOf_iff_prefix, Starts, not_exists, not_and]

theorem searchMarker_skip {u v : List Char} (h : NoStart u v) :
    searchMarker (u ++ v) = (searchMarker v).map fun found => (u ++ found.1, found.2) := by
  induction u with
  | nil => cases hv : searchMarker v <;> simp [hv]
  | cons x u ih =>
    have hstart : ¬ Starts (x :: (u ++ v)) := h [] (x :: u) rfl (List.cons_ne_nil x u)
    rw [List.cons_append, searchMarker, find_eq_none_iff.mpr hstart, ih fun u₁ u₂ hu => h (x :: u₁) u₂ (by rw [hu, List.cons_append]), Option.map_map]
    rfl

/-- In front of the marker that is found none starts. -/
theorem noStart_of_searchMarker (h : searchMarker cs = some (before, marker, after)) :
    NoStart before (marker.toList ++ after) := by
  induction cs generalizing before with
  | nil => cases h
  | cons x cs ih =>
    have hcs := (searchMarker_eq_some h).2
    rw [searchMarker] at h
    cases hfind : harmonyMarkers.find? fun marker => marker.toList.isPrefixOf (x :: cs) with
    | some found =>
      simp only [hfind, Option.some.injEq, Prod.mk.injEq] at h
      obtain ⟨rfl, -, -⟩ := h
      intro u₁ u₂ hu hne
      exact absurd (List.append_eq_nil_iff.mp hu.symm).2 hne
    | none =>
      simp only [hfind, Option.map_eq_some_iff, Prod.mk.injEq] at h
      obtain ⟨⟨before', marker', after'⟩, hrest, rfl, rfl, rfl⟩ := h
      intro u₁ u₂ hu hne
      cases u₁ with
      | nil =>
        rw [List.nil_append] at hu
        rw [← hu, ← List.append_assoc, ← hcs]
        exact find_eq_none_iff.mp hfind
      | cons y u₁ => exact ih hrest u₁ u₂ (List.cons.inj hu).2 hne

theorem searchMarker_before (h : searchMarker cs = some (before, marker, after)) :
    searchMarker before = none := by
  refine searchMarker_eq_none_iff.mpr fun m hm ⟨x, y, hxy⟩ => ?_
  have hne : m.toList ++ y ≠ [] := fun hnil => by
    have := (marker_bracket m hm).1
    rw [(List.append_eq_nil_iff.mp hnil).1] at this
    cases this
  refine noStart_of_searchMarker h x (m.toList ++ y) (by rw [← hxy, List.append_assoc]) hne ?_
  exact ⟨m, hm, by rw [List.append_assoc]; exact List.prefix_append ..⟩

/-- A marker holds no bracket behind its beginning, so none starts in front of another and reaches
beyond it. -/
theorem noStart_append {u a : List Char} (hmarker : marker ∈ harmonyMarkers)
    (h : NoStart u (marker.toList ++ a)) (t : List Char) :
    NoStart u (marker.toList ++ (a ++ t)) := by
  rintro u₁ u₂ hu hne ⟨m, hm, hprefix⟩
  rw [← List.append_assoc marker.toList, ← List.append_assoc] at hprefix
  obtain hle | hlt := le_or_gt m.toList.length (u₂ ++ (marker.toList ++ a)).length
  · exact h u₁ u₂ hu hne
      ⟨m, hm, List.prefix_of_prefix_length_le hprefix (List.prefix_append _ t) hle⟩
  · obtain ⟨z, hz⟩ := List.prefix_of_prefix_length_le (List.prefix_append _ t) hprefix hlt.le
    obtain ⟨y, u₂', rfl⟩ := List.exists_cons_of_ne_nil hne
    obtain ⟨w, hw⟩ := List.head?_eq_some_iff.mp (marker_bracket marker hmarker).1
    refine (marker_bracket m hm).2 ?_
    rw [← hz, hw]
    simp

theorem length_after (h : searchMarker cs = some (before, marker, after)) :
    after.length < cs.length := by
  obtain ⟨hmarker, hcs⟩ := searchMarker_eq_some h
  have hpos : ∀ marker ∈ harmonyMarkers, 0 < marker.toList.length := by decide
  have := hpos marker hmarker
  rw [hcs, List.length_append, List.length_append]
  omega

/-! ## What is held back -/

/-- An ending that is longer than what is held back does not start a longer marker. -/
theorem length_le_of_hold {text w : List Char} (hmarker : marker ∈ harmonyMarkers) (hw : w <:+ text)
    (hlong : harmonySuffixHoldLen text < w.length) (hstart : w <+: marker.toList) :
    marker.toList.length ≤ w.length := by
  by_contra hlt
  have hmax : ∀ m ∈ harmonyMarkers, m.toList.length ≤ harmonyMaxMarkerLen := by decide
  have hdrop : text.drop (text.length - w.length) = w := List.suffix_iff_eq_drop.mp hw |>.symm
  let l := ((List.range (min text.length (harmonyMaxMarkerLen - 1))).map fun n => n + 1).reverse
  have hmem : w.length ∈ l := by
    simp only [l, List.mem_reverse, List.mem_map, List.mem_range]
    have := hmax marker hmarker
    have := hw.length_le
    exact ⟨w.length - 1, by omega, by omega⟩
  have hsorted : l.Pairwise (· > ·) := by
    simp only [l, List.pairwise_reverse, List.pairwise_map]
    exact List.pairwise_lt_range.imp fun h => Nat.succ_lt_succ h
  have htrue : (harmonyMarkers.any fun marker =>
      (text.drop (text.length - w.length)).isPrefixOf marker.toList) = true := by
    rw [hdrop]
    exact List.any_eq_true.mpr ⟨marker, hmarker, List.isPrefixOf_iff_prefix.mpr hstart⟩
  rw [harmonySuffixHoldLen] at hlong
  cases hfind : l.find? fun n => harmonyMarkers.any fun marker =>
      (text.drop (text.length - n)).isPrefixOf marker.toList with
  | none => exact absurd htrue (List.find?_eq_none.mp hfind _ hmem)
  | some n =>
    rw [show ((List.range (min text.length (harmonyMaxMarkerLen - 1))).map fun n => n + 1).reverse = l
      from rfl, hfind, Option.getD_some] at hlong
    obtain ⟨-, as, bs, hl, has⟩ := List.find?_eq_some_iff_append.mp hfind
    rw [hl] at hmem hsorted
    obtain hmem | hmem := List.mem_append.mp hmem
    · simpa [htrue] using has _ hmem
    · obtain rfl | hmem := List.mem_cons.mp hmem
      · exact lt_irrefl _ hlong
      · have := (List.pairwise_cons.mp (List.pairwise_append.mp hsorted).2.1).1 _ hmem
        omega

/-- No marker starts in front of what is held back. -/
theorem noStart_hold {text : List Char} (h : searchMarker text = none) (t : List Char) :
    NoStart (text.take (text.length - harmonySuffixHoldLen text))
      (text.drop (text.length - harmonySuffixHoldLen text) ++ t) := by
  rintro u₁ u₂ hu hne ⟨m, hm, hprefix⟩
  generalize hheld : text.drop (text.length - harmonySuffixHoldLen text) = held at hprefix
  have htext : text = u₁ ++ (u₂ ++ held) := by
    rw [← List.append_assoc, ← hu, ← hheld, List.take_append_drop]
  have hsuffix : u₂ ++ held <:+ text := ⟨u₁, htext.symm⟩
  rw [← List.append_assoc] at hprefix
  obtain hle | hlt := le_or_gt m.toList.length (u₂ ++ held).length
  · have hstart := List.prefix_of_prefix_length_le hprefix (List.prefix_append _ t) hle
    exact searchMarker_eq_none_iff.mp h m hm (hstart.isInfix.trans hsuffix.isInfix)
  · have hstart := List.prefix_of_prefix_length_le (List.prefix_append _ t) hprefix hlt.le
    refine absurd (length_le_of_hold hm hsuffix ?_ hstart) (Nat.not_le.mpr hlt)
    have hlen : held.length = text.length - (text.length - harmonySuffixHoldLen text) := by
      rw [← hheld, List.length_drop]
    have hpos := List.length_pos_of_ne_nil hne
    have hfirst := congrArg List.length hu
    rw [List.length_take, List.length_append] at hfirst
    rw [List.length_append]
    omega

/-! ## What is yielded -/

variable {r : HarmonyRouter}

theorem appendText_append (r : HarmonyRouter) (text text' : List Char) :
    chars (r.appendText (text ++ text')) = chars (r.appendText text) ++ chars (r.appendText text') := by
  simp only [HarmonyRouter.appendText, List.isEmpty_iff, List.append_eq_nil_iff]
  by_cases htext : text = [] <;> by_cases htext' : text' = [] <;> split_ifs <;>
    simp_all [chars]

theorem mem_appendText {text : List Char} {p : Part} (h : p ∈ r.appendText text) : p.1 = text := by
  unfold HarmonyRouter.appendText at h
  split_ifs at h
  · cases h
  · rw [List.mem_singleton.mp h]
  · rw [List.mem_singleton.mp h]
  · cases h

/-- What is yielded for a text and the end behind it, whatever the buffer holds. -/
def yielded (r : HarmonyRouter) (cs : List Char) : List (Char × Bool) :=
  chars (({ r with buf := cs } : HarmonyRouter).drain true).1

theorem drainMarkers_of_le {n n' : ℕ} (h : r.buf.length < n) (hn : n ≤ n') :
    r.drainMarkers n' = r.drainMarkers n := by
  induction n generalizing r n' with
  | zero => exact absurd h (Nat.not_lt_zero _)
  | succ n ih =>
    obtain ⟨n', rfl⟩ : ∃ k, n' = k + 1 := ⟨n' - 1, by omega⟩
    rw [HarmonyRouter.drainMarkers, HarmonyRouter.drainMarkers]
    cases hsearch : searchMarker r.buf with
    | none => rfl
    | some found =>
      obtain ⟨before, marker, after⟩ := found
      have hlen := length_after hsearch
      dsimp only
      rw [ih (r := { r.handleMarker marker with buf := after }) (by dsimp only; omega) (by omega)]

theorem yielded_of_none (h : searchMarker cs = none) :
    yielded r cs = chars (r.appendText cs) := by
  have hmarkers : ({ r with buf := cs } : HarmonyRouter).drainMarkers (cs.length + 1) =
      ([], { r with buf := cs }) := by
    rw [HarmonyRouter.drainMarkers, h]
  rw [yielded, HarmonyRouter.drain, hmarkers]
  simp only [if_true, Nat.sub_zero, List.take_length, List.nil_append]
  rfl

theorem handleMarker_buf (r : HarmonyRouter) (cs after : List Char) (marker : String) :
    { ({ r with buf := cs } : HarmonyRouter).handleMarker marker with buf := after } =
      { r.handleMarker marker with buf := after } := by
  unfold HarmonyRouter.handleMarker
  dsimp only
  split_ifs <;> rfl

theorem drainMarkers_of_some (h : searchMarker cs = some (before, marker, after)) {n : ℕ}
    (hn : cs.length < n) :
    ({ r with buf := cs } : HarmonyRouter).drainMarkers n =
      (r.appendText before ++ (({ r.handleMarker marker with buf := after } :
          HarmonyRouter).drainMarkers (after.length + 1)).1,
        (({ r.handleMarker marker with buf := after } :
          HarmonyRouter).drainMarkers (after.length + 1)).2) := by
  obtain ⟨n, rfl⟩ : ∃ k, n = k + 1 := ⟨n - 1, by omega⟩
  have hlen := length_after h
  rw [HarmonyRouter.drainMarkers, h]
  dsimp only
  rw [handleMarker_buf, drainMarkers_of_le (n := after.length + 1) (Nat.lt_succ_self _) (by omega)]
  rfl

theorem yielded_of_some (h : searchMarker cs = some (before, marker, after)) :
    yielded r cs = chars (r.appendText before) ++ yielded (r.handleMarker marker) after := by
  rw [yielded, yielded, HarmonyRouter.drain, HarmonyRouter.drain,
    drainMarkers_of_some h (Nat.lt_succ_self _)]
  simp only [if_true, Nat.sub_zero, List.take_length, List.append_assoc, chars_append]

/-- Where no marker starts the text is yielded as it is. -/
theorem yielded_of_noStart {u v : List Char} (h : NoStart u v) :
    yielded r (u ++ v) = chars (r.appendText u) ++ yielded r v := by
  have hskip := searchMarker_skip h
  cases hv : searchMarker v with
  | none =>
    rw [hv] at hskip
    rw [yielded_of_none hskip, yielded_of_none hv, appendText_append]
  | some found =>
    obtain ⟨before, marker, after⟩ := found
    rw [hv] at hskip
    rw [yielded_of_some hskip, yielded_of_some hv, appendText_append, List.append_assoc]

/-- The roles that may follow `<|start|>`. -/
def startRoles : List String := ["assistant", "system", "user", "tool"]

/-- Only `<|start|>` begins another marker, with a role behind it. -/
theorem marker_prefix : ∀ marker ∈ harmonyMarkers, ∀ marker' ∈ harmonyMarkers,
    marker.toList <+: marker'.toList → marker ≠ marker' →
      marker = "<|start|>" ∧ ∃ role ∈ startRoles, marker' = "<|start|>" ++ role := by decide +kernel

theorem find_longest {marker' : String}
    (h : (harmonyMarkers.find? fun marker => marker.toList.isPrefixOf cs) = some marker)
    (hmarker' : marker' ∈ harmonyMarkers) (hstart : marker'.toList <+: cs) :
    marker'.toList <+: marker.toList := by
  have hmarker := List.mem_of_find?_eq_some h
  have hfound := List.find?_some h
  obtain hprefix | hprefix :=
    List.prefix_or_prefix_of_prefix hstart (List.isPrefixOf_iff_prefix.mp hfound)
  · exact hprefix
  · by_cases heq : marker = marker'
    · exact heq ▸ List.prefix_refl _
    · obtain ⟨rfl, role, hrole, rfl⟩ := marker_prefix marker hmarker marker' hmarker' hprefix heq
      -- the markers with a role come before the one without
      have hsplit : harmonyMarkers =
          harmonyMarkers.take 7 ++ "<|start|>" :: harmonyMarkers.drop 8 := by decide
      have hnone : ∀ m ∈ harmonyMarkers.take 7, ¬ m.toList.isPrefixOf cs = true := by
        rw [hsplit, List.find?_append, Option.or_eq_some_iff] at h
        obtain h | h := h
        · exact absurd (List.mem_of_find?_eq_some h) (by decide)
        · exact List.find?_eq_none.mp h.1
      have hmem : ∀ role ∈ startRoles, "<|start|>" ++ role ∈ harmonyMarkers.take 7 := by
        decide +kernel
      exact absurd (List.isPrefixOf_iff_prefix.mpr hstart) (hnone _ (hmem role hrole))

theorem handleMarker_role (r : HarmonyRouter) : ∀ role ∈ startRoles,
    r.handleMarker ("<|start|>" ++ role) = r.handleMarker "<|start|>" := by
  simp only [startRoles, List.forall_mem_cons]
  refine ⟨rfl, rfl, rfl, rfl, nofun⟩

theorem noStart_role : ∀ role ∈ startRoles, ∀ v : List Char, NoStart role.toList v := by
  rintro role hrole v u₁ u₂ hu hne ⟨m, hm, hprefix⟩
  obtain ⟨y, u₂', rfl⟩ := List.exists_cons_of_ne_nil hne
  obtain ⟨w, hw⟩ := List.head?_eq_some_iff.mp (marker_bracket m hm).1
  rw [hw, List.cons_append] at hprefix
  have hy : y = '<' := (List.cons_prefix_cons.mp hprefix).1.symm
  have hbracket : ∀ role ∈ startRoles, '<' ∉ role.toList := by decide
  exact hbracket role hrole (by rw [hu, hy]; simp)

/-- What comes behind a marker that was taken may have been a part of it, and is dropped then. -/
theorem yielded_marker (h : searchMarker cs = some (before, marker, after)) (t : List Char) :
    yielded r (cs ++ t) =
      chars (r.appendText before) ++ yielded (r.handleMarker marker) (after ++ t) := by
  obtain ⟨hmarker, hcs⟩ := searchMarker_eq_some h
  rw [hcs, List.append_assoc, List.append_assoc,
    yielded_of_noStart (noStart_append hmarker (noStart_of_searchMarker h) t)]
  refine congrArg _ ?_
  obtain ⟨w, hw⟩ := List.head?_eq_some_iff.mp (marker_bracket marker hmarker).1
  cases hfind : harmonyMarkers.find? fun m => m.toList.isPrefixOf (marker.toList ++ (after ++ t)) with
  | none =>
    exact absurd ⟨marker, hmarker, List.prefix_append ..⟩ (find_eq_none_iff.mp hfind)
  | some marker' =>
    have hsearch : searchMarker (marker.toList ++ (after ++ t)) =
        some ([], marker', (marker.toList ++ (after ++ t)).drop marker'.length) := by
      rw [hw, List.cons_append] at hfind ⊢
      rw [searchMarker, hfind]
    have hmarker' := List.mem_of_find?_eq_some hfind
    have hlongest := find_longest hfind hmarker (List.prefix_append ..)
    rw [yielded_of_some hsearch]
    by_cases heq : marker = marker'
    · rw [← heq, ← String.length_toList, List.drop_left]
      rfl
    · obtain ⟨rfl, role, hrole, rfl⟩ := marker_prefix marker hmarker marker' hmarker' hlongest heq
      have hfound := List.find?_some hfind
      obtain ⟨rest, hrest⟩ := List.isPrefixOf_iff_prefix.mp hfound
      rw [← hrest, ← String.length_toList, List.drop_left, handleMarker_role r role hrole]
      rw [String.toList_append, List.append_assoc, List.append_cancel_left_eq] at hrest
      rw [← hrest, yielded_of_noStart (noStart_role role hrole rest)]
      have hsilent : (r.handleMarker "<|start|>").appendText role.toList = [] := by
        have : r.handleMarker "<|start|>" = { r with seenHarmony := true, inMessage := false } := rfl
        rw [this, HarmonyRouter.appendText]
        split_ifs <;> simp_all
      rw [hsilent]
      rfl

/-- Draining the markers leaves a buffer without one, and what follows is routed as if it had been
there. -/
theorem drainMarkers_yielded (n : ℕ) (r : HarmonyRouter) (h : r.buf.length < n) (t : List Char) :
    chars (r.drainMarkers n).1 ++
        yielded (r.drainMarkers n).2 ((r.drainMarkers n).2.buf ++ t) = yielded r (r.buf ++ t) ∧
      searchMarker (r.drainMarkers n).2.buf = none ∧
      ∀ p ∈ (r.drainMarkers n).1, searchMarker p.1 = none := by
  induction n generalizing r with
  | zero => exact absurd h (Nat.not_lt_zero _)
  | succ n ih =>
    rw [HarmonyRouter.drainMarkers]
    cases hsearch : searchMarker r.buf with
    | none => exact ⟨rfl, hsearch, fun _ hp => absurd hp List.not_mem_nil⟩
    | some found =>
      obtain ⟨before, marker, after⟩ := found
      have hlen := length_after hsearch
      obtain ⟨hrouted, hnone, hparts⟩ :=
        ih { r.handleMarker marker with buf := after } (by dsimp only; omega)
      dsimp only at hrouted ⊢
      refine ⟨?_, hnone, ?_⟩
      · rw [chars_append, List.append_assoc, hrouted, yielded_marker hsearch]
        rfl
      · intro p hp
        obtain hp | hp := List.mem_append.mp hp
        · exact mem_appendText hp ▸ searchMarker_before hsearch
        · exact hparts p hp

theorem drain_yielded (r : HarmonyRouter) (t : List Char) :
    chars (r.drain false).1 ++ yielded (r.drain false).2 ((r.drain false).2.buf ++ t) =
        yielded r (r.buf ++ t) ∧
      ∀ p ∈ (r.drain false).1, searchMarker p.1 = none := by
  obtain ⟨hrouted, hnone, hparts⟩ := drainMarkers_yielded _ r (Nat.lt_succ_self _) t
  rw [HarmonyRouter.drain]
  dsimp only
  generalize r.drainMarkers (r.buf.length + 1) = d at hrouted hnone hparts ⊢
  refine ⟨?_, fun p hp => ?_⟩
  · rw [← hrouted, chars_append, List.append_assoc]
    refine congrArg _ ?_
    conv_rhs => rw [← List.take_append_drop (d.2.buf.length - harmonySuffixHoldLen d.2.buf) d.2.buf,
      List.append_assoc]
    exact (yielded_of_noStart (noStart_hold hnone t)).symm
  · obtain hp | hp := List.mem_append.mp hp
    · exact hparts p hp
    · exact mem_appendText hp ▸ searchMarker_of_within hnone (List.take_prefix ..).isInfix

theorem feed_yielded (r : HarmonyRouter) (piece t : List Char) :
    chars (r.feed piece).1 ++ yielded (r.feed piece).2 ((r.feed piece).2.buf ++ t) =
        yielded r (r.buf ++ piece ++ t) ∧
      ∀ p ∈ (r.feed piece).1, searchMarker p.1 = none := by
  rw [HarmonyRouter.feed]
  split_ifs with hempty
  · rw [List.isEmpty_iff.mp hempty, List.append_nil]
    exact ⟨rfl, fun _ hp => absurd hp List.not_mem_nil⟩
  · exact drain_yielded { r with buf := r.buf ++ piece } t

/-- The pieces and the end are routed as their text behind the buffer. -/
theorem feedAll_yielded (pieces : List (List Char)) (r : HarmonyRouter) :
    chars (r.feedAll pieces).1 ++ yielded (r.feedAll pieces).2 (r.feedAll pieces).2.buf =
        yielded r (r.buf ++ pieces.flatten) ∧
      ∀ p ∈ (r.feedAll pieces).1, searchMarker p.1 = none := by
  induction pieces generalizing r with
  | nil =>
    rw [List.flatten_nil, List.append_nil]
    exact ⟨rfl, nofun⟩
  | cons piece pieces ih =>
    obtain ⟨hrest, hrestParts⟩ := ih (r.feed piece).2
    obtain ⟨hfed, hfedParts⟩ := feed_yielded r piece pieces.flatten
    rw [HarmonyRouter.feedAll]
    dsimp only
    refine ⟨?_, fun p hp => (List.mem_append.mp hp).elim (hfedParts p) (hrestParts p)⟩
    rw [chars_append, List.append_assoc, hrest, hfed, List.flatten_cons, List.append_assoc]

theorem flush_parts (r : HarmonyRouter) : ∀ p ∈ r.flush.1, searchMarker p.1 = none := by
  intro p hp
  obtain ⟨-, hnone, hparts⟩ := drainMarkers_yielded _ r (Nat.lt_succ_self _) []
  obtain hp | hp := List.mem_append.mp hp
  · exact hparts p hp
  · exact mem_appendText hp ▸ searchMarker_of_within hnone (List.take_prefix ..).isInfix

theorem chars_routePieces (pieces : List (List Char)) :
    chars (routePieces pieces) = yielded HarmonyRouter.new pieces.flatten := by
  rw [routePieces, chars_append]
  exact (feedAll_yielded pieces HarmonyRouter.new).1

theorem routePieces_parts (pieces : List (List Char)) :
    ∀ p ∈ routePieces pieces, searchMarker p.1 = none := fun p hp =>
  (List.mem_append.mp hp).elim ((feedAll_yielded pieces HarmonyRouter.new).2 p)
    (flush_parts _ p)

theorem chars_appendText_new (text : List Char) :
    chars (HarmonyRouter.new.appendText text) = text.map fun x => (x, false) := by
  cases text with
  | nil => rfl
  | cons x text => exact List.append_nil _

/-- However a text is cut into pieces, it is routed as it is at once. -/
theorem harmonyRouter_routes (pieces : List (List Char)) : Routes pieces where
  merged := by
    rw [mergeParts, mergeParts, chars_routePieces, chars_routePieces, List.flatten_singleton]
  unmarked p hp := searchMarker_eq_none_iff.mp (routePieces_parts pieces p hp)
  plain h := by
    rw [chars_routePieces, yielded_of_none (searchMarker_eq_none_iff.mpr h), chars_appendText_new]
  kept before marker after h := by
    rw [chars_routePieces, yielded_of_some h, chars_appendText_new]
    exact List.prefix_append ..

end Pandamonium.StreamLlm
