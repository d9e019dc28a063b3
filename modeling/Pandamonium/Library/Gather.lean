import Mathlib.Data.List.Dedup
import Pandamonium.Library.Dict

/-!
# Pieces gathered under their keys

Pieces of several things come one after the other, each with the key of its thing, and are gathered
in a dictionary.  Under each key is what its own pieces give, in the order they came in, whatever
came between (`items_gather`); and it does not matter what the keys are, as long as they tell the
things apart in the same way (`values_gather_map`).
-/

set_option autoImplicit false

namespace Pandamonium.Library

variable {κ ι α β : Type} [DecidableEq κ] [DecidableEq ι]

/-- The keys without repetitions, in the order they first come in. -/
def firsts (keys : List κ) : List κ := keys.reverse.dedup.reverse

theorem firsts_concat (keys : List κ) (k : κ) :
    firsts (keys ++ [k]) = if k ∈ keys then firsts keys else firsts keys ++ [k] := by
  rw [firsts, List.reverse_append, List.reverse_singleton, List.singleton_append]
  split
  case isTrue h => rw [List.dedup_cons_of_mem (List.mem_reverse.mpr h), firsts]
  case isFalse h =>
    rw [List.dedup_cons_of_notMem (h ∘ List.mem_reverse.mp), List.reverse_cons, firsts]

@[simp] theorem mem_firsts {keys : List κ} {k : κ} : k ∈ firsts keys ↔ k ∈ keys := by
  rw [firsts, List.mem_reverse, List.mem_dedup, List.mem_reverse]

/-- The pieces with the key. -/
def piecesOf (k : κ) (pieces : List (κ × α)) : List α :=
  (pieces.filter fun piece => piece.1 = k).map Prod.snd

theorem piecesOf_concat (k : κ) (pieces : List (κ × α)) (piece : κ × α) :
    piecesOf k (pieces ++ [piece]) =
      if piece.1 = k then piecesOf k pieces ++ [piece.2] else piecesOf k pieces := by
  rw [piecesOf, List.filter_append, List.map_append]
  split
  case isTrue h => simp [h, piecesOf]
  case isFalse h => simp [h, piecesOf]

theorem piecesOf_of_not_mem {k : κ} {pieces : List (κ × α)} (h : k ∉ pieces.map Prod.fst) :
    piecesOf k pieces = [] := by
  rw [piecesOf, List.filter_eq_nil_iff.mpr, List.map_nil]
  intro piece hpiece hk
  exact h (List.mem_map.mpr ⟨piece, hpiece, of_decide_eq_true hk⟩)

variable (f : β → α → β) (blank : β)

/-- A piece is put to what is there under its key. -/
def gatherOne (d : Dict κ β) (piece : κ × α) : Dict κ β :=
  d.set piece.1 (f ((d.get? piece.1).getD blank) piece.2)

/-- The pieces one after the other. -/
def gather (pieces : List (κ × α)) : Dict κ β := pieces.foldl (gatherOne f blank) Dict.empty

variable (pieces : List (κ × α))

theorem gather_concat (piece : κ × α) :
    gather f blank (pieces ++ [piece]) = gatherOne f blank (gather f blank pieces) piece := by
  rw [gather, List.foldl_append]
  rfl

omit [DecidableEq ι] in
theorem get?_of_items {d : Dict κ β} {keys : List κ} {g : κ → β}
    (h : d.items = keys.map fun k => (k, g k)) (k : κ) :
    d.get? k = if k ∈ keys then some (g k) else none := by
  split
  case isTrue hk =>
    rw [← Dict.mem_items_iff, h]
    exact List.mem_map.mpr ⟨k, hk, rfl⟩
  case isFalse hk =>
    rw [Option.eq_none_iff_forall_ne_some]
    intro v hv
    rw [← Dict.mem_items_iff, h] at hv
    obtain ⟨k', hk', heq⟩ := List.mem_map.mp hv
    obtain ⟨rfl, -⟩ := Prod.mk.inj heq
    exact hk hk'

theorem items_gather :
    (gather f blank pieces).items =
      (firsts (pieces.map Prod.fst)).map fun k => (k, (piecesOf k pieces).foldl f blank) := by
  induction pieces using List.reverseRecOn with
  | nil => rfl
  | append_singleton pieces piece ih =>
    obtain ⟨k, a⟩ := piece
    have hget := get?_of_items ih k
    simp only [mem_firsts] at hget
    rw [gather_concat, gatherOne, List.map_append, List.map_singleton, firsts_concat]
    by_cases hk : k ∈ pieces.map Prod.fst
    · rw [if_pos hk] at hget ⊢
      rw [hget, Option.getD_some, Dict.items_set_of_get? hget (fun b => f b a), ih, List.map_map]
      refine List.map_congr_left fun k' _ => ?_
      rw [piecesOf_concat]
      by_cases hkk : k = k'
      · subst hkk
        simp
      · simp [hkk, Ne.symm hkk]
    · rw [if_neg hk] at hget ⊢
      rw [hget, Option.getD_none, Dict.items_set_of_get?_eq_none hget, ih, List.map_append,
        List.map_singleton, piecesOf_concat, if_pos rfl, piecesOf_of_not_mem hk]
      congr 1
      refine List.map_congr_left fun k' hk' => ?_
      have hkk : k ≠ k' := fun h => hk (h ▸ mem_firsts.mp hk')
      rw [piecesOf_concat, if_neg hkk]

theorem keys_gather :
    (gather f blank pieces).items.map Prod.fst = firsts (pieces.map Prod.fst) := by
  rw [items_gather, List.map_map]
  exact List.map_id _

theorem values_gather :
    (gather f blank pieces).values =
      (firsts (pieces.map Prod.fst)).map fun k => (piecesOf k pieces).foldl f blank := by
  rw [Dict.values, items_gather, List.map_map]
  rfl

theorem firsts_map {g : κ → ι} {keys : List κ}
    (hg : ∀ k ∈ keys, ∀ k' ∈ keys, g k = g k' → k = k') :
    firsts (keys.map g) = (firsts keys).map g := by
  induction keys using List.reverseRecOn with
  | nil => rfl
  | append_singleton keys k ih =>
    have hkeys := ih fun k₁ h₁ k₂ h₂ =>
      hg k₁ (List.mem_append_left [k] h₁) k₂ (List.mem_append_left [k] h₂)
    have hmem : g k ∈ keys.map g ↔ k ∈ keys := by
      refine ⟨fun h => ?_, fun h => List.mem_map.mpr ⟨k, h, rfl⟩⟩
      obtain ⟨k', hk', heq⟩ := List.mem_map.mp h
      have hlast : k ∈ keys ++ [k] := List.mem_append_right keys (List.mem_singleton_self k)
      exact hg k' (List.mem_append_left [k] hk') k hlast heq ▸ hk'
    rw [List.map_append, List.map_singleton, firsts_concat, firsts_concat, hkeys]
    simp only [hmem]
    split
    · rfl
    · rw [List.map_append, List.map_singleton]

/-- Other keys that tell the pieces apart in the same way. -/
theorem values_gather_map {g : κ → ι} {pieces : List (κ × α)}
    (hg : ∀ k ∈ pieces.map Prod.fst, ∀ k' ∈ pieces.map Prod.fst, g k = g k' → k = k') :
    (gather f blank (pieces.map (Prod.map g id))).values = (gather f blank pieces).values := by
  rw [values_gather, values_gather, List.map_map]
  have hkeys : pieces.map (Prod.fst ∘ Prod.map g id) = (pieces.map Prod.fst).map g := by
    rw [List.map_map]
    rfl
  rw [hkeys, firsts_map hg, List.map_map]
  refine List.map_congr_left fun k hk => ?_
  rw [mem_firsts] at hk
  have hpieces : piecesOf (g k) (pieces.map (Prod.map g id)) = piecesOf k pieces := by
    rw [piecesOf, piecesOf, List.filter_map, List.map_map]
    have hfilter : pieces.filter ((fun piece => decide (piece.1 = g k)) ∘ Prod.map g id) =
        pieces.filter fun piece => decide (piece.1 = k) := by
      refine List.filter_congr fun piece hpiece => ?_
      have hkey : piece.1 ∈ pieces.map Prod.fst := List.mem_map.mpr ⟨piece, hpiece, rfl⟩
      exact decide_eq_decide.mpr ⟨hg piece.1 hkey k hk, congrArg g⟩
    rw [hfilter]
    rfl
  exact congrArg (List.foldl f blank) hpieces

end Pandamonium.Library
