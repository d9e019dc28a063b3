import Mathlib.Algebra.Order.BigOperators.Group.List
import Mathlib.Algebra.Order.Group.Nat
import Pandamonium.Model.ToolCatalog

/-!
# Which schemas the ceiling keeps

The schemas are split into those that are kept, in their order and within the limit, and those that
are dropped.  One with a priority name is dropped only where it would not have fitted behind the ones
with priority names before it.
-/

set_option autoImplicit false

namespace Pandamonium.ToolCatalog

open Pandamonium.Library

variable (rt : Runtime)

/-- The tokens of schemas. -/
def tokensOf (items : List Item) : ℕ := (items.map fun item => schemaTokens item.1).sum

/-- The limit that is in force. -/
def limitOf (setting : String → Option (Option ℤ)) (inputBudget : Option ℤ) : ℕ :=
  catalogLimit inputBudget
    (((ContextCompactor.contextClassBudgetPercent setting).lookup "tool_catalog").getD 0)

/-- The schemas whose places are kept come out in their order, with the wrapper within the limit; the
others are dropped, and one with a priority name does not fit behind the kept ones with such names
before it. -/
structure Caps (limit : ℕ) (priority : List String) (valid : List Object) (keeps : ℕ → Bool)
    (kept : List Object) (dropped : List String) : Prop where
  kept_eq : kept = (valid.zipIdx.filter fun item => keeps item.2).map Prod.fst
  dropped_perm : dropped.Perm
    ((valid.zipIdx.filter fun item => !keeps item.2).map (dropLabel rt))
  within : 2 + (kept.map schemaTokens).sum ≤ limit
  priority_first : ∀ item ∈ valid.zipIdx, keeps item.2 = false →
    isPriority rt priority item = true →
    limit < 2 + tokensOf (valid.zipIdx.filter fun other =>
      keeps other.2 && isPriority rt priority other && decide (other.2 < item.2)) +
        schemaTokens item.1

variable {rt}

/-! ## The selection -/

variable (rt) in
/-- What is known when the items have been looked at: the others were dropped, each where it did not
fit behind those that were kept before it. -/
structure Selected (limit : ℕ) (items : List Item) (s : Selection) (out : List Item) : Prop where
  perm : (s.keptRanked ++ out).Perm items
  dropped : s.dropped = out.map (dropLabel rt)
  used : s.used = 2 + tokensOf s.keptRanked
  within : s.used ≤ limit
  misfit : ∀ item ∈ out, ∃ before after first, items = before ++ item :: after ∧
    first.Sublist s.keptRanked ∧ (∀ other ∈ first, other ∈ before) ∧
    limit < 2 + tokensOf first + schemaTokens item.1

theorem tokensOf_le_of_sublist {items items' : List Item} (h : items.Sublist items') :
    tokensOf items ≤ tokensOf items' :=
  (h.map _).sum_le_sum fun _ _ => Nat.zero_le _

variable (rt) in
theorem exists_selected {limit : ℕ} (hlimit : 2 ≤ limit) (items : List Item) :
    ∃ out, Selected rt limit items (items.foldl (select rt limit) ⟨[], [], 2⟩) out := by
  induction items using List.reverseRecOn with
  | nil => exact ⟨[], List.Perm.refl _, rfl, rfl, hlimit, nofun⟩
  | append_singleton items item ih =>
    obtain ⟨out, h⟩ := ih
    rw [List.foldl_append, List.foldl_cons, List.foldl_nil]
    generalize items.foldl (select rt limit) ⟨[], [], 2⟩ = s at h ⊢
    have hbefore : ∀ other ∈ out, ∃ before after first,
        items ++ [item] = before ++ other :: after ∧ first.Sublist s.keptRanked ∧
        (∀ other' ∈ first, other' ∈ before) ∧
        limit < 2 + tokensOf first + schemaTokens other.1 := by
      intro other hother
      obtain ⟨before, after, first, heq, hfirst⟩ := h.misfit other hother
      exact ⟨before, after ++ [item], first, by rw [heq]; simp, hfirst⟩
    rw [select]
    split
    · rename_i hfits
      refine ⟨out, ?_, h.dropped, ?_, hfits, ?_⟩
      · have hmove : (s.keptRanked ++ [item] ++ out).Perm (s.keptRanked ++ out ++ [item]) := by
          rw [List.append_assoc, List.append_assoc]
          exact List.perm_append_comm.append_left _
        exact hmove.trans (h.perm.append_right [item])
      · simp [h.used, tokensOf, Nat.add_assoc]
      · intro other hother
        obtain ⟨before, after, first, heq, hsub, hrest⟩ := hbefore other hother
        exact ⟨before, after, first, heq, hsub.trans (List.sublist_append_left _ _), hrest⟩
    · rename_i hmisfit
      refine ⟨out ++ [item], ?_, ?_, h.used, h.within, ?_⟩
      · rw [← List.append_assoc]
        exact h.perm.append_right [item]
      · simp [h.dropped]
      · intro other hother
        rcases List.mem_append.mp hother with hother | hother
        · exact hbefore other hother
        · obtain rfl := List.mem_singleton.mp hother
          refine ⟨items, [], s.keptRanked, rfl, List.Sublist.refl _, fun other' hother' => ?_, ?_⟩
          · exact h.perm.subset (List.mem_append_left _ hother')
          · have hused := h.used
            omega

/-! ## The places -/

theorem nodup_places (valid : List Object) : (valid.zipIdx.map Prod.snd).Nodup := by
  rw [List.zipIdx_map_snd]
  exact List.nodup_range'

theorem pairwise_places (valid : List Object) :
    valid.zipIdx.Pairwise fun a b => a.2 ≤ b.2 := by
  refine List.pairwise_map.mp (?_ : (valid.zipIdx.map Prod.snd).Pairwise (· ≤ ·))
  rw [List.zipIdx_map_snd]
  exact List.pairwise_le_range'

theorem eq_of_place_eq {valid : List Object} {a b : Item} (ha : a ∈ valid.zipIdx)
    (hb : b ∈ valid.zipIdx) (h : a.2 = b.2) : a = b :=
  List.inj_on_of_nodup_map (nodup_places valid) ha hb h

/-- What comes before an item with a priority name has one too, and an earlier place. -/
theorem rank_le {priority : List String} {count : ℕ} {other item : Item}
    (h : rank rt priority count other ≤ rank rt priority count item)
    (hitem : isPriority rt priority item = true) (hcount : item.2 < count) :
    isPriority rt priority other = true ∧ other.2 ≤ item.2 := by
  rw [rank, rank, hitem, if_pos rfl] at h
  by_cases hother : isPriority rt priority other = true
  · rw [if_pos hother] at h
    exact ⟨hother, by omega⟩
  · rw [if_neg hother] at h
    omega

/-- The items that are kept and those that are dropped are told by their places. -/
theorem Selected.filter_perm {limit : ℕ} {valid : List Object} {items : List Item} {s : Selection}
    {out : List Item} (h : Selected rt limit items s out) (hitems : items.Perm valid.zipIdx) :
    s.keptRanked.Perm
        (valid.zipIdx.filter fun item => decide (item.2 ∈ s.keptRanked.map Prod.snd)) ∧
      out.Perm (valid.zipIdx.filter fun item => !decide (item.2 ∈ s.keptRanked.map Prod.snd)) := by
  have hall : (s.keptRanked ++ out).Perm valid.zipIdx := h.perm.trans hitems
  have hnodup : ((s.keptRanked ++ out).map Prod.snd).Nodup :=
    (hall.map _).nodup_iff.mpr (nodup_places valid)
  rw [List.map_append] at hnodup
  have hkept : ∀ item ∈ s.keptRanked, item.2 ∈ s.keptRanked.map Prod.snd :=
    fun item hitem => List.mem_map_of_mem hitem
  have hout : ∀ item ∈ out, item.2 ∉ s.keptRanked.map Prod.snd := fun item hitem hmem =>
    List.disjoint_of_nodup_append hnodup hmem (List.mem_map_of_mem hitem)
  constructor
  · refine List.Perm.trans (List.Perm.of_eq ?_) (hall.filter _)
    rw [List.filter_append, List.filter_eq_self.mpr (by simpa using hkept),
      List.filter_eq_nil_iff.mpr (by simpa using hout), List.append_nil]
  · refine List.Perm.trans (List.Perm.of_eq ?_) (hall.filter _)
    rw [List.filter_append, List.filter_eq_nil_iff.mpr fun item hitem => ?_,
      List.filter_eq_self.mpr fun item hitem => ?_, List.nil_append]
    · simpa using hout item hitem
    · simpa using hkept item hitem

/-! ## The ceiling -/

/-- The schemas that are kept and those that are dropped are all the valid ones, the kept ones stay
in their order and within the limit, and one with a priority name is dropped only where it does not
fit behind those with priority names before it. -/
theorem capToolSchemas_caps (rt : Runtime) (setting : String → Option (Option ℤ))
    (schemas : List Value) (inputBudget : Option ℤ) (priority : List String) :
    ∃ keeps, Caps rt (limitOf setting inputBudget) priority (validSchemas schemas) keeps
      (capToolSchemas rt setting schemas inputBudget priority).1
      (capToolSchemas rt setting schemas inputBudget priority).2 := by
  have hlimit : 2 ≤ limitOf setting inputBudget :=
    Nat.le_trans (by decide) (Nat.le_max_right _ 64)
  rw [capToolSchemas]
  generalize validSchemas schemas = valid
  dsimp only
  have hranked := perm_orderedBy (rank rt priority valid.length) valid.zipIdx
  obtain ⟨out, h⟩ := exists_selected rt hlimit
    (orderedBy (rank rt priority valid.length) valid.zipIdx)
  rw [limitOf] at h
  generalize hs : (orderedBy (rank rt priority valid.length) valid.zipIdx).foldl
    (select rt (catalogLimit inputBudget _)) ⟨[], [], 2⟩ = s at h ⊢
  obtain ⟨hkept, hout⟩ := h.filter_perm hranked
  have hsorted : orderedBy Prod.snd s.keptRanked =
      valid.zipIdx.filter fun item => decide (item.2 ∈ s.keptRanked.map Prod.snd) := by
    refine List.Perm.eq_of_pairwise ?_ (pairwise_orderedBy _ _)
      ((pairwise_places valid).sublist List.filter_sublist) ((perm_orderedBy _ _).trans hkept)
    intro a b ha hb hab hba
    have ha := hkept.subset (mem_orderedBy.mp ha)
    exact eq_of_place_eq (List.mem_of_mem_filter ha) (List.mem_of_mem_filter hb)
      (Nat.le_antisymm hab hba)
  refine ⟨fun i => decide (i ∈ s.keptRanked.map Prod.snd), by rw [hsorted], ?_, ?_, ?_⟩
  · rw [h.dropped]
    exact hout.map _
  · have hused := h.used
    have hsum : ((orderedBy Prod.snd s.keptRanked).map Prod.fst |>.map schemaTokens).sum =
        tokensOf s.keptRanked := by
      rw [List.map_map]
      exact ((perm_orderedBy _ _).map _).sum_eq
    rw [hsum, ← hused]
    exact h.within
  · intro item hitem hdropped hpriority
    have hmem : item ∈ out :=
      hout.mem_iff.mpr (List.mem_filter.mpr ⟨hitem, by rw [hdropped]; rfl⟩)
    obtain ⟨before, after, first, heq, hsub, hbefore, hlt⟩ := h.misfit item hmem
    refine Nat.lt_of_lt_of_le hlt ?_
    have hplace : item.2 < valid.length := List.snd_lt_of_mem_zipIdx hitem
    have hpair := pairwise_orderedBy (rank rt priority valid.length) valid.zipIdx
    rw [heq] at hpair
    have hfirst : ∀ other ∈ first,
        isPriority rt priority other = true ∧ decide (other.2 < item.2) = true := by
      intro other hother
      obtain ⟨hother', hle⟩ := rank_le
        ((List.pairwise_append.mp hpair).2.2 other (hbefore other hother) item List.mem_cons_self)
        hpriority hplace
      refine ⟨hother', decide_eq_true (Nat.lt_of_le_of_ne hle fun hsame => ?_)⟩
      rw [← hsame] at hdropped
      exact absurd (List.mem_map_of_mem (hsub.subset hother)) (of_decide_eq_false hdropped)
    have hall : first.filter (fun other =>
        isPriority rt priority other && decide (other.2 < item.2)) = first :=
      List.filter_eq_self.mpr fun other hother =>
        Bool.and_eq_true_iff.mpr (hfirst other hother)
    have hle : tokensOf first ≤ tokensOf (s.keptRanked.filter fun other =>
        isPriority rt priority other && decide (other.2 < item.2)) :=
      tokensOf_le_of_sublist (hall ▸ hsub.filter _)
    have hperm : tokensOf (s.keptRanked.filter fun other =>
        isPriority rt priority other && decide (other.2 < item.2)) =
        tokensOf (valid.zipIdx.filter fun other =>
          decide (other.2 ∈ s.keptRanked.map Prod.snd) && isPriority rt priority other &&
            decide (other.2 < item.2)) := by
      refine (((hkept.filter _).trans (List.Perm.of_eq ?_)).map _).sum_eq
      rw [List.filter_filter]
      refine List.filter_congr fun other _ => ?_
      rw [Bool.and_comm, Bool.and_assoc]
    omega

end Pandamonium.ToolCatalog
