import Pandamonium.Library.Gather
import Pandamonium.Model.StreamLlm

/-!
# The fragments of tool calls

The fragments of the calls of an answer come in any order.  A fragment is of the call with its index;
without one it begins a call where it carries a name, and else goes on with the call of the fragment
before it.  The slots hold the calls where no index is that of a slot given to a call without one.
-/

set_option autoImplicit false

namespace Pandamonium.StreamLlm

open Pandamonium.Library

/-- What the agent reads of a call. -/
def Call.said (call : Call) : String × String := (call.name, call.arguments)

/-- Which call a fragment is of. -/
inductive CallKey
  | index (idx : ℕ)
  /-- The calls that come without an index, by their number. -/
  | nth (n : ℕ)
  deriving DecidableEq, Repr

/-- How many calls came without an index, and the call of the fragment before. -/
structure Known where
  count : ℕ
  last : Option CallKey

def Known.new : Known := ⟨0, none⟩

/-- The call of the next fragment. -/
def Known.key (k : Known) (tc : Fragment) : CallKey :=
  match tc.index, k.last with
  | some idx, _ => .index idx
  | none, none => .nth k.count
  | none, some last => if tc.name ≠ "" then .nth k.count else last

def Known.next (k : Known) (tc : Fragment) : Known :=
  let key := k.key tc
  { count := if key = .nth k.count then k.count + 1 else k.count, last := some key }

/-- The fragments with their calls. -/
def identify : Known → List Fragment → List (CallKey × Fragment)
  | _, [] => []
  | k, tc :: tcs => (k.key tc, tc) :: identify (k.next tc) tcs

/-- The name of a call: the last one that its fragments carry. -/
def nameOf (tcs : List Fragment) : String :=
  (((tcs.map Fragment.name).filter fun name => name ≠ "").getLast?).getD ""

/-- The arguments of a call, in the order of its fragments. -/
def argumentsOf (tcs : List Fragment) : String := String.join (tcs.map Fragment.arguments)

/-- The calls that the fragments are of. -/
def callsOf (tcs : List Fragment) : List (String × String) :=
  let pieces := identify .new tcs
  (firsts (pieces.map Prod.fst)).map fun key =>
    (nameOf (piecesOf key pieces), argumentsOf (piecesOf key pieces))

theorem nameOf_concat (tcs : List Fragment) (tc : Fragment) :
    nameOf (tcs ++ [tc]) = if tc.name ≠ "" then tc.name else nameOf tcs := by
  rw [nameOf, List.map_append, List.filter_append, List.map_singleton]
  by_cases hname : tc.name = ""
  · simp [hname, nameOf]
  · simp [hname]

/-- A slot has the name and the arguments of its fragments. -/
theorem said_foldl_add (tcs : List Fragment) :
    (tcs.foldl Call.add .blank).said = (nameOf tcs, argumentsOf tcs) := by
  induction tcs using List.reverseRecOn with
  | nil => rfl
  | append_singleton tcs tc ih =>
    obtain ⟨hname, harguments⟩ := Prod.mk.inj ih
    rw [List.foldl_append, nameOf_concat, argumentsOf, List.map_append, List.map_singleton,
      String.join_append, String.join_cons, String.join_nil, String.append_empty]
    refine Prod.ext ?_ ?_
    · show (if tc.name ≠ "" then tc.name else (tcs.foldl Call.add .blank).name) = _
      rw [hname]
    · show (tcs.foldl Call.add .blank).arguments ++ tc.arguments = _
      rw [harguments]
      rfl

theorem map_said_gather (tcs : List Fragment) :
    (gather Call.add .blank (identify .new tcs)).values.map Call.said = callsOf tcs := by
  rw [values_gather, List.map_map, callsOf]
  exact List.map_congr_left fun key _ => said_foldl_add _

/-! ## Slots -/

/-- Whether some fragment carries the index of a slot that was given to a call without one. -/
def clashes : ToolSlots → List ℕ → List Fragment → Bool
  | _, _, [] => false
  | s, given, tc :: tcs =>
    match tc.index with
    | some idx => given.contains idx || clashes (s.add tc) given tcs
    | none =>
      if s.lastIdx.isNone || tc.name ≠ "" then clashes (s.add tc) (nextSlot s.acc :: given) tcs
      else clashes (s.add tc) given tcs

theorem lt_nextSlot {acc : Dict ℕ Call} {idx : ℕ} (h : idx ∈ acc.items.map Prod.fst) :
    idx < nextSlot acc := by
  rw [nextSlot]
  cases hmax : (acc.items.map Prod.fst).max? with
  | none =>
    rw [List.max?_eq_none_iff.mp hmax] at h
    exact absurd h List.not_mem_nil
  | some last => exact Nat.lt_succ_of_le ((List.max?_le_iff hmax).mp (Nat.le_refl last) idx h)

/-- The slots are those of the calls. -/
structure Slotted (s : ToolSlots) (k : Known) (given : List ℕ) (pieces : List (CallKey × Fragment))
    (slot : CallKey → ℕ) : Prop where
  acc : s.acc = gather Call.add .blank (pieces.map (Prod.map slot id))
  last : s.lastIdx = k.last.map slot
  lastKnown : ∀ key, k.last = some key → key ∈ pieces.map Prod.fst
  index : ∀ idx, slot (.index idx) = idx
  counted : ∀ n, .nth n ∈ pieces.map Prod.fst → n < k.count
  wasGiven : ∀ n, .nth n ∈ pieces.map Prod.fst → slot (.nth n) ∈ given
  apart : ∀ idx, .index idx ∈ pieces.map Prod.fst → idx ∉ given
  injective : ∀ key ∈ pieces.map Prod.fst, ∀ key' ∈ pieces.map Prod.fst,
    slot key = slot key' → key = key'

section Slotted

variable {s : ToolSlots} {k : Known} {given : List ℕ} {pieces : List (CallKey × Fragment)}
  {slot : CallKey → ℕ} {tc : Fragment}

section Adding

variable (h : Slotted s k given pieces slot)
include h

theorem Slotted.acc_add {key : CallKey} (hslot : s.slot tc = slot key) :
    (s.add tc).acc =
      gather Call.add .blank ((pieces ++ [(key, tc)]).map (Prod.map slot id)) := by
  rw [List.map_append, List.map_singleton, gather_concat, ← h.acc]
  show s.acc.set (s.slot tc) _ = s.acc.set (slot key) _
  rw [hslot]
  rfl

/-- The slots of the calls so far are before the next one. -/
theorem Slotted.slot_lt {key : CallKey} (hkey : key ∈ pieces.map Prod.fst) :
    slot key < nextSlot s.acc := by
  refine lt_nextSlot ?_
  rw [h.acc, keys_gather, mem_firsts, List.map_map]
  obtain ⟨piece, hpiece, rfl⟩ := List.mem_map.mp hkey
  exact List.mem_map.mpr ⟨piece, hpiece, rfl⟩

theorem Slotted.indexed {idx : ℕ} (htc : tc.index = some idx) (hnot : idx ∉ given) :
    Slotted (s.add tc) (k.next tc) given (pieces ++ [(.index idx, tc)]) slot := by
  have hslot : s.slot tc = idx := by rw [ToolSlots.slot, htc]
  have hkey : k.key tc = .index idx := by rw [Known.key, htc]
  have hcount : (k.next tc).count = k.count := by
    rw [Known.next, hkey, if_neg CallKey.noConfusion]
  have hlast : (k.next tc).last = some (.index idx) := by rw [Known.next, hkey]
  have hkeys : (pieces ++ [(CallKey.index idx, tc)]).map Prod.fst =
      pieces.map Prod.fst ++ [.index idx] := by
    rw [List.map_append, List.map_singleton]
  have hindex := h.index idx
  -- a slot that was given is not the index of a fragment
  have hother : ∀ key ∈ pieces.map Prod.fst, slot key = idx → key = .index idx := by
    intro key hmem hsame
    cases key with
    | index idx' => rw [← hsame, h.index idx']
    | nth n => exact absurd (hsame ▸ h.wasGiven n hmem) hnot
  refine ⟨h.acc_add (hslot.trans hindex.symm), ?_, ?_, h.index, ?_, ?_, ?_, ?_⟩
  · rw [hlast]
    show some (s.slot tc) = some (slot (.index idx))
    rw [hslot, hindex]
  · intro key hsome
    rw [hlast] at hsome
    obtain rfl := Option.some.inj hsome
    rw [hkeys]
    exact List.mem_append_right _ (List.mem_singleton_self _)
  · intro n hn
    rw [hkeys, List.mem_append, List.mem_singleton] at hn
    rw [hcount]
    exact h.counted n (hn.resolve_right CallKey.noConfusion)
  · intro n hn
    rw [hkeys, List.mem_append, List.mem_singleton] at hn
    exact h.wasGiven n (hn.resolve_right CallKey.noConfusion)
  · intro idx' hidx'
    rw [hkeys, List.mem_append, List.mem_singleton] at hidx'
    obtain hidx' | hidx' := hidx'
    · exact h.apart idx' hidx'
    · obtain rfl := CallKey.index.inj hidx'
      exact hnot
  · intro key hmem key' hmem' hsame
    rw [hkeys, List.mem_append, List.mem_singleton] at hmem hmem'
    obtain hmem | rfl := hmem
    · obtain hmem' | rfl := hmem'
      · exact h.injective key hmem key' hmem' hsame
      · exact hother key hmem (hsame.trans hindex)
    · obtain hmem' | rfl := hmem'
      · exact (hother key' hmem' (hsame.symm.trans hindex)).symm
      · rfl

theorem Slotted.continued {key : CallKey} (htc : tc.index = none) (hlast : k.last = some key)
    (hname : tc.name = "") :
    Slotted (s.add tc) (k.next tc) given (pieces ++ [(key, tc)]) slot := by
  have hlastIdx : s.lastIdx = some (slot key) := by rw [h.last, hlast, Option.map_some]
  have hslot : s.slot tc = slot key := by
    simp only [ToolSlots.slot, htc, hlastIdx, hname, ne_eq, not_true_eq_false, if_false]
  have hkey : k.key tc = key := by
    simp only [Known.key, htc, hlast, hname, ne_eq, not_true_eq_false, if_false]
  have hmem : key ∈ pieces.map Prod.fst := h.lastKnown key hlast
  have hcount : (k.next tc).count = k.count := by
    rw [Known.next, hkey]
    refine if_neg ?_
    rintro rfl
    exact absurd (h.counted k.count hmem) (Nat.lt_irrefl _)
  have hnext : (k.next tc).last = some key := by rw [Known.next, hkey]
  have hkeys : ∀ key', key' ∈ (pieces ++ [(key, tc)]).map Prod.fst → key' ∈ pieces.map Prod.fst := by
    intro key' hkey'
    rw [List.map_append, List.map_singleton, List.mem_append, List.mem_singleton] at hkey'
    obtain hkey' | rfl := hkey'
    · exact hkey'
    · exact hmem
  refine ⟨h.acc_add hslot, ?_, ?_, h.index, ?_, ?_, ?_, ?_⟩
  · rw [hnext]
    exact congrArg some hslot
  · intro key' hsome
    rw [hnext] at hsome
    obtain rfl := Option.some.inj hsome
    rw [List.map_append, List.mem_append]
    exact .inl hmem
  · intro n hn
    rw [hcount]
    exact h.counted n (hkeys _ hn)
  · exact fun n hn => h.wasGiven n (hkeys _ hn)
  · exact fun idx hidx => h.apart idx (hkeys _ hidx)
  · exact fun key₁ h₁ key₂ h₂ => h.injective key₁ (hkeys _ h₁) key₂ (hkeys _ h₂)

theorem Slotted.begun (htc : tc.index = none) (hbegins : (s.lastIdx.isNone || tc.name ≠ "") = true) :
    k.key tc = .nth k.count ∧
      ∃ slot', Slotted (s.add tc) (k.next tc) (nextSlot s.acc :: given)
        (pieces ++ [(.nth k.count, tc)]) slot' := by
  have hslot : s.slot tc = nextSlot s.acc := by
    simp only [ToolSlots.slot, htc]
    cases hlast : s.lastIdx with
    | none => rfl
    | some last =>
      rw [hlast, Option.isNone_some, Bool.false_or] at hbegins
      exact if_pos (of_decide_eq_true hbegins)
  have hkey : k.key tc = .nth k.count := by
    simp only [Known.key, htc]
    cases hlast : k.last with
    | none => rfl
    | some last =>
      rw [h.last, hlast, Option.map_some, Option.isNone_some, Bool.false_or] at hbegins
      exact if_pos (of_decide_eq_true hbegins)
  have hcount : (k.next tc).count = k.count + 1 := by rw [Known.next, hkey, if_pos rfl]
  have hnext : (k.next tc).last = some (.nth k.count) := by rw [Known.next, hkey]
  have hnew : CallKey.nth k.count ∉ pieces.map Prod.fst :=
    fun hmem => absurd (h.counted k.count hmem) (Nat.lt_irrefl _)
  let slot' := Function.update slot (.nth k.count) (nextSlot s.acc)
  have hold : ∀ key ∈ pieces.map Prod.fst, slot' key = slot key := by
    intro key hmem
    refine Function.update_of_ne ?_ _ _
    rintro rfl
    exact hnew hmem
  have hself : slot' (.nth k.count) = nextSlot s.acc := Function.update_self _ _ _
  have hsame : (pieces.map (Prod.map slot' id)) = pieces.map (Prod.map slot id) := by
    refine List.map_congr_left fun piece hpiece => ?_
    exact Prod.ext (hold piece.1 (List.mem_map.mpr ⟨piece, hpiece, rfl⟩)) rfl
  have hkeys : (pieces ++ [(CallKey.nth k.count, tc)]).map Prod.fst =
      pieces.map Prod.fst ++ [.nth k.count] := by
    rw [List.map_append, List.map_singleton]
  refine ⟨hkey, slot', ?_, ?_, ?_, ?_, ?_, ?_, ?_, ?_⟩
  · rw [List.map_append, List.map_singleton, gather_concat, hsame, ← h.acc]
    show s.acc.set (s.slot tc) (((s.acc.get? (s.slot tc)).getD .blank).add tc) =
      s.acc.set (slot' (.nth k.count)) (((s.acc.get? (slot' (.nth k.count))).getD .blank).add tc)
    rw [hslot, hself]
  · rw [hnext, Option.map_some, hself]
    exact congrArg some hslot
  · intro key hsome
    rw [hnext] at hsome
    obtain rfl := Option.some.inj hsome
    rw [hkeys]
    exact List.mem_append_right _ (List.mem_singleton_self _)
  · intro idx
    exact (Function.update_of_ne CallKey.noConfusion _ _).trans (h.index idx)
  · intro n hn
    rw [hkeys, List.mem_append, List.mem_singleton] at hn
    rw [hcount]
    obtain hn | hn := hn
    · exact Nat.lt_succ_of_lt (h.counted n hn)
    · rw [CallKey.nth.inj hn]
      exact Nat.lt_succ_self _
  · intro n hn
    rw [hkeys, List.mem_append, List.mem_singleton] at hn
    obtain hn | hn := hn
    · rw [hold _ hn]
      exact List.mem_cons_of_mem _ (h.wasGiven n hn)
    · rw [CallKey.nth.inj hn, hself]
      exact List.mem_cons_self
  · intro idx hidx
    rw [hkeys, List.mem_append, List.mem_singleton] at hidx
    have hmem := hidx.resolve_right CallKey.noConfusion
    have hlt := h.slot_lt hmem
    rw [h.index] at hlt
    rw [List.mem_cons, not_or]
    exact ⟨Nat.ne_of_lt hlt, h.apart idx hmem⟩
  · intro key hmem key' hmem' hboth
    rw [hkeys, List.mem_append, List.mem_singleton] at hmem hmem'
    obtain hmem | rfl := hmem
    · obtain hmem' | rfl := hmem'
      · rw [hold key hmem, hold key' hmem'] at hboth
        exact h.injective key hmem key' hmem' hboth
      · rw [hold key hmem, hself] at hboth
        exact absurd hboth (Nat.ne_of_lt (h.slot_lt hmem))
    · obtain hmem' | rfl := hmem'
      · rw [hold key' hmem', hself] at hboth
        exact absurd hboth.symm (Nat.ne_of_lt (h.slot_lt hmem'))
      · rfl

end Adding

/-- Where no index is that of a given slot, the slots hold the calls. -/
theorem values_of_slotted (tcs : List Fragment) (h : Slotted s k given pieces slot)
    (hclash : clashes s given tcs = false) :
    (tcs.foldl ToolSlots.add s).acc.values =
      (gather Call.add .blank (pieces ++ identify k tcs)).values := by
  induction tcs generalizing s k given pieces slot with
  | nil =>
    rw [identify, List.append_nil, List.foldl_nil, h.acc]
    exact values_gather_map Call.add .blank h.injective
  | cons tc tcs ih =>
    have hsplit : pieces ++ identify k (tc :: tcs) =
        (pieces ++ [(k.key tc, tc)]) ++ identify (k.next tc) tcs := by
      rw [identify, List.append_assoc, List.singleton_append]
    rw [List.foldl_cons, hsplit]
    unfold clashes at hclash
    cases htc : tc.index with
    | some idx =>
      simp only [htc, Bool.or_eq_false_iff] at hclash
      have hnot : idx ∉ given := fun hmem =>
        Bool.false_ne_true (hclash.1.symm.trans (List.contains_iff_mem.mpr hmem))
      have hkey : k.key tc = .index idx := by rw [Known.key, htc]
      rw [hkey]
      exact ih (h.indexed htc hnot) hclash.2
    | none =>
      simp only [htc] at hclash
      by_cases hbegins : (s.lastIdx.isNone || decide (tc.name ≠ "")) = true
      · rw [if_pos hbegins] at hclash
        obtain ⟨hkey, slot', hslotted⟩ := h.begun htc hbegins
        rw [hkey]
        exact ih hslotted hclash
      · rw [if_neg hbegins] at hclash
        obtain ⟨hlast, hname⟩ := not_or.mp (mt (Bool.or_eq_true _ _).mpr hbegins)
        rw [decide_eq_true_eq, not_not] at hname
        cases hk : k.last with
        | none => exact absurd (by rw [h.last, hk]; rfl) hlast
        | some key =>
          have hkey : k.key tc = key := by
            simp only [Known.key, htc, hk, hname, ne_eq, not_true_eq_false, if_false]
          rw [hkey]
          exact ih (h.continued htc hk hname) hclash

end Slotted

theorem slotted_new :
    Slotted .new .new [] [] fun key =>
      match key with
      | .index idx => idx
      | .nth n => n := by
  refine ⟨rfl, rfl, ?_, fun _ => rfl, ?_, ?_, ?_, ?_⟩
  · exact fun key hkey => absurd hkey.symm (Option.some_ne_none key)
  · exact fun _ hn => absurd hn List.not_mem_nil
  · exact fun _ hn => absurd hn List.not_mem_nil
  · exact fun _ hidx => absurd hidx List.not_mem_nil
  · exact fun _ hkey => absurd hkey List.not_mem_nil

/-- What the slots hold after fragments that do not clash. -/
theorem said_slots {tcs : List Fragment} (hclash : clashes .new [] tcs = false) :
    (tcs.foldl ToolSlots.add .new).acc.values.map Call.said = callsOf tcs := by
  rw [values_of_slotted tcs slotted_new hclash, List.nil_append, map_said_gather]

/-- Fragments that all carry an index do not clash. -/
theorem not_clashes_of_indexed {tcs : List Fragment} (s : ToolSlots)
    (h : ∀ tc ∈ tcs, tc.index.isSome = true) : clashes s [] tcs = false := by
  induction tcs generalizing s with
  | nil => rfl
  | cons tc tcs ih =>
    obtain ⟨idx, hidx⟩ := Option.isSome_iff_exists.mp (h tc List.mem_cons_self)
    unfold clashes
    simp only [hidx, List.contains_nil, Bool.false_or]
    exact ih _ fun tc' htc' => h tc' (List.mem_cons_of_mem tc htc')

/-- Fragments none of which carries an index do not clash. -/
theorem not_clashes_of_unindexed {tcs : List Fragment} (s : ToolSlots) (given : List ℕ)
    (h : ∀ tc ∈ tcs, tc.index = none) : clashes s given tcs = false := by
  induction tcs generalizing s given with
  | nil => rfl
  | cons tc tcs ih =>
    have hrest := fun tc' htc' => h tc' (List.mem_cons_of_mem tc htc')
    unfold clashes
    simp only [h tc List.mem_cons_self]
    split
    · exact ih _ _ hrest
    · exact ih _ _ hrest

/-- However the fragments of several calls are interleaved, the slots hold the calls, where all of
them carry an index or none does. -/
theorem said_slots_alike {tcs : List Fragment}
    (h : (∀ tc ∈ tcs, tc.index.isSome = true) ∨ ∀ tc ∈ tcs, tc.index = none) :
    (tcs.foldl ToolSlots.add .new).acc.values.map Call.said = callsOf tcs :=
  said_slots (h.elim (not_clashes_of_indexed .new) (not_clashes_of_unindexed .new []))

/-- The fragments of two calls by turns. -/
def interleaved : List Fragment :=
  [⟨some 1, "b", "write", "\x7b", none⟩, ⟨some 0, "a", "read", "1", none⟩,
    ⟨some 1, "", "", "\x7d", none⟩]

theorem said_slots_interleaved :
    (interleaved.foldl ToolSlots.add .new).acc.values.map Call.said = callsOf interleaved :=
  said_slots_alike (.inl (by decide))

end Pandamonium.StreamLlm
