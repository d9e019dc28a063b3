import Pandamonium.Model.HistoryRoutes

/-!
# What the two copies of a history agree in

The messages in memory and the rows in their order show the same, one by one, and each message names
its row.  Adding, editing and deleting keep that where the new row comes last, a listed index is not
hit twice, and no metadata from outside says what the row is.  A merge never does: the message that
is left names the row that was deleted.
-/

set_option autoImplicit false

namespace Pandamonium.History

open Pandamonium.Library

/-- The message and the row are equal in role and content. -/
def Shows (m : Message) (e : String × Row) : Prop := m.role = e.2.role ∧ m.content = e.2.content

/-- And the message names the row. -/
def Names (m : Message) (e : String × Row) : Prop := Shows m e ∧ m.dbId = some (.str e.1)

/-- The two copies agree. -/
def Agree (s : Session) : Prop := List.Forall₂ Names s.history s.inOrder

/-- Of each index of a row that is listed twice, every later row is listed too. -/
def deletesBehind (indices : List Int) (length : ℕ) : Bool :=
  indices.all fun i => decide (i < 0 ∨ length ≤ i ∨ indices.count i = 1) ||
    (List.range length).all fun j => decide ((j : Int) ≤ i) || decide ((j : Int) ∈ indices)

/-- The row of a message that is added is new and comes last, with the content as it is; an index is
listed once, or with all that come after it; there are no two messages to merge; and metadata from
outside does not say what the row is. -/
def spares (s : Session) : Request → Bool
  | .addMessage m => decide (m.content = "") ||
      ((s.rows.get? m.id).isNone && decide (persistable m.content = m.content) &&
        s.rows.items.all fun e => decide (e.2.timestamp ≤ m.now))
  | .deleteMessages msgIds indices => decide (msgIds ≠ []) || deletesBehind indices s.history.length
  | .mergeLastAssistant _ =>
    decide ((s.history.filter fun m => decide (m.role = "assistant")).length < 2)
  | .updateLastMeta metaUpdate => (metaUpdate.get? "_db_id").isNone
  | .editMessage _ _ => true

variable {s : Session} {m : Message} {e : String × Row} {id : String}

/-! ## Messages and their rows -/

theorem Names.hasId (h : Names m e) (id : String) : m.hasId id = decide (e.1 = id) := by
  rw [Message.hasId, h.2]

theorem get?_markedEdited (metadata : Option Metadata) :
    ((markedEdited metadata).bind fun metaData => metaData.get? "_db_id") =
      metadata.bind fun metaData => metaData.get? "_db_id" := by
  have hne : "_db_id" ≠ "edited" := by decide
  cases metadata with
  | none =>
    show ((Dict.empty : Metadata).set "edited" (.bool true)).get? "_db_id" = _
    rw [Dict.get?_set, if_neg hne]
    rfl
  | some metaData =>
    show (metaData.set "edited" (.bool true)).get? "_db_id" = _
    rw [Dict.get?_set, if_neg hne]
    rfl

theorem get?_updated {metaUpdate : Metadata} (hupdate : metaUpdate.get? "_db_id" = none)
    (metadata : Option Metadata) :
    (updated (metadata.getD Dict.empty) metaUpdate).get? "_db_id" =
      metadata.bind fun metaData => metaData.get? "_db_id" := by
  have hnot : "_db_id" ∉ metaUpdate.items.map Prod.fst := by
    intro hmem
    obtain ⟨⟨key, value⟩, hitem, rfl⟩ := List.mem_map.mp hmem
    rw [(metaUpdate.mem_items_iff _ value).mp hitem] at hupdate
    cases hupdate
  rw [updated, Dict.get?_foldl_set_of_not_mem hnot]
  cases metadata with
  | none => rfl
  | some metaData => rfl

/-! ## Rows that are changed -/

/-- The rows in their order after one of them is changed. -/
theorem inOrder_set {row : Row} (hrow : s.rows.get? id = some row) (g : Row → Row)
    (hg : ∀ row, (g row).timestamp = row.timestamp) (history : List Message) :
    Session.inOrder ⟨history, s.rows.set id (g row)⟩ =
      s.inOrder.map fun e => if e.1 = id then (e.1, g e.2) else e := by
  rw [Session.inOrder, Dict.items_set_of_get? hrow]
  refine orderedBy_map (fun e => ?_) _
  split
  · exact hg e.2
  · rfl

theorem nodup_inOrder (s : Session) : (s.inOrder.map Prod.fst).Nodup :=
  ((perm_orderedBy _ s.rows.items).map Prod.fst).nodup_iff.mpr s.rows.nodup

/-- The message that is edited is the one whose row is. -/
theorem names_editFirst {content : String} {history : List Message} {rows : List (String × Row)}
    (h : List.Forall₂ Names history rows) (hnodup : (rows.map Prod.fst).Nodup) :
    List.Forall₂ Names (editFirst id content history)
      (rows.map fun e => if e.1 = id then (e.1, e.2.edited content) else e) := by
  induction h with
  | nil => exact .nil
  | @cons m e history rows hm hrest ih =>
    obtain ⟨hnot, hnodup⟩ := List.nodup_cons.mp hnodup
    rw [editFirst, hm.hasId, List.map_cons]
    by_cases hid : e.1 = id
    · subst hid
      -- the other rows have other ids
      rw [if_pos (decide_eq_true rfl), if_pos rfl,
        Dict.map_items_of_not_mem hnot (Row.edited content)]
      refine .cons ⟨⟨hm.1.1, rfl⟩, ?_⟩ hrest
      exact (get?_markedEdited m.metadata).trans hm.2
    · rw [if_neg (by simp [hid]), if_neg hid]
      exact .cons hm (ih hnodup)

theorem agree_editMessage (h : Agree s) (content : String) : Agree (editMessage id content s) := by
  unfold editMessage
  split
  case h_1 => exact h
  case h_2 row hrow =>
    rw [Agree, inOrder_set hrow (Row.edited content) fun _ => rfl]
    exact names_editFirst h (nodup_inOrder s)

/-! ## Rows that are added and deleted -/

theorem agree_addMessage (h : Agree s) {new : NewMessage}
    (hspares : spares s (.addMessage new) = true) : Agree (addMessage new s) := by
  unfold addMessage
  split
  case isTrue => exact h
  case isFalse hcontent =>
    obtain ⟨⟨hid, hpersist⟩, hlast⟩ : (s.rows.get? new.id = none ∧
        persistable new.content = new.content) ∧
        ∀ e ∈ s.rows.items, e.2.timestamp ≤ new.now := by
      simpa [spares, hcontent] using hspares
    rw [NewMessage.addTo, hid, Option.isSome_none, if_neg Bool.false_ne_true, hpersist, Agree, Session.inOrder,
      Dict.items_set_of_get?_eq_none hid, orderedBy_concat hlast]
    refine List.rel_append h (.cons ⟨⟨rfl, rfl⟩, ?_⟩ .nil)
    exact Dict.get?_set_self _ _ _

/-- The messages that are left are those whose rows are. -/
theorem agree_deleteIds (h : Agree s) (msgIds : List String) : Agree (deleteIds msgIds s) := by
  rw [Agree, Session.inOrder, deleteIds, Dict.items_foldl_erase, orderedBy_filter]
  refine List.rel_filter (fun m e hm => ?_) h
  have hany : (msgIds.any fun id => m.hasId id) = decide (e.1 ∈ msgIds) := by
    simp only [hm.hasId]
    induction msgIds with
    | nil => rfl
    | cons id msgIds ih => rw [List.any_cons, ih]; simp [Bool.decide_or, List.mem_cons]
  simp [hany]

/-! ## The last message of the assistant -/

theorem names_modify {history : List Message} {rows : List (String × Row)}
    (h : List.Forall₂ Names history rows) (f : Message → Message) (hf : ∀ m e, Names m e → Names (f m) e) (i : ℕ) :
    List.Forall₂ Names (history.modify i f) rows := by
  induction h generalizing i with
  | nil => cases i <;> exact .nil
  | @cons m e history rows hm hrest ih =>
    cases i with
    | zero => exact .cons (hf m e hm) hrest
    | succ i => exact .cons hm (ih i)

theorem agree_updateLastMeta (h : Agree s) {metaUpdate : Metadata}
    (hupdate : metaUpdate.get? "_db_id" = none) : Agree (updateLastMeta metaUpdate s) := by
  have hhistory : List.Forall₂ Names (updateLastMeta metaUpdate s).history s.inOrder := by
    unfold updateLastMeta
    dsimp only
    split
    · exact h
    · refine names_modify h (Message.withUpdate metaUpdate) (fun m e hm => ⟨hm.1, ?_⟩) _
      exact (get?_updated hupdate m.metadata).trans hm.2
  have hinOrder : List.Forall₂ Names (updateLastMeta metaUpdate s).history
      (Session.inOrder ⟨(updateLastMeta metaUpdate s).history,
        (updateLastMeta metaUpdate s).rows⟩) := by
    generalize (updateLastMeta metaUpdate s).history = history at hhistory
    unfold updateLastMeta
    dsimp only
    split
    case h_1 => exact hhistory
    case h_2 id row hlast =>
      have hmem : (id, row) ∈ s.rows.items :=
        mem_orderedBy.mp (List.mem_filter.mp (List.mem_of_getLast? hlast)).1
      rw [inOrder_set ((s.rows.mem_items_iff id row).mp hmem) (Row.withUpdate metaUpdate)
        fun _ => rfl]
      refine List.forall₂_map_right_iff.mpr (hhistory.imp fun m e hm => ?_)
      split
      · exact hm
      · exact hm
  exact hinOrder

/-! ## Deleting by indices -/

/-- A row is found by its key where it is found by its index. -/
theorem filter_ne_eq_eraseIdx {rows : List (String × Row)} (hnodup : (rows.map Prod.fst).Nodup)
    {i : ℕ} (hi : rows[i]? = some e) :
    (rows.filter fun e' => decide (e'.1 ≠ e.1)) = rows.eraseIdx i := by
  induction rows generalizing i with
  | nil => cases hi
  | cons e' rows ih =>
    obtain ⟨hnot, hnodup⟩ := List.nodup_cons.mp hnodup
    cases i with
    | zero =>
      obtain rfl := Option.some.inj hi
      rw [List.filter_cons_of_neg (by simp), List.eraseIdx_cons_zero]
      exact List.filter_eq_self.mpr fun e'' he'' => decide_eq_true (Dict.not_mem_keys hnot he'')
    | succ i =>
      have hmem : e ∈ rows := List.mem_of_getElem? hi
      have hne : e'.1 ≠ e.1 := fun heq => hnot (List.mem_map.mpr ⟨e, hmem, heq.symm⟩)
      rw [List.filter_cons, if_pos (decide_eq_true hne), List.eraseIdx_cons_succ, ih hnodup hi]

theorem names_eraseIdx {history : List Message} {rows : List (String × Row)}
    (h : List.Forall₂ Names history rows) (i : ℕ) :
    List.Forall₂ Names (history.eraseIdx i) (rows.eraseIdx i) := by
  induction h generalizing i with
  | nil => exact .nil
  | cons hm hrest ih =>
    cases i with
    | zero => exact hrest
    | succ i => exact .cons hm (ih i)

theorem inOrder_erase (s : Session) (id : String) (history : List Message) :
    Session.inOrder ⟨history, s.rows.erase id⟩ =
      s.inOrder.filter fun e => decide (e.1 ≠ id) :=
  orderedBy_filter _ _

/-- The indices are deleted down to a bound, and others remain: below the bound the rows are as they
were, behind it are those whose indices are not listed. -/
structure Deleting (rows : List (String × Row)) (indices remaining : List Int) (t : Session)
    (bound : ℕ) : Prop where
  agree : Agree t
  le : bound ≤ rows.length
  short : t.inOrder.length ≤ rows.length
  inOrder : ∃ behind, t.inOrder = rows.take bound ++ behind ∧
    ∀ e ∈ behind, ∃ j, bound < j ∧ rows[j]? = some e ∧ (j : Int) ∉ indices
  ahead : ∀ j : ℕ, (j : Int) ∈ indices → j < bound → (j : Int) ∈ remaining
  taken : bound < rows.length → remaining.count (bound : Int) < indices.count (bound : Int) ∧
    ∀ j ∈ remaining, j ≤ bound

section Deletion

variable {rows : List (String × Row)} {indices remaining : List Int} {i : Int} {t : Session}
  {bound : ℕ}

/-- An index that hits no row, or one that was deleted with all behind it. -/
theorem Deleting.skip (h : Deleting rows indices (i :: remaining) t bound)
    (hi : (bound : Int) ≤ i ∨ i < 0) : Deleting rows indices remaining t bound where
  agree := h.agree
  le := h.le
  short := h.short
  inOrder := h.inOrder
  ahead := by
    intro j hj hlt
    refine (List.mem_cons.mp (h.ahead j hj hlt)).resolve_left fun heq => ?_
    omega
  taken := by
    intro hlt
    obtain ⟨hcount, hle⟩ := h.taken hlt
    refine ⟨Nat.lt_of_le_of_lt ?_ hcount, fun j hj => hle j (List.mem_cons_of_mem i hj)⟩
    exact List.count_le_count_cons

/-- An index below the bound is deleted from both copies. -/
theorem Deleting.take {n : ℕ} (h : Deleting rows indices ((n : Int) :: remaining) t bound)
    (hsorted : ∀ j ∈ remaining, j ≤ (n : Int))
    (hlisted : remaining.count (n : Int) < indices.count (n : Int)) (hlt : n < bound) :
    Deleting rows indices remaining (deleteAt (rows.map Prod.fst) t n) n := by
  obtain ⟨behind, hinOrder, hbehind⟩ := h.inOrder
  have hle := h.le
  obtain ⟨e, he⟩ : ∃ e, rows[n]? = some e := ⟨_, List.getElem?_eq_getElem (by omega)⟩
  have htaken : (rows.take bound).length = bound := List.length_take_of_le h.le
  have hget : t.inOrder[n]? = some e := by
    rw [hinOrder, List.getElem?_append_left (by omega), List.getElem?_take_of_lt hlt, he]
  have hlength : n < t.history.length := by
    rw [h.agree.length_eq, hinOrder, List.length_append, htaken]
    omega
  have hids : (rows.map Prod.fst)[n]? = some e.1 := by rw [List.getElem?_map, he]; rfl
  have hat : deleteAt (rows.map Prod.fst) t n =
      ⟨t.history.eraseIdx n, t.rows.erase e.1⟩ := by
    rw [deleteAt, if_pos (Int.natCast_nonneg n), if_pos (Int.ofNat_lt.mpr hlength)]
    simp only [Int.toNat_natCast, hids]
  have herased : Session.inOrder ⟨t.history.eraseIdx n, t.rows.erase e.1⟩ =
      t.inOrder.eraseIdx n := by
    rw [inOrder_erase, filter_ne_eq_eraseIdx (nodup_inOrder t) hget]
  rw [hat]
  exact {
    agree := by
      rw [Agree, herased]
      exact names_eraseIdx h.agree n
    le := by omega
    short := by
      rw [herased]
      exact (List.eraseIdx_sublist _ _).length_le.trans h.short
    inOrder := by
      refine ⟨(rows.take bound).drop (n + 1) ++ behind, ?_, ?_⟩
      · rw [herased, hinOrder, List.eraseIdx_append_of_lt_length (by omega),
          List.eraseIdx_eq_take_drop_succ, List.take_take, Nat.min_eq_left hlt.le,
          List.append_assoc]
      · intro e' he'
        rcases List.mem_append.mp he' with hmem | hmem
        · -- between this index and the bound there is no other one
          obtain ⟨k, hk⟩ := List.mem_iff_getElem?.mp hmem
          rw [List.getElem?_drop, List.getElem?_take] at hk
          obtain ⟨hkb, hrow⟩ := Option.ite_none_right_eq_some.mp hk
          refine ⟨n + 1 + k, by omega, hrow, fun hlisted => ?_⟩
          rcases List.mem_cons.mp (h.ahead _ hlisted hkb) with heq | hmem
          · omega
          · have hj := hsorted _ hmem
            omega
        · obtain ⟨j, hj, hrow, hnot⟩ := hbehind e' hmem
          exact ⟨j, by omega, hrow, hnot⟩
    ahead := by
      intro j hj hjn
      refine (List.mem_cons.mp (h.ahead j hj (by omega))).resolve_left fun heq => ?_
      omega
    taken := fun _ => ⟨hlisted, hsorted⟩ }

/-- An index that is listed again, with all behind it deleted, hits nothing. -/
theorem Deleting.again (h : Deleting rows indices ((bound : Int) :: remaining) t bound)
    (hnodup : (rows.map Prod.fst).Nodup) (hlt : bound < rows.length)
    (hbehind : ∀ j : ℕ, bound < j → j < rows.length → (j : Int) ∈ indices) :
    deleteAt (rows.map Prod.fst) t bound = t := by
  obtain ⟨behind, hinOrder, hmem⟩ := h.inOrder
  have hnil : behind = [] := by
    refine List.eq_nil_iff_forall_not_mem.mpr fun e he => ?_
    obtain ⟨j, hj, hrow, hnot⟩ := hmem e he
    exact hnot (hbehind j hj (List.getElem?_eq_some_iff.mp hrow).1)
  rw [hnil, List.append_nil] at hinOrder
  have hlength : t.history.length = bound := by
    rw [h.agree.length_eq, hinOrder, List.length_take_of_le h.le]
  have hids : (rows.map Prod.fst)[bound]? = some rows[bound].1 := by
    rw [List.getElem?_map, List.getElem?_eq_getElem hlt]
    rfl
  have hgone : t.rows.erase rows[bound].1 = t.rows := by
    refine Dict.erase_of_not_mem fun hmem => ?_
    have hordered : rows[bound].1 ∈ t.inOrder.map Prod.fst :=
      ((perm_orderedBy _ t.rows.items).map Prod.fst).mem_iff.mpr hmem
    rw [hinOrder, List.map_take] at hordered
    obtain ⟨k, hk, heq⟩ := List.mem_take_iff_getElem.mp hordered
    have hkb : k < bound := (Nat.lt_min.mp hk).1
    have hbound : bound < (rows.map Prod.fst).length := by rwa [List.length_map]
    have hsame : (rows.map Prod.fst)[k] = (rows.map Prod.fst)[bound] := by
      rw [heq, List.getElem_map]
    exact absurd (hnodup.getElem_inj_iff.mp hsame) (Nat.ne_of_lt hkb)
  rw [deleteAt, if_pos (Int.natCast_nonneg bound), if_neg (by omega)]
  simp only [Int.toNat_natCast, hids, hgone]

/-- An index that no row has. -/
theorem Deleting.beyond {n : ℕ} (h : Deleting rows indices remaining t bound)
    (hn : rows.length ≤ n) : deleteAt (rows.map Prod.fst) t n = t := by
  have hids : (rows.map Prod.fst)[n]? = none := by
    rw [List.getElem?_eq_none_iff, List.length_map]
    exact hn
  have hshort : ¬ (n : Int) < t.history.length := by
    have hlength := h.short
    rw [← h.agree.length_eq] at hlength
    omega
  rw [deleteAt, if_pos (Int.natCast_nonneg n), if_neg hshort]
  simp only [Int.toNat_natCast, hids]

/-- The condition on an index that is listed again. -/
theorem behind_of_deletesBehind (h : deletesBehind indices rows.length = true)
    (hbound : (bound : Int) ∈ indices) (hlt : bound < rows.length)
    (hcount : indices.count (bound : Int) ≠ 1) :
    ∀ j : ℕ, bound < j → j < rows.length → (j : Int) ∈ indices := by
  intro j hj hjlt
  have hone := List.all_eq_true.mp h _ hbound
  rw [Bool.or_eq_true, decide_eq_true_eq] at hone
  rcases hone with (hneg | hle | hcount') | hall
  · omega
  · omega
  · exact absurd hcount' hcount
  · have hlisted := List.all_eq_true.mp hall j (List.mem_range.mpr hjlt)
    rw [Bool.or_eq_true, decide_eq_true_eq, decide_eq_true_eq] at hlisted
    exact hlisted.resolve_left (by omega)

/-- One index after the other is deleted from both copies. -/
theorem Deleting.foldl (hnodup : (rows.map Prod.fst).Nodup)
    (hbehind : deletesBehind indices rows.length = true)
    (hsub : ∀ j ∈ remaining, j ∈ indices) (hcounts : ∀ j, remaining.count j ≤ indices.count j)
    (hsorted : remaining.Pairwise fun i j => j ≤ i)
    (h : Deleting rows indices remaining t bound) :
    Agree (remaining.foldl (deleteAt (rows.map Prod.fst)) t) := by
  induction remaining generalizing t bound with
  | nil => exact h.agree
  | cons i remaining ih =>
    obtain ⟨hle, hsorted'⟩ := List.pairwise_cons.mp hsorted
    have hsub' : ∀ j ∈ remaining, j ∈ indices := fun j hj => hsub j (List.mem_cons_of_mem i hj)
    have hcounts' : ∀ j, remaining.count j ≤ indices.count j := fun j =>
      List.count_le_count_cons.trans (hcounts j)
    have hlisted : remaining.count i < indices.count i := by
      have hcount := hcounts i
      rw [List.count_cons_self] at hcount
      exact hcount
    rw [List.foldl_cons]
    rcases lt_or_ge i 0 with hneg | hnonneg
    · rw [deleteAt, if_neg (by omega)]
      exact ih hsub' hcounts' hsorted' (h.skip (.inr hneg))
    obtain ⟨n, rfl⟩ := Int.eq_ofNat_of_zero_le hnonneg
    rcases lt_trichotomy n bound with hlt | rfl | hgt
    · exact ih hsub' hcounts' hsorted' (h.take hle hlisted hlt)
    · rcases Nat.lt_or_ge n rows.length with hlt | hge
      · -- it was deleted before, with all behind it
        have hcount := (h.taken hlt).1
        rw [List.count_cons_self] at hcount
        have hall := behind_of_deletesBehind hbehind (hsub _ List.mem_cons_self) hlt (by omega)
        rw [h.again hnodup hlt hall]
        exact ih hsub' hcounts' hsorted' (h.skip (.inl (Int.le_refl _)))
      · rw [h.beyond hge]
        exact ih hsub' hcounts' hsorted' (h.skip (.inl (Int.le_refl _)))
    · rcases Nat.lt_or_ge bound rows.length with hlt | hge
      · have hle := (h.taken hlt).2 _ List.mem_cons_self
        omega
      · rw [h.beyond (by omega)]
        exact ih hsub' hcounts' hsorted' (h.skip (.inl (by omega)))

end Deletion

theorem agree_deleteIndices (h : Agree s) {indices : List Int}
    (hbehind : deletesBehind indices s.history.length = true) :
    Agree (deleteIndices indices s) := by
  have hperm := List.perm_insertionSort (fun i j : Int => j ≤ i) indices
  have : Std.Total fun i j : Int => j ≤ i := ⟨fun i j => Int.le_total j i⟩
  have : IsTrans Int fun i j => j ≤ i := ⟨fun _ _ _ hij hjk => Int.le_trans hjk hij⟩
  have hsorted := List.pairwise_insertionSort (fun i j : Int => j ≤ i) indices
  have hbegin : Deleting s.inOrder indices (indices.insertionSort fun i j => j ≤ i) s
      s.inOrder.length := {
    agree := h
    le := Nat.le_refl _
    short := Nat.le_refl _
    inOrder := ⟨[], by rw [List.take_length, List.append_nil], nofun⟩
    ahead := fun j hj _ => hperm.mem_iff.mpr hj
    taken := fun hlt => absurd hlt (Nat.lt_irrefl _) }
  exact hbegin.foldl (nodup_inOrder s) (h.length_eq ▸ hbehind) (fun j hj => hperm.mem_iff.mp hj)
    (fun j => (hperm.count_eq j).le) hsorted

/-! ## Requests -/

theorem length_filter_zipIdx {α : Type} (p : α → Bool) (l : List α) (n : ℕ) :
    ((l.zipIdx n).filter fun e => p e.1).length = (l.filter p).length := by
  induction l generalizing n with
  | nil => rfl
  | cons a l ih =>
    rw [List.zipIdx_cons, List.filter_cons, List.filter_cons]
    dsimp only
    split
    · rw [List.length_cons, List.length_cons, ih]
    · exact ih (n + 1)

/-- Where there are no two messages of the assistant, nothing is merged. -/
theorem mergeLastAssistant_of_lt
    (h : (s.history.filter fun m => decide (m.role = "assistant")).length < 2)
    (separator : String) : mergeLastAssistant separator s = s := by
  have hfew : (indicesOf (fun m : Message => decide (m.role = "assistant")) s.history).length <
      2 := by
    rwa [indicesOf, List.length_map,
      length_filter_zipIdx fun m : Message => decide (m.role = "assistant")]
  have hnone : lastTwo (indicesOf (fun m : Message => decide (m.role = "assistant")) s.history) =
      none := by
    unfold lastTwo
    split
    case h_1 last first rest heq =>
      rw [← List.length_reverse, heq] at hfew
      simp only [List.length_cons] at hfew
      omega
    case h_2 => rfl
  rw [mergeLastAssistant, mergeHistory, hnone]
  rfl

theorem agree_handle (h : Agree s) {request : Request} (hspares : spares s request = true) :
    Agree (handle s request) := by
  cases request with
  | addMessage m => exact agree_addMessage h hspares
  | editMessage msgId content =>
    show Agree (if msgId = "" then s else editMessage msgId content s)
    split
    · exact h
    · exact agree_editMessage h content
  | deleteMessages msgIds indices =>
    show Agree (deleteMessages msgIds indices s)
    unfold deleteMessages
    split
    case isTrue => exact agree_deleteIds h msgIds
    case isFalse hids =>
      split
      · refine agree_deleteIndices h ?_
        simpa [spares, hids] using hspares
      · exact h
  | mergeLastAssistant separator =>
    have hfew := of_decide_eq_true hspares
    rw [handle, mergeLastAssistant_of_lt hfew]
    exact h
  | updateLastMeta metaUpdate => exact agree_updateLastMeta h (Option.isNone_iff_eq_none.mp hspares)

/-- In every run of requests that spare the session, the two copies stay in agreement. -/
theorem copiesAgree_of_spares
    (hs : (routes Agree).ReachableWhere (fun s request => spares s request = true) s) : Agree s := by
  refine hs.invariant (I := Agree) (fun _ h => h) fun s request s' h hspares hstep => ?_
  obtain rfl := Option.some.inj hstep
  exact agree_handle h hspares

/-- A session that is loaded agrees with its rows. -/
theorem agree_loaded (rows : Dict String Row) : Agree (loaded rows) := by
  refine List.forall₂_map_left_iff.mpr (List.forall₂_same.mpr fun e _ => ⟨⟨rfl, rfl⟩, ?_⟩)
  exact Dict.get?_set_self _ _ _

/-! ## Two runs -/

/-- A message of this role that is added now. -/
def added (id role content : String) (now : ℕ) : Request := .addMessage ⟨id, now, role, content, none⟩

/-- The roles and contents in memory, with whether the row is the first one that was added, and the
ids of the rows. -/
def shown (s : Session) : List (String × String × Bool) × List String :=
  (s.history.map fun m => (m.role, m.content, m.hasId "m1"), s.inOrder.map Prod.fst)

/-- Messages are added, edited, deleted by an index that is listed twice, and marked. -/
theorem agree_edited : ∃ s,
    (routes Agree).ReachableWhere (fun s request => spares s request = true) s ∧
    shown s = ([("user", "Hello", true), ("assistant", "Hi.", false)], ["m1", "m2"]) ∧ Agree s := by
  obtain ⟨s, hs, hshown⟩ := (routes Agree).exists_reachableWhere_of_exec
    (fun s request => spares s request = true) shown
    [added "m1" "user" "Hi" 10, added "m2" "assistant" "Hi." 20, added "m3" "user" "?" 20,
      .editMessage "m1" "Hello", .deleteMessages [] [2, 2], .mergeLastAssistant "\n\n",
      .updateLastMeta (Dict.empty.set "variant" (.int 1))]
    (v := ([("user", "Hello", true), ("assistant", "Hi.", false)], ["m1", "m2"]))
    (agree_loaded Dict.empty) (by decide +kernel)
  exact ⟨s, hs, hshown, copiesAgree_of_spares hs⟩

/-- After a merge the message that is left names the row that was deleted. -/
theorem not_agree_merged : ∃ s, (routes Agree).Reachable s ∧ ¬ Agree s := by
  obtain ⟨s, hs, hshown⟩ := (routes Agree).exists_reachableWhere_of_exec TransitionSystem.anyStep
    shown [added "m1" "assistant" "One" 10, added "m2" "assistant" "two." 20,
      .mergeLastAssistant " "]
    (v := ([("assistant", "One two.", false)], ["m1"])) (agree_loaded Dict.empty)
    (by decide +kernel)
  refine ⟨s, hs, fun h => ?_⟩
  obtain ⟨hhistory, hrows⟩ := Prod.mk.inj hshown
  have hsame : (s.history.map fun m => m.hasId "m1") =
      s.inOrder.map fun e => decide (e.1 = "m1") := by
    refine List.forall₂_eq_eq_eq ▸ List.forall₂_map_left_iff.mpr (List.forall₂_map_right_iff.mpr
      (h.imp fun m e hm => hm.hasId "m1"))
  have hleft : (s.history.map fun m => m.hasId "m1") = [false] := by
    have hmap := congrArg (List.map fun x => x.2.2) hhistory
    rwa [List.map_map] at hmap
  have hright : (s.inOrder.map fun e => decide (e.1 = "m1")) = [true] := by
    have hmap := congrArg (List.map fun id => decide (id = "m1")) hrows
    rwa [List.map_map] at hmap
  rw [hleft, hright] at hsame
  cases hsame

end Pandamonium.History
