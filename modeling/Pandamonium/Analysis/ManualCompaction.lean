import Pandamonium.Analysis.HistoryAgreement

/-!
# What compaction by hand leaves

In memory the summaries are put before the messages that were kept, and what came while the summary
was awaited is dropped.  In the table the summaries are inserted with the time of the compaction, so
they are the last rows, after those that were kept.  The two copies are as intended only where
nothing came meanwhile and the clock was set back behind the rows that are kept.
-/

set_option autoImplicit false

namespace Pandamonium.History

open Pandamonium.Library

variable {s : Session} {c : Compaction} {arrivals : List NewMessage}

/-- The messages that came while the summary was awaited. -/
def arrived (arrivals : List NewMessage) (s : Session) : List Message :=
  (arrive arrivals s).history.drop s.history.length

/-- The row of the hidden summary. -/
def systemRow (c : Compaction) (s : Session) : String × Row :=
  (c.systemId, (c.systemSummary s.history).rowAt c.now)

/-- The row of the summary that is seen. -/
def visibleRow (c : Compaction) (s : Session) : String × Row :=
  (c.visibleId, (visibleSummary s.history).rowAt c.now)

/-- Both copies are the summaries, the last four messages of the history that was summarised, and
what came meanwhile. -/
structure Compacted (c : Compaction) (arrivals : List NewMessage) (s : Session) : Prop where
  memory : (compactSession c arrivals s).history =
    [c.systemSummary s.history, visibleSummary s.history] ++ recent s.history ++ arrived arrivals s
  database : ∃ rest,
    (compactSession c arrivals s).inOrder = systemRow c s :: visibleRow c s :: rest ∧
      List.Forall₂ Shows (recent s.history ++ arrived arrivals s) rest

/-- The ids of the summaries are new. -/
structure Fresh (c : Compaction) (s : Session) : Prop where
  differ : c.systemId ≠ c.visibleId
  system : s.rows.get? c.systemId = none
  visible : s.rows.get? c.visibleId = none

/-! ## Memory -/

theorem history_addTo (m : NewMessage) (s : Session) :
    ∃ m', (m.addTo s).history = s.history ++ [m'] := by
  unfold NewMessage.addTo
  dsimp only
  split
  · exact ⟨_, rfl⟩
  · exact ⟨_, rfl⟩

theorem history_arrive (arrivals : List NewMessage) (s : Session) :
    (arrive arrivals s).history = s.history ++ arrived arrivals s ∧
      (arrived arrivals s).length = arrivals.length := by
  have happend : ∃ new, (arrive arrivals s).history = s.history ++ new ∧
      new.length = arrivals.length := by
    induction arrivals generalizing s with
    | nil => exact ⟨[], (List.append_nil _).symm, rfl⟩
    | cons m arrivals ih =>
      obtain ⟨m', hm⟩ := history_addTo m s
      obtain ⟨new, hnew, hlength⟩ := ih (m.addTo s)
      refine ⟨m' :: new, ?_, congrArg Nat.succ hlength⟩
      show (arrive arrivals (m.addTo s)).history = _
      rw [hnew, hm, List.append_assoc]
      rfl
  obtain ⟨new, hnew, hlength⟩ := happend
  have harrived : arrived arrivals s = new := by rw [arrived, hnew, List.drop_left]
  exact ⟨by rw [hnew, harrived], by rw [harrived, hlength]⟩

theorem history_compactSession (hlength : 6 ≤ s.history.length) :
    (compactSession c arrivals s).history =
      [c.systemSummary s.history, visibleSummary s.history] ++ recent s.history := by
  rw [compactSession, if_neg (by omega)]

theorem memory_iff (hlength : 6 ≤ s.history.length) :
    (compactSession c arrivals s).history =
      [c.systemSummary s.history, visibleSummary s.history] ++ recent s.history ++
        arrived arrivals s ↔ arrivals = [] := by
  rw [history_compactSession hlength, List.self_eq_append_right, ← List.length_eq_zero_iff,
    (history_arrive arrivals s).2, List.length_eq_zero_iff]

/-! ## The rows -/

/-- All rows but the first are left where those are deleted by their ids. -/
theorem filter_not_mem_take {rows : List (String × Row)} (hnodup : (rows.map Prod.fst).Nodup)
    (n : ℕ) : (rows.filter fun e => decide (e.1 ∉ (rows.take n).map Prod.fst)) = rows.drop n := by
  have hsplit : ((rows.take n).map Prod.fst ++ (rows.drop n).map Prod.fst).Nodup := by
    rw [← List.map_append, List.take_append_drop]
    exact hnodup
  have hdisjoint := List.disjoint_of_nodup_append hsplit
  calc (rows.filter fun e => decide (e.1 ∉ (rows.take n).map Prod.fst))
      = (rows.take n ++ rows.drop n).filter fun e =>
          decide (e.1 ∉ (rows.take n).map Prod.fst) := by rw [List.take_append_drop]
    _ = [] ++ rows.drop n := by
      rw [List.filter_append]
      congr 1
      · refine List.filter_eq_nil_iff.mpr fun e he => ?_
        rw [decide_eq_true_eq, not_not]
        exact List.mem_map.mpr ⟨e, he, rfl⟩
      · refine List.filter_eq_self.mpr fun e he => decide_eq_true fun hmem => ?_
        exact hdisjoint hmem (List.mem_map.mpr ⟨e, he, rfl⟩)
    _ = rows.drop n := rfl

/-- The rows that are kept, as they stand. -/
def keptRows (s : Session) : List (String × Row) :=
  s.rows.items.filter fun e => decide (e.1 ∉ (older s.inOrder).map Prod.fst)

theorem orderedBy_keptRows (s : Session) :
    orderedBy (fun e : String × Row => e.2.timestamp) (keptRows s) = recent s.inOrder := by
  rw [keptRows, orderedBy_filter]
  exact filter_not_mem_take (nodup_inOrder s) _

/-- The summaries are inserted after the rows that are kept. -/
theorem items_compactSession (hlength : 6 ≤ s.history.length)
    (hfresh : Fresh c (arrive arrivals s)) : (compactSession c arrivals s).rows.items =
      keptRows (arrive arrivals s) ++ [systemRow c s, visibleRow c s] := by
  rw [compactSession, if_neg (by omega)]
  dsimp only
  have hgone : ∀ id, (arrive arrivals s).rows.get? id = none →
      (((older (arrive arrivals s).inOrder).map Prod.fst).foldl Dict.erase
        (arrive arrivals s).rows).get? id = none := by
    intro id hid
    rw [Dict.get?_foldl_erase]
    split
    · rfl
    · exact hid
  rw [Dict.items_set_of_get?_eq_none, Dict.items_set_of_get?_eq_none (hgone _ hfresh.system),
    Dict.items_foldl_erase, List.append_assoc]
  · rfl
  · rw [Dict.get?_set, if_neg hfresh.differ.symm]
    exact hgone _ hfresh.visible

/-- The summaries are the first rows exactly where the rows that are kept are later than them. -/
theorem inOrder_compactSession_iff (hlength : 6 ≤ s.history.length)
    (hfresh : Fresh c (arrive arrivals s)) (rest : List (String × Row)) :
    (compactSession c arrivals s).inOrder = systemRow c s :: visibleRow c s :: rest ↔
      (∀ e ∈ recent (arrive arrivals s).inOrder, c.now < e.2.timestamp) ∧
        rest = recent (arrive arrivals s).inOrder := by
  have hitems := items_compactSession hlength hfresh
  have hnodup : (keptRows (arrive arrivals s) ++ [systemRow c s, visibleRow c s]).Nodup := by
    rw [← hitems]
    exact List.Nodup.of_map Prod.fst (compactSession c arrivals s).rows.nodup
  have hkept := orderedBy_keptRows (arrive arrivals s)
  have hordered : (∀ e ∈ keptRows (arrive arrivals s), c.now < e.2.timestamp) →
      (compactSession c arrivals s).inOrder =
        [systemRow c s, visibleRow c s] ++ recent (arrive arrivals s).inOrder := by
    intro hlater
    rw [Session.inOrder, hitems, orderedBy_append_of_lt, hkept]
    · exact List.pairwise_pair.mpr (Nat.le_refl c.now)
    · intro e he summary hsummary
      rcases List.mem_cons.mp hsummary with rfl | hsummary
      · exact hlater e he
      · obtain rfl := List.mem_singleton.mp hsummary
        exact hlater e he
  have hmem : ∀ e, e ∈ recent (arrive arrivals s).inOrder ↔ e ∈ keptRows (arrive arrivals s) := by
    intro e
    rw [← hkept, mem_orderedBy]
  simp only [hmem]
  constructor
  · intro h
    have hfirst : orderedBy (fun e : String × Row => e.2.timestamp)
        (keptRows (arrive arrivals s) ++ [systemRow c s, visibleRow c s]) =
          systemRow c s :: visibleRow c s :: rest := by
      rw [← hitems]
      exact h
    have hlater := lt_of_orderedBy_eq_cons hnodup hfirst
    refine ⟨hlater, ?_⟩
    rw [hordered hlater] at h
    obtain ⟨-, hrest⟩ := List.cons.inj h
    exact (List.cons.inj hrest).2.symm
  · rintro ⟨hlater, rfl⟩
    exact hordered hlater

/-! ## Both copies -/

/-- Where the two copies agree, the last four rows are the last four messages. -/
theorem shows_recent (h : Agree s) : List.Forall₂ Shows (recent s.history) (recent s.inOrder) := by
  rw [recent, recent, ← h.length_eq]
  exact (List.forall₂_drop _ h).imp fun _ _ hm => hm.1

/-- With a clock that is not set back, the rows are never as intended. -/
theorem not_compacted_of_clock (hlength : 6 ≤ s.history.length)
    (hfresh : Fresh c (arrive arrivals s)) (hclock : ∀ e ∈ s.rows.items, e.2.timestamp ≤ c.now) :
    ¬ Compacted c arrivals s := by
  intro h
  obtain rfl := (memory_iff hlength).mp h.memory
  obtain ⟨rest, hinOrder, hshows⟩ := h.database
  obtain ⟨hlater, hrest⟩ := (inOrder_compactSession_iff hlength hfresh rest).mp hinOrder
  have hkept : (recent s.history).length = 4 := by
    rw [recent, List.length_drop, keepCount]
    omega
  have hsome : 0 < rest.length := by
    rw [← hshows.length_eq, List.length_append, hkept]
    omega
  obtain ⟨e, rows, rfl⟩ := List.exists_cons_of_length_pos hsome
  have he : e ∈ recent s.inOrder := hrest ▸ List.mem_cons_self
  have hlt := hlater e he
  have hle := hclock e (mem_orderedBy.mp (List.mem_of_mem_drop he))
  omega

/-- Both copies are as intended exactly where nothing came while the summary was awaited, the last
four rows are the last four messages, and the summaries are dated before them. -/
theorem compacted_iff (hlength : 6 ≤ s.history.length) (hfresh : Fresh c (arrive arrivals s)) :
    Compacted c arrivals s ↔
      arrivals = [] ∧ (∀ e ∈ recent s.inOrder, c.now < e.2.timestamp) ∧
        List.Forall₂ Shows (recent s.history) (recent s.inOrder) := by
  have hnone : arrived [] s = [] := List.drop_length
  constructor
  · intro h
    obtain rfl := (memory_iff hlength).mp h.memory
    obtain ⟨rest, hinOrder, hshows⟩ := h.database
    obtain ⟨hlater, rfl⟩ := (inOrder_compactSession_iff hlength hfresh rest).mp hinOrder
    rw [hnone, List.append_nil] at hshows
    exact ⟨rfl, hlater, hshows⟩
  · rintro ⟨rfl, hlater, hshows⟩
    refine ⟨(memory_iff hlength).mpr rfl, recent s.inOrder, ?_, ?_⟩
    · exact (inOrder_compactSession_iff hlength hfresh _).mpr ⟨hlater, rfl⟩
    · rw [hnone, List.append_nil]
      exact hshows

/-! ## Two compactions -/

/-- A session of six messages. -/
def sample : Session :=
  loaded ((List.range 6).foldl
    (fun rows n => rows.set (toString n) ⟨"user", toString n, none, 100 + n⟩) Dict.empty)

/-- A compaction at a time. -/
def compaction (now : ℕ) : Compaction := ⟨"They counted.", "s1", "s2", now⟩

theorem fresh_sample (now : ℕ) : Fresh (compaction now) (arrive [] sample) where
  differ := by show "s1" ≠ "s2"; decide
  system := rfl
  visible := rfl

/-- The clock was set back behind the messages that are kept. -/
theorem compacted_backdated : Compacted (compaction 50) [] sample := by
  refine (compacted_iff (by decide +kernel) (fresh_sample 50)).mpr ⟨rfl, ?_, ?_⟩
  · show ∀ e ∈ recent sample.inOrder, 50 < e.2.timestamp
    decide +kernel
  · exact shows_recent (agree_loaded _)

/-- The rows of the summaries are the last ones. -/
theorem not_compacted_sample : ¬ Compacted (compaction 200) [] sample := by
  refine not_compacted_of_clock (by decide +kernel) (fresh_sample 200) ?_
  show ∀ e ∈ sample.rows.items, e.2.timestamp ≤ 200
  decide +kernel

end Pandamonium.History
