import Pandamonium.Analysis.MemoryLinks

/-!
# Audits of the memories

An audit decides on the memories as they were before it waited, and marks them in the file as it is
afterwards, whatever has become of them: a memory that was deleted in between is superseded by an
approved one, and one that the reply rewrites twice gets two (`not_governs`).  When the memories
that the reply rewrites or leaves out are still approved, and none is rewritten twice, supersession
stays a set of chains and what is settled is left alone (`governs_of_auditCurrent`).
-/

set_option autoImplicit false

namespace Pandamonium.MemoryManager

open Pandamonium.Library

/-- What is not approved is left as it is, and no new entry supersedes it. -/
def SparesSettled (entries saved : List Entry) : Prop :=
  ∀ e ∈ entries, e.status ≠ .approved →
    e ∈ saved ∧ ∀ r ∈ saved, r.supersedes = some e.id → ∃ m ∈ entries, m.id = r.id

/-- No memory has two approved successors, and an audit that is finished now, by a step that is
admitted, spares what is not approved. -/
def Governs (sha256 : String → String) (ok : World → Label → Prop) (w : World) : Prop :=
  SingleSuccessor w.entries ∧
    ∀ n items now w', ok w (.reply n items now) → step sha256 w (.reply n items now) = some w' →
      SparesSettled w.entries w'.entries

/-- The memory that an item of the reply is about. -/
def named (originals : Dict String Entry) (item : Value × String) : Option String :=
  match readItem originals item.1 with
  | .about original _ _ => some original.id
  | _ => none

/-- The memory that an item of the reply changes. -/
def rewritten (originals : Dict String Entry) (item : Value × String) : Option String :=
  match readItem originals item.1 with
  | .about original text category =>
    if changes original text category then some original.id else none
  | _ => none

/-- The memories that the reply rewrites or leaves out are still approved. -/
def StillApproved (existing entries : List Entry) (items : List (Value × String)) : Prop :=
  ∀ original ∈ existing,
    original.id ∈ items.filterMap (rewritten (originalsOf existing)) ∨
      original.id ∉ items.filterMap (named (originalsOf existing)) →
    ∀ e ∈ entries, e.id = original.id → e.status = .approved

instance (existing entries : List Entry) (items : List (Value × String)) :
    Decidable (StillApproved existing entries items) :=
  inferInstanceAs (Decidable (∀ _ ∈ _, _))

/-- What the reply rewrites or leaves out is still approved, and nothing is rewritten twice. -/
def auditCurrent (w : World) : Label → Prop
  | .reply n items _ =>
    match w.audits.get? n with
    | none => True
    | some (_, existing) =>
      StillApproved existing w.entries items ∧
        (items.filterMap (rewritten (originalsOf existing))).Nodup
  | _ => True

instance : DecidableRel auditCurrent := by
  intro w label
  unfold auditCurrent
  split
  · split <;> infer_instance
  · infer_instance

/-! ## The loop over the items -/

/-- What the loop has collected of the items so far. -/
structure Collected (originals : Dict String Entry) (items : List (Value × String)) (s : Audit) :
    Prop where
  supersedes : s.replacements.map Entry.supersedes =
    (items.filterMap (rewritten originals)).map some
  ids : (s.replacements.map Entry.id).Sublist (items.map Prod.snd)
  returned : s.returnedIds = items.filterMap (named originals)
  transitions : ∀ mid, (∃ id, s.transitions.get? mid = some (.superseded id)) ↔
    mid ∈ items.filterMap (rewritten originals)
  superseded : ∀ mid, s.transitions.get? mid ≠ some .rejected

variable {originals : Dict String Entry} {now : Int}

theorem collected_nil (originals : Dict String Entry) : Collected originals []
    { finalEntries := [], replacements := [], transitions := Dict.empty, returnedIds := [] } where
  supersedes := rfl
  ids := List.Sublist.refl _
  returned := rfl
  transitions := by
    intro mid
    constructor
    · rintro ⟨id, hget⟩
      cases hget
    · intro hmem
      cases hmem
  superseded := nofun

theorem auditReplacement_eq_some {original replacement : Entry} {text drawn : String}
    {category : Value} (h : auditReplacement now original text category drawn = some replacement) :
    replacement.id = drawn ∧ replacement.supersedes = some original.id ∧
      replacement.status = .approved := by
  obtain ⟨e, hadd, rfl⟩ := Option.map_eq_some_iff.mp h
  exact addEntry_eq_some hadd

theorem Collected.item {items : List (Value × String)} {s s' : Audit}
    (h : Collected originals items s) {item : Value × String}
    (hitem : auditItem originals now s item = some s') :
    Collected originals (items ++ [item]) s' := by
  have hquiet : rewritten originals item = none →
      (items ++ [item]).filterMap (rewritten originals) = items.filterMap (rewritten originals) := by
    intro hnone
    simp [List.filterMap_append, hnone]
  unfold auditItem at hitem
  split at hitem
  · cases hitem
  · rename_i hread
    obtain rfl := Option.some.inj hitem
    have hrewritten : rewritten originals item = none := by simp only [rewritten, hread]
    have hnamed : named originals item = none := by simp only [named, hread]
    constructor
    case supersedes => rw [hquiet hrewritten, h.supersedes]
    case ids =>
      rw [List.map_append]
      exact h.ids.trans (List.sublist_append_left _ _)
    case returned => simp [List.filterMap_append, hnamed, h.returned]
    case transitions => rw [hquiet hrewritten]; exact h.transitions
    case superseded => exact h.superseded
  · rename_i original text category hread
    have hnamed : named originals item = some original.id := by simp only [named, hread]
    split at hitem
    · rename_i hchanges
      have hrewritten : rewritten originals item = some original.id := by
        simp only [rewritten, hread, if_pos hchanges]
      obtain ⟨replacement, hreplacement, rfl⟩ := Option.map_eq_some_iff.mp hitem
      obtain ⟨hid, hsupersedes, -⟩ := auditReplacement_eq_some hreplacement
      constructor
      case supersedes =>
        simp [List.filterMap_append, hrewritten, h.supersedes, hsupersedes]
      case ids =>
        rw [List.map_append, List.map_append, List.map_singleton, List.map_singleton, hid]
        exact h.ids.append (List.Sublist.refl _)
      case returned => simp [List.filterMap_append, hnamed, h.returned]
      case transitions =>
        intro mid
        simp only [Dict.get?_set, List.filterMap_append, List.mem_append]
        rw [← h.transitions mid]
        by_cases hmid : mid = original.id
        · simp [hmid, hrewritten]
        · simp [hmid, hrewritten]
      case superseded =>
        intro mid
        simp only [Dict.get?_set]
        split
        · exact nofun
        · exact h.superseded mid
    · rename_i hsame
      have hrewritten : rewritten originals item = none := by
        simp only [rewritten, hread, if_neg hsame]
      obtain rfl := Option.some.inj hitem
      constructor
      case supersedes => rw [hquiet hrewritten, h.supersedes]
      case ids =>
        rw [List.map_append]
        exact h.ids.trans (List.sublist_append_left _ _)
      case returned => simp [List.filterMap_append, hnamed, h.returned]
      case transitions => rw [hquiet hrewritten]; exact h.transitions
      case superseded => exact h.superseded

theorem Collected.items {done items : List (Value × String)} {s s' : Audit}
    (h : Collected originals done s)
    (hitems : items.foldlM (auditItem originals now) s = some s') :
    Collected originals (done ++ items) s' := by
  induction items generalizing done s with
  | nil =>
    obtain rfl := Option.some.inj hitems
    rwa [List.append_nil]
  | cons item items ih =>
    rw [List.foldlM_cons] at hitems
    obtain ⟨s₁, hitem, hrest⟩ := Option.bind_eq_some_iff.mp hitems
    rw [List.append_cons]
    exact ih (h.item hitem) hrest

/-! ## The snapshot -/

theorem originalsOf_get? {existing : List Entry} {mid : String} {original : Entry}
    (h : (originalsOf existing).get? mid = some original) :
    original ∈ existing ∧ original.id = mid := by
  rw [originalsOf, Dict.get?_foldl_keyed, show (Dict.empty : Dict String Entry).get? mid = none from
    rfl, Option.or_none] at h
  simpa using List.mem_of_getLast? h

theorem readItem_about {item : Value} {original : Entry} {text : String} {category : Value}
    (h : readItem originals item = .about original text category) :
    ∃ mid, originals.get? mid = some original := by
  unfold readItem at h
  split at h
  · split at h
    · split at h
      · cases h
      · split at h
        · rename_i mid hmid
          split at h
          · cases h
          · rename_i found hget
            cases h
            exact ⟨mid, hget⟩
        · cases h
        · cases h
        · cases h
    · cases h
  · cases h

/-- What an item changes is a memory that was given out, and the item is about it. -/
theorem rewritten_eq_some {existing : List Entry} {item : Value × String} {mid : String}
    (h : rewritten (originalsOf existing) item = some mid) :
    named (originalsOf existing) item = some mid ∧ ∃ original ∈ existing, original.id = mid := by
  unfold rewritten at h
  split at h
  · rename_i original text category hread
    obtain ⟨-, hid⟩ := Option.ite_none_right_eq_some.mp h
    obtain rfl := Option.some.inj hid
    obtain ⟨mid, hget⟩ := readItem_about hread
    exact ⟨by simp only [named, hread], original, (originalsOf_get? hget).1, rfl⟩
  · cases h

theorem mem_of_rewritten {existing : List Entry} {items : List (Value × String)} {mid : String}
    (h : mid ∈ items.filterMap (rewritten (originalsOf existing))) :
    mid ∈ items.filterMap (named (originalsOf existing)) ∧
      ∃ original ∈ existing, original.id = mid := by
  obtain ⟨item, hmem, hitem⟩ := List.mem_filterMap.mp h
  obtain ⟨hnamed, horiginal⟩ := rewritten_eq_some hitem
  exact ⟨List.mem_filterMap.mpr ⟨item, hmem, hnamed⟩, horiginal⟩

/-- The transitions when the missing memories are rejected. -/
theorem rejectMissing_get? (existing : List Entry) (s : Audit) (mid : String) :
    (rejectMissing existing s).get? mid =
      if (∃ e ∈ existing, e.id = mid) ∧ mid ∉ s.returnedIds then some .rejected
      else s.transitions.get? mid := by
  have hfold : ∀ (es : List Entry) (d : Dict String Transition),
      (es.foldl (fun d e => if e.id ∈ s.returnedIds then d else d.set e.id .rejected) d).get? mid =
        if (∃ e ∈ es, e.id = mid) ∧ mid ∉ s.returnedIds then some .rejected else d.get? mid := by
    intro es
    induction es with
    | nil => simp
    | cons e es ih =>
      intro d
      rw [List.foldl_cons, ih]
      by_cases hreturned : mid ∈ s.returnedIds
      · by_cases hid : e.id = mid
        · subst hid
          simp [hreturned]
        · by_cases he : e.id ∈ s.returnedIds
          · simp [hreturned, he]
          · simp [hreturned, he, Dict.get?_set, Ne.symm hid]
      · by_cases hid : e.id = mid
        · subst hid
          simp [hreturned]
        · by_cases he : e.id ∈ s.returnedIds
          · simp [hid, he]
          · simp [hid, he, Dict.get?_set, Ne.symm hid]
  exact hfold existing s.transitions

/-! ## Steps -/

/-- What has a transition is a memory that the reply rewrites or leaves out. -/
theorem marked_of_transition {existing : List Entry} {items : List (Value × String)} {s : Audit}
    (h : Collected (originalsOf existing) items s) {mid : String}
    (hget : (rejectMissing existing s).get? mid ≠ none) :
    (∃ original ∈ existing, original.id = mid) ∧
      (mid ∈ items.filterMap (rewritten (originalsOf existing)) ∨
        mid ∉ items.filterMap (named (originalsOf existing))) := by
  rw [rejectMissing_get?] at hget
  split at hget
  · rename_i hmissing
    rw [h.returned] at hmissing
    exact ⟨hmissing.1, Or.inr hmissing.2⟩
  · cases htransition : s.transitions.get? mid with
    | none => exact absurd htransition hget
    | some transition =>
      cases transition with
      | rejected => exact absurd htransition (h.superseded mid)
      | superseded id =>
        have hmem := (h.transitions mid).mp ⟨id, htransition⟩
        exact ⟨(mem_of_rewritten hmem).2, Or.inl hmem⟩

theorem transit_id (transitions : Dict String Transition) (e : Entry) :
    (transit now transitions e).id = e.id := by
  unfold transit
  split <;> rfl

theorem transit_supersedes (transitions : Dict String Transition) (e : Entry) :
    (transit now transitions e).supersedes = e.supersedes := by
  unfold transit
  split <;> rfl

/-- An entry with a transition is neither approved nor a candidate. -/
theorem transit_live {transitions : Dict String Transition} {e : Entry}
    (h : (transit now transitions e).live) : transitions.get? e.id = none := by
  unfold transit at h
  split at h
  · assumption
  · rcases h with h | h <;> cases h
  · rcases h with h | h <;> cases h

theorem transit_eq {transitions : Dict String Transition} {e : Entry}
    (h : transitions.get? e.id = none) : transit now transitions e = e := by
  simp only [transit, h]

section Reply

variable {existing entries : List Entry} {items : List (Value × String)} {s : Audit}

theorem StillApproved.transition (h : StillApproved existing entries items)
    (hs : Collected (originalsOf existing) items s) {e : Entry} (he : e ∈ entries)
    (hstatus : e.status ≠ .approved) : (rejectMissing existing s).get? e.id = none := by
  by_contra hget
  obtain ⟨⟨original, hmem, hid⟩, hmarked⟩ := marked_of_transition hs hget
  rw [← hid] at hmarked
  exact hstatus (h original hmem hmarked e he hid.symm)

/-- A replacement supersedes a memory that the reply rewrites. -/
theorem Collected.replacement (hs : Collected (originalsOf existing) items s) {r : Entry}
    (hr : r ∈ s.replacements) {a : String} (ha : r.supersedes = some a) :
    a ∈ items.filterMap (rewritten (originalsOf existing)) := by
  have hmem := List.mem_map_of_mem (f := Entry.supersedes) hr
  rw [hs.supersedes, ha] at hmem
  obtain ⟨b, hb, hsome⟩ := List.mem_map.mp hmem
  rwa [← Option.some.inj hsome]

variable (now) in
/-- A reply that fits the file is a succession. -/
theorem Collected.succession (hs : Collected (originalsOf existing) items s)
    (happroved : StillApproved existing entries items)
    (honce : (items.filterMap (rewritten (originalsOf existing))).Nodup)
    (hgiven : ∀ original ∈ existing, ∃ e ∈ entries, e.id = original.id) :
    Succession entries (transit now (rejectMissing existing s)) s.replacements where
  id := fun e _ => transit_id _ e
  supersedes := fun e _ => transit_supersedes _ e
  live := by
    intro e _ hlive
    rwa [transit_eq (transit_live hlive)] at hlive
  deleted := by
    intro e he hdeleted
    have hstatus : e.status ≠ .approved := by rw [hdeleted]; exact nofun
    rw [transit_eq (happroved.transition hs he hstatus), hdeleted]
  retired := by
    intro r hr a ha
    have hmem := hs.replacement hr ha
    obtain ⟨hnamed, original, horiginal, rfl⟩ := mem_of_rewritten hmem
    obtain ⟨e, he, hid⟩ := hgiven original horiginal
    refine ⟨e, he, hid, Or.inl (happroved original horiginal (Or.inl hmem) e he hid), ?_⟩
    intro hlive
    have hget := transit_live hlive
    rw [hid, rejectMissing_get?, hs.returned, if_neg fun hmissing => hmissing.2 hnamed] at hget
    obtain ⟨id, hsome⟩ := (hs.transitions original.id).mpr hmem
    rw [hget] at hsome
    cases hsome
  apart := by
    intro r hr r' hr' a ha ha'
    have hnodup : (s.replacements.map Entry.supersedes).Nodup := by
      rw [hs.supersedes]
      exact honce.map (Option.some_injective _)
    exact List.inj_on_of_nodup_map hnodup hr hr' (ha.trans ha'.symm)

/-- A reply that fits the file spares what is settled. -/
theorem Collected.spares (hs : Collected (originalsOf existing) items s)
    (happroved : StillApproved existing entries items) :
    SparesSettled entries
      (entries.map (transit now (rejectMissing existing s)) ++ s.replacements) := by
  intro e he hstatus
  have hnone := happroved.transition hs he hstatus
  constructor
  · apply List.mem_append_left
    have hmem := List.mem_map_of_mem (f := transit now (rejectMissing existing s)) he
    rwa [transit_eq hnone] at hmem
  · intro r hr hsupersedes
    rcases List.mem_append.mp hr with hr | hr
    · obtain ⟨m, hm, rfl⟩ := List.mem_map.mp hr
      exact ⟨m, hm, (transit_id _ m).symm⟩
    · have hmem := hs.replacement hr hsupersedes
      obtain ⟨-, original, horiginal, hid⟩ := mem_of_rewritten hmem
      rw [← hid] at hmem
      exact absurd (happroved original horiginal (Or.inl hmem) e he hid.symm) hstatus

end Reply

/-! ## The invariant -/

/-- The chains are kept, and an audit that waits has memories of the file. -/
structure Governed (w : World) : Prop where
  linked : Linked w.entries w.drawn
  given : ∀ n owner existing, w.audits.get? n = some (owner, existing) →
    ∀ original ∈ existing, ∃ e ∈ w.entries, e.id = original.id

theorem Governed.succession {w : World} (h : Governed w) {f : Entry → Entry}
    {added : List Entry} (hsucc : Succession w.entries f added) {drawn : List String}
    (hlinked : Linked (w.entries.map f ++ added) drawn) {audits : Dict ℕ (Option String × List Entry)}
    (haudits : ∀ n waiting, audits.get? n = some waiting → w.audits.get? n = some waiting)
    (tidy : Dict String String) :
    Governed { entries := w.entries.map f ++ added, tidy := tidy, drawn := drawn, audits := audits }
    where
  linked := hlinked
  given := by
    intro n owner existing hn original horiginal
    obtain ⟨e, he, hid⟩ := h.given n owner existing (haudits n _ hn) original horiginal
    exact ⟨f e, List.mem_append_left _ (List.mem_map_of_mem he), (hsucc.id e he).trans hid⟩

theorem get?_of_erase {audits : Dict ℕ (Option String × List Entry)} {n m : ℕ}
    {waiting : Option String × List Entry} (h : (audits.erase n).get? m = some waiting) :
    audits.get? m = some waiting := by
  rw [Dict.get?_erase] at h
  split at h
  · cases h
  · exact h

theorem Linked.drawing {entries : List Entry} {drawn : List String} (h : Linked entries drawn)
    (ids : List String) : Linked entries (ids ++ drawn) where
  distinct := h.distinct
  single := h.single
  ended := h.ended
  drawn := fun e he => ⟨List.mem_append_right _ (h.drawn e he).1,
    fun a ha => List.mem_append_right _ ((h.drawn e he).2 a ha)⟩

theorem Governed.operate {w : World} (h : Governed w) {r : Request}
    (hfresh : fresh [r.drawn] w.drawn) :
    Governed { w with
      entries := (r.apply w.entries).getD w.entries
      drawn := r.drawn :: w.drawn } := by
  cases hsaved : r.apply w.entries with
  | none => exact ⟨h.linked.drawing [r.drawn], h.given⟩
  | some saved =>
    have hlinked := h.linked.apply hfresh hsaved
    obtain ⟨f, added, rfl, hsucc, -⟩ := saves_of_apply h.linked hsaved
    exact h.succession hsucc hlinked (fun _ _ hn => hn) w.tidy

variable {sha256 : String → String}

theorem Governed.beginAudit {w : World} (h : Governed w) (n : ℕ) (owner : Option String) :
    Governed (beginAudit sha256 n owner w) := by
  unfold MemoryManager.beginAudit
  simp only
  split
  · exact h
  · split
    · exact h
    · split
      · exact h
      · refine ⟨h.linked, ?_⟩
        intro m owner' existing hm original horiginal
        rw [Dict.get?_set] at hm
        split at hm
        · obtain ⟨-, rfl⟩ := Prod.mk.inj (Option.some.inj hm)
          exact ⟨original, List.mem_of_mem_filter horiginal, rfl⟩
        · exact h.given m owner' existing hm original horiginal

theorem collected_of_auditItems {existing : List Entry} {items : List (Value × String)} {s : Audit}
    (h : auditItems existing now items = some s) : Collected (originalsOf existing) items s :=
  (collected_nil _).items h

theorem applyReply_eq_some {existing saved entries finalEntries : List Entry} {now : Int}
    {items : List (Value × String)}
    (h : applyReply existing now items entries = some (saved, finalEntries)) :
    ∃ s, auditItems existing now items = some s ∧
      ¬ unsafeRemoval existing.length s.finalEntries.length ∧
      saved = entries.map (transit now (rejectMissing existing s)) ++ s.replacements := by
  unfold applyReply at h
  split at h
  · cases h
  · rename_i s hitems
    obtain ⟨hsafe, h⟩ := Option.ite_none_left_eq_some.mp h
    obtain ⟨rfl, -⟩ := Prod.mk.inj (Option.some.inj h)
    exact ⟨s, hitems, hsafe, rfl⟩

section Finish

variable {w : World} {n : ℕ} {owner : Option String} {existing : List Entry}
  {items : List (Value × String)} {now : Int}

theorem Governed.finishAudit (h : Governed w) (hn : w.audits.get? n = some (owner, existing))
    (hfresh : fresh (items.map Prod.snd) w.drawn)
    (honce : (items.filterMap (rewritten (originalsOf existing))).Nodup)
    (happroved : StillApproved existing w.entries items) :
    Governed (finishAudit sha256 n owner existing items now w) := by
  unfold MemoryManager.finishAudit
  simp only
  split
  · exact ⟨h.linked.drawing _, fun m owner' existing' hm => h.given m owner' existing'
      (get?_of_erase hm)⟩
  · rename_i saved finalEntries hreply
    obtain ⟨s, hitems, -, rfl⟩ := applyReply_eq_some hreply
    have hs := collected_of_auditItems hitems
    have hsucc := hs.succession now happroved honce (h.given n owner existing hn)
    refine h.succession hsucc ?_ (fun _ _ => get?_of_erase) _
    refine h.linked.succession hsucc hfresh (hs.ids.nodup hfresh.1) ?_
    intro r hr
    exact hs.ids.subset (List.mem_map_of_mem hr)

theorem spares_finishAudit (happroved : StillApproved existing w.entries items) :
    SparesSettled w.entries (finishAudit sha256 n owner existing items now w).entries := by
  unfold finishAudit
  simp only
  split
  · exact fun e he _ => ⟨he, fun r hr _ => ⟨r, hr, rfl⟩⟩
  · rename_i saved finalEntries hreply
    obtain ⟨s, hitems, -, rfl⟩ := applyReply_eq_some hreply
    exact (collected_of_auditItems hitems).spares happroved

end Finish

theorem Governed.step {w w' : World} {label : Label} (h : Governed w)
    (hcurrent : auditCurrent w label) (hstep : step sha256 w label = some w') : Governed w' := by
  cases label with
  | operate r =>
    obtain ⟨hfresh, hw'⟩ := Option.ite_none_right_eq_some.mp hstep
    obtain rfl := Option.some.inj hw'
    exact h.operate hfresh
  | audit n owner =>
    obtain ⟨-, hw'⟩ := Option.ite_none_right_eq_some.mp hstep
    obtain rfl := Option.some.inj hw'
    exact h.beginAudit n owner
  | reply n items now =>
    simp only [MemoryManager.step] at hstep
    split at hstep
    · cases hstep
    · rename_i owner existing hn
      obtain ⟨hfresh, hw'⟩ := Option.ite_none_right_eq_some.mp hstep
      obtain rfl := Option.some.inj hw'
      simp only [auditCurrent, hn] at hcurrent
      exact h.finishAudit hn hfresh hcurrent.2 hcurrent.1
  | noReply n =>
    obtain ⟨-, hw'⟩ := Option.ite_none_right_eq_some.mp hstep
    obtain rfl := Option.some.inj hw'
    exact ⟨h.linked, fun m owner existing hm => h.given m owner existing (get?_of_erase hm)⟩

theorem spares_of_auditCurrent {w w' : World} {n : ℕ} {items : List (Value × String)} {now : Int}
    (hcurrent : auditCurrent w (.reply n items now))
    (hstep : step sha256 w (.reply n items now) = some w') : SparesSettled w.entries w'.entries := by
  simp only [step] at hstep
  split at hstep
  · cases hstep
  · rename_i owner existing hn
    obtain ⟨-, hw'⟩ := Option.ite_none_right_eq_some.mp hstep
    obtain rfl := Option.some.inj hw'
    simp only [auditCurrent, hn] at hcurrent
    exact spares_finishAudit hcurrent.1

/-- In every run in which the memories that a reply rewrites or leaves out are still approved, and
none is rewritten twice, no memory has two approved successors and audits spare what is settled. -/
theorem governs_of_auditCurrent {w : World}
    (hw : (audits sha256).ReachableWhere auditCurrent w) : Governs sha256 auditCurrent w := by
  have hgoverned : Governed w := by
    refine hw.invariant ?_ fun _ _ _ h hcurrent hstep => h.step hcurrent hstep
    intro w hstarted
    refine ⟨hstarted.linked, ?_⟩
    intro n owner existing hn
    rw [hstarted.audits n] at hn
    cases hn
  exact ⟨hgoverned.linked.singleSuccessor, fun _ _ _ _ hcurrent hstep =>
    spares_of_auditCurrent hcurrent hstep⟩

/-! ## Replies -/

def teaWorld : World where
  entries := [teaOnly]
  tidy := Dict.empty
  drawn := ["m1"]
  audits := Dict.empty

theorem started_teaWorld : Started teaWorld := ⟨linked_teaOnly, fun _ => rfl⟩

/-- An item that says something about the memory. -/
def stating (text : String) : Value := .dict [("id", .str "m1"), ("text", .str text)]

/-- The reply rewrites the memory. -/
def oneRewrite : List Label := [.audit 1 none, .reply 1 [(stating "Likes green tea", "m2")] 2000]

/-- The reply rewrites the memory twice. -/
def twoRewrites : List Label :=
  [.audit 1 none,
    .reply 1 [(stating "Likes green tea", "m2"), (stating "Likes black tea", "m3")] 2000]

/-- The memory is deleted while the audit waits. -/
def deletedMeanwhile : List Label :=
  [.audit 1 none,
    .operate
      { operation := .deleteEntry "m1" none "operator"
        now := 1500
        drawn := "m3" }]

theorem governs_oneRewrite : ∃ w, (audits id).exec auditCurrent teaWorld oneRewrite = some w ∧
    w.entries.map Entry.status = [.superseded, .approved] ∧ Governs id auditCurrent w := by
  obtain ⟨w, hw, hstatus⟩ := Option.map_eq_some_iff.mp
    (show ((audits id).exec auditCurrent teaWorld oneRewrite).map
      (fun w => w.entries.map Entry.status) = some [.superseded, .approved] by decide +kernel)
  exact ⟨w, hw, hstatus, governs_of_auditCurrent
    (TransitionSystem.reachableWhere_of_exec started_teaWorld hw)⟩

/-- Two approved memories supersede one. -/
theorem not_singleSuccessor_twoRewrites :
    ∃ w, (audits id).Reachable w ∧ ¬ SingleSuccessor w.entries := by
  obtain ⟨w, hw, hentries⟩ := TransitionSystem.exists_reachableWhere_of_exec (audits id)
    TransitionSystem.anyStep (fun w => w.entries.map fun e => (e.id, e.status, e.supersedes))
    twoRewrites (v := [("m1", .superseded, none), ("m2", .approved, some "m1"),
      ("m3", .approved, some "m1")]) started_teaWorld (by decide +kernel)
  refine ⟨w, hw, ?_⟩
  intro hsingle
  have hentry : ∀ id, (id, Status.approved, some "m1") ∈
      w.entries.map (fun e => (e.id, e.status, e.supersedes)) →
        ∃ e ∈ w.entries, e.id = id ∧ e.status = .approved ∧ Succeeds w.entries "m1" e.id := by
    intro id hmem
    obtain ⟨e, he, heq⟩ := List.mem_map.mp hmem
    obtain ⟨hid, hrest⟩ := Prod.mk.inj heq
    obtain ⟨hstatus, hsupersedes⟩ := Prod.mk.inj hrest
    exact ⟨e, he, hid, hstatus, .single ⟨e, he, rfl, hsupersedes⟩⟩
  obtain ⟨e, he, hid, hstatus, hsucceeds⟩ := hentry "m2" (by simp [hentries])
  obtain ⟨e', he', hid', hstatus', hsucceeds'⟩ := hentry "m3" (by simp [hentries])
  have heq := hsingle "m1" e he e' he' hstatus hstatus' hsucceeds hsucceeds'
  rw [heq, hid'] at hid
  exact absurd hid (by decide)

/-- The memory that was deleted is superseded by an approved one. -/
theorem not_sparesSettled_deletedMeanwhile : ∃ w, (audits id).Reachable w ∧
    ∃ w', step id w (.reply 1 [(stating "Likes green tea", "m2")] 2000) = some w' ∧
      ¬ SparesSettled w.entries w'.entries := by
  obtain ⟨w, hrun, hstep⟩ := Option.bind_eq_some_iff.mp
    (show (((audits id).exec TransitionSystem.anyStep teaWorld deletedMeanwhile).bind fun w =>
      (step id w (.reply 1 [(stating "Likes green tea", "m2")] 2000)).map fun w' =>
        (w.entries.map fun e => (e.id, e.status), w'.entries.map fun e => (e.id, e.status))) =
      some ([("m1", .deleted)], [("m1", .superseded), ("m2", .approved)]) by decide +kernel)
  obtain ⟨w', hw', heq⟩ := Option.map_eq_some_iff.mp hstep
  obtain ⟨hbefore, hafter⟩ := Prod.mk.inj heq
  refine ⟨w, TransitionSystem.reachableWhere_of_exec started_teaWorld hrun, w', hw', ?_⟩
  intro hspares
  obtain ⟨e, he, heq⟩ : ∃ e ∈ w.entries, (e.id, e.status) = ("m1", .deleted) := by
    apply List.mem_map.mp
    rw [hbefore]
    exact List.mem_singleton_self _
  obtain ⟨-, hstatus⟩ := Prod.mk.inj heq
  obtain ⟨hkept, -⟩ := hspares e he (by rw [hstatus]; exact nofun)
  have hmem := List.mem_map_of_mem (f := fun e => (e.id, e.status)) hkept
  rw [hafter, heq] at hmem
  exact absurd hmem (by decide)

/-- A reply that rewrites a memory twice, and one that comes after a deletion. -/
theorem not_governs : (∃ w, (audits id).Reachable w ∧ ¬ SingleSuccessor w.entries) ∧
    ∃ w, (audits id).Reachable w ∧ ¬ Governs id TransitionSystem.anyStep w := by
  refine ⟨not_singleSuccessor_twoRewrites, ?_⟩
  obtain ⟨w, hw, w', hstep, hnot⟩ := not_sparesSettled_deletedMeanwhile
  exact ⟨w, hw, fun h => hnot (h.2 _ _ _ w' trivial hstep)⟩

end Pandamonium.MemoryManager
