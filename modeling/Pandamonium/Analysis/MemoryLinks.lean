import Pandamonium.Model.MemoryAudit

/-!
# What an operation does to the memories

Every operation changes entries in their places and adds new ones behind.  It keeps identifiers and
what is superseded, brings no memory back that is neither approved nor a candidate, and a new entry
supersedes only what it retires (`Succession`).  So supersession stays a set of chains, of which
only the last memory can be approved (`Linked.succession`, `Linked.singleSuccessor`).
-/

set_option autoImplicit false

namespace Pandamonium.MemoryManager

/-- A memory that is approved or may be. -/
def Entry.live (e : Entry) : Prop := e.status = .approved ∨ e.status = .candidate

/-- A memory supersedes another, directly or through others. -/
def Succeeds (entries : List Entry) : String → String → Prop :=
  Relation.TransGen fun a b => ∃ e ∈ entries, e.id = b ∧ e.supersedes = some a

/-- Each memory has at most one approved successor. -/
def SingleSuccessor (entries : List Entry) : Prop :=
  ∀ id, ∀ e ∈ entries, ∀ e' ∈ entries, e.status = .approved → e'.status = .approved →
    Succeeds entries id e.id → Succeeds entries id e'.id → e = e'

section Linked

variable {entries : List Entry} {drawn : List String}

theorem Linked.eq_of_id (h : Linked entries drawn) {e e' : Entry} (he : e ∈ entries)
    (he' : e' ∈ entries) (hid : e.id = e'.id) : e = e' :=
  List.inj_on_of_nodup_map h.distinct he he' hid

/-- The approved memories behind one memory are at the end of the one chain that starts there. -/
theorem Linked.singleSuccessor (h : Linked entries drawn) : SingleSuccessor entries := by
  intro id e he e' he' hstatus hstatus' hsucceeds hsucceeds'
  have hunique : Relator.RightUnique fun a b => ∃ e ∈ entries, e.id = b ∧ e.supersedes = some a := by
    rintro a b c ⟨eb, heb, rfl, hb⟩ ⟨ec, hec, rfl, hc⟩
    rw [h.single eb heb ec hec a hb hc]
  have hlast : ∀ m ∈ entries, m.status = .approved → ∀ c,
      Relation.ReflTransGen (fun a b => ∃ e ∈ entries, e.id = b ∧ e.supersedes = some a) m.id c →
        c = m.id := by
    intro m hm hm' c hc
    rcases Relation.ReflTransGen.cases_head hc with heq | ⟨b, ⟨eb, heb, -, hb⟩, -⟩
    · exact heq.symm
    · exact absurd hm' (h.ended eb heb m hm hb).1
  rcases Relation.ReflTransGen.total_of_right_unique hunique hsucceeds.to_reflTransGen
    hsucceeds'.to_reflTransGen with hle | hle
  · exact (h.eq_of_id he' he (hlast e he hstatus _ hle)).symm
  · exact h.eq_of_id he he' (hlast e' he' hstatus' _ hle)

end Linked

/-- Entries are changed in their places, and others are added. -/
structure Succession (entries : List Entry) (f : Entry → Entry) (added : List Entry) : Prop where
  id : ∀ e ∈ entries, (f e).id = e.id
  supersedes : ∀ e ∈ entries, (f e).supersedes = e.supersedes
  live : ∀ e ∈ entries, (f e).live → e.live
  deleted : ∀ e ∈ entries, e.status = .deleted → (f e).status = .deleted
  retired : ∀ r ∈ added, ∀ a, r.supersedes = some a → ∃ e ∈ entries, e.id = a ∧ e.live ∧
    ¬ (f e).live
  apart : ∀ r ∈ added, ∀ r' ∈ added, ∀ a, r.supersedes = some a → r'.supersedes = some a → r = r'

variable {f : Entry → Entry} {r : Request}

/-- A succession with new identifiers keeps the chains. -/
theorem Linked.succession {entries added : List Entry} {drawn ids : List String}
    (h : Linked entries drawn) (hsucc : Succession entries f added) (hids : fresh ids drawn)
    (hadded : (added.map Entry.id).Nodup) (hsub : ∀ r ∈ added, r.id ∈ ids) :
    Linked (entries.map f ++ added) (ids ++ drawn) := by
  have hkept : (entries.map f).map Entry.id = entries.map Entry.id := by
    rw [List.map_map]
    exact List.map_congr_left hsucc.id
  have hnew : ∀ r ∈ added, ∀ e ∈ entries, e.id ≠ r.id := by
    intro r hr e he heq
    exact hids.2 r.id (hsub r hr) (heq ▸ (h.drawn e he).1)
  -- an old entry supersedes nothing that a new one does, and no new entry
  have hold : ∀ e ∈ entries, ∀ r ∈ added, ∀ a, e.supersedes = some a → r.supersedes ≠ some a := by
    intro e he r hr a ha hra
    obtain ⟨e', he', rfl, hlive, -⟩ := hsucc.retired r hr a hra
    obtain ⟨happroved, hcandidate⟩ := h.ended e he e' he' ha
    rcases hlive with hlive | hlive
    · exact happroved hlive
    · exact hcandidate hlive
  have hunseen : ∀ e ∈ entries, ∀ r ∈ added, e.supersedes ≠ some r.id := by
    intro e he r hr heq
    exact hids.2 r.id (hsub r hr) ((h.drawn e he).2 r.id heq)
  constructor
  case distinct =>
    rw [List.map_append, hkept, List.nodup_append]
    refine ⟨h.distinct, hadded, ?_⟩
    intro a ha b hb
    obtain ⟨e, he, rfl⟩ := List.mem_map.mp ha
    obtain ⟨r, hr, rfl⟩ := List.mem_map.mp hb
    exact hnew r hr e he
  case single =>
    intro e he e' he' a ha ha'
    rcases List.mem_append.mp he with he | he <;> rcases List.mem_append.mp he' with he' | he'
    · obtain ⟨m, hm, rfl⟩ := List.mem_map.mp he
      obtain ⟨m', hm', rfl⟩ := List.mem_map.mp he'
      rw [hsucc.supersedes m hm] at ha
      rw [hsucc.supersedes m' hm'] at ha'
      rw [h.single m hm m' hm' a ha ha']
    · obtain ⟨m, hm, rfl⟩ := List.mem_map.mp he
      rw [hsucc.supersedes m hm] at ha
      exact absurd ha' (hold m hm e' he' a ha)
    · obtain ⟨m', hm', rfl⟩ := List.mem_map.mp he'
      rw [hsucc.supersedes m' hm'] at ha'
      exact absurd ha (hold m' hm' e he a ha')
    · exact hsucc.apart e he e' he' a ha ha'
  case ended =>
    intro e he e' he' heq
    rcases List.mem_append.mp he' with he' | he'
    · obtain ⟨m', hm', rfl⟩ := List.mem_map.mp he'
      rw [hsucc.id m' hm'] at heq
      apply not_or.mp
      rcases List.mem_append.mp he with he | he
      · obtain ⟨m, hm, rfl⟩ := List.mem_map.mp he
        rw [hsucc.supersedes m hm] at heq
        obtain ⟨happroved, hcandidate⟩ := h.ended m hm m' hm' heq
        intro hlive
        rcases hsucc.live m' hm' hlive with hlive | hlive
        · exact happroved hlive
        · exact hcandidate hlive
      · obtain ⟨m, hm, hid, -, hnot⟩ := hsucc.retired e he m'.id heq
        rwa [← h.eq_of_id hm hm' hid]
    · rcases List.mem_append.mp he with he | he
      · obtain ⟨m, hm, rfl⟩ := List.mem_map.mp he
        rw [hsucc.supersedes m hm] at heq
        exact absurd heq (hunseen m hm e' he')
      · obtain ⟨m, hm, hid, -⟩ := hsucc.retired e he e'.id heq
        exact absurd hid (hnew e' he' m hm)
  case drawn =>
    intro e he
    rcases List.mem_append.mp he with he | he
    · obtain ⟨m, hm, rfl⟩ := List.mem_map.mp he
      obtain ⟨hid, hsup⟩ := h.drawn m hm
      rw [hsucc.id m hm, hsucc.supersedes m hm]
      exact ⟨List.mem_append_right _ hid, fun a ha => List.mem_append_right _ (hsup a ha)⟩
    · refine ⟨List.mem_append_left _ (hsub e he), ?_⟩
      intro a ha
      obtain ⟨m, hm, rfl, -⟩ := hsucc.retired e he a ha
      exact List.mem_append_right _ (h.drawn m hm).1

/-! ## Operations -/

/-- The entry with an identifier is changed. -/
def changeAt (memoryId : String) (f : Entry → Entry) (e : Entry) : Entry :=
  if e.id = memoryId then f e else e

theorem amend_eq_map {entries : List Entry} (hdistinct : (entries.map Entry.id).Nodup)
    (memoryId : String) (f : Entry → Entry) :
    amend memoryId f entries = entries.map (changeAt memoryId f) := by
  induction entries with
  | nil => rfl
  | cons e entries ih =>
    obtain ⟨hnot, hrest⟩ := List.nodup_cons.mp hdistinct
    rw [amend, List.map_cons]
    by_cases hid : e.id = memoryId
    · have hothers : ∀ m ∈ entries, changeAt memoryId f m = id m := by
        intro m hm
        have hne : m.id ≠ memoryId := by
          rintro rfl
          exact hnot (hid ▸ List.mem_map_of_mem hm)
        rw [changeAt, if_neg hne, id]
      rw [if_pos hid, List.map_congr_left hothers, List.map_id, changeAt, if_pos hid]
    · rw [if_neg hid, ih hrest, changeAt, if_neg hid]

theorem look_eq_some {memoryId : String} {entries : List Entry} {e : Entry}
    (h : look memoryId entries = some e) : e ∈ entries ∧ e.id = memoryId := by
  unfold look at h
  exact ⟨List.mem_of_find?_eq_some h, by simpa using List.find?_some h⟩

section Operations

variable {entries saved : List Entry} {drawn : List String} {memoryId : String}

/-- What holds of the entry that is changed and of entries that are not holds of all. -/
theorem Linked.changeAt (h : Linked entries drawn) {target : Entry}
    (hlook : look memoryId entries = some target) {P : Entry → Entry → Prop} (hother : ∀ e, P e e)
    (htarget : P target (f target)) :
    ∀ e ∈ entries, P e (MemoryManager.changeAt memoryId f e) := by
  obtain ⟨hmem, hid⟩ := look_eq_some hlook
  intro e he
  unfold MemoryManager.changeAt
  split
  · rename_i heq
    rwa [h.eq_of_id he hmem (heq.trans hid.symm)]
  · exact hother e

theorem Succession.change (hid : ∀ e ∈ entries, (f e).id = e.id)
    (hsupersedes : ∀ e ∈ entries, (f e).supersedes = e.supersedes)
    (hlive : ∀ e ∈ entries, (f e).live → e.live)
    (hdeleted : ∀ e ∈ entries, e.status = .deleted → (f e).status = .deleted) :
    Succession entries f [] where
  id := hid
  supersedes := hsupersedes
  live := hlive
  deleted := hdeleted
  retired := fun _ hr => absurd hr List.not_mem_nil
  apart := fun _ hr => absurd hr List.not_mem_nil

theorem Succession.changeAt (h : Linked entries drawn) {target : Entry}
    (hlook : look memoryId entries = some target) (hid : (f target).id = target.id)
    (hsupersedes : (f target).supersedes = target.supersedes)
    (hlive : (f target).live → target.live)
    (hdeleted : target.status = .deleted → (f target).status = .deleted) :
    Succession entries (MemoryManager.changeAt memoryId f) [] :=
  .change (h.changeAt (P := fun e e' => e'.id = e.id) hlook (fun _ => rfl) hid)
    (h.changeAt (P := fun e e' => e'.supersedes = e.supersedes) hlook (fun _ => rfl) hsupersedes)
    (h.changeAt (P := fun e e' => e'.live → e.live) hlook (fun _ hlive => hlive) hlive)
    (h.changeAt (P := fun e e' => e.status = .deleted → e'.status = .deleted) hlook
      (fun _ hdeleted => hdeleted) hdeleted)

/-- An entry that supersedes nothing is added. -/
theorem Succession.add (h : Succession entries f []) {r : Entry} (hr : r.supersedes = none) :
    Succession entries f [r] where
  id := h.id
  supersedes := h.supersedes
  live := h.live
  deleted := h.deleted
  retired := by
    intro r' hr' a ha
    obtain rfl := List.mem_singleton.mp hr'
    rw [hr] at ha
    cases ha
  apart := by
    intro r' hr' r'' hr'' _ _ _
    rw [List.mem_singleton.mp hr', List.mem_singleton.mp hr'']

/-- What an operation saves: entries changed in their places, and at most one added, with the
identifier that was drawn. -/
def Saves (r : Request) (entries saved : List Entry) : Prop :=
  ∃ f added, saved = entries.map f ++ added ∧ Succession entries f added ∧
    (added = [] ∨ ∃ e, added = [e] ∧ e.id = r.drawn)

theorem saves_change (h : Succession entries f []) :
    Saves r entries (entries.map f) :=
  ⟨f, [], (List.append_nil _).symm, h, Or.inl rfl⟩

theorem addEntry_eq_some {d : Draft} {now : Int} {e : Entry}
    (h : addEntry d now memoryId = some e) :
    e.id = memoryId ∧ e.supersedes = d.supersedes ∧ e.status = d.status := by
  unfold addEntry at h
  split at h
  · cases h
  · obtain rfl := Option.some.inj h
    exact ⟨rfl, rfl, rfl⟩

theorem saves_replaceEntry (h : Linked entries drawn) {text : String}
    {owner category : Option String} {admittedBy : String}
    (hsaved : replaceEntry memoryId text owner category admittedBy r.now r.drawn entries =
      some saved) :
    Saves r entries saved := by
  unfold replaceEntry at hsaved
  split at hsaved
  · cases hsaved
  · rename_i original hlook
    obtain ⟨happroved, hsaved⟩ := Option.ite_none_left_eq_some.mp hsaved
    obtain ⟨-, hsaved⟩ := Option.ite_none_left_eq_some.mp hsaved
    obtain ⟨replacement, hadd, rfl⟩ := Option.map_eq_some_iff.mp hsaved
    obtain ⟨hid, hsupersedes, -⟩ := addEntry_eq_some hadd
    obtain ⟨hmem, rfl⟩ := look_eq_some hlook
    have happroved := not_not.mp happroved
    have hdead : ¬ (supersededBy r.drawn r.now original).live := by
      rintro (hstatus | hstatus) <;> cases hstatus
    have hchange : Succession entries (changeAt original.id (supersededBy r.drawn r.now)) [] :=
      .changeAt h hlook rfl rfl (fun _ => Or.inl happroved) fun hdeleted =>
        absurd (happroved.symm.trans hdeleted) nofun
    rw [amend_eq_map h.distinct]
    refine ⟨_, [inherit original replacement], rfl, ?_, Or.inr ⟨_, rfl, hid⟩⟩
    refine ⟨hchange.id, hchange.supersedes, hchange.live, hchange.deleted, ?_, ?_⟩
    · intro r' hr' a ha
      obtain rfl := List.mem_singleton.mp hr'
      obtain rfl := Option.some.inj (hsupersedes.symm.trans ha)
      refine ⟨original, hmem, rfl, Or.inl happroved, ?_⟩
      rwa [changeAt, if_pos rfl]
    · intro r' hr' r'' hr'' _ _ _
      rw [List.mem_singleton.mp hr', List.mem_singleton.mp hr'']

theorem saves_deleteEntry (h : Linked entries drawn) {owner : Option String} {deletedBy : String}
    (hsaved : deleteEntry memoryId owner deletedBy r.now entries = some saved) :
    Saves r entries saved := by
  unfold deleteEntry at hsaved
  split at hsaved
  · cases hsaved
  · rename_i target hlook
    obtain ⟨-, hsaved⟩ := Option.ite_none_left_eq_some.mp hsaved
    obtain ⟨-, hsaved⟩ := Option.ite_none_left_eq_some.mp hsaved
    obtain rfl := Option.some.inj hsaved
    rw [amend_eq_map h.distinct]
    refine saves_change (.changeAt h hlook rfl rfl ?_ fun _ => rfl)
    rintro (hstatus | hstatus) <;> cases hstatus

theorem saves_decideCandidate (h : Linked entries drawn) {owner : Option String} {approve : Bool}
    {decidedBy : String}
    (hsaved : decideCandidate memoryId owner approve decidedBy r.now entries = some saved) :
    Saves r entries saved := by
  unfold decideCandidate at hsaved
  split at hsaved
  · cases hsaved
  · rename_i target hlook
    obtain ⟨hcandidate, hsaved⟩ := Option.ite_none_left_eq_some.mp hsaved
    obtain ⟨-, hsaved⟩ := Option.ite_none_left_eq_some.mp hsaved
    obtain rfl := Option.some.inj hsaved
    have hcandidate := not_not.mp hcandidate
    rw [amend_eq_map h.distinct]
    exact saves_change (.changeAt h hlook rfl rfl (fun _ => Or.inr hcandidate) fun hdeleted =>
      absurd (hcandidate.symm.trans hdeleted) nofun)

theorem saves_pinMemory (h : Linked entries drawn) {user : Option String} {pinned : Bool}
    (hsaved : pinMemory memoryId user pinned entries = some saved) :
    Saves r entries saved := by
  unfold pinMemory at hsaved
  split at hsaved
  · cases hsaved
  · rename_i target hlook
    obtain ⟨-, hsaved⟩ := Option.ite_none_left_eq_some.mp hsaved
    obtain rfl := Option.some.inj hsaved
    rw [amend_eq_map h.distinct]
    exact saves_change (.changeAt h hlook rfl rfl id id)

/-- An operation that changes what no status depends on, in the entries of a kind. -/
theorem saves_map {p : Entry → Prop} [DecidablePred p] (hid : ∀ e, (f e).id = e.id)
    (hsupersedes : ∀ e, (f e).supersedes = e.supersedes) (hstatus : ∀ e, (f e).status = e.status) :
    Saves r entries (entries.map fun e => if p e then f e else e) := by
  refine saves_change (.change ?_ ?_ ?_ ?_) <;> intro e _ <;> split
  · exact hid e
  · rfl
  · exact hsupersedes e
  · rfl
  · rw [Entry.live, hstatus e]
    exact id
  · exact id
  · rw [hstatus e]
    exact id
  · exact id

theorem saves_addMemory {text source category : String} {owner : Option String} {more : Object}
    (hsaved : addMemory text source category owner more r.now r.drawn entries = some saved) :
    Saves r entries saved := by
  obtain ⟨e, hadd, rfl⟩ := Option.map_eq_some_iff.mp hsaved
  obtain ⟨hid, hsupersedes, -⟩ := addEntry_eq_some hadd
  have hsame : Succession entries id [] :=
    .change (fun _ _ => rfl) (fun _ _ => rfl) (fun _ _ => id) (fun _ _ => id)
  refine ⟨id, [{ e with fields := e.fields ++ more }], ?_, hsame.add hsupersedes,
    Or.inr ⟨_, rfl, hid⟩⟩
  rw [List.map_id]

theorem saves_of_apply (h : Linked entries drawn) (hsaved : r.apply entries = some saved) :
    Saves r entries saved := by
  cases r with
  | mk operation now id =>
    cases operation with
    | replaceEntry => exact saves_replaceEntry h hsaved
    | deleteEntry => exact saves_deleteEntry h hsaved
    | decideCandidate => exact saves_decideCandidate h hsaved
    | incrementUses ids =>
      obtain ⟨-, hsaved⟩ := Option.ite_none_right_eq_some.mp hsaved
      obtain rfl := Option.some.inj hsaved
      exact saves_map (fun _ => rfl) (fun _ => rfl) fun _ => rfl
    | claimOwnerless owner =>
      obtain ⟨-, hsaved⟩ := Option.ite_none_right_eq_some.mp hsaved
      obtain rfl := Option.some.inj hsaved
      exact saves_map (fun _ => rfl) (fun _ => rfl) fun _ => rfl
    | pinMemory => exact saves_pinMemory h hsaved
    | addMemory => exact saves_addMemory hsaved

/-- An operation with a new identifier keeps the chains. -/
theorem Linked.apply (h : Linked entries drawn) (hfresh : fresh [r.drawn] drawn)
    (hsaved : r.apply entries = some saved) : Linked saved (r.drawn :: drawn) := by
  obtain ⟨f, added, rfl, hsucc, hadded⟩ := saves_of_apply h hsaved
  rcases hadded with rfl | ⟨e, rfl, hid⟩
  · exact h.succession hsucc hfresh List.nodup_nil fun _ hr => absurd hr List.not_mem_nil
  · refine h.succession hsucc hfresh (List.nodup_singleton _) ?_
    intro r' hr'
    rw [List.mem_singleton.mp hr', hid]
    exact List.mem_singleton_self _

end Operations

/-! ## A file with one memory -/

/-- An approved memory. -/
def teaOnly : Entry where
  id := "m1"
  text := "Likes tea"
  category := .str "preference"
  uses := 0
  status := .approved
  supersedes := none
  confidence := some 1
  owner := some "mira"
  fields := [("source", .str "user")]

theorem linked_teaOnly : Linked [teaOnly] ["m1"] where
  distinct := List.nodup_singleton _
  single := by
    intro e he _ _ a ha
    obtain rfl := List.mem_singleton.mp he
    cases ha
  ended := by
    intro e he _ _ ha
    obtain rfl := List.mem_singleton.mp he
    cases ha
  drawn := by
    intro e he
    obtain rfl := List.mem_singleton.mp he
    exact ⟨List.mem_singleton_self _, nofun⟩

end Pandamonium.MemoryManager
