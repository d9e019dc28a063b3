import Pandamonium.Model.OperationalProtocol

/-!
# The chain of component versions

Whatever is promoted and rolled back, the records of a component in the order in which they were
active are a list that only grows.  Each of them names the one before it, and no id is used twice.
-/

set_option autoImplicit false

namespace Pandamonium.Operational

open Pandamonium.Library

/-- The records of a slot in the order in which they were active. -/
def Slot.lineage (slot : Slot) : List VersionRecord := slot.history ++ slot.active.toList

/-- What stays of a record when another one becomes active. -/
def VersionRecord.recorded (r : VersionRecord) : VersionRecord := { r with status := .active }

/-- Each record names the one in front of it, and the first one none. -/
def Chained (records : List VersionRecord) : Prop :=
  ∀ before r after, records = before ++ r :: after →
    r.previousRecordId = before.getLast?.map VersionRecord.recordId

/-- What holds of the registry in every state. -/
structure Lawful (state : Registry) : Prop where
  active : ∀ c slot, state.get? c = some slot → ∃ a, slot.active = some a
  chained : ∀ c slot, state.get? c = some slot → Chained slot.lineage
  unique : ∀ c slot, state.get? c = some slot →
    (slot.lineage.map VersionRecord.recordId).Nodup
  apart : ∀ c c' slot slot', c ≠ c' → state.get? c = some slot → state.get? c' = some slot' →
    ∀ r ∈ slot.lineage, ∀ r' ∈ slot'.lineage, r.recordId ≠ r'.recordId

/-- The slot has the same past and may have a longer one. -/
structure Slot.Continues (slot slot' : Slot) : Prop where
  history : slot.history <+: slot'.history
  lineage : slot.lineage.map VersionRecord.recorded <+: slot'.lineage.map VersionRecord.recorded

/-- Each component has the same past and may have a longer one. -/
def Continues (state state' : Registry) : Prop := state.Carries Slot.Continues state'

/-- The version and the configuration of the target are active again under a new id, and the record
that was active has been added to the history; the other components are as they were. -/
def Restores (state next : Registry) (component targetRecordId recordId : String) : Prop :=
  ∀ slot target, state.get? component = some slot → target ∈ slot.lineage →
    target.recordId = targetRecordId →
    ∃ slot' a current, next.get? component = some slot' ∧ slot'.active = some a ∧
      slot.active = some current ∧
      a.configuration = target.configuration ∧ a.version = target.version ∧
      a.configurationFingerprint = target.configurationFingerprint ∧
      a.recordId = recordId ∧ a.previousRecordId = some current.recordId ∧
      slot'.history = slot.history ++ [{ current with status := .rolledBack }] ∧
      ∀ c, c ≠ component → next.get? c = state.get? c

/-! ## Lists of records -/

variable {r : VersionRecord} {c : String}

theorem Chained.concat {records : List VersionRecord} (h : Chained records)
    (hr : r.previousRecordId = records.getLast?.map VersionRecord.recordId) :
    Chained (records ++ [r]) := by
  intro before x after hsplit
  rcases List.eq_nil_or_concat after with rfl | ⟨after', last, rfl⟩
  · obtain ⟨rfl, hx⟩ := List.append_inj' hsplit rfl
    simp only [List.cons.injEq, and_true] at hx
    subst hx
    exact hr
  · rw [List.concat_eq_append, ← List.cons_append, ← List.append_assoc] at hsplit
    exact h before x after' (List.append_inj' hsplit rfl).1

theorem chained_of_recorded {records records' : List VersionRecord} (h : Chained records)
    (hsame : records'.map VersionRecord.recorded = records.map VersionRecord.recorded) :
    Chained records' := by
  intro before r after hsplit
  rw [hsplit, List.map_append, List.map_cons] at hsame
  obtain ⟨before₀, rest, hrecords, hbefore, hrest⟩ := List.map_eq_append_iff.mp hsame.symm
  obtain ⟨r₀, after₀, rfl, hr, -⟩ := List.map_eq_cons_iff.mp hrest
  have hprevious : r.previousRecordId = r₀.previousRecordId :=
    (congrArg VersionRecord.previousRecordId hr).symm
  have hids : before.map VersionRecord.recordId = before₀.map VersionRecord.recordId := by
    have := congrArg (List.map VersionRecord.recordId) hbefore
    rw [List.map_map, List.map_map] at this
    exact this.symm
  rw [hprevious, h before₀ r₀ after₀ hrecords, ← List.getLast?_map, ← List.getLast?_map, hids]

theorem map_recordId_of_recorded {records records' : List VersionRecord}
    (hsame : records'.map VersionRecord.recorded = records.map VersionRecord.recorded) :
    records'.map VersionRecord.recordId = records.map VersionRecord.recordId := by
  have := congrArg (List.map VersionRecord.recordId) hsame
  rw [List.map_map, List.map_map] at this
  exact this

theorem mem_recordIds {state : Registry} {recordId : String} :
    recordId ∈ recordIds state ↔
      ∃ c slot, state.get? c = some slot ∧ recordId ∈ slot.lineage.map VersionRecord.recordId := by
  have hsame (slot : Slot) : recordId ∈ slot.candidates.map VersionRecord.recordId ↔
      recordId ∈ slot.lineage.map VersionRecord.recordId := by
    simp only [Slot.candidates, Slot.lineage, List.map_append, List.mem_append, or_comm]
  simp only [recordIds, List.mem_flatMap, Dict.mem_values_iff, hsame]
  constructor
  · rintro ⟨slot, ⟨c, hc⟩, hmem⟩
    exact ⟨c, slot, hc, hmem⟩
  · rintro ⟨c, slot, hc, hmem⟩
    exact ⟨slot, ⟨c, hc⟩, hmem⟩

/-! ## What a call does -/

/-- A record becomes active in front of the past of its component. -/
structure Activates (state next : Registry) (c : String) (r : VersionRecord)
    (history : List VersionRecord) : Prop where
  written : next = state.set c ⟨some r, history⟩
  grown : (slotOf state c).history <+: history
  past : history.map VersionRecord.recorded =
    (slotOf state c).lineage.map VersionRecord.recorded
  previous : r.previousRecordId = (slotOf state c).active.map VersionRecord.recordId

theorem activates_promote (redact : Object → Object) (sha256 : Object → String)
    (state : Registry) (p : Promotion) (recordId : String) (now : ℕ) :
    ∃ history, Activates state (promote redact sha256 state p recordId now) p.component
      (newRecord redact sha256 p (slotOf state p.component).active recordId now) history := by
  refine ⟨_, rfl, ?_, ?_, rfl⟩
  · cases (slotOf state p.component).active with
    | none => exact List.prefix_rfl
    | some previous => exact List.prefix_append _ _
  · rw [Slot.lineage]
    cases (slotOf state p.component).active with
    | none => simp
    | some previous => simp [VersionRecord.recorded]

theorem rollback_eq_some {state next : Registry} {targetRecordId recordId : String} {now : ℕ}
    (h : rollback state c targetRecordId recordId now = some next) :
    ∃ slot target current, state.get? c = some slot ∧
      slot.candidates.find? (fun row => row.recordId = targetRecordId) = some target ∧
      slot.active = some current ∧
      next = state.set c ⟨some (restoredRecord target current recordId now),
        slot.history ++ [{ current with status := .rolledBack }]⟩ := by
  simp only [rollback, Option.bind_eq_bind, Option.bind_eq_some_iff, Option.some.injEq] at h
  obtain ⟨slot, hslot, target, htarget, current, hcurrent, rfl⟩ := h
  exact ⟨slot, target, current, hslot, htarget, hcurrent, rfl⟩

theorem activates_rollback {state next : Registry} {targetRecordId recordId : String} {now : ℕ}
    (h : rollback state c targetRecordId recordId now = some next) :
    ∃ r history, r.recordId = recordId ∧ Activates state next c r history := by
  obtain ⟨slot, target, current, hslot, -, hcurrent, rfl⟩ := rollback_eq_some h
  have hslot' : slotOf state c = slot := by simp [slotOf, hslot]
  refine ⟨_, _, rfl, rfl, ?_, ?_, ?_⟩
  · rw [hslot']
    exact List.prefix_append _ _
  · simp [hslot', Slot.lineage, hcurrent, VersionRecord.recorded]
  · simp [hslot', hcurrent, restoredRecord]

/-! ## The invariant -/

/-- The past of a component that has none yet is empty. -/
theorem Lawful.slotOf {state : Registry} (h : Lawful state) (c : String) :
    Chained (slotOf state c).lineage ∧
      ((slotOf state c).lineage.map VersionRecord.recordId).Nodup := by
  cases hslot : state.get? c with
  | some slot =>
    simp only [Operational.slotOf, hslot, Option.getD_some]
    exact ⟨h.chained c slot hslot, h.unique c slot hslot⟩
  | none =>
    simp only [Operational.slotOf, hslot, Option.getD_none, Slot.lineage, Option.toList_none,
      List.append_nil, List.map_nil, List.nodup_nil, and_true]
    intro before r after hsplit
    simp at hsplit

theorem mem_recordIds_of_slotOf {state : Registry} (h : r ∈ (slotOf state c).lineage) :
    r.recordId ∈ recordIds state := by
  cases hslot : state.get? c with
  | some slot =>
    simp only [slotOf, hslot, Option.getD_some] at h
    exact mem_recordIds.mpr ⟨c, slot, hslot, List.mem_map_of_mem h⟩
  | none => simp [slotOf, hslot, Slot.lineage] at h

/-- The last record of the past is the active one. -/
theorem Activates.getLast {state next : Registry} {history : List VersionRecord}
    (ha : Activates state next c r history) (h : Lawful state) :
    r.previousRecordId = history.getLast?.map VersionRecord.recordId := by
  rw [ha.previous, ← List.getLast?_map, map_recordId_of_recorded ha.past, List.getLast?_map]
  cases hslot : state.get? c with
  | some slot =>
    obtain ⟨a, hactive⟩ := h.active c slot hslot
    simp [slotOf, hslot, Slot.lineage, hactive]
  | none => simp [slotOf, hslot, Slot.lineage]

theorem Activates.lawful {state next : Registry} {history : List VersionRecord}
    (ha : Activates state next c r history) (h : Lawful state) (hnew : r.recordId ∉ recordIds state) :
    Lawful next := by
  have hids := map_recordId_of_recorded ha.past
  have hold : ∀ r' ∈ history, r'.recordId ∈ recordIds state := by
    intro r' hr'
    have hmem : r'.recordId ∈ (slotOf state c).lineage.map VersionRecord.recordId := by
      rw [← hids]
      exact List.mem_map_of_mem hr'
    obtain ⟨r₀, hr₀, hid⟩ := List.mem_map.mp hmem
    rw [← hid]
    exact mem_recordIds_of_slotOf hr₀
  -- the ids of the slot that is written, seen from another component
  have hother : ∀ c' slot', c' ≠ c → state.get? c' = some slot' → ∀ r' ∈ history ++ [r],
      ∀ r'' ∈ slot'.lineage, r'.recordId ≠ r''.recordId := by
    intro c' slot' hne hslot' r' hr' r'' hr'' hsame
    rcases List.mem_append.mp hr' with hr' | hr'
    · have hmem : r'.recordId ∈ (slotOf state c).lineage.map VersionRecord.recordId := by
        rw [← hids]
        exact List.mem_map_of_mem hr'
      obtain ⟨r₀, hr₀, hid⟩ := List.mem_map.mp hmem
      cases hslot : state.get? c with
      | some slot =>
        simp only [Operational.slotOf, hslot, Option.getD_some] at hr₀
        exact h.apart c c' slot slot' hne.symm hslot hslot' r₀ hr₀ r'' hr'' (hid.trans hsame)
      | none => simp [Operational.slotOf, hslot, Slot.lineage] at hr₀
    · rw [List.mem_singleton] at hr'
      subst hr'
      exact hnew (hsame ▸ mem_recordIds.mpr ⟨c', slot', hslot', List.mem_map_of_mem hr''⟩)
  obtain ⟨hchained, hunique⟩ := h.slotOf c
  obtain rfl := ha.written
  constructor
  · intro c' slot' hslot'
    rw [Dict.get?_set] at hslot'
    split at hslot'
    · obtain rfl := Option.some.inj hslot'
      exact ⟨r, rfl⟩
    · exact h.active c' slot' hslot'
  · intro c' slot' hslot'
    rw [Dict.get?_set] at hslot'
    split at hslot'
    · obtain rfl := Option.some.inj hslot'
      exact (chained_of_recorded hchained ha.past).concat (ha.getLast h)
    · exact h.chained c' slot' hslot'
  · intro c' slot' hslot'
    rw [Dict.get?_set] at hslot'
    split at hslot'
    · obtain rfl := Option.some.inj hslot'
      simp only [Slot.lineage, Option.toList_some, List.map_append, List.map_singleton]
      rw [List.nodup_append]
      refine ⟨hids ▸ hunique, List.pairwise_singleton _ _, ?_⟩
      intro id hid id' hid' hsame
      rw [List.mem_singleton] at hid'
      obtain ⟨r', hr', rfl⟩ := List.mem_map.mp hid
      exact hnew (hid' ▸ hsame ▸ hold r' hr')
    · exact h.unique c' slot' hslot'
  · intro c₁ c₂ slot₁ slot₂ hne h₁ h₂ r₁ hr₁ r₂ hr₂
    rw [Dict.get?_set] at h₁ h₂
    split at h₁
    · rename_i hc₁
      obtain rfl := Option.some.inj h₁
      rw [if_neg (fun hc₂ => hne (hc₁.trans hc₂.symm))] at h₂
      exact hother c₂ slot₂ (fun hc₂ => hne (hc₁.trans hc₂.symm)) h₂ r₁ hr₁ r₂ hr₂
    · rename_i hc₁
      split at h₂
      · obtain rfl := Option.some.inj h₂
        exact (hother c₁ slot₁ hc₁ h₁ r₂ hr₂ r₁ hr₁).symm
      · exact h.apart c₁ c₂ slot₁ slot₂ hne h₁ h₂ r₁ hr₁ r₂ hr₂

theorem Slot.Continues.refl (slot : Slot) : slot.Continues slot :=
  ⟨List.prefix_rfl, List.prefix_rfl⟩

theorem Slot.Continues.trans {a b c : Slot} (h : a.Continues b) (h' : b.Continues c) :
    a.Continues c :=
  ⟨h.history.trans h'.history, h.lineage.trans h'.lineage⟩

theorem Activates.continues {state next : Registry} {history : List VersionRecord}
    (ha : Activates state next c r history) :
    Continues state next := by
  obtain rfl := ha.written
  refine Dict.Carries.set Slot.Continues.refl ?_
  intro slot hslot
  have hslot' : slotOf state c = slot := by simp [slotOf, hslot]
  refine ⟨hslot' ▸ ha.grown, ?_⟩
  have hpast := ha.past
  rw [hslot'] at hpast
  rw [← hpast, Slot.lineage, List.map_append]
  exact List.prefix_append _ _

/-! ## Runs -/

variable {redact : Object → Object} {sha256 : Object → String} {state state' next : Registry}

/-- A call either raises and changes nothing, or makes a record active. -/
theorem activates_of_step {call : RegistryCall}
    (h : (registrySystem redact sha256).step state call = some next) :
    next = state ∨
      ∃ c r history, r.recordId ∉ recordIds state ∧ Activates state next c r history := by
  simp only [registrySystem] at h
  split at h
  · cases h
  · rename_i hnew
    cases call with
    | promote p recordId now =>
      obtain rfl := Option.some.inj h
      obtain ⟨history, ha⟩ := activates_promote redact sha256 state p recordId now
      exact .inr ⟨_, _, history, hnew, ha⟩
    | rollback component targetRecordId recordId now =>
      obtain rfl := Option.some.inj h
      cases hrollback : rollback state component targetRecordId recordId now with
      | none => exact .inl rfl
      | some next =>
        obtain ⟨r, history, hid, ha⟩ := activates_rollback hrollback
        exact .inr ⟨_, r, history, hid ▸ hnew, ha⟩

theorem Lawful.of_step {call : RegistryCall} (h : Lawful state)
    (hstep : (registrySystem redact sha256).step state call = some next) : Lawful next := by
  rcases activates_of_step hstep with rfl | ⟨c, r, history, hnew, ha⟩
  · exact h
  · exact ha.lawful h hnew

theorem continues_of_step {call : RegistryCall}
    (hstep : (registrySystem redact sha256).step state call = some next) :
    Continues state next := by
  rcases activates_of_step hstep with rfl | ⟨c, r, history, -, ha⟩
  · exact Dict.Carries.refl Slot.Continues.refl _
  · exact ha.continues

theorem lawful_empty : Lawful Dict.empty where
  active := fun _ _ h => by cases h
  chained := fun _ _ h => by cases h
  unique := fun _ _ h => by cases h
  apart := fun _ _ _ _ _ h => by cases h

/-- The record with an id is the only one with it. -/
theorem Lawful.find_candidates (h : Lawful state) {slot : Slot} {target : VersionRecord}
    (hslot : state.get? c = some slot) (htarget : target ∈ slot.lineage) :
    slot.candidates.find? (fun row => row.recordId = target.recordId) = some target := by
  have hmem (row : VersionRecord) : row ∈ slot.candidates ↔ row ∈ slot.lineage := by
    simp only [Slot.candidates, Slot.lineage, List.mem_append, or_comm]
  cases hfind : slot.candidates.find? (fun row => row.recordId = target.recordId) with
  | none =>
    have := List.find?_eq_none.mp hfind target ((hmem target).mpr htarget)
    simp at this
  | some row =>
    have hid := List.find?_some hfind
    rw [decide_eq_true_eq] at hid
    have hrow := (hmem row).mp (List.mem_of_find?_eq_some hfind)
    rw [List.inj_on_of_nodup_map (h.unique c slot hslot) hrow htarget hid]

theorem restores_of_step (h : Lawful state) {component targetRecordId recordId : String} {now : ℕ}
    (hstep : (registrySystem redact sha256).step state
      (.rollback component targetRecordId recordId now) = some next) :
    Restores state next component targetRecordId recordId := by
  intro slot target hslot htarget hid
  obtain ⟨current, hcurrent⟩ := h.active component slot hslot
  have hfind := h.find_candidates hslot htarget
  rw [hid] at hfind
  have hrollback : rollback state component targetRecordId recordId now =
      some (state.set component ⟨some (restoredRecord target current recordId now),
        slot.history ++ [{ current with status := .rolledBack }]⟩) := by
    simp [rollback, hslot, hfind, hcurrent]
  simp only [registrySystem, hrollback, Option.getD_some] at hstep
  split at hstep
  · cases hstep
  · obtain rfl := Option.some.inj hstep
    refine ⟨_, _, current, Dict.get?_set_self _ _ _, rfl, hcurrent, rfl, rfl, rfl, rfl, rfl, rfl, ?_⟩
    intro c hc
    rw [Dict.get?_set, if_neg hc]

/-- Two promotions of an engine, and the way back to the first of them. -/
def engineCalls : List RegistryCall :=
  [.promote ⟨"engine", "v1", [("model", .str "one")], "passed", none⟩ "r1" 1,
    .promote ⟨"engine", "v2", [("model", .str "two")], "passed", none⟩ "r2" 2]

/-- The ids of a component's records and the ids of the ones before them. -/
def links (state : Registry) (c : String) : Option (List (String × Option String)) :=
  (state.get? c).map fun slot => slot.lineage.map fun r => (r.recordId, r.previousRecordId)

end Pandamonium.Operational
