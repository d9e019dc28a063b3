import Pandamonium.Library.FailingReads
import Pandamonium.Model.ExtensionRegistry
import Mathlib.Data.List.Lemmas

/-!
# The names of capabilities

`register` refuses a capability that another enabled extension has, and nothing else enables a
record.  Disabling empties a record, removing deletes it, and what `_read` keeps of a file is as
enabled as it was written and has the same names, so the names in force stay apart.
-/

set_option autoImplicit false

namespace Pandamonium.Extensions

open Pandamonium.Library

variable {it : Interpreter} {inv : Inventories} {records written : Records} {file : RegistryFile}

/-- The names that enabled extensions expose are pairwise distinct, and no disabled extension
exposes one of them. -/
structure NamesDistinct (records : Records) : Prop where
  within : ∀ extensionId r, records.get? extensionId = some r → r.enabled = true → r.names.Nodup
  across : ∀ extensionId extensionId' r r', records.get? extensionId = some r →
    records.get? extensionId' = some r' → extensionId ≠ extensionId' → r.enabled = true →
    r'.enabled = true → r.names.Disjoint r'.names
  disabled : ∀ extensionId extensionId' r r', records.get? extensionId = some r →
    records.get? extensionId' = some r' → r.enabled = true → r'.enabled = false →
    r.names.Disjoint r'.names

/-- Disabled records have no names, and those of two enabled ones are apart. -/
structure Apart (records : Records) : Prop where
  emptied : ∀ extensionId r, records.get? extensionId = some r → r.enabled = false → r.names = []
  across : ∀ extensionId extensionId' r r', records.get? extensionId = some r →
    records.get? extensionId' = some r' → extensionId ≠ extensionId' → r.enabled = true →
    r'.enabled = true → r.names.Disjoint r'.names

theorem Apart.namesDistinct (h : Apart records) : NamesDistinct records where
  within := fun _ r _ _ => r.effectiveCapabilities.distinct
  across := h.across
  disabled := by
    intro extensionId extensionId' r r' _ hr' _ hdisabled
    rw [h.emptied extensionId' r' hr' hdisabled]
    exact List.disjoint_nil_right _

theorem apart_empty : Apart Dict.empty where
  emptied := fun _ _ h => absurd h.symm (Option.some_ne_none _)
  across := fun _ _ _ _ h => absurd h.symm (Option.some_ne_none _)

/-! ## Reading back -/

theorem not_of_refuseIf {p : Prop} [Decidable p] {code : String} {u : Unit}
    (h : refuseIf p code = .ok u) : ¬ p := by
  intro hp
  rw [refuseIf, if_pos hp] at h
  cases h

theorem readSchema_name {capability : Capability} {seen : List String} {d : Object}
    {schema : { schema : Tool // schema.name ∉ seen }} (hd : capability.json = .dict d)
    (h : readSchema it seen d = .ok schema) : schema.1.name = capability.name := by
  obtain rfl := Value.dict.inj hd
  obtain ⟨-, -, h⟩ := bind_eq_ok h
  obtain ⟨v, -, h⟩ := bind_eq_ok h
  obtain ⟨tool, -, h⟩ := bind_eq_ok h
  obtain ⟨u, hname, h⟩ := bind_eq_ok h
  have hname : some capability.name = some tool.name := not_not.mp (not_of_refuseIf hname)
  split at h
  · obtain rfl := Except.ok.inj h
    exact (Option.some.inj hname).symm
  · cases h

/-- The capabilities that are read back have the names they were written with. -/
theorem readCapabilities_names {items : List Capability} {seen : List String}
    {unseen : Unseen seen} (h : readCapabilities it seen (items.map Capability.json) = .ok unseen) :
    unseen.names = items.map Capability.name := by
  induction items generalizing seen with
  | nil =>
    obtain rfl := Except.ok.inj h
    rfl
  | cons capability items ih =>
    obtain ⟨⟨schema, fresh⟩, hschema, h⟩ := bind_eq_ok h
    obtain ⟨mode, -, h⟩ := bind_eq_ok h
    obtain ⟨rest, hrest, h⟩ := bind_eq_ok h
    obtain rfl := Except.ok.inj h
    have hname : schema.name = capability.name := readSchema_name rfl hschema
    rw [List.map_cons, ← ih hrest, ← hname]
    rfl

variable {extensionId : String}

/-- A record that is read back is as enabled as it was, with the same names. -/
theorem readRecord_json {r r' : Record} (h : readRecord it inv extensionId r.json = .ok r') :
    r'.enabled = r.enabled ∧ r'.names = r.names := by
  obtain ⟨-, -, h⟩ := bind_eq_ok h
  obtain ⟨written, -, h⟩ := bind_eq_ok h
  obtain ⟨manifest, -, h⟩ := bind_eq_ok h
  obtain ⟨-, -, h⟩ := bind_eq_ok h
  obtain ⟨flag, hflag, h⟩ := bind_eq_ok h
  obtain rfl : .bool r.enabled = flag := Except.ok.inj hflag
  obtain ⟨enabled, henabled, h⟩ := bind_eq_ok h
  obtain rfl : r.enabled = enabled := Except.ok.inj henabled
  obtain ⟨v, hv, h⟩ := bind_eq_ok h
  obtain rfl : .list (r.effectiveCapabilities.items.map Capability.json) = v := Except.ok.inj hv
  obtain ⟨raws, hraws, h⟩ := bind_eq_ok h
  obtain rfl : r.effectiveCapabilities.items.map Capability.json = raws := Except.ok.inj hraws
  obtain ⟨unseen, hunseen, h⟩ := bind_eq_ok h
  obtain ⟨rawSkills, -, h⟩ := bind_eq_ok h
  obtain ⟨skills, -, h⟩ := bind_eq_ok h
  obtain ⟨-, -, h⟩ := bind_eq_ok h
  obtain ⟨inventory, -, h⟩ := bind_eq_ok h
  obtain ⟨rawVersion, -, h⟩ := bind_eq_ok h
  obtain ⟨catalogVersion, -, h⟩ := bind_eq_ok h
  obtain rfl := Except.ok.inj h
  exact ⟨rfl, readCapabilities_names hunseen⟩

variable (it inv) in
/-- What `_read` makes of a record, `none` where it passes over it. -/
def keptOf (extensionId : String) (v : Value) : Option Record :=
  (readRecord it inv extensionId v).toOption

/-- One turn of the loop over the records writes the record that is kept, and no other. -/
theorem keepRecord_spec {d d' : Records} {v : Value}
    (h : keepRecord it inv d (extensionId, v) = some d') :
    d'.get? extensionId = (keptOf it inv extensionId v).or (d.get? extensionId) ∧
      ∀ other, other ≠ extensionId → d'.get? other = d.get? other := by
  unfold keepRecord at h
  unfold keptOf
  cases hread : readRecord it inv extensionId v with
  | ok record =>
    rw [hread] at h
    obtain rfl := Option.some.inj h
    exact ⟨Dict.get?_set_self d extensionId record, fun other hother => by
      rw [Dict.get?_set, if_neg hother]⟩
  | error failure =>
    rw [hread] at h
    cases failure with
    | contract code => obtain rfl := Option.some.inj h; exact ⟨rfl, fun _ _ => rfl⟩
    | type => obtain rfl := Option.some.inj h; exact ⟨rfl, fun _ _ => rfl⟩
    | key => obtain rfl := Option.some.inj h; exact ⟨rfl, fun _ _ => rfl⟩
    | value => cases h

theorem find_map_json (records : Records) (extensionId : String) :
    Dict.find extensionId (records.items.map fun item => (item.1, item.2.json)) =
      (records.get? extensionId).map Record.json := by
  obtain ⟨items, hnodup⟩ := records
  change Dict.find extensionId (items.map fun item => (item.1, item.2.json)) =
    (Dict.find extensionId items).map Record.json
  clear hnodup
  induction items with
  | nil => rfl
  | cons item items ih =>
    rw [List.map_cons, Dict.find, Dict.find, ih]
    split
    · rfl
    · rfl

/-- What is read of the file that is written. -/
theorem get?_read_json {d : Records} (h : read it inv (some records.json) = some d)
    (extensionId : String) :
    d.get? extensionId = (records.get? extensionId).bind fun r =>
      keptOf it inv extensionId r.json := by
  have hkeys : ((records.items.map fun item => (item.1, item.2.json)).map Prod.fst).Nodup := by
    rw [List.map_map]
    exact records.nodup
  obtain ⟨hnone, hsome⟩ := Dict.get?_foldlM
    (R := fun extensionId v before after => after = (keptOf it inv extensionId v).or before)
    (fun _ _ _ _ hkeep => keepRecord_spec hkeep) hkeys h extensionId
  cases hr : records.get? extensionId with
  | none =>
    rw [find_map_json, hr] at hnone
    exact hnone rfl
  | some r =>
    rw [find_map_json, hr] at hsome
    rw [hsome r.json rfl]
    exact Option.or_none

/-- Each record that is read of the file that is written is one of those written, as enabled as
it was and with the same names. -/
theorem written_of_read {d : Records} (h : read it inv (some records.json) = some d) {r' : Record}
    (hr' : d.get? extensionId = some r') :
    ∃ r, records.get? extensionId = some r ∧ r'.enabled = r.enabled ∧ r'.names = r.names := by
  rw [get?_read_json h] at hr'
  obtain ⟨r, hr, hkept⟩ := Option.bind_eq_some_iff.mp hr'
  exact ⟨r, hr, readRecord_json (toOption_eq_some hkept)⟩

theorem Apart.of_read {d : Records} (happart : Apart records)
    (h : read it inv (some records.json) = some d) : Apart d where
  emptied := by
    intro extensionId r' hr' hdisabled
    obtain ⟨r, hr, henabled, hnames⟩ := written_of_read h hr'
    rw [hnames]
    exact happart.emptied extensionId r hr (henabled ▸ hdisabled)
  across := by
    intro id₁ id₂ r₁' r₂' hr₁' hr₂' hne henabled₁ henabled₂
    obtain ⟨r₁, hr₁, hsame₁, hnames₁⟩ := written_of_read h hr₁'
    obtain ⟨r₂, hr₂, hsame₂, hnames₂⟩ := written_of_read h hr₂'
    rw [hnames₁, hnames₂]
    exact happart.across id₁ id₂ r₁ r₂ hr₁ hr₂ hne (hsame₁ ▸ henabled₁) (hsame₂ ▸ henabled₂)

/-! ## Operations -/

/-- A record is put in whose names no other enabled one has. -/
theorem Apart.set (h : Apart records) {r : Record} (hdisabled : r.enabled = false → r.names = [])
    (hnames : ∀ other r', records.get? other = some r' → other ≠ extensionId →
      r'.enabled = true → r.enabled = true → r.names.Disjoint r'.names) :
    Apart (records.set extensionId r) where
  emptied := by
    intro other r' hr'
    rw [Dict.get?_set] at hr'
    split at hr'
    · obtain rfl := Option.some.inj hr'
      exact hdisabled
    · exact h.emptied other r' hr'
  across := by
    intro id₁ id₂ r₁ r₂ hr₁ hr₂ hne henabled₁ henabled₂
    rw [Dict.get?_set] at hr₁ hr₂
    split at hr₁
    case isTrue hid₁ =>
      obtain rfl := Option.some.inj hr₁
      rw [if_neg (by rw [← hid₁]; exact Ne.symm hne)] at hr₂
      exact hnames id₂ r₂ hr₂ (by rw [← hid₁]; exact Ne.symm hne) henabled₂ henabled₁
    case isFalse hid₁ =>
      split at hr₂
      · obtain rfl := Option.some.inj hr₂
        exact fun name hname hname' => hnames id₁ r₁ hr₁ hid₁ henabled₁ henabled₂ hname' hname
      · exact h.across id₁ id₂ r₁ r₂ hr₁ hr₂ hne henabled₁ henabled₂

theorem mem_namesInForce {other : String} {r : Record} {name : String}
    (hr : records.get? other = some r) (hother : other ≠ extensionId) (henabled : r.enabled = true)
    (hname : name ∈ r.names) : name ∈ namesInForce records extensionId := by
  refine List.mem_flatMap.mpr ⟨(other, r), List.mem_filter.mpr ⟨?_, ?_⟩, hname⟩
  · exact (records.mem_items_iff other r).mpr hr
  · simp [hother, henabled]

theorem apart_register (h : Apart records) {manifest resolvedCatalog : Value}
    {sourceRevision : String} {healthAvailable : Bool}
    (hregister : register it inv manifest resolvedCatalog sourceRevision healthAvailable records =
      .ok written) : Apart written := by
  obtain ⟨reconciled, -, hregister⟩ := bind_eq_ok hregister
  obtain ⟨inventory, -, hregister⟩ := bind_eq_ok hregister
  obtain ⟨_, hconflict, hregister⟩ := bind_eq_ok hregister
  obtain rfl := Except.ok.inj hregister
  have hfree := not_of_refuseIf hconflict
  refine h.set nofun ?_
  intro other r' hr' hother henabled _ name hname hname'
  exact hfree ⟨name, hname, mem_namesInForce hr' hother henabled hname'⟩

theorem apart_disable (h : Apart records) (hdisable : disable extensionId records = some written) :
    Apart written := by
  obtain ⟨r, -, rfl⟩ := Option.map_eq_some_iff.mp hdisable
  exact h.set (fun _ => rfl) fun _ _ _ _ _ henabled => nomatch henabled

theorem apart_unregister (h : Apart records)
    (hunregister : unregister extensionId records = some written) : Apart written := by
  obtain ⟨r, -, rfl⟩ := Option.map_eq_some_iff.mp hunregister
  have hkept : ∀ other r', (records.erase extensionId).get? other = some r' →
      records.get? other = some r' := by
    intro other r' hr'
    rw [Dict.get?_erase] at hr'
    split at hr'
    · cases hr'
    · exact hr'
  exact {
    emptied := fun other r' hr' => h.emptied other r' (hkept other r' hr')
    across := fun id₁ id₂ r₁ r₂ hr₁ hr₂ =>
      h.across id₁ id₂ r₁ r₂ (hkept id₁ r₁ hr₁) (hkept id₂ r₂ hr₂) }

theorem Apart.apply (h : Apart records) {operation : Operation}
    (happly : operation.apply it inv records = some written) : Apart written := by
  cases operation with
  | register manifest resolvedCatalog sourceRevision healthAvailable =>
    exact apart_register h (toOption_eq_some happly)
  | disable extensionId => exact apart_disable h happly
  | unregister extensionId => exact apart_unregister h happly

/-! ## Runs -/

/-- The names are apart in what is read of the file. -/
def FileApart (it : Interpreter) (inv : Inventories) (file : RegistryFile) : Prop :=
  ∀ records, read it inv file = some records → Apart records

theorem fileApart_missing : FileApart it inv none := by
  intro records h
  obtain rfl := Option.some.inj h
  exact apart_empty

/-- An operation raises, or finds nothing to do, or writes what it makes of the records. -/
theorem perform_cases (it : Interpreter) (inv : Inventories) (file : RegistryFile) (a : Label) :
    perform it inv file a = (file, false) ∨
    (∃ records, read it inv (if a.readable then file else none) = some records ∧
      a.operation.apply it inv records = none ∧ a.operation.refuses = false ∧
      perform it inv file a = (file, true)) ∨
    ∃ records written, read it inv (if a.readable then file else none) = some records ∧
      a.operation.apply it inv records = some written ∧ a.writable = true ∧
      perform it inv file a = (some written.json, true) := by
  unfold perform
  cases hread : read it inv (if a.readable then file else none) with
  | none => exact .inl rfl
  | some records =>
    cases happly : a.operation.apply it inv records with
    | none =>
      cases hrefuses : a.operation.refuses with
      | true => exact .inl (by simp only [happly, Bool.not_true])
      | false =>
        exact .inr (.inl ⟨records, rfl, happly, rfl, by simp only [happly, Bool.not_false]⟩)
    | some written =>
      cases hwritable : a.writable with
      | true =>
        exact .inr (.inr ⟨records, written, rfl, happly, rfl, by simp only [happly, if_true]⟩)
      | false =>
        exact .inl (by simp only [happly, Bool.false_eq_true, if_false])

theorem FileApart.perform (h : FileApart it inv file) (a : Label) :
    FileApart it inv (perform it inv file a).1 := by
  rcases perform_cases it inv file a with
    heq | ⟨records, -, -, -, heq⟩ | ⟨records, written, hread, happly, -, heq⟩
  · rw [heq]
    exact h
  · rw [heq]
    exact h
  · have hrecords : Apart records := by
      split at hread
      · exact h records hread
      · exact fileApart_missing records hread
    rw [heq]
    exact fun d hd => (hrecords.apply happly).of_read hd

theorem fileApart_of_reachable (h : (registry it inv).Reachable file) : FileApart it inv file := by
  refine TransitionSystem.ReachableWhere.invariant ?_ ?_ h
  · intro file hinit records hread
    obtain rfl := Option.some.inj (hread.symm.trans hinit)
    exact apart_empty
  · intro file a file' hfile _ hstep
    obtain rfl := Option.some.inj hstep
    exact hfile.perform a

/-- In every reachable state the names that enabled extensions expose are pairwise distinct, and
no disabled extension exposes one of them. -/
theorem namesDistinct_of_reachable (it : Interpreter) (inv : Inventories) {file : RegistryFile}
    {records : Records} (h : (registry it inv).Reachable file)
    (hread : read it inv file = some records) : NamesDistinct records :=
  (fileApart_of_reachable h records hread).namesDistinct

/-- The enabled flag and the names of each record that is read. -/
def seen (file : RegistryFile) : Option (List (String × Bool × List String)) :=
  (read .plain .plain file).map fun records =>
    records.items.map fun item => (item.1, item.2.enabled, item.2.names)

/-- An operation on a file that can be read and written. -/
def served (operation : Operation) : Label := ⟨operation, true, true⟩

/-- The registration of an extension with one tool. -/
def registers (extensionId toolName : String) : Label :=
  served (.register (plainManifest extensionId toolName "web") .null plainRevision true)

theorem init_missing (it : Interpreter) (inv : Inventories) : (registry it inv).init none := rfl

/-- An extension is disabled, and another one registered with the same tool. -/
theorem namesDistinct_handedOver : ∃ file records,
    (registry .plain .plain).Reachable file ∧ read .plain .plain file = some records ∧
    records.items.map (fun item => (item.1, item.2.enabled, item.2.names)) =
      [("notes", false, []), ("memos", true, ["save"])] ∧
    NamesDistinct records := by
  obtain ⟨file, hfile, hseen⟩ := TransitionSystem.exists_reachableWhere_of_exec
    (registry .plain .plain) TransitionSystem.anyStep seen
    [registers "notes" "save", served (.disable "notes"), registers "memos" "save"]
    (v := some [("notes", false, []), ("memos", true, ["save"])])
    (init_missing .plain .plain) (by decide +kernel)
  obtain ⟨records, hread, hnames⟩ := Option.map_eq_some_iff.mp hseen
  exact ⟨file, records, hfile, hread, hnames,
    namesDistinct_of_reachable .plain .plain hfile hread⟩

/-! ## The listing -/

end Pandamonium.Extensions
