import Mathlib.Algebra.Order.BigOperators.Group.List
import Pandamonium.Library.FailingReads
import Pandamonium.Model.BackupArchive

/-!
# What a verified backup holds

The members of an archive that has been verified are those of its inventory, with their sizes and
digests, and an inventory that is built of the files of a directory is accepted on an archive of
them (`backupContract`).  The manifest itself is a regular file, and it is in no inventory: it is
the payload that is compared (`not_exactMembers_manifest`), and a directory with a file under a
manifest's name has an inventory that is not accepted.
-/

set_option autoImplicit false

namespace Pandamonium.BackupArchive

open Pandamonium.Library

/-- An item of the inventory says this of a file. -/
def Entry.StatedBy (entry : Entry) (v : Value) : Prop :=
  ∃ item : Object, v = .dict item ∧ item.get? "path" = some (.str entry.path) ∧
    item.get? "size" = some (.int entry.size) ∧ item.get? "sha256" = some (.str entry.sha256)

/-- The inventory of the manifest lists these entries. -/
def Lists (manifest : Object) (entries : List Entry) : Prop :=
  ∃ (inventory : Object) (files : List Value), manifest.get? "inventory" = some (.dict inventory) ∧
    inventory.get? "files" = some (.list files) ∧ List.Forall₂ Entry.StatedBy entries files

/-- The members are the entries, each once, with the size and the digest of its entry. -/
structure Exact (sha256 : List UInt8 → String) (members : List Member) (entries : List Entry) :
    Prop where
  names : (members.map Member.name).Perm (entries.map Entry.path)
  nodup : (members.map Member.name).Nodup
  contents : ∀ member ∈ members, ∀ entry ∈ entries, entry.path = member.name →
    member.size = entry.size ∧ ∃ bytes ∈ member.content, sha256 bytes = entry.sha256

/-! ## Paths -/

section Paths

variable {a : List Char}

theorem foldr_slashFree {f : Char → List (List Char) → List (List Char)}
    (hf : ∀ x part rest, x ≠ '/' → f x (part :: rest) = (x :: part) :: rest) (ha : '/' ∉ a)
    (part : List Char) (rest : List (List Char)) :
    a.foldr f (part :: rest) = (a ++ part) :: rest := by
  induction a with
  | nil => rfl
  | cons x a ih =>
    rw [List.mem_cons, not_or] at ha
    rw [List.foldr_cons, ih ha.2, hf x _ rest (Ne.symm ha.1), List.cons_append]

theorem components_slashFree (ha : '/' ∉ a) (hne : a ≠ []) : components a = [a] := by
  unfold components
  rw [foldr_slashFree _ ha, List.append_nil]
  · cases a with
    | nil => exact absurd rfl hne
    | cons x a => rfl
  · intro x part rest hx
    rw [if_neg hx]

theorem components_append_slash (ha : '/' ∉ a) (hne : a ≠ []) (rest : List Char) :
    components (a ++ '/' :: rest) = a :: components rest := by
  unfold components
  rw [List.foldr_append, List.foldr_cons, if_pos rfl, foldr_slashFree _ ha, List.append_nil]
  · cases a with
    | nil => exact absurd rfl hne
    | cons x a => rfl
  · intro x part rest hx
    rw [if_neg hx]

theorem components_intercalate {names : List (List Char)}
    (h : ∀ name ∈ names, '/' ∉ name ∧ name ≠ []) (hne : names ≠ []) :
    components (['/'].intercalate names) = names := by
  induction names with
  | nil => exact absurd rfl hne
  | cons name names ih =>
    obtain ⟨⟨hslash, hname⟩, hnames⟩ := List.forall_mem_cons.mp h
    cases names with
    | nil =>
      rw [List.intercalate_singleton]
      exact components_slashFree hslash hname
    | cons next names =>
      rw [show ['/'].intercalate (name :: next :: names) =
        name ++ '/' :: ['/'].intercalate (next :: names) by simp [List.intercalate]]
      rw [components_append_slash hslash hname, ih hnames (List.cons_ne_nil _ _)]

end Paths

/-- A name that a directory can hold. -/
def ValidName (name : String) : Prop :=
  name ≠ "" ∧ name ≠ "." ∧ name ≠ ".." ∧ '/' ∉ name.toList

theorem parts_joinPath {names : List String} (h : ∀ name ∈ names, ValidName name)
    (hne : names ≠ []) : parts (joinPath names) = names := by
  unfold parts joinPath
  rw [String.toList_ofList, components_intercalate]
  · rw [List.filter_eq_self.mpr, List.map_map]
    · simp [Function.comp_def]
    · intro part hpart
      obtain ⟨name, hname, rfl⟩ := List.mem_map.mp hpart
      have hdot : name.toList ≠ ['.'] := fun heq =>
        (h name hname).2.1 (String.toList_injective heq)
      simpa using hdot
  · intro part hpart
    obtain ⟨name, hname, rfl⟩ := List.mem_map.mp hpart
    refine ⟨(h name hname).2.2.2, ?_⟩
    intro hnil
    exact (h name hname).1 (String.toList_injective hnil)
  · simpa using hne

/-! ## Reading the inventory -/

/-- What the loop over the entries asks of an entry. -/
structure Entry.Valid (entry : Entry) : Prop where
  relative : isAbsolute entry.path = false
  inside : ".." ∉ parts entry.path
  data : (parts entry.path).head? = some "data"
  canonical : asPosix entry.path = entry.path
  payload : entry.path ∉ manifestNames
  size : 0 ≤ entry.size
  digest : isSha256 entry.sha256 = true
  source : entry.source ∈ inventorySources

variable {seen : List String}

theorem statedBy_of_readEntry {v : Value} {entry : Entry} (h : readEntry seen v = .ok entry) :
    entry.StatedBy v ∧ entry.path ∉ seen := by
  unfold readEntry at h
  split at h
  case h_2 => cases h
  rename_i item
  split at h
  · cases h
  split at h
  case h_2 => cases h
  rename_i path hpath
  split at h
  · cases h
  rename_i hvalid
  split at h
  case h_2 => cases h
  rename_i size hsize
  split at h
  · cases h
  split at h
  case h_2 => cases h
  rename_i digest hdigest
  split at h
  · cases h
  split at h
  case h_1 =>
    split at h
    · obtain rfl := Except.ok.inj h
      exact ⟨⟨item, rfl, hpath, hsize, hdigest⟩, fun hseen => hvalid (by simp [hseen])⟩
    · cases h
  all_goals cases h

theorem readEntry_toObject {entry : Entry} (h : entry.Valid) (hseen : entry.path ∉ seen) :
    readEntry seen (.dict entry.toObject) = .ok entry := by
  have hkeys : keysAre entry.toObject ["path", "size", "sha256", "source"] = true := by
    simp [keysAre, Entry.toObject]
  obtain ⟨hpath, hsize, hdigest, hsource⟩ :
      entry.toObject.get? "path" = some (.str entry.path) ∧
        entry.toObject.get? "size" = some (.int entry.size) ∧
        entry.toObject.get? "sha256" = some (.str entry.sha256) ∧
        entry.toObject.get? "source" = some (.str entry.source) := by
    simp [Entry.toObject, Object.get?]
  unfold readEntry
  dsimp only
  rw [if_neg (not_not.mpr hkeys)]
  simp only [hpath, hsize, hdigest, hsource]
  rw [if_neg, if_neg (not_lt.mpr h.size), if_neg (not_not.mpr h.digest), if_pos h.source]
  rintro (hbad | hbad | hbad | hbad | hbad | hbad)
  · rw [h.relative] at hbad
    cases hbad
  · exact h.inside hbad
  · exact hbad h.data
  · exact hbad h.canonical
  · exact h.payload hbad
  · exact hseen hbad

theorem statedBy_of_readEntries {files : List Value} {entries : List Entry}
    (h : readEntries seen files = .ok entries) :
    List.Forall₂ Entry.StatedBy entries files ∧ (entries.map Entry.path).Nodup ∧
      ∀ entry ∈ entries, entry.path ∉ seen := by
  induction files generalizing seen entries with
  | nil =>
    obtain rfl := Except.ok.inj h
    exact ⟨.nil, List.nodup_nil, nofun⟩
  | cons v files ih =>
    obtain ⟨entry, hentry, h⟩ := bind_eq_ok h
    obtain ⟨rest, hrest, h⟩ := bind_eq_ok h
    obtain rfl := Except.ok.inj h
    obtain ⟨hstated, hfresh⟩ := statedBy_of_readEntry hentry
    obtain ⟨hrest, hnodup, hseen⟩ := ih hrest
    refine ⟨.cons hstated hrest, List.nodup_cons.mpr ⟨?_, hnodup⟩, ?_⟩
    · intro hmem
      obtain ⟨other, hother, hpath⟩ := List.mem_map.mp hmem
      exact hseen other hother (hpath ▸ List.mem_cons_self)
    · intro other hother
      rcases List.mem_cons.mp hother with rfl | hother
      · exact hfresh
      · exact fun hmem => hseen other hother (List.mem_cons_of_mem _ hmem)

theorem readEntries_toObject {entries : List Entry} (h : ∀ entry ∈ entries, entry.Valid)
    (hnodup : (entries.map Entry.path).Nodup) (hseen : ∀ entry ∈ entries, entry.path ∉ seen) :
    readEntries seen (entries.map fun entry => .dict entry.toObject) = .ok entries := by
  induction entries generalizing seen with
  | nil => rfl
  | cons entry entries ih =>
    obtain ⟨hentry, hentries⟩ := List.forall_mem_cons.mp h
    obtain ⟨hnot, hnodup⟩ := List.nodup_cons.mp hnodup
    have hrest : readEntries (entry.path :: seen) (entries.map fun entry => .dict entry.toObject) =
        .ok entries := by
      refine ih hentries hnodup ?_
      intro other hother hmem
      rcases List.mem_cons.mp hmem with heq | hmem
      · exact hnot (List.mem_map.mpr ⟨other, hother, heq⟩)
      · exact hseen other (List.mem_cons_of_mem _ hother) hmem
    rw [List.map_cons, readEntries, readEntry_toObject hentry (hseen entry List.mem_cons_self)]
    show (readEntries (entry.path :: seen) _ >>= fun rest => pure (entry :: rest)) = _
    rw [hrest]
    rfl

/-! ## The members -/

section Members

variable {strRepr : String → String} {sha256 : List UInt8 → String} {members : List Member}
  {entries : List Entry}

theorem nodup_of_foldlM_validateMember {seen' : List String} (hseen : seen.Nodup)
    (h : members.foldlM (validateMember strRepr) seen = .ok seen') :
    seen' = (members.map fun member => asPosix member.name).reverse ++ seen ∧ seen'.Nodup := by
  induction members generalizing seen with
  | nil =>
    obtain rfl := Except.ok.inj h
    exact ⟨rfl, hseen⟩
  | cons member members ih =>
    rw [List.foldlM_cons] at h
    obtain ⟨next, hnext, h⟩ := bind_eq_ok h
    have hvalid : asPosix member.name ∉ seen ∧ next = asPosix member.name :: seen := by
      unfold validateMember at hnext
      split at hnext
      · cases hnext
      split at hnext
      · cases hnext
      split at hnext
      · cases hnext
      rename_i hnew
      split at hnext
      · cases hnext
      split at hnext
      · cases hnext
      split at hnext
      · cases hnext
      exact ⟨hnew, (Except.ok.inj hnext).symm⟩
    obtain ⟨hnew, rfl⟩ := hvalid
    obtain ⟨hseen', hnodup⟩ := ih (List.nodup_cons.mpr ⟨hnew, hseen⟩) h
    refine ⟨?_, hnodup⟩
    rw [hseen', List.map_cons, List.reverse_cons, List.append_assoc, List.singleton_append]

/-- The members that are accepted have different names. -/
theorem nodup_of_validate {accepted : List Member}
    (h : validateBackupMembers strRepr members = .ok accepted) :
    accepted = members ∧ (members.map Member.name).Nodup := by
  obtain ⟨seen, hseen, h⟩ := bind_eq_ok h
  obtain ⟨rfl, hnodup⟩ := nodup_of_foldlM_validateMember List.nodup_nil hseen
  rw [List.append_nil, List.nodup_reverse] at hnodup
  refine ⟨(Except.ok.inj h).symm, ?_⟩
  apply List.Nodup.of_map asPosix
  rwa [List.map_map]

theorem get?_actualMembers (hnodup : ((members.filter Member.isPayload).map Member.name).Nodup)
    (name : String) (member : Member) :
    (actualMembers members).get? name = some member ↔
      member ∈ members.filter Member.isPayload ∧ member.name = name := by
  rw [← Dict.get?_foldl_keyed_empty hnodup, List.foldl_filter]
  rfl

theorem mem_actualMembers (hnodup : ((members.filter Member.isPayload).map Member.name).Nodup)
    {item : String × Member} :
    item ∈ (actualMembers members).items ↔
      item.2 ∈ members.filter Member.isPayload ∧ item.2.name = item.1 := by
  obtain ⟨name, member⟩ := item
  rw [Dict.mem_items_iff, get?_actualMembers hnodup]

theorem verifyMember_eq_ok_iff {item : String × Member} {u : Unit} :
    verifyMember strRepr sha256 entries item = .ok u ↔
      ∃ entry, entries.find? (fun entry => entry.path = item.1) = some entry ∧
        item.2.size = entry.size ∧ ∃ bytes ∈ item.2.content, sha256 bytes = entry.sha256 := by
  unfold verifyMember
  cases hfind : entries.find? fun entry => entry.path = item.1 with
  | none => simp
  | some entry =>
    simp only [Option.some.injEq, exists_eq_left']
    by_cases hsize : item.2.size = entry.size
    · cases hcontent : item.2.content with
      | none => simp [hsize]
      | some bytes =>
        by_cases hdigest : sha256 bytes = entry.sha256
        · simp [hsize, hdigest]
        · simp [hsize, hdigest]
    · simp [hsize]

theorem verifyEntries_eq_ok_iff {u : Unit} :
    verifyEntries strRepr sha256 members entries = .ok u ↔
      (∀ item ∈ (actualMembers members).items, item.1 ∈ entries.map Entry.path) ∧
        (∀ entry ∈ entries, entry.path ∈ (actualMembers members).items.map Prod.fst) ∧
        ∀ item ∈ (actualMembers members).items,
          verifyMember strRepr sha256 entries item = .ok () := by
  unfold verifyEntries
  simp only
  split
  · rename_i hdiffers
    refine iff_of_false nofun ?_
    rintro ⟨hnames, hpaths, -⟩
    rcases hdiffers with ⟨item, hitem, hnot⟩ | ⟨entry, hentry, hnot⟩
    · exact hnot (hnames item hitem)
    · exact hnot (hpaths entry hentry)
  · rename_i hsame
    simp only [not_or, not_exists, not_and, not_not] at hsame
    rw [← and_assoc, and_iff_right hsame]
    have hall := @exists_mapM_eq_ok_iff _ _ _ (verifyMember strRepr sha256 entries)
      ((actualMembers members).items.insertionSort fun a b => a.1 ≤ b.1)
    simp only [List.mem_insertionSort] at hall
    constructor
    · intro h item hitem
      obtain ⟨ys, hys, -⟩ := bind_eq_ok h
      exact (hall.mp ⟨ys, hys⟩ item hitem).choose_spec
    · intro h
      obtain ⟨ys, hys⟩ := hall.mpr fun item hitem => ⟨(), h item hitem⟩
      rw [hys]
      rfl

end Members

/-! ## Verified archives -/

section Verified

variable {strRepr : String → String} {sha256 : List UInt8 → String} {members : List Member}

theorem verifyInventory_eq_ok_iff {inventory : Inventory} {u : Unit} :
    verifyInventory strRepr sha256 members inventory = .ok u ↔
      ∃ entries, readEntries [] inventory.files = .ok entries ∧
        entries = sortedByPath entries ∧ inventory.fileCount = entries.length ∧
        inventory.totalBytes = totalBytes entries ∧
        inventory.digest = sha256 (canonicalInventoryBytes entries) ∧
        verifyEntries strRepr sha256 members entries = .ok () := by
  unfold verifyInventory
  cases readEntries [] inventory.files with
  | error message => exact iff_of_false nofun (by simp)
  | ok entries =>
    simp only [Except.ok.injEq, exists_eq_left']
    show (if entries ≠ sortedByPath entries then throw "backup inventory is not canonical"
      else if _ then throw "backup inventory summary is invalid"
      else verifyEntries strRepr sha256 members entries) = Except.ok u ↔ _
    split
    · rename_i hsorted
      exact iff_of_false nofun fun h => hsorted h.1
    · rename_i hsorted
      rw [and_iff_right (not_not.mp hsorted)]
      split
      · rename_i hsummary
        refine iff_of_false nofun ?_
        rintro ⟨hcount, htotal, hdigest, -⟩
        rcases hsummary with hbad | hbad | hbad
        · exact hbad hcount
        · exact hbad htotal
        · exact hbad hdigest
      · rename_i hsummary
        simp only [not_or, not_not] at hsummary
        rw [and_iff_right hsummary.1, and_iff_right hsummary.2.1, and_iff_right hsummary.2.2]

theorem files_of_readInventory {object : Object} {inventory : Inventory}
    (h : readInventory object = .ok inventory) :
    object.get? "files" = some (.list inventory.files) := by
  unfold readInventory at h
  split at h
  · rename_i hfiles
    split at h
    · obtain rfl := Except.ok.inj h
      exact hfiles
    · cases h
  · cases h

theorem verified_eq_ok {manifest summary : Object}
    (h : verifyBackupInventory strRepr sha256 members manifest = .ok (.verified summary)) :
    ∃ object inventory, manifest.get? "inventory" = some (.dict object) ∧
      readInventory object = .ok inventory ∧
        verifyInventory strRepr sha256 members inventory = .ok () := by
  unfold verifyBackupInventory at h
  split at h
  case h_1 =>
    split at h
    · cases h
    split at h
    · cases h
    split at h
    · rename_i object hobject
      obtain ⟨inventory, hinventory, h⟩ := bind_eq_ok h
      obtain ⟨_, hverify, -⟩ := bind_eq_ok h
      exact ⟨object, inventory, hobject, hinventory, hverify⟩
    · cases h
  all_goals cases h

theorem find?_path {entries : List Entry} (hnodup : (entries.map Entry.path).Nodup)
    {entry : Entry} (h : entry ∈ entries) :
    entries.find? (fun other => other.path = entry.path) = some entry := by
  have hsome : (entries.find? fun other => other.path = entry.path).isSome :=
    List.find?_isSome.mpr ⟨entry, h, decide_eq_true rfl⟩
  obtain ⟨found, hfound⟩ := Option.isSome_iff_exists.mp hsome
  have hpath : found.path = entry.path := by simpa using List.find?_some hfound
  rw [hfound, List.inj_on_of_nodup_map hnodup (List.mem_of_find?_eq_some hfound) h hpath]

/-- A verified archive holds what its inventory lists. -/
theorem exact_of_verified {manifest summary : Object}
    (hvalidated : validateBackupMembers strRepr members = .ok members)
    (h : verifyBackupInventory strRepr sha256 members manifest = .ok (.verified summary)) :
    ∃ entries, Lists manifest entries ∧
      Exact sha256 (members.filter Member.isPayload) entries := by
  obtain ⟨object, inventory, hobject, hinventory, hverify⟩ := verified_eq_ok h
  obtain ⟨entries, hentries, -, -, -, -, hmembers⟩ := verifyInventory_eq_ok_iff.mp hverify
  obtain ⟨hstated, hpaths, -⟩ := statedBy_of_readEntries hentries
  obtain ⟨hnames, hlisted, hcontents⟩ := verifyEntries_eq_ok_iff.mp hmembers
  have hnodup : ((members.filter Member.isPayload).map Member.name).Nodup :=
    (nodup_of_validate hvalidated).2.sublist (List.filter_sublist.map _)
  have hitem : ∀ member ∈ members.filter Member.isPayload,
      (member.name, member) ∈ (actualMembers members).items :=
    fun member hmember => (mem_actualMembers hnodup).mpr ⟨hmember, rfl⟩
  refine ⟨entries, ⟨object, inventory.files, hobject, files_of_readInventory hinventory, hstated⟩,
    ?_, hnodup, ?_⟩
  · rw [List.perm_ext_iff_of_nodup hnodup hpaths]
    intro name
    constructor
    · intro hname
      obtain ⟨member, hmember, rfl⟩ := List.mem_map.mp hname
      exact hnames _ (hitem member hmember)
    · intro hname
      obtain ⟨entry, hentry, rfl⟩ := List.mem_map.mp hname
      obtain ⟨item, hitems, hpath⟩ := List.mem_map.mp (hlisted entry hentry)
      obtain ⟨hmember, hname⟩ := (mem_actualMembers hnodup).mp hitems
      exact List.mem_map.mpr ⟨item.2, hmember, hname.trans hpath⟩
  · intro member hmember entry hentry hpath
    obtain ⟨found, hfound, hsize, hdigest⟩ :=
      verifyMember_eq_ok_iff.mp (hcontents _ (hitem member hmember))
    simp only [← hpath, find?_path hpaths hentry] at hfound
    obtain rfl := Option.some.inj hfound
    exact ⟨hsize, hdigest⟩

end Verified

/-! ## Snapshots -/

section Snapshot

variable {strRepr : String → String} {sha256 : List UInt8 → String}

theorem DataFile.parts_archivePath (file : DataFile) :
    parts file.archivePath = "data" :: file.names := by
  apply parts_joinPath _ (List.cons_ne_nil _ _)
  intro name hname
  rcases List.mem_cons.mp hname with rfl | hname
  · exact ⟨by decide, by decide, by decide, by decide⟩
  · exact file.valid name hname

theorem archivePath_inj {file other : DataFile} (h : file.archivePath = other.archivePath) :
    file.names = other.names := by
  have hparts := congrArg parts h
  rw [file.parts_archivePath, other.parts_archivePath] at hparts
  exact (List.cons.inj hparts).2

theorem DataFile.valid_entry (hsha : ∀ bytes, isSha256 (sha256 bytes) = true) (file : DataFile)
    (h : file.archivePath ∉ manifestNames) : (file.entry sha256).Valid where
  relative := by
    obtain ⟨name, names, hnames⟩ := List.exists_cons_of_ne_nil file.below
    show isAbsolute file.archivePath = false
    rw [DataFile.archivePath, hnames]
    simp [isAbsolute, joinPath, List.intercalate]
  inside := by
    show ".." ∉ parts file.archivePath
    rw [file.parts_archivePath]
    intro hmem
    rcases List.mem_cons.mp hmem with heq | hmem
    · exact absurd heq (by decide)
    · exact (file.valid _ hmem).2.2.1 rfl
  data := congrArg List.head? file.parts_archivePath
  canonical := by
    show asPosix file.archivePath = file.archivePath
    rw [asPosix, file.parts_archivePath, if_neg (List.cons_ne_nil _ _)]
    rfl
  payload := h
  size := Int.natCast_nonneg _
  digest := hsha _
  source := List.mem_cons_self

theorem sortedByPath_sortedByPath (entries : List Entry) :
    sortedByPath (sortedByPath entries) = sortedByPath entries := by
  have : Std.Total fun a b : Entry => a.path ≤ b.path := ⟨fun a b => le_total a.path b.path⟩
  have : IsTrans Entry fun a b => a.path ≤ b.path := ⟨fun _ _ _ => le_trans⟩
  exact (List.pairwise_insertionSort _ entries).insertionSort_eq

theorem readInventory_build (hsha : ∀ bytes, isSha256 (sha256 bytes) = true)
    {files : List Entry} (h : ∀ entry ∈ sortedByPath files, entry.Valid) :
    readInventory (buildBackupInventory sha256 files) = .ok
      { fileCount := (sortedByPath files).length
        totalBytes := totalBytes (sortedByPath files)
        digest := sha256 (canonicalInventoryBytes (sortedByPath files))
        files := (sortedByPath files).map fun entry => .dict entry.toObject } := by
  have htotal : 0 ≤ totalBytes (sortedByPath files) := by
    apply List.sum_nonneg
    intro size hsize
    obtain ⟨entry, hentry, rfl⟩ := List.mem_map.mp hsize
    exact (h entry hentry).size
  simp [readInventory, buildBackupInventory, Object.get?, keysAre, isText, hsha, htotal]

variable {files : List DataFile} {members : List Member}

theorem nodup_archivePath (hfiles : (files.map DataFile.names).Nodup) :
    (files.map DataFile.archivePath).Nodup := by
  have hinj := List.inj_on_of_nodup_map hfiles
  exact (List.Nodup.of_map _ hfiles).map_on fun file hfile other hother h =>
    hinj hfile hother (archivePath_inj h)

/-- The members that are compared are those of the files. -/
theorem mem_actualMembers_snapshot (hfiles : (files.map DataFile.names).Nodup)
    (hmembers : (members.filter Member.isPayload).Perm (files.map DataFile.member))
    (item : String × Member) :
    item ∈ (actualMembers members).items ↔
      ∃ file ∈ files, item = (file.archivePath, file.member) := by
  have hnodup : ((members.filter Member.isPayload).map Member.name).Nodup := by
    rw [(hmembers.map Member.name).nodup_iff, List.map_map]
    exact nodup_archivePath hfiles
  rw [mem_actualMembers hnodup, hmembers.mem_iff, List.mem_map]
  constructor
  · rintro ⟨⟨file, hfile, hmember⟩, hname⟩
    refine ⟨file, hfile, ?_⟩
    rw [Prod.ext_iff, ← hname, ← hmember]
    exact ⟨rfl, rfl⟩
  · rintro ⟨file, hfile, rfl⟩
    exact ⟨⟨file, hfile, rfl⟩, rfl⟩

section Entries

variable {entries : List Entry} (hperm : entries.Perm (files.map (DataFile.entry sha256)))

include hperm

theorem mem_of_perm (entry : Entry) :
    entry ∈ entries ↔ ∃ file ∈ files, file.entry sha256 = entry := by
  rw [hperm.mem_iff, List.mem_map]

theorem nodup_path_of_perm (hfiles : (files.map DataFile.names).Nodup) :
    (entries.map Entry.path).Nodup := by
  rw [(hperm.map Entry.path).nodup_iff, List.map_map]
  exact nodup_archivePath hfiles

theorem verifyEntries_snapshot (hfiles : (files.map DataFile.names).Nodup)
    (hmembers : (members.filter Member.isPayload).Perm (files.map DataFile.member)) :
    verifyEntries strRepr sha256 members entries = .ok () := by
  have hmem := mem_of_perm hperm
  have hitems := mem_actualMembers_snapshot hfiles hmembers
  rw [verifyEntries_eq_ok_iff]
  refine ⟨?_, ?_, ?_⟩
  · intro item hitem
    obtain ⟨file, hfile, rfl⟩ := (hitems item).mp hitem
    exact List.mem_map.mpr ⟨file.entry sha256, (hmem _).mpr ⟨file, hfile, rfl⟩, rfl⟩
  · intro entry hentry
    obtain ⟨file, hfile, rfl⟩ := (hmem entry).mp hentry
    exact List.mem_map.mpr ⟨_, (hitems _).mpr ⟨file, hfile, rfl⟩, rfl⟩
  · intro item hitem
    obtain ⟨file, hfile, rfl⟩ := (hitems item).mp hitem
    rw [verifyMember_eq_ok_iff]
    exact ⟨file.entry sha256,
      find?_path (nodup_path_of_perm hperm hfiles) ((hmem _).mpr ⟨file, hfile, rfl⟩), rfl,
      file.bytes, rfl, rfl⟩

end Entries

/-- The inventory of the files of a directory is accepted on an archive of them. -/
theorem verified_snapshot (hsha : ∀ bytes, isSha256 (sha256 bytes) = true)
    (hfiles : (files.map DataFile.names).Nodup)
    (hmanifests : ∀ file ∈ files, file.archivePath ∉ manifestNames)
    (hmembers : (members.filter Member.isPayload).Perm (files.map DataFile.member))
    {manifest : Object} (hschema : manifest.get? "schema" = some (.str schemaV2))
    (hinventory : manifest.get? "inventory" =
      some (.dict (buildBackupInventory sha256 (files.map (DataFile.entry sha256))))) :
    verifyBackupInventory strRepr sha256 members manifest = .ok (.verified
      (backupInventorySummary
        (buildBackupInventory sha256 (files.map (DataFile.entry sha256))))) := by
  have hperm : (sortedByPath (files.map (DataFile.entry sha256))).Perm
      (files.map (DataFile.entry sha256)) := List.perm_insertionSort _ _
  have hvalid : ∀ entry ∈ sortedByPath (files.map (DataFile.entry sha256)), entry.Valid := by
    intro entry hentry
    obtain ⟨file, hfile, rfl⟩ := (mem_of_perm hperm entry).mp hentry
    exact file.valid_entry hsha (hmanifests file hfile)
  have hverified := fun u => (@verifyInventory_eq_ok_iff strRepr sha256 members
    { fileCount := (sortedByPath (files.map (DataFile.entry sha256))).length
      totalBytes := totalBytes (sortedByPath (files.map (DataFile.entry sha256)))
      digest := sha256 (canonicalInventoryBytes (sortedByPath (files.map (DataFile.entry sha256))))
      files := (sortedByPath (files.map (DataFile.entry sha256))).map fun entry =>
        .dict entry.toObject } u).mpr
    ⟨_, readEntries_toObject hvalid (nodup_path_of_perm hperm hfiles)
        fun _ _ => List.not_mem_nil,
      (sortedByPath_sortedByPath _).symm, rfl, rfl, rfl,
      verifyEntries_snapshot hperm hfiles hmembers⟩
  unfold verifyBackupInventory
  rw [hschema, hinventory]
  simp only
  rw [if_neg (by decide), if_neg (by decide), readInventory_build hsha hvalid]
  show (verifyInventory strRepr sha256 members _ >>= fun _ => _) = _
  rw [hverified ()]
  rfl

end Snapshot

/-- The inventory of a directory of regular files, none of which has the name of a manifest, is
accepted on an archive of them, and an archive that is verified holds as its payload exactly what
the inventory lists. -/
theorem backupContract (strRepr : String → String) {sha256 : List UInt8 → String}
    (hsha : ∀ bytes, isSha256 (sha256 bytes) = true) :
    (∀ (files : List DataFile) (members : List Member) (manifest : Object),
      (files.map DataFile.names).Nodup →
      (∀ file ∈ files, file.archivePath ∉ manifestNames) →
      (members.filter Member.isPayload).Perm (files.map DataFile.member) →
      manifest.get? "schema" = some (.str schemaV2) →
      manifest.get? "inventory" =
        some (.dict (buildBackupInventory sha256 (files.map (DataFile.entry sha256)))) →
      verifyBackupInventory strRepr sha256 members manifest = .ok (.verified
        (backupInventorySummary
          (buildBackupInventory sha256 (files.map (DataFile.entry sha256)))))) ∧
    ∀ (members : List Member) (manifest summary : Object),
      validateBackupMembers strRepr members = .ok members →
      verifyBackupInventory strRepr sha256 members manifest = .ok (.verified summary) →
      ∃ entries, Lists manifest entries ∧
        Exact sha256 (members.filter Member.isPayload) entries :=
  ⟨fun _ _ _ hfiles hmanifests hmembers hschema hinventory =>
      verified_snapshot hsha hfiles hmanifests hmembers hschema hinventory,
    fun _ _ _ hvalidated hverified => exact_of_verified hvalidated hverified⟩

/-! ## A backup of one file -/

/-- The digests of the texts below, and 64 zeros elsewhere. -/
def knownDigests (bytes : List UInt8) : String :=
  if bytes = encodeAscii "hi" then
    "8f434346648f6b96df89dda901c5176b10a6d83961dd3c1ac88b59b2dc327aa4"
  else if bytes = encodeAscii ("[\x7b\"path\":\"data/notes.txt\",\"sha256\":\"" ++
      "8f434346648f6b96df89dda901c5176b10a6d83961dd3c1ac88b59b2dc327aa4" ++
      "\",\"size\":2,\"source\":\"file\"\x7d]") then
    "c28b2c6d80edc4aaa22219f6f350c54a15565e71373871c01a7bdf97795b3961"
  else "0000000000000000000000000000000000000000000000000000000000000000"

theorem isSha256_ofList (cs : List Char) :
    isSha256 (String.ofList cs) = (cs.length = 64 &&
      cs.all fun x => ('0' ≤ x && x ≤ '9') || ('a' ≤ x && x ≤ 'f')) := by
  rw [isSha256, String.length_ofList, String.toList_ofList]

theorem isSha256_knownDigests (bytes : List UInt8) : isSha256 (knownDigests bytes) = true := by
  unfold knownDigests
  split
  · rw [isSha256_ofList]
    decide +kernel
  · split <;>
    · rw [isSha256_ofList]
      decide +kernel

/-- `data/notes.txt` -/
def notes : DataFile where
  names := ["notes.txt"]
  bytes := encodeAscii "hi"
  below := by decide
  valid := by decide

/-- A member that is a directory. -/
def directory (name : String) : Member where
  name := name
  kind := .directory
  size := 0
  content := none
  length := nofun

/-- The member that holds the manifest. -/
def manifestMember (manifest : Object) : Member where
  name := "data/.pandamonium-backup-manifest.json"
  kind := .file
  size := (encodeAscii (Json.dumps .compact (.dict manifest))).length
  content := some (encodeAscii (Json.dumps .compact (.dict manifest)))
  length := by
    rintro _ ⟨⟩
    rfl

def oneFileManifest : Object :=
  [("schema", .str schemaV2),
    ("inventory", .dict (buildBackupInventory knownDigests [notes.entry knownDigests]))]

/-- The archive of the file, with its manifest. -/
def oneFile : List Member := [directory "data", notes.member, manifestMember oneFileManifest]

theorem validate_oneFile : validateBackupMembers id oneFile = .ok oneFile := by
  have hseen : oneFile.foldlM (validateMember id) [] =
      .ok ["data/.pandamonium-backup-manifest.json", "data/notes.txt", "data"] := by
    decide +kernel
  unfold validateBackupMembers
  rw [hseen]
  rfl

theorem payload_oneFile :
    (oneFile.filter Member.isPayload).Perm ([notes].map DataFile.member) := by
  have hpayload : oneFile.map Member.isPayload = [false, true, false] := by decide +kernel
  obtain ⟨hdirectory, hrest⟩ := List.cons.inj hpayload
  obtain ⟨hnotes, hrest⟩ := List.cons.inj hrest
  obtain ⟨hmanifest, -⟩ := List.cons.inj hrest
  rw [oneFile, List.filter_cons_of_neg (by rw [hdirectory]; exact nofun),
    List.filter_cons_of_pos hnotes, List.filter_cons_of_neg (by rw [hmanifest]; exact nofun)]
  exact List.Perm.refl _

theorem backupContract_oneFile :
    (∃ summary, verifyBackupInventory id knownDigests oneFile oneFileManifest =
      .ok (.verified summary)) ∧
    ∃ entries, Lists oneFileManifest entries ∧
      Exact knownDigests (oneFile.filter Member.isPayload) entries := by
  obtain ⟨haccepts, hexact⟩ := backupContract id isSha256_knownDigests
  have hverified := haccepts [notes] oneFile oneFileManifest (List.nodup_singleton _)
    (by decide +kernel) payload_oneFile rfl rfl
  exact ⟨⟨_, hverified⟩, hexact oneFile oneFileManifest _ validate_oneFile hverified⟩

/-- A file that has the name of a manifest. -/
def stray : DataFile where
  names := [".odysseus-backup-manifest.json"]
  bytes := encodeAscii "hi"
  below := by decide
  valid := by decide

def strayManifest : Object :=
  [("schema", .str schemaV2),
    ("inventory", .dict (buildBackupInventory knownDigests [stray.entry knownDigests]))]

/-- The manifest is a regular file of a verified archive and not in its inventory, and the inventory
of a file with a manifest's name is not accepted. -/
theorem not_exactMembers_manifest :
    (∃ summary, validateBackupMembers id oneFile = .ok oneFile ∧
      verifyBackupInventory id knownDigests oneFile oneFileManifest = .ok (.verified summary) ∧
      ¬ ∃ entries, Lists oneFileManifest entries ∧
        Exact knownDigests (oneFile.filter fun member => member.kind = .file) entries) ∧
    ¬ ∃ summary, verifyBackupInventory id knownDigests [stray.member] strayManifest =
      .ok (.verified summary) := by
  have hfiles : ([notes].map DataFile.names).Nodup := List.nodup_singleton _
  refine ⟨⟨_, validate_oneFile, verified_snapshot isSha256_knownDigests hfiles
    (by decide +kernel) payload_oneFile rfl rfl, ?_⟩, ?_⟩
  · rintro ⟨entries, ⟨inventory, files, hinventory, hfiles, hstated⟩, hexact⟩
    have hlength := hexact.names.length_eq
    obtain rfl := Value.dict.inj (Option.some.inj hinventory)
    obtain rfl := Value.list.inj (Option.some.inj hfiles)
    rw [List.length_map, List.length_map, hstated.length_eq] at hlength
    revert hlength
    decide +kernel
  · rintro ⟨summary, hverified⟩
    obtain ⟨object, inventory, hobject, hinventory, hverify⟩ := verified_eq_ok hverified
    obtain rfl := Value.dict.inj (Option.some.inj hobject)
    have hfiles : [Value.dict (stray.entry knownDigests).toObject] = inventory.files :=
      Value.list.inj (Option.some.inj (files_of_readInventory hinventory))
    have hrefused : (readEntries [] [Value.dict (stray.entry knownDigests).toObject]).isOk =
        false := by decide +kernel
    obtain ⟨entries, hentries, -⟩ := bind_eq_ok hverify
    rw [← hfiles] at hentries
    rw [hentries] at hrefused
    cases hrefused

end Pandamonium.BackupArchive
