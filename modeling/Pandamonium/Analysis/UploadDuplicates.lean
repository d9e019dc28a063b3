import Pandamonium.Model.UploadHandler

/-!
# Uploads that are returned are there

A row that was found is taken up again in a later section, and a cleanup between the two removes the
row with its file; the row is then put back without one.  Where no cleanup does that, every upload
that is returned has its row in the index, and the row its file.
-/

set_option autoImplicit false

namespace Pandamonium.Uploads

open Pandamonium.Library

variable {η : Type} [DecidableEq η] {s s' : Store η} {w w' : Serving (Store η) (Frame η)}
  {call : ℕ} {owner : Option String} {hash : η} {path : UploadPath}

/-- The index has a row for the id that was returned, and the row its file. -/
def Backed (s : Store η) : Prop :=
  ∀ id, s.answered = some id → ∃ index key row, s.live = some index ∧
    index.get? key = some row ∧ row.id = id ∧ row.path ∈ s.files

/-- The index has a row for the id. -/
def isIndexed (s : Store η) (id : ℕ) : Bool :=
  match s.live with
  | none => false
  | some index => index.values.any fun row => decide (row.id = id)

/-- The call has found a row with the file, and is to take it up again. -/
def hasFound (path : UploadPath) : Frame η → Bool
  | .found _ _ _ row => decide (row.path = path)
  | _ => false

/-- No cleanup removes a file that a call has found and is to take up again; and the index is written
where it has no row for the upload yet. -/
def spares (w : Serving (Store η) (Frame η)) : Turn (Frame η) (Occurrence η) → Bool
  | .begins _ _ => true
  | .goesOn call o =>
    match w.calls.get? call, o with
    | some (.found owner hash key row), .reuses _ written =>
      written || isIndexed w.store (taken owner hash key row (load w.store)).2.id
    | some (.inserts _ _ _ _), .inserts written => written
    | some .cleans, .cleans references now removal =>
      w.store.files.all fun path =>
        decide (path ∈ (cleanupOldUploads references now removal w.store).files) ||
          !w.calls.values.any (hasFound path)
    | _, _ => true

/-- The condition on a turn is one on the runs. -/
def sparing (w : Serving (Store η) (Frame η)) (turn : Turn (Frame η) (Occurrence η)) : Prop :=
  spares w turn = true

instance : DecidableRel (sparing (η := η)) :=
  fun w turn => inferInstanceAs (Decidable (spares w turn = true))

/-! ## A cleanup -/

/-- What a cleanup does to the index and the files. -/
structure Swept (sweep sweep' : Sweep η) : Prop where
  fewer : ∀ key row, sweep'.index.get? key = some row → sweep.index.get? key = some row
  backed : (∀ key row, sweep.index.get? key = some row → row.path ∈ sweep.files) →
    ∀ key row, sweep'.index.get? key = some row → row.path ∈ sweep'.files
  removed : ∀ path ∈ sweep.files, path ∉ sweep'.files →
    ∃ key row, sweep.index.get? key = some row ∧ row.path = path
  files : ∀ path ∈ sweep'.files, path ∈ sweep.files

theorem Swept.refl (sweep : Sweep η) : Swept sweep sweep :=
  ⟨fun _ _ h => h, fun h => h, fun _ h hnot => absurd h hnot, fun _ h => h⟩

theorem Swept.trans {a b c : Sweep η} (h : Swept a b) (h' : Swept b c) : Swept a c where
  fewer := fun key row hrow => h.fewer key row (h'.fewer key row hrow)
  backed := fun hbacked => h'.backed (h.backed hbacked)
  files := fun path hpath => h.files path (h'.files path hpath)
  removed := by
    intro path hpath hnot
    by_cases hthere : path ∈ b.files
    · obtain ⟨key, row, hrow, hrowPath⟩ := h'.removed path hthere hnot
      exact ⟨key, row, h.fewer key row hrow, hrowPath⟩
    · exact h.removed path hpath hthere

/-- The keys for a file are those of all its rows, if there are any. -/
theorem mem_uploadIndexKeysForFile {index : Index η} {keys : List (Key η)}
    (hkeys : uploadIndexKeysForFile index path = keys) (hne : keys ≠ []) {key : Key η} {row : Row η}
    (hrow : index.get? key = some row) (hpath : row.path = path) : key ∈ keys := by
  rw [uploadIndexKeysForFile] at hkeys
  split at hkeys
  case isTrue =>
    rw [← hkeys]
    refine List.mem_map.mpr ⟨(key, row), List.mem_filter.mpr
      ⟨(index.mem_items_iff key row).mpr hrow, ?_⟩, rfl⟩
    rw [isRelated, decide_eq_true hpath, Bool.or_true]
  case isFalse => exact absurd hkeys.symm hne

/-- A row of a file whose rows have keys is one of the file. -/
theorem exists_row_of_keys {index : Index η} {key : Key η}
    (hkey : key ∈ uploadIndexKeysForFile index path) :
    ∃ row, index.get? key = some row ∧ row.path = path := by
  rw [uploadIndexKeysForFile] at hkey
  split at hkey
  case isTrue hall =>
    obtain ⟨⟨key', row⟩, hitem, rfl⟩ := List.mem_map.mp hkey
    have hcoherent := List.all_eq_true.mp (Bool.and_eq_true_iff.mp hall).1 _ hitem
    simp only [isCoherent, Bool.and_eq_true, decide_eq_true_eq] at hcoherent
    exact ⟨row, (index.mem_items_iff key' row).mp (List.mem_filter.mp hitem).1, hcoherent.1.1.2⟩
  case isFalse => cases hkey

/-- Rows are removed with their file, or without it. -/
theorem swept_reduced {sweep sweep' : Sweep η}
    (hne : uploadIndexKeysForFile sweep.index path ≠ [])
    (hindex : sweep'.index =
      (uploadIndexKeysForFile sweep.index path).foldl Dict.erase sweep.index)
    (hfiles : sweep'.files = sweep.files ∨
      sweep'.files = sweep.files.filter fun p => decide (p ≠ path)) : Swept sweep sweep' := by
  have hget : ∀ key row, sweep'.index.get? key = some row →
      key ∉ uploadIndexKeysForFile sweep.index path ∧ sweep.index.get? key = some row := by
    intro key row hrow
    rw [hindex, Dict.get?_foldl_erase] at hrow
    exact Option.ite_none_left_eq_some.mp hrow
  refine ⟨fun key row hrow => (hget key row hrow).2, fun hbacked key row hrow => ?_, ?_, ?_⟩
  · obtain ⟨hkey, hbefore⟩ := hget key row hrow
    have hmem := hbacked key row hbefore
    obtain hsame | hfewer := hfiles
    · rw [hsame]
      exact hmem
    · rw [hfewer]
      refine List.mem_filter.mpr ⟨hmem, decide_eq_true fun hpath => hkey ?_⟩
      exact mem_uploadIndexKeysForFile rfl hne hbefore hpath
  · intro p hp hgone
    obtain hsame | hfewer := hfiles
    · exact absurd (hsame ▸ hp) hgone
    · have hpath : p = path := by
        by_contra hother
        exact hgone (hfewer ▸ List.mem_filter.mpr ⟨hp, decide_eq_true hother⟩)
      obtain ⟨key, hkey⟩ := List.exists_mem_of_ne_nil _ hne
      obtain ⟨row, hrow, hrowPath⟩ := exists_row_of_keys hkey
      exact ⟨key, row, hrow, hrowPath.trans hpath.symm⟩
  · intro p hp
    obtain hsame | hfewer := hfiles
    · exact hsame ▸ hp
    · rw [hfewer] at hp
      exact (List.mem_filter.mp hp).1

theorem swept_sweepFile (references : References η) (cutoffDate : ℕ) (removal : ℕ → Removal)
    (sweep : Sweep η) (path : UploadPath) :
    Swept sweep (sweepFile references cutoffDate removal sweep path) := by
  rw [sweepFile]
  split
  case isTrue => exact Swept.refl sweep
  case isFalse =>
    split
    case isTrue => exact Swept.refl sweep
    case isFalse hrows =>
      have hne : uploadIndexKeysForFile sweep.index path ≠ [] := by
        intro hnil
        rw [hnil] at hrows
        exact hrows rfl
      split
      case h_1 => exact swept_reduced hne rfl (.inr rfl)
      case h_2 => exact Swept.refl sweep
      case h_3 => exact ⟨fun _ _ h => h, fun h => h, fun _ h hnot => absurd h hnot, fun _ h => h⟩
      case h_4 => exact Swept.refl sweep
      case h_5 => exact swept_reduced hne rfl (.inl rfl)

theorem swept_foldl (references : References η) (cutoffDate : ℕ) (removal : ℕ → Removal)
    (sweep : Sweep η) (files : List UploadPath) :
    Swept sweep (files.foldl (sweepFile references cutoffDate removal) sweep) := by
  induction files generalizing sweep with
  | nil => exact Swept.refl sweep
  | cons path files ih =>
    exact (swept_sweepFile references cutoffDate removal sweep path).trans (ih _)

/-! ## Files that are listed -/

/-- A row of the index has the path. -/
def HasPath (index : Index η) (path : UploadPath) : Prop :=
  ∃ key row, index.get? key = some row ∧ row.path = path

/-- A row has the path: one of the index, of the cache, or one that a call has found. -/
def Listed (w : Serving (Store η) (Frame η)) (path : UploadPath) : Prop :=
  (∃ index, w.store.live = some index ∧ HasPath index path) ∨ HasPath w.store.cache path ∨
    ∃ call owner hash key row, w.calls.get? call = some (.found owner hash key row) ∧
      row.path = path

/-- The call has stored the file, and is to put its row in the index. -/
def Inserts (w : Serving (Store η) (Frame η)) (call : ℕ) (path : UploadPath) : Prop :=
  ∃ owner hash createdAt, w.calls.get? call = some (.inserts owner hash path createdAt)

theorem HasPath.of_set {index : Index η} {key : Key η} {row : Row η}
    (h : HasPath (index.set key row) path) : row.path = path ∨ HasPath index path := by
  obtain ⟨key', row', hrow, hpath⟩ := h
  rw [Dict.get?_set] at hrow
  split at hrow
  case isTrue =>
    obtain rfl := Option.some.inj hrow
    exact .inl hpath
  case isFalse => exact .inr ⟨key', row', hrow, hpath⟩

theorem HasPath.of_foldl_erase {index : Index η} {keys : List (Key η)}
    (h : HasPath (keys.foldl Dict.erase index) path) : HasPath index path := by
  obtain ⟨key, row, hrow, hpath⟩ := h
  rw [Dict.get?_foldl_erase] at hrow
  exact ⟨key, row, (Option.ite_none_left_eq_some.mp hrow).2, hpath⟩

theorem HasPath.of_load (h : HasPath (load s) path) : HasPath s.cache path := by
  rw [load] at h
  split at h
  case isTrue => exact h
  case isFalse =>
    obtain ⟨key, row, hrow, -⟩ := h
    cases hrow

theorem findDuplicate_mem {files : List UploadPath} {items : List (Key η × Row η)} {key : Key η}
    {row : Row η} (h : (findDuplicate owner hash files items).2 = some (key, row)) :
    (key, row) ∈ items := by
  induction items with
  | nil => cases h
  | cons item items ih =>
    rw [findDuplicate] at h
    split at h
    case isTrue =>
      split at h
      case isTrue =>
        exact Option.some.inj h ▸ List.mem_cons_self
      case isFalse => exact List.mem_cons_of_mem item (ih h)
    case isFalse => exact List.mem_cons_of_mem item (ih h)

/-- The row that is taken up is the one that was found, or one of the index. -/
theorem taken_cases (index : Index η) (key : Key η) (row : Row η) :
    (taken owner hash key row index).2 = row ∨
      HasPath index (taken owner hash key row index).2.path := by
  rw [taken]
  split
  case isTrue => exact .inl rfl
  case isFalse =>
    cases hfind : index.items.find? fun item => duplicates owner hash item.2 with
    | none => exact .inl rfl
    | some item =>
      have hitem := (index.mem_items_iff item.1 item.2).mp (List.mem_of_find?_eq_some hfind)
      exact .inr ⟨item.1, item.2, hitem, rfl⟩

/-- No file is stored or removed, and what has a path had it before. -/
structure Fewer (s s' : Store η) : Prop where
  files : s'.files = s.files
  created : s'.created = s.created
  live : ∀ index path, s'.live = some index → HasPath index path →
    HasPath s.cache path ∨ s.live = some index
  cache : ∀ path, HasPath s'.cache path → HasPath s.cache path

theorem fewer_dropStale (stale : List (Key η)) (written : Bool) (s : Store η) :
    Fewer s (dropStale stale written s) ∧ (dropStale stale written s).answered = none := by
  have hindex : ∀ path, HasPath (stale.foldl Dict.erase (load s)) path → HasPath s.cache path :=
    fun path hpath => hpath.of_foldl_erase.of_load
  rw [dropStale]
  split
  case isTrue => exact ⟨⟨rfl, rfl, fun _ _ hlive _ => .inr hlive, hindex⟩, rfl⟩
  case isFalse =>
    rw [atomicWriteJson]
    split
    case isTrue =>
      refine ⟨⟨rfl, rfl, fun i path hlive hpath => .inl ?_, hindex⟩, rfl⟩
      obtain rfl := Option.some.inj hlive
      exact hindex path hpath
    case isFalse => exact ⟨⟨rfl, rfl, fun _ _ hlive _ => .inr hlive, hindex⟩, rfl⟩

/-! ## What the turns keep -/

/-- The rows have their files, also those that are to be put in the index, and these are new. -/
structure Kept (w : Serving (Store η) (Frame η)) : Prop where
  stored : ∀ path, Listed w path → path ∈ w.store.files
  inserting : ∀ call path, Inserts w call path → path ∈ w.store.files ∧ ¬ Listed w path
  single : ∀ call call' path, Inserts w call path → Inserts w call' path → call = call'
  numbered : ∀ path ∈ w.store.files, path.fileId < w.store.created
  backed : Backed w.store

/-- The rows of the store, and the one a call goes on with, have paths that were listed. -/
theorem listed_follow {next : Option (Frame η)}
    (hlive : ∀ index path, s'.live = some index → HasPath index path → Listed w path)
    (hcache : ∀ path, HasPath s'.cache path → Listed w path)
    (hfound : ∀ owner hash key row, next = some (.found owner hash key row) → Listed w row.path)
    (path : UploadPath) (h : Listed ⟨s', Service.follow w.calls call next⟩ path) :
    Listed w path := by
  obtain ⟨index, hindex, hpath⟩ | hpath | ⟨i, owner, hash, key, row, hi, rfl⟩ := h
  · exact hlive index path hindex hpath
  · exact hcache path hpath
  · obtain hnext | hbefore := Service.get?_follow hi
    · exact hfound owner hash key row hnext
    · exact .inr (.inr ⟨i, owner, hash, key, row, hbefore, rfl⟩)

omit [DecidableEq η] in
/-- The calls that are to put a row in the index were so before, where the one that goes on is not. -/
theorem inserts_follow {next : Option (Frame η)}
    (hnext : ∀ owner hash path createdAt, next ≠ some (.inserts owner hash path createdAt))
    {i : ℕ} (h : Inserts ⟨s', Service.follow w.calls call next⟩ i path) :
    i ≠ call ∧ Inserts w i path := by
  obtain ⟨owner, hash, createdAt, hi⟩ := h
  rw [Service.get?_follow_eq] at hi
  split at hi
  case isTrue => exact absurd hi (hnext owner hash path createdAt)
  case isFalse hne => exact ⟨hne, owner, hash, createdAt, hi⟩

/-- No file is stored or removed, and no path is listed that was not. -/
theorem Kept.of_fewer (h : Kept w) (hfiles : w'.store.files = w.store.files)
    (hcreated : w'.store.created = w.store.created) (hlisted : ∀ path, Listed w' path → Listed w path)
    (hinserts : ∀ call path, Inserts w' call path → Inserts w call path)
    (hbacked : Backed w'.store) : Kept w' where
  stored := fun path hpath => hfiles ▸ h.stored path (hlisted path hpath)
  inserting := fun call path hpath =>
    have hbefore := h.inserting call path (hinserts call path hpath)
    ⟨hfiles ▸ hbefore.1, fun hnow => hbefore.2 (hlisted path hnow)⟩
  single := fun call call' path hpath hpath' =>
    h.single call call' path (hinserts call path hpath) (hinserts call' path hpath')
  numbered := fun path hpath => hcreated ▸ h.numbered path (hfiles ▸ hpath)
  backed := hbacked

theorem backed_of_none (h : s.answered = none) : Backed s := by
  intro id hid
  rw [h] at hid
  cases hid

theorem Fewer.listed (h : Fewer w.store s') :
    (∀ index path, s'.live = some index → HasPath index path → Listed w path) ∧
      ∀ path, HasPath s'.cache path → Listed w path := by
  refine ⟨fun index path hlive hpath => ?_, fun path hpath => .inr (.inl (h.cache path hpath))⟩
  obtain hcached | hbefore := h.live index path hlive hpath
  · exact .inr (.inl hcached)
  · exact .inl ⟨index, hbefore, hpath⟩

theorem Kept.look (h : Kept w) (now : ℕ) (written : Bool) :
    Kept ⟨(look owner hash now written w.store).1,
      Service.follow w.calls call (some (look owner hash now written w.store).2)⟩ := by
  rw [Uploads.look]
  dsimp only
  obtain ⟨hdrop, hanswered⟩ := fewer_dropStale
    (findDuplicate owner hash w.store.files (load w.store).items).1 written w.store
  split
  case h_1 =>
    exact h.of_fewer hdrop.files hdrop.created
      (listed_follow hdrop.listed.1 hdrop.listed.2 nofun)
      (fun _ _ hinserts => (inserts_follow nofun hinserts).2) (backed_of_none hanswered)
  case h_2 key row hfound =>
    have hrow : Listed w row.path := by
      have hmem := ((load w.store).mem_items_iff key row).mp (findDuplicate_mem hfound)
      exact .inr (.inl (HasPath.of_load ⟨key, row, hmem, rfl⟩))
    refine h.of_fewer hdrop.files hdrop.created (listed_follow hdrop.listed.1 ?_ ?_)
      (fun _ _ hinserts => (inserts_follow nofun hinserts).2) (backed_of_none hanswered)
    · intro path hpath
      obtain rfl | hcached := hpath.of_set
      · exact hrow
      · exact hdrop.listed.2 path hcached
    · rintro owner' hash' key' row' ⟨⟩
      exact hrow

theorem exists_of_isIndexed {id : ℕ} (h : isIndexed s id = true) :
    ∃ index key row, s.live = some index ∧ index.get? key = some row ∧ row.id = id := by
  rw [isIndexed] at h
  split at h
  case h_1 => cases h
  case h_2 index hlive =>
    obtain ⟨row, hmem, hid⟩ := List.any_eq_true.mp h
    obtain ⟨key, hrow⟩ := (index.mem_values_iff row).mp hmem
    exact ⟨index, key, row, hlive, hrow, of_decide_eq_true hid⟩

theorem Kept.reuse (h : Kept w) {key : Key η} {row : Row η} {now : ℕ} {written : Bool}
    (hcall : w.calls.get? call = some (.found owner hash key row))
    (hspares : (written ||
      isIndexed w.store (taken owner hash key row (load w.store)).2.id) = true) :
    Kept ⟨reuse owner hash key row now written w.store, Service.follow w.calls call none⟩ := by
  rw [Uploads.reuse]
  set found := taken owner hash key row (load w.store) with hfound
  set index := (load w.store).set found.1 { found.2 with lastAccessed := now } with hindex
  have hrow : Listed w found.2.path := by
    obtain htaken | htaken := @taken_cases _ _ owner hash (load w.store) key row
    · exact .inr (.inr ⟨call, owner, hash, key, row, hcall, by rw [hfound, htaken]⟩)
    · exact .inr (.inl htaken.of_load)
  have hlisted : ∀ path, HasPath index path → Listed w path := by
    intro path hpath
    obtain rfl | hload := hpath.of_set
    · exact hrow
    · exact .inr (.inl hload.of_load)
  cases written with
  | true =>
    refine h.of_fewer rfl rfl (listed_follow ?_ hlisted nofun)
      (fun _ _ hinserts => (inserts_follow nofun hinserts).2) ?_
    · intro index' path hlive hpath
      obtain rfl := Option.some.inj hlive
      exact hlisted path hpath
    · intro id hid
      obtain rfl := Option.some.inj hid
      exact ⟨index, found.1, _, rfl, Dict.get?_set_self _ _ _, rfl, h.stored _ hrow⟩
  | false =>
    refine h.of_fewer rfl rfl (listed_follow ?_ hlisted nofun)
      (fun _ _ hinserts => (inserts_follow nofun hinserts).2) ?_
    · exact fun index' path hlive hpath => .inl ⟨index', hlive, hpath⟩
    · intro id hid
      obtain rfl := Option.some.inj hid
      obtain ⟨index', key', row', hlive, hget, hid'⟩ := exists_of_isIndexed hspares
      exact ⟨index', key', row', hlive, hget, hid',
        h.stored _ (.inl ⟨index', hlive, key', row', hget, rfl⟩)⟩

/-- A call stores its file, under a path that is new. -/
theorem Kept.saveFile (h : Kept w) (now : ℕ) :
    Kept ⟨(saveFile now w.store).1,
      Service.follow w.calls call (some (.inserts owner hash (saveFile now w.store).2 now))⟩ := by
  have hlisted : ∀ path, Listed ⟨(Uploads.saveFile now w.store).1,
      Service.follow w.calls call (some (.inserts owner hash (Uploads.saveFile now w.store).2 now))⟩
        path → Listed w path :=
    listed_follow (fun index path hlive hpath => .inl ⟨index, hlive, hpath⟩)
      (fun path hpath => .inr (.inl hpath)) nofun
  have hinserts : ∀ i path, Inserts ⟨(Uploads.saveFile now w.store).1,
      Service.follow w.calls call (some (.inserts owner hash (Uploads.saveFile now w.store).2 now))⟩
        i path →
      (i = call ∧ path = ⟨now / day, w.store.created⟩) ∨ Inserts w i path := by
    rintro i path ⟨owner', hash', createdAt, hi⟩
    rw [Service.get?_follow_eq] at hi
    split at hi
    case isTrue hcall =>
      cases hi
      exact .inl ⟨hcall, rfl⟩
    case isFalse => exact .inr ⟨owner', hash', createdAt, hi⟩
  -- the path is not one that was there
  have hnew : (⟨now / day, w.store.created⟩ : UploadPath) ∉ w.store.files :=
    fun hmem => absurd (h.numbered _ hmem) (Nat.lt_irrefl _)
  refine ⟨?_, ?_, ?_, ?_, backed_of_none rfl⟩
  · exact fun path hpath => List.mem_cons_of_mem _ (h.stored path (hlisted path hpath))
  · intro i path hi
    obtain ⟨-, rfl⟩ | hbefore := hinserts i path hi
    · exact ⟨List.mem_cons_self, fun hnow => hnew (h.stored _ (hlisted _ hnow))⟩
    · obtain ⟨hmem, hnot⟩ := h.inserting i path hbefore
      exact ⟨List.mem_cons_of_mem _ hmem, fun hnow => hnot (hlisted path hnow)⟩
  · intro i j path hi hj
    obtain ⟨rfl, rfl⟩ | hi' := hinserts i path hi
    · obtain ⟨rfl, -⟩ | hj' := hinserts j _ hj
      · rfl
      · exact absurd (h.inserting j _ hj').1 hnew
    · obtain ⟨rfl, rfl⟩ | hj' := hinserts j path hj
      · exact absurd (h.inserting i _ hi').1 hnew
      · exact h.single i j path hi' hj'
  · intro path hpath
    obtain rfl | hbefore := List.mem_cons.mp hpath
    · exact Nat.lt_succ_self _
    · exact Nat.lt_succ_of_lt (h.numbered path hbefore)

theorem Kept.insert (h : Kept w) {createdAt : ℕ}
    (hcall : w.calls.get? call = some (.inserts owner hash path createdAt)) :
    Kept ⟨insert owner hash path createdAt true w.store, Service.follow w.calls call none⟩ := by
  have hthis : Inserts w call path := ⟨owner, hash, createdAt, hcall⟩
  set row : Row η := ⟨path.fileId, path, hash, hash, createdAt, createdAt, createdAt, owner⟩
  set index := (load w.store).set (storageKey owner hash) row with hindex
  have hstore : ∃ s : Store η, Uploads.insert owner hash path createdAt true w.store = s ∧
      s.live = some index ∧ s.cache = index ∧ s.files = w.store.files ∧
      s.created = w.store.created ∧ s.answered = some path.fileId := by
    refine ⟨_, rfl, rfl, rfl, ?_, ?_, rfl⟩
    · show (if w.store.live.isSome then _ else _ : Store η).files = _
      split <;> rfl
    · show (if w.store.live.isSome then _ else _ : Store η).created = _
      split <;> rfl
  obtain ⟨s, hs, hlive, hcache, hfiles, hcreated, hanswered⟩ := hstore
  rw [hs]
  have hpaths : ∀ p, HasPath index p → p = path ∨ Listed w p := by
    intro p hp
    obtain rfl | hload := hp.of_set
    · exact .inl rfl
    · exact .inr (.inr (.inl hload.of_load))
  have hlisted : ∀ p, Listed ⟨s, Service.follow w.calls call none⟩ p → p = path ∨ Listed w p := by
    rintro p (⟨i, hi, hp⟩ | hp | ⟨j, owner', hash', key, row', hj, hp⟩)
    · obtain rfl := Option.some.inj (hlive.symm.trans hi)
      exact hpaths p hp
    · exact hpaths p (hcache ▸ hp)
    · obtain hnext | hbefore := Service.get?_follow hj
      · cases hnext
      · exact .inr (.inr (.inr ⟨j, owner', hash', key, row', hbefore, hp⟩))
  refine ⟨?_, ?_, ?_, ?_, ?_⟩
  · intro p hp
    show p ∈ s.files
    rw [hfiles]
    obtain rfl | hbefore := hlisted p hp
    · exact (h.inserting call p hthis).1
    · exact h.stored p hbefore
  · intro i p hi
    obtain ⟨hne, hbefore⟩ := inserts_follow nofun hi
    obtain ⟨hmem, hnot⟩ := h.inserting i p hbefore
    refine ⟨hfiles ▸ hmem, fun hnow => ?_⟩
    obtain rfl | hbefore' := hlisted p hnow
    · exact hne (h.single i call p hbefore hthis)
    · exact hnot hbefore'
  · intro i j p hi hj
    exact h.single i j p (inserts_follow nofun hi).2 (inserts_follow nofun hj).2
  · intro p hp
    show p.fileId < s.created
    rw [hcreated]
    exact h.numbered p (hfiles ▸ hp)
  · intro id hid
    obtain rfl := Option.some.inj (hanswered.symm.trans hid)
    refine ⟨index, storageKey owner hash, row, hlive, Dict.get?_set_self _ _ _, rfl, ?_⟩
    rw [hfiles]
    exact (h.inserting call path hthis).1

/-- A cleanup changes nothing, or sweeps the index and the files. -/
theorem cleanup_cases (references : Option (References η)) (now : ℕ) (removal : ℕ → Removal)
    (s : Store η) :
    cleanupOldUploads references now removal s = { s with answered := none } ∨
      ∃ index sweep, s.live = some index ∧ Swept ⟨index, s.files, false⟩ sweep ∧
        cleanupOldUploads references now removal s =
          { s with
            live := some sweep.index
            cache := sweep.index
            files := sweep.files
            answered := none } := by
  unfold cleanupOldUploads
  split
  case h_1 references index hlive =>
    exact .inr ⟨index, _, hlive, swept_foldl references _ removal ⟨index, s.files, false⟩ s.files,
      rfl⟩
  case h_2 => exact .inl rfl

/-- A cleanup leaves the files that calls have found. -/
theorem Kept.cleanup (h : Kept w) {references : Option (References η)} {now : ℕ}
    {removal : ℕ → Removal}
    (hspares : ∀ path ∈ w.store.files,
      path ∉ (cleanupOldUploads references now removal w.store).files →
        ∀ call frame, w.calls.get? call = some frame → hasFound path frame = false) :
    Kept ⟨cleanupOldUploads references now removal w.store,
      Service.follow w.calls call none⟩ := by
  obtain hsame | ⟨index, sweep, hlive, hswept, hs⟩ :=
    cleanup_cases references now removal w.store
  · rw [hsame]
    exact h.of_fewer rfl rfl
      (listed_follow (fun index path hlive hpath => .inl ⟨index, hlive, hpath⟩)
        (fun path hpath => .inr (.inl hpath)) nofun)
      (fun _ _ hinserts => (inserts_follow nofun hinserts).2) (backed_of_none rfl)
  · rw [hs] at hspares ⊢
    have hbacked : ∀ path, HasPath sweep.index path → path ∈ sweep.files := by
      rintro path ⟨key, row, hrow, rfl⟩
      exact hswept.backed (fun key row hrow => h.stored _ (.inl ⟨index, hlive, key, row, hrow, rfl⟩))
        key row hrow
    have hbefore : ∀ path, HasPath sweep.index path → Listed w path := by
      rintro path ⟨key, row, hrow, rfl⟩
      exact .inl ⟨index, hlive, key, row, hswept.fewer key row hrow, rfl⟩
    have hlisted : ∀ path, Listed (⟨{ w.store with
        live := some sweep.index
        cache := sweep.index
        files := sweep.files
        answered := none }, Service.follow w.calls call none⟩ :
          Serving (Store η) (Frame η)) path → Listed w path := by
      refine listed_follow (fun index' path hlive' hpath => ?_) hbefore nofun
      obtain rfl := Option.some.inj hlive'
      exact hbefore path hpath
    refine ⟨?_, ?_, ?_, ?_, backed_of_none rfl⟩
    · rintro path (⟨index', hlive', hpath⟩ | hpath | ⟨i, owner, hash, key, row, hi, rfl⟩)
      · obtain rfl := Option.some.inj hlive'
        exact hbacked path hpath
      · exact hbacked path hpath
      · obtain hnext | hfound := Service.get?_follow hi
        · cases hnext
        · -- the row is one that a call has found
          by_contra hgone
          have hmem := h.stored row.path (.inr (.inr ⟨i, owner, hash, key, row, hfound, rfl⟩))
          have hnot := hspares row.path hmem hgone i _ hfound
          exact absurd ((decide_eq_true rfl).symm.trans hnot) Bool.noConfusion
    · intro i path hi
      obtain ⟨hmem, hnot⟩ := h.inserting i path (inserts_follow nofun hi).2
      refine ⟨?_, fun hnow => hnot (hlisted path hnow)⟩
      by_contra hgone
      obtain ⟨key, row, hrow, hpath⟩ := hswept.removed path hmem hgone
      exact hnot (.inl ⟨index, hlive, key, row, hrow, hpath⟩)
    · intro i j path hi hj
      exact h.single i j path (inserts_follow nofun hi).2 (inserts_follow nofun hj).2
    · exact fun path hpath => h.numbered path (hswept.files path hpath)

theorem Kept.begins (h : Kept w) {frame : Frame η} (hentry : frame.entry = true) :
    Kept { w with calls := w.calls.set call frame } := by
  refine h.of_fewer rfl rfl (fun path hpath => ?_) (fun i path hi => ?_) h.backed
  · obtain hlive | hcache | ⟨i, owner, hash, key, row, hi, rfl⟩ := hpath
    · exact .inl hlive
    · exact .inr (.inl hcache)
    · rw [Dict.get?_set] at hi
      split at hi
      case isTrue =>
        obtain rfl := Option.some.inj hi
        cases hentry
      case isFalse => exact .inr (.inr ⟨i, owner, hash, key, row, hi, rfl⟩)
  · obtain ⟨owner, hash, createdAt, hi⟩ := hi
    rw [Dict.get?_set] at hi
    split at hi
    case isTrue =>
      obtain rfl := Option.some.inj hi
      cases hentry
    case isFalse => exact ⟨owner, hash, createdAt, hi⟩

theorem Kept.goesOn (h : Kept w) {o : Occurrence η}
    (hspares : sparing w (.goesOn call o)) {frame : Frame η} {next : Option (Frame η)}
    (hcall : w.calls.get? call = some frame) (hadvance : advance w.store frame o = some (s, next)) :
    Kept ⟨s, Service.follow w.calls call next⟩ := by
  unfold sparing spares at hspares
  dsimp only at hspares
  rw [hcall] at hspares
  cases frame with
  | looks owner hash =>
    cases o with
    | looks now written =>
      cases hadvance
      exact h.look now written
    | _ => cases hadvance
  | found owner hash key row =>
    cases o with
    | reuses now written =>
      cases hadvance
      exact h.reuse hcall hspares
    | _ => cases hadvance
  | saves owner hash =>
    cases o with
    | saves now =>
      cases hadvance
      exact h.saveFile now
    | fails =>
      cases hadvance
      exact h.of_fewer rfl rfl
        (listed_follow (fun index path hlive hpath => .inl ⟨index, hlive, hpath⟩)
          (fun path hpath => .inr (.inl hpath)) nofun)
        (fun _ _ hinserts => (inserts_follow nofun hinserts).2) (backed_of_none rfl)
    | _ => cases hadvance
  | inserts owner hash path createdAt =>
    cases o with
    | inserts written =>
      cases hadvance
      obtain rfl : written = true := hspares
      exact h.insert hcall
    | _ => cases hadvance
  | cleans =>
    cases o with
    | cleans references now removal =>
      cases hadvance
      refine h.cleanup fun path hmem hgone i frame hi => ?_
      have hpath := List.all_eq_true.mp hspares path hmem
      rw [decide_eq_false hgone, Bool.false_or, Bool.not_eq_true', List.any_eq_false] at hpath
      exact Bool.not_eq_true _ ▸ hpath frame ((w.calls.mem_values_iff frame).mpr ⟨i, hi⟩)
    | _ => cases hadvance

theorem kept_new : Kept (⟨.new, Dict.empty⟩ : Serving (Store η) (Frame η)) where
  stored := by
    rintro path (⟨index, hlive, -⟩ | ⟨key, row, hrow, -⟩ | ⟨i, owner, hash, key, row, hi, -⟩)
    · cases hlive
    · cases hrow
    · cases hi
  inserting := fun _ _ h => nomatch h.choose_spec.choose_spec.choose_spec
  single := fun _ _ _ h => nomatch h.choose_spec.choose_spec.choose_spec
  numbered := nofun
  backed := backed_of_none rfl

/-- In every run in which no cleanup removes a file that a call has found and is to take up again,
and in which the index is written where it has no row for an upload yet, the index has a row for each
id when it is returned, and the row its file. -/
theorem backed_of_spares {w : Serving (Store η) (Frame η)}
    (hw : (service.system isNew).ReachableWhere sparing w) : Backed w.store := by
  refine Kept.backed (hw.invariant ?_ fun w turn w' h hspares hturn => ?_)
  · rintro ⟨store, calls⟩ ⟨hstore, hcalls⟩
    obtain rfl : store = .new := hstore
    obtain rfl : calls = Dict.empty := hcalls
    exact kept_new
  · cases turn with
    | begins call frame =>
      obtain ⟨⟨hentry, -⟩, hw'⟩ := Option.ite_none_right_eq_some.mp hturn
      obtain rfl := Option.some.inj hw'
      exact h.begins hentry
    | goesOn call o =>
      simp only [Service.system, Service.step] at hturn
      split at hturn
      case h_1 => cases hturn
      case h_2 frame hcall =>
        obtain ⟨⟨s, next⟩, hadvance, rfl⟩ := Option.map_eq_some_iff.mp hturn
        exact h.goesOn hspares hcall hadvance

/-! ## Two runs -/

/-- No chat refers to anything. -/
def unreferenced : Option (References ℕ) := some ⟨[], []⟩

/-- A file is uploaded, and a long time after that once more, with a cleanup before. -/
theorem backed_again : ∃ w : Serving (Store ℕ) (Frame ℕ),
    (service.system isNew).ReachableWhere sparing w ∧
    (w.store.answered, w.store.files) = (some 1, [⟨40, 1⟩]) ∧ Backed w.store := by
  obtain ⟨w, hw, hseen⟩ := TransitionSystem.exists_reachableWhere_of_exec
    (service.system (isNew (η := ℕ))) sparing
    (fun w => (w.store.answered, w.store.files))
    [.begins 0 (.looks (some "ada") 5), .goesOn 0 (.looks 0 true), .goesOn 0 (.saves 0),
      .goesOn 0 (.inserts true), .begins 1 .cleans,
      .goesOn 1 (.cleans unreferenced (40 * day) fun _ => .removed),
      .begins 2 (.looks (some "ada") 5), .goesOn 2 (.looks (40 * day) true),
      .goesOn 2 (.saves (40 * day)), .goesOn 2 (.inserts true),
      .begins 3 (.looks (some "ada") 5), .goesOn 3 (.looks (40 * day) true),
      .goesOn 3 (.reuses (40 * day) true)]
    (v := (some 1, [⟨40, 1⟩])) (s := ⟨.new, Dict.empty⟩) ⟨rfl, rfl⟩ (by decide +kernel)
  exact ⟨w, hw, hseen, backed_of_spares hw⟩

/-- The cleanup comes between the two sections of the second upload. -/
theorem not_backed_cleaned : ∃ w : Serving (Store ℕ) (Frame ℕ),
    (service.system isNew).Reachable w ∧ ¬ Backed w.store := by
  obtain ⟨w, hw, hseen⟩ := TransitionSystem.exists_reachableWhere_of_exec
    (service.system (isNew (η := ℕ))) TransitionSystem.anyStep
    (fun w => (w.store.answered, w.store.files))
    [.begins 0 (.looks (some "ada") 5), .goesOn 0 (.looks 0 true), .goesOn 0 (.saves 0),
      .goesOn 0 (.inserts true), .begins 1 (.looks (some "ada") 5),
      .goesOn 1 (.looks (40 * day) true), .begins 2 .cleans,
      .goesOn 2 (.cleans unreferenced (40 * day) fun _ => .removed),
      .goesOn 1 (.reuses (40 * day) true)]
    (v := (some 0, [])) (s := ⟨.new, Dict.empty⟩) ⟨rfl, rfl⟩ (by decide +kernel)
  obtain ⟨hanswered, hfiles⟩ := Prod.mk.inj hseen
  refine ⟨w, hw, fun h => ?_⟩
  obtain ⟨index, key, row, -, -, -, hpath⟩ := h 0 hanswered
  rw [hfiles] at hpath
  cases hpath

end Pandamonium.Uploads
