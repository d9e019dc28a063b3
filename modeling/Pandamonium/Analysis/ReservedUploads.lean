import Pandamonium.Analysis.SweptUploads

/-!
# A reserved upload stays

After a reservation some row of the upload has been accessed at most five minutes before
(`Guarded`).  Both kinds of sections keep that as long as there are rows of the upload, so that a
cleanup with an earlier cutoff leaves its bytes alone.
-/

set_option autoImplicit false

namespace Pandamonium.UploadReservations

open Pandamonium.Library

variable {st : Settings} {references : References} {cutoffDate : ℤ} {index : Index}
  {uploadId key : String} {info : Object} {c : Candidate} {keys : List String} {since : ℤ}
  {r : Reservation} {live : Option Index}

/-- Where the index has rows of the upload, one of them was accessed since. -/
def Guarded (st : Settings) (uploadId : String) (since : ℤ) (index : Index) : Prop :=
  ∀ key info, index.get? key = some (.dict info) → hasText info "id" uploadId = true →
    ∃ key info accessed, index.get? key = some (.dict info) ∧ hasText info "id" uploadId = true ∧
      parseUploadTimestamp st (Object.get? info "last_accessed") = some accessed ∧
      since ≤ accessed

theorem hasText_unique {name : String} {a b : String} (ha : hasText info name a = true)
    (hb : hasText info name b = true) : a = b := by
  rw [hasText] at ha hb
  split at ha
  · rename_i s hs
    simp only [hs] at hb
    exact (eq_of_beq ha).symm.trans (eq_of_beq hb)
  · exact absurd ha Bool.false_ne_true

/-! ## Sections -/

/-- All rows of the upload are left out, or none of them. -/
theorem Guarded.erase {disk : Disk} {file targetPath : String}
    (h : Guarded st uploadId since index)
    (hkeys : KeysOf st disk index file targetPath keys) :
    Guarded st uploadId since (keys.foldl Dict.erase index) := by
  intro key info hget hid
  rw [Dict.get?_foldl_erase] at hget
  split at hget
  · cases hget
  · rename_i hkey
    by_cases hfile : file = uploadId
    · obtain ⟨owner, checksum, hcoherent⟩ := hkeys.coherent
      exact absurd (hcoherent key info hget (.inl (hfile ▸ hid))).2 hkey
    · obtain ⟨key', info', accessed, hget', hid', haccessed, hsince⟩ := h key info hget hid
      refine ⟨key', info', accessed, ?_, hid', haccessed, hsince⟩
      rw [Dict.get?_foldl_erase, if_neg, hget']
      intro hmem
      obtain ⟨info'', hget'', hid''⟩ := hkeys.ofId key' hmem
      obtain rfl := Value.dict.inj (Option.some.inj (hget'.symm.trans hget''))
      exact hfile (hasText_unique hid'' hid')

theorem Guarded.turn {s s' : Sweep} (hstep : s.InStep) (h : Guarded st uploadId since s.live)
    (hturn : Turn st references cutoffDate c s s') : Guarded st uploadId since s'.live := by
  cases hturn with
  | left heq => exact heq ▸ h
  | kept _ hlive _ _ => rwa [hlive]
  | reduced keys running removable hlive _ _ =>
    rw [hlive]
    rw [hstep running] at h
    exact h.erase (of_removableKeys removable).1

theorem mem_rowsWithId_iff : (key, info) ∈ rowsWithId index uploadId ↔
    index.get? key = some (.dict info) ∧ hasText info "id" uploadId = true := by
  rw [rowsWithId, List.mem_filterMap]
  constructor
  · rintro ⟨⟨key', value⟩, hmem, hrow⟩
    cases value with
    | dict info' =>
      dsimp only at hrow
      split at hrow
      · rename_i hid
        cases hrow
        exact ⟨get?_of_mem hmem, hid⟩
      · cases hrow
    | _ => cases hrow
  · rintro ⟨hget, hid⟩
    exact ⟨(key, .dict info), mem_of_get? hget, by simp [hid]⟩

theorem keys_filterMap_sublist {β γ : Type} {f : String × β → Option (String × γ)}
    (h : ∀ item row, f item = some row → row.1 = item.1) (items : List (String × β)) :
    ((items.filterMap f).map Prod.fst).Sublist (items.map Prod.fst) := by
  induction items with
  | nil => exact List.Sublist.slnil
  | cons item items ih =>
    cases hrow : f item with
    | none =>
      rw [List.filterMap_cons_none hrow]
      exact ih.cons _
    | some row =>
      rw [List.filterMap_cons_some hrow, List.map_cons, List.map_cons, h item row hrow]
      exact ih.cons_cons _

theorem nodup_rowsWithId (index : Index) (uploadId : String) :
    ((rowsWithId index uploadId).map Prod.fst).Nodup := by
  refine index.nodup.sublist (keys_filterMap_sublist (fun item row hrow => ?_) index.items)
  obtain ⟨key, value⟩ := item
  cases value with
  | dict info =>
    dsimp only at hrow
    split at hrow
    · cases hrow
      rfl
    · cases hrow
  | _ => cases hrow

theorem updatedIndex_eq (path : String) (rows : List (String × Object)) :
    updatedIndex st r path rows index =
      (rows.map fun row => (row.1, Value.dict (touched st r path row.2))).foldl
        (fun d item => d.set item.1 item.2) index := by
  rw [updatedIndex, List.foldl_map]

/-- Every row of the upload is touched, and no other. -/
theorem get?_updatedIndex_eq_some_iff {path : String} {info' : Object} :
    (updatedIndex st r path (rowsWithId index r.uploadId) index).get? key = some (.dict info') ↔
      (∃ info, index.get? key = some (.dict info) ∧ hasText info "id" r.uploadId = true ∧
        info' = touched st r path info) ∨
      (index.get? key = some (.dict info') ∧ hasText info' "id" r.uploadId = false) := by
  have hkeys : ((rowsWithId index r.uploadId).map fun row =>
      (row.1, Value.dict (touched st r path row.2))).map Prod.fst =
        (rowsWithId index r.uploadId).map Prod.fst := by
    rw [List.map_map]
    rfl
  have hnodup := hkeys ▸ nodup_rowsWithId index r.uploadId
  rw [updatedIndex_eq]
  by_cases hmem : key ∈ (rowsWithId index r.uploadId).map Prod.fst
  · obtain ⟨⟨key, info⟩, hrow, rfl⟩ := List.mem_map.mp hmem
    obtain ⟨hget, hid⟩ := mem_rowsWithId_iff.mp hrow
    have htouched := Dict.get?_foldl_set hnodup (List.mem_map_of_mem
      (f := fun row : String × Object => (row.1, Value.dict (touched st r path row.2))) hrow) index
    rw [htouched, Option.some_inj, Value.dict.injEq]
    constructor
    · rintro rfl
      exact .inl ⟨info, hget, hid, rfl⟩
    · rintro (⟨info'', hget', -, rfl⟩ | ⟨hget', hnot⟩)
      · rw [Value.dict.inj (Option.some.inj (hget.symm.trans hget'))]
      · rw [← Value.dict.inj (Option.some.inj (hget.symm.trans hget')), hid] at hnot
        exact absurd hnot (by simp)
  · rw [Dict.get?_foldl_set_of_not_mem (by rwa [hkeys])]
    have hnot : ∀ info, index.get? key = some (.dict info) → hasText info "id" r.uploadId = false := by
      intro info hget
      rw [← Bool.not_eq_true]
      exact fun hid => hmem (List.mem_map_of_mem (f := Prod.fst) (mem_rowsWithId_iff.mpr ⟨hget, hid⟩))
    constructor
    · exact fun hget => .inr ⟨hget, hnot info' hget⟩
    · rintro (⟨info, hget, hid, -⟩ | ⟨hget, -⟩)
      · exact absurd (hid.symm.trans (hnot info hget)) (by simp)
      · exact hget

theorem hasText_touched (path name : String) :
    hasText (touched st r path info) "id" name = hasText info "id" name := by
  rw [hasText, hasText, touched, Object.get?_set, if_neg (by decide), Object.get?_set,
    if_neg (by decide)]

theorem get?_touched (path : String) :
    Object.get? (touched st r path info) "last_accessed" = some (.str (st.isoformat r.now)) := by
  rw [touched, Object.get?_set, if_pos rfl]

/-- A written time is read again. -/
def ReadsBack (st : Settings) (now : ℤ) : Prop :=
  parseUploadTimestamp st (some (.str (st.isoformat now))) = some now

/-- A reservation of the upload touches all of its rows. -/
theorem guarded_updatedIndex (hread : ReadsBack st r.now) (hsince : since ≤ r.now) (path : String) :
    Guarded st r.uploadId since (updatedIndex st r path (rowsWithId index r.uploadId) index) := by
  intro key info hget hid
  obtain ⟨info₀, hget₀, hid₀, rfl⟩ | ⟨-, hnot⟩ := get?_updatedIndex_eq_some_iff.mp hget
  · refine ⟨key, _, r.now, hget, hid, ?_, hsince⟩
    rw [get?_touched]
    exact hread
  · exact absurd (hid.symm.trans hnot) (by simp)

/-- One of another upload leaves its rows as they are. -/
theorem Guarded.touched (h : Guarded st uploadId since index) (hne : r.uploadId ≠ uploadId)
    (path : String) :
    Guarded st uploadId since (updatedIndex st r path (rowsWithId index r.uploadId) index) := by
  have hsame : ∀ key info, hasText info "id" uploadId = true →
      ((updatedIndex st r path (rowsWithId index r.uploadId) index).get? key = some (.dict info) ↔
        index.get? key = some (.dict info)) := by
    intro key info hid
    have hnot : hasText info "id" r.uploadId = false := by
      rw [← Bool.not_eq_true]
      exact fun hother => hne (hasText_unique hother hid)
    rw [get?_updatedIndex_eq_some_iff]
    constructor
    · rintro (⟨info₀, -, hother, rfl⟩ | ⟨hget, -⟩)
      · rw [hasText_touched] at hnot
        exact absurd (hother.symm.trans hnot) (by simp)
      · exact hget
    · exact fun hget => .inr ⟨hget, hnot⟩
  intro key info hget hid
  obtain ⟨key', info', accessed, hget', hid', haccessed⟩ :=
    h key info ((hsame key info hid).mp hget) hid
  exact ⟨key', info', accessed, (hsame key' info' hid').mpr hget', hid', haccessed⟩

/-! ## Runs -/

theorem of_reservable {rows : List (String × Object)} {path : String}
    (h : reservable st r index = some (rows, info, path)) :
    rows = rowsWithId index r.uploadId ∧ ∃ key, (key, info) ∈ rows := by
  rw [reservable] at h
  split at h
  · cases h
  · split at h
    · cases h
    · rename_i key info' rows' hrows
      dsimp only at h
      split at h
      · cases h
      · split at h
        · obtain ⟨path', -, heq⟩ := Option.map_eq_some_iff.mp h
          cases heq
          exact ⟨hrows.symm, key, List.mem_cons_self ..⟩
        · cases h

/-- What a reservation leaves in `uploads.json`, and when it succeeds. -/
theorem reserveUpload_cases (st : Settings) (r : Reservation) (live : Option Index) :
    ((reserveUpload st r live).1 = live ∧
      ((reserveUpload st r live).2.isSome → ∃ current key info path, live = some current ∧
        (key, info) ∈ rowsWithId current r.uploadId ∧ needsWrite st r info path = false)) ∨
    ∃ current path, live = some current ∧ (reserveUpload st r live).1 =
      some (updatedIndex st r path (rowsWithId current r.uploadId) current) := by
  cases live with
  | none => exact .inl ⟨rfl, fun h => absurd h Bool.false_ne_true⟩
  | some current =>
    rw [reserveUpload]
    cases hreservable : reservable st r current with
    | none => exact .inl ⟨rfl, fun h => absurd h Bool.false_ne_true⟩
    | some found =>
      obtain ⟨rows, info, path⟩ := found
      obtain ⟨rfl, key, hrow⟩ := of_reservable hreservable
      dsimp only
      split
      · split
        · exact .inr ⟨current, path, rfl, rfl⟩
        · exact .inl ⟨rfl, fun h => absurd h Bool.false_ne_true⟩
      · rename_i hfresh
        rw [Bool.not_eq_true] at hfresh
        exact .inl ⟨rfl, fun _ => ⟨current, key, info, path, rfl, hrow, hfresh⟩⟩

/-- A reservation that succeeds finds or makes the upload one that was accessed at most five minutes
before. -/
theorem guarded_of_reserved (hread : ReadsBack st r.now)
    (h : (reserveUpload st r live).2.isSome = true) :
    ∀ index, (reserveUpload st r live).1 = some index →
      Guarded st r.uploadId (r.now - 5 * minute) index := by
  intro index hindex
  have hminute : 0 ≤ 5 * minute := by decide
  obtain ⟨hlive, hfresh⟩ | ⟨current, path, rfl, hwritten⟩ := reserveUpload_cases st r live
  · obtain ⟨current, key, info, path, rfl, hrow, hneeds⟩ := hfresh h
    obtain rfl := Option.some.inj (hlive.symm.trans hindex)
    obtain ⟨hget, hid⟩ := mem_rowsWithId_iff.mp hrow
    rw [needsWrite, Bool.or_eq_false_iff] at hneeds
    obtain ⟨-, haccessed⟩ := hneeds
    split at haccessed
    · exact absurd haccessed (by simp)
    · rename_i accessed hparsed
      exact fun _ _ _ _ => ⟨key, info, accessed, hget, hid, hparsed,
        Int.not_lt.mp (of_decide_eq_false haccessed)⟩
  · obtain rfl := Option.some.inj (hwritten.symm.trans hindex)
    exact guarded_updatedIndex hread (by omega) path

/-- A section keeps an upload guarded, where its own reservations are not made before. -/
theorem guarded_live {section_ : Lock}
    (hreserves : ∀ r, section_ = .reserves r → r.uploadId = uploadId →
      ReadsBack st r.now ∧ since ≤ r.now)
    (h : ∀ index, live = some index → Guarded st uploadId since index) :
    ∀ index, section_.live st live = some index → Guarded st uploadId since index := by
  intro index hindex
  cases section_ with
  | reserves r =>
    rw [Lock.live] at hindex
    obtain ⟨hlive, -⟩ | ⟨current, path, rfl, hwritten⟩ := reserveUpload_cases st r live
    · exact h index (hlive.symm.trans hindex)
    · obtain rfl := Option.some.inj (hwritten.symm.trans hindex)
      by_cases hid : r.uploadId = uploadId
      · obtain ⟨hread, hsince⟩ := hreserves r rfl hid
        exact hid ▸ guarded_updatedIndex hread hsince path
      · exact (h current rfl).touched hid path
  | cleans call =>
    rw [Lock.live, cleanupOldUploads] at hindex
    split at hindex
    · rename_i s hsweep
      obtain ⟨references, current, -, rfl, rfl⟩ := sweep_eq_some_iff.mp hsweep
      obtain rfl := Option.some.inj hindex
      exact (sweep_induction (P := fun s => Guarded st uploadId since s.live) references
        call.cutoffDate (fun s s' c hstep hturn hs => hs.turn hstep hturn) (candidates st call)
        (inStep_start current) (h current rfl)).2
    · exact h index hindex

theorem guarded_liveAfter {sections : List Lock}
    (hreserves : ∀ r, .reserves r ∈ sections → r.uploadId = uploadId →
      ReadsBack st r.now ∧ since ≤ r.now)
    (h : ∀ index, live = some index → Guarded st uploadId since index) :
    ∀ index, liveAfter st live sections = some index → Guarded st uploadId since index := by
  induction sections generalizing live with
  | nil => exact h
  | cons section_ sections ih =>
    refine ih (fun r hr => hreserves r (List.mem_cons_of_mem _ hr)) (guarded_live ?_ h)
    rintro r rfl
    exact hreserves r (List.mem_cons_self ..)

/-! ## The reserved upload stays -/

theorem uploadMetadataIsRecent_of_accessed {accessed : ℤ}
    (haccessed : parseUploadTimestamp st (Object.get? info "last_accessed") = some accessed)
    (hle : cutoffDate ≤ accessed) : uploadMetadataIsRecent st cutoffDate info = true := by
  rw [uploadMetadataIsRecent, List.any_cons, haccessed]
  simp [hle]

/-- A file that may be removed is not that of a guarded upload, nor stored under its path. -/
theorem Deletable.ne_of_guarded (h : Deletable st references cutoffDate index c)
    (hguarded : Guarded st uploadId since index) (hcutoff : cutoffDate ≤ since) :
    c.file ≠ uploadId ∧ ∀ key info, index.get? key = some (.dict info) →
      hasText info "id" uploadId = true →
        storedRealPath c.disk info ≠ some (c.disk.canonical c.filePath) := by
  obtain ⟨owner, checksum, hrows⟩ := h.rows
  have hne : c.file ≠ uploadId := by
    rintro rfl
    obtain ⟨key, info, hget, hid⟩ := h.exists_row
    obtain ⟨key', info', accessed, hget', hid', haccessed, hsince⟩ := hguarded key info hget hid
    have hold := (hrows key' info' hget' (.inl hid')).2.2
    have hrecent := uploadMetadataIsRecent_of_accessed haccessed (Int.le_trans hcutoff hsince)
    exact Bool.false_ne_true (hold.symm.trans hrecent)
  refine ⟨hne, fun key info hget hid hpath => hne ?_⟩
  exact hasText_unique (hrows key info hget (.inr hpath)).1.id hid

theorem guarded_of_mem_removedBy {call : Cleanup} {e : Removed}
    (h : ∀ index, live = some index → Guarded st uploadId since index)
    (he : e ∈ removedBy st call live) : Guarded st uploadId since e.live := by
  rw [removedBy] at he
  split at he
  · rename_i s hsweep
    obtain ⟨references, current, -, rfl, rfl⟩ := sweep_eq_some_iff.mp hsweep
    refine (sweep_induction (P := fun s => Guarded st uploadId since s.live ∧
      ∀ e ∈ s.removed, Guarded st uploadId since e.live) references call.cutoffDate ?_
      (candidates st call) (inStep_start current)
      ⟨h current rfl, fun e he => absurd he List.not_mem_nil⟩).2.2 e he
    rintro s s' c hstep hturn ⟨hlive, hremoved⟩
    refine ⟨hlive.turn hstep hturn, ?_⟩
    cases hturn with
    | left heq => exact heq ▸ hremoved
    | kept _ _ _ removed => rwa [removed]
    | reduced _ _ _ _ _ removed =>
      rcases removed with removed | removed
      · rwa [removed]
      · rw [removed]
        intro e he
        rcases List.mem_append.mp he with he | he
        · exact hremoved e he
        · rw [List.mem_singleton.mp he]
          exact hlive
  · exact absurd he List.not_mem_nil

theorem not_removed_of_reserved {sections : List Lock} {call : Cleanup}
    (hreserved : (reserveUpload st r live).2.isSome = true) (hread : ReadsBack st r.now)
    (hreserves : ∀ r', .reserves r' ∈ sections → r'.uploadId = r.uploadId →
      ReadsBack st r'.now ∧ r.now - 5 * minute ≤ r'.now)
    (hstart : call.startedAt ≤ r.now + retention - 5 * minute) :
    ∀ e ∈ removedBy st call (liveAfter st (reserveUpload st r live).1 sections),
      e.candidate.file ≠ r.uploadId ∧
      ∀ key info, e.live.get? key = some (.dict info) → hasText info "id" r.uploadId = true →
        storedRealPath e.candidate.disk info ≠
          some (e.candidate.disk.canonical e.candidate.filePath) := by
  intro e he
  have hguarded := guarded_liveAfter hreserves (guarded_of_reserved hread hreserved)
  obtain ⟨references, -, hdeletable⟩ := deletable_of_mem_removedBy he
  refine hdeletable.ne_of_guarded (guarded_of_mem_removedBy hguarded he) ?_
  rw [Cleanup.cutoffDate]
  omega

/-- What is said of cleanups and reservations in any order. -/
theorem reservations_and_cleanups (st : Settings) (live : Option Index) :
    (∀ call, ∀ e ∈ removedBy st call live, ∃ references, call.references = some references ∧
      Deletable st references call.cutoffDate e.live e.candidate) ∧
    (∀ r sections call, (reserveUpload st r live).2.isSome = true → ReadsBack st r.now →
      (∀ r', .reserves r' ∈ sections → r'.uploadId = r.uploadId →
        ReadsBack st r'.now ∧ r.now - 5 * minute ≤ r'.now) →
      call.startedAt ≤ r.now + retention - 5 * minute →
      ∀ e ∈ removedBy st call (liveAfter st (reserveUpload st r live).1 sections),
        e.candidate.file ≠ r.uploadId ∧
        ∀ key info, e.live.get? key = some (.dict info) → hasText info "id" r.uploadId = true →
          storedRealPath e.candidate.disk info ≠
            some (e.candidate.disk.canonical e.candidate.filePath)) ∧
    (∀ call references index, call.references = some references → live = some index →
      ∀ before c after, candidates st call = before ++ c :: after → c.removal = .refused →
        let s := before.foldl (sweepFile st references call.cutoffDate) (.start index)
        let s' := sweepFile st references call.cutoffDate s c
        s.halted = false →
          s'.removed = s.removed ∧ (c.restored = true → s'.halted = false) ∧
          (s'.halted = false → s'.live = s.live) ∧
          (s'.halted = true → sweep st call live = some s')) := by
  refine ⟨fun call e he => deletable_of_mem_removedBy he, ?_, ?_⟩
  · intro r sections call hreserved hread hreserves hstart
    exact not_removed_of_reserved hreserved hread hreserves hstart
  · intro call references index hreferences hlive before c after hcandidates hrefused s s' hrunning
    have hstep : s.InStep := (sweep_induction (P := fun _ => True) references call.cutoffDate
      (fun _ _ _ _ _ h => h) before (inStep_start index) trivial).1
    obtain ⟨hremoved, hrestored, hkept⟩ :=
      live_of_refused st references call.cutoffDate hstep hrunning hrefused
    refine ⟨hremoved, fun h => (hrestored h).1, hkept, fun hhalted => ?_⟩
    rw [sweep_eq_some_iff]
    refine ⟨references, index, hreferences, hlive, ?_⟩
    rw [hcandidates, List.foldl_append, List.foldl_cons]
    exact (sweepFile_halted hhalted after).symm

/-! ## One upload -/

/-- Paths without links, and times in microseconds from the beginning of 2026 that are full
minutes of its first hour. -/
def Settings.plain : Settings where
  runtime := .plain
  uploadDir := "/u"
  isoformat := fun now => if now = 4 * minute then "2026-01-01T00:04:00" else "2026-01-01T00:00:00"
  fromisoformat := fun text =>
    if text = "2026-01-01T00:00:00" then some 0
    else if text = "2026-01-01T00:04:00" then some (4 * minute)
    else none
  basename := fun path => String.ofList (path.toList.reverse.takeWhile (· ≠ '/')).reverse
  guessType := fun _ => "application/octet-stream"
  dirDate := fun root => if root = "/u/2026/01/01" then some 0 else none

def Disk.plain : Disk where
  canonical := id
  commonpath := Runtime.plain.commonpath
  isfile := fun _ => true

/-- The index of one upload, from the beginning of 2026. -/
def oneUpload : Index :=
  ⟨[("ann:h", .dict [("id", .str "00000000000000000000000000000000"),
    ("path", .str "/u/2026/01/01/00000000000000000000000000000000"), ("owner", .str "ann"),
    ("hash", .str "h"), ("uploaded_at", .str "2026-01-01T00:00:00"),
    ("created_at", .str "2026-01-01T00:00:00"), ("last_accessed", .str "2026-01-01T00:00:00")])],
    by decide⟩

def reservation : Reservation where
  uploadId := "00000000000000000000000000000000"
  owner := some "ann"
  authConfigured := true
  admin := false
  now := 4 * minute
  disk := .plain
  found := none
  written := true

/-- A cleanup that comes to the upload, and where removing its bytes goes some way. -/
def cleanupAt (startedAt : ℤ) (restored : Bool) (removal : Removal) : Cleanup where
  references := some ⟨[], []⟩
  startedAt := startedAt
  directories :=
    [⟨"/u/2026/01/01", .plain, [⟨"00000000000000000000000000000000",
      "/u/2026/01/01/00000000000000000000000000000000", .plain, true, restored, removal⟩]⟩]

theorem reservations_and_cleanups_plain :
    ∀ e ∈ removedBy .plain (cleanupAt (retention - 1 * minute) true .removed)
      (liveAfter .plain (reserveUpload .plain reservation (some oneUpload)).1 []),
      e.candidate.file ≠ "00000000000000000000000000000000" := by
  have hread : ReadsBack .plain reservation.now := by
    rw [ReadsBack]
    decide +kernel
  intro e he
  exact ((reservations_and_cleanups .plain (some oneUpload)).2.1 reservation [] _
    (by decide +kernel) hread (fun _ h => absurd h List.not_mem_nil) (by decide +kernel) e he).1

/-- An upload that is reserved four minutes after it was accessed is removed by a cleanup that starts
less than thirty days later; and its row is not back where the bytes were not there, or where the
index is not written again. -/
theorem not_reserved_or_back :
    ((reserveUpload .plain reservation (some oneUpload)).2.isSome = true ∧
      (removedBy .plain (cleanupAt (retention + 3 * minute) true .removed)
        (reserveUpload .plain reservation (some oneUpload)).1).map (fun e => e.candidate.file) =
          ["00000000000000000000000000000000"]) ∧
    (cleanupOldUploads .plain (cleanupAt (retention + 3 * minute) true .absent)
      (some oneUpload)).map (fun index => index.items.length) = some 0 ∧
    (cleanupOldUploads .plain (cleanupAt (retention + 3 * minute) false .refused)
      (some oneUpload)).map (fun index => index.items.length) = some 0 := by
  decide +kernel

end Pandamonium.UploadReservations
