import Pandamonium.Model.UploadReservations

/-!
# What the cleanup of uploads removes

The cleanup removes bytes where all rows that have the id or the path of the file are of one upload
whose metadata is complete, that is older than the cutoff and that nothing refers to (`Deletable`).
Until it halts, `uploads.json` is the index that the loop goes on with (`Sweep.InStep`).
-/

set_option autoImplicit false

namespace Pandamonium.UploadReservations

open Pandamonium.Library

variable {st : Settings} {disk : Disk} {references : References} {cutoffDate : ℤ} {index : Index}
  {uploadId targetPath key : String} {info : Object} {c : Candidate} {keys : List String}

/-! ## The rows of a file -/

/-- The row has the id or the path of a file. -/
def Related (disk : Disk) (uploadId targetPath : String) (info : Object) : Prop :=
  hasText info "id" uploadId = true ∨ storedRealPath disk info = some targetPath

/-- The row is one of the file, with an owner, a checksum and all times. -/
structure Coherent (st : Settings) (disk : Disk) (uploadId targetPath owner checksum : String)
    (info : Object) : Prop where
  id : hasText info "id" uploadId = true
  path : storedRealPath disk info = some targetPath
  complete : ownerAndChecksum st info = some (owner, checksum)

theorem of_matchingRows {items : List (String × Value)} {rows : List (String × String × String)}
    (h : matchingRows st disk uploadId targetPath items = some rows) :
    ∀ key info, (key, .dict info) ∈ items → Related disk uploadId targetPath info →
      ∃ owner checksum, Coherent st disk uploadId targetPath owner checksum info ∧
        (key, owner, checksum) ∈ rows := by
  induction items generalizing rows with
  | nil => exact fun _ _ hmem => absurd hmem List.not_mem_nil
  | cons item items ih =>
    obtain ⟨key', value⟩ := item
    intro key info hmem hrelated
    cases value with
    | dict info' =>
      rw [matchingRows] at h
      by_cases heither : (hasText info' "id" uploadId ||
          storedRealPath disk info' == some targetPath) = true
      · simp only [heither, if_true] at h
        split at h
        · rename_i hboth
          rw [Bool.and_eq_true, beq_iff_eq] at hboth
          split at h
          · cases h
          · rename_i found hfound
            obtain ⟨later, hlater, rfl⟩ := Option.map_eq_some_iff.mp h
            rcases List.mem_cons.mp hmem with heq | hmem
            · obtain ⟨rfl, hinfo⟩ := Prod.mk.inj heq
              obtain rfl := Value.dict.inj hinfo
              exact ⟨found.1, found.2, ⟨hboth.1, hboth.2, hfound⟩, List.mem_cons_self ..⟩
            · obtain ⟨owner, checksum, hcoherent, hrow⟩ := ih hlater key info hmem hrelated
              exact ⟨owner, checksum, hcoherent, List.mem_cons_of_mem _ hrow⟩
        · cases h
      · simp only [heither, if_false, Bool.false_eq_true] at h
        rcases List.mem_cons.mp hmem with heq | hmem
        · obtain ⟨rfl, hinfo⟩ := Prod.mk.inj heq
          obtain rfl := Value.dict.inj hinfo
          rw [Bool.or_eq_true, beq_iff_eq] at heither
          exact absurd hrelated heither
        · exact ih h key info hmem hrelated
    | _ =>
      rcases List.mem_cons.mp hmem with heq | hmem
      · cases (Prod.mk.inj heq).2
      · exact ih h key info hmem hrelated

theorem related_of_mem_matchingRows {items : List (String × Value)}
    {rows : List (String × String × String)} {row : String × String × String}
    (h : matchingRows st disk uploadId targetPath items = some rows) (hrow : row ∈ rows) :
    ∃ info, (row.1, .dict info) ∈ items ∧ hasText info "id" uploadId = true := by
  induction items generalizing rows with
  | nil =>
    cases h
    exact absurd hrow List.not_mem_nil
  | cons item items ih =>
    obtain ⟨key', value⟩ := item
    have hlater : ∀ {later}, matchingRows st disk uploadId targetPath items = some later →
        row ∈ later → ∃ info, (row.1, .dict info) ∈ (key', value) :: items ∧
          hasText info "id" uploadId = true := by
      intro later hmatch hmem
      obtain ⟨info, hinfo, hid⟩ := ih hmatch hmem
      exact ⟨info, List.mem_cons_of_mem _ hinfo, hid⟩
    cases value with
    | dict info' =>
      rw [matchingRows] at h
      split at h
      · split at h
        · rename_i hboth
          rw [Bool.and_eq_true] at hboth
          split at h
          · cases h
          · obtain ⟨later, hmatch, rfl⟩ := Option.map_eq_some_iff.mp h
            rcases List.mem_cons.mp hrow with rfl | hmem
            · exact ⟨info', List.mem_cons_self .., hboth.1⟩
            · exact hlater hmatch hmem
        · cases h
      · exact hlater h hrow
    | _ => exact hlater h hrow

theorem eq_of_dedup_length_le {l : List String} (h : ¬ 1 < l.dedup.length) {x y : String}
    (hx : x ∈ l) (hy : y ∈ l) : x = y := by
  rw [← List.mem_dedup] at hx hy
  generalize l.dedup = texts at h hx hy
  match texts with
  | [] => exact absurd hx List.not_mem_nil
  | [text] => exact (List.mem_singleton.mp hx).trans (List.mem_singleton.mp hy).symm
  | _ :: _ :: _ => exact absurd (Nat.le_add_left 2 _) h

theorem get?_of_mem {v : Value} (h : (key, v) ∈ index.items) : index.get? key = some v :=
  (index.mem_items_iff key v).mp h

theorem mem_of_get? {v : Value} (h : index.get? key = some v) : (key, v) ∈ index.items :=
  (index.mem_items_iff key v).mpr h

theorem mem_rowsOf_iff : info ∈ rowsOf index keys ↔ ∃ key ∈ keys, index.get? key = some (.dict info) := by
  rw [rowsOf, List.mem_filterMap]
  refine exists_congr fun key => and_congr_right fun _ => ?_
  cases hget : index.get? key with
  | none => simp
  | some v =>
    cases v with
    | dict info' => simp
    | _ => simp

/-- The rows under the keys of a file are those that have its id or its path. -/
structure KeysOf (st : Settings) (disk : Disk) (index : Index) (uploadId targetPath : String)
    (keys : List String) : Prop where
  coherent : ∃ owner checksum, ∀ key info, index.get? key = some (.dict info) →
    Related disk uploadId targetPath info →
      Coherent st disk uploadId targetPath owner checksum info ∧ key ∈ keys
  ofId : ∀ key ∈ keys, ∃ info, index.get? key = some (.dict info) ∧
    hasText info "id" uploadId = true

theorem keysOf_uploadIndexKeysForFile {filePath : String}
    (h : uploadIndexKeysForFile st disk index uploadId filePath ≠ []) :
    KeysOf st disk index uploadId (disk.canonical filePath)
      (uploadIndexKeysForFile st disk index uploadId filePath) := by
  rw [uploadIndexKeysForFile] at h ⊢
  cases hrows : matchingRows st disk uploadId (disk.canonical filePath) index.items with
  | none =>
    rw [hrows] at h
    exact absurd rfl h
  | some rows =>
    simp only [hrows] at h ⊢
    split at h
    · exact absurd rfl h
    · rename_i hagree
      rw [if_neg hagree]
      rw [not_or] at hagree
      have hof := of_matchingRows hrows
      obtain ⟨row, hrow⟩ := List.exists_mem_of_ne_nil rows (mt (List.map_eq_nil_iff.mpr) h)
      constructor
      · refine ⟨row.2.1, row.2.2, fun key info hget hrelated => ?_⟩
        obtain ⟨owner, checksum, hcoherent, hmem⟩ := hof key info (mem_of_get? hget) hrelated
        have howner : owner = row.2.1 := eq_of_dedup_length_le hagree.1
          (List.mem_map_of_mem (f := fun row => row.2.1) hmem) (List.mem_map_of_mem hrow)
        have hchecksum : checksum = row.2.2 := eq_of_dedup_length_le hagree.2
          (List.mem_map_of_mem (f := fun row => row.2.2) hmem) (List.mem_map_of_mem hrow)
        rw [← howner, ← hchecksum]
        exact ⟨hcoherent, List.mem_map_of_mem (f := Prod.fst) hmem⟩
      · intro key hkey
        obtain ⟨row, hmem, rfl⟩ := List.mem_map.mp hkey
        obtain ⟨info, hinfo, hid⟩ := related_of_mem_matchingRows hrows hmem
        exact ⟨info, get?_of_mem hinfo, hid⟩

/-! ## What may be removed -/

/-- Nothing refers to the row. -/
def Unreferenced (st : Settings) (references : References) (info : Object) : Prop :=
  info.text st.runtime "id" ∉ references.ids ∧ info.text st.runtime "hash" ∉ references.hashes ∧
    info.text st.runtime "checksum_sha256" ∉ references.hashes

/-- All rows that have the id or the path of a file are of one upload that is complete, expired and
unreferenced, and there is one. -/
structure Deletable (st : Settings) (references : References) (cutoffDate : ℤ) (index : Index)
    (c : Candidate) : Prop where
  exists_row : ∃ key info, index.get? key = some (.dict info) ∧ hasText info "id" c.file = true
  unreferenced : c.file ∉ references.ids
  rows : ∃ owner checksum, ∀ key info, index.get? key = some (.dict info) →
    Related c.disk c.file (c.disk.canonical c.filePath) info →
      Coherent st c.disk c.file (c.disk.canonical c.filePath) owner checksum info ∧
      Unreferenced st references info ∧ uploadMetadataIsRecent st cutoffDate info = false

/-- What is said of the keys by which rows are removed. -/
theorem of_removableKeys (h : removableKeys st references cutoffDate index c = some keys) :
    KeysOf st c.disk index c.file (c.disk.canonical c.filePath) keys ∧
      Deletable st references cutoffDate index c := by
  rw [removableKeys] at h
  split at h
  · dsimp only at h
    split at h
    · cases h
    · rename_i hnot
      cases h
      rw [Bool.or_eq_true, Bool.or_eq_true, not_or, not_or, isReferenced, Bool.or_eq_true, not_or,
        List.isEmpty_iff] at hnot
      obtain ⟨⟨hne, hfile, hrows⟩, hrecent⟩ := hnot
      have hkeys : uploadIndexKeysForFile st c.disk index c.file c.filePath ≠ [] := by
        intro hnil
        rw [hnil] at hne
        exact hne rfl
      have hof := keysOf_uploadIndexKeysForFile hkeys
      refine ⟨hof, ?_, by simpa using hfile, ?_⟩
      · obtain ⟨key, hkey⟩ := List.exists_mem_of_ne_nil _ hkeys
        obtain ⟨info, hget, hid⟩ := hof.ofId key hkey
        exact ⟨key, info, hget, hid⟩
      · obtain ⟨owner, checksum, hcoherent⟩ := hof.coherent
        refine ⟨owner, checksum, fun key info hget hrelated => ?_⟩
        obtain ⟨hrow, hkey⟩ := hcoherent key info hget hrelated
        have hmem := mem_rowsOf_iff.mpr ⟨key, hkey, hget⟩
        refine ⟨hrow, ?_, ?_⟩
        · have hnone : ¬ (references.ids.contains (Object.text st.runtime info "id") ||
              references.hashes.contains (Object.text st.runtime info "hash") ||
              references.hashes.contains (Object.text st.runtime info "checksum_sha256")) = true :=
            fun href => hrows (List.any_eq_true.mpr ⟨info, hmem, href⟩)
          simpa [Unreferenced, and_assoc] using hnone
        · rw [Bool.eq_false_iff]
          exact fun hnew => hrecent (List.any_eq_true.mpr ⟨info, hmem, hnew⟩)
  · cases h

/-! ## The loop -/

/-- Until the loop halts, `uploads.json` is the index that it goes on with. -/
def Sweep.InStep (s : Sweep) : Prop := s.halted = false → s.live = s.currentIndex

/-- Bytes are removed where they may be. -/
def Sweep.Removes (st : Settings) (references : References) (cutoffDate : ℤ) (s : Sweep) : Prop :=
  ∀ e ∈ s.removed, Deletable st references cutoffDate e.live e.candidate

/-- How a file leaves the index and what is removed. -/
inductive Turn (st : Settings) (references : References) (cutoffDate : ℤ) (c : Candidate)
    (s s' : Sweep) : Prop
  | left (h : s' = s)
  /-- Nothing is removed, and the loop goes on or halts. -/
  | kept (running : s.halted = false) (live : s'.live = s.live) (index : s'.currentIndex = s.currentIndex)
      (removed : s'.removed = s.removed)
  | reduced (keys : List String) (running : s.halted = false)
      (removable : removableKeys st references cutoffDate s.currentIndex c = some keys)
      (live : s'.live = keys.foldl Dict.erase s.currentIndex)
      (index : s'.halted = false → s'.currentIndex = keys.foldl Dict.erase s.currentIndex)
      (removed : s'.removed = s.removed ∨ s'.removed = s.removed ++ [⟨c, s.live⟩])

theorem turn_sweepFile (st : Settings) (references : References) (cutoffDate : ℤ) (c : Candidate) {s : Sweep}
    (hstep : s.InStep) :
    Turn st references cutoffDate c s (sweepFile st references cutoffDate s c) := by
  rw [sweepFile]
  split
  · exact .left rfl
  · rename_i hrunning
    rw [Bool.not_eq_true] at hrunning
    cases hkeys : removableKeys st references cutoffDate s.currentIndex c with
    | none => exact .left rfl
    | some keys =>
      dsimp only
      split
      · split
        · exact .reduced keys hrunning hkeys rfl (fun _ => rfl) (.inr rfl)
        · exact .reduced keys hrunning hkeys rfl (fun _ => rfl) (.inl rfl)
        · split
          · exact .kept hrunning (hstep hrunning).symm rfl rfl
          · exact .reduced keys hrunning hkeys rfl (fun h => absurd h (by simp)) (.inl rfl)
      · split
        · exact .kept hrunning (hstep hrunning).symm rfl rfl
        · exact .kept hrunning rfl rfl rfl

theorem Turn.inStep {s s' : Sweep} (h : Turn st references cutoffDate c s s') (hstep : s.InStep) :
    s'.InStep := by
  intro hrunning
  cases h with
  | left heq => exact heq ▸ hstep (heq ▸ hrunning)
  | kept running live index _ => rw [live, index, hstep running]
  | reduced keys running _ live index _ => rw [live, index hrunning]

theorem Turn.removes {s s' : Sweep} (h : Turn st references cutoffDate c s s') (hstep : s.InStep)
    (hremoves : s.Removes st references cutoffDate) : s'.Removes st references cutoffDate := by
  cases h with
  | left heq => exact heq ▸ hremoves
  | kept _ _ _ removed => rwa [Sweep.Removes, removed]
  | reduced keys running removable _ _ removed =>
    rcases removed with removed | removed
    · rwa [Sweep.Removes, removed]
    · rw [Sweep.Removes, removed]
      intro e he
      rcases List.mem_append.mp he with he | he
      · exact hremoves e he
      · rw [List.mem_singleton.mp he, hstep running]
        exact (of_removableKeys removable).2

/-- What every turn keeps holds after the loop. -/
theorem sweep_induction {P : Sweep → Prop} (references : References) (cutoffDate : ℤ)
    (hturn : ∀ s s' c, s.InStep → Turn st references cutoffDate c s s' → P s → P s')
    (cs : List Candidate) {s : Sweep} (hstep : s.InStep) (h : P s) :
    (cs.foldl (sweepFile st references cutoffDate) s).InStep ∧
      P (cs.foldl (sweepFile st references cutoffDate) s) := by
  induction cs generalizing s with
  | nil => exact ⟨hstep, h⟩
  | cons c cs ih =>
    have hnext := turn_sweepFile st references cutoffDate c hstep
    exact ih (hnext.inStep hstep) (hturn _ _ c hstep hnext h)

/-- The loop begins with the index that is in `uploads.json`. -/
def Sweep.start (index : Index) : Sweep := ⟨index, index, [], false⟩

theorem inStep_start (index : Index) : (Sweep.start index).InStep := fun _ => rfl

theorem sweep_eq_some_iff {call : Cleanup} {live : Option Index} {s : Sweep} :
    sweep st call live = some s ↔ ∃ references index, call.references = some references ∧
      live = some index ∧
      s = (candidates st call).foldl (sweepFile st references call.cutoffDate) (.start index) := by
  constructor
  · intro h
    unfold sweep at h
    split at h
    · rename_i references index hreferences
      cases h
      exact ⟨references, index, hreferences, rfl, rfl⟩
    · cases h
  · rintro ⟨references, index, hreferences, rfl, rfl⟩
    unfold sweep
    rw [hreferences]
    rfl

/-- Bytes are removed where they may be, as `uploads.json` has it then. -/
theorem deletable_of_mem_removedBy {call : Cleanup} {live : Option Index} {e : Removed}
    (he : e ∈ removedBy st call live) :
    ∃ references, call.references = some references ∧
      Deletable st references call.cutoffDate e.live e.candidate := by
  rw [removedBy] at he
  split at he
  · rename_i s hsweep
    obtain ⟨references, index, hreferences, -, rfl⟩ := sweep_eq_some_iff.mp hsweep
    refine ⟨references, hreferences, ?_⟩
    have hremoves := (sweep_induction (P := Sweep.Removes st references call.cutoffDate) references
      call.cutoffDate (fun s s' c hstep hturn => hturn.removes hstep) (candidates st call)
      (inStep_start index) (fun e he => absurd he List.not_mem_nil)).2
    exact hremoves e he
  · exact absurd he List.not_mem_nil

/-! ## Bytes that stay -/

/-- Where removing the bytes fails, the index is what it was, or the loop halts. -/
theorem live_of_refused (st : Settings) (references : References) (cutoffDate : ℤ) {s : Sweep}
    (hstep : s.InStep) (hrunning : s.halted = false) (hrefused : c.removal = .refused) :
    let s' := sweepFile st references cutoffDate s c
    s'.removed = s.removed ∧
      (c.restored = true → s'.halted = false ∧ s'.live = s.live) ∧
      (s'.halted = false → s'.live = s.live) := by
  simp only [sweepFile, hrunning, Bool.false_eq_true, if_false]
  cases removableKeys st references cutoffDate s.currentIndex c with
  | none => exact ⟨rfl, fun _ => ⟨hrunning, rfl⟩, fun _ => rfl⟩
  | some keys =>
    simp only [hrefused]
    cases c.reduced <;> cases c.restored <;> simp [hstep hrunning]

theorem sweepFile_halted {s : Sweep} (h : s.halted = true) (cs : List Candidate) :
    cs.foldl (sweepFile st references cutoffDate) s = s := by
  induction cs with
  | nil => rfl
  | cons c cs ih =>
    rw [List.foldl_cons, sweepFile, if_pos h]
    exact ih

end Pandamonium.UploadReservations
