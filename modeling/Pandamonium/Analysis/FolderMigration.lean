import Pandamonium.Analysis.MarkedTexts
import Pandamonium.Model.ProjectRegistry

/-!
# Which sessions the folder migration binds

A turn of the loop looks for the sessions whose folder is the trimmed name itself.  A session is left
without a project, and the flag is set all the same, where its folder has white space around it, or
where in no turn for its folder there is a project and a commit that succeeds.
-/

set_option autoImplicit false

namespace Pandamonium.Projects

variable {casefold : Casefold}

/-- The trimmed folder of the session is neither empty nor one of the system. -/
def Session.convertible (casefold : Casefold) (s : Session) : Prop :=
  ∃ folder ∈ s.folder, strip folder ≠ "" ∧ isExcluded casefold (strip folder) = false

structure Complete (casefold : Casefold) (before after : State) : Prop where
  bound : ∀ s ∈ after.sessions, s.convertible casefold → s.unbound = false
  kept : List.Forall₂ (fun s s' => s'.folder = s.folder ∧ (s.unbound = false → s' = s))
    before.sessions after.sessions
  distinct : ∃ created, after.projects = before.projects ++ created ∧
    (created.map fun p => casefold.fold p.name).Nodup

/-- If the flag is set, the migration is complete. -/
def Completes (casefold : Casefold) (s : State) (rows : Rows s.sessions) (answers : ℕ → Answer)
    (recorded : Bool) : Prop :=
  let after := (migrateSessionFolders casefold s rows answers recorded).2
  s.flag = false → after.flag = true → Complete casefold s after

/-- In the turn there is a project, and its commit succeeds. -/
def binds (casefold : Casefold) (p : Progress) (folder : String) (a : Answer) : Bool :=
  !isExcluded casefold folder && a.commits &&
    ((projectIdForName casefold folder p.projects).isSome || (addProject folder a p.projects).isSome)

/-- A turn for the folder binds. -/
def Reached (casefold : Casefold) (folder : String) : Progress → List (String × Answer) → Prop
  | _, [] => False
  | p, turn :: turns => (folder = turn.1 ∧ binds casefold p turn.1 turn.2 = true) ∨
      Reached casefold folder (convert casefold p turn.1 turn.2) turns

/-! ## The sessions -/

/-- What becomes of a session that is reached or not. -/
structure Becomes (reached : Prop) (s s' : Session) : Prop where
  folder : s'.folder = s.folder
  kept : s.unbound = false → s' = s
  bound : s.unbound = true → (s'.unbound = false ↔ reached)

theorem Becomes.refl {reached : Prop} (h : ¬ reached) (s : Session) : Becomes reached s s where
  folder := rfl
  kept _ := rfl
  bound hs := by simp [hs, h]

theorem Becomes.trans {r r' : Prop} {s s' s'' : Session} (h : Becomes r s s')
    (h' : Becomes r' s' s'') : Becomes (r ∨ r') s s'' where
  folder := h'.folder.trans h.folder
  kept hs := by
    obtain rfl := h.kept hs
    exact h'.kept hs
  bound hs := by
    cases hs' : s'.unbound with
    | true =>
      have hr : ¬ r := fun hr => by simp [(h.bound hs).mpr hr] at hs'
      rw [h'.bound hs', or_iff_right hr]
    | false =>
      rw [h'.kept hs', hs', eq_self_iff_true, true_iff]
      exact Or.inl ((h.bound hs).mp hs')

theorem exists_bind (p : Progress) (folder : String) {projectId : String} (hid : projectId ≠ "")
    (commits : Bool) : ∃ f : Session → Session,
      (p.bind folder projectId commits).sessions = p.sessions.map f ∧
      ∀ s, Becomes (s.folder = some folder ∧ commits = true) s (f s) := by
  cases commits with
  | false => exact ⟨id, (List.map_id _).symm, fun s => .refl (by simp) s⟩
  | true =>
    refine ⟨_, rfl, fun s => ?_⟩
    by_cases hsel : s.selected folder = true
    · obtain ⟨hfolder, hs⟩ : s.folder = some folder ∧ s.unbound = true := by
        simpa [Session.selected] using hsel
      rw [if_pos hsel]
      exact ⟨rfl, fun h => by simp [hs] at h, fun _ => by simp [Session.unbound, hid, hfolder]⟩
    · rw [if_neg hsel]
      refine ⟨rfl, fun _ => rfl, fun hs => ?_⟩
      have hfolder : s.folder ≠ some folder := fun h => hsel (by simp [Session.selected, h, hs])
      simp [hs, hfolder]

theorem projectId_ne_empty {name projectId : String} {projects : List Project}
    (h : projectIdForName casefold name projects = some projectId) : projectId ≠ "" := by
  unfold projectIdForName at h
  dsimp only at h
  split at h
  · cases h
  · obtain ⟨project, -, rfl⟩ := Option.map_eq_some_iff.mp h
    exact project.identified

theorem exists_convert (p : Progress) (folder : String) (a : Answer) : ∃ f : Session → Session,
    (convert casefold p folder a).sessions = p.sessions.map f ∧
    ∀ s, Becomes (s.folder = some folder ∧ binds casefold p folder a = true) s (f s) := by
  have hnone (h : binds casefold p folder a = false) : ∃ f : Session → Session,
      p.sessions = p.sessions.map f ∧
      ∀ s, Becomes (s.folder = some folder ∧ binds casefold p folder a = true) s (f s) :=
    ⟨id, (List.map_id _).symm, fun s => .refl (by simp [h]) s⟩
  unfold convert
  split
  · exact hnone (by simp [binds, *])
  · rename_i hexcluded
    split
    · rename_i projectId hproject
      simpa [binds, hexcluded, hproject] using
        exists_bind p folder (projectId_ne_empty hproject) a.commits
    · rename_i hproject
      split
      · exact hnone (by simp [binds, *])
      · rename_i project hadd
        simpa [binds, hexcluded, hproject, hadd] using
          exists_bind { p with projects := p.projects ++ [project], migrated := p.migrated + 1 }
            folder project.identified a.commits

theorem exists_convertAll (p : Progress) (turns : List (String × Answer)) :
    ∃ f : Session → Session, (convertAll casefold p turns).sessions = p.sessions.map f ∧
      ∀ s, Becomes (∃ folder ∈ s.folder, Reached casefold folder p turns) s (f s) := by
  induction turns generalizing p with
  | nil => exact ⟨id, (List.map_id _).symm, fun s => .refl (by simp [Reached]) s⟩
  | cons turn turns ih =>
    obtain ⟨f, hf, hbecomes⟩ := @exists_convert casefold p turn.1 turn.2
    obtain ⟨g, hg, hlater⟩ := ih (convert casefold p turn.1 turn.2)
    refine ⟨g ∘ f, by rw [convertAll, hg, hf, List.map_map], fun s => ?_⟩
    have h := (hbecomes s).trans (hlater (f s))
    rw [(hbecomes s).folder] at h
    have hreached : (∃ folder ∈ s.folder, Reached casefold folder p (turn :: turns)) ↔
        (s.folder = some turn.1 ∧ binds casefold p turn.1 turn.2 = true) ∨
          ∃ folder ∈ s.folder, Reached casefold folder (convert casefold p turn.1 turn.2) turns := by
      cases s.folder <;> simp [Reached]
    exact ⟨h.folder, h.kept, fun hs => (h.bound hs).trans hreached.symm⟩

/-! ## The projects -/

/-- The names as `project_id_for_name` compares them. -/
def key (casefold : Casefold) (p : Project) : String := casefold.fold (strip p.name)

theorem not_mem_keys {name : String} {projects : List Project} (hne : strip name ≠ "")
    (h : projectIdForName casefold name projects = none) :
    casefold.fold (strip name) ∉ projects.map (key casefold) := by
  rw [projectIdForName, if_neg fun h => hne (casefold.eq_empty _ h), Option.map_eq_none_iff,
    List.find?_eq_none] at h
  intro hmem
  obtain ⟨p, hp, heq⟩ := List.mem_map.mp hmem
  exact h p hp (by simpa [key] using heq)

theorem name_of_addProject {name : String} {a : Answer} {projects : List Project}
    {project : Project} (h : addProject name a projects = some project) :
    project.name = strip name := by
  unfold addProject at h
  dsimp only at h
  split at h
  · cases h
  · rename_i hname
    split at h
    · cases h
    · split at h
      · cases h
      · cases h
        have hre : nameRe (strip name) = true := by simpa using fun h => hname (Or.inr h)
        have hlength : (strip name).length ≤ 64 := by
          simp only [nameRe, Bool.and_eq_true, decide_eq_true_eq] at hre
          exact hre.1.2
        dsimp only
        rw [List.take_of_length_le (by rw [String.length_toList]; omega), String.ofList_toList]

/-- A turn makes no project, or one whose name is new. -/
theorem projects_convert (p : Progress) {folder : String} (a : Answer) (hne : folder ≠ "")
    (hstrip : strip folder = folder) :
    (convert casefold p folder a).projects = p.projects ∨
      ∃ q, (convert casefold p folder a).projects = p.projects ++ [q] ∧ strip q.name = q.name ∧
        key casefold q ∉ p.projects.map (key casefold) := by
  unfold convert
  split
  · exact Or.inl rfl
  · split
    · exact Or.inl rfl
    · rename_i hproject
      split
      · exact Or.inl rfl
      · rename_i project hadd
        have hname := (name_of_addProject hadd).trans hstrip
        have hkey := not_mem_keys (by rwa [hstrip]) hproject
        exact Or.inr ⟨project, rfl, by rw [hname, hstrip], by rwa [key, hname]⟩

theorem exists_created (p : Progress) {turns : List (String × Answer)}
    (hturns : ∀ turn ∈ turns, turn.1 ≠ "" ∧ strip turn.1 = turn.1) : ∃ created,
      (convertAll casefold p turns).projects = p.projects ++ created ∧
      (∀ q ∈ created, strip q.name = q.name) ∧ (created.map (key casefold)).Nodup ∧
      ∀ q ∈ created, key casefold q ∉ p.projects.map (key casefold) := by
  induction turns generalizing p with
  | nil => exact ⟨[], by simp [convertAll]⟩
  | cons turn turns ih =>
    obtain ⟨⟨hne, hstrip⟩, hturns⟩ := List.forall_mem_cons.mp hturns
    obtain ⟨created, hcreated, hnames, hdistinct, hothers⟩ :=
      ih (convert casefold p turn.1 turn.2) hturns
    rw [convertAll]
    rcases @projects_convert casefold p _ turn.2 hne hstrip with hsame | ⟨q, hnew, hq, hkey⟩
    · rw [hsame] at hcreated hothers
      exact ⟨created, hcreated, hnames, hdistinct, hothers⟩
    · rw [hnew, List.append_assoc] at hcreated
      rw [hnew, List.map_append] at hothers
      refine ⟨q :: created, hcreated, List.forall_mem_cons.mpr ⟨hq, hnames⟩, ?_,
        List.forall_mem_cons.mpr ⟨hkey, fun r hr hmem => hothers r hr (List.mem_append_left _ hmem)⟩⟩
      refine List.nodup_cons.mpr ⟨fun hmem => ?_, hdistinct⟩
      obtain ⟨r, hr, heq⟩ := List.mem_map.mp hmem
      exact hothers r hr (by simp [heq])

/-! ## The migration -/

theorem turns_stripped {sessions : List Session} (rows : Rows sessions) (answers : ℕ → Answer) :
    ∀ turn ∈ rows.turns answers, turn.1 ≠ "" ∧ strip turn.1 = turn.1 := by
  intro turn hturn
  obtain ⟨row, hrow, rfl⟩ := List.mem_map.mp hturn
  obtain ⟨hmem, hne⟩ := List.mem_filter.mp (List.fst_mem_of_mem_zipIdx hrow)
  obtain ⟨folder, -, hfolder⟩ := List.mem_map.mp hmem
  refine ⟨by simpa using hne, ?_⟩
  rw [← hfolder, ToolText.strip_strip]

/-- Every session whose folder can become a project has one once the flag is set, exactly where each
of those that had none is reached: in a turn for its folder, as it is, a project of the name is there
or is made, and the commit succeeds. -/
theorem completes_iff (casefold : Casefold) (s : State) (rows : Rows s.sessions)
    (answers : ℕ → Answer) (recorded : Bool) :
    Completes casefold s rows answers recorded ↔
      (s.flag = false → recorded = true → ∀ session ∈ s.sessions, session.unbound = true →
        session.convertible casefold → ∃ folder ∈ session.folder,
          Reached casefold folder ⟨s.projects, s.sessions, 0, 0⟩ (rows.turns answers)) := by
  obtain ⟨f, hf, hbecomes⟩ := @exists_convertAll casefold
    ⟨s.projects, s.sessions, 0, 0⟩ (rows.turns answers)
  have hconvertible (session : Session) :
      (f session).convertible casefold ↔ session.convertible casefold := by
    rw [Session.convertible, (hbecomes session).folder, Session.convertible]
  cases hflag : s.flag with
  | true => simp [Completes, hflag]
  | false =>
    simp only [Completes, migrateSessionFolders, hflag, Bool.false_eq_true, if_false, true_imp_iff]
    refine imp_congr_right fun _ => ⟨fun h session hmem hunbound hconv => ?_, fun h => ?_⟩
    · refine ((hbecomes session).bound hunbound).mp (h.bound _ ?_ ((hconvertible session).mpr hconv))
      rw [hf]
      exact List.mem_map_of_mem hmem
    · refine ⟨fun session' hmem hconv => ?_, ?_, ?_⟩
      · dsimp only at hmem
        rw [hf] at hmem
        obtain ⟨session, hsession, rfl⟩ := List.mem_map.mp hmem
        cases hunbound : session.unbound with
        | false => rw [(hbecomes session).kept hunbound, hunbound]
        | true =>
          exact ((hbecomes session).bound hunbound).mpr
            (h session hsession hunbound ((hconvertible session).mp hconv))
      · dsimp only
        rw [hf, List.forall₂_map_right_iff]
        exact List.forall₂_same.mpr fun session _ =>
          ⟨(hbecomes session).folder, (hbecomes session).kept⟩
      · obtain ⟨created, hcreated, hnames, hdistinct, -⟩ := @exists_created casefold
          ⟨s.projects, s.sessions, 0, 0⟩ _ (turns_stripped rows answers)
        refine ⟨created, hcreated, ?_⟩
        rwa [List.map_congr_left fun q hq => by rw [key, hnames q hq]] at hdistinct

/-- However its turns end, the migration moves no session out of its folder or project, and adds
projects under names that are new. -/
theorem migrateSessionFolders_adds (casefold : Casefold) (s : State) (rows : Rows s.sessions)
    (answers : ℕ → Answer) (recorded : Bool) :
    let after := (migrateSessionFolders casefold s rows answers recorded).2
    List.Forall₂ (fun s s' => s'.folder = s.folder ∧ (s.unbound = false → s' = s))
        s.sessions after.sessions ∧
      ∃ created, after.projects = s.projects ++ created ∧ (created.map (key casefold)).Nodup ∧
        ∀ q ∈ created, key casefold q ∉ s.projects.map (key casefold) := by
  unfold migrateSessionFolders
  split
  · exact ⟨List.forall₂_same.mpr fun _ _ => ⟨rfl, fun _ => rfl⟩, [], by simp⟩
  · obtain ⟨f, hf, hbecomes⟩ := @exists_convertAll casefold
      ⟨s.projects, s.sessions, 0, 0⟩ (rows.turns answers)
    obtain ⟨created, hcreated, -, hnew⟩ := @exists_created casefold
      ⟨s.projects, s.sessions, 0, 0⟩ _ (turns_stripped rows answers)
    refine ⟨?_, created, hcreated, hnew⟩
    dsimp only
    rw [hf, List.forall₂_map_right_iff]
    exact List.forall₂_same.mpr fun session _ =>
      ⟨(hbecomes session).folder, (hbecomes session).kept⟩

def asIs : Casefold := ⟨id, fun _ h => h⟩

def allGood : Answer := ⟨some "/projects/Work", "1a2b3c4d", by decide, true, true⟩

def untrimmed : State := ⟨[], false, [⟨some " Work", none⟩]⟩

def untrimmedRows : Rows untrimmed.sessions := ⟨[" Work"], by decide, by simp [untrimmed, eq_comm]⟩

/-- The project is made, and the session is not in its folder. -/
theorem not_completes_untrimmed :
    ¬ Completes asIs untrimmed untrimmedRows (fun _ => allGood) true := by
  intro h
  have hbound := (h rfl rfl).bound ⟨some " Work", none⟩ (by decide +kernel)
    ⟨" Work", rfl, by decide +kernel, by decide +kernel⟩
  cases hbound

end Pandamonium.Projects
