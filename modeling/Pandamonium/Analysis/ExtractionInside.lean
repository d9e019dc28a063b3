import Pandamonium.Model.ReleaseExtraction

/-!
# What an extraction writes

No member of an archive and no link text that passes the checks has a `..`, and no link is
absolute, so whatever links the extraction has made, a path below the target leads to a place below
it.  The invariant is `FileTree.Confined`, from the making of the target to the last directory that
gets its mode, through links made below earlier ones (`extractedInside`).
-/

set_option autoImplicit false

namespace Pandamonium.Extraction

open Pandamonium.Library

variable {β : Type} (umask : Umask) (target : Path)

/-- When the target has been made, everything that the extraction changes is below it, whether it
succeeds or removes the target again, and all that a path below the target leads to, through the
links that have been made, is below it.  When the target cannot be made nothing is extracted. -/
def ExtractedInside (archive : Archive β) (system : FileTree.FileSystem β) : Prop :=
  match makeTarget umask target system.tree with
  | (made, some e) => extractRelease umask target archive system.tree = (made, .error (.os e))
  | (made, none) =>
    let extracted := (extractAll umask target archive made).1
    ∃ base, made.resolve target = .ok base ∧
      (∀ p, extracted p ≠ made p → base <+: p) ∧
      (∀ rest p, ".." ∉ rest → extracted.resolve (target ++ rest) = .ok p → base <+: p) ∧
      ∀ p, (extractRelease umask target archive system.tree).1 p ≠ made p → base <+: p

variable {target} {before : FileTree β} {base : Path}

/-- The links that have been put off are below the target and neither absolute nor going up. -/
def Deferred (target : Path) (links : List (Path × String)) : Prop :=
  ∀ link ∈ links, (∃ rest, ".." ∉ rest ∧ rest ≠ [] ∧ link.1 = target ++ rest) ∧
    isAbsolute link.2 = false ∧ ".." ∉ parts link.2

variable {tree : FileTree β}

theorem makeDirectories_confined (hsite : before.Site target base)
    (h : FileTree.Confined before base tree) {rest : List String} (hup : ".." ∉ rest) :
    FileTree.Confined before base (makeDirectories umask (target ++ rest) tree).1 :=
  h.mkdirs hsite hup _ _ _

/-- The parent of what is named below the target is the target or named below it. -/
theorem parent_below (target : Path) {rest : List String} (hne : rest ≠ []) (hup : ".." ∉ rest) :
    (target ++ rest).dropLast = target ++ rest.dropLast ∧ ".." ∉ rest.dropLast :=
  ⟨List.dropLast_append_of_ne_nil hne, fun hmem => hup (List.mem_of_mem_dropLast hmem)⟩

section Site

variable (hsite : before.Site target base)
include hsite

theorem extractFile_confined (h : FileTree.Confined before base tree) {rest : List String}
    (hne : rest ≠ []) (hup : ".." ∉ rest) (mode : ℕ) (content : β) (complete : Bool) :
    FileTree.Confined before base
      (extractFile umask (target ++ rest) mode content complete tree).1 := by
  obtain ⟨hparent, hparentUp⟩ := parent_below target hne hup
  have hmade := makeDirectories_confined umask hsite h hparentUp
  rw [← hparent] at hmade
  unfold extractFile
  split
  · rename_i tree' e hmkdirs
    rwa [hmkdirs] at hmade
  · rename_i tree' hmkdirs
    rw [hmkdirs] at hmade
    split
    · exact hmade
    · rename_i written hwrite
      have hwritten := hmade.writeFile hsite hup hwrite
      split
      · split
        · exact hwritten
        · rename_i changed hchmod
          exact hwritten.chmod hsite hup hchmod
      · exact hwritten

theorem extractMember_confined (member : Member β) {s : Progress β}
    (h : FileTree.Confined before base s.tree) (hlinks : Deferred target s.symlinks) :
    FileTree.Confined before base (extractMember umask target member s).1.tree ∧
      Deferred target (extractMember umask target member s).1.symlinks := by
  unfold extractMember
  simp only
  split
  · exact ⟨h, hlinks⟩
  · split
    · exact ⟨h, hlinks⟩
    · rename_i hsafe
      simp only [not_or] at hsafe
      obtain ⟨-, hup, hne, -⟩ := hsafe
      split
      · exact ⟨makeDirectories_confined umask hsite h hup, hlinks⟩
      · exact ⟨extractFile_confined umask hsite h hne hup _ _ _, hlinks⟩
      · rename_i linkname hkind
        split
        · exact ⟨h, hlinks⟩
        · rename_i hlink
          simp only [not_or, Bool.not_eq_true] at hlink
          refine ⟨h, ?_⟩
          intro link hmem
          rcases List.mem_append.mp hmem with hmem | hmem
          · exact hlinks link hmem
          · obtain rfl := List.mem_singleton.mp hmem
            exact ⟨⟨parts member.name, hup, hne, rfl⟩, hlink⟩
      · exact ⟨h, hlinks⟩

theorem extractMembers_confined (members : List (Member β)) {s : Progress β}
    (h : FileTree.Confined before base s.tree) (hlinks : Deferred target s.symlinks) :
    FileTree.Confined before base (extractMembers umask target members s).1.tree ∧
      Deferred target (extractMembers umask target members s).1.symlinks := by
  induction members generalizing s with
  | nil => exact ⟨h, hlinks⟩
  | cons member members ih =>
    have hmember := extractMember_confined umask hsite member h hlinks
    rw [extractMembers]
    split
    · rename_i s' failure hstep
      rwa [hstep] at hmember
    · rename_i s' hstep
      rw [hstep] at hmember
      exact ih hmember.1 hmember.2

theorem makeLink_confined (h : FileTree.Confined before base tree) {rest : List String}
    (hne : rest ≠ []) (hup : ".." ∉ rest) {text : String} (habsolute : isAbsolute text = false)
    (htext : ".." ∉ parts text) :
    FileTree.Confined before base (makeLink umask (target ++ rest) text tree).1 := by
  obtain ⟨hparent, hparentUp⟩ := parent_below target hne hup
  have hmade := makeDirectories_confined umask hsite h hparentUp
  rw [← hparent] at hmade
  unfold makeLink
  split
  · rename_i tree' e hmkdirs
    rwa [hmkdirs] at hmade
  · rename_i tree' hmkdirs
    rw [hmkdirs] at hmade
    split
    · exact hmade
    · split
      · exact hmade
      · rename_i linked hsymlink
        exact hmade.symlink hsite hup habsolute htext hsymlink

theorem makeLinks_confined {links : List (Path × String)} (hlinks : Deferred target links)
    (h : FileTree.Confined before base tree) :
    FileTree.Confined before base (makeLinks umask links tree).1 := by
  induction links generalizing tree with
  | nil => exact h
  | cons link links ih =>
    obtain ⟨destination, text⟩ := link
    obtain ⟨⟨rest, hup, hne, rfl⟩, habsolute, htext⟩ := hlinks _ List.mem_cons_self
    have hlink := makeLink_confined umask hsite h hne hup habsolute htext
    rw [makeLinks]
    split
    · rename_i tree' e hstep
      rwa [hstep] at hlink
    · rename_i tree' hstep
      rw [hstep] at hlink
      exact ih (fun link hmem => hlinks link (List.mem_cons_of_mem _ hmem)) hlink

theorem openDirectories_confined (h : FileTree.Confined before base tree) :
    FileTree.Confined before base (openDirectories target tree) := by
  obtain ⟨k, hreaches⟩ := h.reaches hsite
  have hresolve : tree.resolve target = .ok base := FileTree.resolve_eq_ok.mpr ⟨k, hreaches true⟩
  rw [openDirectories, hresolve]
  exact h.chmodBelow _

theorem extractAll_confined (archive : Archive β) (h : FileTree.Confined before base tree) :
    FileTree.Confined before base (extractAll umask target archive tree).1 := by
  have hmembers := extractMembers_confined umask hsite archive.members
    (s := { tree := tree, symlinks := [], count := 0, total := 0 }) h nofun
  unfold extractAll
  simp only
  split
  · rename_i s failure hstep
    rw [hstep] at hmembers
    exact hmembers.1
  · rename_i s hstep
    rw [hstep] at hmembers
    have hlinks := makeLinks_confined umask hsite hmembers.2 hmembers.1
    split
    · exact hmembers.1
    · split
      · rename_i tree' e hmake
        rwa [hmake] at hlinks
      · rename_i tree' hmake
        rw [hmake] at hlinks
        have hopen := openDirectories_confined hsite hlinks
        split
        · exact hopen
        · exact hopen

/-- What is confined differs only below the directory from the tree in which it has been made. -/
theorem below_of_changed {mode : ℕ} (houtside : FileTree.AgreeOutside base before tree) {p : Path}
    (hp : tree p ≠ before.put base (.directory mode) p) : base <+: p := by
  by_contra hnot
  apply hp
  rw [houtside p hnot, (hsite.confined mode).outside p hnot]

end Site

/-- For every archive, every target and every file system that the extraction starts in, everything
written is below the target, after all links are followed. -/
theorem extractedInside (umask : Umask) (target : Path) (archive : Archive β)
    (system : FileTree.FileSystem β) : ExtractedInside umask target archive system := by
  unfold ExtractedInside
  split
  · rename_i made e hmade
    rw [extractRelease, hmade]
  · rename_i made hmade
    obtain ⟨before, base, hsite, rfl⟩ := FileTree.mkdirs_site system.closed hmade
    have hextracted := extractAll_confined umask hsite archive
      (hsite.confined umask.directoryMode)
    obtain ⟨k, hreaches⟩ := (hsite.confined umask.directoryMode).reaches hsite
    refine ⟨base, FileTree.resolve_eq_ok.mpr ⟨k, hreaches true⟩, ?_, ?_, ?_⟩
    · exact fun p => below_of_changed hsite hextracted.outside
    · intro rest p hup hresolve
      obtain ⟨m, hwalk⟩ := FileTree.resolve_eq_ok.mp hresolve
      exact hextracted.inside hsite hup hwalk
    · intro p
      refine below_of_changed hsite ?_
      rw [extractRelease, hmade]
      simp only
      split
      · rename_i extracted failure hstep
        rw [hstep] at hextracted
        intro q hq
        simp only [hextracted.rmtree hsite, if_neg hq]
      · rename_i extracted hstep
        rw [hstep] at hextracted
        exact hextracted.outside

end Pandamonium.Extraction
