import Mathlib.Data.List.Infix

/-!
# File systems with symbolic links

A tree is a partial function from physical paths to files, directories and links; a path is
physical when no link is followed along it.  `walk` follows a path from a directory as an operating
system does: a link is replaced by its text, up to so many times, and `..` goes to the parent of
where the walk has come to.

A directory is contained when the links below it are relative and never go up.  A walk from it that
does not go up itself ends below it, whatever links it follows (`walk_inside`).
-/

set_option autoImplicit false

namespace Pandamonium.Library

/-- The components of an absolute path. -/
abbrev Path := List String

structure LinkText where
  absolute : Bool
  parts : List String
  deriving DecidableEq, Repr

inductive Node (β : Type)
  | file (content : β) (mode : ℕ)
  | directory (mode : ℕ)
  | link (text : LinkText)
  deriving DecidableEq, Repr

/-- What is at each physical path. -/
abbrev FileTree (β : Type) := Path → Option (Node β)

inductive OSError
  | notFound
  | exists
  | notDirectory
  | isDirectory
  | tooManyLinks
  deriving DecidableEq, Repr

namespace FileTree

variable {β : Type} (t : FileTree β)

/-- There is a directory at a physical path. -/
def IsDirectory (p : Path) : Prop := ∃ mode, t p = some (.directory mode)

/-- Put a node at a physical path. -/
def put (p : Path) (node : Node β) : FileTree β := fun q => if q = p then some node else t q

/-- A walk between two links. -/
def walkWith (follow : Bool) (n : ℕ) (jump : Path → List String → Except OSError (ℕ × Path)) :
    Path → List String → Except OSError (ℕ × Path)
  | here, [] => .ok (n, here)
  | here, name :: rest =>
    if name = ".." then walkWith follow n jump here.dropLast rest
    else
      match t (here ++ [name]) with
      | some (.directory _) => walkWith follow n jump (here ++ [name]) rest
      | some (.link text) =>
        if rest = [] ∧ follow = false then .ok (n, here ++ [name])
        else jump (if text.absolute then [] else here) (text.parts ++ rest)
      | some (.file _ _) => if rest = [] then .ok (n, here ++ [name]) else .error .notDirectory
      | none => if rest = [] then .ok (n, here ++ [name]) else .error .notFound

/-- The physical path that a path from the directory `here` leads to, with the number of links that
may still be followed.  Its last component may be missing; a link there is followed if asked for. -/
def walk (follow : Bool) : ℕ → Path → List String → Except OSError (ℕ × Path)
  | 0 => t.walkWith follow 0 fun _ _ => .error .tooManyLinks
  | n + 1 => t.walkWith follow (n + 1) (walk follow n)

/-- The links an operating system follows on one path. -/
def maxLinks : ℕ := 40

/-- Where a path leads, a link at its end being followed. -/
def resolve (path : Path) : Except OSError Path :=
  (t.walk true maxLinks [] path).map Prod.snd

/-- Where the last component of a path is or would be. -/
def locate (path : Path) : Except OSError Path :=
  (t.walk false maxLinks [] path).map Prod.snd

/-- What a path leads to. -/
def isDir (path : Path) : Bool :=
  match t.resolve path with
  | .ok p =>
    match t p with
    | some (.directory _) => true
    | _ => false
  | .error _ => false

/-! ## Operations -/

/-- `mkdir(path)` -/
def mkdir (mode : ℕ) (path : Path) : Except OSError (FileTree β) :=
  match t.locate path with
  | .error e => .error e
  | .ok p => if (t p).isSome then .error .exists else .ok (t.put p (.directory mode))

/-- `Path.mkdir(parents=True)`: a missing parent is made first, and a directory that is there
already is an error or not.  The number bounds the parents. -/
def mkdirs (mode : ℕ) (existOk : Bool) : ℕ → Path → FileTree β → FileTree β × Option OSError
  | n, path, t =>
    match t.mkdir mode path with
    | .ok t' => (t', none)
    | .error .notFound =>
      match n with
      | 0 => (t, some .notFound)
      | n + 1 =>
        match mkdirs mode true n path.dropLast t with
        | (t', some e) => (t', some e)
        | (t', none) =>
          match t'.mkdir mode path with
          | .ok t'' => (t'', none)
          | .error e =>
            if e ≠ .notFound ∧ existOk = true ∧ t'.isDir path = true then (t', none)
            else (t', some e)
    | .error e => if existOk = true ∧ t.isDir path = true then (t, none) else (t, some e)

/-- `symlink(text, path)` -/
def symlink (text : LinkText) (path : Path) : Except OSError (FileTree β) :=
  match t.locate path with
  | .error e => .error e
  | .ok p => if (t p).isSome then .error .exists else .ok (t.put p (.link text))

/-- `open(path, "wb")` and what is written to it; a new file gets a mode. -/
def writeFile (mode : ℕ) (content : β) (path : Path) : Except OSError (FileTree β) :=
  match t.resolve path with
  | .error e => .error e
  | .ok p =>
    match t p with
    | some (.directory _) => .error .isDirectory
    | some (.file _ mode') => .ok (t.put p (.file content mode'))
    | _ => .ok (t.put p (.file content mode))

/-- `chmod(path, mode)` -/
def chmod (mode : ℕ) (path : Path) : Except OSError (FileTree β) :=
  match t.resolve path with
  | .error e => .error e
  | .ok p =>
    match t p with
    | some (.directory _) => .ok (t.put p (.directory mode))
    | some (.file content _) => .ok (t.put p (.file content mode))
    | _ => .error .notFound

/-- The directories at and below a physical path get a mode. -/
def chmodBelow (mode : ℕ) (p : Path) : FileTree β := fun q =>
  match t q with
  | some (.directory mode') => some (.directory (if p <+: q then mode else mode'))
  | node => node

/-- A directory is removed with everything below it, a link to one is not. -/
def rmtree (path : Path) : FileTree β :=
  match t.locate path with
  | .error _ => t
  | .ok p =>
    match t p with
    | some (.directory _) => fun q => if p <+: q then none else t q
    | _ => t

/-! ## Walks -/

variable {t}

/-- The links below a directory are relative and never go up. -/
def Contained (t : FileTree β) (base : Path) : Prop :=
  ∀ p text, base <+: p → t p = some (.link text) → text.absolute = false ∧ ".." ∉ text.parts

variable {follow : Bool} {n m mode : ℕ} {p here path : Path} {todo parts : List String}
  {t' : FileTree β}

theorem walkWith_inside {base : Path} (hcontained : t.Contained base)
    {jump : Path → List String → Except OSError (ℕ × Path)}
    (hjump : ∀ here todo m p, base <+: here → ".." ∉ todo → jump here todo = .ok (m, p) →
      base <+: p)
    (hhere : base <+: here) (hup : ".." ∉ todo)
    (h : t.walkWith follow n jump here todo = .ok (m, p)) : base <+: p := by
  induction todo generalizing here with
  | nil =>
    cases h
    exact hhere
  | cons name rest ih =>
    have hbelow : base <+: here ++ [name] := hhere.trans (List.prefix_append _ _)
    obtain ⟨hname, hrest⟩ := not_or.mp (mt List.mem_cons.mpr hup)
    rw [walkWith, if_neg (Ne.symm hname)] at h
    cases hnode : t (here ++ [name]) with
    | none =>
      simp only [hnode] at h
      split at h
      · cases h
        exact hbelow
      · cases h
    | some node =>
      cases node with
      | file content mode =>
        simp only [hnode] at h
        split at h
        · cases h
          exact hbelow
        · cases h
      | directory mode =>
        simp only [hnode] at h
        exact ih hbelow hrest h
      | link text =>
        obtain ⟨habsolute, hparts⟩ := hcontained _ text hbelow hnode
        simp only [hnode, habsolute] at h
        split at h
        · cases h
          exact hbelow
        · refine hjump here (text.parts ++ rest) m p hhere ?_ h
          rw [List.mem_append]
          exact not_or.mpr ⟨hparts, hrest⟩

/-- A walk from below a contained directory that does not go up ends below it. -/
theorem walk_inside {base : Path} (hcontained : t.Contained base) (hhere : base <+: here)
    (hup : ".." ∉ todo) (h : t.walk follow n here todo = .ok (m, p)) : base <+: p := by
  induction n generalizing here todo m p with
  | zero =>
    refine walkWith_inside hcontained ?_ hhere hup h
    intro _ _ _ _ _ _ hjump
    cases hjump
  | succ n ih =>
    exact walkWith_inside hcontained (fun _ _ _ _ hhere' hup' hjump => ih hhere' hup' hjump)
      hhere hup h

theorem walkWith_append (jump : Path → List String → Except OSError (ℕ × Path))
    {jump' : Path → List String → Except OSError (ℕ × Path)} {last : List String} {q : Path}
    (hlast : last ≠ [])
    (hn : ∀ here todo, t.walk follow n here todo = t.walkWith follow n jump' here todo)
    (hjump : ∀ here todo, jump here todo = .ok (m, q) →
      jump' here (todo ++ last) = t.walk follow m q last)
    (hq : t.IsDirectory q) {first : List String}
    (h : t.walkWith true n jump here first = .ok (m, q)) :
    t.walkWith follow n jump' here (first ++ last) = t.walk follow m q last := by
  induction first generalizing here with
  | nil =>
    cases h
    exact (hn _ _).symm
  | cons name rest ih =>
    have hne : rest ++ last ≠ [] := List.append_ne_nil_of_right_ne_nil _ hlast
    rw [List.cons_append, walkWith]
    rw [walkWith] at h
    split at h
    · rename_i hname
      rw [if_pos hname]
      exact ih h
    · rename_i hname
      rw [if_neg hname]
      obtain ⟨mode, hq⟩ := hq
      cases hnode : t (here ++ [name]) with
      | none =>
        simp only [hnode] at h
        split at h
        · cases h
          rw [hnode] at hq
          cases hq
        · cases h
      | some node =>
        cases node with
        | file content mode =>
          simp only [hnode] at h
          split at h
          · cases h
            rw [hnode] at hq
            cases hq
          · cases h
        | directory mode =>
          simp only [hnode] at h ⊢
          exact ih h
        | link text =>
          simp only [hnode, Bool.true_eq_false, and_false, if_false] at h
          simp only [hne, false_and, if_false]
          rw [← List.append_assoc]
          exact hjump _ _ h

/-- A path that goes on behind one that leads to a directory is walked from there. -/
theorem walk_append {first last : List String} {q : Path} (hlast : last ≠ []) (hq : t.IsDirectory q)
    (h : t.walk true n here first = .ok (m, q)) :
    t.walk follow n here (first ++ last) = t.walk follow m q last := by
  induction n generalizing here first with
  | zero =>
    refine walkWith_append (fun _ _ => .error .tooManyLinks) hlast (fun _ _ => rfl) ?_ hq h
    intro _ _ hjump
    cases hjump
  | succ n ih =>
    exact walkWith_append (t.walk true n) hlast (fun _ _ => rfl) (fun _ _ hjump => ih hjump) hq h

/-- Two trees agree outside what is below a physical path. -/
def AgreeOutside (base : Path) (t t' : FileTree β) : Prop := ∀ p, ¬ base <+: p → t' p = t p

theorem walkWith_made {base : Path} (hnothing : ∀ p, base <+: p → t p = none)
    (hbase : t'.IsDirectory base) (hagree : AgreeOutside base t t')
    {jump jump' : Path → List String → Except OSError (ℕ × Path)}
    (hjump : ∀ here todo, jump here todo = .ok (m, base) → jump' here todo = .ok (m, base))
    (h : t.walkWith false n jump here todo = .ok (m, base)) :
    t'.walkWith follow n jump' here todo = .ok (m, base) := by
  induction todo generalizing here with
  | nil => exact h
  | cons name rest ih =>
    have hsame : ∀ node, t (here ++ [name]) = some node → t' (here ++ [name]) = some node := by
      intro node hnode
      rw [hagree _ fun hbelow => ?_, hnode]
      rw [hnothing _ hbelow] at hnode
      cases hnode
    rw [walkWith] at h ⊢
    split at h
    · rename_i hname
      rw [if_pos hname]
      exact ih h
    · rename_i hname
      rw [if_neg hname]
      cases hnode : t (here ++ [name]) with
      | none =>
        simp only [hnode] at h
        split at h
        · rename_i hrest
          obtain ⟨mode, hbase⟩ := hbase
          cases h
          simp only [hbase, hrest, walkWith]
        · cases h
      | some node =>
        have hbelow : ¬ base <+: here ++ [name] := by
          intro hbelow
          rw [hnothing _ hbelow] at hnode
          cases hnode
        have hne : here ++ [name] ≠ base := by
          rintro rfl
          exact hbelow (List.prefix_refl _)
        cases node with
        | file content mode =>
          simp only [hnode] at h
          split at h
          · cases h
            exact absurd rfl hne
          · cases h
        | directory mode =>
          simp only [hnode] at h
          simp only [hsame _ hnode]
          exact ih h
        | link text =>
          simp only [hnode, and_true] at h
          split at h
          · cases h
            exact absurd rfl hne
          · rename_i hrest
            simp only [hsame _ hnode, hrest, false_and, if_false]
            exact hjump _ _ h

/-- A path that leads to a place where nothing is, and to nothing below it, leads there also when a
directory has been made there, whatever is below it by then. -/
theorem walk_made {base : Path} (hnothing : ∀ p, base <+: p → t p = none)
    (hbase : t'.IsDirectory base) (hagree : AgreeOutside base t t')
    (h : t.walk false n here todo = .ok (m, base)) :
    t'.walk follow n here todo = .ok (m, base) := by
  induction n generalizing here todo with
  | zero =>
    refine walkWith_made hnothing hbase hagree ?_ h
    intro _ _ hjump
    cases hjump
  | succ n ih => exact walkWith_made hnothing hbase hagree (fun _ _ hjump => ih hjump) h

/-! ## Trees -/

/-- Whatever there is, is in a directory. -/
structure Closed (t : FileTree β) : Prop where
  root : t.IsDirectory []
  parent : ∀ p name, t (p ++ [name]) ≠ none → t.IsDirectory p

/-- A file system has a closed tree. -/
structure FileSystem (β : Type) where
  tree : FileTree β
  closed : tree.Closed

/-- Nothing is below a place where nothing is. -/
theorem Closed.nothing_below (h : t.Closed) {base : Path} (hbase : t base = none) (hp : base <+: p) :
    t p = none := by
  obtain ⟨rest, rfl⟩ := hp
  induction rest using List.reverseRecOn with
  | nil => rwa [List.append_nil]
  | append_singleton rest name ih =>
    by_contra hsome
    rw [← List.append_assoc] at hsome
    obtain ⟨mode, hmode⟩ := h.parent _ name hsome
    rw [ih] at hmode
    cases hmode

/-- Where a walk ends there is something, or a directory that it would be in. -/
def Ends (t : FileTree β) (p : Path) : Prop :=
  t p ≠ none ∨ ∃ d name, p = d ++ [name] ∧ t.IsDirectory d

theorem Closed.dropLast (h : t.Closed) (hp : t.IsDirectory p) :
    t.IsDirectory p.dropLast := by
  induction p using List.reverseRecOn with
  | nil => exact h.root
  | append_singleton d name =>
    rw [List.dropLast_concat]
    obtain ⟨mode, hmode⟩ := hp
    exact h.parent d name (by rw [hmode]; exact nofun)

theorem walkWith_ends (hclosed : t.Closed) {jump : Path → List String → Except OSError (ℕ × Path)}
    (hjump : ∀ here todo, t.IsDirectory here → jump here todo = .ok (m, p) → t.Ends p)
    (hhere : t.IsDirectory here) (h : t.walkWith follow n jump here todo = .ok (m, p)) :
    t.Ends p := by
  induction todo generalizing here with
  | nil =>
    cases h
    obtain ⟨mode, hmode⟩ := hhere
    exact .inl (by rw [hmode]; exact nofun)
  | cons name rest ih =>
    rw [walkWith] at h
    split at h
    · exact ih (hclosed.dropLast hhere) h
    · split at h
      · rename_i mode hnode
        exact ih ⟨mode, hnode⟩ h
      · rename_i text hnode
        split at h
        · cases h
          exact .inl (by rw [hnode]; exact nofun)
        · refine hjump _ _ ?_ h
          split
          · exact hclosed.root
          · exact hhere
      · rename_i hnode
        split at h
        · cases h
          exact .inl (by rw [hnode]; exact nofun)
        · cases h
      · split at h
        · cases h
          exact .inr ⟨here, name, rfl, hhere⟩
        · cases h

theorem walk_ends (hclosed : t.Closed) (hhere : t.IsDirectory here)
    (h : t.walk follow n here todo = .ok (m, p)) : t.Ends p := by
  induction n generalizing here todo with
  | zero =>
    refine walkWith_ends hclosed ?_ hhere h
    intro _ _ _ hjump
    cases hjump
  | succ n ih => exact walkWith_ends hclosed (fun _ _ hhere' hjump => ih hhere' hjump) hhere h

theorem put_self (t : FileTree β) (p : Path) (node : Node β) : t.put p node p = some node :=
  if_pos rfl

theorem put_ne (t : FileTree β) {q : Path} (hne : q ≠ p) (node : Node β) : t.put p node q = t q :=
  if_neg hne

theorem locate_eq_ok :
    t.locate path = .ok p ↔ ∃ m, t.walk false maxLinks [] path = .ok (m, p) := by
  unfold locate
  cases t.walk false maxLinks [] path with
  | error e => simp [Except.map]
  | ok found =>
    obtain ⟨m, q⟩ := found
    simp [Except.map]

theorem resolve_eq_ok :
    t.resolve path = .ok p ↔ ∃ m, t.walk true maxLinks [] path = .ok (m, p) := by
  unfold resolve
  cases t.walk true maxLinks [] path with
  | error e => simp [Except.map]
  | ok found =>
    obtain ⟨m, q⟩ := found
    simp [Except.map]

theorem mkdir_eq_ok :
    t.mkdir mode path = .ok t' ↔
      ∃ p, t.locate path = .ok p ∧ t p = none ∧ t' = t.put p (.directory mode) := by
  unfold mkdir
  cases t.locate path with
  | error e => simp
  | ok p =>
    cases hnode : t p with
    | none => simp [hnode, eq_comm]
    | some node => simp [hnode]

/-- A directory that is made keeps a tree closed. -/
theorem Closed.mkdir (h : t.Closed) (hmkdir : t.mkdir mode path = .ok t') :
    t'.Closed := by
  obtain ⟨p, hlocate, hnone, rfl⟩ := mkdir_eq_ok.mp hmkdir
  obtain ⟨m, hwalk⟩ := locate_eq_ok.mp hlocate
  have hdirectory : ∀ q, t.IsDirectory q → (t.put p (.directory mode)).IsDirectory q := by
    rintro q ⟨mode', hq⟩
    refine ⟨mode', ?_⟩
    rw [put_ne t ?_, hq]
    rintro rfl
    rw [hnone] at hq
    cases hq
  refine ⟨hdirectory [] h.root, ?_⟩
  intro q name hsome
  apply hdirectory
  by_cases hp : q ++ [name] = p
  · rcases walk_ends h h.root hwalk with hp' | ⟨d, name', hd, hdirectory⟩
    · exact absurd hnone hp'
    · obtain ⟨rfl, -⟩ := List.append_inj' (hp.trans hd) rfl
      exact hdirectory
  · rw [put_ne t hp] at hsome
    exact h.parent q name hsome

/-- What making one directory of a family of paths preserves, with the parent of a path in the
family where it is missing, making the directories of a path preserves. -/
theorem mkdirs_preserves {P : FileTree β → Prop} {Q : Path → Prop}
    (hmkdir : ∀ t t' path, P t → Q path → t.mkdir mode path = .ok t' → P t')
    (hparent : ∀ t path, P t → Q path → t.mkdir mode path = .error .notFound → Q path.dropLast)
    (existOk : Bool) (n : ℕ) (ht : P t) (hpath : Q path) :
    P (t.mkdirs mode existOk n path).1 := by
  induction n generalizing existOk path with
  | zero =>
    unfold FileTree.mkdirs
    split
    · rename_i t' hok
      exact hmkdir t t' path ht hpath hok
    · exact ht
    · split <;> exact ht
  | succ n ih =>
    rw [FileTree.mkdirs]
    split
    · rename_i t' hok
      exact hmkdir t t' path ht hpath hok
    · rename_i hmissing
      have hmade := ih true (hparent t path ht hpath hmissing)
      split
      · rename_i t' e hmkdirs
        rwa [hmkdirs] at hmade
      · rename_i t' hmkdirs
        rw [hmkdirs] at hmade
        split
        · rename_i t'' hok
          exact hmkdir t' t'' path hmade hpath hok
        · split <;> exact hmade
    · split <;> exact ht

theorem Closed.mkdirs (h : t.Closed) (mode : ℕ) (existOk : Bool) (n : ℕ) (path : Path) :
    (t.mkdirs mode existOk n path).1.Closed :=
  mkdirs_preserves (Q := fun _ => True) (fun _ _ _ ht _ hok => ht.mkdir hok)
    (fun _ _ _ _ _ => trivial) existOk n h trivial

/-! ## Operations below a directory that has been made -/

/-- A path leads to a place where nothing is. -/
structure Site (t : FileTree β) (target base : Path) : Prop where
  nothing : ∀ p, base <+: p → t p = none
  located : ∃ m, t.walk false maxLinks [] target = .ok (m, base)

/-- A directory has been made there, what is outside it is as it was, and the links below it are
relative and never go up. -/
structure Confined (before : FileTree β) (base : Path) (t : FileTree β) : Prop where
  outside : AgreeOutside base before t
  contained : t.Contained base
  directory : t.IsDirectory base

variable {before : FileTree β} {target base : Path}

theorem Confined.reaches (hsite : before.Site target base) (h : Confined before base t) :
    ∃ m, ∀ follow, t.walk follow maxLinks [] target = .ok (m, base) := by
  obtain ⟨m, hm⟩ := hsite.located
  exact ⟨m, fun follow => walk_made hsite.nothing h.directory h.outside hm⟩

/-- What is named below the directory without going up is below it, through whatever links. -/
theorem Confined.inside (hsite : before.Site target base) (h : Confined before base t)
    (hup : ".." ∉ parts) (hwalk : t.walk follow maxLinks [] (target ++ parts) = .ok (m, p)) :
    base <+: p := by
  obtain ⟨k, hreaches⟩ := h.reaches hsite
  by_cases hparts : parts = []
  · rw [hparts, List.append_nil, hreaches] at hwalk
    cases hwalk
    exact List.prefix_refl _
  · rw [walk_append hparts h.directory (hreaches true)] at hwalk
    exact walk_inside h.contained (List.prefix_refl _) hup hwalk

theorem Confined.put (h : Confined before base t) (hp : base <+: p) {node : Node β}
    (hlink : ∀ text, node = .link text → text.absolute = false ∧ ".." ∉ text.parts)
    (hbase : p = base → ∃ mode, node = .directory mode) : Confined before base (t.put p node) where
  outside := by
    intro q hq
    rw [put_ne t ?_, h.outside q hq]
    rintro rfl
    exact hq hp
  contained := by
    intro q text hq hnode
    by_cases heq : q = p
    · rw [heq, put_self, Option.some.injEq] at hnode
      exact hlink text hnode
    · rw [put_ne t heq] at hnode
      exact h.contained q text hq hnode
  directory := by
    by_cases heq : p = base
    · obtain ⟨mode, rfl⟩ := hbase heq
      exact ⟨mode, by rw [heq, put_self]⟩
    · obtain ⟨mode, hmode⟩ := h.directory
      exact ⟨mode, by rw [put_ne t (Ne.symm heq), hmode]⟩

/-- The directory is there, so a place where nothing is, is another one. -/
theorem Confined.ne_base (h : Confined before base t) (hp : t p = none) :
    p ≠ base := by
  rintro rfl
  obtain ⟨mode, hmode⟩ := h.directory
  rw [hp] at hmode
  cases hmode

section Below

variable (hsite : before.Site target base) (h : Confined before base t)
include hsite h

theorem Confined.mkdir (hup : ".." ∉ parts) (hmkdir : t.mkdir mode (target ++ parts) = .ok t') :
    Confined before base t' := by
  obtain ⟨p, hlocate, hnone, rfl⟩ := mkdir_eq_ok.mp hmkdir
  obtain ⟨m, hwalk⟩ := locate_eq_ok.mp hlocate
  exact h.put (h.inside hsite hup hwalk) nofun fun hp => absurd hp (h.ne_base hnone)

theorem Confined.mkdir_self (mode : ℕ) : t.mkdir mode target = .error .exists := by
  obtain ⟨k, hreaches⟩ := h.reaches hsite
  obtain ⟨mode', hmode⟩ := h.directory
  have hlocate : t.locate target = .ok base := locate_eq_ok.mpr ⟨k, hreaches false⟩
  simp only [FileTree.mkdir, hlocate, hmode, Option.isSome_some, if_true]

theorem Confined.mkdirs (hup : ".." ∉ parts) (mode : ℕ) (existOk : Bool) (n : ℕ) :
    Confined before base (t.mkdirs mode existOk n (target ++ parts)).1 := by
  refine mkdirs_preserves (P := Confined before base)
    (Q := fun path => ∃ parts, ".." ∉ parts ∧ path = target ++ parts) ?_ ?_ existOk n h
    ⟨parts, hup, rfl⟩
  · rintro t t' _ ht ⟨parts, hup, rfl⟩ hok
    exact ht.mkdir hsite hup hok
  · rintro t _ ht ⟨parts, hup, rfl⟩ hmissing
    have hne : parts ≠ [] := by
      rintro rfl
      rw [List.append_nil, ht.mkdir_self hsite] at hmissing
      cases hmissing
    refine ⟨parts.dropLast, fun hmem => hup (List.mem_of_mem_dropLast hmem), ?_⟩
    exact List.dropLast_append_of_ne_nil hne

theorem Confined.symlink (hup : ".." ∉ parts) {text : LinkText} (habsolute : text.absolute = false)
    (htext : ".." ∉ text.parts) (hsymlink : t.symlink text (target ++ parts) = .ok t') :
    Confined before base t' := by
  unfold FileTree.symlink at hsymlink
  cases hlocate : t.locate (target ++ parts) with
  | error e =>
    rw [hlocate] at hsymlink
    cases hsymlink
  | ok p =>
    obtain ⟨m, hwalk⟩ := locate_eq_ok.mp hlocate
    simp only [hlocate] at hsymlink
    split at hsymlink
    · cases hsymlink
    · rename_i hnone
      cases hsymlink
      rw [Option.not_isSome_iff_eq_none] at hnone
      refine h.put (h.inside hsite hup hwalk) ?_ fun hp => absurd hp (h.ne_base hnone)
      intro text' heq
      cases heq
      exact ⟨habsolute, htext⟩

theorem Confined.writeFile (hup : ".." ∉ parts) {content : β}
    (hwrite : t.writeFile mode content (target ++ parts) = .ok t') : Confined before base t' := by
  unfold FileTree.writeFile at hwrite
  cases hresolve : t.resolve (target ++ parts) with
  | error e =>
    rw [hresolve] at hwrite
    cases hwrite
  | ok p =>
    obtain ⟨m, hwalk⟩ := resolve_eq_ok.mp hresolve
    have hbelow := h.inside hsite hup hwalk
    have hfile : ∀ mode', (∀ m', t p ≠ some (.directory m')) →
        Confined before base (t.put p (.file content mode')) := by
      intro mode' hnot
      refine h.put hbelow nofun ?_
      rintro rfl
      obtain ⟨m', hm'⟩ := h.directory
      exact absurd hm' (hnot m')
    simp only [hresolve] at hwrite
    split at hwrite
    · cases hwrite
    · rename_i content' mode' hnode
      cases hwrite
      exact hfile mode' fun m' hm' => by rw [hnode] at hm'; cases hm'
    · rename_i hnot _
      cases hwrite
      exact hfile mode fun m' hm' => hnot m' hm'

theorem Confined.chmod (hup : ".." ∉ parts) (hchmod : t.chmod mode (target ++ parts) = .ok t') :
    Confined before base t' := by
  unfold FileTree.chmod at hchmod
  cases hresolve : t.resolve (target ++ parts) with
  | error e =>
    rw [hresolve] at hchmod
    cases hchmod
  | ok p =>
    obtain ⟨m, hwalk⟩ := resolve_eq_ok.mp hresolve
    have hbelow := h.inside hsite hup hwalk
    simp only [hresolve] at hchmod
    split at hchmod
    · cases hchmod
      exact h.put hbelow nofun fun _ => ⟨mode, rfl⟩
    · rename_i content mode' hnode
      cases hchmod
      refine h.put hbelow nofun ?_
      rintro rfl
      obtain ⟨m', hm'⟩ := h.directory
      rw [hnode] at hm'
      cases hm'
    · cases hchmod

end Below

theorem Confined.chmodBelow (h : Confined before base t) (mode : ℕ) :
    Confined before base (t.chmodBelow mode base) where
  outside := by
    intro p hp
    rw [← h.outside p hp, FileTree.chmodBelow]
    split
    · rename_i mode' hnode
      rw [if_neg hp, hnode]
    · rfl
  contained := by
    intro p text hp hnode
    rw [FileTree.chmodBelow] at hnode
    split at hnode
    · cases hnode
    · exact h.contained p text hp hnode
  directory := by
    obtain ⟨mode', hmode⟩ := h.directory
    exact ⟨mode, by simp only [FileTree.chmodBelow, hmode, List.prefix_refl, if_true]⟩

/-- Removing the directory leaves what is outside it. -/
theorem Confined.rmtree (hsite : before.Site target base) (h : Confined before base t) :
    t.rmtree target = fun p => if base <+: p then none else before p := by
  obtain ⟨k, hreaches⟩ := h.reaches hsite
  obtain ⟨mode, hmode⟩ := h.directory
  have hlocate : t.locate target = .ok base := locate_eq_ok.mpr ⟨k, hreaches false⟩
  funext p
  simp only [FileTree.rmtree, hlocate, hmode]
  split
  · rfl
  · rename_i hp
    exact h.outside p hp

/-- The last step of making the directories of a path that is not to be there is making its last
directory, at a place where nothing is. -/
theorem mkdirs_site (hclosed : t.Closed) (hmade : t.mkdirs mode false n path = (t', none)) :
    ∃ (before : FileTree β) (base : Path), before.Site path base ∧
      t' = before.put base (.directory mode) := by
  have hsite : ∀ {t t' : FileTree β}, t.Closed → t.mkdir mode path = .ok t' →
      ∃ (before : FileTree β) (base : Path), before.Site path base ∧
        t' = before.put base (.directory mode) := by
    intro t t' hclosed hok
    obtain ⟨p, hlocate, hnone, rfl⟩ := mkdir_eq_ok.mp hok
    exact ⟨t, p, ⟨fun _ => hclosed.nothing_below hnone, locate_eq_ok.mp hlocate⟩, rfl⟩
  cases hok : t.mkdir mode path with
  | ok t₁ =>
    rw [FileTree.mkdirs.eq_def] at hmade
    simp only [hok] at hmade
    cases hmade
    exact hsite hclosed hok
  | error e =>
    cases e with
    | notFound =>
      cases n with
      | zero =>
        simp only [FileTree.mkdirs, hok] at hmade
        cases hmade
      | succ n =>
        have hparent := hclosed.mkdirs mode true n path.dropLast
        simp only [FileTree.mkdirs, hok] at hmade
        split at hmade
        · cases hmade
        · rename_i t₁ hmkdirs
          rw [hmkdirs] at hparent
          split at hmade
          · rename_i t₂ hlast
            cases hmade
            exact hsite hparent hlast
          · simp only [Bool.false_eq_true, false_and, and_false, if_false] at hmade
            cases hmade
    | _ =>
      rw [FileTree.mkdirs.eq_def] at hmade
      simp only [hok, Bool.false_eq_true, false_and, if_false] at hmade
      cases hmade

theorem Site.confined (hsite : before.Site target base) (mode : ℕ) :
    Confined before base (before.put base (.directory mode)) where
  outside := by
    intro p hp
    rw [put_ne]
    rintro rfl
    exact hp (List.prefix_refl _)
  contained := by
    intro p text hp hnode
    by_cases heq : p = base
    · rw [heq, put_self] at hnode
      cases hnode
    · rw [put_ne _ heq, hsite.nothing p hp] at hnode
      cases hnode
  directory := ⟨mode, put_self _ _ _⟩

end FileTree

end Pandamonium.Library
