import Pandamonium.Model.ReleaseVersions

/-!
# The order of versions

The tuples of versions compare as Semantic Versioning has it, with the case of identifiers ignored,
and a release is chosen or installed only if it is newer in this order.
-/

set_option autoImplicit false

namespace Pandamonium.ReleaseVersions

/-! ## Precedence -/

/-- Numeric identifiers compare as numbers, the others by their characters, and numeric ones come
first. -/
def IdentifierPrecedes (a b : List Char) : Prop :=
  match isNumeric a, isNumeric b with
  | true, true => numberOf a < numberOf b
  | true, false => True
  | false, true => False
  | false, false => a.map Char.toLower < b.map Char.toLower

/-- Neither comes before the other. -/
def SameIdentifier (a b : List Char) : Prop :=
  ¬ IdentifierPrecedes a b ∧ ¬ IdentifierPrecedes b a

/-- The first identifiers that differ decide, and where there are none the larger number of them. -/
def IdentifiersPrecede : List (List Char) → List (List Char) → Prop
  | _, [] => False
  | [], _ :: _ => True
  | a :: as, b :: bs => IdentifierPrecedes a b ∨ (SameIdentifier a b ∧ IdentifiersPrecede as bs)

/-- A prerelease comes before the release. -/
def PrereleasePrecedes : Option (List (List Char)) → Option (List (List Char)) → Prop
  | some as, some bs => IdentifiersPrecede as bs
  | some _, none => True
  | none, _ => False

/-- The precedence of Semantic Versioning. -/
def Version.Precedes (a b : Version) : Prop :=
  a.major < b.major ∨ (a.major = b.major ∧
    (a.minor < b.minor ∨ (a.minor = b.minor ∧
      (a.patch < b.patch ∨ (a.patch = b.patch ∧ PrereleasePrecedes a.prerelease b.prerelease)))))

theorem identifierKey_lt_iff (a b : List Char) :
    identifierKey a < identifierKey b ↔ IdentifierPrecedes a b := by
  unfold identifierKey IdentifierPrecedes
  cases isNumeric a <;> cases isNumeric b
  · exact Sum.Lex.inr_lt_inr_iff
  · exact iff_of_false Sum.Lex.not_inr_lt_inl id
  · exact iff_of_true (Sum.Lex.inl_lt_inr _ _) trivial
  · exact Sum.Lex.inl_lt_inl_iff

theorem identifierKey_eq_iff (a b : List Char) :
    identifierKey a = identifierKey b ↔ SameIdentifier a b := by
  rw [SameIdentifier, ← identifierKey_lt_iff, ← identifierKey_lt_iff, not_lt, not_lt]
  exact ⟨fun h => ⟨h.ge, h.le⟩, fun h => le_antisymm h.2 h.1⟩

theorem map_identifierKey_lt_iff (as bs : List (List Char)) :
    as.map identifierKey < bs.map identifierKey ↔ IdentifiersPrecede as bs := by
  induction as generalizing bs with
  | nil =>
    cases bs with
    | nil => exact iff_of_false (lt_irrefl _) id
    | cons b bs => exact iff_of_true (List.nil_lt_cons _ _) trivial
  | cons a as ih =>
    cases bs with
    | nil => exact iff_of_false (List.not_lt_nil _) id
    | cons b bs =>
      rw [List.map_cons, List.map_cons, List.cons_lt_cons_iff, identifierKey_lt_iff,
        identifierKey_eq_iff, ih, IdentifiersPrecede]

/-- The tuples are in the order of precedence. -/
theorem tuple_lt_iff (a b : Version) : a.tuple < b.tuple ↔ a.Precedes b := by
  simp only [Version.tuple, Prod.Lex.toLex_lt_toLex, Version.Precedes]
  have hprerelease : ((if a.prerelease.isNone then 1 else 0) <
        (if b.prerelease.isNone then 1 else 0) ∨
      (if a.prerelease.isNone then 1 else 0) = (if b.prerelease.isNone then 1 else 0) ∧
        (a.prerelease.getD []).map identifierKey < (b.prerelease.getD []).map identifierKey) ↔
      PrereleasePrecedes a.prerelease b.prerelease := by
    cases a.prerelease <;> cases b.prerelease <;>
      simp [PrereleasePrecedes, map_identifierKey_lt_iff]
  rw [hprerelease]

/-! ## Accepted versions -/

variable (decimal : Decimal)

/-- Both are accepted, and the first is not newer. -/
def NotNewer (s t : String) : Prop :=
  ∃ x ∈ versionTuple decimal s, ∃ y ∈ versionTuple decimal t, x ≤ y

/-- Both are accepted, and the first is newer. -/
def Newer (s t : String) : Prop :=
  ∃ x ∈ versionTuple decimal s, ∃ y ∈ versionTuple decimal t, y < x

/-- On the accepted strings there is a total preorder that agrees with the precedence, and a release
is chosen or goes on to be installed only if it is newer. -/
structure Ordered : Prop where
  refl : ∀ s, (versionTuple decimal s).isSome = true → NotNewer decimal s s
  trans : ∀ s t u, NotNewer decimal s t → NotNewer decimal t u → NotNewer decimal s u
  total : ∀ s t, (versionTuple decimal s).isSome = true → (versionTuple decimal t).isSome = true →
    NotNewer decimal s t ∨ NotNewer decimal t s
  precedence : ∀ s t v w, parseVersion decimal s = some v → parseVersion decimal t = some w →
    (Newer decimal t s ↔ v.Precedes w)
  discovered : ∀ checks appVersion stable latest releases manifest,
    discoverRelease decimal checks appVersion stable latest releases = some (.candidate manifest) →
    Newer decimal manifest.version appVersion
  applied : ∀ checks manifest installed revision python,
    applies decimal checks manifest installed revision python = some true →
    Newer decimal manifest.version installed

variable {decimal}

theorem removePrefix_v (version : String) : removePrefix ("v" ++ version) = version := by
  rw [removePrefix, String.toList_append]
  exact String.ofList_toList

theorem discovered_newer {checks : Checks} {appVersion : String} {stable : Bool}
    {latest : Option Release} {releases : List Release} {manifest : Manifest}
    (h : discoverRelease decimal checks appVersion stable latest releases =
      some (.candidate manifest)) : Newer decimal manifest.version appVersion := by
  simp only [discoverRelease, Option.bind_eq_bind, Option.bind_eq_some_iff] at h
  obtain ⟨release, -, x, hx, y, hy, h⟩ := h
  split at h
  · cases h
  · rename_i hnewer
    simp only [Option.bind_eq_some_iff, Option.guard_eq_some'] at h
    obtain ⟨found, -, -, hverifies, h⟩ := h
    cases h
    simp only [verifies, Option.all_some, Bool.and_eq_true, decide_eq_true_eq] at hverifies
    obtain ⟨⟨⟨⟨htag, -⟩, -⟩, -⟩, hname, -⟩ := hverifies
    rw [hname, htag, removePrefix_v] at hx
    exact ⟨x, hx, y, hy, not_le.mp hnewer⟩

theorem applied_newer {checks : Checks} {manifest : Manifest} {installed : String}
    {revision : Option String} {python : ℕ × ℕ}
    (h : applies decimal checks manifest installed revision python = some true) :
    Newer decimal manifest.version installed := by
  simp only [applies, checkCompatibility, Option.bind_eq_bind, Option.bind_eq_some_iff] at h
  obtain ⟨-, -, h⟩ := h
  split at h
  · cases h
  · simp only [Option.bind_eq_some_iff, Option.guard_eq_some'] at h
    obtain ⟨-, ⟨y, hy, x, hx, -, hnewer, -⟩, -⟩ := h
    exact ⟨x, hx, y, hy, not_le.mp hnewer⟩

/-- Versions are ordered by precedence, and no release that is not newer is chosen or installed. -/
theorem versions_ordered (decimal : Decimal) : Ordered decimal where
  refl s hs := by
    obtain ⟨x, hx⟩ := Option.isSome_iff_exists.mp hs
    exact ⟨x, hx, x, hx, le_refl x⟩
  trans s t u hst htu := by
    obtain ⟨x, hx, y, hy, hxy⟩ := hst
    obtain ⟨y', hy', z, hz, hyz⟩ := htu
    obtain rfl := Option.some.inj (hy.symm.trans hy')
    exact ⟨x, hx, z, hz, hxy.trans hyz⟩
  total s t hs ht := by
    obtain ⟨x, hx⟩ := Option.isSome_iff_exists.mp hs
    obtain ⟨y, hy⟩ := Option.isSome_iff_exists.mp ht
    exact (le_total x y).imp (fun h => ⟨x, hx, y, hy, h⟩) fun h => ⟨y, hy, x, hx, h⟩
  precedence s t v w hv hw := by
    rw [← tuple_lt_iff]
    simp [Newer, versionTuple, hv, hw]
  discovered _ _ _ _ _ _ := discovered_newer
  applied _ _ _ _ _ := applied_newer

end Pandamonium.ReleaseVersions
