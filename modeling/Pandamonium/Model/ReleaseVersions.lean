import Mathlib.Data.Char
import Mathlib.Data.List.Lex
import Mathlib.Data.Prod.Lex
import Mathlib.Data.Sum.Order
import Pandamonium.Model.Value

/-!
# Versions of releases

`version_tuple` of `src/release_updater.py` and the two places that choose a release by it,
`discover_release` and `UpdateExecutor.apply`.  What else is checked of a manifest (its schema,
contracts and signature) is a parameter; it can only refuse more.
-/

set_option autoImplicit false

namespace Pandamonium.ReleaseVersions

/-- Tuples compare by their first difference; numbers come before texts. -/
abbrev VersionTuple := ℕ ×ₗ ℕ ×ₗ ℕ ×ₗ ℕ ×ₗ List (ℕ ⊕ₗ List Char)

/-- The parts of a version that `_VERSION_RE` captures. -/
structure Version where
  major : ℕ
  minor : ℕ
  patch : ℕ
  /-- The identifiers of the prerelease, which is split at its dots. -/
  prerelease : Option (List (List Char))
  deriving DecidableEq, Repr

/-- The value of a decimal digit, also outside of ASCII. -/
abbrev Decimal := Char → Option ℕ

/-- `\d+` at the front of a text and `int` of it, which takes no more than 4300 digits. -/
def takeNumber (decimal : Decimal) (cs : List Char) : Option (ℕ × List Char) :=
  let digits := cs.takeWhile fun x => (decimal x).isSome
  if digits = [] ∨ 4300 < digits.length then none
  else
    some (digits.foldl (fun n x => 10 * n + (decimal x).getD 0) 0,
      cs.dropWhile fun x => (decimal x).isSome)

/-- `part.isdigit()`, of ASCII characters. -/
def isNumeric (part : List Char) : Bool := part.all Char.isDigit

/-- `[0-9A-Za-z-]` -/
def isIdentifierChar (x : Char) : Bool := x.isAlphanum || x == '-'

def isIdentifier (part : List Char) : Bool :=
  !part.isEmpty && part.all isIdentifierChar && !(isNumeric part && decide (4300 < part.length))

/-- `_VERSION_RE.fullmatch(value.strip())` -/
def parseVersion (decimal : Decimal) (value : String) : Option Version := do
  let cs := stripChars value.toList
  let cs := if cs.head? = some 'v' then cs.tail else cs
  let (major, cs) ← takeNumber decimal cs
  guard (cs.head? = some '.')
  let (minor, cs) ← takeNumber decimal cs.tail
  guard (cs.head? = some '.')
  let (patch, cs) ← takeNumber decimal cs.tail
  if cs = [] then some ⟨major, minor, patch, none⟩
  else
    guard (cs.head? = some '-' ∧ (cs.tail.splitOn '.').all isIdentifier)
    some ⟨major, minor, patch, some (cs.tail.splitOn '.')⟩

/-- `int(part)`, of ASCII digits. -/
def numberOf (part : List Char) : ℕ := part.foldl (fun n x => 10 * n + (x.toNat - 48)) 0

/-- `(0, int(part)) if part.isdigit() else (1, part.lower())` -/
def identifierKey (part : List Char) : ℕ ⊕ₗ List Char :=
  if isNumeric part then toLex (.inl (numberOf part)) else toLex (.inr (part.map Char.toLower))

def Version.tuple (v : Version) : VersionTuple :=
  toLex (v.major, toLex (v.minor, toLex (v.patch, toLex (if v.prerelease.isNone then 1 else 0,
    (v.prerelease.getD []).map identifierKey))))

/-- `version_tuple`, none where it raises. -/
def versionTuple (decimal : Decimal) (value : String) : Option VersionTuple :=
  (parseVersion decimal value).map Version.tuple

/-! ## Choosing a release -/

structure Manifest where
  version : String
  tag : String
  commit : String
  minimumVersion : String
  minimumPython : ℕ × ℕ

structure Release where
  tagName : String
  prerelease : Bool
  draft : Bool
  /-- What its manifest asset holds, none where there is none. -/
  manifest : Option Manifest

/-- The other checks of a manifest, and of the release it is bound to. -/
abbrev Checks := Manifest → Option Release → Bool

inductive Discovery
  | current (version : String)
  | candidate (manifest : Manifest)

variable (decimal : Decimal) (checks : Checks)

/-- `verify_release_manifest` -/
def verifies (manifest : Manifest) (release : Option Release) : Bool :=
  decide (manifest.tag = "v" ++ manifest.version) &&
    (versionTuple decimal manifest.version).isSome &&
    (versionTuple decimal manifest.minimumVersion).isSome && checks manifest release &&
    release.all fun r => decide (r.tagName = manifest.tag) && !r.draft

/-- `tag.removeprefix("v")` -/
def removePrefix (tag : String) : String :=
  match tag.toList with
  | 'v' :: cs => String.ofList cs
  | _ => tag

/-- The release of the channel: the latest one, or the first prerelease that is no draft. -/
def channelRelease (stable : Bool) (latest : Option Release) (releases : List Release) :
    Option Release :=
  if stable then latest else releases.find? fun r => r.prerelease && !r.draft

/-- `discover_release`, with the answers of GitHub; none where it raises. -/
def discoverRelease (appVersion : String) (stable : Bool) (latest : Option Release)
    (releases : List Release) : Option Discovery := do
  let release ← channelRelease stable latest releases
  let latest ← versionTuple decimal (removePrefix release.tagName)
  let current ← versionTuple decimal appVersion
  if latest ≤ current then some (.current (removePrefix release.tagName))
  else
    let manifest ← release.manifest
    guard (verifies decimal checks manifest (some release))
    some (.candidate manifest)

/-- `_check_compatibility` -/
def checkCompatibility (manifest : Manifest) (installed : String) (python : ℕ × ℕ) : Option Unit := do
  let current ← versionTuple decimal installed
  let version ← versionTuple decimal manifest.version
  guard (¬ version ≤ current)
  let minimum ← versionTuple decimal manifest.minimumVersion
  guard (¬ current < minimum)
  guard (¬ toLex python < toLex manifest.minimumPython)

/-- `apply` up to the download: whether the release goes on to be installed, none where it raises. -/
def applies (manifest : Manifest) (installed : String) (revision : Option String)
    (python : ℕ × ℕ) : Option Bool := do
  guard (verifies decimal checks manifest none)
  if revision = some manifest.commit then some false
  else
    checkCompatibility decimal manifest installed python
    some true

end Pandamonium.ReleaseVersions
