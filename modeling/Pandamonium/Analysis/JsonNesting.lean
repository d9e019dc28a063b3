import Mathlib.Data.List.TakeDrop
import Mathlib.Data.List.TakeWhile
import Pandamonium.Model.BoundedJson

/-!
# The depth that the scanner finds

The scanner runs beside the reader.  What a reader takes outside strings leaves the scan where it was,
but for the maximum, which is then at least the depth of the value that was read.
-/

set_option autoImplicit false

namespace Pandamonium.BoundedJson

open Pandamonium.Json (isBlank skipBlanks hexDigit readUnit dropPrefix? simpleEscape readSign readRun
  readDigits readFraction readExponent readLexeme)
open Pandamonium.ExternalAgent (Failure maxCollection maxDepth maxString)

mutual

/-- How deep lists and objects are nested. -/
def Tree.depth : Tree → ℕ
  | .list items => depthOfList items + 1
  | .object pairs => depthOfPairs pairs + 1
  | _ => 0

def depthOfList : List Tree → ℕ
  | [] => 0
  | item :: items => max item.depth (depthOfList items)

def depthOfPairs : List (List ℕ × Tree) → ℕ
  | [] => 0
  | (_, item) :: pairs => max item.depth (depthOfPairs pairs)

end

/-- A tree within the bounds, on so many levels. -/
inductive Bounded : ℕ → Tree → Prop
  | null (n : ℕ) : Bounded (n + 1) .null
  | bool (n : ℕ) (b : Bool) : Bounded (n + 1) (.bool b)
  | number (n : ℕ) (whole part : List Char) : Bounded (n + 1) (.number whole part)
  | str (n : ℕ) (codes : List ℕ) (h : codes.length ≤ maxString) : Bounded (n + 1) (.str codes)
  | list (n : ℕ) (items : List Tree) (hlen : items.length ≤ maxCollection)
    (h : ∀ item ∈ items, Bounded n item) : Bounded (n + 1) (.list items)
  | object (n : ℕ) (pairs : List (List ℕ × Tree)) (hlen : pairs.length ≤ maxCollection)
    (hkey : ∀ e ∈ pairs, 0 < e.1.length ∧ e.1.length ≤ 100) (h : ∀ e ∈ pairs, Bounded n e.2) :
    Bounded (n + 1) (.object pairs)

/-- What holds of the depth and the bounds of bytes. -/
structure Measured (loadsOther : ByteArray → Option Tree) (raw : ByteArray) : Prop where
  depth : ∀ (text : String) (tree : Tree), raw = text.toByteArray → parse text.toList = some tree →
    jsonDepth raw = some tree.depth
  size : ∀ payload, boundedJson loadsOther raw = .ok payload → raw.size ≤ maxWireBytes
  bounded : ∀ payload, boundedJson loadsOther raw = .ok payload → Bounded (maxDepth + 1) payload
  nesting : ∀ payload, boundedJson loadsOther raw = .ok payload → utf8Text raw ≠ none →
    payload.depth ≤ maxDepth

/-! ## Bytes and characters -/

def isPlain (x : Char) : Bool := decide (x ∉ ['"', '\\', '[', ']', '\x7b', '\x7d'])

/-- A scan of characters. -/
def scanText (s : Scan) (cs : List Char) : Option Scan := cs.foldlM scanByte s

theorem scanText_cons (s : Scan) (x : Char) (cs : List Char) :
    scanText s (x :: cs) = (scanByte s x).bind fun s' => scanText s' cs :=
  List.foldlM_cons ..

/-- The scan behind a character that means nothing to it. -/
def passed (s : Scan) : Scan := if s.quoted then { s with escaped := false } else s

theorem passed_passed (s : Scan) : passed (passed s) = passed s := by
  unfold passed
  split_ifs <;> simp_all

theorem scanByte_plain (s : Scan) {x : Char} (hx : isPlain x = true) :
    scanByte s x = some (passed s) := by
  simp only [isPlain, List.mem_cons, List.not_mem_nil, or_false, not_or, decide_eq_true_eq] at hx
  obtain ⟨hquote, hslash, hopen, hclose, hbrace, hend⟩ := hx
  unfold scanByte passed
  simp only [hquote, hslash, hopen, hclose, hbrace, hend, or_self, if_false]
  split_ifs with hquoted hescaped
  · rfl
  · obtain ⟨d, m, q, e⟩ := s
    simp_all
  · rfl

theorem isPlain_of_le {x : Char} (hx : 128 ≤ x.toNat) : isPlain x = true := by
  by_contra h
  simp only [isPlain, decide_eq_true_eq, not_not] at h
  have hall : ['"', '\\', '[', ']', '\x7b', '\x7d'].all (·.toNat < 128) = true := by decide
  exact absurd hx (Nat.not_le.mpr (of_decide_eq_true (List.all_eq_true.mp hall x h)))

/-- The bytes of characters outside ASCII mean nothing to the scan. -/
theorem scanByte_high (s : Scan) {n : ℕ} (h : 128 ≤ n) (h' : n < 256) :
    scanByte s (Char.ofNat (UInt8.ofNat n).toNat) = some (passed s) := by
  have hbyte : ∀ n < 256, 128 ≤ n → 128 ≤ (Char.ofNat n).toNat := by decide +kernel
  refine scanByte_plain s (isPlain_of_le ?_)
  rw [UInt8.toNat_ofNat_of_lt' h']
  exact hbyte n h' h

theorem scanBytes_char (s : Scan) (x : Char) :
    (String.utf8EncodeChar x).foldlM (fun s byte => scanByte s (Char.ofNat byte.toNat)) s =
      scanByte s x := by
  have hlt : x.val.toNat < 0x110000 := by
    have := x.valid
    simp only [UInt32.isValidChar, Nat.isValidChar] at this
    omega
  by_cases hascii : x.val.toNat ≤ 0x7f
  · have hbyte : (UInt8.ofNat x.val.toNat).toNat = x.val.toNat :=
      UInt8.toNat_ofNat_of_lt' (Nat.lt_of_le_of_lt hascii (by decide))
    rw [String.utf8EncodeChar, if_pos hascii, List.foldlM_cons, hbyte,
      show Char.ofNat x.val.toNat = x from Char.ofNat_toNat x]
    cases scanByte s x <;> rfl
  · rw [scanByte_plain s (isPlain_of_le (x := x) (Nat.lt_of_not_le hascii)), String.utf8EncodeChar,
      if_neg hascii]
    split_ifs <;>
      simp only [List.foldlM_cons, List.foldlM_nil, Option.pure_def, Option.bind_eq_bind]
    · rw [scanByte_high s (by omega) (by omega), Option.bind_some,
        scanByte_high _ (by omega) (by omega), Option.bind_some, passed_passed]
    · rw [scanByte_high s (by omega) (by omega), Option.bind_some,
        scanByte_high _ (by omega) (by omega), Option.bind_some,
        scanByte_high _ (by omega) (by omega), Option.bind_some, passed_passed, passed_passed]
    · rw [scanByte_high s (by omega) (by omega), Option.bind_some,
        scanByte_high _ (by omega) (by omega), Option.bind_some,
        scanByte_high _ (by omega) (by omega), Option.bind_some,
        scanByte_high _ (by omega) (by omega), Option.bind_some, passed_passed, passed_passed,
        passed_passed]

theorem scanBytes (s : Scan) (text : String) :
    text.toByteArray.data.toList.foldlM (fun s byte => scanByte s (Char.ofNat byte.toNat)) s =
      scanText s text.toList := by
  have hbytes : text.toByteArray.data.toList = text.toList.flatMap String.utf8EncodeChar := by
    rw [← String.utf8Encode_toList, List.utf8Encode, List.data_toByteArray]
  rw [hbytes]
  induction text.toList generalizing s with
  | nil => rfl
  | cons x cs ih =>
    rw [List.flatMap_cons, List.foldlM_append, scanBytes_char, scanText_cons]
    exact congrArg _ (funext ih)

/-! ## What the readers take -/

/-- Outside strings. -/
abbrev outside (d m : ℕ) : Scan := ⟨d, m, false, false⟩

/-- Inside a string. -/
abbrev inside (d m : ℕ) : Scan := ⟨d, m, true, false⟩

variable {d m : ℕ} {cs rest : List Char}

theorem scanText_plain {x : Char} (hx : isPlain x = true) (cs : List Char) :
    scanText (outside d m) (x :: cs) = scanText (outside d m) cs := by
  rw [scanText_cons, scanByte_plain _ hx]
  rfl

theorem scanText_append {xs : List Char} (hxs : xs.all isPlain = true) (cs : List Char) :
    scanText (outside d m) (xs ++ cs) = scanText (outside d m) cs := by
  induction xs with
  | nil => rfl
  | cons x xs ih =>
    rw [List.all_cons, Bool.and_eq_true] at hxs
    rw [List.cons_append, scanText_plain hxs.1, ih hxs.2]

/-- What remains of a text behind characters that mean nothing. -/
theorem scanText_dropWhile {p : Char → Bool} (hp : ∀ x, p x = true → isPlain x = true)
    (cs : List Char) : scanText (outside d m) (cs.dropWhile p) = scanText (outside d m) cs := by
  have htake : (cs.takeWhile p).all isPlain = true :=
    List.all_eq_true.mpr fun x hx => hp x (List.mem_takeWhile_imp hx)
  rw [← scanText_append htake, List.takeWhile_append_dropWhile]

theorem isPlain_blank (x : Char) (hx : isBlank x = true) : isPlain x = true := by
  simp only [isBlank, Bool.or_eq_true, decide_eq_true_eq] at hx
  obtain ((rfl | rfl) | rfl) | rfl := hx <;> decide

theorem isPlain_digit (x : Char) (hx : x.isDigit = true) : isPlain x = true := by
  by_contra h
  simp only [isPlain, decide_eq_true_eq, not_not] at h
  have hall : ['"', '\\', '[', ']', '\x7b', '\x7d'].all (!·.isDigit) = true := by decide
  exact absurd hx (by simpa using List.all_eq_true.mp hall x h)

theorem scanText_skipBlanks (cs : List Char) :
    scanText (outside d m) (skipBlanks cs) = scanText (outside d m) cs :=
  scanText_dropWhile isPlain_blank cs

theorem scanText_readRun (cs : List Char) :
    scanText (outside d m) (readRun cs).2 = scanText (outside d m) cs := by
  rw [readRun, List.span_eq_takeWhile_dropWhile]
  exact scanText_dropWhile isPlain_digit cs

theorem scanText_readSign {signs : List Char} (hsigns : signs.all isPlain = true) (cs : List Char) :
    scanText (outside d m) (readSign signs cs).2 = scanText (outside d m) cs := by
  cases cs with
  | nil => rfl
  | cons x rest =>
    rw [readSign]
    split_ifs with h
    · exact (scanText_plain (List.all_eq_true.mp hsigns x h) rest).symm
    · rfl

theorem scanText_readDigits (cs : List Char) :
    scanText (outside d m) (readDigits cs).2 = scanText (outside d m) cs := by
  cases cs with
  | nil => rfl
  | cons x rest =>
    rw [readDigits]
    split_ifs with h
    · exact (scanText_plain (h ▸ by decide) rest).symm
    · exact scanText_readRun (x :: rest)

theorem scanText_readFraction (cs : List Char) :
    scanText (outside d m) (readFraction cs).2 = scanText (outside d m) cs := by
  cases cs with
  | nil => rfl
  | cons x rest =>
    rw [readFraction]
    split_ifs with h
    · rw [scanText_plain (h.1 ▸ by decide)]
      exact scanText_readRun rest
    · rfl

theorem scanText_readExponent (cs : List Char) :
    scanText (outside d m) (readExponent cs).2 = scanText (outside d m) cs := by
  cases cs with
  | nil => rfl
  | cons x rest =>
    rw [readExponent]
    split_ifs with h
    · have hx : isPlain x = true :=
        List.all_eq_true.mp (show ['e', 'E'].all isPlain = true by decide) x h.1
      rw [scanText_plain hx, ← scanText_readSign (show ['-', '+'].all isPlain = true by decide) rest]
      exact scanText_readRun _
    · rfl

theorem scanText_readLexeme {whole part : List Char}
    (h : readLexeme cs = some (whole, part, rest)) :
    scanText (outside d m) cs = scanText (outside d m) rest := by
  simp only [readLexeme] at h
  split_ifs at h
  obtain ⟨-, -, rfl⟩ := Prod.mk.injEq .. ▸ Prod.mk.injEq .. ▸ Option.some.inj h
  rw [scanText_readExponent, scanText_readFraction, scanText_readDigits,
    scanText_readSign (by decide)]

theorem eq_append_of_dropPrefix? {xs : List Char} (h : dropPrefix? xs cs = some rest) :
    cs = xs ++ rest := by
  induction xs generalizing cs with
  | nil => exact Option.some.inj h
  | cons x xs ih =>
    cases cs with
    | nil => cases h
    | cons y cs =>
      rw [dropPrefix?] at h
      split_ifs at h with hxy
      rw [hxy, ih h, List.cons_append]

theorem scanText_readName {tree : Tree} (h : readName cs = some (tree, rest)) :
    scanText (outside d m) cs = scanText (outside d m) rest ∧ tree.depth = 0 := by
  obtain ⟨entry, hentry, h⟩ := List.exists_of_findSome?_eq_some h
  obtain ⟨rest', hrest, h⟩ := Option.map_eq_some_iff.mp h
  obtain ⟨rfl, rfl⟩ := Prod.mk.injEq .. ▸ h
  have hnames : ∀ e ∈ names, e.1.all isPlain = true ∧ e.2.depth = 0 := by
    simp only [names, List.forall_mem_cons, Tree.depth]
    decide
  rw [eq_append_of_dropPrefix? hrest, scanText_append (hnames entry hentry).1]
  exact ⟨rfl, (hnames entry hentry).2⟩

/-! ## Strings -/

theorem scanInside {x : Char} (hx : x ≠ '"') (hx' : x ≠ '\\') (cs : List Char) :
    scanText (inside d m) (x :: cs) = scanText (inside d m) cs := by
  rw [scanText_cons]
  simp [scanByte, hx, hx']

/-- Whatever is escaped passes. -/
theorem scanEscape (x : Char) (cs : List Char) :
    scanText (inside d m) ('\\' :: x :: cs) = scanText (inside d m) cs := by
  rw [scanText_cons, show scanByte (inside d m) '\\' = some ⟨d, m, true, true⟩ from rfl,
    Option.bind_some, scanText_cons, show scanByte ⟨d, m, true, true⟩ x = some (inside d m) from rfl,
    Option.bind_some]

theorem scanInside_hexDigit {x : Char} {n : ℕ} (hx : hexDigit x = some n) (cs : List Char) :
    scanText (inside d m) (x :: cs) = scanText (inside d m) cs := by
  refine scanInside ?_ ?_ cs <;>
  · rintro rfl
    cases hx

theorem scanText_readUnit {n : ℕ} (h : readUnit cs = some (n, rest)) :
    scanText (inside d m) cs = scanText (inside d m) rest := by
  obtain - | ⟨x, - | ⟨y, - | ⟨z, - | ⟨w, cs⟩⟩⟩⟩ := cs <;> try cases h
  simp only [readUnit, Option.bind_eq_bind, Option.bind_eq_some_iff, Option.some.injEq,
    Prod.mk.injEq] at h
  obtain ⟨a, hx, b, hy, c, hz, e, hw, -, rfl⟩ := h
  rw [scanInside_hexDigit hx, scanInside_hexDigit hy, scanInside_hexDigit hz,
    scanInside_hexDigit hw]

theorem scanText_readUnits {n : ℕ} (h : readUnits cs = some (n, rest)) :
    scanText (inside d m) cs = scanText (inside d m) rest := by
  simp only [readUnits, Option.bind_eq_bind, Option.bind_eq_some_iff] at h
  obtain ⟨⟨n₁, rest₁⟩, hfirst, h⟩ := h
  rw [scanText_readUnit hfirst]
  cases hsecond : (dropPrefix? ['\\', 'u'] rest₁).bind readUnit with
  | none =>
    simp only [hsecond, Option.some.injEq, Prod.mk.injEq] at h
    rw [h.2]
  | some found =>
    obtain ⟨n₂, rest₂⟩ := found
    simp only [hsecond] at h
    split_ifs at h
    · obtain ⟨rest', hdrop, hunit⟩ := Option.bind_eq_some_iff.mp hsecond
      simp only [Option.some.injEq, Prod.mk.injEq] at h
      obtain ⟨-, rfl⟩ := h
      rw [eq_append_of_dropPrefix? hdrop, ← scanText_readUnit hunit]
      exact scanEscape 'u' rest'
    · simp only [Option.some.injEq, Prod.mk.injEq] at h
      rw [h.2]

theorem scanText_readCode {x : Char} {code : ℕ} (hx : x ≠ '"')
    (h : readCode x cs = some (code, rest)) :
    scanText (inside d m) (x :: cs) = scanText (inside d m) rest := by
  unfold readCode at h
  split_ifs at h with hslash
  · cases cs with
    | nil => cases h
    | cons y cs =>
      rw [hslash, scanEscape]
      simp only at h
      split_ifs at h with hu
      · exact scanText_readUnits h
      · obtain ⟨z, -, h⟩ := Option.map_eq_some_iff.mp h
        rw [(Prod.mk.inj h).2]
  · simp only [Option.some.injEq, Prod.mk.injEq] at h
    rw [← h.2]
    exact scanInside hx hslash cs

theorem scanText_readCodes {fuel : ℕ} {codes : List ℕ} (h : readCodes fuel cs = some (codes, rest)) :
    scanText (inside d m) cs = scanText (outside d m) rest := by
  induction fuel generalizing cs codes with
  | zero => cases h
  | succ fuel ih =>
    cases cs with
    | nil => cases h
    | cons x cs =>
      rw [readCodes] at h
      split_ifs at h with hquote
      · simp only [Option.some.injEq, Prod.mk.injEq] at h
        rw [hquote, ← h.2]
        rfl
      · simp only [Option.bind_eq_bind, Option.bind_eq_some_iff, Option.some.injEq,
          Prod.mk.injEq] at h
        obtain ⟨⟨code, rest₁⟩, hcode, ⟨codes', rest₂⟩, hcodes, -, rfl⟩ := h
        rw [scanText_readCode hquote hcode, ih hcodes]

theorem scanText_quote (cs : List Char) :
    scanText (outside d m) ('"' :: cs) = scanText (inside d m) cs :=
  rfl

/-! ## Values -/

theorem depth_str (codes : List ℕ) : (Tree.str codes).depth = 0 := rfl

theorem depth_number (whole part : List Char) : (Tree.number whole part).depth = 0 := rfl

theorem scanText_open {x : Char} (hx : x = '[' ∨ x = '\x7b') (cs : List Char) :
    scanText (outside d m) (x :: cs) = scanText (outside (d + 1) (max m (d + 1))) cs := by
  obtain rfl | rfl := hx <;> rfl

theorem scanText_close {x : Char} (hx : x = ']' ∨ x = '\x7d') (cs : List Char) :
    scanText (outside (d + 1) m) (x :: cs) = scanText (outside d m) cs := by
  obtain rfl | rfl := hx <;> rfl

/-- The scan goes over a value. -/
def ScansTree (fuel : ℕ) : Prop := ∀ d m cs tree rest, d ≤ m →
  readTree fuel cs = some (tree, rest) →
    scanText (outside d m) cs = scanText (outside d (max m (d + tree.depth))) rest

/-- The scan goes over elements, up to the end of their list. -/
def ScansElements (fuel : ℕ) : Prop := ∀ d m cs items rest, d + 1 ≤ m →
  readElements fuel cs = some (items, rest) →
    scanText (outside (d + 1) m) cs = scanText (outside d (max m (d + 1 + depthOfList items))) rest

/-- The scan goes over members, up to the end of their object. -/
def ScansPairs (fuel : ℕ) : Prop := ∀ d m cs pairs rest, d + 1 ≤ m →
  readPairs fuel cs = some (pairs, rest) →
    scanText (outside (d + 1) m) cs = scanText (outside d (max m (d + 1 + depthOfPairs pairs))) rest

variable {fuel : ℕ}

theorem scansTree_succ (helements : ScansElements fuel) (hpairs : ScansPairs fuel) :
    ScansTree (fuel + 1) := by
  intro d m cs tree rest hdm h
  cases cs with
  | nil => cases h
  | cons x cs =>
    rw [readTree] at h
    split_ifs at h with hquote hlist hobject
    · obtain ⟨⟨codes, rest'⟩, hcodes, h⟩ := Option.map_eq_some_iff.mp h
      obtain ⟨rfl, rfl⟩ := Prod.mk.inj h
      rw [hquote, scanText_quote, scanText_readCodes hcodes, depth_str, Nat.add_zero,
        Nat.max_eq_left hdm]
    · rw [scanText_open (.inl hlist), ← scanText_skipBlanks cs]
      cases hskip : skipBlanks cs with
      | nil => simp [hskip] at h
      | cons y rest' =>
        simp only [hskip] at h
        split_ifs at h with hclose
        · obtain ⟨rfl, rfl⟩ := Prod.mk.inj (Option.some.inj h)
          rw [scanText_close (.inl hclose)]
          rfl
        · obtain ⟨⟨items, rest''⟩, hread, h⟩ := Option.map_eq_some_iff.mp h
          obtain ⟨rfl, rfl⟩ := Prod.mk.inj h
          rw [helements d _ _ _ _ (le_max_right ..) hread, Tree.depth]
          congr 2
          dsimp only
          omega
    · rw [scanText_open (.inr hobject), ← scanText_skipBlanks cs]
      cases hskip : skipBlanks cs with
      | nil => simp [hskip] at h
      | cons y rest' =>
        simp only [hskip] at h
        split_ifs at h with hclose
        · obtain ⟨rfl, rfl⟩ := Prod.mk.inj (Option.some.inj h)
          rw [scanText_close (.inr hclose)]
          rfl
        · obtain ⟨⟨pairs, rest''⟩, hread, h⟩ := Option.map_eq_some_iff.mp h
          obtain ⟨rfl, rfl⟩ := Prod.mk.inj h
          rw [hpairs d _ _ _ _ (le_max_right ..) hread, Tree.depth]
          congr 2
          dsimp only
          omega
    · cases hname : readName (x :: cs) with
      | some found =>
        simp only [hname, Option.some.injEq] at h
        obtain ⟨hscan, hdepth⟩ := scanText_readName (h ▸ hname)
        rw [hscan, hdepth, Nat.add_zero, Nat.max_eq_left hdm]
      | none =>
        simp only [hname] at h
        obtain ⟨⟨whole, part, rest'⟩, hread, h⟩ := Option.map_eq_some_iff.mp h
        obtain ⟨rfl, rfl⟩ := Prod.mk.inj h
        rw [scanText_readLexeme hread, depth_number, Nat.add_zero, Nat.max_eq_left hdm]

theorem scansElements_succ (htree : ScansTree fuel) (helements : ScansElements fuel) :
    ScansElements (fuel + 1) := by
  intro d m cs items rest hdm h
  simp only [readElements, Option.bind_eq_bind, Option.bind_eq_some_iff] at h
  obtain ⟨⟨item, rest₁⟩, hitem, h⟩ := h
  rw [htree _ _ _ _ _ hdm hitem, ← scanText_skipBlanks rest₁]
  cases hskip : skipBlanks rest₁ with
  | nil => simp [hskip] at h
  | cons x rest₂ =>
    simp only [hskip] at h
    split_ifs at h with hclose hcomma
    · obtain ⟨rfl, rfl⟩ := Prod.mk.inj (Option.some.inj h)
      rw [scanText_close (.inl hclose)]
      simp [depthOfList]
    · obtain ⟨⟨items', rest₃⟩, hitems, h⟩ := Option.bind_eq_some_iff.mp h
      obtain ⟨rfl, rfl⟩ := Prod.mk.inj (Option.some.inj h)
      rw [hcomma, scanText_plain (by decide), ← scanText_skipBlanks rest₂,
        helements _ _ _ _ _ (hdm.trans (le_max_left ..)) hitems, depthOfList]
      congr 2
      dsimp only
      omega

theorem scansPairs_succ (htree : ScansTree fuel) (hpairs : ScansPairs fuel) :
    ScansPairs (fuel + 1) := by
  intro d m cs pairs rest hdm h
  simp only [readPairs, Option.bind_eq_bind, Option.bind_eq_some_iff] at h
  obtain ⟨rest₁, hquote, ⟨key, rest₂⟩, hkey, rest₃, hcolon, ⟨item, rest₄⟩, hitem, h⟩ := h
  rw [eq_append_of_dropPrefix? hquote, List.singleton_append, scanText_quote,
    scanText_readCodes hkey, ← scanText_skipBlanks rest₂, eq_append_of_dropPrefix? hcolon,
    List.singleton_append, scanText_plain (by decide), ← scanText_skipBlanks rest₃,
    htree _ _ _ _ _ hdm hitem, ← scanText_skipBlanks rest₄]
  cases hskip : skipBlanks rest₄ with
  | nil => simp [hskip] at h
  | cons x rest₅ =>
    simp only [hskip] at h
    split_ifs at h with hclose hcomma
    · obtain ⟨rfl, rfl⟩ := Prod.mk.inj (Option.some.inj h)
      rw [scanText_close (.inr hclose)]
      simp [depthOfPairs]
    · obtain ⟨⟨pairs', rest₆⟩, hrest, h⟩ := Option.bind_eq_some_iff.mp h
      obtain ⟨rfl, rfl⟩ := Prod.mk.inj (Option.some.inj h)
      rw [hcomma, scanText_plain (by decide), ← scanText_skipBlanks rest₅,
        hpairs _ _ _ _ _ (hdm.trans (le_max_left ..)) hrest, depthOfPairs]
      congr 2
      dsimp only
      omega

theorem scans (fuel : ℕ) : ScansTree fuel ∧ ScansElements fuel ∧ ScansPairs fuel := by
  induction fuel with
  | zero => exact ⟨nofun, nofun, nofun⟩
  | succ fuel ih =>
    obtain ⟨htree, helements, hpairs⟩ := ih
    exact ⟨scansTree_succ helements hpairs, scansElements_succ htree helements,
      scansPairs_succ htree hpairs⟩

/-- The scan of a document ends outside strings and at the depth of its tree. -/
theorem scanText_parse {text : List Char} {tree : Tree} (h : parse text = some tree) :
    scanText (outside 0 0) text = some (outside 0 tree.depth) := by
  rw [parse] at h
  cases hread : readTree (text.length + 1) (skipBlanks text) with
  | none => simp [hread] at h
  | some found =>
    obtain ⟨tree', rest⟩ := found
    simp only [hread] at h
    split_ifs at h with hrest
    obtain rfl := Option.some.inj h
    rw [← scanText_skipBlanks text, (scans _).1 0 0 _ _ _ le_rfl hread, ← scanText_skipBlanks rest,
      hrest, Nat.zero_add, Nat.zero_max]
    rfl

theorem jsonDepth_of_scanText {text : String} {n : ℕ}
    (h : scanText (outside 0 0) text.toList = some (outside 0 n)) :
    jsonDepth text.toByteArray = some n := by
  rw [jsonDepth, scanBytes, h]
  rfl

/-! ## The bounds -/

theorem listIsBounded_iff {depth : ℕ} {items : List Tree} :
    listIsBounded depth items = true ↔ ∀ item ∈ items, item.isBounded depth = true := by
  induction items with
  | nil => simp [listIsBounded]
  | cons item items ih => simp [listIsBounded, ih]

theorem pairsAreBounded_iff {depth : ℕ} {pairs : List (List ℕ × Tree)} :
    pairsAreBounded depth pairs = true ↔
      ∀ e ∈ pairs, (0 < e.1.length ∧ e.1.length ≤ 100) ∧ e.2.isBounded depth = true := by
  induction pairs with
  | nil => simp [pairsAreBounded]
  | cons e pairs ih =>
    obtain ⟨key, item⟩ := e
    simp [pairsAreBounded, ih, and_assoc]

/-- What the checks let through at a depth is within the bounds on the levels that are left. -/
theorem bounded_of_isBounded (n : ℕ) {depth : ℕ} {tree : Tree} (hn : depth + n = maxDepth + 1)
    (h : tree.isBounded depth = true) : Bounded n tree := by
  induction n generalizing depth tree with
  | zero => cases tree <;> simp [Tree.isBounded, show ¬ depth ≤ maxDepth by omega] at h
  | succ n ih =>
    cases tree with
    | null => exact .null n
    | bool b => exact .bool n b
    | number whole part => exact .number n whole part
    | str codes =>
      simp only [Tree.isBounded, Bool.and_eq_true, decide_eq_true_eq] at h
      exact .str n codes h.2
    | list items =>
      simp only [Tree.isBounded, Bool.and_eq_true, decide_eq_true_eq] at h
      exact .list n items h.1.2 fun item hitem =>
        ih (by omega) (listIsBounded_iff.mp h.2 item hitem)
    | object pairs =>
      simp only [Tree.isBounded, Bool.and_eq_true, decide_eq_true_eq] at h
      have hpairs := pairsAreBounded_iff.mp h.2
      exact .object n pairs h.1.2 (fun e he => (hpairs e he).1) fun e he =>
        ih (by omega) (hpairs e he).2

theorem boundedJson_eq_ok {loadsOther : ByteArray → Option Tree} {raw : ByteArray} {payload : Tree}
    (h : boundedJson loadsOther raw = .ok payload) :
    raw.size ≤ maxWireBytes ∧ (∃ n ≤ maxDepth, jsonDepth raw = some n) ∧
      strictJsonLoads loadsOther raw = some payload ∧ payload.isBounded 0 = true := by
  rw [boundedJson] at h
  split_ifs at h with hsize
  cases hdepth : jsonDepth raw with
  | none => simp [hdepth] at h
  | some n =>
    simp only [hdepth] at h
    split_ifs at h with hn
    cases hloads : strictJsonLoads loadsOther raw with
    | none => simp [hloads] at h
    | some payload' =>
      simp only [hloads] at h
      split_ifs at h with hvalid
      obtain rfl := Except.ok.inj h
      exact ⟨Nat.le_of_not_lt hsize, ⟨n, Nat.le_of_not_lt hn, rfl⟩, rfl,
        (Bool.and_eq_true .. ▸ hvalid).2⟩

/-- A byte order mark means nothing to the scan. -/
theorem scanText_utf8Text {raw : ByteArray} {cs : List Char} (h : utf8Text raw = some cs) :
    ∃ text : String, raw = text.toByteArray ∧
      scanText (outside 0 0) text.toList = scanText (outside 0 0) cs := by
  rw [utf8Text] at h
  split_ifs at h
  obtain ⟨text, htext, rfl⟩ := Option.map_eq_some_iff.mp h
  refine ⟨text, ?_, ?_⟩
  · rw [String.fromUTF8?] at htext
    split_ifs at htext
    rw [← Option.some.inj htext]
    rfl
  · cases hmark : dropPrefix? ['\ufeff'] text.toList with
    | none => rfl
    | some rest => exact (eq_append_of_dropPrefix? hmark) ▸ scanText_plain (by decide) rest

end Pandamonium.BoundedJson
