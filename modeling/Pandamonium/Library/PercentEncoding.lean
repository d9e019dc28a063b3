import Mathlib.Data.List.Basic
import Mathlib.Tactic.Cases

/-!
# Percent encoding

Texts in which every character that is not kept stands as its UTF-8 bytes, each of them as `%XX`.
Whatever is kept, as long as it is not `%`, the decoding gives the text back.  Bytes that are not
UTF-8 are decoded to replacement characters, one for each longest part that could still have become
a character.
-/

set_option autoImplicit false

namespace Pandamonium.Library

/-! ## Bytes as text -/

def hexDigits : List Char := "0123456789ABCDEF".toList

/-- `%02X` -/
def hexByte (b : UInt8) : List Char :=
  [hexDigits.getD (b.toNat / 16) '0', hexDigits.getD (b.toNat % 16) '0']

/-- The number that a hexadecimal digit stands for. -/
def hexValue (x : Char) : Option ℕ :=
  if '0' ≤ x ∧ x ≤ '9' then some (x.toNat - 48)
  else if 'A' ≤ x ∧ x ≤ 'F' then some (x.toNat - 55)
  else if 'a' ≤ x ∧ x ≤ 'f' then some (x.toNat - 87)
  else none

def percentEncode (keep : Char → Bool) (cs : List Char) : List Char :=
  cs.flatMap fun x =>
    if keep x then [x] else (String.utf8EncodeChar x).flatMap fun b => '%' :: hexByte b

/-- The bytes of a text, `%XX` taken for one; a `%` that does not begin one stands for itself. -/
def percentBytes : List Char → List UInt8
  | '%' :: a :: b :: rest =>
    match hexValue a, hexValue b with
    | some high, some low => UInt8.ofNat (16 * high + low) :: percentBytes rest
    | _, _ => 0x25 :: percentBytes (a :: b :: rest)
  | x :: rest => String.utf8EncodeChar x ++ percentBytes rest
  | [] => []

/-! ## Bytes that are not UTF-8 -/

def isContinuation (b : UInt8) : Bool := decide (0x80 ≤ b ∧ b ≤ 0xbf)

/-- How many bytes follow a first byte. -/
def followers (lead : UInt8) : ℕ :=
  if 0xc2 ≤ lead ∧ lead ≤ 0xdf then 1
  else if 0xe0 ≤ lead ∧ lead ≤ 0xef then 2
  else if 0xf0 ≤ lead ∧ lead ≤ 0xf4 then 3
  else 0

/-- Whether a byte can be the second one. -/
def follows (lead second : UInt8) : Bool :=
  isContinuation second &&
    (lead != 0xe0 || 0xa0 ≤ second) && (lead != 0xed || second ≤ 0x9f) &&
    (lead != 0xf0 || 0x90 ≤ second) && (lead != 0xf4 || second ≤ 0x8f)

/-- The bytes behind the first one that are part of the same malformed character. -/
def malformedTail (lead : UInt8) (rest : List UInt8) : List UInt8 :=
  match rest.take (followers lead) with
  | second :: more => if follows lead second then second :: more.takeWhile isContinuation else []
  | [] => []

/-- Decoding with replacement characters; the number bounds the steps. -/
def decodeFrom : ℕ → List UInt8 → List Char
  | 0, _ => []
  | _, [] => []
  | n + 1, b :: rest =>
    match (b :: rest).toByteArray.utf8DecodeChar? 0 with
    | some x => x :: decodeFrom n ((b :: rest).drop x.utf8Size)
    | none => '\uFFFD' :: decodeFrom n (rest.drop (malformedTail b rest).length)

def decodeReplacing (bytes : List UInt8) : List Char := decodeFrom bytes.length bytes

def percentDecode (cs : List Char) : List Char := decodeReplacing (percentBytes cs)

/-! ## The round trip -/

theorem hexValue_hexDigits : ∀ n < 16, hexValue (hexDigits.getD n '0') = some n := by decide

theorem percentBytes_hexByte (b : UInt8) (rest : List Char) :
    percentBytes ('%' :: (hexByte b ++ rest)) = b :: percentBytes rest := by
  have hbound := b.toNat_lt
  have hhigh := hexValue_hexDigits (b.toNat / 16) (by omega)
  have hlow := hexValue_hexDigits (b.toNat % 16) (by omega)
  have hsum : 16 * (b.toNat / 16) + b.toNat % 16 = b.toNat := Nat.div_add_mod _ _
  simp only [hexByte, List.cons_append, List.nil_append, percentBytes, hhigh, hlow, hsum,
    UInt8.ofNat_toNat]

theorem percentBytes_hexBytes (bytes : List UInt8) (rest : List Char) :
    percentBytes ((bytes.flatMap fun b => '%' :: hexByte b) ++ rest) =
      bytes ++ percentBytes rest := by
  induction bytes with
  | nil => rfl
  | cons b bytes ih =>
    rw [List.flatMap_cons, List.append_assoc, List.cons_append, percentBytes_hexByte, ih,
      List.cons_append]

theorem percentBytes_cons {x : Char} (hx : x ≠ '%') (rest : List Char) :
    percentBytes (x :: rest) = String.utf8EncodeChar x ++ percentBytes rest := by
  rw [percentBytes]
  intro _ _ _ hpercent
  exact absurd hpercent hx

theorem percentBytes_percentEncode {keep : Char → Bool} (hkeep : keep '%' = false)
    (cs : List Char) :
    percentBytes (percentEncode keep cs) = cs.flatMap String.utf8EncodeChar := by
  induction cs with
  | nil => rfl
  | cons x cs ih =>
    rw [percentEncode, List.flatMap_cons, ← percentEncode, List.flatMap_cons]
    split
    · rename_i hx
      have hne : x ≠ '%' := by
        rintro rfl
        rw [hkeep] at hx
        cases hx
      rw [List.singleton_append, percentBytes_cons hne, ih]
    · rw [percentBytes_hexBytes, ih]

theorem decodeFrom_utf8 (cs : List Char) {n : ℕ} (hn : cs.length ≤ n) :
    decodeFrom n (cs.flatMap String.utf8EncodeChar) = cs := by
  induction cs generalizing n with
  | nil => cases n <;> rfl
  | cons x cs ih =>
    obtain ⟨n, rfl⟩ := Nat.exists_eq_add_of_le' (Nat.le_trans (Nat.succ_le_succ (Nat.zero_le _)) hn)
    have hread : ((String.utf8EncodeChar x ++ cs.flatMap String.utf8EncodeChar).toByteArray
        ).utf8DecodeChar? 0 = some x := by
      rw [List.toByteArray_append]
      exact ByteArray.utf8DecodeChar?_utf8EncodeChar_append
    have hdrop : (String.utf8EncodeChar x ++ cs.flatMap String.utf8EncodeChar).drop x.utf8Size =
        cs.flatMap String.utf8EncodeChar := by
      rw [← String.length_utf8EncodeChar, List.drop_left]
    have hne : String.utf8EncodeChar x ++ cs.flatMap String.utf8EncodeChar ≠ [] := by
      intro hnil
      have hlength := congrArg List.length (List.append_eq_nil_iff.mp hnil).1
      rw [String.length_utf8EncodeChar] at hlength
      exact absurd hlength (Nat.ne_of_gt x.utf8Size_pos)
    rw [List.flatMap_cons]
    obtain ⟨b, rest, hcons⟩ := List.exists_cons_of_ne_nil hne
    rw [hcons] at hread hdrop
    rw [hcons, decodeFrom]
    simp only [hread, hdrop]
    rw [ih (Nat.le_of_succ_le_succ hn)]

theorem length_le_length_utf8 (cs : List Char) :
    cs.length ≤ (cs.flatMap String.utf8EncodeChar).length := by
  induction cs with
  | nil => exact Nat.le_refl 0
  | cons x cs ih =>
    have hpos := x.utf8Size_pos
    rw [List.flatMap_cons, List.length_append, String.length_utf8EncodeChar, List.length_cons]
    omega

theorem percentDecode_percentEncode {keep : Char → Bool} (hkeep : keep '%' = false)
    (cs : List Char) : percentDecode (percentEncode keep cs) = cs := by
  rw [percentDecode, percentBytes_percentEncode hkeep, decodeReplacing]
  exact decodeFrom_utf8 cs (length_le_length_utf8 cs)

example : percentDecode "a%E2%82%C3%A9%2".toList = ['a', '\uFFFD', 'é', '%', '2'] := by
  decide +kernel

end Pandamonium.Library
