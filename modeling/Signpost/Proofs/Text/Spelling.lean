import Mathlib.Tactic.Common
import Mathlib.Tactic.Lemma
import Signpost.Text.Percent
import Signpost.Text.Utf8

/-!
The spellings that a text can have in a URL. A character stands for itself or is spelled by escapes
of its UTF-8 bytes, whose digits may be of either case; a blank may be a plus sign, and percent and
plus signs of the text are always escaped. All spellings of a text stand for the same bytes, and the
encoded text is one of them.
-/

namespace Signpost.Percent

/-- The hexadecimal digits of both cases, each with its value. -/
def hexDigits : List (Char × Nat) :=
  "0123456789ABCDEF".toList.zipIdx ++ "0123456789abcdef".toList.zipIdx

/-- Bytes and what they are escaped as. -/
inductive Escaped : List UInt8 → List Char → Prop
  | nil : Escaped [] []
  | cons {b : UInt8} {bs : List UInt8} {high low : Char} {e : List Char}
    (hhigh : (high, b.toNat / 16) ∈ hexDigits) (hlow : (low, b.toNat % 16) ∈ hexDigits)
    (h : Escaped bs e) : Escaped (b :: bs) ('%' :: high :: low :: e)

/-- A text and one of its spellings. -/
inductive Spelled : List Char → List Char → Prop
  | nil : Spelled [] []
  | itself {c : Char} {s e : List Char} (hpercent : c ≠ '%') (hplus : c ≠ '+')
    (h : Spelled s e) : Spelled (c :: s) (c :: e)
  | plus {s e : List Char} (h : Spelled s e) : Spelled (' ' :: s) ('+' :: e)
  | escaped {c : Char} {s e u : List Char} (hbytes : Escaped (String.utf8EncodeChar c) u)
    (h : Spelled s e) : Spelled (c :: s) (u ++ e)

/-! ### What spellings stand for -/

lemma hexValue?_of_mem : ∀ p ∈ hexDigits, hexValue? p.1 = some p.2 := by decide

lemma bytes_of_escaped {bs : List UInt8} {e : List Char} (h : Escaped bs e) (s : List Char) :
    bytes (e ++ s) = bs ++ bytes s := by
  induction h with
  | nil => rfl
  | @cons b bs high low e hhigh hlow _ ih =>
    have hbyte : UInt8.ofNat (b.toNat / 16 * 16 + b.toNat % 16) = b := by
      rw [Nat.div_add_mod', UInt8.ofNat_toNat]
    simp only [List.cons_append, bytes, hexValue?_of_mem _ hhigh, hexValue?_of_mem _ hlow, hbyte,
      ih]

lemma bytes_cons_of_ne {c : Char} (hpercent : c ≠ '%') (hplus : c ≠ '+') (s : List Char) :
    bytes (c :: s) = String.utf8EncodeChar c ++ bytes s :=
  bytes.eq_4 c s (fun _ _ _ h _ => hpercent h) hplus

/-- Every spelling of a text stands for the bytes of the text. -/
theorem bytes_of_spelled {s e : List Char} (h : Spelled s e) : bytes e = Utf8.encode s := by
  induction h with
  | nil => rfl
  | @itself c s e hpercent hplus _ ih =>
    rw [bytes_cons_of_ne hpercent hplus, ih]
    rfl
  | @plus s e _ ih =>
    rw [bytes, ih]
    rfl
  | @escaped c s e u hbytes _ ih =>
    rw [bytes_of_escaped hbytes, ih]
    rfl

/-! ### The encoded text -/

lemma mem_hexDigits : ∀ n < 16, (hexDigit n, n) ∈ hexDigits := by decide

lemma escaped_flatMap (bs : List UInt8) : Escaped bs (bs.flatMap escapeByte) := by
  induction bs with
  | nil => exact .nil
  | cons b bs ih =>
    have hb : b.toNat < 256 := b.toNat_lt
    exact .cons (mem_hexDigits _ (by omega)) (mem_hexDigits _ (by omega)) ih

/-- What is encoded is a spelling of the text. -/
theorem spelled_encodeChars (s : List Char) : Spelled s (encodeChars s) := by
  induction s with
  | nil => exact .nil
  | cons c s ih =>
    have hcons : encodeChars (c :: s) = encodeChar c ++ encodeChars s := rfl
    rw [hcons, encodeChar]
    split_ifs with h
    · refine .itself ?_ ?_ ih <;> rintro rfl <;> cases h
    · exact .escaped (escaped_flatMap _) ih

end Signpost.Percent
