import Mathlib.Tactic.Common
import Mathlib.Tactic.Lemma
import Signpost.Json.Lexeme

/-!
Lexemes of JSON as they are written and read. What is written for a lexeme is read as this lexeme,
whatever follows; only half a surrogate pair cannot be written.
-/

namespace Signpost.Json

/-! ### Texts -/

lemma hexValue?_hexDigit : ∀ n < 16, Percent.hexValue? (hexDigit n) = some n := by decide

lemma readUnits_control {c : Char} (h : c.toNat < 0x20) (s : List Char) :
    readUnits
        ('\\' :: 'u' :: '0' :: '0' :: hexDigit (c.toNat / 16) :: hexDigit (c.toNat % 16) :: s) =
      (readUnits s).map fun (units, rest) => (c.toNat :: units, rest) := by
  have hzero : Percent.hexValue? '0' = some 0 := by decide
  have hnumber : hexNumber? '0' '0' (hexDigit (c.toNat / 16)) (hexDigit (c.toNat % 16)) =
      some c.toNat := by
    rw [hexNumber?, hzero, hexValue?_hexDigit _ (by omega), hexValue?_hexDigit _ (by omega)]
    simp only [Option.some.injEq]
    omega
  rw [readUnits, hnumber]

lemma readUnits_escapeChar (c : Char) (s : List Char) :
    readUnits (escapeChar c ++ s) =
      (readUnits s).map fun (units, rest) => (c.toNat :: units, rest) := by
  unfold escapeChar
  split_ifs with hquote hbackslash hb hf hn hr ht hcontrol
  · subst hquote; rfl
  · subst hbackslash; rfl
  · subst hb; rfl
  · subst hf; rfl
  · subst hn; rfl
  · subst hr; rfl
  · subst ht; rfl
  · exact readUnits_control hcontrol s
  · have hplain : (decide (c.toNat < 0x20) || c == '\\') = false := by simp [hcontrol, hbackslash]
    rw [List.singleton_append, readUnits.eq_5 c s hquote (fun _ _ _ _ _ he _ => hbackslash he)
      fun _ _ he _ => hbackslash he, hplain]
    rfl

lemma readUnits_escape (s rest : List Char) :
    readUnits (escape s ++ '"' :: rest) = some (s.map Char.toNat, rest) := by
  induction s with
  | nil => rfl
  | cons c s ih =>
    have hcons : escape (c :: s) = escapeChar c ++ escape s := rfl
    rw [hcons, List.append_assoc, readUnits_escapeChar, ih]
    rfl

lemma charsOfUnits?_toNat (s : List Char) : charsOfUnits? (s.map Char.toNat) = some s := by
  induction s with
  | nil => rfl
  | cons c s ih =>
    have hvalid : c.toNat.isValidChar := c.valid
    cases s with
    | nil => rw [List.map_singleton, charsOfUnits?, if_pos hvalid, Char.ofNat_toNat]
    | cons d s =>
      rw [List.map_cons, List.map_cons, charsOfUnits?, if_pos hvalid, ← List.map_cons, ih,
        Char.ofNat_toNat]
      rfl

lemma readText_escape (s : String) (rest : List Char) :
    readText (escape s.toList ++ '"' :: rest) = some (.text (some s), rest) := by
  simp only [readText, readUnits_escape, Option.map_some, charsOfUnits?_toNat,
    String.ofList_toList]

/-! ### Lexemes -/

lemma lexemes?_of_readLexeme {c : Char} {s rest : List Char} {x : Lexeme}
    (hc : isBlank c = false) (h : readLexeme c s = some (x, rest)) :
    lexemes? (c :: s) = (lexemes? rest).map (x :: ·) := by
  rw [lexemes?, if_neg (by simp [hc])]
  split
  · rename_i hnone
    rw [h] at hnone
    cases hnone
  · rename_i y rest' hsome
    rw [h] at hsome
    cases hsome
    rfl

lemma lexemes?_written {x : Lexeme} (hx : x ≠ .text none) (s : List Char) :
    lexemes? (x.written ++ s) = (lexemes? s).map (x :: ·) := by
  cases x with
  | text value =>
    cases value with
    | none => exact absurd rfl hx
    | some value =>
      have hquote : (Lexeme.text (some value)).written ++ s =
          '"' :: (escape value.toList ++ '"' :: s) := by
        simp [Lexeme.written, quote]
      rw [hquote]
      exact lexemes?_of_readLexeme (by decide) (readText_escape value s)
  | openMapping => exact lexemes?_of_readLexeme (by decide) rfl
  | closeMapping => exact lexemes?_of_readLexeme (by decide) rfl
  | openSequence => exact lexemes?_of_readLexeme (by decide) rfl
  | closeSequence => exact lexemes?_of_readLexeme (by decide) rfl
  | comma => exact lexemes?_of_readLexeme (by decide) rfl
  | colon => exact lexemes?_of_readLexeme (by decide) rfl
  | other => exact lexemes?_of_readLexeme (by decide) rfl

/-- **Lexemes written one after the other** are read again. -/
theorem lexemes?_flatMap_written {xs : List Lexeme} (h : .text none ∉ xs) :
    lexemes? (xs.flatMap Lexeme.written) = some xs := by
  induction xs with
  | nil => rw [List.flatMap_nil, lexemes?]
  | cons x xs ih =>
    rw [List.mem_cons, not_or] at h
    rw [List.flatMap_cons, lexemes?_written (Ne.symm h.1), ih h.2, Option.map_some]

end Signpost.Json
