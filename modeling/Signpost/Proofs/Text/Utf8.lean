import Mathlib.Tactic.Common
import Signpost.Text.Utf8

/-!
Reading UTF-8 back. The bytes of a character are read as that character, whatever bytes follow.
-/

namespace Signpost.Utf8

lemma takeTail_append {low high b : UInt8} (hb : low ≤ b ∧ b ≤ high) {tail : List UInt8}
    (ht : ∀ x ∈ tail, 0x80 ≤ x ∧ x ≤ 0xBF) (rest : List UInt8) :
    takeTail (tail.length + 1) low high (b :: tail ++ rest) = b :: tail := by
  induction tail generalizing low high b with
  | nil => simp [takeTail, hb]
  | cons x tail ih =>
    have hx := ht x List.mem_cons_self
    have := ih hx fun y hy => ht y (List.mem_cons_of_mem x hy)
    rw [List.length_cons, List.cons_append, takeTail, if_pos hb, this]

lemma decodeLossy_of_tail {lead low high b : UInt8} {t : List UInt8} (hlead : 0x80 ≤ lead)
    (h : tailAfter? lead = some (t.length + 1, low, high)) (hb : low ≤ b ∧ b ≤ high)
    (ht : ∀ x ∈ t, 0x80 ≤ x ∧ x ≤ 0xBF) (rest : List UInt8) :
    decodeLossy (lead :: b :: t ++ rest) =
      Char.ofNat (assemble lead (b :: t)) :: decodeLossy rest := by
  have htake := takeTail_append hb ht rest
  rw [List.cons_append, decodeLossy, if_neg (UInt8.not_lt.mpr hlead), h]
  simp only [htake, List.length_cons, if_true]
  simp

/-! ### The bytes of a character -/

def tailByte (n : Nat) : UInt8 := UInt8.ofNat (n % 64 + 0x80)

lemma toNat_tailByte (n : Nat) : (tailByte n).toNat = n % 64 + 0x80 := by
  rw [tailByte, UInt8.toNat_ofNat']
  omega

lemma tailByte_bounds (n : Nat) : 0x80 ≤ tailByte n ∧ tailByte n ≤ 0xBF := by
  rw [UInt8.le_iff_toNat_le, UInt8.le_iff_toNat_le, toNat_tailByte]
  simp only [UInt8.reduceToNat]
  omega

section Lengths

variable {v : Nat} (rest : List UInt8)

lemma decodeLossy_one (h : v ≤ 0x7F) :
    decodeLossy (UInt8.ofNat v :: rest) = Char.ofNat v :: decodeLossy rest := by
  have hv : (UInt8.ofNat v).toNat = v := by
    rw [UInt8.toNat_ofNat']
    omega
  have hlt : UInt8.ofNat v < 0x80 := by
    rw [UInt8.lt_iff_toNat_lt, hv]
    simp only [UInt8.reduceToNat]
    omega
  rw [decodeLossy, if_pos hlt, hv]

lemma decodeLossy_two (h₁ : ¬ v ≤ 0x7F) (h₂ : v ≤ 0x7FF) :
    decodeLossy (UInt8.ofNat (v / 64 % 0x20 + 0xC0) :: tailByte v :: rest) =
      Char.ofNat v :: decodeLossy rest := by
  have hlead : ∀ n < 0x20, 2 ≤ n → 0x80 ≤ UInt8.ofNat (n + 0xC0) ∧
      tailAfter? (UInt8.ofNat (n + 0xC0)) = some (1, 0x80, 0xBF) := by
    decide
  obtain ⟨hlow, htail⟩ := hlead (v / 64 % 0x20) (by omega) (by omega)
  have hv : assemble (UInt8.ofNat (v / 64 % 0x20 + 0xC0)) [tailByte v] = v := by
    simp [assemble, toNat_tailByte]
    omega
  have h := decodeLossy_of_tail (t := []) hlow htail (tailByte_bounds v) (by simp) rest
  rwa [hv] at h

/-- Overlong forms and surrogates are excluded, so the first byte of the tail is within bounds. -/
lemma decodeLossy_three (h₂ : ¬ v ≤ 0x7FF) (h₃ : v ≤ 0xFFFF) (hv : v < 0xD800 ∨ 0xDFFF < v) :
    decodeLossy (UInt8.ofNat (v / 4096 % 0x10 + 0xE0) :: tailByte (v / 64) :: tailByte v :: rest) =
      Char.ofNat v :: decodeLossy rest := by
  have hlead : ∀ n < 0x10, 0x80 ≤ UInt8.ofNat (n + 0xE0) ∧
      tailAfter? (UInt8.ofNat (n + 0xE0)) =
        some (2, if n = 0 then 0xA0 else 0x80, if n = 0xD then 0x9F else 0xBF) := by
    decide
  obtain ⟨hlow, htail⟩ := hlead (v / 4096 % 0x10) (by omega)
  have hb : (if v / 4096 % 0x10 = 0 then 0xA0 else 0x80) ≤ tailByte (v / 64) ∧
      tailByte (v / 64) ≤ if v / 4096 % 0x10 = 0xD then 0x9F else 0xBF := by
    rw [UInt8.le_iff_toNat_le, UInt8.le_iff_toNat_le, toNat_tailByte]
    split <;> split <;> simp only [UInt8.reduceToNat] <;> omega
  have hall : assemble (UInt8.ofNat (v / 4096 % 0x10 + 0xE0)) [tailByte (v / 64), tailByte v] =
      v := by
    simp [assemble, toNat_tailByte]
    omega
  have h := decodeLossy_of_tail (t := [tailByte v]) hlow htail hb
    (by simpa using tailByte_bounds v) rest
  rwa [hall] at h

lemma decodeLossy_four (h₃ : ¬ v ≤ 0xFFFF) (hv : v < 0x110000) :
    decodeLossy (UInt8.ofNat (v / 262144 % 8 + 0xF0) :: tailByte (v / 4096) ::
      tailByte (v / 64) :: tailByte v :: rest) = Char.ofNat v :: decodeLossy rest := by
  have hlead : ∀ n < 5, 0x80 ≤ UInt8.ofNat (n + 0xF0) ∧
      tailAfter? (UInt8.ofNat (n + 0xF0)) =
        some (3, if n = 0 then 0x90 else 0x80, if n = 4 then 0x8F else 0xBF) := by
    decide
  obtain ⟨hlow, htail⟩ := hlead (v / 262144 % 8) (by omega)
  have hb : (if v / 262144 % 8 = 0 then 0x90 else 0x80) ≤ tailByte (v / 4096) ∧
      tailByte (v / 4096) ≤ if v / 262144 % 8 = 4 then 0x8F else 0xBF := by
    rw [UInt8.le_iff_toNat_le, UInt8.le_iff_toNat_le, toNat_tailByte]
    split <;> split <;> simp only [UInt8.reduceToNat] <;> omega
  have hall : assemble (UInt8.ofNat (v / 262144 % 8 + 0xF0))
      [tailByte (v / 4096), tailByte (v / 64), tailByte v] = v := by
    simp [assemble, toNat_tailByte]
    omega
  have h := decodeLossy_of_tail (t := [tailByte (v / 64), tailByte v]) hlow htail hb
    (by simpa using ⟨tailByte_bounds (v / 64), tailByte_bounds v⟩) rest
  rwa [hall] at h

end Lengths

/-- **Reading back** the bytes of a character, whatever follows. -/
theorem decodeLossy_utf8EncodeChar (c : Char) (rest : List UInt8) :
    decodeLossy (String.utf8EncodeChar c ++ rest) = c :: decodeLossy rest := by
  have hvalid : c.toNat < 0xD800 ∨ 0xDFFF < c.toNat ∧ c.toNat < 0x110000 := c.valid
  have hbytes : String.utf8EncodeChar c =
      if c.toNat ≤ 0x7F then [UInt8.ofNat c.toNat]
      else if c.toNat ≤ 0x7FF then
        [UInt8.ofNat (c.toNat / 64 % 0x20 + 0xC0), tailByte c.toNat]
      else if c.toNat ≤ 0xFFFF then
        [UInt8.ofNat (c.toNat / 4096 % 0x10 + 0xE0), tailByte (c.toNat / 64), tailByte c.toNat]
      else
        [UInt8.ofNat (c.toNat / 262144 % 8 + 0xF0), tailByte (c.toNat / 4096),
          tailByte (c.toNat / 64), tailByte c.toNat] := rfl
  have hread : decodeLossy (String.utf8EncodeChar c ++ rest) =
      Char.ofNat c.toNat :: decodeLossy rest := by
    rw [hbytes]
    by_cases h₁ : c.toNat ≤ 0x7F
    · rw [if_pos h₁]
      exact decodeLossy_one rest h₁
    rw [if_neg h₁]
    by_cases h₂ : c.toNat ≤ 0x7FF
    · rw [if_pos h₂]
      exact decodeLossy_two rest h₁ h₂
    rw [if_neg h₂]
    by_cases h₃ : c.toNat ≤ 0xFFFF
    · rw [if_pos h₃]
      exact decodeLossy_three rest h₂ h₃ (by omega)
    · rw [if_neg h₃]
      exact decodeLossy_four rest h₃ (by omega)
  rw [hread, Char.ofNat_toNat]

/-- A text is read back from its bytes. -/
theorem decodeLossy_encode (s : List Char) : decodeLossy (encode s) = s := by
  induction s with
  | nil => rw [encode, List.flatMap_nil, decodeLossy]
  | cons c s ih =>
    have hcons : encode (c :: s) = String.utf8EncodeChar c ++ encode s := rfl
    rw [hcons, decodeLossy_utf8EncodeChar, ih]

lemma decodeLossy_ne_nil {bytes : List UInt8} (h : bytes ≠ []) : decodeLossy bytes ≠ [] := by
  rcases bytes with _ | ⟨lead, bytes⟩
  · exact absurd rfl h
  · rw [decodeLossy]
    split
    · simp
    · split
      · simp
      · simp only
        split <;> simp

end Signpost.Utf8
