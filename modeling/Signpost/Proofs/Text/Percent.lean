import Signpost.Proofs.Text.Spelling
import Signpost.Proofs.Text.Utf8

/-!
Encoded values. Decoding gives a value back from each of its spellings, the encoded value among them,
and the characters that an encoded value can have are known.
-/

namespace Signpost.Percent

lemma toList_encode (value : String) : (encode value).toList = encodeChars value.toList :=
  String.toList_ofList

lemma decode_of_spelled {value written : String} (h : Spelled value.toList written.toList) :
    decode written = value := by
  rw [decode, decodeChars, bytes_of_spelled h, Utf8.decodeLossy_encode, String.ofList_toList]

lemma spelled_encode (value : String) : Spelled value.toList (encode value).toList := by
  rw [toList_encode]
  exact spelled_encodeChars value.toList

/-- **Decoding** gives back what was encoded. -/
theorem decode_encode (value : String) : decode (encode value) = value :=
  decode_of_spelled (spelled_encode value)

lemma bytes_ne_nil {s : List Char} (h : s ≠ []) : bytes s ≠ [] := by
  unfold bytes
  split
  · exact absurd rfl h
  · split <;> simp
  · simp
  · simp [String.utf8EncodeChar_ne_nil]

/-- A value that is not empty is not decoded to nothing, however broken its escapes are. -/
lemma decode_ne_empty {value : String} (h : value ≠ "") : decode value ≠ "" := by
  have hbytes : bytes value.toList ≠ [] := bytes_ne_nil (by simpa using h)
  have hchars := Utf8.decodeLossy_ne_nil hbytes
  rw [decode, decodeChars]
  intro he
  exact hchars (by simpa using congrArg String.toList he)

/-! ### Encoded characters -/

lemma mem_encodeChars {c : Char} {s : List Char} (h : c ∈ encodeChars s) :
    (c ∈ s ∧ isUnreserved c = true) ∨ c = '%' ∨ ∃ n < 16, c = hexDigit n := by
  obtain ⟨d, hd, hc⟩ := List.mem_flatMap.mp h
  unfold encodeChar at hc
  split at hc
  · rename_i hu
    rw [List.mem_singleton] at hc
    subst hc
    exact .inl ⟨hd, hu⟩
  · obtain ⟨b, -, hb⟩ := List.mem_flatMap.mp hc
    have hlt : b.toNat < 256 := b.toNat_lt
    simp only [escapeByte, List.mem_cons, List.not_mem_nil, or_false] at hb
    rcases hb with rfl | rfl | rfl
    · exact .inr (.inl rfl)
    · exact .inr (.inr ⟨_, by omega, rfl⟩)
    · exact .inr (.inr ⟨_, by omega, rfl⟩)

lemma not_mem_encodeChars {c : Char} (h : isUnreserved c = false) (hc : c ≠ '%')
    (s : List Char) : c ∉ encodeChars s := by
  have hdigits : ∀ n < 16, isUnreserved (hexDigit n) = true := by decide
  intro hm
  rcases mem_encodeChars hm with ⟨-, hu⟩ | rfl | ⟨n, hn, rfl⟩
  · rw [h] at hu
    cases hu
  · exact hc rfl
  · rw [hdigits n hn] at h
    cases h

lemma encodeChars_eq_self {s : List Char} (h : ∀ c ∈ s, isUnreserved c = true) :
    encodeChars s = s := by
  induction s with
  | nil => rfl
  | cons c s ih =>
    have hcons : encodeChars (c :: s) = encodeChar c ++ encodeChars s := rfl
    rw [hcons, encodeChar, if_pos (h c List.mem_cons_self),
      ih fun d hd => h d (List.mem_cons_of_mem c hd), List.singleton_append]

lemma decode_eq_self {value : String} (h : value.toList.all isUnreserved = true) :
    decode value = value := by
  have hencode : encode value = value := by
    rw [encode, encodeChars_eq_self (List.all_eq_true.mp h), String.ofList_toList]
  calc decode value = decode (encode value) := by rw [hencode]
    _ = value := decode_encode value

lemma encodeChars_ne_nil {s : List Char} (h : s ≠ []) : encodeChars s ≠ [] := by
  intro he
  have := bytes_of_spelled (spelled_encodeChars s)
  rw [he] at this
  have hs := Utf8.decodeLossy_encode s
  rw [← this, bytes, Utf8.decodeLossy] at hs
  exact h hs.symm

/-! ### The codec -/

/-- **The URL codec.** An encoded value is made of unreserved characters and percent signs, and
decoding gives it back. More than that, decoding gives a value back from every spelling that it can
have in a URL, in whatever way plain and escaped characters are mixed. -/
theorem decode_inverts_spellings :
    (∀ value, decode (encode value) = value ∧
      ∀ c ∈ (encode value).toList, isUnreserved c = true ∨ c = '%') ∧
    ∀ value written : String, Spelled value.toList written.toList → decode written = value := by
  refine ⟨fun value => ⟨decode_encode value, fun c hc => ?_⟩, fun value written h => ?_⟩
  · by_contra hother
    rw [not_or, Bool.not_eq_true] at hother
    rw [toList_encode] at hc
    exact not_mem_encodeChars hother.1 hother.2 value.toList hc
  · exact decode_of_spelled h

/-- Escapes with digits of both cases stand next to plain characters that look like digits. -/
theorem decode_inverts_spellings_mixed :
    Spelled "%41 ü+".toList "%2541+%c3%BC%2b".toList ∧ decode "%2541+%c3%BC%2b" = "%41 ü+" := by
  have hpercent : Escaped (String.utf8EncodeChar '%') "%25".toList :=
    .cons (by decide) (by decide) .nil
  have humlaut : Escaped (String.utf8EncodeChar 'ü') "%c3%BC".toList :=
    .cons (by decide) (by decide) (.cons (by decide) (by decide) .nil)
  have hplus : Escaped (String.utf8EncodeChar '+') "%2b".toList :=
    .cons (by decide) (by decide) .nil
  have hspelled : Spelled "%41 ü+".toList "%2541+%c3%BC%2b".toList :=
    .escaped hpercent (.itself (by decide) (by decide) (.itself (by decide) (by decide)
      (.plus (.escaped humlaut (.escaped hplus .nil)))))
  exact ⟨hspelled, decode_inverts_spellings.2 _ _ hspelled⟩

end Signpost.Percent
