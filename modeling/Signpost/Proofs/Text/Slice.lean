import Mathlib.Data.List.Basic
import Mathlib.Data.List.TakeWhile
import Mathlib.Tactic.Lemma
import Signpost.Text.Slice

/-!
Cutting, splitting, trimming and replacing: where a separator is found, which parts a text has,
which texts have no outer slashes, and what becomes of a text in which a word is replaced. Texts up
to the case of ASCII letters: equality in upper case and in lower case are the same.
-/

namespace Signpost.Text

/-! ### Cutting at a separator -/

lemma exists_eq_append {c : Char} {s t u v : List Char} (hs : c ∉ s)
    (h : s ++ t = u ++ c :: v) : ∃ w, u = s ++ w ∧ t = w ++ c :: v := by
  rcases List.append_eq_append_iff.mp h with ⟨w, rfl, ht⟩ | ⟨w, rfl, hw⟩
  · exact ⟨w, rfl, ht⟩
  · rcases w with _ | ⟨d, w⟩
    · exact ⟨[], by simp, hw.symm⟩
    · cases hw
      simp at hs

lemma cutAt?_append {sep : Char} {s : List Char} (h : sep ∉ s) (rest : List Char) :
    cutAt? sep (s ++ sep :: rest) = some (s, rest) := by
  induction s with
  | nil => simp [cutAt?]
  | cons c s ih =>
    rw [List.mem_cons, not_or] at h
    rw [List.cons_append, cutAt?, if_neg (Ne.symm h.1), ih h.2]
    rfl

lemma cutAt?_eq_none {sep : Char} {s : List Char} (h : sep ∉ s) : cutAt? sep s = none := by
  induction s with
  | nil => rfl
  | cons c s ih =>
    rw [List.mem_cons, not_or] at h
    rw [cutAt?, if_neg (Ne.symm h.1), ih h.2]
    rfl

lemma cutAt?_eq_some_iff {sep : Char} {s before after : List Char} :
    cutAt? sep s = some (before, after) ↔ sep ∉ before ∧ s = before ++ sep :: after := by
  constructor
  · intro h
    have hmem : sep ∈ s := by
      by_contra hmem
      rw [cutAt?_eq_none hmem] at h
      cases h
    obtain ⟨x, y, rfl, hx⟩ := List.eq_append_cons_of_mem hmem
    rw [cutAt?_append hx] at h
    cases h
    exact ⟨hx, rfl⟩
  · rintro ⟨h, rfl⟩
    exact cutAt?_append h after

lemma cutAt?_append_right {sep : Char} {s before after : List Char}
    (h : cutAt? sep s = some (before, after)) (t : List Char) :
    cutAt? sep (s ++ t) = some (before, after ++ t) := by
  obtain ⟨hbefore, rfl⟩ := cutAt?_eq_some_iff.mp h
  rw [List.append_assoc, List.cons_append, cutAt?_append hbefore]

/-- What stands before a separator is taken off, or the whole text if there is none. -/
lemma takeWhile_ne (sep : Char) (s : List Char) :
    s.takeWhile (· != sep) = ((cutAt? sep s).map Prod.fst).getD s := by
  induction s with
  | nil => rfl
  | cons c s ih =>
    by_cases hc : c = sep
    · simp [cutAt?, hc]
    · have hcons : (c :: s).takeWhile (· != sep) = c :: s.takeWhile (· != sep) :=
        List.takeWhile_cons_of_pos (by simpa using hc)
      rw [hcons, ih, cutAt?, if_neg hc]
      rcases cutAt? sep s with _ | ⟨before, after⟩ <;> rfl

lemma not_mem_takeWhile_ne (sep : Char) (s : List Char) : sep ∉ s.takeWhile (· != sep) := by
  intro h
  simpa using List.all_eq_true.mp (List.all_takeWhile (p := (· != sep)) (l := s)) sep h

/-! ### Splitting at separators -/

lemma splitAll_of_not_mem {sep : Char} {s : List Char} (h : sep ∉ s) : splitAll sep s = [s] := by
  induction s with
  | nil => rfl
  | cons c s ih =>
    rw [List.mem_cons, not_or] at h
    rw [splitAll, if_neg (Ne.symm h.1), ih h.2]

lemma splitAll_append {sep : Char} {s : List Char} (h : sep ∉ s) (rest : List Char) :
    splitAll sep (s ++ sep :: rest) = s :: splitAll sep rest := by
  induction s with
  | nil => simp [splitAll]
  | cons c s ih =>
    rw [List.mem_cons, not_or] at h
    rw [List.cons_append, splitAll, if_neg (Ne.symm h.1), ih h.2]

lemma splitAll_cases (sep : Char) (s : List Char) :
    splitAll sep s = [s] ∨
      ∃ part rest, s = part ++ sep :: rest ∧ splitAll sep s = part :: splitAll sep rest := by
  induction s with
  | nil => exact .inl rfl
  | cons c s ih =>
    by_cases hc : c = sep
    · exact .inr ⟨[], s, by simp [hc], by simp [splitAll, hc]⟩
    · rcases ih with hs | ⟨part, rest, rfl, hs⟩
      · exact .inl (by rw [splitAll, if_neg hc, hs])
      · exact .inr ⟨c :: part, rest, rfl, by rw [splitAll, if_neg hc, hs]⟩

lemma splitAll_joinWith {sep : Char} {parts : List (List Char)} (hne : parts ≠ [])
    (h : ∀ part ∈ parts, sep ∉ part) : splitAll sep (joinWith [sep] parts) = parts := by
  induction parts with
  | nil => exact absurd rfl hne
  | cons part parts ih =>
    rw [List.forall_mem_cons] at h
    rcases eq_or_ne parts [] with rfl | hparts
    · exact splitAll_of_not_mem h.1
    · rw [joinWith_cons _ _ hparts, List.append_assoc, List.singleton_append, splitAll_append h.1,
        ih hparts h.2]

lemma mem_of_mem_splitAll {sep c : Char} {s part : List Char} (hpart : part ∈ splitAll sep s)
    (hc : c ∈ part) : c ∈ s ∧ c ≠ sep := by
  induction s generalizing part with
  | nil =>
    rw [splitAll, List.mem_singleton] at hpart
    rw [hpart] at hc
    cases hc
  | cons d s ih =>
    have hlater : ∀ {part}, part ∈ splitAll sep s → c ∈ part → c ∈ d :: s ∧ c ≠ sep :=
      fun hp hc => ⟨List.mem_cons_of_mem d (ih hp hc).1, (ih hp hc).2⟩
    rw [splitAll] at hpart
    split at hpart
    · rcases List.mem_cons.mp hpart with rfl | hp
      · cases hc
      · exact hlater hp hc
    · rename_i hd
      split at hpart
      · rename_i h
        exact absurd h (splitAll_ne_nil sep s)
      · rename_i first parts h
        rcases List.mem_cons.mp hpart with rfl | hp
        · rcases List.mem_cons.mp hc with rfl | hc
          · exact ⟨List.mem_cons_self, hd⟩
          · exact hlater (h ▸ List.mem_cons_self) hc
        · exact hlater (h ▸ List.mem_cons_of_mem first hp) hc

lemma joinWith_eq_intercalate (sep : List Char) (parts : List (List Char)) :
    joinWith sep parts = sep.intercalate parts := by
  induction parts with
  | nil => rfl
  | cons part parts ih =>
    rcases parts with _ | ⟨next, parts⟩
    · simp [joinWith]
    · rw [joinWith_cons _ _ (by simp), ih, List.intercalate_cons_cons]

/-! ### Trimming -/

lemma dropWhile_eq_self {p : Char → Bool} {s : List Char} (h : ∀ c ∈ s.head?, p c = false) :
    s.dropWhile p = s := by
  rcases s with _ | ⟨c, s⟩
  · rfl
  · rw [List.dropWhile_cons_of_neg]
    simpa using h c rfl

lemma trimWhile_eq_self {p : Char → Bool} {s : List Char} (hfirst : ∀ c ∈ s.head?, p c = false)
    (hlast : ∀ c ∈ s.reverse.head?, p c = false) : trimWhile p s = s := by
  rw [trimWhile, dropWhile_eq_self hfirst, dropWhile_eq_self hlast, List.reverse_reverse]

/-- What is trimmed away around a text is not seen, even if nothing is left of the text. -/
lemma trimWhile_padded {p : Char → Bool} {before after : List Char}
    (hbefore : ∀ c ∈ before, p c = true) (hafter : ∀ c ∈ after, p c = true) (s : List Char) :
    trimWhile p (before ++ (s ++ after)) = trimWhile p s := by
  have hback : ∀ c ∈ after.reverse, p c = true := fun c hc => hafter c (List.mem_reverse.mp hc)
  rw [trimWhile, trimWhile, List.dropWhile_append_of_pos hbefore, List.dropWhile_append]
  split
  · rename_i h
    have hnil : after.dropWhile p = [] := List.dropWhile_eq_nil_iff.mpr hafter
    rw [List.isEmpty_iff.mp h, hnil]
  · rw [List.reverse_append, List.dropWhile_append_of_pos hback]

lemma exists_eq_padded (p : Char → Bool) (s : List Char) :
    ∃ before after, s = before ++ (trimWhile p s ++ after) ∧ (∀ c ∈ before, p c = true) ∧
      ∀ c ∈ after, p c = true := by
  have htake : ∀ t : List Char, ∀ c ∈ t.takeWhile p, p c = true := fun t =>
    List.all_eq_true.mp List.all_takeWhile
  refine ⟨s.takeWhile p, ((s.dropWhile p).reverse.takeWhile p).reverse, ?_, htake s, fun c hc =>
    htake _ c (List.mem_reverse.mp hc)⟩
  rw [trimWhile, ← List.reverse_append, List.takeWhile_append_dropWhile, List.reverse_reverse,
    List.takeWhile_append_dropWhile]

/-! ### Outer slashes -/

lemma trimSlashes_eq_self {s : List Char} (hfirst : s.head? ≠ some '/')
    (hlast : s.reverse.head? ≠ some '/') : trimSlashes s = s := by
  have hslash : ∀ {t : List Char}, t.head? ≠ some '/' → ∀ c ∈ t.head?, (c == '/') = false := by
    intro t ht c hc
    rw [beq_eq_false_iff_ne]
    rintro rfl
    exact ht hc
  exact trimWhile_eq_self (hslash hfirst) (hslash hlast)

lemma trimSlashes_append {s t : List Char} (hs : s ≠ []) (ht : t ≠ [])
    (hfirst : s.head? ≠ some '/') (hlast : t.reverse.head? ≠ some '/') :
    trimSlashes (s ++ t) = s ++ t := by
  refine trimSlashes_eq_self ?_ ?_
  · rcases s with _ | ⟨c, s⟩
    · exact absurd rfl hs
    · exact hfirst
  · rw [List.reverse_append, List.head?_append]
    rcases h : t.reverse with _ | ⟨c, u⟩
    · exact absurd (List.reverse_eq_nil_iff.mp h) ht
    · rwa [h] at hlast

lemma head?_dropWhile_ne (s : List Char) : (s.dropWhile (· == '/')).head? ≠ some '/' := by
  intro h
  have := List.head?_dropWhile_not (· == '/') s
  rw [h] at this
  cases this

lemma head?_trimSlashes (s : List Char) : (trimSlashes s).head? ≠ some '/' := by
  intro h
  have hsuffix := List.dropWhile_suffix (· == '/') (l := (s.dropWhile (· == '/')).reverse)
  obtain ⟨t, ht⟩ := List.reverse_prefix.mpr hsuffix
  refine head?_dropWhile_ne s ?_
  rw [List.reverse_reverse] at ht
  rw [← ht, List.head?_append]
  exact congrArg (Option.or · t.head?) h

lemma head?_reverse_trimSlashes (s : List Char) :
    (trimSlashes s).reverse.head? ≠ some '/' := by
  rw [trimSlashes, trimWhile, List.reverse_reverse]
  exact head?_dropWhile_ne _

lemma trimSlashes_trimSlashes (s : List Char) : trimSlashes (trimSlashes s) = trimSlashes s :=
  trimSlashes_eq_self (head?_trimSlashes s) (head?_reverse_trimSlashes s)

lemma trimSlashes_padded (m n : Nat) (s : List Char) :
    trimSlashes (List.replicate m '/' ++ (s ++ List.replicate n '/')) = trimSlashes s :=
  trimWhile_padded (fun _ hc => beq_iff_eq.mpr (List.eq_of_mem_replicate hc))
    (fun _ hc => beq_iff_eq.mpr (List.eq_of_mem_replicate hc)) s

lemma mem_of_mem_trimSlashes {c : Char} {s : List Char} (h : c ∈ trimSlashes s) : c ∈ s := by
  rw [trimSlashes, trimWhile, List.mem_reverse] at h
  have hdrop := (List.dropWhile_sublist _).subset h
  exact (List.dropWhile_sublist _).subset (List.mem_reverse.mp hdrop)

/-- Texts put together begin with `c` only if they did so before some of them were exchanged for
texts that do not. -/
lemma head?_flatMap_ne {α : Type} {f g : α → List Char} {c : Char} {l : List α}
    (h : ∀ a ∈ l, f a = g a ∨ f a ≠ [] ∧ (f a).head? ≠ some c)
    (hg : (l.flatMap g).head? ≠ some c) : (l.flatMap f).head? ≠ some c := by
  induction l with
  | nil => exact hg
  | cons a l ih =>
    have ih' := ih fun b hb => h b (List.mem_cons_of_mem a hb)
    rw [List.flatMap_cons, List.head?_append] at hg ⊢
    rcases h a List.mem_cons_self with he | ⟨hne, hc⟩
    · rw [he]
      rcases hga : g a with _ | ⟨d, s⟩
      · rw [hga] at hg
        exact ih' hg
      · rwa [hga] at hg
    · rcases hfa : f a with _ | ⟨d, s⟩
      · exact absurd hfa hne
      · rwa [hfa] at hc

/-! ### Replacing a word -/

variable {word new : List Char}

lemma replaceFrom_cons {c : Char} {s : List Char} (h : ¬ word.isPrefixOf (c :: s) = true) :
    replaceFrom word new 0 (c :: s) = c :: replaceFrom word new 0 s := by
  rw [replaceFrom, if_neg h]

lemma replaceFrom_append {s : List Char} (rest : List Char)
    (h : ∀ u v, s = u ++ v → v ≠ [] → ¬ word <+: v ++ rest) :
    replaceFrom word new 0 (s ++ rest) = s ++ replaceFrom word new 0 rest := by
  induction s with
  | nil => rfl
  | cons d s ih =>
    have hprefix : ¬ word.isPrefixOf (d :: (s ++ rest)) = true := fun hp =>
      h [] (d :: s) rfl (by simp) (List.isPrefixOf_iff_prefix.mp hp)
    rw [List.cons_append, replaceFrom_cons hprefix,
      ih fun u v e hv => h (d :: u) v (by rw [e]; rfl) hv, List.cons_append]

lemma replaceFrom_skip (n : Nat) (s rest : List Char) (h : s.length = n) :
    replaceFrom word new n (s ++ rest) = replaceFrom word new 0 rest := by
  induction s generalizing n with
  | nil => subst h; rfl
  | cons d s ih =>
    subst h
    rw [List.cons_append, List.length_cons, replaceFrom, ih s.length rfl]

lemma replaceFrom_word (hword : word ≠ []) (rest : List Char) :
    replaceFrom word new 0 (word ++ rest) = new ++ replaceFrom word new 0 rest := by
  rcases word with _ | ⟨c, word⟩
  · cases hword rfl
  · have hprefix : (c :: word).isPrefixOf (c :: (word ++ rest)) = true :=
      List.isPrefixOf_iff_prefix.mpr ⟨rest, rfl⟩
    rw [List.cons_append, replaceFrom, if_pos hprefix]
    exact congrArg (new ++ ·) (replaceFrom_skip word.length word rest rfl)

/-- A word that stands at one place only is replaced there, and nothing else changes. -/
theorem replaceAll_of_unique {x y : List Char} (hword : word ≠ [])
    (h : ∀ u v, x ++ (word ++ y) = u ++ (word ++ v) → u = x) :
    replaceAll word new (x ++ (word ++ y)) = x ++ (new ++ y) := by
  have hbefore : ∀ u v, x = u ++ v → v ≠ [] → ¬ word <+: v ++ (word ++ y) := by
    rintro u v rfl hv ⟨z, hz⟩
    have := h u z (by rw [List.append_assoc, hz])
    exact hv (by simpa using this)
  have hbehind : ∀ u v, y = u ++ v → v ≠ [] → ¬ word <+: v ++ [] := by
    rintro u v rfl - ⟨z, hz⟩
    rw [List.append_nil] at hz
    have := h (x ++ (word ++ u)) z (by simp [← hz])
    simp [hword] at this
  have hrest : replaceFrom word new 0 (y ++ []) = y ++ replaceFrom word new 0 [] :=
    replaceFrom_append [] hbehind
  rw [List.append_nil, replaceFrom, List.append_nil] at hrest
  rw [replaceAll, replaceFrom_append _ hbefore, replaceFrom_word hword, hrest]

/-! ### Case -/

/-- What holds of the ASCII characters, where it can be decided, and of characters without case
holds of all characters. -/
lemma char_cases {p : Char → Prop} (hascii : ∀ n < 128, p (.ofNat n))
    (hother : ∀ c : Char, c.isLower = false → c.toUpper = c → c.toLower = c → p c) (c : Char) :
    p c := by
  by_cases h : c.toNat < 128
  · exact Char.ofNat_toNat c ▸ hascii c.toNat h
  · have hval : 128 ≤ c.val := by simpa [UInt32.le_iff_toNat_le] using h
    have hlower : ¬ ('a'.val ≤ c.val ∧ c.val ≤ 'z'.val) := fun hc =>
      absurd (UInt32.le_trans hval hc.2) (by decide)
    have hupper : ¬ ('A'.val ≤ c.val ∧ c.val ≤ 'Z'.val) := fun hc =>
      absurd (UInt32.le_trans hval hc.2) (by decide)
    have hno : (decide ('a'.val ≤ c.val) && decide (c.val ≤ 'z'.val)) = false :=
      (Bool.decide_and _ _).symm.trans (decide_eq_false hlower)
    exact hother c hno (dif_neg hlower) (dif_neg hupper)

lemma upperAscii_upperAscii (s : String) : upperAscii (upperAscii s) = upperAscii s := by
  have h : ∀ c : Char, c.toUpper.toUpper = c.toUpper :=
    char_cases (by decide) fun _ _ hu _ => congrArg Char.toUpper hu
  simp only [upperAscii, String.toList_ofList, List.map_map, Function.comp_def, h]

lemma upperAscii_lowerAscii (s : String) : upperAscii (lowerAscii s) = upperAscii s := by
  have h : ∀ c : Char, c.toLower.toUpper = c.toUpper :=
    char_cases (by decide) fun _ _ _ hl => congrArg Char.toUpper hl
  simp only [upperAscii, lowerAscii, String.toList_ofList, List.map_map, Function.comp_def, h]

lemma lowerAscii_upperAscii (s : String) : lowerAscii (upperAscii s) = lowerAscii s := by
  have h : ∀ c : Char, c.toUpper.toLower = c.toLower :=
    char_cases (by decide) fun _ _ hu _ => congrArg Char.toLower hu
  simp only [upperAscii, lowerAscii, String.toList_ofList, List.map_map, Function.comp_def, h]

lemma sameIgnoringCase_iff {s t : String} :
    sameIgnoringCase s t = true ↔ upperAscii s = upperAscii t := by
  rw [sameIgnoringCase, beq_iff_eq]
  constructor
  · intro h
    rw [← upperAscii_lowerAscii s, h, upperAscii_lowerAscii]
  · intro h
    rw [← lowerAscii_upperAscii s, h, lowerAscii_upperAscii]

lemma isLower_toUpper : ∀ c : Char, c.toUpper.isLower = false :=
  char_cases (by decide) fun _ hlower hu _ => hu.symm ▸ hlower

lemma isAlphanum_toUpper : ∀ c : Char, c.isAlphanum = true → c.toUpper.isAlphanum = true :=
  char_cases (by decide) fun _ _ hu _ h => hu.symm ▸ h

end Signpost.Text
