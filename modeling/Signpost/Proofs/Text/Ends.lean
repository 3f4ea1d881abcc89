import Mathlib.Tactic.Common
import Signpost.Proofs.Text.Slice

/-!
Which character a text begins and ends with once its backslashes are dropped, and that exchanging
words inside a text has no influence on whether this is a slash, as long as no word begins or ends
with one itself.
-/

namespace Signpost.Text

variable {s t u v word new : List Char}

/-- The first character of a text that is no backslash. -/
def firstKept (s : List Char) : Option Char := s.find? (· != '\\')

lemma firstKept_append (s t : List Char) :
    firstKept (s ++ t) = (firstKept s).or (firstKept t) :=
  List.find?_append

lemma head?_filter_kept (s : List Char) : (s.filter (· != '\\')).head? = firstKept s :=
  List.head?_filter

lemma getLast?_filter_kept (s : List Char) :
    (s.filter (· != '\\')).getLast? = firstKept s.reverse := by
  rw [← List.head?_reverse, ← List.filter_reverse, head?_filter_kept]

/-- A text that still has a first and a last character when its backslashes are dropped, neither of
them a slash. -/
structure Solid (s : List Char) : Prop where
  first : ∃ c, firstKept s = some c ∧ c ≠ '/'
  last : ∃ c, firstKept s.reverse = some c ∧ c ≠ '/'

lemma Solid.reverse (h : Solid s) : Solid s.reverse :=
  ⟨h.last, by rw [List.reverse_reverse]; exact h.first⟩

lemma Solid.firstKept_append_ne (h : Solid s) (t : List Char) :
    firstKept (s ++ t) ≠ some '/' := by
  obtain ⟨c, hc, hne⟩ := h.first
  rw [firstKept_append, hc, Option.some_or]
  exact fun e => hne (Option.some.inj e)

lemma solid_of_not_mem (hne : s ≠ []) (hslash : '/' ∉ s) (hbackslash : '\\' ∉ s) : Solid s := by
  have hfirst : ∀ {u : List Char}, u ≠ [] → (∀ c ∈ u, c ∈ s) →
      ∃ c, firstKept u = some c ∧ c ≠ '/' := by
    intro u hu hsub
    rcases u with _ | ⟨c, u⟩
    · exact absurd rfl hu
    · have hc : c ∈ s := hsub c List.mem_cons_self
      have hkept : (c != '\\') = true := bne_iff_ne.mpr (by rintro rfl; exact hbackslash hc)
      exact ⟨c, List.find?_cons_of_pos hkept, by rintro rfl; exact hslash hc⟩
  exact ⟨hfirst hne fun c hc => hc, hfirst (by simpa using hne) fun c hc => List.mem_reverse.mp hc⟩

/-! ### Words exchanged -/

/-- The second text is the first one with some occurrences of a word exchanged for another. -/
inductive Exchanged (word new : List Char) : List Char → List Char → Prop
  | nil : Exchanged word new [] []
  | keep {s t : List Char} (c : Char) (h : Exchanged word new s t) :
    Exchanged word new (c :: s) (c :: t)
  | swap {s t : List Char} (h : Exchanged word new s t) :
    Exchanged word new (word ++ s) (new ++ t)

/-- Replacing a word exchanges some of its occurrences: by induction on the length, as the search
goes on behind the word. -/
lemma exchanged_replaceAll (hword : word ≠ []) (s : List Char) :
    Exchanged word new s (replaceAll word new s) := by
  induction hn : s.length using Nat.strongRecOn generalizing s with
  | ind n ih =>
    subst hn
    rcases s with _ | ⟨c, s⟩
    · exact .nil
    · by_cases hprefix : word.isPrefixOf (c :: s) = true
      · obtain ⟨rest, hrest⟩ := List.isPrefixOf_iff_prefix.mp hprefix
        have hlength : rest.length < (c :: s).length := by
          have := List.length_pos_iff.mpr hword
          rw [← hrest, List.length_append]
          omega
        rw [replaceAll, ← hrest, replaceFrom_word hword]
        exact .swap (ih _ hlength rest rfl)
      · rw [replaceAll, replaceFrom_cons hprefix]
        exact .keep c (ih s.length (by simp) s rfl)

namespace Exchanged

lemma append (h : Exchanged word new s t) (h' : Exchanged word new u v) :
    Exchanged word new (s ++ u) (t ++ v) := by
  induction h with
  | nil => exact h'
  | keep c _ ih => exact .keep c ih
  | swap _ ih =>
    rw [List.append_assoc, List.append_assoc]
    exact .swap ih

lemma reverse (h : Exchanged word new s t) :
    Exchanged word.reverse new.reverse s.reverse t.reverse := by
  induction h with
  | nil => exact .nil
  | keep c _ ih =>
    rw [List.reverse_cons, List.reverse_cons]
    exact ih.append (.keep c .nil)
  | swap _ ih =>
    have hswap : Exchanged word.reverse new.reverse (word.reverse ++ []) (new.reverse ++ []) :=
      .swap .nil
    rw [List.append_nil, List.append_nil] at hswap
    rw [List.reverse_append, List.reverse_append]
    exact ih.append hswap

lemma firstKept_iff (h : Exchanged word new s t) (hword : Solid word) (hnew : Solid new) :
    firstKept s = some '/' ↔ firstKept t = some '/' := by
  induction h with
  | nil => rfl
  | @keep s t c _ ih =>
    rw [← List.singleton_append, ← List.singleton_append (l := t), firstKept_append,
      firstKept_append]
    rcases firstKept [c] with _ | d
    · exact ih
    · rfl
  | @swap s t _ _ =>
    exact iff_of_false (hword.firstKept_append_ne s) (hnew.firstKept_append_ne t)

end Exchanged

/-- Backslashes apart, both texts begin with a slash or neither does, and both end with a slash or
neither does. -/
structure SameEnds (s t : List Char) : Prop where
  first : firstKept s = some '/' ↔ firstKept t = some '/'
  last : firstKept s.reverse = some '/' ↔ firstKept t.reverse = some '/'

lemma SameEnds.refl (s : List Char) : SameEnds s s := ⟨Iff.rfl, Iff.rfl⟩

lemma SameEnds.trans (h : SameEnds s t) (h' : SameEnds t u) : SameEnds s u :=
  ⟨h.first.trans h'.first, h.last.trans h'.last⟩

lemma sameEnds_replaceAll (hword : Solid word) (hnew : Solid new) (s : List Char) :
    SameEnds s (replaceAll word new s) := by
  have hne : word ≠ [] := by
    rintro rfl
    obtain ⟨c, hc, -⟩ := hword.first
    cases hc
  have h : Exchanged word new s (replaceAll word new s) := exchanged_replaceAll hne s
  exact ⟨h.firstKept_iff hword hnew, h.reverse.firstKept_iff hword.reverse hnew.reverse⟩

end Signpost.Text
