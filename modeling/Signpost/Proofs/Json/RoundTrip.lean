import Signpost.Json.Reader
import Signpost.Json.Writer
import Signpost.Proofs.Json.Lexemes

/-!
Documents written as JSON and read again. Where a value may come, the lexemes of a document take the
reader to the place behind this value; this is passed on from the values in a container to the
container, whose own values the reader collects last first.
-/

namespace Signpost.Json

/-- Documents that JSON can tell from all others: no value is left out, and every key is a text. -/
inductive Spellable : Document → Prop where
  | text (value : String) : Spellable (.text value)
  | other : Spellable .other
  | sequence {items : List Document} (values : ∀ d ∈ items, Spellable d) :
    Spellable (.sequence items)
  | mapping {entries : List (Option String × Document)} (keys : ∀ e ∈ entries, e.1 ≠ none)
    (values : ∀ e ∈ entries, Spellable e.2) : Spellable (.mapping entries)

namespace Spellable

variable {d : Document} {entries : List (Option String × Document)}

lemma mapping_nil : Spellable (.mapping []) := .mapping (by simp) (by simp)

lemma mapping_cons (key : String) (hd : Spellable d) (h : Spellable (.mapping entries)) :
    Spellable (.mapping ((some key, d) :: entries)) := by
  cases h with
  | mapping keys values =>
    refine .mapping ?_ ?_
    · exact List.forall_mem_cons.mpr ⟨Option.some_ne_none key, keys⟩
    · exact List.forall_mem_cons.mpr ⟨hd, values⟩

lemma mapping_map {α : Type} {f : α → Document} (h : ∀ a, Spellable (f a))
    (l : List (String × α)) : Spellable (.mapping (l.map fun (k, a) => (some k, f a))) := by
  induction l with
  | nil => exact mapping_nil
  | cons p l ih => exact mapping_cons p.1 (h p.2) ih

end Spellable

/-! ### Lexemes of a document -/

lemma mem_lexemesOfItems {x : Lexeme} {items : List Document} (h : x ∈ lexemesOfItems items) :
    x = .comma ∨ ∃ d ∈ items, x ∈ lexemes d := by
  induction items with
  | nil => simp [lexemesOfItems] at h
  | cons d items ih =>
    cases items with
    | nil => exact .inr ⟨d, List.mem_cons_self, h⟩
    | cons d' items =>
      simp only [lexemesOfItems, List.mem_append, List.mem_cons] at h
      rcases h with h | h | h
      · exact .inr ⟨d, List.mem_cons_self, h⟩
      · exact .inl h
      · rcases ih h with h | ⟨v, hv, h⟩
        · exact .inl h
        · exact .inr ⟨v, List.mem_cons_of_mem d hv, h⟩

lemma mem_lexemesOfEntries {x : Lexeme} {entries : List (Option String × Document)}
    (h : x ∈ lexemesOfEntries entries) :
    x = .comma ∨ x = .colon ∨ ∃ e ∈ entries, x = .text e.1 ∨ x ∈ lexemes e.2 := by
  induction entries with
  | nil => simp [lexemesOfEntries] at h
  | cons e entries ih =>
    cases entries with
    | nil =>
      simp only [lexemesOfEntries, List.mem_cons] at h
      rcases h with h | h | h
      · exact .inr (.inr ⟨e, List.mem_cons_self, .inl h⟩)
      · exact .inr (.inl h)
      · exact .inr (.inr ⟨e, List.mem_cons_self, .inr h⟩)
    | cons e' entries =>
      simp only [lexemesOfEntries, List.mem_append, List.mem_cons] at h
      rcases h with h | h | h | h | h
      · exact .inr (.inr ⟨e, List.mem_cons_self, .inl h⟩)
      · exact .inr (.inl h)
      · exact .inr (.inr ⟨e, List.mem_cons_self, .inr h⟩)
      · exact .inl h
      · rcases ih h with h | h | ⟨v, hv, h⟩
        · exact .inl h
        · exact .inr (.inl h)
        · exact .inr (.inr ⟨v, List.mem_cons_of_mem e hv, h⟩)

lemma Spellable.text_none_not_mem {d : Document} (h : Spellable d) : .text none ∉ lexemes d := by
  induction h with
  | text value => simp [lexemes]
  | other => simp [lexemes]
  | sequence _ ih =>
    intro hm
    simp only [lexemes, List.mem_cons, List.mem_append, List.not_mem_nil, or_false, reduceCtorEq,
      false_or] at hm
    rcases mem_lexemesOfItems hm with h | ⟨d, hd, hm⟩
    · cases h
    · exact ih d hd hm
  | mapping hkeys _ ih =>
    intro hm
    simp only [lexemes, List.mem_cons, List.mem_append, List.not_mem_nil, or_false, reduceCtorEq,
      false_or] at hm
    rcases mem_lexemesOfEntries hm with h | h | ⟨e, he, h | hm⟩
    · cases h
    · cases h
    · exact hkeys e he (Lexeme.text.inj h).symm
    · exact ih e he hm

/-! ### Reading the lexemes of a document -/

namespace Progress

variable {outer : List Open} {e : Expected}

lemma pushAll?_cons (p : Progress) (x : Lexeme) (xs : List Lexeme) :
    p.pushAll? (x :: xs) = (p.push? x).bind fun q => q.pushAll? xs := rfl

end Progress

open Progress

/-- Where a value may come, the lexemes of the document are read as this value. -/
def ReadBack (d : Document) : Prop :=
  ∀ (outer : List Open) (e : Expected) (xs : List Lexeme), e = .value ∨ e = .valueOrEnd →
    pushAll? ⟨outer, e⟩ (lexemes d ++ xs) = pushAll? ⟨outer, .separator d⟩ xs

lemma pushAll?_lexemesOfItems {items : List Document} (hne : items ≠ [])
    (h : ∀ d ∈ items, ReadBack d) (before : List Document) (outer : List Open) {e : Expected}
    (he : e = .value ∨ e = .valueOrEnd) (xs : List Lexeme) :
    pushAll? ⟨.sequence before :: outer, e⟩ (lexemesOfItems items ++ .closeSequence :: xs) =
      pushAll? ⟨outer, .separator (.sequence (before.reverse ++ items))⟩ xs := by
  induction items generalizing before e with
  | nil => exact absurd rfl hne
  | cons d items ih =>
    rw [List.forall_mem_cons] at h
    cases items with
    | nil =>
      rw [lexemesOfItems, h.1 _ _ _ he, pushAll?_cons, push?]
      simp
    | cons d' items =>
      rw [lexemesOfItems, List.append_assoc, h.1 _ _ _ he, List.cons_append, pushAll?_cons, push?,
        Option.bind_some, ih (by simp) h.2 _ (.inl rfl)]
      · simp
      · simp

lemma pushAll?_lexemesOfEntries {entries : List (Option String × Document)} (hne : entries ≠ [])
    (h : ∀ p ∈ entries, ReadBack p.2) (before : List (Option String × Document))
    (outer : List Open) {e : Expected} (he : e = .key before ∨ e = .keyOrEnd ∧ before = [])
    (xs : List Lexeme) :
    pushAll? ⟨outer, e⟩ (lexemesOfEntries entries ++ .closeMapping :: xs) =
      pushAll? ⟨outer, .separator (.mapping (before.reverse ++ entries))⟩ xs := by
  induction entries generalizing before e with
  | nil => exact absurd rfl hne
  | cons p entries ih =>
    obtain ⟨key, d⟩ := p
    rw [List.forall_mem_cons] at h
    have hkey : ∀ ys, pushAll? ⟨outer, e⟩ (.text key :: .colon :: ys) =
        pushAll? ⟨.mapping before key :: outer, .value⟩ ys := by
      rcases he with rfl | ⟨rfl, rfl⟩ <;> exact fun ys => rfl
    cases entries with
    | nil =>
      rw [lexemesOfEntries, List.cons_append, List.cons_append, hkey, h.1 _ _ _ (.inl rfl),
        pushAll?_cons, push?]
      simp
    | cons p' entries =>
      rw [lexemesOfEntries, List.cons_append, List.cons_append, hkey, List.append_assoc,
        h.1 _ _ _ (.inl rfl), List.cons_append, pushAll?_cons, push?, Option.bind_some,
        ih (by simp) h.2 _ (.inl rfl)]
      · simp
      · simp

lemma Spellable.readBack {d : Document} (h : Spellable d) : ReadBack d := by
  induction h with
  | text value => rintro outer e xs (rfl | rfl) <;> rfl
  | other => rintro outer e xs (rfl | rfl) <;> rfl
  | @sequence items _ ih =>
    intro outer e xs he
    have hopen : pushAll? ⟨outer, e⟩ (lexemes (.sequence items) ++ xs) =
        pushAll? ⟨.sequence [] :: outer, .valueOrEnd⟩
          (lexemesOfItems items ++ .closeSequence :: xs) := by
      rw [lexemes, List.cons_append, List.append_assoc]
      rcases he with rfl | rfl <;> rfl
    rw [hopen]
    rcases eq_or_ne items [] with rfl | hne
    · rfl
    · exact pushAll?_lexemesOfItems hne ih [] outer (.inr rfl) xs
  | @mapping entries _ _ ih =>
    intro outer e xs he
    have hopen : pushAll? ⟨outer, e⟩ (lexemes (.mapping entries) ++ xs) =
        pushAll? ⟨outer, .keyOrEnd⟩ (lexemesOfEntries entries ++ .closeMapping :: xs) := by
      rw [lexemes, List.cons_append, List.append_assoc]
      rcases he with rfl | rfl <;> rfl
    rw [hopen]
    rcases eq_or_ne entries [] with rfl | hne
    · rfl
    · exact pushAll?_lexemesOfEntries hne ih [] outer (.inr ⟨rfl, rfl⟩) xs

/-- **JSON round trip.** A document that is written in JSON is read again. -/
theorem read?_write {d : Document} (h : Spellable d) : read? (write d) = some d := by
  have hpush := h.readBack [] .value [] (.inl rfl)
  rw [List.append_nil] at hpush
  rw [read?, write, lexemes?_flatMap_written h.text_none_not_mem, Option.bind_some, start, hpush]
  rfl

end Signpost.Json
