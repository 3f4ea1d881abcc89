import Signpost.Proofs.Json.RoundTrip

/-!
Documents written over several lines. Line breaks and the blanks before a line are no lexemes, so
the lines of a document are read as the same lexemes as the document in one line.
-/

namespace Signpost.Json

/-- The text `s` is read as the lexemes `xs`, whatever follows. -/
def ReadAs (s : List Char) (xs : List Lexeme) : Prop :=
  ∀ rest, lexemes? (s ++ rest) = (lexemes? rest).map (xs ++ ·)

namespace ReadAs

variable {s t : List Char} {xs ys : List Lexeme}

lemma nil : ReadAs [] [] := fun rest => by simp

lemma append (hs : ReadAs s xs) (ht : ReadAs t ys) : ReadAs (s ++ t) (xs ++ ys) := fun rest => by
  rw [List.append_assoc, hs, ht, Option.map_map]
  congr 1
  funext zs
  simp

lemma written (x : Lexeme) (hx : x ≠ .text none) : ReadAs x.written [x] := lexemes?_written hx

lemma blank {c : Char} (hc : isBlank c = true) (hs : ReadAs s xs) : ReadAs (c :: s) xs :=
  fun rest => by rw [List.cons_append, lexemes?, if_pos hc, hs]

lemma replicate (n : Nat) : ReadAs (List.replicate n ' ') [] := by
  induction n with
  | zero => exact nil
  | succ n ih => exact blank rfl ih

lemma onLine (level : Nat) (hs : ReadAs s xs) : ReadAs (lineBreak level ++ s) xs :=
  append (blank rfl (replicate _)) hs

end ReadAs

open ReadAs

/-- The document is read from its lines at every level. -/
def ReadFromLines (d : Document) : Prop := ∀ level, ReadAs (writeLines level d) (lexemes d)

lemma readAs_writeItems {items : List Document} (h : ∀ d ∈ items, ReadFromLines d) (level : Nat) :
    ReadAs (writeItems level items) (lexemesOfItems items) := by
  induction items with
  | nil => exact .nil
  | cons d items ih =>
    rw [List.forall_mem_cons] at h
    have hd := onLine (level + 1) (h.1 (level + 1))
    cases items with
    | nil => exact hd
    | cons d' items =>
      exact hd.append (append (written .comma nofun) (ih h.2))

lemma readAs_writeEntries {entries : List (Option String × Document)}
    (hkeys : ∀ e ∈ entries, e.1 ≠ none) (h : ∀ e ∈ entries, ReadFromLines e.2) (level : Nat) :
    ReadAs (writeEntries level entries) (lexemesOfEntries entries) := by
  induction entries with
  | nil => exact .nil
  | cons e entries ih =>
    obtain ⟨key, d⟩ := e
    rw [List.forall_mem_cons] at hkeys h
    have hkey : ReadAs (Lexeme.text key).written [.text key] :=
      written (.text key) fun e => hkeys.1 (Lexeme.text.inj e)
    have hcolon : ReadAs [':', ' '] [.colon] := append (written .colon nofun) (blank rfl nil)
    have hentry := append (onLine (level + 1) hkey) (append hcolon (h.1 (level + 1)))
    cases entries with
    | nil => exact hentry
    | cons e' entries =>
      exact hentry.append (append (written .comma nofun) (ih hkeys.2 h.2))

lemma Spellable.readFromLines {d : Document} (h : Spellable d) : ReadFromLines d := by
  induction h with
  | text value => exact fun level => written (.text (some value)) nofun
  | other => exact fun level => written .other nofun
  | @sequence items _ ih =>
    intro level
    have hopen : ReadAs ['['] [.openSequence] := written .openSequence nofun
    have hclose : ReadAs [']'] [.closeSequence] := written .closeSequence nofun
    cases items with
    | nil => exact hopen.append hclose
    | cons d items =>
      have hitems := (readAs_writeItems ih level).append (onLine level hclose)
      rw [writeLines, List.append_assoc]
      exact hopen.append hitems
  | @mapping entries hkeys _ ih =>
    intro level
    have hopen : ReadAs ['\x7b'] [.openMapping] := written .openMapping nofun
    have hclose : ReadAs ['\x7d'] [.closeMapping] := written .closeMapping nofun
    cases entries with
    | nil => exact hopen.append hclose
    | cons e entries =>
      have hentries := (readAs_writeEntries hkeys ih level).append (onLine level hclose)
      rw [writeLines, List.append_assoc]
      exact hopen.append hentries

/-- **JSON over several lines** is read again. -/
theorem read?_writeLines {d : Document} (h : Spellable d) (level : Nat) :
    read? (writeLines level d) = some d := by
  have hlines := h.readFromLines level []
  rw [List.append_nil, lexemes?] at hlines
  have hline := read?_write h
  rw [read?, write, lexemes?_flatMap_written h.text_none_not_mem] at hline
  rw [read?, hlines, ← hline]
  simp

end Signpost.Json
