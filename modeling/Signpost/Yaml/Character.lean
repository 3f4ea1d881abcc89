/-!
Characters and places of YAML texts: which characters may occur, what ends a line, and what a word
ends at. Line breaks of all spellings but two are read as one.
-/

namespace Signpost.Yaml

def isAllowed (c : Char) : Bool :=
  c == '\t' || c == '\n' || c == '\r' || ('\x20' ≤ c && c ≤ '\x7e') || c == '\x85' ||
    ('\xa0' ≤ c && c.toNat < 0xFFFE) || 0x10000 ≤ c.toNat

/-- The text with carriage returns, with or without a line feed, and next-line characters in the
form of line feeds. -/
def unifyBreaks : List Char → List Char
  | '\r' :: '\n' :: s => '\n' :: unifyBreaks s
  | '\r' :: s => '\n' :: unifyBreaks s
  | '\x85' :: s => '\n' :: unifyBreaks s
  | c :: s => c :: unifyBreaks s
  | [] => []

/-- A character that ends a line: a line feed, or one of the separators of lines and paragraphs. -/
def isBreak (c : Char) : Bool := c == '\n' || c == '\u2028' || c == '\u2029'

def isBlank (c : Char) : Bool := c == ' ' || c == '\t'

/-- A character that can be part of a word. -/
def isWordPart (c : Char) : Bool := !isBlank c && !isBreak c

/-- Whether no word goes on here: the text is at its end, at a blank or at the end of a line. -/
def atGap : List Char → Bool
  | [] => true
  | c :: _ => !isWordPart c

/-- Whether a mark that begins or ends a document stands here. -/
def atDocumentMark : List Char → Bool
  | '-' :: '-' :: '-' :: s => atGap s
  | '.' :: '.' :: '.' :: s => atGap s
  | _ => false

def isNameChar (c : Char) : Bool := c.isAlphanum || c == '_' || c == '-'

/-- A place in a text, by its line and column from 0. -/
structure Place where
  line : Nat
  column : Nat
  deriving DecidableEq, Repr

namespace Place

def right (p : Place) (n : Nat) : Place := ⟨p.line, p.column + n⟩

def nextLine (p : Place) : Place := ⟨p.line + 1, 0⟩

end Place

/-- Something read, with the text behind it and the place where this begins. -/
structure Reading (α : Type) where
  value : α
  rest : List Char
  place : Place

end Signpost.Yaml
