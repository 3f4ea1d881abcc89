import Signpost.Document
import Signpost.Json.Lexeme

/-!
JSON as it is written: in one line without blanks, or over several lines with two blanks for each
level. Keys keep their order.
-/

namespace Signpost.Json

mutual

def lexemes : Document → List Lexeme
  | .text s => [.text (some s)]
  | .blank | .other => [.other]
  | .sequence items => .openSequence :: (lexemesOfItems items ++ [.closeSequence])
  | .mapping entries => .openMapping :: (lexemesOfEntries entries ++ [.closeMapping])

def lexemesOfItems : List Document → List Lexeme
  | [] => []
  | [d] => lexemes d
  | d :: items => lexemes d ++ .comma :: lexemesOfItems items

def lexemesOfEntries : List (Option String × Document) → List Lexeme
  | [] => []
  | [(k, d)] => .text k :: .colon :: lexemes d
  | (k, d) :: entries => .text k :: .colon :: (lexemes d ++ .comma :: lexemesOfEntries entries)

end

/-- A document in one line without blanks. -/
def write (d : Document) : List Char := (lexemes d).flatMap Lexeme.written

/-- A line break and the blanks before a line at a level. -/
def lineBreak (level : Nat) : List Char := '\n' :: List.replicate (2 * level) ' '

mutual

/-- A document over several lines, of which the first goes on a line at a level. -/
def writeLines (level : Nat) : Document → List Char
  | .text s => quote s
  | .blank | .other => Lexeme.other.written
  | .sequence [] => ['[', ']']
  | .sequence (d :: items) => '[' :: (writeItems level (d :: items) ++ lineBreak level ++ [']'])
  | .mapping [] => ['\x7b', '\x7d']
  | .mapping (e :: entries) =>
    '\x7b' :: (writeEntries level (e :: entries) ++ lineBreak level ++ ['\x7d'])

/-- The values of a sequence at a level, each on a line of its own. -/
def writeItems (level : Nat) : List Document → List Char
  | [] => []
  | [d] => lineBreak (level + 1) ++ writeLines (level + 1) d
  | d :: items => lineBreak (level + 1) ++ writeLines (level + 1) d ++ ',' :: writeItems level items

def writeEntries (level : Nat) : List (Option String × Document) → List Char
  | [] => []
  | [(k, d)] =>
    lineBreak (level + 1) ++ (Lexeme.text k).written ++ ':' :: ' ' :: writeLines (level + 1) d
  | (k, d) :: entries =>
    lineBreak (level + 1) ++ (Lexeme.text k).written ++ ':' :: ' ' :: writeLines (level + 1) d ++
      ',' :: writeEntries level entries

end

end Signpost.Json
