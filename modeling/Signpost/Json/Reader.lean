import Signpost.Document
import Signpost.Json.Lexeme

/-!
Reading JSON. The reader goes through the lexemes from left to right with the containers that are
open and a note of what may come next; each lexeme changes these in one step.
-/

namespace Signpost.Json

/-- A container that is being read, with its values or entries so far, last first, and the key whose
value is being read. -/
inductive Open where
  | sequence (items : List Document)
  | mapping (entries : List (Option String × Document)) (key : Option String)

/-- What may come next. The end of a container is among it only in front of the first value or key
and behind a value. -/
inductive Expected where
  | value
  | valueOrEnd
  | key (entries : List (Option String × Document))
  | keyOrEnd
  | colon (entries : List (Option String × Document)) (key : Option String)
  | separator (last : Document)

/-- Where the reader stands, with the open containers, innermost first. -/
structure Progress where
  containers : List Open
  expected : Expected

namespace Progress

def start : Progress := ⟨[], .value⟩

def take? (p : Progress) (d : Document) : Option Progress :=
  match p.expected with
  | .value | .valueOrEnd => some { p with expected := .separator d }
  | _ => none

/-- One lexeme further. -/
def push? (p : Progress) : Lexeme → Option Progress
  | .text s =>
    match p.expected with
    | .key entries => some { p with expected := .colon entries s }
    | .keyOrEnd => some { p with expected := .colon [] s }
    | _ => p.take? ((s.map Document.text).getD .other)
  | .other => p.take? .other
  | .openSequence =>
    match p.expected with
    | .value | .valueOrEnd => some ⟨.sequence [] :: p.containers, .valueOrEnd⟩
    | _ => none
  | .openMapping =>
    match p.expected with
    | .value | .valueOrEnd => some { p with expected := .keyOrEnd }
    | _ => none
  | .colon =>
    match p.expected with
    | .colon entries key => some ⟨.mapping entries key :: p.containers, .value⟩
    | _ => none
  | .comma =>
    match p.expected, p.containers with
    | .separator d, .sequence items :: outer => some ⟨.sequence (d :: items) :: outer, .value⟩
    | .separator d, .mapping entries key :: outer => some ⟨outer, .key ((key, d) :: entries)⟩
    | _, _ => none
  | .closeSequence =>
    match p.expected, p.containers with
    | .valueOrEnd, .sequence _ :: outer => some ⟨outer, .separator (.sequence [])⟩
    | .separator d, .sequence items :: outer =>
      some ⟨outer, .separator (.sequence (d :: items).reverse)⟩
    | _, _ => none
  | .closeMapping =>
    match p.expected, p.containers with
    | .keyOrEnd, outer => some ⟨outer, .separator (.mapping [])⟩
    | .separator d, .mapping entries key :: outer =>
      some ⟨outer, .separator (.mapping ((key, d) :: entries).reverse)⟩
    | _, _ => none

/-- The document, once the text is at its end. -/
def finish? (p : Progress) : Option Document :=
  match p.containers, p.expected with
  | [], .separator d => some d
  | _, _ => none

def pushAll? (p : Progress) (xs : List Lexeme) : Option Progress := xs.foldlM push? p

end Progress

/-- The document that a text spells, if it is JSON. -/
def read? (s : List Char) : Option Document :=
  (lexemes? s).bind fun xs => (Progress.start.pushAll? xs).bind Progress.finish?

end Signpost.Json
