/-!
Cutting and joining character lists: trimming one character off both ends, splitting at a
character, and replacing every occurrence of a word.
-/

namespace Signpost.Text

def trimWhile (p : Char → Bool) (s : List Char) : List Char :=
  ((s.dropWhile p).reverse.dropWhile p).reverse

/-- The text without its outer slashes. Paths and templates are compared in this form. -/
def trimSlashes (s : List Char) : List Char := trimWhile (· == '/') s

/-- Cuts at the first occurrence of `sep`, which belongs to neither half. -/
def cutAt? (sep : Char) : List Char → Option (List Char × List Char)
  | [] => none
  | c :: s =>
    if c = sep then some ([], s)
    else (cutAt? sep s).map fun (before, after) => (c :: before, after)

/-- The parts between the occurrences of `sep`: always one more part than separators. -/
def splitAll (sep : Char) : List Char → List (List Char)
  | [] => [[]]
  | c :: s =>
    if c = sep then [] :: splitAll sep s
    else
      match splitAll sep s with
      | [] => [[c]]
      | part :: parts => (c :: part) :: parts

def joinWith (sep : List Char) : List (List Char) → List Char
  | [] => []
  | [part] => part
  | part :: parts => part ++ sep ++ joinWith sep parts

/-- The loop of `replaceAll`; `skip` counts the characters of an occurrence still to be dropped. -/
def replaceFrom (word replacement : List Char) : Nat → List Char → List Char
  | _, [] => []
  | skip + 1, _ :: s => replaceFrom word replacement skip s
  | 0, c :: s =>
    if word.isPrefixOf (c :: s) then
      replacement ++ replaceFrom word replacement (word.length - 1) s
    else c :: replaceFrom word replacement 0 s

/-- Every occurrence of the non-empty `word`, found from left to right without overlap, replaced.
What was put in is not searched again. -/
def replaceAll (word replacement s : List Char) : List Char := replaceFrom word replacement 0 s

/-- The text followed by blanks up to `width` characters; longer text is left as it is. -/
def padRight (width : Nat) (s : List Char) : List Char :=
  s ++ List.replicate (width - s.length) ' '

/-- Letters of the ASCII alphabet in upper case, all else unchanged. -/
def upperAscii (s : String) : String := String.ofList (s.toList.map Char.toUpper)

def lowerAscii (s : String) : String := String.ofList (s.toList.map Char.toLower)

def sameIgnoringCase (s t : String) : Bool := lowerAscii s == lowerAscii t

/-! ### First laws -/

theorem joinWith_cons (sep part : List Char) {parts : List (List Char)} (h : parts ≠ []) :
    joinWith sep (part :: parts) = part ++ sep ++ joinWith sep parts := by
  cases parts with
  | nil => exact absurd rfl h
  | cons p ps => rfl

theorem splitAll_ne_nil (sep : Char) (s : List Char) : splitAll sep s ≠ [] := by
  cases s with
  | nil => simp [splitAll]
  | cons c s =>
    simp only [splitAll]
    split
    · simp
    · split <;> simp

end Signpost.Text
