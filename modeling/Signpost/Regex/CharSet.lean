import Signpost.Unicode.Category
import Signpost.Unicode.CaseFold

/-!
Sets of characters as regular expressions build them: ranges and named classes, combined by the
set operations and closed under case.
-/

namespace Signpost.Regex

/-- A set of characters. `folded` adds all characters that differ in case only from one of the set,
`asciiFolded` only the ASCII counterparts of the other case. -/
inductive CharSet where
  | empty
  | range (first last : Char)
  | blank
  | digit
  | word
  | categories (groups : List Unicode.Category)
  | compl (a : CharSet)
  | union (a b : CharSet)
  | inter (a b : CharSet)
  | folded (a : CharSet)
  | asciiFolded (a : CharSet)
  deriving DecidableEq, Repr

namespace CharSet

def mem : CharSet → Char → Bool
  | empty, _ => false
  | range first last, c => first ≤ c && c ≤ last
  | blank, c => Unicode.isBlank c
  | digit, c => Unicode.isDecimalDigit c
  | word, c => Unicode.isWordChar c
  | categories groups, c => groups.contains (Unicode.category c)
  | compl a, c => !a.mem c
  | union a b, c => a.mem c || b.mem c
  | inter a b, c => a.mem c && b.mem c
  | folded a, c => a.mem c || (Unicode.caseVariants c).any a.mem
  | asciiFolded a, c => a.mem c || a.mem c.toLower || a.mem c.toUpper

def single (c : Char) : CharSet := range c c

def any : CharSet := compl empty

def diff (a b : CharSet) : CharSet := inter a (compl b)

def symmDiff (a b : CharSet) : CharSet := union (diff a b) (diff b a)

def unions : List CharSet → CharSet := List.foldr union empty

/-- The classes that have a name inside brackets, all within ASCII. -/
def named? (name : String) : Option CharSet :=
  let lower := range 'a' 'z'
  let upper := range 'A' 'Z'
  let digits := range '0' '9'
  match name with
  | "alnum" => some (unions [digits, upper, lower])
  | "alpha" => some (unions [upper, lower])
  | "ascii" => some (range '\x00' '\x7f')
  | "blank" => some (unions [single '\t', single ' '])
  | "cntrl" => some (unions [range '\x00' '\x1f', single '\x7f'])
  | "digit" => some digits
  | "graph" => some (range '!' '~')
  | "lower" => some lower
  | "print" => some (range ' ' '~')
  | "punct" => some (unions [range '!' '/', range ':' '@', range '[' '\x60', range '\x7b' '~'])
  | "space" => some (unions [range '\t' '\r', single ' '])
  | "upper" => some upper
  | "word" => some (unions [digits, upper, single '_', lower])
  | "xdigit" => some (unions [digits, range 'A' 'F', range 'a' 'f'])
  | _ => none

@[simp] theorem mem_compl (a : CharSet) (c : Char) : (compl a).mem c = !a.mem c := rfl

@[simp] theorem mem_union (a b : CharSet) (c : Char) :
    (union a b).mem c = (a.mem c || b.mem c) := rfl

@[simp] theorem mem_single (a c : Char) : (single a).mem c = true ↔ c = a := by
  simp only [single, mem, Bool.and_eq_true, decide_eq_true_eq]
  constructor
  · rintro ⟨h₁, h₂⟩
    exact Char.le_antisymm h₂ h₁
  · rintro rfl
    exact ⟨Char.le_refl c, Char.le_refl c⟩

end CharSet

end Signpost.Regex
