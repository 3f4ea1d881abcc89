import Signpost.Regex.Expr
import Signpost.Text.Percent

/-!
The flags under which an expression is read, and what they make of single characters. In verbose
mode blanks and comments between the parts of an expression count for nothing.
-/

namespace Signpost.Regex

/-- Why a text is no regular expression. `notText` is a part that would match less than whole
characters, `tooLarge` an expression whose counted repetitions are too large when written out. -/
inductive SyntaxError where
  | unfinishedEscape
  | unknownEscape
  | backReference
  | badCharacterNumber
  | unknownProperty
  | unknownBoundary
  | unclosedBracket
  | badRange
  | notInBracket
  | unclosedGroup
  | unopenedGroup
  | lookAround
  | badGroupName
  | repeatedGroupName
  | badFlag
  | nothingToRepeat
  | badCount
  | notText
  | tooLarge
  deriving DecidableEq, Repr

/-- How an expression is read: case does not count, `^` and `$` match at line ends too, `.` matches
a line feed too, a carriage return ends lines too, repetitions are lazy unless marked, classes are
those of all scripts, blanks and comments count for nothing. -/
structure Flags where
  ignoreCase : Bool := false
  multiLine : Bool := false
  dotNewline : Bool := false
  crlf : Bool := false
  swapGreed : Bool := false
  unicode : Bool := true
  verbose : Bool := false
  deriving DecidableEq, Repr

/-- The text without the blanks and comments in front; `inComment` says that a comment has begun. -/
def skipVerbose : (inComment : Bool) → List Char → List Char
  | _, [] => []
  | true, c :: s => skipVerbose (c != '\n') s
  | false, c :: s =>
    if Unicode.isBlank c then skipVerbose false s
    else if c = '#' then skipVerbose true s
    else c :: s

theorem length_skipVerbose (b : Bool) (s : List Char) : (skipVerbose b s).length ≤ s.length := by
  induction s generalizing b with
  | nil => cases b <;> simp [skipVerbose]
  | cons c s ih =>
    cases b with
    | true =>
      have := ih (c != '\n')
      simp only [skipVerbose, List.length_cons]
      omega
    | false =>
      have h₁ := ih false
      have h₂ := ih true
      simp only [skipVerbose]
      split
      · simp only [List.length_cons]; omega
      · split
        · simp only [List.length_cons]; omega
        · exact Nat.le_refl _

namespace Flags

/-- The text from where the next part of an expression begins. -/
def skip (f : Flags) (s : List Char) : List Char :=
  if f.verbose then skipVerbose false s else s

theorem length_skip (f : Flags) (s : List Char) : (f.skip s).length ≤ s.length := by
  unfold skip
  split
  · exact length_skipVerbose false s
  · exact Nat.le_refl _

@[simp] theorem skip_of_not_verbose {f : Flags} (h : f.verbose = false) (s : List Char) :
    f.skip s = s := by
  simp [skip, h]

def caseClosed (f : Flags) (a : CharSet) : CharSet :=
  if f.ignoreCase then if f.unicode then .folded a else .asciiFolded a else a

def literal (f : Flags) (c : Char) : Expr :=
  if f.unicode || c.toNat < 0x80 then .set (f.caseClosed (.single c)) else .set (.single c)

/-- What `.` matches: any character, or any but those that end lines. -/
def dot (f : Flags) : Except SyntaxError Expr :=
  if !f.unicode then .error .notText
  else if f.dotNewline then .ok (.set .any)
  else if f.crlf then .ok (.set (.compl (.union (.single '\n') (.single '\r'))))
  else .ok (.set (.compl (.single '\n')))

def lineStart (f : Flags) : Look :=
  if f.multiLine then if f.crlf then .anyLineStart else .lineStart else .textStart

def lineEnd (f : Flags) : Look :=
  if f.multiLine then if f.crlf then .anyLineEnd else .lineEnd else .textEnd

def wordChars (f : Flags) : CharSet :=
  if f.unicode then .word
  else .unions [.range '0' '9', .range 'A' 'Z', .single '_', .range 'a' 'z']

def letterClass? (f : Flags) : Char → Option CharSet
  | 'd' => some (if f.unicode then .digit else .range '0' '9')
  | 's' => some (if f.unicode then .blank else .union (.range '\t' '\r') (.single ' '))
  | 'w' => some f.wordChars
  | _ => none

/-- Refuses a set that has characters past ASCII where classes are those of ASCII. -/
def checkText (f : Flags) (a : CharSet) : Except SyntaxError CharSet :=
  if !f.unicode && (List.range 0x80).any fun n => a.mem (Char.ofNat (n + 0x80)) then
    .error .notText
  else .ok a

end Flags

end Signpost.Regex
