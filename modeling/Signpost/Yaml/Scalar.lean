import Signpost.Text.Percent
import Signpost.Yaml.Character

/-!
Scalars of YAML: plain words over one or more lines, texts between quotation marks of either kind,
and blocks of indented lines. Where lines are folded, a single line break is read as a blank, and
of several the first one is dropped.
-/

namespace Signpost.Yaml

/-! ### Gaps -/

/-- What lies between two words of a scalar: blanks within a line, or the end of a line, empty if it
is escaped, and the ends of further lines. -/
inductive Gap where
  | blanks (s : List Char)
  | lines (first further : List Char)
  deriving DecidableEq, Repr

namespace Gap

def none : Gap := .blanks []

def endsLine : Gap → Bool
  | blanks _ => false
  | lines _ _ => true

/-- The gap with one more blank; blanks at the beginning of a line do not count. -/
def blank (c : Char) : Gap → Gap
  | blanks s => blanks (s ++ [c])
  | lines first further => lines first further

/-- The gap with one more end of a line. -/
def lineBreak (c : Char) : Gap → Gap
  | blanks _ => lines [c] []
  | lines first further => lines first (further ++ [c])

/-- What a gap is read as. -/
def folded : Gap → List Char
  | blanks s => s
  | lines ['\n'] [] => [' ']
  | lines ['\n'] further => further
  | lines first further => first ++ further

end Gap

/-! ### Plain scalars -/

/-- Characters that structure sequences and mappings between brackets. -/
def isFlowMark (c : Char) : Bool := c == ',' || c == '[' || c == ']' || c == '\x7b' || c == '\x7d'

/-- A plain scalar: its text, and whether the scanner stopped in a line behind it. -/
structure Plain where
  text : List Char
  lineEnded : Bool
  deriving DecidableEq, Repr

/-- Reads a plain scalar; `gap` lies behind the part `acc`, which is backwards. In a block, lines
that begin left of the margin do not belong to it. -/
def readPlain (inFlow : Bool) (margin : Nat) :
    (place : Place) → Gap → (acc : List Char) → List Char → Option (Reading Plain)
  | p, gap, acc, [] => some ⟨⟨acc.reverse, gap.endsLine⟩, [], p⟩
  | p, gap, acc, c :: s =>
    let stop := some ⟨⟨acc.reverse, gap.endsLine⟩, c :: s, p⟩
    if isBlank c then
      if gap.endsLine && c == '\t' && p.column < margin then none
      else readPlain inFlow margin (p.right 1) (gap.blank c) acc s
    else if isBreak c then readPlain inFlow margin p.nextLine (gap.lineBreak c) acc s
    else if gap.endsLine && !inFlow && p.column < margin then stop
    else if p.column = 0 && gap.endsLine && atDocumentMark (c :: s) then stop
    else if c == '#' && gap != .none then stop
    else if inFlow && c == ':' && s.head?.any fun d => isFlowMark d || d == '?' then none
    else if c == ':' && atGap s || inFlow && isFlowMark c then stop
    else readPlain inFlow margin (p.right 1) .none (c :: (gap.folded.reverse ++ acc)) s

/-! ### Quoted scalars -/

/-- Reads a text between single quotation marks from behind the first one; two of them stand for
one in the text. -/
def readSingle : Place → Gap → (acc : List Char) → List Char → Option (Reading (List Char))
  | _, _, _, [] => none
  | p, gap, acc, c :: s =>
    if isBlank c then readSingle (p.right 1) (gap.blank c) acc s
    else if isBreak c then readSingle p.nextLine (gap.lineBreak c) acc s
    else if p.column = 0 && atDocumentMark (c :: s) then none
    else
      let acc := gap.folded.reverse ++ acc
      match c, s with
      | '\'', '\'' :: s => readSingle (p.right 2) .none ('\'' :: acc) s
      | '\'', s => some ⟨acc.reverse, s, p.right 1⟩
      | c, s => readSingle (p.right 1) .none (c :: acc) s

/-- How an escape is spelled out: by its letter, or by so many hexadecimal digits. -/
inductive Escape where
  | char (c : Char)
  | digits (n : Nat)
  deriving DecidableEq, Repr

def escape? (c : Char) : Option Escape :=
  match c with
  | '0' => some (.char '\x00')
  | 'a' => some (.char '\x07')
  | 'b' => some (.char '\x08')
  | 't' | '\t' => some (.char '\t')
  | 'n' => some (.char '\n')
  | 'v' => some (.char '\x0b')
  | 'f' => some (.char '\x0c')
  | 'r' => some (.char '\r')
  | 'e' => some (.char '\x1b')
  | ' ' | '"' | '/' | '\\' => some (.char c)
  | 'N' => some (.char '\x85')
  | '_' => some (.char '\xa0')
  | 'L' => some (.char '\u2028')
  | 'P' => some (.char '\u2029')
  | 'x' => some (.digits 2)
  | 'u' => some (.digits 4)
  | 'U' => some (.digits 8)
  | _ => none

def hexNumber? (digits : List Char) : Option Nat :=
  digits.foldlM (fun n c => (Percent.hexValue? c).map (n * 16 + ·)) 0

/-- The character that the first `n` hexadecimal digits spell. -/
def hexChar? (n : Nat) (s : List Char) : Option Char :=
  let digits := s.take n
  if digits.length < n then none
  else (hexNumber? digits).bind fun n => if n.isValidChar then some (Char.ofNat n) else none

/-- Reads a text between double quotation marks from behind the first one. A backslash at the end of
a line joins it with the next one without a blank. -/
def readDouble (p : Place) (gap : Gap) (acc : List Char) (s : List Char) :
    Option (Reading (List Char)) :=
  match s with
  | [] => none
  | c :: s =>
    if isBlank c then readDouble (p.right 1) (gap.blank c) acc s
    else if isBreak c then readDouble p.nextLine (gap.lineBreak c) acc s
    else if p.column = 0 && atDocumentMark (c :: s) then none
    else
      let acc := gap.folded.reverse ++ acc
      if c = '"' then some ⟨acc.reverse, s, p.right 1⟩
      else if c ≠ '\\' then readDouble (p.right 1) .none (c :: acc) s
      else
        match s with
        | [] => none
        | e :: s =>
          if isBreak e then readDouble p.nextLine (.lines [] []) acc s
          else
            match escape? e with
            | none => none
            | some (.char d) => readDouble (p.right 2) .none (d :: acc) s
            | some (.digits n) =>
              match hexChar? n s with
              | none => none
              | some d => readDouble (p.right (n + 2)) .none (d :: acc) (s.drop n)
termination_by s.length
decreasing_by all_goals simp only [List.length_cons, List.length_drop]; omega

/-! ### Block scalars -/

/-- What becomes of the line breaks at the end of a block: none, one or all of them are kept. -/
inductive Chomping where
  | strip
  | clip
  | keep
  deriving DecidableEq, Repr

/-- The head of a block: what becomes of the line breaks at its end, and the indentation, relative
to what is around, if it is told. -/
structure BlockHead where
  chomping : Chomping
  indent? : Option Nat
  deriving DecidableEq, Repr

def chomping? (c : Char) : Option Chomping :=
  match c with
  | '+' => some .keep
  | '-' => some .strip
  | _ => none

/-- The indentation that a digit tells, if it is one; it must not be 0. -/
def indentDigit? (c : Char) : Option Nat :=
  if c.isDigit then some (c.toNat - '0'.toNat) else none

/-- Reads the signs behind the mark of a block, in either order. -/
def readBlockHead : List Char → BlockHead × List Char
  | c :: s =>
    match chomping? c, indentDigit? c, s with
    | some k, _, d :: t =>
      match indentDigit? d with
      | some n => (⟨k, some n⟩, t)
      | none => (⟨k, none⟩, d :: t)
    | some k, _, [] => (⟨k, none⟩, [])
    | none, some n, d :: t =>
      match chomping? d with
      | some k => (⟨k, some n⟩, t)
      | none => (⟨.clip, some n⟩, d :: t)
    | none, some n, [] => (⟨.clip, some n⟩, [])
    | none, none, s => (⟨.clip, none⟩, c :: s)
  | [] => (⟨.clip, none⟩, [])

/-- The ends of empty lines, and the widest indentation met on the way. -/
structure EmptyLines where
  breaks : List Char
  widest : Nat
  deriving DecidableEq, Repr

/-- Passes indentation and empty lines. Without a limit all blanks are indentation; a tabulator
must not stand in it. -/
def skipEmptyLines (limit? : Option Nat) :
    Place → EmptyLines → List Char → Option (Reading EmptyLines)
  | p, l, [] => some ⟨⟨l.breaks, max l.widest p.column⟩, [], p⟩
  | p, l, c :: s =>
    let inside := limit?.all (p.column < ·)
    if inside && c == ' ' then skipEmptyLines limit? (p.right 1) l s
    else if inside && c == '\t' then none
    else if isBreak c then
      skipEmptyLines limit? p.nextLine ⟨l.breaks ++ [c], max l.widest p.column⟩ s
    else some ⟨⟨l.breaks, max l.widest p.column⟩, c :: s, p⟩

theorem length_skipEmptyLines {limit? : Option Nat} {p : Place} {l : EmptyLines} {s : List Char}
    {r : Reading EmptyLines} (h : skipEmptyLines limit? p l s = some r) :
    r.rest.length ≤ s.length := by
  induction s generalizing p l with
  | nil => cases h; exact Nat.le_refl _
  | cons c s ih =>
    simp only [skipEmptyLines] at h
    split at h
    · exact Nat.le_succ_of_le (ih h)
    · split at h
      · cases h
      · split at h
        · exact Nat.le_succ_of_le (ih h)
        · cases h; exact Nat.le_refl _

/-- The lines of a block read so far: the text without the end of its last line, this end, whether
the last line began with a blank, and the ends of the empty lines behind it. -/
structure BlockText where
  text : List Char
  lastBreak : List Char
  lastBlank : Bool
  further : List Char
  deriving DecidableEq, Repr

/-- The text with one more line. Folding spares lines that begin with a blank. -/
def BlockText.addLine (b : BlockText) (fold : Bool) (line : List Char) : List Char :=
  let blank := line.head?.any isBlank
  if fold && b.lastBreak == ['\n'] && !b.lastBlank && !blank then
    b.text ++ (if b.further = [] then [' '] else b.further) ++ line
  else b.text ++ b.lastBreak ++ b.further ++ line

def readBlockLines (fold : Bool) (indent : Nat) (p : Place) (b : BlockText) (s : List Char) :
    Option (Reading BlockText) :=
  match s with
  | [] => some ⟨b, [], p⟩
  | c :: s =>
    if p.column ≠ indent then some ⟨b, c :: s, p⟩
    else
      let line := c :: s.takeWhile (!isBreak ·)
      let text := b.addLine fold line
      match _hr : s.dropWhile (!isBreak ·) with
      | [] => some ⟨⟨text, [], isBlank c, []⟩, [], p.right line.length⟩
      | e :: rest =>
        match h : skipEmptyLines (some indent) p.nextLine ⟨[], 0⟩ rest with
        | none => none
        | some r =>
          have := length_skipEmptyLines h
          have := (List.dropWhile_sublist (l := s) (!isBreak ·)).length_le
          readBlockLines fold indent r.place ⟨text, [e], isBlank c, r.value.breaks⟩ r.rest
termination_by s.length
decreasing_by simp_all only [List.length_cons]; omega

/-- Reads a block scalar from behind its mark; what is around has its margin. -/
def readBlock (fold : Bool) (margin : Nat) (p : Place) (s : List Char) :
    Option (Reading (List Char)) :=
  let (head, afterHead) := readBlockHead s
  let afterBlanks := afterHead.dropWhile isBlank
  let atEnd :=
    match afterBlanks with
    | '#' :: _ => afterBlanks.dropWhile (!isBreak ·)
    | _ => afterBlanks
  if head.indent? = some 0 || !atEnd.head?.all isBreak then none
  else
    let start := if atEnd = [] then p.right s.length else p.nextLine
    let limit? := head.indent?.map (margin - 1 + ·)
    match skipEmptyLines limit? start ⟨[], 0⟩ (atEnd.drop 1) with
    | none => none
    | some r =>
      let indent := limit?.getD (max r.value.widest (max margin 1))
      match readBlockLines fold indent r.place ⟨[], [], false, r.value.breaks⟩ r.rest with
      | none => none
      | some r =>
        let b := r.value
        let text :=
          match head.chomping with
          | .strip => b.text
          | .clip => b.text ++ b.lastBreak
          | .keep => b.text ++ b.lastBreak ++ b.further
        some ⟨text, r.rest, r.place⟩

end Signpost.Yaml
