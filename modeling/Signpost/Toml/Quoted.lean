import Signpost.Text.Percent

/-!
Quoted texts of TOML: in double or single quotation marks, and in three of them over several lines.
Backslashes escape only between double ones. Of several lines a line break right behind the opening
marks does not count, and a backslash at the end of a line takes the blanks that follow with it.
-/

namespace Signpost.Toml

def isBlank (c : Char) : Bool := c == ' ' || c == '\t'

/-- Characters that may stand in a text or comment: all but control characters. -/
def isPlain (c : Char) : Bool := c == '\t' || (0x20 ≤ c.toNat && c.toNat != 0x7F)

def lineBreak? : List Char → Option (List Char)
  | '\n' :: s => some s
  | '\r' :: '\n' :: s => some s
  | _ => none

def skipSpace : List Char → List Char
  | '\r' :: '\n' :: s => skipSpace s
  | c :: s => if isBlank c || c == '\n' then skipSpace s else c :: s
  | [] => []

theorem length_skipSpace (s : List Char) : (skipSpace s).length ≤ s.length := by
  fun_induction skipSpace s with
  | case1 s ih => simp only [List.length_cons]; omega
  | case2 c s _ _ ih => simp only [List.length_cons]; omega
  | case3 => exact Nat.le_refl _
  | case4 => exact Nat.le_refl _

/-- The character that a letter behind a backslash stands for. -/
def unescape? (c : Char) : Option Char :=
  match c with
  | '"' | '\\' => some c
  | 'b' => some '\x08'
  | 't' => some '\t'
  | 'n' => some '\n'
  | 'f' => some '\x0c'
  | 'r' => some '\r'
  | _ => none

def hexNumber? (digits : List Char) : Option Nat :=
  digits.foldlM (fun n c => (Percent.hexValue? c).map (n * 16 + ·)) 0

def readHex (n : Nat) (s : List Char) : Option (Char × List Char) :=
  let digits := s.take n
  if digits.length < n then none
  else
    (hexNumber? digits).bind fun k =>
      if k.isValidChar then some (Char.ofNat k, s.drop n) else none

def readEscape : List Char → Option (Char × List Char)
  | 'u' :: s => readHex 4 s
  | 'U' :: s => readHex 8 s
  | c :: s => (unescape? c).map fun d => (d, s)
  | [] => none

theorem length_readHex {n : Nat} {s rest : List Char} {c : Char}
    (h : readHex n s = some (c, rest)) : rest.length ≤ s.length := by
  unfold readHex at h
  simp only at h
  split at h
  · cases h
  · obtain ⟨k, _, h⟩ := Option.bind_eq_some_iff.mp h
    split at h
    · cases h
      simp
    · cases h

theorem length_readEscape {s rest : List Char} {c : Char} (h : readEscape s = some (c, rest)) :
    rest.length < s.length := by
  unfold readEscape at h
  split at h
  · exact Nat.lt_succ_of_le (length_readHex h)
  · exact Nat.lt_succ_of_le (length_readHex h)
  · obtain ⟨d, _, e⟩ := Option.map_eq_some_iff.mp h
    cases e
    exact Nat.lt_succ_self _
  · cases h

def prepend (c : Char) (x : Option (List Char × List Char)) : Option (List Char × List Char) :=
  x.map fun (text, rest) => (c :: text, rest)

def readBasic (s : List Char) : Option (List Char × List Char) :=
  match s with
  | [] => none
  | '"' :: s => some ([], s)
  | '\\' :: s =>
    match h : readEscape s with
    | none => none
    | some (c, rest) =>
      have := length_readEscape h
      prepend c (readBasic rest)
  | c :: s => if isPlain c then prepend c (readBasic s) else none
termination_by s.length
decreasing_by all_goals simp only [List.length_cons]; omega

def readLiteral : List Char → Option (List Char × List Char)
  | [] => none
  | c :: s =>
    if c = '\'' then some ([], s)
    else if isPlain c then prepend c (readLiteral s)
    else none

/-- Up to two quotation marks in front of the three closing ones belong to the text. -/
def closeLines (quote : Char) : List Char → List Char × List Char
  | c :: d :: s =>
    if c = quote ∧ d = quote then ([quote, quote], s)
    else if c = quote then ([quote], d :: s)
    else ([], c :: d :: s)
  | [c] => if c = quote then ([quote], []) else ([], [c])
  | [] => ([], [])

/-- Reads a text over several lines between double quotation marks. -/
def readBasicLines (s : List Char) : Option (List Char × List Char) :=
  match s with
  | [] => none
  | '"' :: '"' :: '"' :: s => some (closeLines '"' s)
  | '\r' :: '\n' :: s => prepend '\n' (readBasicLines s)
  | '\n' :: s => prepend '\n' (readBasicLines s)
  | '\\' :: s =>
    match _hb : lineBreak? (s.dropWhile isBlank) with
    | some _ => readBasicLines (skipSpace s)
    | none =>
      match h : readEscape s with
      | none => none
      | some (c, rest) =>
        have := length_readEscape h
        prepend c (readBasicLines rest)
  | c :: s => if isPlain c then prepend c (readBasicLines s) else none
termination_by s.length
decreasing_by
  all_goals simp only [List.length_cons]
  all_goals have := length_skipSpace s
  all_goals omega

/-- Reads a text over several lines between single quotation marks. -/
def readLiteralLines : List Char → Option (List Char × List Char)
  | '\'' :: '\'' :: '\'' :: s => some (closeLines '\'' s)
  | '\r' :: '\n' :: s => prepend '\n' (readLiteralLines s)
  | c :: s => if isPlain c || c == '\n' then prepend c (readLiteralLines s) else none
  | [] => none

/-- Reads a text in quotation marks of any kind, the opening ones included. -/
def readText : List Char → Option (List Char × List Char)
  | '"' :: '"' :: '"' :: s => readBasicLines ((lineBreak? s).getD s)
  | '\'' :: '\'' :: '\'' :: s => readLiteralLines ((lineBreak? s).getD s)
  | '"' :: s => readBasic s
  | '\'' :: s => readLiteral s
  | _ => none

end Signpost.Toml
