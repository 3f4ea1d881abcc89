import Signpost.Text.Percent

/-!
The lexemes of JSON: marks, words, numbers and texts, with what is written for each and how each is
read. In a text, a character outside the basic plane may be spelled as two escapes, a pair of
surrogates; half a pair spells no character.
-/

namespace Signpost.Json

/-- The smallest parts of a JSON text. A text is `none` if half a surrogate pair stands in it;
`other` is a number, a truth value or null. -/
inductive Lexeme where
  | openMapping
  | closeMapping
  | openSequence
  | closeSequence
  | comma
  | colon
  | text (value : Option String)
  | other
  deriving DecidableEq, Repr

/-! ### Writing texts -/

def hexDigit (n : Nat) : Char := Char.ofNat (if n < 10 then 0x30 + n else 0x57 + n)

/-- A character as it stands between quotation marks: marks, backslashes and control characters
are escaped. -/
def escapeChar (c : Char) : List Char :=
  if c = '"' then ['\\', '"']
  else if c = '\\' then ['\\', '\\']
  else if c = '\x08' then ['\\', 'b']
  else if c = '\x0c' then ['\\', 'f']
  else if c = '\n' then ['\\', 'n']
  else if c = '\r' then ['\\', 'r']
  else if c = '\t' then ['\\', 't']
  else if c.toNat < 0x20 then
    ['\\', 'u', '0', '0', hexDigit (c.toNat / 16), hexDigit (c.toNat % 16)]
  else [c]

def escape (s : List Char) : List Char := s.flatMap escapeChar

def quote (s : String) : List Char := '"' :: (escape s.toList ++ ['"'])

/-- What is written for a lexeme; what is no text or mark is written as null. -/
def Lexeme.written : Lexeme → List Char
  | openMapping => ['\x7b']
  | closeMapping => ['\x7d']
  | openSequence => ['[']
  | closeSequence => [']']
  | comma => [',']
  | colon => [':']
  | text (some s) => quote s
  | text none | other => "null".toList

/-! ### Reading texts -/

/-- The character that a letter behind a backslash stands for. -/
def unescape? (c : Char) : Option Char :=
  match c with
  | '"' | '\\' | '/' => some c
  | 'b' => some '\x08'
  | 'f' => some '\x0c'
  | 'n' => some '\n'
  | 'r' => some '\r'
  | 't' => some '\t'
  | _ => none

def hexNumber? (a b c d : Char) : Option Nat :=
  match Percent.hexValue? a, Percent.hexValue? b, Percent.hexValue? c, Percent.hexValue? d with
  | some a, some b, some c, some d => some (((a * 16 + b) * 16 + c) * 16 + d)
  | _, _, _, _ => none

/-- Reads up to the closing quotation mark: the numbers of characters and surrogates, and the text
behind. Control characters must be escaped. -/
def readUnits : List Char → Option (List Nat × List Char)
  | [] => none
  | '"' :: s => some ([], s)
  | '\\' :: 'u' :: a :: b :: c :: d :: s =>
    match hexNumber? a b c d with
    | none => none
    | some n => (readUnits s).map fun (units, rest) => (n :: units, rest)
  | '\\' :: e :: s =>
    match unescape? e with
    | none => none
    | some c => (readUnits s).map fun (units, rest) => (c.toNat :: units, rest)
  | c :: s =>
    if c.toNat < 0x20 || c == '\\' then none
    else (readUnits s).map fun (units, rest) => (c.toNat :: units, rest)

/-- The characters that numbers spell, where two surrogates, the leading one first, spell one
character. -/
def charsOfUnits? : List Nat → Option (List Char)
  | [] => some []
  | [n] => if n.isValidChar then some [Char.ofNat n] else none
  | n :: m :: units =>
    if n.isValidChar then (charsOfUnits? (m :: units)).map (Char.ofNat n :: ·)
    else if n < 0xDC00 && 0xDC00 ≤ m && m < 0xE000 then
      (charsOfUnits? units).map
        (Char.ofNat (0x10000 + (n - 0xD800) * 0x400 + (m - 0xDC00)) :: ·)
    else none

def readText (s : List Char) : Option (Lexeme × List Char) :=
  (readUnits s).map fun (units, rest) => (.text ((charsOfUnits? units).map String.ofList), rest)

/-! ### Reading numbers -/

def skipDigits? : List Char → Option (List Char)
  | c :: s => if c.isDigit then some (s.dropWhile Char.isDigit) else none
  | [] => none

/-- The text behind a whole number, which has no leading zeros. -/
def skipWhole? : List Char → Option (List Char)
  | '0' :: s => some s
  | s => skipDigits? s

def skipFraction? : List Char → Option (List Char)
  | '.' :: s => skipDigits? s
  | s => some s

def skipSign : List Char → List Char
  | '+' :: s | '-' :: s => s
  | s => s

def skipExponent? : List Char → Option (List Char)
  | 'e' :: s | 'E' :: s => skipDigits? (skipSign s)
  | s => some s

/-- The text behind a number without its sign. -/
def skipNumber? (s : List Char) : Option (List Char) :=
  ((skipWhole? s).bind skipFraction?).bind skipExponent?

/-! ### Reading lexemes -/

def skipWord? (word s : List Char) : Option (List Char) :=
  if word.isPrefixOf s then some (s.drop word.length) else none

def isBlank (c : Char) : Bool := c == ' ' || c == '\n' || c == '\t' || c == '\r'

/-- Reads the lexeme that starts with `c`. -/
def readLexeme (c : Char) (s : List Char) : Option (Lexeme × List Char) :=
  match c with
  | '\x7b' => some (.openMapping, s)
  | '\x7d' => some (.closeMapping, s)
  | '[' => some (.openSequence, s)
  | ']' => some (.closeSequence, s)
  | ',' => some (.comma, s)
  | ':' => some (.colon, s)
  | '"' => readText s
  | 'n' => (skipWord? "ull".toList s).map (.other, ·)
  | 't' => (skipWord? "rue".toList s).map (.other, ·)
  | 'f' => (skipWord? "alse".toList s).map (.other, ·)
  | '-' => (skipNumber? s).map (.other, ·)
  | c => (skipNumber? (c :: s)).map (.other, ·)

theorem length_readUnits {s rest : List Char} {units : List Nat}
    (h : readUnits s = some (units, rest)) : rest.length < s.length := by
  fun_induction readUnits s generalizing units rest with
  | case1 => cases h
  | case2 s => cases h; simp
  | case3 => cases h
  | case4 a b c d s n hn ih =>
    obtain ⟨⟨u, r⟩, hr, e⟩ := Option.map_eq_some_iff.mp h
    cases e
    have := ih hr
    simp only [List.length_cons]
    omega
  | case5 => cases h
  | case6 e s c hc hx ih =>
    obtain ⟨⟨u, r⟩, hr, e⟩ := Option.map_eq_some_iff.mp h
    cases e
    have := ih hr
    simp only [List.length_cons]
    omega
  | case7 => cases h
  | case8 c s _ _ _ _ ih =>
    obtain ⟨⟨u, r⟩, hr, e⟩ := Option.map_eq_some_iff.mp h
    cases e
    have := ih hr
    simp only [List.length_cons]
    omega

theorem length_skipDigits? {s rest : List Char} (h : skipDigits? s = some rest) :
    rest.length < s.length := by
  cases s with
  | nil => cases h
  | cons c s =>
    simp only [skipDigits?] at h
    split at h
    · cases h
      exact Nat.lt_succ_of_le (List.dropWhile_sublist _).length_le
    · cases h

theorem length_skipWhole? {s rest : List Char} (h : skipWhole? s = some rest) :
    rest.length < s.length := by
  unfold skipWhole? at h
  split at h
  · cases h; simp
  · exact length_skipDigits? h

theorem length_skipFraction? {s rest : List Char} (h : skipFraction? s = some rest) :
    rest.length ≤ s.length := by
  unfold skipFraction? at h
  split at h
  · have := length_skipDigits? h
    simp only [List.length_cons]
    omega
  · cases h; exact Nat.le_refl _

theorem length_skipSign (s : List Char) : (skipSign s).length ≤ s.length := by
  unfold skipSign
  split <;> simp

theorem length_skipExponent? {s rest : List Char} (h : skipExponent? s = some rest) :
    rest.length ≤ s.length := by
  unfold skipExponent? at h
  split at h
  · rename_i t
    have := length_skipDigits? h
    have := length_skipSign t
    simp only [List.length_cons]
    omega
  · rename_i t
    have := length_skipDigits? h
    have := length_skipSign t
    simp only [List.length_cons]
    omega
  · cases h; exact Nat.le_refl _

theorem length_skipNumber? {s rest : List Char} (h : skipNumber? s = some rest) :
    rest.length < s.length := by
  obtain ⟨t, ht, h⟩ := Option.bind_eq_some_iff.mp h
  obtain ⟨u, hu, ht⟩ := Option.bind_eq_some_iff.mp ht
  have := length_skipWhole? hu
  have := length_skipFraction? ht
  have := length_skipExponent? h
  omega

theorem length_skipWord? {word s rest : List Char} (h : skipWord? word s = some rest) :
    rest.length ≤ s.length := by
  unfold skipWord? at h
  split at h
  · cases h
    simp
  · cases h

/-- A lexeme has at least one character. -/
theorem length_readLexeme {c : Char} {s rest : List Char} {x : Lexeme}
    (h : readLexeme c s = some (x, rest)) : rest.length ≤ s.length := by
  unfold readLexeme at h
  split at h
  case h_7 =>
    obtain ⟨⟨units, r⟩, hr, e⟩ := Option.map_eq_some_iff.mp h
    cases e
    exact Nat.le_of_lt (length_readUnits hr)
  case h_8 | h_9 | h_10 =>
    obtain ⟨r, hr, e⟩ := Option.map_eq_some_iff.mp h
    cases e
    exact length_skipWord? hr
  case h_11 =>
    obtain ⟨r, hr, e⟩ := Option.map_eq_some_iff.mp h
    cases e
    exact Nat.le_of_lt (length_skipNumber? hr)
  case h_12 =>
    obtain ⟨r, hr, e⟩ := Option.map_eq_some_iff.mp h
    cases e
    exact Nat.le_of_lt_succ (length_skipNumber? hr)
  all_goals
    cases h
    exact Nat.le_refl _

def lexemes? : List Char → Option (List Lexeme)
  | [] => some []
  | c :: s =>
    if isBlank c then lexemes? s
    else
      match h : readLexeme c s with
      | none => none
      | some (x, rest) =>
        have := length_readLexeme h
        (lexemes? rest).map (x :: ·)
termination_by s => s.length
decreasing_by all_goals simp only [List.length_cons]; omega

end Signpost.Json
