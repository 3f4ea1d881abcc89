import Signpost.Regex.Flags

/-!
Escapes: what a backslash and the characters behind it stand for. A reader takes the text from
where it stands and gives back what it read and the text behind it; no reader gives back a longer
text.
-/

namespace Signpost.Regex

/-- What a reader read and the text behind it, or why it could not. -/
abbrev Read (α : Type) := Except SyntaxError (α × List Char)

/-- Makes something else of what was read, if it can. -/
def Read.refine {α β : Type} (x : Read α) (g : α → Except SyntaxError β) : Read β :=
  match x with
  | .error e => .error e
  | .ok (a, rest) =>
    match g a with
    | .error e => .error e
    | .ok b => .ok (b, rest)

theorem Read.refine_eq_ok {α β : Type} {x : Read α} {g : α → Except SyntaxError β} {b : β}
    {rest : List Char} : x.refine g = .ok (b, rest) ↔ ∃ a, x = .ok (a, rest) ∧ g a = .ok b := by
  cases x with
  | error e => simp [refine]
  | ok p =>
    obtain ⟨a, r⟩ := p
    cases h : g a with
    | error e => simp [refine, h]
    | ok b' =>
      simp only [refine, h, Except.ok.injEq, Prod.mk.injEq]
      constructor
      · rintro ⟨rfl, rfl⟩
        exact ⟨a, ⟨rfl, rfl⟩, h⟩
      · rintro ⟨_, ⟨rfl, rfl⟩, h'⟩
        exact ⟨Except.ok.inj (h.symm.trans h'), rfl⟩

/-- What an escape or a plain character can stand for. -/
inductive Atom where
  | char (c : Char)
  | set (chars : CharSet)
  | look (cond : Look)
  deriving DecidableEq, Repr

/-- Characters that have a meaning of their own and lose it behind a backslash. -/
def isMeta (c : Char) : Bool := "\\.+*?()|[]\x7b\x7d^$#&-~".toList.contains c

/-- Characters that may stand behind a backslash for themselves: those of ASCII but letters,
digits and angle brackets. -/
def isEscapable (c : Char) : Bool :=
  c.toNat < 0x80 && !c.isAlphanum && c != '<' && c != '>'

def charNumbered (n : Nat) : Except SyntaxError Char :=
  if n.isValidChar then .ok (Char.ofNat n) else .error .badCharacterNumber

/-- The characters up to the closing brace and the text behind it; what verbose mode skips does not
count, and `inComment` says that a comment has begun. -/
def readBraced (f : Flags) : (inComment : Bool) → List Char → Option (List Char × List Char)
  | _, [] => none
  | true, c :: s => readBraced f (c != '\n') s
  | false, c :: s =>
    if f.verbose && Unicode.isBlank c then readBraced f false s
    else if f.verbose && c == '#' then readBraced f true s
    else if c = '\x7d' then some ([], s)
    else (readBraced f false s).map fun (name, rest) => (c :: name, rest)

def hexNumber : (acc : Nat) → List Char → Except SyntaxError Nat
  | acc, [] => .ok acc
  | acc, c :: s =>
    match Percent.hexValue? c with
    | some d => hexNumber (acc * 16 + d) s
    | none => .error .badCharacterNumber

/-- The next `n` characters that verbose mode does not skip. -/
def readChars (f : Flags) : (n : Nat) → List Char → Read (List Char)
  | 0, s => .ok ([], s)
  | _ + 1, [] => .error .unfinishedEscape
  | n + 1, c :: s => (readChars f n (f.skip s)).refine fun cs => .ok (c :: cs)

/-- Reads a character number of `n` hexadecimal digits, or of one or more of them in braces. -/
def readHex (f : Flags) (n : Nat) (s : List Char) : Read Char :=
  let digits : Read (List Char) :=
    match f.skip s with
    | '\x7b' :: t =>
      match readBraced f false t with
      | none => .error .unfinishedEscape
      | some ([], _) => .error .badCharacterNumber
      | some (digits, rest) => .ok (digits, rest)
    | t => readChars f n t
  digits.refine fun digits => (hexNumber 0 digits).bind charNumbered

/-- A property name as names are compared: lower case, without separators, and without a leading
"is". -/
def propertyKey (name : List Char) : String :=
  let key :=
    (name.filter fun c => c != ' ' && c != '_' && c != '-' && c.toNat < 0x80).map Char.toLower
  match key with
  | 'i' :: 's' :: rest => String.ofList (if rest = ['c'] then key else rest)
  | _ => String.ofList key

/-- The characters that have a property: a general category, or one of a few sets with a name.
Scripts and the binary properties of Unicode are not among these, and patterns that name them are
refused. -/
def property? (key : String) : Option CharSet :=
  match key with
  | "any" => some .any
  | "ascii" => some (.range '\x00' '\x7f')
  | "assigned" => some (.compl (.categories [.unassigned]))
  | "whitespace" | "wspace" | "space" => some .blank
  | _ => (Unicode.categoriesNamed? key).map .categories

/-- The characters that a property query asks for: a name, or a general category by its name and
value. A script by its name and value is refused. -/
def propertyQuery? (query : List Char) : Option CharSet :=
  let value (key value : List Char) : Option CharSet :=
    if propertyKey key ∈ ["gc", "generalcategory"] then property? (propertyKey value) else none
  match Text.cutAt? '=' query, Text.cutAt? ':' query with
  | some (before, after), colon =>
    if before.getLast? = some '!' then (value before.dropLast after).map .compl
    else
      let (before, after) := colon.getD (before, after)
      value before after
  | none, some (before, after) => value before after
  | none, none => property? (propertyKey query)

def readQuery (f : Flags) (s : List Char) : Read (List Char) :=
  match f.skip s with
  | [] => .error .unfinishedEscape
  | c :: t =>
    if c = '\x7b' then
      match readBraced f false t with
      | none => .error .unfinishedEscape
      | some (query, rest) => .ok (query, rest)
    else if c = '\\' then .error .unknownProperty
    else .ok ([c], f.skip t)

def propertyClass (f : Flags) (negated : Bool) (query : List Char) : Except SyntaxError CharSet :=
  if !f.unicode then .error .notText
  else
    match propertyQuery? query with
    | some a => .ok (if negated then .compl (f.caseClosed a) else f.caseClosed a)
    | none => .error .unknownProperty

/-- The kind of word boundary that a name in braces stands for. -/
def boundaryNamed (words : CharSet) (name : List Char) : Except SyntaxError Look :=
  match String.ofList name with
  | "start" => .ok (.wordStart words)
  | "end" => .ok (.wordEnd words)
  | "start-half" => .ok (.notAfterWord words)
  | "end-half" => .ok (.notBeforeWord words)
  | _ => .error .unknownBoundary

/-- Reads the kind of a word boundary from braces behind it; braces that begin with something else
than a letter or hyphen are left for a repetition. -/
def readBoundary (f : Flags) (s : List Char) : Read Look :=
  match s with
  | '\x7b' :: t =>
    match f.skip t with
    | [] => .error .nothingToRepeat
    | c :: _ =>
      if c.isAlpha || c == '-' then
        match readBraced f false t with
        | none => .error .unknownBoundary
        | some (name, rest) =>
          match boundaryNamed f.wordChars name with
          | .error e => .error e
          | .ok l => .ok (l, rest)
      else .ok (.boundary f.wordChars, s)
  | _ => .ok (.boundary f.wordChars, s)

def letterEscape? (f : Flags) : Char → Option Atom
  | 'a' => some (.char '\x07')
  | 'f' => some (.char '\x0c')
  | 't' => some (.char '\t')
  | 'n' => some (.char '\n')
  | 'r' => some (.char '\r')
  | 'v' => some (.char '\x0b')
  | 'A' => some (.look .textStart)
  | 'z' => some (.look .textEnd)
  | 'B' => some (.look (.noBoundary f.wordChars))
  | '<' => some (.look (.wordStart f.wordChars))
  | '>' => some (.look (.wordEnd f.wordChars))
  | c => (f.letterClass? c).map .set

/-- Reads what letters behind a backslash stand for together with what follows them. -/
def readLongEscape (f : Flags) (c : Char) (s : List Char) : Read Atom :=
  match c with
  | 'x' => (readHex f 2 s).refine fun x => .ok (.char x)
  | 'u' => (readHex f 4 s).refine fun x => .ok (.char x)
  | 'U' => (readHex f 8 s).refine fun x => .ok (.char x)
  | 'p' => ((readQuery f s).refine (propertyClass f false)).refine fun a => .ok (.set a)
  | 'P' => ((readQuery f s).refine (propertyClass f true)).refine fun a => .ok (.set a)
  | 'b' => (readBoundary f s).refine fun l => .ok (.look l)
  | _ =>
    match f.letterClass? c.toLower with
    | some a => Read.refine (.ok (a, s)) fun a => (f.checkText (.compl a)).map .set
    | none => .error .unknownEscape

def readEscape (f : Flags) : List Char → Read Atom
  | [] => .error .unfinishedEscape
  | c :: s =>
    if c.isDigit then .error .backReference
    else if isEscapable c then .ok (.char c, s)
    else
      match letterEscape? f c with
      | some a => .ok (a, s)
      | none => readLongEscape f c s

/-! ### No reader gives back a longer text -/

theorem length_readBraced {f : Flags} {b : Bool} {s name rest : List Char}
    (h : readBraced f b s = some (name, rest)) : rest.length < s.length := by
  induction s generalizing b name with
  | nil => cases b <;> simp [readBraced] at h
  | cons c s ih =>
    have step : ∀ {b name}, readBraced f b s = some (name, rest) →
        rest.length < (c :: s).length := by
      intro b name h
      have := ih h
      simp only [List.length_cons]
      omega
    cases b with
    | true => exact step h
    | false =>
      simp only [readBraced] at h
      split at h
      · exact step h
      · split at h
        · exact step h
        · split at h
          · cases h; simp
          · obtain ⟨⟨name', rest'⟩, h', e⟩ := Option.map_eq_some_iff.mp h
            cases e
            exact step h'

theorem length_readChars {f : Flags} {n : Nat} {s cs rest : List Char}
    (h : readChars f n s = .ok (cs, rest)) : rest.length ≤ s.length := by
  induction n generalizing s cs with
  | zero => cases h; exact Nat.le_refl _
  | succ n ih =>
    cases s with
    | nil => cases h
    | cons c s =>
      obtain ⟨cs', h', -⟩ := Read.refine_eq_ok.mp h
      have h₁ := ih h'
      have h₂ := f.length_skip s
      simp only [List.length_cons]
      omega

theorem length_readHex {f : Flags} {n : Nat} {s rest : List Char} {x : Char}
    (h : readHex f n s = .ok (x, rest)) : rest.length ≤ s.length := by
  obtain ⟨digits, h, -⟩ := Read.refine_eq_ok.mp h
  have hs := f.length_skip s
  split at h
  · rename_i t e
    rw [e, List.length_cons] at hs
    split at h
    · cases h
    · cases h
    · rename_i e'
      cases h
      have := length_readBraced e'
      omega
  · have := length_readChars h
    omega

theorem length_readQuery {f : Flags} {s query rest : List Char}
    (h : readQuery f s = .ok (query, rest)) : rest.length ≤ s.length := by
  have hs := f.length_skip s
  unfold readQuery at h
  split at h
  · cases h
  · rename_i c t e
    rw [e, List.length_cons] at hs
    split at h
    · split at h
      · cases h
      · rename_i e'
        cases h
        have := length_readBraced e'
        omega
    · split at h
      · cases h
      · cases h
        have := f.length_skip t
        omega

theorem length_readBoundary {f : Flags} {s rest : List Char} {l : Look}
    (h : readBoundary f s = .ok (l, rest)) : rest.length ≤ s.length := by
  unfold readBoundary at h
  split at h
  · split at h
    · cases h
    · split at h
      · split at h
        · cases h
        · rename_i e
          have := length_readBraced e
          simp only [List.length_cons]
          split at h
          · cases h
          · cases h
            omega
      · cases h; exact Nat.le_refl _
  · cases h; exact Nat.le_refl _

theorem length_readLongEscape {f : Flags} {c : Char} {s rest : List Char} {a : Atom}
    (h : readLongEscape f c s = .ok (a, rest)) : rest.length ≤ s.length := by
  unfold readLongEscape at h
  split at h
  · obtain ⟨x, h, -⟩ := Read.refine_eq_ok.mp h
    exact length_readHex h
  · obtain ⟨x, h, -⟩ := Read.refine_eq_ok.mp h
    exact length_readHex h
  · obtain ⟨x, h, -⟩ := Read.refine_eq_ok.mp h
    exact length_readHex h
  · obtain ⟨x, h, -⟩ := Read.refine_eq_ok.mp h
    obtain ⟨q, h, -⟩ := Read.refine_eq_ok.mp h
    exact length_readQuery h
  · obtain ⟨x, h, -⟩ := Read.refine_eq_ok.mp h
    obtain ⟨q, h, -⟩ := Read.refine_eq_ok.mp h
    exact length_readQuery h
  · obtain ⟨x, h, -⟩ := Read.refine_eq_ok.mp h
    exact length_readBoundary h
  · split at h
    · obtain ⟨x, h, -⟩ := Read.refine_eq_ok.mp h
      cases h
      exact Nat.le_refl _
    · cases h

theorem length_readEscape {f : Flags} {s rest : List Char} {a : Atom}
    (h : readEscape f s = .ok (a, rest)) : rest.length < s.length := by
  cases s with
  | nil => cases h
  | cons c s =>
    simp only [readEscape] at h
    simp only [List.length_cons]
    split at h
    · cases h
    · split at h
      · cases h; omega
      · split at h
        · cases h; omega
        · have := length_readLongEscape h
          omega

end Signpost.Regex
