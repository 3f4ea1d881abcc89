import Signpost.Regex.Bracket

/-!
The parts of an expression's text: characters and classes, the bounds of repetitions, the openings
and closings of groups, and bars. What a part means can depend on the flags in force.
-/

namespace Signpost.Regex

/-- A part of an expression's text: something that matches by itself, the bounds of a repetition of
what is in front, the opening of a group with its name and the flags inside, flags for what follows
in the group, the closing of a group, or a bar. -/
inductive Lexeme where
  | item (e : Expr)
  | repetition (min : Nat) (max : Option Nat) (greedy : Bool)
  | opening (name : Option String) (flags : Flags)
  | flags (flags : Flags)
  | closing
  | bar
  deriving DecidableEq, Repr

def Atom.expr (f : Flags) : Atom → Expr
  | .char c => f.literal c
  | .set a => .set a
  | .look l => .look l

/-- Reads the mark that makes a repetition lazy, or greedy where flags swap the two. -/
def readGreed (f : Flags) (min : Nat) (max : Option Nat) (s : List Char) : Lexeme × List Char :=
  if s.head? = some '?' then (.repetition min max f.swapGreed, s.tail)
  else (.repetition min max !f.swapGreed, s)

/-- Reads a decimal number with blanks around it, within 32 bits. -/
def readCount (f : Flags) (s : List Char) : Read Nat :=
  let rec digits (acc : Option Nat) (s : List Char) : Read Nat :=
    match s with
    | [] =>
      match acc with
      | some n => .ok (n, [])
      | none => .error .badCount
    | c :: t =>
      if c.isDigit then
        have := f.length_skip t
        digits (some (acc.getD 0 * 10 + (c.toNat - 0x30))) (f.skip t)
      else
        match acc with
        | some n =>
          if n < 0x100000000 then .ok (n, (c :: t).dropWhile Unicode.isBlank) else .error .badCount
        | none => .error .badCount
  termination_by s.length
  decreasing_by simp only [List.length_cons]; omega
  digits none (s.dropWhile Unicode.isBlank)

def readBounds (f : Flags) (s : List Char) : Read Lexeme :=
  match readCount f (f.skip s) with
  | .error e => .error e
  | .ok (min, rest) =>
    match f.skip rest with
    | '\x7d' :: t => .ok (readGreed f min (some min) (f.skip t))
    | ',' :: t =>
      match f.skip t with
      | '\x7d' :: u => .ok (readGreed f min none (f.skip u))
      | u =>
        match readCount f u with
        | .error e => .error e
        | .ok (max, rest) =>
          match f.skip rest with
          | '\x7d' :: v =>
            if min ≤ max then .ok (readGreed f min (some max) (f.skip v)) else .error .badCount
          | _ => .error .badCount
    | _ => .error .badCount

/-- Characters of group names; digits and some signs not in front. -/
def isNameChar (first : Bool) (c : Char) : Bool :=
  c == '_' || c.isAlpha || (c.toNat ≥ 0x80 && Unicode.isWordChar c) ||
    (!first && (c.isDigit || c == '.' || c == '[' || c == ']'))

def readName (s : List Char) : Read String :=
  match Text.cutAt? '>' s with
  | some (c :: name, rest) =>
    if isNameChar true c && name.all (isNameChar false) then .ok (String.ofList (c :: name), rest)
    else .error .badGroupName
  | _ => .error .badGroupName

def Flags.switch? (f : Flags) (on : Bool) : Char → Option Flags
  | 'i' => some { f with ignoreCase := on }
  | 'm' => some { f with multiLine := on }
  | 's' => some { f with dotNewline := on }
  | 'U' => some { f with swapGreed := on }
  | 'u' => some { f with unicode := on }
  | 'R' => some { f with crlf := on }
  | 'x' => some { f with verbose := on }
  | _ => none

/-- Reads flags up to a colon or the closing parenthesis; `seen` holds the signs in front. Each
flag may occur once, and those behind the hyphen are switched off. -/
def readFlags (f : Flags) (seen : List Char) : List Char → Read Lexeme
  | [] => .error .badFlag
  | c :: s =>
    if c = ':' ∨ c = ')' then
      if seen.head? = some '-' then .error .badFlag
      else if c = ':' then .ok (.opening none f, s)
      else if seen = [] then .error .nothingToRepeat
      else .ok (.flags f, s)
    else if seen.contains c then .error .badFlag
    else if c = '-' then readFlags f (c :: seen) s
    else
      match f.switch? (!seen.contains '-') c with
      | some f' => readFlags f' (c :: seen) s
      | none => .error .badFlag

/-- Reads the opening of a group, or flags, from behind the parenthesis. -/
def readOpening (f : Flags) (s : List Char) : Read Lexeme :=
  match f.skip s with
  | '?' :: '=' :: _ => .error .lookAround
  | '?' :: '!' :: _ => .error .lookAround
  | '?' :: '<' :: '=' :: _ => .error .lookAround
  | '?' :: '<' :: '!' :: _ => .error .lookAround
  | '?' :: 'P' :: '<' :: t => (readName t).refine fun name => .ok (.opening (some name) f)
  | '?' :: '<' :: t => (readName t).refine fun name => .ok (.opening (some name) f)
  | '?' :: t => readFlags f [] t
  | t => .ok (.opening none f, t)

def readLexeme (f : Flags) (c : Char) (s : List Char) : Read Lexeme :=
  match c with
  | '(' => readOpening f s
  | ')' => .ok (.closing, s)
  | '|' => .ok (.bar, s)
  | '[' => (readBracket f s).refine fun a => .ok (.item (.set a))
  | '?' => .ok (readGreed f 0 (some 1) s)
  | '*' => .ok (readGreed f 0 none s)
  | '+' => .ok (readGreed f 1 none s)
  | '\x7b' => readBounds f s
  | '\\' => (readEscape f s).refine fun a => .ok (.item (a.expr f))
  | '.' => Read.refine (.ok ((), s)) fun _ => f.dot.map .item
  | '^' => .ok (.item (.look f.lineStart), s)
  | '$' => .ok (.item (.look f.lineEnd), s)
  | c => .ok (.item (f.literal c), s)

/-! ### No reader gives back a longer text -/

theorem length_readGreed (f : Flags) (min : Nat) (max : Option Nat) (s : List Char) :
    (readGreed f min max s).2.length ≤ s.length := by
  unfold readGreed
  split <;> simp

theorem length_dropWhile (p : Char → Bool) (s : List Char) :
    (s.dropWhile p).length ≤ s.length :=
  (List.dropWhile_suffix p).length_le

theorem length_readDigits {f : Flags} {acc : Option Nat} {s rest : List Char} {n : Nat}
    (h : readCount.digits f acc s = .ok (n, rest)) : rest.length ≤ s.length := by
  fun_induction readCount.digits f acc s with
  | case1 n => cases h; exact Nat.le_refl _
  | case2 => cases h
  | case3 acc c t h₁ hd ih =>
    have := ih h
    simp only [List.length_cons]
    omega
  | case4 c t hd n hn =>
    cases h
    exact length_dropWhile _ _
  | case5 => cases h
  | case6 => cases h

theorem length_readCount {f : Flags} {s rest : List Char} {n : Nat}
    (h : readCount f s = .ok (n, rest)) : rest.length ≤ s.length :=
  Nat.le_trans (length_readDigits h) (length_dropWhile _ _)

theorem length_readBounds {f : Flags} {s rest : List Char} {x : Lexeme}
    (h : readBounds f s = .ok (x, rest)) : rest.length ≤ s.length := by
  have greed : ∀ {min max} {t : List Char}, readGreed f min max (f.skip t) = (x, rest) →
      rest.length ≤ t.length := by
    intro min max t e
    have h₁ := length_readGreed f min max (f.skip t)
    have h₂ := f.length_skip t
    rw [e] at h₁
    exact Nat.le_trans h₁ h₂
  have h₀ := f.length_skip s
  unfold readBounds at h
  split at h
  · cases h
  · rename_i min r e
    have h₁ := length_readCount e
    have h₂ := f.length_skip r
    split at h
    · rename_i t e'
      rw [e', List.length_cons] at h₂
      have := greed (Except.ok.inj h)
      omega
    · rename_i t e'
      rw [e', List.length_cons] at h₂
      have h₃ := f.length_skip t
      split at h
      · rename_i u e''
        rw [e'', List.length_cons] at h₃
        have := greed (Except.ok.inj h)
        omega
      · split at h
        · cases h
        · rename_i max r' e''
          have h₄ := length_readCount e''
          have h₅ := f.length_skip r'
          split at h
          · rename_i v e₃
            rw [e₃, List.length_cons] at h₅
            split at h
            · have := greed (Except.ok.inj h)
              omega
            · cases h
          · cases h
    · cases h

theorem length_readName {s rest : List Char} {name : String}
    (h : readName s = .ok (name, rest)) : rest.length < s.length := by
  unfold readName at h
  split at h
  · rename_i e
    have := length_cutAt? e
    split at h
    · cases h; exact this
    · cases h
  · cases h

theorem length_readFlags {f : Flags} {seen s rest : List Char} {x : Lexeme}
    (h : readFlags f seen s = .ok (x, rest)) : rest.length < s.length := by
  induction s generalizing f seen with
  | nil => cases h
  | cons c s ih =>
    simp only [readFlags] at h
    simp only [List.length_cons]
    split at h
    · split at h
      · cases h
      · split at h
        · cases h; omega
        · split at h
          · cases h
          · cases h; omega
    · split at h
      · cases h
      · split at h
        · have := ih h
          omega
        · split at h
          · have := ih h
            omega
          · cases h

theorem length_readOpening {f : Flags} {s rest : List Char} {x : Lexeme}
    (h : readOpening f s = .ok (x, rest)) : rest.length ≤ s.length := by
  have h₀ := f.length_skip s
  unfold readOpening at h
  split at h
  all_goals rename_i e
  · cases h
  · cases h
  · cases h
  · cases h
  · rw [e] at h₀
    obtain ⟨name, h, -⟩ := Read.refine_eq_ok.mp h
    have := length_readName h
    simp only [List.length_cons] at h₀
    omega
  · rw [e] at h₀
    obtain ⟨name, h, -⟩ := Read.refine_eq_ok.mp h
    have := length_readName h
    simp only [List.length_cons] at h₀
    omega
  · rw [e] at h₀
    have := length_readFlags h
    simp only [List.length_cons] at h₀
    omega
  · cases h
    exact h₀

theorem length_readLexeme {f : Flags} {c : Char} {s rest : List Char} {x : Lexeme}
    (h : readLexeme f c s = .ok (x, rest)) : rest.length ≤ s.length := by
  have greed : ∀ {min max}, readGreed f min max s = (x, rest) → rest.length ≤ s.length := by
    intro min max e
    have := length_readGreed f min max s
    rwa [e] at this
  unfold readLexeme at h
  split at h
  · exact length_readOpening h
  · cases h; exact Nat.le_refl _
  · cases h; exact Nat.le_refl _
  · obtain ⟨a, h, -⟩ := Read.refine_eq_ok.mp h
    exact Nat.le_of_lt (length_readBracket h)
  · exact greed (Except.ok.inj h)
  · exact greed (Except.ok.inj h)
  · exact greed (Except.ok.inj h)
  · exact length_readBounds h
  · obtain ⟨a, h, -⟩ := Read.refine_eq_ok.mp h
    exact Nat.le_of_lt (length_readEscape h)
  · obtain ⟨a, h, -⟩ := Read.refine_eq_ok.mp h
    cases h
    exact Nat.le_refl _
  · cases h; exact Nat.le_refl _
  · cases h; exact Nat.le_refl _
  · cases h; exact Nat.le_refl _

end Signpost.Regex
