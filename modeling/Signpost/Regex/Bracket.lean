import Signpost.Regex.Escape

/-!
Bracketed classes: characters, ranges and classes side by side, nested brackets, and the
operations of sets between them. Operations bind weaker than juxtaposition and group to the left.
-/

namespace Signpost.Regex

/-- An operation between sets: the characters of both, of the left one only, or of exactly one. -/
inductive SetOp where
  | inter
  | diff
  | symmDiff
  deriving DecidableEq, Repr

namespace SetOp

def apply : SetOp → CharSet → CharSet → CharSet
  | .inter => .inter
  | .diff => .diff
  | .symmDiff => .symmDiff

def ofSigns? : Char → Char → Option SetOp
  | '&', '&' => some .inter
  | '-', '-' => some .diff
  | '~', '~' => some .symmDiff
  | _, _ => none

end SetOp

/-- An open bracket: whether it is negated, the left side of an operation whose right side is being
read, and what stands side by side since then. -/
structure Bracket where
  negated : Bool
  left : Option (SetOp × CharSet)
  items : CharSet
  deriving DecidableEq, Repr

namespace Bracket

def add (b : Bracket) (a : CharSet) : Bracket := { b with items := .union b.items a }

def content (f : Flags) (b : Bracket) : CharSet :=
  match b.left with
  | none => b.items
  | some (op, a) => op.apply (f.caseClosed a) (f.caseClosed b.items)

/-- The bracket with an operation behind what is inside up to here. -/
def operate (f : Flags) (b : Bracket) (op : SetOp) : Bracket :=
  { b with left := some (op, b.content f), items := .empty }

def close (f : Flags) (b : Bracket) : CharSet :=
  let a := f.caseClosed (b.content f)
  if b.negated then .compl a else a

end Bracket

/-- A named class such as `[:alpha:]`, read from behind its opening bracket. -/
def readNamed? (f : Flags) (s : List Char) : Option (CharSet × List Char) :=
  match s with
  | ':' :: s =>
    let negated := s.head? = some '^'
    match Text.cutAt? ':' (if negated then s.tail else s) with
    | some (name, ']' :: rest) =>
      (CharSet.named? (String.ofList name)).map fun a =>
        (if negated then .compl (f.caseClosed a) else f.caseClosed a, rest)
    | _ => none
  | _ => none

/-- Hyphens at the start of a bracket, which stand for themselves. -/
def readHyphens (f : Flags) (b : Bracket) (s : List Char) : Bracket × List Char :=
  match s with
  | [] => (b, [])
  | c :: t =>
    have := f.length_skip t
    if c = '-' then readHyphens f (b.add (.single '-')) (f.skip t) else (b, c :: t)
termination_by s.length
decreasing_by simp only [List.length_cons]; omega

/-- A closing bracket with nothing in front of it, which stands for itself. -/
def readFirstClose (f : Flags) (b : Bracket) (s : List Char) : Bracket × List Char :=
  match s with
  | [] => (b, [])
  | c :: t => if c = ']' ∧ b.items = .empty then (b.add (.single ']'), f.skip t) else (b, c :: t)

/-- The text behind the sign of negation, if there is one. -/
def skipNegation (f : Flags) (s : List Char) : List Char :=
  if s.head? = some '^' then f.skip s.tail else s

/-- Reads the start of a bracket: negation, and the hyphens or closing bracket that stand for
themselves. -/
def openBracket (f : Flags) (s : List Char) : Bracket × List Char :=
  let start := readHyphens f ⟨s.head? = some '^', none, .empty⟩ (skipNegation f s)
  readFirstClose f start.1 start.2

/-- The first character behind a hyphen that verbose mode does not skip; a comment is not skipped
beyond its sign. -/
def peekBehind (f : Flags) (s : List Char) : Option Char :=
  if f.verbose then
    match s.dropWhile Unicode.isBlank with
    | [] => s.head?
    | c :: t =>
      if c = '#' then ((t.dropWhile Unicode.isBlank).head?).or s.head? else some c
  else s.head?

/-- Reads one end of a range or an item of its own. -/
def readItem (f : Flags) (s : List Char) : Read Atom :=
  match s with
  | [] => .error .unclosedBracket
  | c :: s => if c = '\\' then readEscape f s else .ok (.char c, s)

def itemSet (f : Flags) : Atom → Except SyntaxError CharSet
  | .char c => f.checkText (.single c)
  | .set a => .ok a
  | .look _ => .error .notInBracket

def rangeSet (f : Flags) : Atom → Atom → Except SyntaxError CharSet
  | .char c, .char d => if c ≤ d then f.checkText (.range c d) else .error .badRange
  | _, _ => .error .badRange

def readRange (f : Flags) (s : List Char) : Read CharSet :=
  match readItem f s with
  | .error e => .error e
  | .ok (first, rest) =>
    match f.skip rest with
    | [] => .error .unclosedBracket
    | c :: t =>
      if c = '-' ∧ peekBehind f t ≠ some ']' ∧ peekBehind f t ≠ some '-' then
        (readItem f (f.skip t)).refine (rangeSet f first)
      else Read.refine (.ok (first, rest)) (itemSet f)

/-! ### No reader gives back a longer text -/

theorem length_cutAt? {sep : Char} {s before after : List Char}
    (h : Text.cutAt? sep s = some (before, after)) : after.length < s.length := by
  induction s generalizing before with
  | nil => cases h
  | cons c s ih =>
    simp only [Text.cutAt?] at h
    simp only [List.length_cons]
    split at h
    · cases h; omega
    · obtain ⟨⟨b, a⟩, h', e⟩ := Option.map_eq_some_iff.mp h
      cases e
      have := ih h'
      omega

theorem length_readNamed? {f : Flags} {s rest : List Char} {a : CharSet}
    (h : readNamed? f s = some (a, rest)) : rest.length < s.length := by
  unfold readNamed? at h
  split at h
  · rename_i t
    simp only at h
    split at h
    · rename_i name rest' e
      obtain ⟨a, -, e'⟩ := Option.map_eq_some_iff.mp h
      cases e'
      have h₁ := length_cutAt? e
      have h₂ : (if t.head? = some '^' then t.tail else t).length ≤ t.length := by
        split <;> simp
      simp only [List.length_cons] at *
      omega
    · cases h
  · cases h

theorem length_readHyphens (f : Flags) (b : Bracket) (s : List Char) :
    (readHyphens f b s).2.length ≤ s.length := by
  fun_induction readHyphens f b s with
  | case1 b => exact Nat.le_refl _
  | case2 b t h ih =>
    simp only [List.length_cons]
    omega
  | case3 b c t h hc => exact Nat.le_refl _

theorem length_readFirstClose (f : Flags) (b : Bracket) (s : List Char) :
    (readFirstClose f b s).2.length ≤ s.length := by
  unfold readFirstClose
  split
  · exact Nat.le_refl _
  · rename_i c t
    have := f.length_skip t
    split <;> simp only [List.length_cons] <;> omega

theorem length_skipNegation (f : Flags) (s : List Char) :
    (skipNegation f s).length ≤ s.length := by
  unfold skipNegation
  split
  · exact Nat.le_trans (f.length_skip _) (by simp)
  · exact Nat.le_refl _

theorem length_openBracket (f : Flags) (s : List Char) :
    (openBracket f s).2.length ≤ s.length :=
  Nat.le_trans (length_readFirstClose _ _ _)
    (Nat.le_trans (length_readHyphens _ _ _) (length_skipNegation _ _))

theorem length_readItem {f : Flags} {s rest : List Char} {a : Atom}
    (h : readItem f s = .ok (a, rest)) : rest.length < s.length := by
  cases s with
  | nil => cases h
  | cons c s =>
    simp only [readItem] at h
    simp only [List.length_cons]
    split at h
    · have := length_readEscape h
      omega
    · cases h; omega

theorem length_readRange {f : Flags} {s rest : List Char} {a : CharSet}
    (h : readRange f s = .ok (a, rest)) : rest.length < s.length := by
  unfold readRange at h
  split at h
  · cases h
  · rename_i first rest' e
    have h₁ := length_readItem e
    have h₂ := f.length_skip rest'
    split at h
    · cases h
    · rename_i c t e'
      rw [e', List.length_cons] at h₂
      split at h
      · obtain ⟨b, h, -⟩ := Read.refine_eq_ok.mp h
        have h₃ := length_readItem h
        have h₄ := f.length_skip t
        omega
      · obtain ⟨b, h, -⟩ := Read.refine_eq_ok.mp h
        cases h
        exact h₁

/-- Reads a class from inside the bracket `b`, which stands inside the brackets `outer`, innermost
first, where the text begins with what counts; gives the class of the outermost bracket. -/
def readInside (f : Flags) (outer : List Bracket) (b : Bracket) (s : List Char) : Read CharSet :=
  match s with
  | [] => .error .unclosedBracket
  | c :: t =>
    if c = '[' then
      match h : readNamed? f t with
      | some (a, rest) =>
        have := length_readNamed? h
        have := f.length_skip rest
        readInside f outer (b.add a) (f.skip rest)
      | none =>
        have := length_openBracket f (f.skip t)
        have := f.length_skip t
        have := f.length_skip (openBracket f (f.skip t)).2
        readInside f (b :: outer) (openBracket f (f.skip t)).1
          (f.skip (openBracket f (f.skip t)).2)
    else if c = ']' then
      match outer with
      | [] => Read.refine (.ok (b.close f, t)) f.checkText
      | b' :: outer =>
        have := f.length_skip t
        readInside f outer (b'.add (b.close f)) (f.skip t)
    else
      match t.head?.bind (SetOp.ofSigns? c) with
      | some op =>
        have := f.length_skip t.tail
        readInside f outer (b.operate f op) (f.skip t.tail)
      | none =>
        match h : readRange f (c :: t) with
        | .error e => .error e
        | .ok (a, rest) =>
          have := length_readRange h
          have := f.length_skip rest
          readInside f outer (b.add a) (f.skip rest)
termination_by s.length
decreasing_by all_goals simp only [List.length_cons, List.length_tail] at *; omega

def readBracket (f : Flags) (s : List Char) : Read CharSet :=
  let start := openBracket f (f.skip s)
  readInside f [] start.1 (f.skip start.2)

theorem length_readInside {f : Flags} {outer : List Bracket} {b : Bracket} {s rest : List Char}
    {a : CharSet} (h : readInside f outer b s = .ok (a, rest)) : rest.length < s.length := by
  fun_induction readInside f outer b s with
  | case1 => cases h
  | case2 outer b t a' rest' h₀ h₁ h₂ ih =>
    have := ih h
    simp only [List.length_cons]
    omega
  | case3 outer b t h₀ h₁ h₂ h₃ ih =>
    have := ih h
    simp only [List.length_cons]
    omega
  | case4 b t hc =>
    obtain ⟨_, h, -⟩ := Read.refine_eq_ok.mp h
    cases h
    simp
  | case5 b t hc b' outer h₁ ih =>
    have := ih h
    simp only [List.length_cons]
    omega
  | case6 outer b c t hc hc' op ho h₁ ih =>
    have := ih h
    simp only [List.length_cons, List.length_tail] at *
    omega
  | case7 => cases h
  | case8 outer b c t hc hc' ho a' rest' h₀ h₁ h₂ ih =>
    have := ih h
    simp only [List.length_cons] at *
    omega

theorem length_readBracket {f : Flags} {s rest : List Char} {a : CharSet}
    (h : readBracket f s = .ok (a, rest)) : rest.length < s.length := by
  have h₁ := length_readInside h
  have h₂ := f.length_skip (openBracket f (f.skip s)).2
  have h₃ := length_openBracket f (f.skip s)
  have h₄ := f.length_skip s
  omega

end Signpost.Regex
