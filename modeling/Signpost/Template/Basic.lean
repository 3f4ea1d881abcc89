import Signpost.Template.Grouping

/-!
Templates. A template is compiled into the pieces that it is made of and the regular expression
that paths must match as a whole. In that expression the parameter number `i`, from 0, is the group
named `p` and `i`, so that groups inside patterns cannot be taken for parameters.
-/

namespace Signpost

/-- Text as a regular expression that matches just this text. -/
def escapeText (s : List Char) : List Char :=
  s.flatMap fun c => if Regex.isMeta c then ['\\', c] else [c]

/-- The name of the group of parameter number `i`. -/
def groupName (i : Nat) : String := String.ofList ('p' :: Nat.toDigits 10 i)

/-- The group of parameter number `i`. -/
def Token.patternSource (i : Nat) (t : Token) : List Char :=
  "(?P<".toList ++ (groupName i).toList ++ '>' :: (t.kind.pattern ++ [')'])

namespace Piece

/-- The part of the expression for a piece whose parameter, if it has one, is number `i`. -/
def patternSource (i : Nat) : Piece → List Char
  | literal s => escapeText s
  | required t => t.patternSource i
  | optional g =>
    "(?:".toList ++ escapeText g.before ++ g.token.patternSource i ++ escapeText g.after ++
      ")?".toList

/-- The parts for all pieces, where parameters are numbered from `i`. -/
def patternSources (i : Nat) : List Piece → List Char
  | [] => []
  | p :: ps => p.patternSource i ++ patternSources (i + p.token?.toList.length) ps

def tokens (ps : List Piece) : List Token := ps.filterMap token?

def groups (ps : List Piece) : List OptionalGroup := ps.filterMap group?

end Piece

/-- A compiled template: the text without outer slashes, its pieces, and the expression that paths
must match, unless there is no parameter. -/
structure Template where
  text : List Char
  pieces : List Piece
  regex : Option Regex
  deriving DecidableEq, Repr

namespace Template

def tokens (t : Template) : List Token := Piece.tokens t.pieces

def groups (t : Template) : List OptionalGroup := Piece.groups t.pieces

/-- Whether the template has no parameter, so that paths are compared with its text. -/
def isStatic (t : Template) : Bool := t.regex.isNone

def token? (t : Template) (name : String) : Option Token := t.tokens.find? fun k => k.name == name

def group? (t : Template) (name : String) : Option OptionalGroup :=
  t.groups.find? fun g => g.token.name == name

def patternOf (ps : List Piece) : List Char := '^' :: (Piece.patternSources 0 ps ++ ['$'])

/-- Checks that every token has a name of its own, different from the names in `seen`. -/
def checkNames (seen : List String) : List Token → Except TemplateFault Unit
  | [] => .ok ()
  | t :: ts =>
    if t.name = "" then .error (.unnamed t)
    else if seen.contains t.name then .error (.repeated t.name)
    else checkNames (t.name :: seen) ts

def ofText (s : List Char) : Template := ⟨s, Piece.ofLiteral s, none⟩

/-- Compiles a template text, outer slashes set aside. Groupings are checked first, then names, and
the expression last. -/
def compile (s : List Char) : Except TemplateFault Template :=
  let text := Text.trimSlashes s
  let pieces := Piece.ofTemplate text
  if '<' ∉ text then .ok (ofText text)
  else
    match Grouping.check text with
    | .error e => .error e
    | .ok () =>
      match checkNames [] (Piece.tokens pieces) with
      | .error e => .error e
      | .ok () =>
        -- an angle bracket need not begin a token
        if Piece.tokens pieces = [] then .ok (ofText text)
        else
          match Regex.ofSource (patternOf pieces) with
          | .error e => .error (.badPattern e)
          | .ok r => .ok ⟨text, pieces, some r⟩

theorem names_of_checkNames {seen : List String} {ts : List Token}
    (h : checkNames seen ts = .ok ()) :
    (ts.map Token.name).Nodup ∧ (∀ t ∈ ts, t.name ≠ "" ∧ t.name ∉ seen) := by
  induction ts generalizing seen with
  | nil => simp
  | cons t ts ih =>
    simp only [checkNames] at h
    split at h
    · cases h
    · split at h
      · cases h
      · rename_i h₁ h₂
        obtain ⟨hd, hs⟩ := ih h
        refine ⟨?_, ?_⟩
        · rw [List.map_cons, List.nodup_cons]
          refine ⟨?_, hd⟩
          intro hm
          obtain ⟨u, hu, e⟩ := List.mem_map.mp hm
          exact (hs u hu).2 (by rw [e]; exact List.mem_cons_self)
        · intro u hu
          rcases List.mem_cons.mp hu with rfl | hu
          · exact ⟨h₁, by simpa using h₂⟩
          · exact ⟨(hs u hu).1, fun hm => (hs u hu).2 (List.mem_cons_of_mem _ hm)⟩

end Template

end Signpost
