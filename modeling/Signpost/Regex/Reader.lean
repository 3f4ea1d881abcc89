import Signpost.Regex.Lexeme
import Signpost.Regex.Match

/-!
Reading an expression from its text. The reader goes from left to right with the groups that are
open and, for the innermost one, the branches before the current one and the parts of the current
one; each part of the text changes these in one step.
-/

namespace Signpost.Regex

/-- What stands last in a branch: only an expression can be repeated, not a condition or flags. -/
inductive Last where
  | nothing
  | expr (e : Expr)
  deriving DecidableEq, Repr

/-- What is read of a group up to here: the branches before the current one, the current one without
its last part, and this last part. -/
structure Branches where
  before : Option Expr
  front : Expr
  last : Last
  deriving DecidableEq, Repr

namespace Branches

def none : Branches := ⟨.none, .empty, .nothing⟩

def current (b : Branches) : Expr :=
  match b.last with
  | .nothing => b.front
  | .expr e => b.front.andThen e

def expr (b : Branches) : Expr :=
  match b.before with
  | .none => b.current
  | some e => .alt e b.current

def add (b : Branches) (e : Expr) : Branches := ⟨b.before, b.current, .expr e⟩

def bar (b : Branches) : Branches := ⟨some b.expr, .empty, .nothing⟩

end Branches

/-- An open group around what is being read, with what was read before it and the flags in force
before it and after it. -/
structure OpenGroup where
  outside : Branches
  name : Option String
  flags : Flags
  deriving DecidableEq, Repr

/-- Where the reader stands: the flags in force, the open groups, innermost first, what is read of
the innermost group, and the names of all groups opened so far. -/
structure Progress where
  flags : Flags
  groups : List OpenGroup
  inside : Branches
  names : List String
  deriving DecidableEq, Repr

namespace Progress

def start : Progress := ⟨{}, [], .none, []⟩

def closeGroup (name : Option String) (e : Expr) : Expr :=
  match name with
  | some n => .capture n e
  | none => e

def push (p : Progress) : Lexeme → Except SyntaxError Progress
  | .item e => .ok { p with inside := p.inside.add e }
  | .repetition min max greedy =>
    match p.inside.last with
    | .nothing => .error .nothingToRepeat
    | .expr e =>
      .ok { p with inside := { p.inside with last := .expr (.counted min max greedy e) } }
  | .opening name flags =>
    if name.any p.names.contains then .error .repeatedGroupName
    else
      .ok
        { flags := flags
          groups := ⟨p.inside, name, p.flags⟩ :: p.groups
          inside := .none
          names := name.toList ++ p.names }
  -- the flags hold to the end of the group, and nothing in front can be repeated behind them
  | .flags flags =>
    .ok { p with flags := flags, inside := ⟨p.inside.before, p.inside.current, .nothing⟩ }
  | .closing =>
    match p.groups with
    | [] => .error .unopenedGroup
    | g :: groups =>
      .ok
        { flags := g.flags
          groups := groups
          inside := g.outside.add (closeGroup g.name p.inside.expr)
          names := p.names }
  | .bar => .ok { p with inside := p.inside.bar }

/-- The expression, once the text is at its end. -/
def finish (p : Progress) : Except SyntaxError Expr :=
  match p.groups with
  | [] => .ok p.inside.expr
  | _ :: _ => .error .unclosedGroup

def readAll (p : Progress) (s : List Char) : Except SyntaxError Progress :=
  match s with
  | [] => .ok p
  | c :: t =>
    match h : readLexeme p.flags c t with
    | .error e => .error e
    | .ok (x, rest) =>
      match p.push x with
      | .error e => .error e
      | .ok q =>
        have := length_readLexeme h
        have := q.flags.length_skip rest
        readAll q (q.flags.skip rest)
termination_by s.length
decreasing_by simp only [List.length_cons]; omega

end Progress

/-- The largest weight of an expression that is accepted. It approximates a limit on the size of what
is compiled, which is measured in bytes there; groups may be nested to any depth. -/
def maxWeight : Nat := 300000

def Expr.read (s : List Char) : Except SyntaxError Expr :=
  match Progress.start.readAll s with
  | .error e => .error e
  | .ok p =>
    match p.finish with
    | .error e => .error e
    | .ok e => if e.weight ≤ maxWeight then .ok e else .error .tooLarge

end Signpost.Regex

namespace Signpost

/-- A regular expression together with its text. -/
structure Regex where
  source : List Char
  expr : Regex.Expr
  deriving DecidableEq, Repr

namespace Regex

def ofSource (source : List Char) : Except SyntaxError Regex :=
  match Expr.read source with
  | .error e => .error e
  | .ok e => .ok ⟨source, e⟩

def isMatch (r : Regex) (text : List Char) : Bool := (r.expr.find? text.toArray).isSome

/-- A match in a text: where it ended, and the groups that took part. -/
structure Match where
  text : List Char
  cursor : Cursor
  deriving DecidableEq, Repr

def Match.group? (m : Match) (name : String) : Option (List Char) :=
  (m.cursor.capture? name).map fun (first, last) => (m.text.drop first).take (last - first)

/-- The preferred match at the first place where there is one. -/
def find? (r : Regex) (text : List Char) : Option Match :=
  (r.expr.find? text.toArray).map fun c => ⟨text, c⟩

end Regex

end Signpost
