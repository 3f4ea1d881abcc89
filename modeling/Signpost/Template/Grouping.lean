import Signpost.Template.Piece

/-!
Which groupings a template may have. Parentheses are counted over the whole template, leaving out
what stands between angle brackets; whenever the outermost one closes, at most one token may have
been inside, and none if parentheses were nested.
-/

namespace Signpost

/-- What is wrong with a template: a group with several tokens, a token inside nested groups, a
token without a name or with one that was used before, or a pattern that makes the whole no regular
expression. -/
inductive TemplateFault where
  | crowdedGroup
  | nestedGroups
  | unnamed (token : Token)
  | repeated (name : String)
  | badPattern (cause : Regex.SyntaxError)
  deriving DecidableEq, Repr

/-- The wording of a fault. What is wrong inside a pattern is not told. -/
def TemplateFault.message : TemplateFault → String
  | crowdedGroup => "an optional group may contain exactly one parameter"
  | nestedGroups => "nested optional groups are not supported"
  | unnamed token => "parameter token '" ++ String.ofList token.text ++ "' has no name"
  | repeated name => "parameter '" ++ name ++ "' appears more than once"
  | badPattern _ => "<regex error>"

/-- What is known of the parentheses up to some place in a template: whether it is between angle
brackets, how many are open, and since the outermost one opened whether some were nested and how
many tokens there were. -/
structure Grouping where
  inToken : Bool := false
  depth : Nat := 0
  nested : Bool := false
  tokens : Nat := 0
  deriving DecidableEq, Repr

namespace Grouping

def step (g : Grouping) (c : Char) : Except TemplateFault Grouping :=
  if g.inToken then
    if c = '>' then
      .ok { g with inToken := false, tokens := if 0 < g.depth then g.tokens + 1 else g.tokens }
    else .ok g
  else if c = '<' then .ok { g with inToken := true }
  else if c = '(' then .ok { g with depth := g.depth + 1, nested := g.nested || 0 < g.depth }
  else if c = ')' then
    match g.depth with
    -- a parenthesis that closes nothing is text
    | 0 => .ok g
    | 1 =>
      if 1 < g.tokens then .error .crowdedGroup
      else if g.nested && 0 < g.tokens then .error .nestedGroups
      else .ok {}
    | d + 2 => .ok { g with depth := d + 1 }
  else .ok g

def run (g : Grouping) : List Char → Except TemplateFault Grouping
  | [] => .ok g
  | c :: s =>
    match g.step c with
    | .error e => .error e
    | .ok g' => g'.run s

/-- Whether a template has an allowed grouping. -/
def check (s : List Char) : Except TemplateFault Unit := (run {} s).map fun _ => ()

end Grouping

end Signpost
