import Signpost.Regex.CharSet

/-!
Regular expressions as trees. Of several ways to match, the tree fixes the order in which they are
tried: a branch before the next, and a greedy repetition longer before shorter.
-/

namespace Signpost.Regex

/-- A condition on a place in the text that takes no character. For `anyLineStart` and `anyLineEnd`
a carriage return ends lines too. There is a boundary where exactly one of the two characters around
is in `words`. -/
inductive Look where
  | textStart
  | textEnd
  | lineStart
  | lineEnd
  | anyLineStart
  | anyLineEnd
  | boundary (words : CharSet)
  | noBoundary (words : CharSet)
  | wordStart (words : CharSet)
  | wordEnd (words : CharSet)
  | notAfterWord (words : CharSet)
  | notBeforeWord (words : CharSet)
  deriving DecidableEq, Repr

/-- A regular expression. Of the branches of `alt` the first is preferred; `times` is exactly `n`
times, `upTo` at most `n` times. -/
inductive Expr where
  | empty
  | set (chars : CharSet)
  | look (cond : Look)
  | capture (name : String) (e : Expr)
  | seq (a b : Expr)
  | alt (a b : Expr)
  | times (n : Nat) (e : Expr)
  | upTo (n : Nat) (greedy : Bool) (e : Expr)
  | star (greedy : Bool) (e : Expr)
  | plus (greedy : Bool) (e : Expr)
  deriving DecidableEq, Repr

namespace Expr

/-- One after the other, where the empty expression in front adds nothing. -/
def andThen : Expr → Expr → Expr
  | .empty, b => b
  | a, b => .seq a b

/-- At least `min` times and, if a bound is given, at most `max` times. -/
def counted (min : Nat) (max : Option Nat) (greedy : Bool) (e : Expr) : Expr :=
  match max with
  | none =>
    match min with
    | 0 => .star greedy e
    | 1 => .plus greedy e
    | n + 2 => .seq (.times (n + 1) e) (.plus greedy e)
  | some max =>
    if max = min then
      if min = 1 then e else .times min e
    else if min = 0 then .upTo max greedy e
    else .seq (.times min e) (.upTo (max - min) greedy e)

/-- How many character sets there are once all counted repetitions are written out. -/
def weight : Expr → Nat
  | .empty => 0
  | .set _ => 1
  | .look _ => 1
  | .capture _ e => e.weight
  | .seq a b => a.weight + b.weight
  | .alt a b => a.weight + b.weight
  | .times n e => n * e.weight
  | .upTo n _ e => n * e.weight
  | .star _ e => e.weight + 1
  | .plus _ e => e.weight + 1

end Expr

end Signpost.Regex
