import Signpost.Regex.Expr

/-!
Matching. `Expr.run` lists the places where a match from a given place can end, in the order of
preference, each place once. An alternative that reaches a place already found is dropped, since
nothing that follows depends on the way that led there; so the work stays polynomial.
-/

namespace Signpost.Regex

/-- A place in the text, with the parts recorded on the way there, latest first. -/
structure Cursor where
  pos : Nat
  captures : List (String × Nat × Nat)
  deriving DecidableEq, Repr

def Cursor.capture? (c : Cursor) (name : String) : Option (Nat × Nat) :=
  match c.captures.find? fun (n, _) => n == name with
  | some (_, span) => some span
  | none => none

def afterWord (text : Array Char) (pos : Nat) (words : CharSet) : Bool :=
  pos != 0 && (text[pos - 1]?.map words.mem).getD false

def beforeWord (text : Array Char) (pos : Nat) (words : CharSet) : Bool :=
  (text[pos]?.map words.mem).getD false

def Look.holds (text : Array Char) (pos : Nat) : Look → Bool
  | .textStart => pos == 0
  | .textEnd => pos == text.size
  | .lineStart => pos == 0 || text[pos - 1]? == some '\n'
  | .lineEnd => pos == text.size || text[pos]? == some '\n'
  | .anyLineStart =>
    pos == 0 || text[pos - 1]? == some '\n' ||
      (text[pos - 1]? == some '\r' && text[pos]? != some '\n')
  | .anyLineEnd =>
    pos == text.size || text[pos]? == some '\r' ||
      (text[pos]? == some '\n' && (pos == 0 || text[pos - 1]? != some '\r'))
  | .boundary words => afterWord text pos words != beforeWord text pos words
  | .noBoundary words => afterWord text pos words == beforeWord text pos words
  | .wordStart words => !afterWord text pos words && beforeWord text pos words
  | .wordEnd words => afterWord text pos words && !beforeWord text pos words
  | .notAfterWord words => !afterWord text pos words
  | .notBeforeWord words => !beforeWord text pos words

structure Walk where
  found : List Cursor
  seen : Nat
  begun : Nat

namespace Walk

def start : Walk := ⟨[], 0, 0⟩

/-- Reports a cursor unless its place was found before. -/
def report (w : Walk) (c : Cursor) : Walk :=
  if w.seen.testBit c.pos then w
  else { w with found := c :: w.found, seen := w.seen ||| 1 <<< c.pos }

def begin (w : Walk) (round : Nat) : Walk := { w with begun := w.begun ||| 1 <<< round }

def cursors (w : Walk) : List Cursor := w.found.reverse

/-- Further rounds of an unbounded repetition from `c`: greedy repetitions report `c` after what
the further rounds report, the others before. A round that takes no character is not repeated.
`fuel` bounds the rounds by the characters left. -/
def rounds (step : Cursor → List Cursor) (greedy : Bool) : (fuel : Nat) → Walk → Cursor → Walk
  | 0, w, c => w.report c
  | fuel + 1, w, c =>
    let w := if greedy then w else w.report c
    let w :=
      if w.begun.testBit c.pos then w
      else
        ((step c).filter fun d => c.pos < d.pos).foldl (rounds step greedy fuel) (w.begin c.pos)
    w.report c

/-- The first round of an unbounded repetition and those after it. -/
def atLeastOne (step : Cursor → List Cursor) (greedy : Bool) (fuel : Nat) (w : Walk) (c : Cursor) :
    Walk :=
  (step c).foldl
    (fun w d => if c.pos < d.pos then rounds step greedy fuel w d else w.report d) w

/-- At most `n` rounds, where `width` exceeds every place and so tells rounds apart. -/
def atMost (step : Cursor → List Cursor) (greedy : Bool) (width : Nat) :
    (n : Nat) → Walk → Cursor → Walk
  | 0, w, c => w.report c
  | n + 1, w, c =>
    let w := if greedy then w else w.report c
    let round := n * width + c.pos
    let w :=
      if w.begun.testBit round then w
      else (step c).foldl (atMost step greedy width n) (w.begin round)
    w.report c

end Walk

/-- The cursors in their order, of several at one place only the first. -/
def distinct (cs : List Cursor) : List Cursor := (cs.foldl Walk.report Walk.start).cursors

/-- The cursors after exactly `n` rounds; once there is none, no further round is tried. -/
def iterate (step : Cursor → List Cursor) : Nat → List Cursor → List Cursor
  | 0, cs => cs
  | n + 1, cs =>
    match cs with
    | [] => []
    | _ => iterate step n (distinct (cs.flatMap step))

/-- Where a match from `c` can end, the preferred end first. -/
def Expr.run (text : Array Char) : Expr → Cursor → List Cursor
  | .empty, c => [c]
  | .set chars, c =>
    match text[c.pos]? with
    | some x => if chars.mem x then [{ c with pos := c.pos + 1 }] else []
    | none => []
  | .look cond, c => if cond.holds text c.pos then [c] else []
  | .capture name e, c =>
    (e.run text c).map fun d => { d with captures := (name, c.pos, d.pos) :: d.captures }
  | .seq a b, c => distinct ((a.run text c).flatMap (b.run text))
  | .alt a b, c => distinct (a.run text c ++ b.run text c)
  | .times n e, c => iterate (e.run text) n [c]
  | .upTo n greedy e, c =>
    (Walk.atMost (e.run text) greedy (text.size + 1) n Walk.start c).cursors
  | .star greedy e, c =>
    if greedy then
      ((Walk.atLeastOne (e.run text) greedy text.size Walk.start c).report c).cursors
    else (Walk.atLeastOne (e.run text) greedy text.size (Walk.start.report c) c).cursors
  | .plus greedy e, c => (Walk.atLeastOne (e.run text) greedy text.size Walk.start c).cursors

def Expr.matchAt? (e : Expr) (text : Array Char) (pos : Nat) : Option Cursor :=
  (e.run text ⟨pos, []⟩).head?

/-- The preferred match at the first place where there is one. -/
def Expr.find? (e : Expr) (text : Array Char) : Option Cursor :=
  (List.range (text.size + 1)).findSome? (e.matchAt? text)

end Signpost.Regex
