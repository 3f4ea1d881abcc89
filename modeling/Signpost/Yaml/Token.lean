import Signpost.Yaml.Property
import Signpost.Yaml.Scalar

/-!
Tokens of YAML. Indentation becomes tokens of its own: a block collection begins where a line goes
further right than what is around, and it ends where one goes less far. A colon can turn what
stands before it in the same line into a key after the fact; where this may happen is kept in mind,
so that the token for the key can still be put in its place.
-/

namespace Signpost.Yaml

/-- A token. Block collections begin and end by indentation; a tag has its handle, and a scalar
tells whether it is plain. -/
inductive Token where
  | directive (d : Directive)
  | documentStart
  | documentEnd
  | blockSequence
  | blockMapping
  | blockEnd
  | openSequence
  | closeSequence
  | openMapping
  | closeMapping
  | item
  | comma
  | key
  | value
  | alias (name : String)
  | anchor (name : String)
  | tag (handle : String)
  | scalar (text : List Char) (plain : Bool)
  deriving DecidableEq, Repr

/-- A place where a key may have begun, with the number of tokens before it, and whether nothing but
a key can begin there. -/
structure PossibleKey where
  number : Nat
  place : Place
  required : Bool
  deriving DecidableEq, Repr

/-- Where the scanner stands: the tokens read, last first, the columns of the open block collections
and the possible keys inside the open brackets, innermost first, the possible key outside of all
brackets, and whether a key may begin here. -/
structure Scanner where
  rest : List Char
  place : Place
  tokens : List Token
  indents : List Nat
  outerKey : Option PossibleKey
  innerKeys : List (Option PossibleKey)
  keyAllowed : Bool

namespace Scanner

def start (s : List Char) : Scanner := ⟨s, ⟨0, 0⟩, [], [], none, [], true⟩

def inFlow (sc : Scanner) : Bool := !sc.innerKeys.isEmpty

/-- The least column of what is inside the innermost block collection. -/
def margin (sc : Scanner) : Nat :=
  match sc.indents with
  | [] => 0
  | column :: _ => column + 1

def possibleKey (sc : Scanner) : Option PossibleKey :=
  match sc.innerKeys with
  | [] => sc.outerKey
  | k :: _ => k

def setKey (sc : Scanner) (k : Option PossibleKey) : Scanner :=
  match sc.innerKeys with
  | [] => { sc with outerKey := k }
  | _ :: outer => { sc with innerKeys := k :: outer }

def emit (sc : Scanner) (t : Token) : Scanner := { sc with tokens := t :: sc.tokens }

/-- One more token, before all but the first `number`. -/
def emitAt (sc : Scanner) (number : Nat) (t : Token) : Scanner :=
  { sc with tokens := sc.tokens.insertIdx (sc.tokens.length - number) t }

def pass (sc : Scanner) (n : Nat) : Scanner :=
  { sc with rest := sc.rest.drop n, place := sc.place.right n }

/-- The scanner behind something read. -/
def passTo {α : Type} (sc : Scanner) (r : Reading α) : Scanner :=
  { sc with rest := r.rest, place := r.place }

/-- Allows or forbids a key here. -/
def allowKey (sc : Scanner) (allowed : Bool) : Scanner := { sc with keyAllowed := allowed }

/-! ### Between tokens -/

/-- Passes blanks, comments and ends of lines. A tabulator does not count as a blank where a key may
begin; behind the end of a line a key may begin. -/
def skipGap (inFlow : Bool) :
    Place → (keyAllowed inComment : Bool) → List Char → Reading Bool
  | p, allowed, _, [] => ⟨allowed, [], p⟩
  | p, allowed, inComment, c :: s =>
    if isBreak c then skipGap inFlow p.nextLine (allowed || !inFlow) false s
    else if inComment || c == ' ' || c == '\t' && (inFlow || !allowed) then
      skipGap inFlow (p.right 1) allowed inComment s
    else if c == '#' then skipGap inFlow (p.right 1) allowed true s
    else ⟨allowed, c :: s, p⟩

/-- Forgets a possible key that lies in an earlier line or too far back; `none` if it had to be
one. -/
def refresh (place : Place) : Option PossibleKey → Option (Option PossibleKey)
  | none => some none
  | some k =>
    if k.place.line < place.line || k.place.column + 1024 < place.column then
      if k.required then none else some none
    else some (some k)

def refreshKeys (sc : Scanner) : Option Scanner := do
  let outer ← refresh sc.place sc.outerKey
  let inner ← sc.innerKeys.mapM (refresh sc.place)
  return { sc with outerKey := outer, innerKeys := inner }

/-- Ends the block collections that begin right of a margin. -/
def closeBlocks (margin : Nat) : (indents : List Nat) → List Token → List Nat × List Token
  | [], tokens => ([], tokens)
  | column :: indents, tokens =>
    if margin ≤ column then closeBlocks margin indents (.blockEnd :: tokens)
    else (column :: indents, tokens)

/-- Ends the block collections that begin right of a margin, unless a bracket is open. -/
def unroll (sc : Scanner) (margin : Nat) : Scanner :=
  if sc.inFlow then sc
  else
    let (indents, tokens) := closeBlocks margin sc.indents sc.tokens
    { sc with indents := indents, tokens := tokens }

/-- Begins a block collection at a column, unless one is there already. -/
def roll (sc : Scanner) (column number : Nat) (t : Token) : Scanner :=
  if sc.inFlow || column < sc.margin then sc
  else { sc.emitAt number t with indents := column :: sc.indents }

def rollHere (sc : Scanner) (t : Token) : Scanner := sc.roll sc.place.column sc.tokens.length t

/-! ### Possible keys -/

/-- Drops the possible key at the innermost level; `none` if it had to be one. -/
def dropKey (sc : Scanner) : Option Scanner :=
  match sc.possibleKey with
  | some k => if k.required then none else some (sc.setKey none)
  | none => some sc

/-- Notes that a key may begin here, if one may. -/
def noteKey (sc : Scanner) : Option Scanner :=
  if sc.keyAllowed then
    sc.dropKey.map fun sc =>
      sc.setKey (some
        ⟨sc.tokens.length, sc.place, !sc.inFlow && sc.margin == sc.place.column + 1⟩)
  else some sc

/-! ### Tokens -/

/-- Ends all block collections, as before a mark of documents. -/
def closeAll (sc : Scanner) : Option Scanner := (sc.unroll 0).dropKey.map (·.allowKey false)

def documentMark (sc : Scanner) (t : Token) : Option Scanner :=
  sc.closeAll.map fun sc => (sc.emit t).pass 3

def directive (sc : Scanner) : Option Scanner := do
  let sc ← sc.closeAll
  let r ← readDirective (sc.place.right 1) (sc.rest.drop 1)
  return (sc.emit (.directive r.value)).passTo r

def openBracket (sc : Scanner) (t : Token) : Option Scanner :=
  sc.noteKey.map fun sc =>
    (({ sc with innerKeys := none :: sc.innerKeys }.emit t).allowKey true).pass 1

def closeBracket (sc : Scanner) (t : Token) : Option Scanner :=
  sc.dropKey.map fun sc =>
    (({ sc with innerKeys := sc.innerKeys.tail }.emit t).allowKey false).pass 1

def comma (sc : Scanner) : Option Scanner :=
  sc.dropKey.map fun sc => ((sc.emit .comma).allowKey true).pass 1

def item (sc : Scanner) : Option Scanner :=
  if !sc.inFlow && !sc.keyAllowed then none
  else
    (sc.rollHere .blockSequence).dropKey.map fun sc => ((sc.emit .item).allowKey true).pass 1

def key (sc : Scanner) : Option Scanner :=
  if !sc.inFlow && !sc.keyAllowed then none
  else
    (sc.rollHere .blockMapping).dropKey.map fun sc =>
      ((sc.emit .key).allowKey !sc.inFlow).pass 1

/-- Reads the colon before a value. What may have been a key before it is one now. -/
def value (sc : Scanner) : Option Scanner :=
  match sc.possibleKey with
  | some k =>
    -- the tokens of the key are there already, so its own is put before them
    let sc := (sc.emitAt k.number .key).roll k.place.column k.number .blockMapping
    some ((((sc.setKey none).emit .value).allowKey false).pass 1)
  | none =>
    if !sc.inFlow && !sc.keyAllowed then none
    else some ((((sc.rollHere .blockMapping).emit .value).allowKey !sc.inFlow).pass 1)

/-- Reads something that a key may begin with: what is read follows after `n` characters. -/
def content {α : Type} (sc : Scanner) (n : Nat)
    (read : Scanner → Place → List Char → Option (Reading α)) (token : α → Token) :
    Option Scanner := do
  let sc ← sc.noteKey
  let r ← read sc (sc.place.right n) (sc.rest.drop n)
  return ((sc.emit (token r.value)).allowKey false).passTo r

def block (sc : Scanner) (fold : Bool) : Option Scanner := do
  let sc ← sc.dropKey
  let r ← readBlock fold sc.margin (sc.place.right 1) (sc.rest.drop 1)
  return ((sc.emit (.scalar r.value false)).allowKey true).passTo r

def plain (sc : Scanner) : Option Scanner := do
  let sc ← sc.noteKey
  let r ← readPlain sc.inFlow sc.margin sc.place .none [] sc.rest
  return ((sc.emit (.scalar r.value.text true)).allowKey r.value.lineEnded).passTo r

/-- Whether a plain scalar can begin with a character that has no other meaning here. -/
def startsPlain (c : Char) : Bool := !",[]\x7b\x7d#&*!|>'\"%@\x60".toList.contains c

/-- Reads the token that begins with `c`, which is before `s`. -/
def token (sc : Scanner) (c : Char) (s : List Char) : Option Scanner :=
  if sc.place.column = 0 && c == '%' then sc.directive
  else if sc.place.column = 0 && atDocumentMark (c :: s) then
    sc.documentMark (if c == '-' then .documentStart else .documentEnd)
  else
    match c with
    | '[' => sc.openBracket .openSequence
    | '\x7b' => sc.openBracket .openMapping
    | ']' => sc.closeBracket .closeSequence
    | '\x7d' => sc.closeBracket .closeMapping
    | ',' => sc.comma
    | '*' => sc.content 1 (fun _ => readName) .alias
    | '&' => sc.content 1 (fun _ => readName) .anchor
    | '!' => sc.content 1 (fun sc => readTag sc.inFlow) .tag
    | '\'' => sc.content 1 (fun _ p => readSingle p .none []) (.scalar · false)
    | '"' => sc.content 1 (fun _ p => readDouble p .none []) (.scalar · false)
    | _ =>
      if c == '-' && atGap s then sc.item
      else if c == '?' && (sc.inFlow || atGap s) then sc.key
      else if c == ':' && (sc.inFlow || atGap s) then sc.value
      else if (c == '|' || c == '>') && !sc.inFlow then sc.block (c == '>')
      else if startsPlain c && isWordPart c then sc.plain
      else none

/-- Reads tokens to the end of the text, which has at most `n` characters. -/
def run : (n : Nat) → Scanner → Option Scanner
  | 0, _ => none
  | n + 1, sc => do
    let gap := skipGap sc.inFlow sc.place sc.keyAllowed false sc.rest
    let sc ← ((sc.passTo gap).allowKey gap.value).refreshKeys
    match sc.rest with
    | [] => (sc.unroll 0).dropKey
    | c :: s => (← (sc.unroll (sc.place.column + 1)).token c s).run n

end Scanner

def tokens? (s : List Char) : Option (List Token) :=
  if s.all isAllowed then
    let s := unifyBreaks s
    let s := Scanner.start s
    let s := match s.rest with
      | '\ufeff' :: _ => s.pass 1
      | _ => s
    (s.run (s.rest.length + 1)).map fun sc => sc.tokens.reverse
  else none

end Signpost.Yaml
