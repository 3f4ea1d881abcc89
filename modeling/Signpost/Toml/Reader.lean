import Signpost.Toml.Item
import Signpost.Toml.Number
import Signpost.Toml.Quoted

/-!
Reading TOML: a sequence of headers and of keys with values, one a line. A key belongs to the table
of the last header. Texts are kept; numbers, truth values, dates and times are not told apart.
-/

namespace Signpost.Toml

abbrev Reader := StateT (List Char) Option

namespace Reader

/-- The next character, which stays. -/
def peek : Reader (Option Char) := return (← get).head?

/-- Passes the next character if it is `c`, and tells whether it was. -/
def accept (c : Char) : Reader Bool := do
  match ← get with
  | d :: s =>
    if d = c then
      set s
      return true
    else return false
  | [] => return false

/-- Passes the next character, which must be `c`. -/
def expect (c : Char) : Reader Unit := do
  if !(← accept c) then failure

/-- Runs a function that gives a value and the text behind it. -/
def ofFunction {α : Type} (f : List Char → Option (α × List Char)) : Reader α := fun s => f s

/-- Runs a function that gives the text behind something. -/
def pass (f : List Char → Option (List Char)) : Reader Unit :=
  fun s => (f s).map fun rest => ((), rest)

def blanks : Reader Unit := modify (·.dropWhile isBlank)

def comment : Reader Unit :=
  modify fun s =>
    match s with
    | '#' :: rest => rest.dropWhile isPlain
    | _ => s

def lineEnd : Reader Unit := do
  blanks
  comment
  if (← peek).isSome then pass lineBreak?

/-- Passes blanks, comments and ends of lines, of which there are fewer than `n`. -/
def spaces : (n : Nat) → Reader Unit
  | 0 => failure
  | n + 1 => do
    blanks
    match ← peek with
    | some '#' =>
      comment
      pass lineBreak?
      spaces n
    | some '\n' | some '\r' =>
      pass lineBreak?
      spaces n
    | _ => return

/-! ### Keys -/

def isKeyChar (c : Char) : Bool := c.isAlphanum || c == '_' || c == '-'

def keyPart : Reader String := do
  match ← get with
  | '"' :: s =>
    set s
    return String.ofList (← ofFunction readBasic)
  | '\'' :: s =>
    set s
    return String.ofList (← ofFunction readLiteral)
  | s =>
    let word := s.takeWhile isKeyChar
    if word = [] then failure
    set (s.dropWhile isKeyChar)
    return String.ofList word

def key : (n : Nat) → Reader (List String × String)
  | 0 => failure
  | n + 1 => do
    blanks
    let k ← keyPart
    blanks
    if ← accept '.' then
      let (path, last) ← key n
      return (k :: path, last)
    else return ([], k)

/-! ### Values -/

mutual

/-- Reads a value with `n` steps to spare. -/
def value : (n : Nat) → Reader Document
  | 0 => failure
  | n + 1 => do
    match ← get with
    | '[' :: s =>
      set s
      return .sequence (← items n)
    | '\x7b' :: s =>
      set s
      blanks
      if ← accept '\x7d' then return .mapping []
      return .mapping (Item.ofEntries (← pairs n []))
    | 't' :: 'r' :: 'u' :: 'e' :: s =>
      set s
      return .other
    | 'f' :: 'a' :: 'l' :: 's' :: 'e' :: s =>
      set s
      return .other
    | s =>
      if s.head? = some '"' || s.head? = some '\'' then
        return .text (String.ofList (← ofFunction readText))
      else
        pass skipNumber?
        return .other

def items : (n : Nat) → Reader (List Document)
  | 0 => failure
  | n + 1 => do
    spaces n
    if ← accept ']' then return []
    let d ← value n
    spaces n
    if ← accept ',' then return d :: (← items n)
    expect ']'
    return [d]

def pairs : (n : Nat) → Entries → Reader Entries
  | 0, _ => failure
  | n + 1, entries => do
    let (path, k) ← key n
    expect '='
    blanks
    let d ← value n
    blanks
    let entries ← Entries.addValue path k d entries
    if ← accept ',' then pairs n entries
    else
      expect '\x7d'
      return entries

end

/-! ### Documents -/

/-- The tables read so far, and the path of the last header. -/
structure Progress where
  entries : Entries
  path : List String

namespace Progress

def openTable (p : Progress) (path : List String) (k : String) : Option Progress :=
  (Entries.update false (fun _ => Entries.openTable k) path .header p.entries).map fun entries =>
    ⟨entries, path ++ [k]⟩

def openElement (p : Progress) (path : List String) (k : String) : Option Progress :=
  (Entries.update false (fun _ => Entries.openElement k) path .header p.entries).map fun entries =>
    ⟨entries, path ++ [k]⟩

def addValue (p : Progress) (path : List String) (k : String) (d : Document) : Option Progress :=
  (Entries.update false (fun _ => Entries.addValue path k d) p.path .header p.entries).map
    fun entries => { p with entries := entries }

end Progress

/-- Reads a line with a header, or a key with its value, unless the line is empty. -/
def line (p : Progress) (n : Nat) : Reader Progress := do
  blanks
  match ← get with
  | [] | '#' :: _ | '\n' :: _ | '\r' :: _ => return p
  | '[' :: '[' :: s =>
    set s
    let (path, k) ← key n
    expect ']'
    expect ']'
    p.openElement path k
  | '[' :: s =>
    set s
    let (path, k) ← key n
    expect ']'
    p.openTable path k
  | _ =>
    let (path, k) ← key n
    expect '='
    blanks
    p.addValue path k (← value n)

def lines : (n : Nat) → Progress → Reader Progress
  | 0, _ => failure
  | n + 1, p => do
    let p ← line p n
    lineEnd
    if (← peek).isNone then return p else lines n p

end Reader

/-- The document that a text spells, if it is TOML. -/
def read? (s : List Char) : Option Document :=
  let s :=
    match s with
    | '\ufeff' :: rest => rest
    | _ => s
  ((Reader.lines (2 * s.length + 8) ⟨[], []⟩).run s).map fun (p, _) =>
    .mapping (Item.ofEntries p.entries)

end Signpost.Toml
