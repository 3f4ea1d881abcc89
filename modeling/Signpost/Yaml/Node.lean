import Signpost.Document
import Signpost.Yaml.Token

/-!
Documents from YAML tokens. An alias stands for the last node with its anchor; an alias inside the
node that it names stands for no text, sequence or mapping. A value that is left out is nothing, and
scalars of all kinds are texts.
-/

namespace Signpost.Yaml

/-- The tokens to be read and the nodes that have anchors, last first. -/
structure Input where
  tokens : List Token
  anchors : List (String × Document)

abbrev Reader := StateT Input Option

namespace Reader

def peek : Reader (Option Token) := return (← get).tokens.head?

def skip : Reader Unit := modify fun i => { i with tokens := i.tokens.tail }

/-- Passes the next token if it is `t`, and tells whether it was. -/
def accept (t : Token) : Reader Bool := do
  if (← peek) = some t then
    skip
    return true
  else return false

/-- Passes the next token, which must be `t`. -/
def expect (t : Token) : Reader Unit := do
  if !(← accept t) then failure

def resolve (name : String) : Reader Document := do
  match (← get).anchors.lookup name with
  | some d => return d
  | none => failure

/-- Opens an anchor; gives how many there were. -/
def openAnchor (name : String) : Reader Nat := do
  let anchors := (← get).anchors
  modify fun i => { i with anchors := (name, .other) :: anchors }
  return anchors.length

/-- Sets the node of the anchor before which there were `count`. -/
def closeAnchor (count : Nat) (d : Document) : Reader Unit :=
  modify fun i =>
    { i with
      anchors := i.anchors.modify (i.anchors.length - 1 - count) fun (name, _) => (name, d) }

/-- What stands before a node: its anchor, if it has one, and whether anything stands there. -/
structure Properties where
  anchor? : Option String
  given : Bool

def anchor? : Reader (Option String) := do
  match ← peek with
  | some (.anchor name) =>
    skip
    return some name
  | _ => return none

/-- Reads a tag, if there is one, whose handle must be known; tells whether there is one. -/
def tag (handles : List String) : Reader Bool := do
  match ← peek with
  | some (.tag handle) =>
    skip
    if handles.contains handle then return true else failure
  | _ => return false

/-- Reads what stands before a node, in either order. -/
def properties (handles : List String) : Reader Properties := do
  match ← anchor? with
  | some name =>
    let _ ← tag handles
    return ⟨some name, true⟩
  | none =>
    if ← tag handles then return ⟨← anchor?, true⟩ else return ⟨none, false⟩

def ofScalar (text : List Char) (plain : Bool) : Document :=
  if plain && text.isEmpty then .blank else .text (String.ofList text)

def asKey : Document → Option String
  | .text s => some s
  | .blank => some ""
  | _ => none

/-- Where a node stands, an entry being a key or value of a mapping: in some places of a block
values are left out or need no indentation. -/
inductive Position where
  | block
  | entry
  | flow
  deriving DecidableEq, Repr

mutual

/-- Reads a node with `n` steps to spare. -/
def node (handles : List String) (position : Position) : (n : Nat) → Reader Document
  | 0 => failure
  | n + 1 => do
    match ← peek with
    | some (.alias name) =>
      skip
      resolve name
    | _ =>
      let p ← properties handles
      match p.anchor? with
      | some name =>
        let count ← openAnchor name
        let d ← body handles position true n
        closeAnchor count d
        return d
      | none => body handles position p.given n

/-- Reads a node behind its properties; if there are any, the rest may be left out. -/
def body (handles : List String) (position : Position) (mayBeBlank : Bool) :
    (n : Nat) → Reader Document
  | 0 => failure
  | n + 1 => do
    match ← peek, position with
    | some .item, .entry => return .sequence (← plainItems handles n)
    | some (.scalar text plain), _ =>
      skip
      return ofScalar text plain
    | some .openSequence, _ =>
      skip
      return .sequence (← flowItems handles true n)
    | some .openMapping, _ =>
      skip
      return .mapping (← flowEntries handles true n)
    | some .blockSequence, .block | some .blockSequence, .entry =>
      skip
      return .sequence (← blockItems handles n)
    | some .blockMapping, .block | some .blockMapping, .entry =>
      skip
      return .mapping (← blockEntries handles n)
    | _, _ => if mayBeBlank then return .blank else failure

/-- Reads a node unless one of these tokens stands there, in whose place it is left out. -/
def nodeUnless (handles : List String) (position : Position) (ends : List Token) :
    (n : Nat) → Reader Document
  | 0 => failure
  | n + 1 => do
    match ← peek with
    | some t => if ends.contains t then return .blank else node handles position n
    | none => failure

def blockItems (handles : List String) : (n : Nat) → Reader (List Document)
  | 0 => failure
  | n + 1 => do
    if ← accept .item then
      let d ← nodeUnless handles .block [.item, .blockEnd] n
      return d :: (← blockItems handles n)
    else
      expect .blockEnd
      return []

/-- Reads the items of a sequence that is indented as much as the mapping around it. -/
def plainItems (handles : List String) : (n : Nat) → Reader (List Document)
  | 0 => failure
  | n + 1 => do
    if ← accept .item then
      let d ← nodeUnless handles .block [.item, .key, .value, .blockEnd] n
      return d :: (← plainItems handles n)
    else return []

def blockEntries (handles : List String) : (n : Nat) → Reader (List (Option String × Document))
  | 0 => failure
  | n + 1 => do
    if ← accept .key then
      let k ← nodeUnless handles .entry [.key, .value, .blockEnd] n
      let d ←
        if ← accept .value then nodeUnless handles .entry [.key, .value, .blockEnd] n
        else pure .blank
      return (asKey k, d) :: (← blockEntries handles n)
    else
      expect .blockEnd
      return []

/-- Reads the items of a sequence between brackets, after a comma if it is not the first one. An
item with a key is a mapping of one entry. -/
def flowItems (handles : List String) (first : Bool) : (n : Nat) → Reader (List Document)
  | 0 => failure
  | n + 1 => do
    if ← accept .closeSequence then return []
    if !first then expect .comma
    if ← accept .closeSequence then return []
    let d ←
      if ← accept .key then
        let k ← pairKey handles n
        let v ←
          if ← accept .value then nodeUnless handles .flow [.comma, .closeSequence] n
          else pure .blank
        pure (.mapping [(asKey k, v)])
      else node handles .flow n
    return d :: (← flowItems handles false n)

/-- Reads the key of an item. Where it is left out, the token in its place is passed. -/
def pairKey (handles : List String) : (n : Nat) → Reader Document
  | 0 => failure
  | n + 1 => do
    match ← peek with
    | some .value | some .comma | some .closeSequence =>
      skip
      return .blank
    | _ => node handles .flow n

/-- Reads the entries of a mapping between braces, after a comma if it is not the first one. -/
def flowEntries (handles : List String) (first : Bool) :
    (n : Nat) → Reader (List (Option String × Document))
  | 0 => failure
  | n + 1 => do
    if ← accept .closeMapping then return []
    if !first then expect .comma
    if ← accept .closeMapping then return []
    if ← accept .key then
      let k ← nodeUnless handles .flow [.value, .comma, .closeMapping] n
      let v ←
        if ← accept .value then nodeUnless handles .flow [.comma, .closeMapping] n
        else pure .blank
      return (asKey k, v) :: (← flowEntries handles false n)
    else
      let k ← node handles .flow n
      return (asKey k, .blank) :: (← flowEntries handles false n)

end

/-! ### Documents -/

/-- Whether the format of a version can be read. -/
def knownVersion (major minor : Nat) : Bool := major == 1 && (minor == 1 || minor == 2)

/-- Reads the directives before a document: the handles they declare. At most one may tell the
version, and no handle may be declared twice. -/
def directives (version : Bool) (handles : List String) :
    List Token → Option (List String × List Token)
  | .directive (.version major minor) :: tokens =>
    if version || !knownVersion major minor then none else directives true handles tokens
  | .directive (.handle name) :: tokens =>
    if handles.contains name then none else directives version (name :: handles) tokens
  | tokens => some (handles, tokens)

def root (handles : List String) (n : Nat) : Reader Document := do
  match ← peek with
  | none | some .documentStart | some .documentEnd | some (.directive _) => return .blank
  | _ => node handles .block n

def document : Reader Document := do
  let tokens := (← get).tokens
  let (declared, rest) ← directives false [] tokens
  set { (← get) with tokens := rest }
  let explicit ← accept .documentStart
  if !explicit && rest.length < tokens.length then failure
  let handles := "" :: "!" :: "!!" :: declared
  let n := 4 * tokens.length + 4
  if explicit then root handles n
  else if tokens.isEmpty then return .blank
  else node handles .block n

end Reader

/-- The document that a text spells, if it is YAML with at most one document; without one the
document is nothing. -/
def read? (s : List Char) : Option Document :=
  match (tokens? s).bind fun tokens => Reader.document.run ⟨tokens, []⟩ with
  | none => none
  | some (d, input) =>
    if input.tokens.all (· == .documentEnd) then some d else none

end Signpost.Yaml
