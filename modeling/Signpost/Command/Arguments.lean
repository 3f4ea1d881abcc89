import Signpost.Config

/-!
Commands and how they are told by arguments. There are three commands: one lists the routes, one
matches a request and one makes a URL. Each takes an option for the route table, for which a
variable of the environment stands in. The value of an option or a list is checked only when the
next argument of another kind has been seen; which of several faults is reported follows from this.
-/

namespace Signpost

/-- The commands: listing the routes, matching a request, and making the URL of a route. -/
inductive Command where
  | routes (table : Option String)
  | request (table : Option String) (method path : String)
  | url (table : Option String) (name : String) (params : List (String × String))
  deriving DecidableEq, Repr

/-- Why arguments tell no command; asking for help counts as such. -/
inductive UsageFault where
  | help
  | nothing
  | unknownArgument
  | unknownCommand
  | missingArgument
  | emptyValue
  | malformedValue
  | repeatedOption
  | unneededValue
  deriving DecidableEq, Repr

namespace Command

/-! ### Kinds of commands -/

inductive Kind where
  | routes
  | request
  | url
  deriving DecidableEq, Repr

namespace Kind

def ofString? (s : String) : Option Kind :=
  match s with
  | "routes" => some routes
  | "match" => some request
  | "url" => some url
  | _ => none

/-- How many arguments besides options a command needs. -/
def needed : Kind → Nat
  | routes => 0
  | request => 2
  | url => 1

/-- Whether further arguments, each a key and a value, may follow. -/
def takesPairs : Kind → Bool
  | url => true
  | _ => false

end Kind

/-! ### Options -/

/-- What an argument is by its form. `separator` is two dashes, behind which nothing is an option,
and `word` is no option; an option has its value with it if one is attached. -/
inductive Form where
  | separator
  | help (value : Option (List Char))
  | table (value : Option (List Char))
  | unknown
  | word
  deriving DecidableEq, Repr

namespace Form

/-- The form of an option with a long name, from behind the dashes. -/
def ofLong (s : List Char) : Form :=
  let (name, value) :=
    match Text.cutAt? '=' s with
    | some (name, value) => (name, some value)
    | none => (s, none)
  match String.ofList name with
  | "help" => help value
  | "table" => table value
  | _ => unknown

/-- The form of options of one letter, from behind the dash. What follows the letter of an option
with a value is the value, without an equals sign in front. -/
def ofShort (c : Char) (s : List Char) : Form :=
  match c, s with
  | 'h', _ => help none
  | 't', [] => table none
  | 't', '=' :: value => table (some value)
  | 't', value => table (some value)
  | _, _ => unknown

def of (argument : String) : Form :=
  match argument.toList with
  | ['-', '-'] => separator
  | '-' :: '-' :: s => ofLong s
  | '-' :: c :: s => ofShort c s
  | _ => word

end Form

/-! ### Arguments of a command -/

/-- Values that have been read but not checked: that of the option for the route table, or arguments
that should be keys with values. -/
inductive Pending where
  | table (value : Option String)
  | pairs (values : List String)
  deriving DecidableEq, Repr

/-- What has been read of a command's arguments. In `needed` are the arguments that the command
needs, as many as have been read. -/
structure Arguments where
  table : Option String
  needed : List String
  pairs : List (String × String)
  pending : Option Pending
  deriving DecidableEq, Repr

/-- The key and the value of an argument: a key that is not empty, an equals sign, and the value. -/
def readPair (argument : String) : Except UsageFault (String × String) :=
  match Text.cutAt? '=' argument.toList with
  | some (key, value) =>
    if key = [] then .error .malformedValue
    else .ok (String.ofList key, String.ofList value)
  | none => .error .malformedValue

namespace Arguments

def none : Arguments := ⟨.none, [], [], .none⟩

/-- Sets the route table; it must not be set yet, and its name must not be empty. -/
def setTable (a : Arguments) (value : String) : Except UsageFault Arguments :=
  if a.table.isSome then .error .repeatedOption
  else if value = "" then .error .emptyValue
  else .ok { a with table := some value }

/-- Checks what has not been checked. -/
def settle (a : Arguments) : Except UsageFault Arguments :=
  let rest := { a with pending := .none }
  match a.pending with
  | .none => .ok rest
  | some (.table .none) => .error .emptyValue
  | some (.table (some value)) => rest.setTable value
  | some (.pairs values) =>
    (values.mapM readPair).map fun pairs => { rest with pairs := a.pairs ++ pairs }

def addWord (k : Kind) (a : Arguments) (word : String) : Except UsageFault Arguments :=
  if a.needed.length < k.needed then
    a.settle.map fun a => { a with needed := a.needed ++ [word] }
  else if k.takesPairs then
    match a.pending with
    | some (.pairs values) => .ok { a with pending := some (.pairs (values ++ [word])) }
    | _ => a.settle.map fun a => { a with pending := some (.pairs [word]) }
  else .error .unknownArgument

def readWords (k : Kind) (a : Arguments) : List String → Except UsageFault Arguments
  | [] => a.settle
  | word :: rest =>
    match a.addWord k word with
    | .error e => .error e
    | .ok a => readWords k a rest

def read (k : Kind) (a : Arguments) : List String → Except UsageFault Arguments
  | [] => a.settle
  | argument :: rest =>
    match Form.of argument with
    | .separator => a.readWords k rest
    | .unknown => .error .unknownArgument
    | .help (some _) => .error .unneededValue
    | .help .none =>
      match a.settle with
      | .error e => .error e
      | .ok _ => .error .help
    | .table value =>
      match a.settle with
      | .error e => .error e
      | .ok a =>
        match value with
        | .none => read k { a with pending := some (.table .none) } rest
        | some value =>
          match a.setTable (String.ofList value) with
          | .error e => .error e
          | .ok a => read k a rest
    | .word =>
      match a.pending with
      | some (.table .none) => read k { a with pending := some (.table (some argument)) } rest
      | _ =>
        match a.addWord k argument with
        | .error e => .error e
        | .ok a => read k a rest

/-- Sets the route table from the environment if no option did. -/
def complete (env : Environment) (a : Arguments) : Except UsageFault Arguments :=
  match a.table, env Environment.routes with
  | .none, some value => a.setTable value
  | _, _ => .ok a

def command (k : Kind) (a : Arguments) : Except UsageFault Command :=
  match k, a.needed with
  | .routes, _ => .ok (.routes a.table)
  | .request, method :: path :: _ => .ok (.request a.table method path)
  | .url, name :: _ => .ok (.url a.table name a.pairs)
  | _, _ => .error .missingArgument

end Arguments

/-! ### The command line -/

/-- Whether a word names a command or asks for help. -/
def isCommandWord (s : String) : Bool := s == "help" || (Kind.ofString? s).isSome

/-- What is reported when help is asked for by a word that is followed by these. -/
def helpOn : List String → UsageFault
  | [] => .help
  | [word] => if isCommandWord word then .help else .unknownCommand
  | _ => .unknownCommand

def parseKind (env : Environment) (k : Kind) (args : List String) : Except UsageFault Command := do
  let a ← Arguments.none.read k args
  let a ← a.complete env
  a.command k

/-- The command that arguments tell. -/
def parse (env : Environment) : List String → Except UsageFault Command
  | [] => .error .nothing
  | argument :: rest =>
    match Kind.ofString? argument with
    | some k => parseKind env k rest
    | none =>
      if argument = "help" then .error (helpOn rest)
      else
        match Form.of argument, rest with
        | .separator, [] => .error .nothing
        | .separator, word :: _ =>
          .error (if isCommandWord word then .unknownArgument else .unknownCommand)
        | .help none, _ => .error .help
        | .help (some _), _ => .error .unneededValue
        | .table _, _ | .unknown, _ => .error .unknownArgument
        | .word, _ => .error .unknownCommand

end Command

end Signpost
