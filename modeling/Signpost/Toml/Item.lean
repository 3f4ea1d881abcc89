import Signpost.Document
import Signpost.OrderedMap

/-!
Tables of TOML while they are being put together. A table may be opened by a header, by a longer
header that passes through it, or by a dotted key; what may be added to it later depends on this.
-/

namespace Signpost.Toml

/-- How a table came about: by a header or as an element of an array of tables, on the way of a
longer header, or by a dotted key. -/
inductive Origin where
  | header
  | passing
  | dotted
  deriving DecidableEq, Repr

/-- What a key can stand for: a complete value, a table, or an array of tables, the earlier ones
last first. -/
inductive Item where
  | value (d : Document)
  | table (origin : Origin) (entries : List (String × Item))
  | tables (earlier : List (List (String × Item))) (last : List (String × Item))

abbrev Entries := List (String × Item)

namespace Item

mutual

def toDocument : Item → Document
  | value d => d
  | table _ entries => .mapping (ofEntries entries)
  | tables earlier last => .sequence (ofTables earlier [.mapping (ofEntries last)])

def ofEntries : List (String × Item) → List (Option String × Document)
  | [] => []
  | (k, i) :: entries => (some k, i.toDocument) :: ofEntries entries

/-- The tables, last first, as documents in order in front of further ones. -/
def ofTables : List (List (String × Item)) → List Document → List Document
  | [], further => further
  | t :: earlier, further => ofTables earlier (.mapping (ofEntries t) :: further)

end

end Item

namespace Entries

/-- Goes down a path of keys and changes the table at its end, which is told how it came about.
Tables that are missing on the way are made. A dotted key does not go through a table with a
header. -/
def update (dotted : Bool) (f : Origin → Entries → Option Entries) :
    (path : List String) → Origin → Entries → Option Entries
  | [], origin, entries => f origin entries
  | k :: path, _, entries =>
    match OrderedMap.findIn k entries with
    | none =>
      let origin := if dotted then .dotted else .passing
      (update dotted f path origin []).map fun t =>
        OrderedMap.insertIn k (.table origin t) entries
    | some (.value _) => none
    | some (.table origin t) =>
      if dotted && origin == .header then none
      else
        (update dotted f path origin t).map fun t =>
          OrderedMap.insertIn k (.table origin t) entries
    | some (.tables earlier last) =>
      (update dotted f path .header last).map fun t =>
        OrderedMap.insertIn k (.tables earlier t) entries

/-- Adds a value under a key that is not there. -/
def addNew (k : String) (d : Document) (entries : Entries) : Option Entries :=
  if (OrderedMap.findIn k entries).isSome then none
  else some (OrderedMap.insertIn k (.value d) entries)

/-- Adds a value under a key, behind a path of keys if it is a dotted one. The innermost table of
a dotted key must come from dotted keys. -/
def addValue (path : List String) (k : String) (d : Document) (entries : Entries) :
    Option Entries :=
  if path = [] then addNew k d entries
  else
    update true (fun origin t => if origin = .dotted then addNew k d t else none) path .header
      entries

/-- Opens the table with a key by a header: it must be new, or a header must have passed through
it. -/
def openTable (k : String) (entries : Entries) : Option Entries :=
  match OrderedMap.findIn k entries with
  | none => some (OrderedMap.insertIn k (.table .header []) entries)
  | some (.table .passing t) => some (OrderedMap.insertIn k (.table .header t) entries)
  | _ => none

/-- Opens one more table in the array of tables with a key. -/
def openElement (k : String) (entries : Entries) : Option Entries :=
  match OrderedMap.findIn k entries with
  | none => some (OrderedMap.insertIn k (.tables [] []) entries)
  | some (.tables earlier last) =>
    some (OrderedMap.insertIn k (.tables (last :: earlier) []) entries)
  | _ => none

end Entries

end Signpost.Toml
