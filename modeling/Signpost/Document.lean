import Signpost.OrderedMap

/-!
Documents: trees of texts, sequences and mappings. Data files of every format are read into this
one type; what a format can say beyond it is kept only as far as it can be told from a text.

A record is a mapping of known fields. Other keys are ignored, and a field that is given twice is an
error. In maps from keys to values a repeated key takes the later value.
-/

namespace Signpost

/-- A data document. Where a format allows a value to be left out there is `blank`; `other` is a
value that is neither a text nor a container, such as a number. The entries of a mapping stand in
order, repetitions included, and a key that is no text is `none`. -/
inductive Document where
  | text (value : String)
  | blank
  | other
  | sequence (items : List Document)
  | mapping (entries : List (Option String × Document))

instance : Inhabited Document := ⟨.blank⟩

/-- Whether a sequence can stand for a record, its values being the fields in order. If it can,
values that are left over are an error or are ignored. -/
inductive Positional where
  | never
  | strict
  | lenient
  deriving DecidableEq, Repr

/-- Why a document is no route table: its text is not written in the format, something of another
shape is expected, a field is missing or there twice, or a sequence has more values than the record
has fields. -/
inductive TableFault where
  | malformed
  | notRecord
  | notMap
  | notSequence
  | notText
  | missing (field : String)
  | repeated (field : String)
  | surplus
  deriving DecidableEq, Repr

namespace Document

/-- The text of a document; nothing is the empty text. -/
def asText : Document → Except TableFault String
  | text s => .ok s
  | blank => .ok ""
  | _ => .error .notText

/-- The values of a sequence; nothing is an empty one. -/
def asItems : Document → Except TableFault (List Document)
  | sequence items => .ok items
  | blank => .ok []
  | _ => .error .notSequence

/-- The entries of a mapping, whose keys must be texts; nothing is an empty one. -/
def asEntries : Document → Except TableFault (List (String × Document))
  | mapping entries =>
    entries.mapM fun (key, d) =>
      match key with
      | some k => .ok (k, d)
      | none => .error .notText
  | blank => .ok []
  | _ => .error .notMap

/-- The known fields among entries. -/
def fieldsAmong (names : List String) :
    List (String × Document) → Except TableFault (List (String × Document))
  | [] => .ok []
  | (k, d) :: entries =>
    match fieldsAmong names entries with
    | .error e => .error e
    | .ok fields =>
      if !names.contains k then .ok fields
      else if fields.any fun (k', _) => k' == k then .error (.repeated k)
      else .ok ((k, d) :: fields)

/-- The fields of a record, each at most once. -/
def asFields (p : Positional) (names : List String) (d : Document) :
    Except TableFault (List (String × Document)) :=
  match d, p with
  | sequence _, .never => .error .notRecord
  | sequence items, .strict =>
    if items.length ≤ names.length then .ok (names.zip items) else .error .surplus
  | sequence items, .lenient => .ok (names.zip items)
  | d, _ => d.asEntries.bind (fieldsAmong names)

def required (fields : List (String × Document)) (name : String) : Except TableFault Document :=
  match fields.lookup name with
  | some d => .ok d
  | none => .error (.missing name)

/-- A field that counts as nothing if it is not there. -/
def optional (fields : List (String × Document)) (name : String) : Document :=
  (fields.lookup name).getD .blank

def asMap {α : Type} (f : Document → Except TableFault α) (d : Document) :
    Except TableFault (OrderedMap String α) := do
  let entries ← d.asEntries
  let pairs ← entries.mapM fun (k, v) => (f v).map fun a => (k, a)
  return .ofList pairs

def asParams (d : Document) : Except TableFault Params := d.asMap asText

def ofParams (p : Params) : Document := .mapping (p.toList.map fun (k, v) => (some k, .text v))

end Document

end Signpost
