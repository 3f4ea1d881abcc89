import Signpost.Json.Reader
import Signpost.Json.Writer
import Signpost.Table.Basic
import Signpost.Text.Utf8
import Signpost.Toml.Reader
import Signpost.Yaml.Node

/-!
The formats of route tables. Each is read into a document, and the document into a table; what the
formats treat differently is whether a sequence can stand for a record. A table is loaded from a
file in the format that follows from the ending of the file's name; the files are given as a
function from paths to contents.
-/

namespace Signpost

namespace Table

inductive Format where
  | json
  | yaml
  | toml
  deriving DecidableEq, Repr

namespace Format

def name : Format → String
  | json => "JSON"
  | yaml => "YAML"
  | toml => "TOML"

def read? : Format → List Char → Option Document
  | json => Json.read?
  | yaml => Yaml.read?
  | toml => Toml.read?

/-- How a sequence can stand for a record in a format. -/
def positional : Format → Positional
  | json => .strict
  | yaml => .never
  | toml => .lenient

/-- The format that goes with the ending of a file name, in any case: JSON unless it is one of the
others. -/
def ofExtension (extension : String) : Format :=
  match Text.lowerAscii extension with
  | "yaml" | "yml" => yaml
  | "toml" => toml
  | _ => json

def failure (f : Format) : String := "Failed to parse " ++ f.name ++ " route table"

end Format

end Table

namespace RouteTable

def parse (f : Table.Format) (text : String) : Except TableFault RouteTable :=
  match f.read? text.toList with
  | some d => ofDocument f.positional d
  | none => .error .malformed

def toJson (t : RouteTable) : String := String.ofList (Json.write t.toDocument)

end RouteTable

/-! ### Files -/

/-- The contents of the files that can be read, by path. -/
abbrev Files := String → Option (List UInt8)

namespace Table

def fileName (path : List Char) : List Char :=
  (path.reverse.takeWhile (· != '/')).reverse

/-- The ending of a file name behind its last point; a point in front begins no ending. -/
def extension (path : String) : String :=
  let name := (fileName path.toList).reverse
  match name.dropWhile (· != '.') with
  | _ :: _ :: _ => String.ofList (name.takeWhile (· != '.')).reverse
  | _ => ""

end Table

/-- Why a table could not be loaded: there is no such file or it is not a text, or it is no route
table in its format. -/
inductive LoadError where
  | unreadable (path : String)
  | invalid (path : String) (format : Table.Format) (fault : TableFault)
  deriving DecidableEq, Repr

namespace RouteTable

def load (files : Files) (path : String) : Except LoadError RouteTable :=
  match (files path).bind Utf8.decode? with
  | none => .error (.unreadable path)
  | some text =>
    let format := Table.Format.ofExtension (Table.extension path)
    match parse format (String.ofList text) with
    | .ok t => .ok t
    | .error fault => .error (.invalid path format fault)

end RouteTable

end Signpost
