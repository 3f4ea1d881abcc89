import Signpost.Table.Format
import Signpost.Unicode.Category

/-!
Configuration by environment variables: which route table is used, whether unusual methods are
refused, and how the log is written. What goes wrong is told to people as a failure, a chain of
causes from the outermost to the innermost.
-/

namespace Signpost

inductive Cause where
  | message (text : String)
  | route (e : RouteError)
  | file (path : String)
  | fault (f : TableFault)
  deriving DecidableEq, Repr

/-- A failure as the chain of its causes. -/
abbrev Failure := List Cause

def LoadError.causes : LoadError → Failure
  | unreadable path => [.message ("Failed to read route table " ++ path), .file path]
  | invalid path format fault =>
    [.message ("Invalid route table " ++ path), .message format.failure, .fault fault]

abbrev Environment := String → Option String

namespace Environment

def routes : String := "WAYMARK_ROUTES"

def strictMethods : String := "WAYMARK_STRICT_METHODS"

/-- The value that a switch tells, if it is one. -/
def readSwitch (value : String) : Option Bool :=
  match Text.lowerAscii (String.ofList (Text.trimWhile Unicode.isBlank value.toList)) with
  | "1" | "true" | "yes" | "on" => some true
  | "0" | "false" | "no" | "off" => some false
  | _ => none

end Environment

/-- The configuration of routing. Without a file of routes the default table is used. -/
structure Config where
  routesFile : Option String
  strictMethods : Bool
  deriving DecidableEq, Repr

namespace Config

def ofEnvironment (env : Environment) : Config :=
  ⟨(env Environment.routes).filter (· ≠ ""),
    ((env Environment.strictMethods).bind Environment.readSwitch).getD false⟩

/-- The methods that are never refused. -/
def supportedMethods : List Method := [.get, .post, .put, .delete, .head]

def allows (c : Config) (method : Method) : Bool :=
  !c.strictMethods || supportedMethods.contains method

def table (c : Config) (files : Files) : Except Failure RouteTable :=
  match c.routesFile with
  | none => .ok .default
  | some path =>
    match RouteTable.load files path with
    | .ok t => .ok t
    | .error e => .error e.causes

def router (c : Config) (files : Files) : Except Failure Router :=
  match c.table files with
  | .error e => .error e
  | .ok t =>
    match Router.ofTable t with
    | .ok r => .ok r
    | .error e => .error [.route e]

end Config

/-- How lines of the log are written: for machines or for people. -/
inductive LogFormat where
  | json
  | pretty
  deriving DecidableEq, Repr

def LogFormat.ofString (s : String) : LogFormat :=
  if Text.sameIgnoringCase s "json" then .json else .pretty

/-- The configuration of the log: the least level of the lines that are written, how they are
written, further filters, whether the place in the program is told, and whether the lines are
written in the background. -/
structure LogConfig where
  level : String
  format : LogFormat
  targetFilter : Option String
  includeLocation : Bool
  inBackground : Bool
  deriving DecidableEq, Repr

/-- The configuration of the log that an environment tells; switches are on only if they read
`true`. -/
def LogConfig.ofEnvironment (env : Environment) : LogConfig where
  level := (env "WAYMARK_LOG_LEVEL").getD "info"
  format := LogFormat.ofString ((env "WAYMARK_LOG_FORMAT").getD "pretty")
  targetFilter := env "WAYMARK_LOG_TARGET_FILTER"
  includeLocation := env "WAYMARK_LOG_INCLUDE_LOCATION" == some "true"
  inBackground := env "WAYMARK_LOG_ASYNC" == some "true"

end Signpost
