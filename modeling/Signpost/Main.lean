import Signpost.Command.Run

/-!
The program: it tells a route table's routes, matches a request, or makes a URL, as its arguments
say. What goes wrong is told on the error output.
-/

namespace Signpost

def Cause.wording : Cause → String
  | message text => text
  | route e => e.message
  | file path => "cannot read '" ++ path ++ "' as a text"
  | fault _ => "the document is no route table"

/-- The wording of a fault in the arguments, with how the program is used. -/
def UsageFault.wording (f : UsageFault) : String :=
  let fault :=
    match f with
    | help | nothing => ""
    | unknownArgument => "error: unexpected argument\n\n"
    | unknownCommand => "error: unknown command\n\n"
    | missingArgument => "error: a required argument is missing\n\n"
    | emptyValue => "error: a value is missing\n\n"
    | malformedValue => "error: expected key=value\n\n"
    | repeatedOption => "error: the option cannot be given twice\n\n"
    | unneededValue => "error: the option takes no value\n\n"
  fault ++
    "Usage:\n  routes [--table FILE]\n  match [--table FILE] METHOD PATH\n" ++
    "  url [--table FILE] NAME [KEY=VALUE]...\n"

def readFile? (path : String) : IO (Option (List UInt8)) := do
  try
    return some (← IO.FS.readBinFile path).toList
  catch _ => return none

def readVariable (name : String) : IO (Option (String × String)) :=
  return (← IO.getEnv name).map fun value => (name, value)

def runProgram (args : List String) : IO UInt32 := do
  let settings ← [Environment.routes, Environment.strictMethods].filterMapM readVariable
  let env : Environment := fun name => settings.lookup name
  match Command.parse env args with
  | .error .help =>
    IO.print UsageFault.help.wording
    return 0
  | .error fault =>
    IO.eprint fault.wording
    return 2
  | .ok command =>
    let contents ←
      match command.table with
      | some path => readFile? path
      | none => pure none
    match command.run env fun _ => contents with
    | .ok text =>
      IO.print text
      return 0
    | .error causes =>
      IO.eprintln ("Error: " ++ "\n  ".intercalate (causes.map Cause.wording))
      return 1

end Signpost

def main (args : List String) : IO UInt32 := Signpost.runProgram args
