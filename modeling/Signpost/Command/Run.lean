import Signpost.Command.Arguments
import Signpost.Router.Resolve

/-!
Running commands. First the router is made, then the arguments are looked at, and then the command
prints: the list of routes line by line, anything else at once. What has been printed is kept when a
command fails.
-/

namespace Signpost

namespace Command

/-- The configuration of a command: its route table, and the rest from the environment. -/
def config (env : Environment) (table : Option String) : Config :=
  { Config.ofEnvironment env with routesFile := table }

/-- A line that tells the name, the template and the defaults of a route. -/
def routeLine (r : Route) : List Char :=
  Text.padRight 20 r.name.toList ++ " /".toList ++ Text.padRight 32 r.template.text ++ ' ' ::
    (Json.write (Document.ofParams r.defaults) ++ ['\n'])

/-- A match as a document with sorted keys. -/
def matchDocument (m : RouteMatch) : Document :=
  let params := m.params.toList.mergeSort fun (k, _) (l, _) => k ≤ l
  .mapping
    [(some "params", .mapping (params.map fun (k, v) => (some k, .text v))),
      (some "route", .text m.routeName)]

/-- The method that an argument tells, if it is one and is not refused. -/
def readMethod (c : Config) (argument : String) : Except Failure Method :=
  match Method.ofString? (Text.upperAscii argument) with
  | none =>
    .error [.message ("Invalid HTTP method '" ++ argument ++ "'"), .message "invalid HTTP method"]
  | some m =>
    if c.allows m then .ok m
    else
      .error [.message
        ("method " ++ m.text ++ " is not routed when " ++ Environment.strictMethods ++ " is set")]

def matchText (c : Config) (r : Router) (method path : String) : Except Failure (List Char) :=
  match readMethod c method with
  | .error e => .error e
  | .ok method =>
    match r.matchRequest method path with
    | .error e => .error [.route e]
    | .ok m => .ok (Json.writeLines 0 (matchDocument m) ++ ['\n'])

def urlText (r : Router) (name : String) (params : List (String × String)) :
    Except Failure (List Char) :=
  match r.url name (.ofList params) with
  | .error e => .error [.message ("Cannot build URL for '" ++ name ++ "'"), .route e]
  | .ok text => .ok ('/' :: (text.toList ++ ['\n']))

def table : Command → Option String
  | routes t | request t _ _ | url t _ _ => t

/-- Prints a text behind what was printed before; the writer is taken to accept every text. -/
def print (text : List Char) : EStateM Failure String Unit :=
  modify fun printed => printed ++ String.ofList text

/-- Executes a command; the state is what has been printed. -/
def execute (env : Environment) (files : Files) (c : Command) : EStateM Failure String Unit := do
  let config := config env c.table
  let router ← MonadExcept.ofExcept (config.router files)
  match c with
  | routes _ => router.routes.forM fun r => print (routeLine r)
  | request _ method path =>
    print (← MonadExcept.ofExcept (matchText config router method path))
  | url _ name params => print (← MonadExcept.ofExcept (urlText router name params))

/-- What a command prints, or why it fails. -/
def run (env : Environment) (files : Files) (c : Command) : Except Failure String :=
  match (execute env files c).run "" with
  | .ok () printed => .ok printed
  | .error e _ => .error e

end Command

end Signpost
