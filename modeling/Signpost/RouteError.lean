import Signpost.Template.Basic

/-!
What can go wrong when routes are registered, matched or turned into URLs, and how it is worded.
-/

namespace Signpost

/-- The broad kinds of routing errors: the routes cannot be used, nothing has the path or name asked
for, something was asked for before it existed, or a value is missing. -/
inductive ErrorKind where
  | configuration
  | notFound
  | state
  | value
  deriving DecidableEq, Repr

/-- A routing error. `captureMismatch` is a path that matched without some required parameter; it
tells how many parameters took part and how many should have. `invalidTemplate` has the template as
it was given. -/
inductive RouteError where
  | noRoutes
  | captureMismatch (route : String) (matched named : Nat)
  | invalidTemplate (template : String) (fault : TemplateFault)
  | notFound (method path : String)
  | unknownRoute (name : String)
  | noMatchedRoute
  | missingParameter (route param : String)
  deriving DecidableEq, Repr

namespace RouteError

def kind : RouteError → ErrorKind
  | noRoutes | captureMismatch .. | invalidTemplate .. => .configuration
  | notFound .. | unknownRoute _ => .notFound
  | noMatchedRoute => .state
  | missingParameter .. => .value

def message : RouteError → String
  | noRoutes => "there must be at least one route defined to match against"
  | captureMismatch route matched named =>
    "error matching URL to params of route '" ++ route ++ "': matched(" ++ toString matched ++
      ") != named(" ++ toString named ++ ")"
  | invalidTemplate template fault =>
    "invalid route template '" ++ template ++ "': " ++ fault.message
  | notFound method path => "no route matched " ++ method ++ " /" ++ path
  | unknownRoute name => "route '" ++ name ++ "' not found in defined routes"
  | noMatchedRoute => "unable to return last matched route: no route has been matched yet"
  | missingParameter route param =>
    "error creating URL for route '" ++ route ++ "': required route parameter '" ++ param ++
      "' has not been supplied"

end RouteError

end Signpost
