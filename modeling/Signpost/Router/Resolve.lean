import Signpost.Router.Basic

/-!
Matching a request. Routes are tried in order; the first one that matches the path and whose
condition, if it has one, agrees decides the answer, and its callback makes the final parameters.
A resolution tells the answer together with the hook calls that were made on the way.
-/

namespace Signpost

/-- A request that a route accepted. -/
structure RouteMatch where
  routeName : String
  params : Params
  deriving DecidableEq

namespace RouteMatch

def get? (m : RouteMatch) (name : String) : Option String := m.params.get? name

def module? (m : RouteMatch) : Option String := m.get? "module"

def action? (m : RouteMatch) : Option String := m.get? "action"

end RouteMatch

/-- A hook call with its arguments, and with what the condition said. -/
inductive HookCall where
  | condition (route : String) (params : Params) (method : Method) (path : String) (verdict : Bool)
  | callback (route : String) (params : Params) (method : Method) (path : String)
  deriving DecidableEq

/-- The answer to a request and the hook calls that led to it, first call first. -/
structure Resolution where
  answer : Except RouteError RouteMatch
  calls : List HookCall

namespace Resolution

def after (calls : List HookCall) (r : Resolution) : Resolution := ⟨r.answer, calls ++ r.calls⟩

end Resolution

namespace Route

/-- Whether the condition, if there is one, agrees. -/
def accepts (r : Route) (params : Params) (method : Method) (path : String) : Bool :=
  match r.condition with
  | some c => c params method path
  | none => true

/-- The call that `accepts` makes. -/
def conditionCalls (r : Route) (params : Params) (method : Method) (path : String) :
    List HookCall :=
  match r.condition with
  | some c => [.condition r.name params method path (c params method path)]
  | none => []

/-- The parameters of an accepted match: what the callback makes of them, if there is one. -/
def conclude (r : Route) (params : Params) (method : Method) (path : String) : Params :=
  match r.callback with
  | some f => f params method path
  | none => params

/-- The call that `conclude` makes. -/
def callbackCalls (r : Route) (params : Params) (method : Method) (path : String) :
    List HookCall :=
  match r.callback with
  | some _ => [.callback r.name params method path]
  | none => []

end Route

namespace Router

/-- Tries routes in order for a path without outer slashes. -/
def scan (method : Method) (path : String) : List Route → Resolution
  | [] => ⟨.error (.notFound method.text path), []⟩
  | r :: rs =>
    match r.extract method path with
    -- a faulty match ends the search; a refusal does not
    | .error e => ⟨.error e, []⟩
    | .ok none => scan method path rs
    | .ok (some params) =>
      let asked := r.conditionCalls params method path
      if r.accepts params method path then
        ⟨.ok ⟨r.name, r.conclude params method path⟩, asked ++ r.callbackCalls params method path⟩
      else (scan method path rs).after asked

/-- Answers a request. A router without routes has no answer at all. -/
def resolve (r : Router) (method : Method) (path : String) : Resolution :=
  if r.isEmpty then ⟨.error .noRoutes, []⟩ else scan method (trimPath path) r.routes

def matchRequest (r : Router) (method : Method) (path : String) : Except RouteError RouteMatch :=
  (r.resolve method path).answer

end Router

end Signpost
