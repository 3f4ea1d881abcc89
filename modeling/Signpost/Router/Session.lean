import Signpost.Router.Resolve

/-!
Sessions: a router together with the name of the route that accepted the last request. While a
request is being answered this name is a note that changes with the search: it is crossed out when
the search begins, a route that matches is noted, and if its condition refuses, the note is crossed
out again.
-/

namespace Signpost

namespace Router

/-- Tries routes in order as `scan` does, and tells what is noted when the search ends. -/
def scanNoting (method : Method) (path : String) (note : Option String) :
    List Route → Resolution × Option String
  | [] => (⟨.error (.notFound method.text path), []⟩, note)
  | r :: rs =>
    match r.extract method path with
    | .error e => (⟨.error e, []⟩, note)
    | .ok none => scanNoting method path note rs
    | .ok (some params) =>
      let asked := r.conditionCalls params method path
      if r.accepts params method path then
        (⟨.ok ⟨r.name, r.conclude params method path⟩,
          asked ++ r.callbackCalls params method path⟩, some r.name)
      else
        let (resolution, note) := scanNoting method path none rs
        (resolution.after asked, note)

/-- Answers a request, and tells what is noted afterwards. Without routes there is no search, and
the note stays as it is. -/
def resolveNoting (r : Router) (method : Method) (path : String) (note : Option String) :
    Resolution × Option String :=
  if r.isEmpty then (⟨.error .noRoutes, []⟩, note)
  else scanNoting method (trimPath path) none r.routes

end Router

/-- A router and the name of the route that accepted the last request, which is also the key of this
route (`Router.find?_eq_some_iff`). -/
structure Session where
  router : Router
  matchedName? : Option String

namespace Session

def new (router : Router) : Session := ⟨router, none⟩

/-- Answers a request and remembers which route accepted it. -/
def resolve (s : Session) (method : Method) (path : String) : Resolution × Session :=
  let (resolution, note) := s.router.resolveNoting method path s.matchedName?
  (resolution, { s with matchedName? := note })

/-- The route that accepted the last request. -/
def matchedRoute (s : Session) : Except RouteError Route :=
  match s.matchedName?.bind s.router.find? with
  | some r => .ok r
  | none => .error .noMatchedRoute

end Session

end Signpost
