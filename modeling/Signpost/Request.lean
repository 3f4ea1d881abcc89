import Signpost.Router.Resolve

/-!
Requests: a method and a URI, taken apart into path and query, and the parameters that were set on
them. Matching a request adds the parameters of the match; those already set stay.
-/

namespace Signpost

/-- A request. Its path is one slash and the URI's text before the first `?`, without its outer
slashes; `params` are the parameters that were set. -/
structure Request where
  method : Method
  uri : String
  path : String
  query : Params
  params : Params
  deriving DecidableEq

namespace Request

/-- A URI's text before its first `?` and, if there is one, the text behind it. -/
def splitUri (uri : List Char) : List Char × Option (List Char) :=
  match Text.cutAt? '?' uri with
  | some (path, query) => (path, some query)
  | none => (uri, none)

/-- The request for a URI, without parameters. -/
def new (method : Method) (uri : String) : Request :=
  let (path, query) := splitUri uri.toList
  ⟨method, uri, String.ofList ('/' :: Text.trimSlashes path),
    .ofList ((query.map Percent.queryPairs).getD []), ∅⟩

/-- Looks a name up: first the method, the path and the URI, then the parameters, of which empty
ones count as missing. -/
def get? (r : Request) (name : String) : Option String :=
  match name with
  | "method" => some r.method.text
  | "path" => some r.path
  | "uri" => some r.uri
  | _ => (r.params.get? name).filter (· ≠ "")

def setParam (r : Request) (key value : String) : Request :=
  { r with params := r.params.insert key value }

/-- Sets those parameters that were not set before. -/
def addParams (r : Request) (params : Params) : Request :=
  { r with params := r.params.insertAllNew params.toList }

/-- Matches the request and sets the parameters of the match. -/
def route (r : Request) (router : Router) : Except RouteError RouteMatch × Request :=
  match router.matchRequest r.method r.path with
  | .ok m => (.ok m, r.addParams m.params)
  | .error e => (.error e, r)

theorem route_of_ok {r : Request} {router : Router} {m : RouteMatch}
    (h : router.matchRequest r.method r.path = .ok m) :
    r.route router = (.ok m, r.addParams m.params) := by
  rw [route, h]

theorem route_of_error {r : Request} {router : Router} {e : RouteError}
    (h : router.matchRequest r.method r.path = .error e) : r.route router = (.error e, r) := by
  rw [route, h]

/-- The answer depends on the method and the path alone. -/
theorem route_fst (r : Request) (router : Router) :
    (r.route router).1 = router.matchRequest r.method r.path := by
  rcases h : router.matchRequest r.method r.path with e | m
  · rw [route_of_error h]
  · rw [route_of_ok h]

end Request

end Signpost
