import Signpost.Document
import Signpost.Router.Basic

/-!
Route tables: routes as data, in the order in which they are registered. There is a default table,
which finds modules, actions and numbered items by the segments of a path.

As a document, a table is a mapping with the field `routes`, a sequence of mappings with the fields
`name`, `path`, `defaults` and `methods`; only the name and the path must be there.
-/

namespace Signpost

/-- A route as data. Its path is the template, and its methods have the overrides, in whatever
case. -/
structure RouteSpec where
  name : String
  path : String
  defaults : Params
  methods : OrderedMap String Params
  deriving DecidableEq

/-- The steps that configure the route beyond its template. -/
def RouteSpec.settings (s : RouteSpec) : List Route.Setting :=
  .defaults s.defaults.toList :: s.methods.toList.map fun (m, p) => .overrides m p.toList

/-- Routes as data, first registered first. -/
structure RouteTable where
  routes : List RouteSpec
  deriving DecidableEq

namespace RouteTable

/-- The default table: an item, an item's action, an action, a module, and the home page. -/
def default : RouteTable :=
  ⟨[⟨"module-item", "/<:module>/<#item>", .ofList [("action", "view"), ("format", "html")],
      .ofList [("PUT", .ofList [("action", "put")]), ("DELETE", .ofList [("action", "delete")])]⟩,
    ⟨"module-action-item", "/<:module>/<:action>/<#item>", .ofList [("format", "html")], ∅⟩,
    ⟨"module-action", "/<:module>/<:action>", .ofList [("format", "html")], ∅⟩,
    ⟨"module", "/<:module>", .ofList [("action", "index"), ("format", "html")], ∅⟩,
    ⟨"home", "/", .ofList [("module", "Home"), ("action", "index"), ("format", "html")], ∅⟩]⟩

end RouteTable

namespace Router

/-- Registers and configures the routes of a table; a template that cannot be compiled stops it. -/
def addSpecs (r : Router) : List RouteSpec → Except RouteError Router
  | [] => .ok r
  | s :: specs =>
    match r.register s.name s.path with
    | .error e => .error e
    | .ok r => addSpecs (r.configure s.name s.settings) specs

def ofTable (t : RouteTable) : Except RouteError Router := addSpecs ∅ t.routes

end Router

/-! ### Tables as documents -/

namespace RouteSpec

def fieldNames : List String := ["name", "path", "defaults", "methods"]

def ofDocument (p : Positional) (d : Document) : Except TableFault RouteSpec := do
  let fields ← d.asFields p fieldNames
  let name ← (← Document.required fields "name").asText
  let path ← (← Document.required fields "path").asText
  let defaults ← (Document.optional fields "defaults").asParams
  let methods ← (Document.optional fields "methods").asMap Document.asParams
  return ⟨name, path, defaults, methods⟩

/-- A route as a document, in which empty maps are left out. -/
def toDocument (s : RouteSpec) : Document :=
  let defaults :=
    if s.defaults.isEmpty then [] else [(some "defaults", Document.ofParams s.defaults)]
  let methods :=
    if s.methods.isEmpty then []
    else [(some "methods",
      .mapping (s.methods.toList.map fun (m, p) => (some m, Document.ofParams p)))]
  .mapping ((some "name", .text s.name) :: (some "path", .text s.path) :: (defaults ++ methods))

end RouteSpec

namespace RouteTable

def ofDocument (p : Positional) (d : Document) : Except TableFault RouteTable := do
  let fields ← d.asFields p ["routes"]
  let items ← (Document.optional fields "routes").asItems
  let routes ← items.mapM (RouteSpec.ofDocument p)
  return ⟨routes⟩

/-- A table as a document. -/
def toDocument (t : RouteTable) : Document :=
  .mapping [(some "routes", .sequence (t.routes.map RouteSpec.toDocument))]

end RouteTable

end Signpost
