import Signpost.Route.Basic

/-!
One route and a path, both ways. A match captures the texts of the template's parameters; these are
merged with the route's defaults and the overrides for the method. For `GET` captured texts rank
above overrides, for other methods below; defaults rank lowest. Every value is decoded once.

For a URL, values are put in the places of the tokens, one parameter after the other. An optional
group is written out only if its value is given; a required parameter falls back to the route's
default.
-/

namespace Signpost

def trimPath (path : String) : String := String.ofList (Text.trimSlashes path.toList)

namespace Route

/-! ### Matching -/

/-- Whether a path has the form of the template; no hook is asked. -/
def isMatch (r : Route) (path : String) : Bool :=
  let path := Text.trimSlashes path.toList
  match r.template.regex with
  | some regex => regex.isMatch path
  | none => r.template.text == path

/-- Each parameter's token with the text that it captured, if its group took part. -/
abbrev Captures := List (Token × Option String)

/-- The texts that a path gives to the parameters; none at all if the path does not match. -/
def captures? (r : Route) (path : List Char) : Option Captures :=
  match r.template.regex with
  | some regex =>
    (regex.find? path).map fun m =>
      r.template.tokens.zipIdx.map fun (t, i) => (t, (m.group? (groupName i)).map String.ofList)
  | none => if r.template.text = path then some [] else none

def isOptional (r : Route) (t : Token) : Bool := (r.template.group? t.name).isSome

/-- Refuses captures that lack a required parameter. The number of parameters that should have
taken part counts the required ones and those optional ones that did. -/
def checkCaptures (r : Route) (captures : Captures) : Except RouteError Unit :=
  let found := captures.filter fun (_, text) => text.isSome
  if captures.any fun (t, text) => text.isNone && !r.isOptional t then
    .error (.captureMismatch r.name found.length
      (r.template.tokens.length - r.template.groups.length +
        (found.filter fun (t, _) => r.isOptional t).length))
  else .ok ()

/-- Layers of parameters, lowest rank first, on top of empty places for the template's parameters;
what has no value in the end is left out, and values are decoded. -/
def merge (names : List String) (layers : List (List (String × String))) : Params :=
  let places : OrderedMap String (Option String) := .ofList (names.map fun n => (n, none))
  let filled := layers.foldl (fun m l => m.insertAll (l.map fun (k, v) => (k, some v))) places
  filled.filterMap (Option.map Percent.decode)

/-- The parameters of a match, or nothing if the path does not match. -/
def extract (r : Route) (method : Method) (path : String) : Except RouteError (Option Params) :=
  match r.captures? (Text.trimSlashes path.toList) with
  | none => .ok none
  | some captures =>
    match r.checkCaptures captures with
    | .error e => .error e
    | .ok () =>
      let defaults := r.defaults.toList
      let overrides := ((r.overridesFor? method.text).getD ∅).toList
      let captured := captures.filterMap fun (t, text) => text.map fun s => (t.name, s)
      let layers :=
        if method.isGetInAnyCase then [defaults, overrides, captured]
        else [defaults, captured, overrides]
      .ok (some (merge (r.template.tokens.map Token.name) layers))

/-! ### URLs -/

/-- Puts one parameter's value into a URL that still has its token. -/
def fill (r : Route) (params : Params) (url : List Char) (t : Token) :
    Except RouteError (List Char) :=
  match r.template.group? t.name with
  | some g =>
    let written := match params.get? t.name with
      | some v => g.before ++ (Percent.encode v).toList ++ g.after
      | none => []
    .ok (Text.replaceAll g.text written url)
  | none =>
    match (params.get? t.name).or (r.defaults.get? t.name) with
    | some v => .ok (Text.replaceAll t.text (Percent.encode v).toList url)
    | none => .error (.missingParameter r.name t.name)

/-- Puts the values of several parameters into a URL in turn. -/
def fillAll (r : Route) (params : Params) (url : List Char) :
    List Token → Except RouteError (List Char)
  | [] => .ok url
  | t :: ts =>
    match r.fill params url t with
    | .error e => .error e
    | .ok url => fillAll r params url ts

/-- The URL of a route without a leading slash. A template without parameters is its own URL;
of other templates backslashes are left out. -/
def generate (r : Route) (params : Params) : Except RouteError String :=
  if r.template.isStatic then .ok (String.ofList r.template.text)
  else
    (r.fillAll params r.template.text r.template.tokens).map fun url =>
      String.ofList (url.filter (· != '\\'))

end Route

end Signpost
