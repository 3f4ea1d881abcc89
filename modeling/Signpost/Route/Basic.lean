import Signpost.OrderedMap
import Signpost.RouteError

/-!
Routes: a name, a compiled template, default parameters, overrides for single methods, and two
hooks, a condition that can refuse a match and a callback that makes new parameters of the old.
Request methods are non-empty words of ASCII letters, digits and certain signs; case counts.
-/

namespace Signpost

/-! ### Methods -/

def isMethodChar (c : Char) : Bool := c.isAlphanum || "!#$%&'*+-.^_\x60|~".toList.contains c

/-- A request method. Its text is a word of method characters, by type. -/
structure Method where
  text : String
  valid : text.toList ≠ [] ∧ text.toList.all isMethodChar = true
  deriving DecidableEq

namespace Method

/-- The method with a text, if it is one. -/
def ofString? (s : String) : Option Method :=
  if h : s.toList ≠ [] ∧ s.toList.all isMethodChar = true then some ⟨s, h⟩ else none

def get : Method := ⟨"GET", by decide +kernel⟩

def post : Method := ⟨"POST", by decide +kernel⟩

def put : Method := ⟨"PUT", by decide +kernel⟩

def delete : Method := ⟨"DELETE", by decide +kernel⟩

def head : Method := ⟨"HEAD", by decide +kernel⟩

def isGetInAnyCase (m : Method) : Bool := Text.sameIgnoringCase m.text "GET"

theorem ofString?_eq_some {s : String} {m : Method} : ofString? s = some m ↔ m.text = s := by
  unfold ofString?
  constructor
  · intro h
    split at h
    · cases h; rfl
    · cases h
  · rintro rfl
    rw [dif_pos m.valid]

end Method

/-! ### Routes -/

/-- A test of the merged parameters, the method and the path without outer slashes. -/
abbrev Condition := Params → Method → String → Bool

/-- A function from the merged parameters, the method and the path to the parameters of the
match. -/
abbrev Callback := Params → Method → String → Params

/-- A route. The overrides are parameters for the matches of one method, by its name in upper
case. -/
structure Route where
  name : String
  template : Template
  defaults : Params
  overrides : OrderedMap String Params
  condition : Option Condition
  callback : Option Callback

namespace Route

def ofTemplate (name : String) (template : Template) : Route :=
  ⟨name, template, ∅, ∅, none, none⟩

/-- Compiles a template into a route. The error tells the template as it was given. -/
def new (name template : String) : Except RouteError Route :=
  match Template.compile template.toList with
  | .ok t => .ok (ofTemplate name t)
  | .error fault => .error (.invalidTemplate template fault)

theorem name_of_new {name template : String} {r : Route} (h : new name template = .ok r) :
    r.name = name := by
  unfold new at h
  split at h
  · cases h; rfl
  · cases h

/-- The overrides for a method, whatever its case. -/
def overridesFor? (r : Route) (method : String) : Option Params :=
  r.overrides.get? (Text.upperAscii method)

/-- Sets the defaults; an empty list leaves them as they are. -/
def setDefaults (r : Route) (params : List (String × String)) : Route :=
  if params = [] then r else { r with defaults := .ofList params }

/-- Adds overrides for a method, whatever its case; of a key the first value stays. -/
def addOverrides (r : Route) (method : String) (params : List (String × String)) : Route :=
  let key := Text.upperAscii method
  { r with
    overrides := r.overrides.insert key (((r.overrides.get? key).getD ∅).insertAllNew params) }

def setCondition (r : Route) (c : Condition) : Route := { r with condition := some c }

def setCallback (r : Route) (c : Callback) : Route := { r with callback := some c }

inductive Setting where
  | defaults (params : List (String × String))
  | overrides (method : String) (params : List (String × String))
  | condition (c : Condition)
  | callback (c : Callback)

def apply (r : Route) : Setting → Route
  | .defaults params => r.setDefaults params
  | .overrides method params => r.addOverrides method params
  | .condition c => r.setCondition c
  | .callback c => r.setCallback c

def applyAll (r : Route) (settings : List Setting) : Route := settings.foldl apply r

/-- Optional parameters, each with its default if it has one. -/
def optionalDefaults (r : Route) : List (String × Option String) :=
  r.template.groups.map fun g => (g.token.name, r.defaults.get? g.token.name)

theorem applyAll_append (r : Route) (l m : List Setting) :
    r.applyAll (l ++ m) = (r.applyAll l).applyAll m := List.foldl_append

@[simp] theorem name_apply (r : Route) (s : Setting) : (r.apply s).name = r.name := by
  cases s <;> simp only [apply, setDefaults, addOverrides, setCondition, setCallback]
  split <;> rfl

@[simp] theorem template_apply (r : Route) (s : Setting) :
    (r.apply s).template = r.template := by
  cases s <;> simp only [apply, setDefaults, addOverrides, setCondition, setCallback]
  split <;> rfl

@[simp] theorem name_applyAll (r : Route) (l : List Setting) : (r.applyAll l).name = r.name := by
  induction l generalizing r with
  | nil => rfl
  | cons s l ih => exact (ih (r.apply s)).trans (name_apply r s)

@[simp] theorem template_applyAll (r : Route) (l : List Setting) :
    (r.applyAll l).template = r.template := by
  induction l generalizing r with
  | nil => rfl
  | cons s l ih => exact (ih (r.apply s)).trans (template_apply r s)

end Route

end Signpost
