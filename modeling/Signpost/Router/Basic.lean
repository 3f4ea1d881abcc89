import Signpost.Route.Path

/-!
Routers: routes in the order in which they are tried. Registering a name again puts the new route
in the place of the old one, so the order is that of the first registrations, and no name occurs
twice, by type.
-/

namespace Signpost

/-- Routes in the order in which they are tried, no name twice. The key of a route is its own
name. -/
structure Router where
  routes : List Route
  nodup_names : (routes.map Route.name).Nodup

namespace Router

/-- The routes with `r` in the place of the route of its name, or at the end. -/
def place (r : Route) : List Route → List Route
  | [] => [r]
  | r' :: rs => if r'.name = r.name then r :: rs else r' :: place r rs

theorem names_place (r : Route) (rs : List Route) :
    (place r rs).map Route.name =
      if r.name ∈ rs.map Route.name then rs.map Route.name else rs.map Route.name ++ [r.name] := by
  induction rs with
  | nil => simp [place]
  | cons r' rs ih =>
    by_cases h : r'.name = r.name
    · simp [place, h]
    · have h' : r.name ≠ r'.name := fun e => h e.symm
      simp only [place, h, if_false, List.map_cons, ih, List.mem_cons, h', false_or]
      split <;> simp

theorem nodup_names_place (r : Route) {rs : List Route} (h : (rs.map Route.name).Nodup) :
    ((place r rs).map Route.name).Nodup := by
  rw [names_place]
  split
  · exact h
  · rename_i hr
    rw [List.nodup_append]
    refine ⟨h, by simp, ?_⟩
    intro a ha b hb
    rw [List.mem_singleton] at hb
    rintro rfl
    exact hr (hb ▸ ha)

def empty : Router := ⟨[], by simp⟩

instance : EmptyCollection Router := ⟨empty⟩

instance : Inhabited Router := ⟨empty⟩

def names (r : Router) : List String := r.routes.map Route.name

def size (r : Router) : Nat := r.routes.length

def isEmpty (r : Router) : Bool := r.routes.isEmpty

def find? (r : Router) (name : String) : Option Route :=
  r.routes.find? fun route => route.name == name

def insert (r : Router) (route : Route) : Router :=
  ⟨place route r.routes, nodup_names_place route r.nodup_names⟩

/-- Compiles a template and registers the route under a name. -/
def register (r : Router) (name template : String) : Except RouteError Router :=
  (Route.new name template).map r.insert

/-- Configures the route of a name further; without such a route nothing changes. -/
def configure (r : Router) (name : String) (settings : List Route.Setting) : Router :=
  ⟨r.routes.map fun route => if route.name = name then route.applyAll settings else route, by
    have h : (r.routes.map fun route =>
        if route.name = name then route.applyAll settings else route).map Route.name =
          r.routes.map Route.name := by
      rw [List.map_map]
      refine List.map_congr_left fun route _ => ?_
      simp only [Function.comp_apply]
      split <;> simp
    rw [h]
    exact r.nodup_names⟩

def reset (_ : Router) : Router := empty

/-- The URL of the route of a name, without a leading slash. -/
def url (r : Router) (name : String) (params : Params) : Except RouteError String :=
  match r.find? name with
  | some route => route.generate params
  | none => .error (.unknownRoute name)

def urlFor (r : Router) (name : String) : Except RouteError String := r.url name ∅

/-! ### Names

The key of a route is its own name: a route is found under this name and no other. Registering
finds the new route under the name that was given, and neither settings nor a reset give a name to
a route that has another. -/

theorem find?_eq_some_iff {router : Router} {name : String} {r : Route} :
    router.find? name = some r ↔ r ∈ router.routes ∧ r.name = name := by
  constructor
  · exact fun h => ⟨List.mem_of_find?_eq_some h, by simpa using List.find?_some h⟩
  · rintro ⟨h, rfl⟩
    exact find?_key_of_mem router.nodup_names h

theorem register_eq_ok {router later : Router} {name template : String}
    (h : router.register name template = .ok later) :
    ∃ r, Route.new name template = .ok r ∧ r.name = name ∧ later = router.insert r := by
  rcases hr : Route.new name template with e | r
  · rw [register, hr] at h
    cases h
  · rw [register, hr] at h
    cases h
    exact ⟨r, rfl, Route.name_of_new hr, rfl⟩

theorem names_insert (router : Router) (r : Route) :
    (router.insert r).names =
      if r.name ∈ router.names then router.names else router.names ++ [r.name] :=
  names_place r router.routes

theorem names_configure (router : Router) (n : String) (settings : List Route.Setting) :
    (router.configure n settings).names = router.names := by
  simp only [names, configure, List.map_map]
  refine List.map_congr_left fun q _ => ?_
  by_cases h : q.name = n <;> simp [h]

theorem names_reset (router : Router) : router.reset.names = [] := rfl

theorem find?_insert (router : Router) (r : Route) (name : String) :
    (router.insert r).find? name = if r.name = name then some r else router.find? name := by
  have key : ∀ rs : List Route, (place r rs).find? (fun q => q.name == name) =
      if r.name = name then some r else rs.find? fun q => q.name == name := by
    intro rs
    induction rs with
    | nil => by_cases h : r.name = name <;> simp [place, h]
    | cons q rs ih =>
      by_cases hq : q.name = r.name
      · by_cases h : r.name = name <;> simp [place, hq, h]
      · by_cases h : q.name = name
        · have hr : r.name ≠ name := fun e => hq (h.trans e.symm)
          simp [place, h, hr, hr.symm]
        · simp [place, hq, h, ih]
  exact key router.routes

theorem find?_configure (router : Router) (n : String) (settings : List Route.Setting)
    (name : String) :
    (router.configure n settings).find? name =
      if n = name then (router.find? name).map (·.applyAll settings) else router.find? name := by
  have hname : ((fun q : Route => q.name == name) ∘ fun q =>
      if q.name = n then q.applyAll settings else q) = fun q => q.name == name := by
    funext q
    by_cases h : q.name = n <;> simp [h]
  rw [find?, configure, List.find?_map, hname]
  rcases hf : router.routes.find? (fun q => q.name == name) with _ | q
  · by_cases h : n = name <;> simp [find?, hf, h]
  · have hq : q.name = name := by simpa using List.find?_some hf
    by_cases h : n = name
    · simp [find?, hf, hq, h]
    · have h' : ¬ name = n := fun e => h e.symm
      simp [find?, hf, hq, h, h']

end Router

end Signpost
