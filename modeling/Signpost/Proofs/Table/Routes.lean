import Mathlib.Data.List.Forall2
import Signpost.Proofs.OrderedMap
import Signpost.Proofs.Route.Built
import Signpost.Proofs.Router.Priority
import Signpost.Table.Basic

/-!
Routers made from tables. If no name is used twice, the routes are those that the specs describe, in
the order of the table.
-/

namespace Signpost

/-- A spec describes the route that its template compiles to, configured by its settings. -/
def RouteSpec.Describes (s : RouteSpec) (r : Route) : Prop :=
  ∃ r₀, Route.new s.name s.path = .ok r₀ ∧ r = r₀.applyAll s.settings

namespace RouteSpec.Describes

variable {s : RouteSpec} {r : Route}

lemma name_eq (h : s.Describes r) : r.name = s.name := by
  obtain ⟨r₀, hr₀, rfl⟩ := h
  rw [Route.name_applyAll, Route.name_of_new hr₀]

lemma compile (h : s.Describes r) : Template.compile s.path.toList = .ok r.template := by
  obtain ⟨r₀, hr₀, rfl⟩ := h
  rw [Route.template_applyAll]
  exact (Route.template_of_new hr₀).1

lemma eq_applyAll (h : s.Describes r) :
    ∃ t, r = (Route.ofTemplate s.name t).applyAll s.settings := by
  obtain ⟨r₀, hr₀, rfl⟩ := h
  exact ⟨r₀.template, congrArg (·.applyAll s.settings) (Route.template_of_new hr₀).2⟩

lemma configured (h : s.Describes r) :
    r.defaults = s.defaults ∧ r.condition = none ∧ r.callback = none := by
  have hoverrides : ∀ (l : List (String × Params)) (q : Route),
      (q.applyAll (l.map fun o => .overrides o.1 o.2.toList)).defaults = q.defaults ∧
        (q.applyAll (l.map fun o => .overrides o.1 o.2.toList)).condition = q.condition ∧
        (q.applyAll (l.map fun o => .overrides o.1 o.2.toList)).callback = q.callback := by
    intro l
    induction l with
    | nil => exact fun q => ⟨rfl, rfl, rfl⟩
    | cons p l ih => exact fun q => ih (q.addOverrides p.1 p.2.toList)
  obtain ⟨t, rfl⟩ := h.eq_applyAll
  obtain ⟨hd, hcondition, hcallback⟩ :=
    hoverrides s.methods.toList ((Route.ofTemplate s.name t).setDefaults s.defaults.toList)
  have hdefaults : ((Route.ofTemplate s.name t).setDefaults s.defaults.toList).defaults =
      s.defaults := by
    unfold Route.setDefaults
    split
    · rename_i hnil
      exact OrderedMap.ext hnil.symm
    · exact OrderedMap.ofList_toList s.defaults
  refine ⟨hd.trans hdefaults, hcondition.trans ?_, hcallback.trans ?_⟩ <;>
    (unfold Route.setDefaults; split <;> rfl)

end RouteSpec.Describes

namespace Router

variable {s : RouteSpec} {specs : List RouteSpec} {router later : Router} {r : Route}

lemma addSpecs_cons (h : Route.new s.name s.path = .ok r) (router : Router)
    (specs : List RouteSpec) :
    addSpecs router (s :: specs) =
      addSpecs ((router.insert r).configure s.name s.settings) specs := by
  simp [addSpecs, register, h, Except.map]

lemma addSpecs_cons_of_error {e : RouteError} (h : Route.new s.name s.path = .error e)
    (router : Router) (specs : List RouteSpec) : addSpecs router (s :: specs) = .error e := by
  simp [addSpecs, register, h, Except.map]

lemma of_addSpecs_cons (h : addSpecs router (s :: specs) = .ok later) :
    ∃ r, Route.new s.name s.path = .ok r ∧
      addSpecs ((router.insert r).configure s.name s.settings) specs = .ok later := by
  rcases hr : Route.new s.name s.path with e | r
  · rw [addSpecs_cons_of_error hr] at h
    cases h
  · rw [addSpecs_cons hr] at h
    exact ⟨r, rfl, h⟩

lemma exists_addSpecs (h : ∀ s ∈ specs, ∃ r, Route.new s.name s.path = .ok r) (router : Router) :
    ∃ later, addSpecs router specs = .ok later := by
  induction specs generalizing router with
  | nil => exact ⟨router, rfl⟩
  | cons s specs ih =>
    obtain ⟨r, hr⟩ := h s List.mem_cons_self
    rw [addSpecs_cons hr]
    exact ih (fun t ht => h t (List.mem_cons_of_mem s ht)) _

lemma routes_addSpecs (h : addSpecs router specs = .ok later)
    (hn : (router.names ++ specs.map RouteSpec.name).Nodup) :
    ∃ routes, List.Forall₂ RouteSpec.Describes specs routes ∧
      later.routes = router.routes ++ routes := by
  induction specs generalizing router with
  | nil =>
    cases h
    exact ⟨[], .nil, by simp⟩
  | cons s specs ih =>
    obtain ⟨r, hr, hrest⟩ := of_addSpecs_cons h
    have hname : r.name = s.name := Route.name_of_new hr
    -- the names differ, so each specification adds a route at the end
    have hnew : (r.applyAll s.settings).name ∉ router.routes.map Route.name := by
      rw [Route.name_applyAll, hname]
      intro hm
      exact (List.nodup_append.mp hn).2.2 s.name hm s.name (by simp) rfl
    have hroutes := routes_configure_insert router r s.settings
    rw [place_of_not_mem hnew, hname] at hroutes
    have hnames : ((router.insert r).configure s.name s.settings).names =
        router.names ++ [s.name] := by
      rw [names, hroutes]
      simp [names, hname]
    have hn' : (((router.insert r).configure s.name s.settings).names ++
        specs.map RouteSpec.name).Nodup := by
      rw [hnames]
      simpa using hn
    obtain ⟨routes, hall, hlater⟩ := ih hrest hn'
    refine ⟨r.applyAll s.settings :: routes, .cons ⟨r, hr, rfl⟩ hall, ?_⟩
    rw [hlater, hroutes, List.append_assoc, List.singleton_append]

/-- **A table without repeated names** gives the routes that its specs describe. -/
theorem routes_ofTable {table : RouteTable} (h : ofTable table = .ok router)
    (hn : (table.routes.map RouteSpec.name).Nodup) :
    List.Forall₂ RouteSpec.Describes table.routes router.routes := by
  have hnone : (∅ : Router).routes = [] := rfl
  obtain ⟨routes, hall, hroutes⟩ := routes_addSpecs h (by rwa [names, hnone])
  rwa [hroutes, hnone, List.nil_append]

lemma names_ofTable {table : RouteTable} (h : ofTable table = .ok router)
    (hn : (table.routes.map RouteSpec.name).Nodup) :
    router.names = table.routes.map RouteSpec.name := by
  have hnames : List.Forall₂ (fun (s : RouteSpec) (r : Route) => s.name = r.name)
      table.routes router.routes :=
    (routes_ofTable h hn).imp fun s r hd => hd.name_eq.symm
  have heq : List.Forall₂ Eq (table.routes.map RouteSpec.name) (router.routes.map Route.name) := by
    rwa [List.forall₂_map_left_iff, List.forall₂_map_right_iff]
  rw [List.forall₂_eq_eq_eq] at heq
  exact heq.symm

lemma exists_describes {table : RouteTable} (h : ofTable table = .ok router)
    (hn : (table.routes.map RouteSpec.name).Nodup) (hr : r ∈ router.routes) :
    ∃ s ∈ table.routes, s.Describes r := by
  obtain ⟨i, hi, rfl⟩ := List.getElem_of_mem hr
  obtain ⟨hlength, hget⟩ := List.forall₂_iff_get.mp (routes_ofTable h hn)
  exact ⟨_, List.get_mem _ ⟨i, hlength ▸ hi⟩, hget i (hlength ▸ hi) hi⟩

end Router

end Signpost
