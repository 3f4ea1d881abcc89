import Signpost.Proofs.Route.Settings
import Signpost.Proofs.Table.Routes

/-!
Routers made from any table, names used more than once included. The first template that cannot be
compiled stops it. Otherwise each name is listed at its first place in the table, with the route
that the last spec of the name describes.
-/

namespace Signpost

namespace RouteSpec

/-- The parameters that a spec gives for a method, from all its keys that read like the method. -/
def overridesLike (s : RouteSpec) (method : String) : List (String × String) :=
  (s.methods.toList.filter fun p => Text.sameIgnoringCase p.1 method).flatMap fun p => p.2.toList

lemma filterMap_added?_settings (s : RouteSpec) (method : String) :
    s.settings.filterMap (Route.Setting.added? method) =
      (s.methods.toList.filter fun p => Text.sameIgnoringCase p.1 method).map
        fun p => p.2.toList := by
  have hmethods : ∀ l : List (String × Params),
      (l.map fun p => Route.Setting.overrides p.1 p.2.toList).filterMap
          (Route.Setting.added? method) =
        (l.filter fun p => Text.sameIgnoringCase p.1 method).map fun p => p.2.toList := by
    intro l
    induction l with
    | nil => rfl
    | cons p l ih =>
      rw [List.map_cons, List.filterMap_cons, List.filter_cons, ih, Route.Setting.added?]
      by_cases h : Text.sameIgnoringCase p.1 method = true <;> simp [h]
  exact hmethods s.methods.toList

namespace Describes

variable {s : RouteSpec} {r : Route}

lemma overridesFor?_eq (h : s.Describes r) (method : String) :
    r.overridesFor? method =
      if ∃ m ∈ s.methods.keys, Text.sameIgnoringCase m method = true
      then some ((∅ : Params).insertAllNew (s.overridesLike method)) else none := by
  obtain ⟨t, rfl⟩ := h.eq_applyAll
  have hfresh : (Route.ofTemplate s.name t).overridesFor? method = none := rfl
  rw [Route.overridesFor?_applyAll, hfresh, filterMap_added?_settings]
  by_cases hlike : ∃ m ∈ s.methods.keys, Text.sameIgnoringCase m method = true
  · rw [if_pos hlike, if_neg, overridesLike, List.flatMap_def]
    · rfl
    · simpa [OrderedMap.keys] using hlike
  · rw [if_neg hlike, if_pos]
    simpa [OrderedMap.keys] using hlike

lemma overridesFor?_eq_none_iff (h : s.Describes r) (method : String) :
    r.overridesFor? method = none ↔
      ∀ m ∈ s.methods.keys, Text.sameIgnoringCase m method = false := by
  rw [h.overridesFor?_eq, ite_eq_right_iff]
  simp

lemma overridesFor?_eq_some (h : s.Describes r) {method : String} {params : Params}
    (hp : r.overridesFor? method = some params) :
    params.keys = ((s.overridesLike method).map Prod.fst).eraseDups ∧
      ∀ key, params.get? key = OrderedMap.findIn key (s.overridesLike method) := by
  rw [h.overridesFor?_eq, Option.ite_none_right_eq_some] at hp
  obtain rfl := Option.some_inj.mp hp.2
  exact ⟨OrderedMap.keys_insertAllNew_empty _, OrderedMap.get?_insertAllNew_empty _⟩

end Describes

end RouteSpec

namespace Router

variable {s : RouteSpec} {specs : List RouteSpec} {router later : Router} {name : String}

lemma addSpecs_append (router : Router) (specs specs' : List RouteSpec) :
    addSpecs router (specs ++ specs') =
      (addSpecs router specs).bind fun later => addSpecs later specs' := by
  induction specs generalizing router with
  | nil => rfl
  | cons s specs ih =>
    rcases hr : Route.new s.name s.path with e | r
    · rw [List.cons_append, addSpecs_cons_of_error hr, addSpecs_cons_of_error hr]
      rfl
    · rw [List.cons_append, addSpecs_cons hr, addSpecs_cons hr, ih]

lemma addSpecs_eq_error_iff {e : RouteError} :
    addSpecs router specs = .error e ↔
      ∃ (before : List RouteSpec) (s : RouteSpec) (after : List RouteSpec),
        specs = before ++ s :: after ∧
          (∀ q ∈ before, ∃ r, Route.new q.name q.path = .ok r) ∧
          Route.new s.name s.path = .error e := by
  constructor
  · intro h
    induction specs generalizing router with
    | nil => cases h
    | cons s specs ih =>
      rcases hr : Route.new s.name s.path with e' | r
      · rw [addSpecs_cons_of_error hr] at h
        cases h
        exact ⟨[], s, specs, rfl, by simp, hr⟩
      · rw [addSpecs_cons hr] at h
        obtain ⟨before, t, after, rfl, hbefore, ht⟩ := ih h
        exact ⟨s :: before, t, after, rfl, List.forall_mem_cons.mpr ⟨⟨r, hr⟩, hbefore⟩, ht⟩
  · rintro ⟨before, s, after, rfl, hbefore, hs⟩
    obtain ⟨mid, hmid⟩ := exists_addSpecs hbefore router
    rw [addSpecs_append, hmid]
    exact addSpecs_cons_of_error hs mid after

lemma new_of_addSpecs (h : addSpecs router specs = .ok later) :
    ∀ s ∈ specs, ∃ r, Route.new s.name s.path = .ok r := by
  induction specs generalizing router with
  | nil => simp
  | cons s specs ih =>
    obtain ⟨r, hr, hrest⟩ := of_addSpecs_cons h
    exact List.forall_mem_cons.mpr ⟨⟨r, hr⟩, ih hrest⟩

lemma addSpecs_concat (h : addSpecs router (specs ++ [s]) = .ok later) :
    ∃ mid r, addSpecs router specs = .ok mid ∧ Route.new s.name s.path = .ok r ∧
      later = (mid.insert r).configure s.name s.settings := by
  rw [addSpecs_append] at h
  rcases hmid : addSpecs router specs with e | mid
  · rw [hmid] at h
    cases h
  · rw [hmid] at h
    obtain ⟨r, hr, hlast⟩ := of_addSpecs_cons h
    cases hlast
    exact ⟨mid, r, rfl, hr, rfl⟩

lemma names_addSpecs (h : addSpecs ∅ specs = .ok router) :
    router.names = (specs.map RouteSpec.name).eraseDups := by
  -- from the end, because a name keeps its first place
  induction specs using List.reverseRecOn generalizing router with
  | nil =>
    cases h
    rfl
  | append_singleton specs s ih =>
    obtain ⟨mid, r, hmid, hr, rfl⟩ := addSpecs_concat h
    rw [names_configure, names_insert, ih hmid, Route.name_of_new hr, List.map_append,
      List.map_singleton, eraseDups_concat]

lemma find?_addSpecs_of_ne (h : addSpecs router specs = .ok later)
    (hne : ∀ s ∈ specs, s.name ≠ name) : later.find? name = router.find? name := by
  induction specs generalizing router with
  | nil =>
    cases h
    rfl
  | cons s specs ih =>
    obtain ⟨r, hr, hrest⟩ := of_addSpecs_cons h
    obtain ⟨hs, hspecs⟩ := List.forall_mem_cons.mp hne
    rw [ih hrest hspecs, find?_configure, if_neg hs, find?_insert, Route.name_of_new hr, if_neg hs]

lemma find?_addSpecs_of_last {before after : List RouteSpec}
    (h : addSpecs router (before ++ s :: after) = .ok later)
    (hlast : ∀ q ∈ after, q.name ≠ s.name) :
    ∃ r, later.find? s.name = some r ∧ s.Describes r := by
  rw [List.append_cons, addSpecs_append] at h
  rcases hmid : addSpecs router (before ++ [s]) with e | mid
  · rw [hmid] at h
    cases h
  · rw [hmid] at h
    obtain ⟨first, r, -, hr, rfl⟩ := addSpecs_concat hmid
    refine ⟨r.applyAll s.settings, ?_, r, hr, rfl⟩
    rw [find?_addSpecs_of_ne h hlast, find?_configure, if_pos rfl, find?_insert,
      Route.name_of_new hr, if_pos rfl]
    rfl

/-- **The router of a table.** It fails just if some template is rejected, with the error of the
first one. Else the names come in the order in which the table first has them, and under each name
stands the route that the last spec of the name describes: its template, its defaults, no hooks, and
for each method the overrides under all the keys that read like it, of which the first value of each
parameter counts. -/
theorem ofTable_keeps_last_specs (table : RouteTable) :
    (∀ e, ofTable table = .error e ↔
      ∃ (before : List RouteSpec) (s : RouteSpec) (after : List RouteSpec),
        table.routes = before ++ s :: after ∧
          (∀ q ∈ before, ∃ r, Route.new q.name q.path = .ok r) ∧
          Route.new s.name s.path = .error e) ∧
    ((∃ router, ofTable table = .ok router) ↔
      ∀ s ∈ table.routes, ∃ r, Route.new s.name s.path = .ok r) ∧
    ∀ router, ofTable table = .ok router →
      router.names = (table.routes.map RouteSpec.name).eraseDups ∧
      ∀ (before : List RouteSpec) (s : RouteSpec) (after : List RouteSpec),
        table.routes = before ++ s :: after → (∀ q ∈ after, q.name ≠ s.name) →
        ∃ r, router.find? s.name = some r ∧ s.Describes r ∧ r.name = s.name ∧
          Template.compile s.path.toList = .ok r.template ∧ r.defaults = s.defaults ∧
          r.condition = none ∧ r.callback = none ∧
          ∀ method,
            (r.overridesFor? method = none ↔
              ∀ m ∈ s.methods.keys, Text.sameIgnoringCase m method = false) ∧
            ∀ params, r.overridesFor? method = some params →
              params.keys = ((s.overridesLike method).map Prod.fst).eraseDups ∧
              ∀ key, params.get? key = OrderedMap.findIn key (s.overridesLike method) := by
  refine ⟨fun e => addSpecs_eq_error_iff, ⟨fun ⟨router, h⟩ => new_of_addSpecs h,
    fun h => exists_addSpecs h ∅⟩, fun router h => ⟨names_addSpecs h, ?_⟩⟩
  intro before s after hsplit hlast
  rw [ofTable, hsplit] at h
  obtain ⟨r, hfind, hr⟩ := find?_addSpecs_of_last h hlast
  obtain ⟨hdefaults, hcondition, hcallback⟩ := hr.configured
  exact ⟨r, hfind, hr, hr.name_eq, hr.compile, hdefaults, hcondition, hcallback, fun method =>
    ⟨hr.overridesFor?_eq_none_iff method, fun params hp => hr.overridesFor?_eq_some hp⟩⟩

/-- A name that is used twice, the second time with keys for one method in two spellings. -/
def twice : RouteTable where
  routes :=
    [⟨"a", "/x/", .ofList [("k", "v")], .ofList [("PUT", .ofList [("old", "0")])]⟩,
      ⟨"b", "/y", ∅, ∅⟩,
      ⟨"a", "/z/<:id>", ∅, .ofList [("put", .ofList [("p", "1")]), ("get", ∅),
        ("Put", .ofList [("p", "2"), ("q", "3")])]⟩]

theorem ofTable_keeps_last_specs_twice :
    (∃ router r params, ofTable twice = .ok router ∧ router.names = ["a", "b"] ∧
      router.find? "a" = some r ∧ r.defaults = ∅ ∧ r.overridesFor? "delete" = none ∧
      r.overridesFor? "PUT" = some params ∧ params.keys = ["p", "q"] ∧
      params.get? "p" = some "1") ∧
    ofTable ⟨twice.routes ++ [⟨"c", "(<:p><:q>)", ∅, ∅⟩]⟩ =
      .error (.invalidTemplate "(<:p><:q>)" .crowdedGroup) := by
  have hcompiles : ∀ s ∈ twice.routes,
      (Template.compile s.path.toList).toOption.isSome = true := by
    decide +kernel
  have hnew : ∀ s ∈ twice.routes, ∃ r, Route.new s.name s.path = .ok r := fun s hs =>
    ⟨_, Route.new_of_compile s.name (Template.compile_eq_ok_get (hcompiles s hs))⟩
  obtain ⟨-, hbuilds, hkeeps⟩ := ofTable_keeps_last_specs twice
  obtain ⟨router, hrouter⟩ := hbuilds.mpr hnew
  obtain ⟨hnames, hlast⟩ := hkeeps router hrouter
  obtain ⟨r, hfind, -, -, -, hdefaults, -, -, hoverrides⟩ :=
    hlast (twice.routes.take 2) _ [] rfl (by simp)
  have hcrowded : Template.compile "(<:p><:q>)".toList = .error .crowdedGroup := by rfl
  have hrejected : Route.new "c" "(<:p><:q>)" =
      .error (.invalidTemplate "(<:p><:q>)" .crowdedGroup) := by
    rw [Route.new, hcrowded]
  refine ⟨?_, ((ofTable_keeps_last_specs _).1 _).mpr ⟨twice.routes, _, [], rfl, hnew, hrejected⟩⟩
  have hdelete := (hoverrides "delete").1.mpr (by decide +kernel)
  have hput : r.overridesFor? "PUT" ≠ none := fun h =>
    absurd ((hoverrides "PUT").1.mp h) (by decide +kernel)
  obtain ⟨params, hparams⟩ := Option.ne_none_iff_exists'.mp hput
  obtain ⟨hkeys, hget⟩ := (hoverrides "PUT").2 params hparams
  refine ⟨router, r, params, hrouter, ?_, hfind, hdefaults, hdelete, hparams, ?_, ?_⟩
  · rw [hnames]
    decide +kernel
  · rw [hkeys]
    decide +kernel
  · rw [hget]
    decide +kernel

end Router

end Signpost
