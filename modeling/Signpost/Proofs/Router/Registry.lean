import Mathlib.Data.List.DropRight
import Mathlib.Data.List.Induction
import Mathlib.Tactic.Common
import Mathlib.Tactic.Lemma
import Signpost.Proofs.OrderedMap
import Signpost.Router.Basic

/-!
What a router lists after any number of steps. The names come in the order in which they were first
accepted since the last reset. Under each name stands the route of the last registration that was
accepted, configured by the settings that came after it; of a route that was replaced, and of
registrations that were rejected, nothing is left.
-/

namespace Signpost

namespace Router

variable {router : Router} {r : Route}

/-! ### Steps -/

/-- One step in the life of a router: a template is registered under a name, the route of a name is
configured further, or all routes are removed. -/
inductive Step where
  | register (name template : String)
  | configure (name : String) (setting : Route.Setting)
  | reset

/-- The router after one step. A registration that is rejected leaves the router as it is. -/
def step (router : Router) : Step → Router
  | .register name template =>
    match router.register name template with
    | .ok later => later
    | .error _ => router
  | .configure name setting => router.configure name [setting]
  | .reset => router.reset

def run (steps : List Step) : Router := steps.foldl step ∅

lemma run_concat (steps : List Step) (t : Step) : run (steps ++ [t]) = step (run steps) t := by
  simp [run, List.foldl_append]

lemma step_accepted {name template : String} (h : Route.new name template = .ok r) :
    step router (.register name template) = router.insert r := by
  simp [step, register, h, Except.map]

lemma step_rejected {name template : String} {e : RouteError}
    (h : Route.new name template = .error e) :
    step router (.register name template) = router := by
  simp [step, register, h, Except.map]

namespace Step

def isReset : Step → Bool
  | reset => true
  | _ => false

/-- The name that the step registers, if the registration is accepted. -/
def accepted? : Step → Option String
  | register name template => (Route.new name template).toOption.map Route.name
  | _ => none

/-- The setting that the step makes on the route of a name. -/
def setting? (name : String) : Step → Option Route.Setting
  | configure n setting => if n = name then some setting else none
  | _ => none

/-- Nothing of the route that has the name so far is left after the step. -/
def Ends (name : String) (t : Step) : Prop := t.isReset = true ∨ t.accepted? = some name

lemma accepted?_of_new {name template : String} (h : Route.new name template = .ok r) :
    (register name template).accepted? = some name := by
  simp [accepted?, h, Except.toOption, Route.name_of_new h]

lemma accepted?_of_error {name template : String} {e : RouteError}
    (h : Route.new name template = .error e) : (register name template).accepted? = none := by
  simp [accepted?, h, Except.toOption]

end Step

/-! ### Order -/

/-- The names in the order of their accepted registrations since the last reset. -/
def acceptedNames (steps : List Step) : List String :=
  (steps.rtakeWhile fun t => !t.isReset).filterMap Step.accepted?

lemma acceptedNames_reset (steps : List Step) : acceptedNames (steps ++ [.reset]) = [] := by
  simp [acceptedNames, Step.isReset]

lemma acceptedNames_concat (steps : List Step) {t : Step} (h : t.isReset = false) :
    acceptedNames (steps ++ [t]) = acceptedNames steps ++ t.accepted?.toList := by
  rw [acceptedNames, List.rtakeWhile_concat, if_pos (by simp [h]), List.filterMap_append]
  rcases ht : t.accepted? with _ | name <;> simp [acceptedNames, ht]

lemma names_run (steps : List Step) : (run steps).names = (acceptedNames steps).eraseDups := by
  induction steps using List.reverseRecOn with
  | nil => rfl
  | append_singleton steps t ih =>
    rw [run_concat]
    cases t with
    | register name template =>
      rw [acceptedNames_concat steps rfl]
      rcases h : Route.new name template with e | r
      · rw [step_rejected h, Step.accepted?_of_error h, ih]
        simp
      · rw [step_accepted h, Step.accepted?_of_new h, Option.toList_some, eraseDups_concat,
          names_insert, ih, Route.name_of_new h]
    | configure name setting =>
      rw [acceptedNames_concat steps rfl, step, names_configure, ih]
      simp [Step.accepted?]
    | reset => rw [acceptedNames_reset, step, names_reset, List.eraseDups_nil]

/-! ### Contents -/

/-- The steps leave a route under a name: it was made by the last registration of the name that was
accepted, there was no reset since, and the settings for the name since then were made on it. -/
def Leaves (steps : List Step) (name : String) (r : Route) : Prop :=
  ∃ before template r₀ after, steps = before ++ .register name template :: after ∧
    Route.new name template = .ok r₀ ∧ (∀ t ∈ after, ¬ t.Ends name) ∧
    r = r₀.applyAll (after.filterMap (Step.setting? name))

/-- The last step registers the route, or it leaves the route that was there and may configure it. -/
lemma leaves_concat (steps : List Step) (t : Step) (name : String) :
    Leaves (steps ++ [t]) name r ↔
      (∃ template, t = .register name template ∧ Route.new name template = .ok r) ∨
        ¬ t.Ends name ∧ ∃ r', Leaves steps name r' ∧ r = r'.applyAll (t.setting? name).toList := by
  have hlist : [t].filterMap (Step.setting? name) = (t.setting? name).toList := by
    rcases ht : t.setting? name with _ | s <;> simp [ht]
  constructor
  · rintro ⟨before, template, r₀, after, he, hr₀, hafter, rfl⟩
    -- the last step is the registration, or it is the last of the steps behind it
    rcases List.eq_nil_or_concat' after with rfl | ⟨after, u, rfl⟩
    · obtain ⟨-, rfl⟩ := List.append_singleton_inj.mp he
      exact .inl ⟨template, rfl, hr₀⟩
    · rw [← List.cons_append, ← List.append_assoc] at he
      obtain ⟨rfl, rfl⟩ := List.append_singleton_inj.mp he
      have hbefore : Leaves (before ++ .register name template :: after) name
          (r₀.applyAll (after.filterMap (Step.setting? name))) :=
        ⟨before, template, r₀, after, rfl, hr₀, fun v hv => hafter v (by simp [hv]), rfl⟩
      refine .inr ⟨hafter t (by simp), _, hbefore, ?_⟩
      rw [List.filterMap_append, hlist, Route.applyAll_append]
  · rintro (⟨template, rfl, hr⟩ | ⟨ht, _, ⟨before, template, r₀, after, rfl, hr₀, hafter, rfl⟩, rfl⟩)
    · exact ⟨steps, template, r, [], rfl, hr, by simp, rfl⟩
    · refine ⟨before, template, r₀, after ++ [t], by simp, hr₀, fun v hv => ?_, ?_⟩
      · rcases List.mem_append.mp hv with hv | hv
        · exact hafter v hv
        · rwa [List.mem_singleton.mp hv]
      · rw [List.filterMap_append, hlist, Route.applyAll_append]

lemma leaves_accepted (steps : List Step) {name template : String} {r₀ : Route}
    (h : Route.new name template = .ok r₀) :
    Leaves (steps ++ [.register name template]) name r ↔ r = r₀ := by
  rw [leaves_concat]
  constructor
  · rintro (⟨template', ht, hr⟩ | ⟨hend, -⟩)
    · cases ht
      exact Except.ok.inj (hr.symm.trans h)
    · exact absurd (.inr (Step.accepted?_of_new h)) hend
  · rintro rfl
    exact .inl ⟨template, rfl, h⟩

lemma leaves_of_not_ends (steps : List Step) {t : Step} {name : String} (h : ¬ t.Ends name) :
    Leaves (steps ++ [t]) name r ↔
      ∃ r', Leaves steps name r' ∧ r = r'.applyAll (t.setting? name).toList := by
  rw [leaves_concat]
  constructor
  · rintro (⟨template, rfl, hr⟩ | ⟨-, hbefore⟩)
    · exact absurd (.inr (Step.accepted?_of_new hr)) h
    · exact hbefore
  · exact fun hbefore => .inr ⟨h, hbefore⟩

lemma not_leaves_reset (steps : List Step) (name : String) : ¬ Leaves (steps ++ [.reset]) name r := by
  rw [leaves_concat]
  rintro (⟨template, ht, -⟩ | ⟨hend, -⟩)
  · cases ht
  · exact hend (.inl rfl)

lemma find?_run (steps : List Step) (name : String) (r : Route) :
    (run steps).find? name = some r ↔ Leaves steps name r := by
  -- on the last step, because a later one wins
  induction steps using List.reverseRecOn generalizing r with
  | nil =>
    refine iff_of_false (fun h => by cases h) ?_
    rintro ⟨before, template, r₀, after, he, -⟩
    simp at he
  | append_singleton steps t ih =>
    rw [run_concat]
    cases t with
    | register n template =>
      rcases h : Route.new n template with e | r₀
      · have hend : ¬ (Step.register n template).Ends name := by
          simp [Step.Ends, Step.isReset, Step.accepted?_of_error h]
        rw [step_rejected h, leaves_of_not_ends steps hend, ih]
        simp [Step.setting?, Route.applyAll]
      · rw [step_accepted h, find?_insert, Route.name_of_new h]
        by_cases hn : n = name
        · subst hn
          rw [if_pos rfl, leaves_accepted steps h, Option.some_inj, eq_comm]
        · have hend : ¬ (Step.register n template).Ends name := by
            simp [Step.Ends, Step.isReset, Step.accepted?_of_new h, hn]
          rw [if_neg hn, leaves_of_not_ends steps hend, ih]
          simp [Step.setting?, Route.applyAll]
    | configure n setting =>
      have hend : ¬ (Step.configure n setting).Ends name := by
        simp [Step.Ends, Step.isReset, Step.accepted?]
      rw [step, find?_configure, leaves_of_not_ends steps hend]
      by_cases hn : n = name
      · simp only [hn, if_true, Option.map_eq_some_iff, ih, Step.setting?, Option.toList_some]
        exact exists_congr fun r' => and_congr_right fun _ => eq_comm
      · simp [hn, ih, Step.setting?, Route.applyAll]
    | reset => exact iff_of_false (fun h => by cases h) (not_leaves_reset steps name)

/-- **The registry.** After any steps no name is listed twice, and the names stand in the order in
which they were first accepted since the last reset. Under each name a route of this name is found,
just the one that the steps leave there. A registration that is rejected changes nothing, and a
setting on one route leaves the order and all other routes alone. -/
theorem registry_follows_registrations (steps : List Step) :
    (run steps).names.Nodup ∧
    (run steps).names = (acceptedNames steps).eraseDups ∧
    (run steps).size = (run steps).names.length ∧
    ((run steps).isEmpty = true ↔ (run steps).names = []) ∧
    (∀ r ∈ (run steps).routes, (run steps).find? r.name = some r) ∧
    (∀ name r, (run steps).find? name = some r → r.name = name) ∧
    (∀ name r, (run steps).find? name = some r ↔ Leaves steps name r) ∧
    (∀ name template e, Route.new name template = .error e →
      (run steps).register name template = .error e ∧
        run (steps ++ [.register name template]) = run steps) ∧
    ∀ name setting other, other ≠ name →
      (run (steps ++ [.configure name setting])).names = (run steps).names ∧
        (run (steps ++ [.configure name setting])).find? other = (run steps).find? other := by
  refine ⟨(run steps).nodup_names, names_run steps, by simp [size, names], by simp [isEmpty, names],
    fun r hr => find?_eq_some_iff.mpr ⟨hr, rfl⟩, fun name r hr => (find?_eq_some_iff.mp hr).2,
    find?_run steps, fun name template e he => ?_, fun name setting other hother => ?_⟩
  · rw [run_concat, step_rejected he]
    exact ⟨by rw [register, he]; rfl, rfl⟩
  · rw [run_concat, step, names_configure, find?_configure, if_neg hother.symm]
    exact ⟨rfl, rfl⟩

/-- A name registered again keeps its place and nothing else, and a rejected template for it does
not touch the route it has. -/
theorem registry_follows_replacement :
    let steps : List Step := [.register "a" "/x/", .configure "a" (.defaults [("k", "v")]),
      .register "b" "/y", .register "a" "/z"]
    let replaced := Route.ofTemplate "a" (.ofText ['z'])
    (run steps).names = ["a", "b"] ∧ (run steps).find? "a" = some replaced ∧
      Leaves steps "a" replaced ∧ replaced ∈ (run steps).routes ∧
      Route.new "a" "(<:p><:q>)" = .error (.invalidTemplate "(<:p><:q>)" .crowdedGroup) ∧
      run (steps ++ [.register "a" "(<:p><:q>)"]) = run steps ∧
      "b" ≠ "a" ∧
      (run (steps ++ [.configure "a" (.overrides "put" [])])).find? "b" =
        (run steps).find? "b" := by
  intro steps replaced
  have hfind : (run steps).find? "a" = some replaced := rfl
  have hmem : replaced ∈ (run steps).routes := List.mem_of_find?_eq_some hfind
  have hrejected :
      Route.new "a" "(<:p><:q>)" = .error (.invalidTemplate "(<:p><:q>)" .crowdedGroup) := rfl
  have hne : "b" ≠ "a" := by decide
  obtain ⟨-, hnames, -, -, hfound, -, hleaves, hreject, hconfigure⟩ :=
    registry_follows_registrations steps
  exact ⟨hnames, hfound replaced hmem, (hleaves "a" replaced).mp hfind, hmem, hrejected,
    (hreject _ _ _ hrejected).2, hne, (hconfigure "a" (.overrides "put" []) "b" hne).2⟩

end Router

end Signpost
