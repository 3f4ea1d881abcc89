import Signpost.Proofs.Route.Built

/-!
What several steps of configuration make of a route. All overrides for a method in whatever case
add up, and of a parameter that is given more than once the first value stays; of the defaults, as
of the hooks, only the last step counts. Nothing else changes, and no kind of step has an effect on
what another kind sets.
-/

namespace Signpost.Route

/-- The parameters that a step adds for a method, in whatever case. -/
def Setting.added? (method : String) : Setting → Option (List (String × String))
  | .overrides m params => if Text.sameIgnoringCase m method then some params else none
  | _ => none

/-- Parameters on top of those a method may have already. -/
def addTo (params : Option Params) (added : Option (List (String × String))) : Option Params :=
  match added with
  | some l => some ((params.getD ∅).insertAllNew l)
  | none => params

lemma overridesFor?_apply (r : Route) (s : Setting) (method : String) :
    (r.apply s).overridesFor? method = addTo (r.overridesFor? method) (s.added? method) := by
  cases s with
  | defaults params =>
    rw [apply, setDefaults]
    split <;> rfl
  | overrides m params =>
    have hsame := Text.sameIgnoringCase_iff (s := m) (t := method)
    rw [apply, addOverrides, overridesFor?, OrderedMap.get?_insert, Setting.added?]
    by_cases h : Text.sameIgnoringCase m method = true
    · rw [if_pos (hsame.mp h), if_pos h, hsame.mp h]
      rfl
    · rw [if_neg fun e => h (hsame.mpr e), if_neg h]
      rfl
  | condition c => rfl
  | callback c => rfl

/-- **Overrides add up.** A method has overrides if it had some before or a step adds some, and then
they are the old ones with all that is added for the method, in order. -/
theorem overridesFor?_applyAll (r : Route) (settings : List Setting) (method : String) :
    (r.applyAll settings).overridesFor? method =
      if settings.filterMap (Setting.added? method) = [] then r.overridesFor? method
      else some (((r.overridesFor? method).getD ∅).insertAllNew
        (settings.filterMap (Setting.added? method)).flatten) := by
  induction settings generalizing r with
  | nil => rfl
  | cons s settings ih =>
    have hstep : r.applyAll (s :: settings) = (r.apply s).applyAll settings := rfl
    rw [hstep, ih, overridesFor?_apply, List.filterMap_cons]
    rcases s.added? method with _ | l
    · rfl
    · by_cases h : settings.filterMap (Setting.added? method) = []
      · simp [h, addTo]
      · simp [h, addTo, OrderedMap.insertAllNew_append]

/-! ### Defaults and hooks -/

/-- A step that leaves the defaults as they are: it is about something else, or gives none. -/
def Setting.KeepsDefaults : Setting → Prop
  | .defaults params => params = []
  | _ => True

def Setting.condition? : Setting → Option Condition
  | .condition c => some c
  | _ => none

def Setting.callback? : Setting → Option Callback
  | .callback c => some c
  | _ => none

lemma defaults_apply_of_keeps {s : Setting} (h : s.KeepsDefaults) (r : Route) :
    (r.apply s).defaults = r.defaults := by
  cases s with
  | defaults params =>
    have hnil : params = [] := h
    rw [apply, setDefaults, if_pos hnil]
  | overrides m params => rfl
  | condition c => rfl
  | callback c => rfl

lemma defaults_applyAll_of_keeps {settings : List Setting}
    (h : ∀ s ∈ settings, s.KeepsDefaults) (r : Route) :
    (r.applyAll settings).defaults = r.defaults := by
  induction settings generalizing r with
  | nil => rfl
  | cons s settings ih =>
    rw [List.forall_mem_cons] at h
    exact (ih h.2 (r.apply s)).trans (defaults_apply_of_keeps h.1 r)

lemma defaults_applyAll_of_last {params : List (String × String)} (hne : params ≠ [])
    {after : List Setting} (hlast : ∀ s ∈ after, s.KeepsDefaults) (r : Route)
    (before : List Setting) :
    (r.applyAll (before ++ .defaults params :: after)).defaults = .ofList params := by
  have hrun : r.applyAll (before ++ .defaults params :: after) =
      ((r.applyAll before).apply (.defaults params)).applyAll after :=
    applyAll_append r before _
  rw [hrun, defaults_applyAll_of_keeps hlast, apply, setDefaults, if_neg hne]

lemma condition_apply (r : Route) (s : Setting) :
    (r.apply s).condition = s.condition?.or r.condition := by
  cases s with
  | defaults params =>
    rw [apply, setDefaults]
    split <;> rfl
  | overrides m params => rfl
  | condition c => rfl
  | callback c => rfl

lemma callback_apply (r : Route) (s : Setting) :
    (r.apply s).callback = s.callback?.or r.callback := by
  cases s with
  | defaults params =>
    rw [apply, setDefaults]
    split <;> rfl
  | overrides m params => rfl
  | condition c => rfl
  | callback c => rfl

lemma getLast?_of_apply {α : Type} {get : Route → Option α} {sets : Setting → Option α}
    (h : ∀ r s, get (r.apply s) = (sets s).or (get r)) (r : Route) (settings : List Setting) :
    get (r.applyAll settings) = (settings.filterMap sets).getLast?.or (get r) := by
  induction settings using List.reverseRecOn with
  | nil => rfl
  | append_singleton settings s ih =>
    have hstep : r.applyAll (settings ++ [s]) = (r.applyAll settings).apply s :=
      applyAll_append r settings [s]
    rw [hstep, h, ih, List.filterMap_append, List.getLast?_append]
    rcases hs : sets s with _ | a <;> simp [hs]

/-! ### The whole configuration -/

/-- The parameters that some steps give for a method, in whatever case, in order. -/
def givenFor (method : String) (settings : List Setting) : List (String × String) :=
  (settings.filterMap (Setting.added? method)).flatten

lemma filterMap_added?_eq_nil {settings : List Setting} {method : String} :
    settings.filterMap (Setting.added? method) = [] ↔
      ∀ m params, .overrides m params ∈ settings → Text.sameIgnoringCase m method = false := by
  rw [List.filterMap_eq_nil_iff]
  constructor
  · intro h m params hmem
    simpa [Setting.added?] using h _ hmem
  · intro h s hs
    cases s with
    | overrides m params => simp [Setting.added?, h m params hs]
    | defaults params => rfl
    | condition c => rfl
    | callback c => rfl

/-- **What a configuration comes to.** A method has overrides if some step names it in whatever
case, and they are all that is given for it, each parameter at its first place with its first value.
The defaults are those of the last step that gives some, each parameter at its first place with its
last value. The hooks are those that were set last; the name and the compiled template stay. -/
theorem applyAll_follows_settings {name template : String} {r₀ : Route}
    (h : new name template = .ok r₀) (settings : List Setting) :
    let r := r₀.applyAll settings
    (∀ method,
      (r.overridesFor? method = none ↔
        ∀ m params, .overrides m params ∈ settings → Text.sameIgnoringCase m method = false) ∧
      ∀ params, r.overridesFor? method = some params →
        params.keys = ((givenFor method settings).map Prod.fst).eraseDups ∧
        ∀ key, params.get? key = (givenFor method settings).lookup key) ∧
    ((∀ s ∈ settings, s.KeepsDefaults) → r.defaults = ∅) ∧
    (∀ before params after, settings = before ++ .defaults params :: after → params ≠ [] →
      (∀ s ∈ after, s.KeepsDefaults) →
        r.defaults.keys = (params.map Prod.fst).eraseDups ∧
        ∀ key, r.defaults.get? key = params.reverse.lookup key) ∧
    r.condition = (settings.filterMap Setting.condition?).getLast? ∧
    r.callback = (settings.filterMap Setting.callback?).getLast? ∧
    r.name = name ∧ r.template = r₀.template := by
  intro r
  have hfresh : r₀ = ofTemplate name r₀.template := (template_of_new h).2
  have hoverrides : ∀ method, r₀.overridesFor? method = none := fun method => by
    rw [hfresh]
    rfl
  refine ⟨fun method => ?_, fun hkeeps => ?_, fun before params after hsplit hne hlast => ?_,
    ?_, ?_, ?_, template_applyAll r₀ settings⟩
  · have hrun := overridesFor?_applyAll r₀ settings method
    rw [hoverrides] at hrun
    rw [← filterMap_added?_eq_nil]
    refine ⟨?_, fun params hparams => ?_⟩
    · rw [hrun]
      split <;> simp [*]
    · rw [hrun, Option.ite_none_left_eq_some] at hparams
      obtain rfl := Option.some_inj.mp hparams.2
      refine ⟨OrderedMap.keys_insertAllNew_empty _, fun key => ?_⟩
      rw [← OrderedMap.findIn_eq_lookup]
      exact OrderedMap.get?_insertAllNew_empty _ key
  · rw [defaults_applyAll_of_keeps hkeeps, hfresh]
    rfl
  · have hdefaults : r.defaults = .ofList params := by
      rw [← defaults_applyAll_of_last hne hlast r₀ before, ← hsplit]
    rw [hdefaults]
    exact ⟨OrderedMap.keys_ofList_eq_eraseDups params, OrderedMap.get?_ofList_eq_lookup params⟩
  · have hnone : r₀.condition = none := by rw [hfresh]; rfl
    rw [getLast?_of_apply condition_apply r₀ settings, hnone, Option.or_none]
  · have hnone : r₀.callback = none := by rw [hfresh]; rfl
    rw [getLast?_of_apply callback_apply r₀ settings, hnone, Option.or_none]
  · rw [name_applyAll, hfresh]
    rfl

/-- Steps that set parameters, with a method in two spellings, repeated keys and empty lists. -/
def stored : List Setting :=
  [.overrides "put" [("action", "put"), ("action", "set")],
    .defaults [("view", "a"), ("page", "1"), ("view", "b")], .overrides "get" [],
    .overrides "PUT" [("mode", "full"), ("action", "replace")], .defaults []]

def shelf : Route :=
  ofTemplate "shelf" ((Template.compile "/<:shelf>".toList).toOption.get (by decide +kernel))

theorem applyAll_follows_settings_stored :
    ∃ put get, new "shelf" "/<:shelf>" = .ok shelf ∧
      let r := shelf.applyAll stored
      r.overridesFor? "delete" = none ∧ r.overridesFor? "Get" = some get ∧ get.keys = [] ∧
      r.overridesFor? "Put" = some put ∧ put.keys = ["action", "mode"] ∧
      put.get? "action" = some "put" ∧ r.defaults.keys = ["view", "page"] ∧
      r.defaults.get? "view" = some "b" ∧ r.condition = none ∧ r.template = shelf.template := by
  have hnew : new "shelf" "/<:shelf>" = .ok shelf :=
    new_of_compile "shelf" (Template.compile_eq_ok_get _)
  obtain ⟨hoverrides, -, hlast, hcondition, -, -, htemplate⟩ :=
    applyAll_follows_settings hnew stored
  have hnamed : ∀ method, stored.filterMap (Setting.added? method) ≠ [] →
      ∃ params, (shelf.applyAll stored).overridesFor? method = some params := fun method hne =>
    Option.ne_none_iff_exists'.mp fun hnone =>
      hne (filterMap_added?_eq_nil.mpr ((hoverrides method).1.mp hnone))
  obtain ⟨get, hget⟩ := hnamed "Get" (by decide +kernel)
  obtain ⟨put, hput⟩ := hnamed "Put" (by decide +kernel)
  have hdelete := (hoverrides "delete").1.mpr (filterMap_added?_eq_nil.mp (by decide +kernel))
  obtain ⟨hdefaults, hvalues⟩ := hlast (stored.take 1) _ (stored.drop 2) rfl (by simp)
    (by simp [stored, Setting.KeepsDefaults])
  refine ⟨put, get, hnew, hdelete, hget, ?_, hput, ?_, ?_, ?_, ?_, hcondition, htemplate⟩
  · rw [((hoverrides "Get").2 get hget).1]
    decide +kernel
  · rw [((hoverrides "Put").2 put hput).1]
    decide +kernel
  · rw [((hoverrides "Put").2 put hput).2]
    decide +kernel
  · rw [hdefaults]
    decide
  · rw [hvalues]
    decide

end Signpost.Route
