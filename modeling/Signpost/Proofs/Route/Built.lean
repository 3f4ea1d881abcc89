import Signpost.Proofs.OrderedMap
import Signpost.Proofs.Template.Compile
import Signpost.Proofs.Text.Slice
import Signpost.Route.Path

/-!
The routes there can be: compiled from a template and then configured, one step after the other.
Each step keeps what compiling has set up, and overrides are always kept under upper-case names.
-/

namespace Signpost.Route

/-- A route made from a template by compiling it and any number of steps of configuration. -/
inductive Built : Route → Prop
  | new {name template : String} {r : Route} (h : Route.new name template = .ok r) : Built r
  | apply {r : Route} (h : Built r) (s : Setting) : Built (r.apply s)

lemma template_of_new {name template : String} {r : Route} (h : Route.new name template = .ok r) :
    Template.compile template.toList = .ok r.template ∧ r = ofTemplate name r.template := by
  unfold Route.new at h
  split at h
  · rename_i t ht
    cases h
    exact ⟨ht, rfl⟩
  · cases h

lemma new_of_compile (name : String) {template : String} {t : Template}
    (h : Template.compile template.toList = .ok t) :
    Route.new name template = .ok (ofTemplate name t) := by
  simp [Route.new, h]

lemma exists_of_new {α : Type} {name template : String} {f : Route → α} {a : α}
    (h : (Route.new name template).map f = .ok a) :
    ∃ r, Route.new name template = .ok r ∧ f r = a := by
  rcases hr : Route.new name template with e | r
  · rw [hr] at h
    cases h
  · rw [hr] at h
    cases h
    exact ⟨r, rfl, rfl⟩

lemma Built.applyAll {r : Route} (h : Built r) (l : List Setting) : Built (r.applyAll l) := by
  induction l generalizing r with
  | nil => exact h
  | cons s l ih => exact ih (h.apply s)

theorem Built.wellFormed {r : Route} (h : Built r) : r.template.WellFormed := by
  induction h with
  | new h => exact (Template.wellFormed_of_compile (template_of_new h).1).1
  | apply h s ih => rwa [template_apply]

lemma Built.isOptional_required {r : Route} (hr : r.Built) {t : Token}
    (h : .required t ∈ r.template.pieces) : r.isOptional t = false := by
  rw [isOptional, hr.wellFormed.group?_of_required h]
  rfl

lemma Built.isOptional_optional {r : Route} (hr : r.Built) {g : OptionalGroup}
    (h : .optional g ∈ r.template.pieces) : r.isOptional g.token = true := by
  rw [isOptional, hr.wellFormed.group?_of_optional h]
  rfl

lemma overrides_apply (r : Route) (s : Setting) :
    (r.apply s).overrides.keys = r.overrides.keys ∨
      ∃ method, (r.apply s).overrides.keys = r.overrides.keys ++ [Text.upperAscii method] := by
  cases s with
  | defaults params =>
    left
    simp only [apply, setDefaults]
    split <;> rfl
  | overrides method params =>
    simp only [apply, addOverrides, OrderedMap.keys_insert]
    split
    · exact .inl rfl
    · exact .inr ⟨method, rfl⟩
  | condition c => exact .inl rfl
  | callback c => exact .inl rfl

/-- Overrides are kept under names in upper case. -/
theorem Built.upperAscii_of_mem {r : Route} (h : Built r) {key : String}
    (hk : key ∈ r.overrides.keys) : Text.upperAscii key = key := by
  induction h with
  | new h =>
    rw [(template_of_new h).2] at hk
    cases hk
  | apply h s ih =>
    rcases overrides_apply _ s with e | ⟨method, e⟩
    · exact ih (e ▸ hk)
    · rw [e, List.mem_append, List.mem_singleton] at hk
      rcases hk with hk | rfl
      · exact ih hk
      · exact Text.upperAscii_upperAscii method

/-- The overrides whose method is written like `method` up to case. -/
def overridesLike? (r : Route) (method : String) : Option Params :=
  (r.overrides.toList.find? fun (key, _) => Text.sameIgnoringCase key method).map Prod.snd

lemma findIn_eq_find? {α : Type} (k : String) (p : String → Bool) (l : List (String × α))
    (h : ∀ j ∈ l.map Prod.fst, p j = true ↔ j = k) :
    OrderedMap.findIn k l = (l.find? fun q => p q.1).map Prod.snd := by
  induction l with
  | nil => rfl
  | cons q l ih =>
    have hq := h q.1 (by simp)
    have ih' := ih fun j hj => h j (by simp_all)
    rw [OrderedMap.findIn_cons, List.find?_cons, ih']
    by_cases hk : q.1 = k
    · rw [if_pos hk, hq.mpr hk]
      rfl
    · have hp : p q.1 = false := by simpa using fun e => hk (hq.mp e)
      rw [if_neg hk, hp]

theorem Built.overridesFor?_eq {r : Route} (h : Built r) (method : String) :
    r.overridesFor? method = r.overridesLike? method := by
  refine findIn_eq_find? _ (fun key => Text.sameIgnoringCase key method) _ fun key hk => ?_
  rw [Text.sameIgnoringCase_iff, h.upperAscii_of_mem hk]

end Signpost.Route
