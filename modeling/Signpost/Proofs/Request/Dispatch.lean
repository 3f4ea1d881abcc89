import Signpost.Dispatcher
import Signpost.Proofs.Table.Default

/-!
Dispatching what the default routes match. Such a request has a module and an action, neither of
them empty, so its target is never missing. If it puts or deletes an item, the target is the
handler of its method.
-/

namespace Signpost

variable {method : Method} {m : RouteMatch} {router : Router} {r request : Request}

/-! ### What the default routes tell -/

lemma IsWord.decode_ne_empty {s : String} (h : IsWord s) : Percent.decode s ≠ "" := by
  refine Percent.decode_ne_empty fun he => ?_
  have hs : s.toList ≠ [] := h.1 (by decide)
  exact hs (by simp [he])

lemma itemAction_ne_empty (method : Method) : itemAction method ≠ "" := by
  unfold itemAction
  split_ifs <;> decide

lemma target_of_defaultMatch? {segments : List String} (h : defaultMatch? method segments = some m) :
    ∃ module action, m.params.get? "module" = some module ∧ m.params.get? "action" = some action ∧
      module ≠ "" ∧ action ≠ "" ∧ (m.routeName = "module-item" → action = itemAction method) := by
  unfold defaultMatch? at h
  split_ifs at h with hwords
  split at h
  · cases h
    exact ⟨"Home", "index", rfl, rfl, by decide, by decide, by simp⟩
  · rename_i a
    have ha : IsWord a := hwords a (by simp)
    cases h
    exact ⟨_, "index", rfl, rfl, ha.decode_ne_empty, by decide, by simp⟩
  · rename_i a b
    have ha : IsWord a := hwords a (by simp)
    have hb : IsWord b := hwords b (by simp)
    split_ifs at h
    · cases h
      exact ⟨_, _, rfl, rfl, ha.decode_ne_empty, itemAction_ne_empty method, fun _ => rfl⟩
    · cases h
      exact ⟨_, _, rfl, rfl, ha.decode_ne_empty, hb.decode_ne_empty, by simp⟩
  · rename_i a b c
    have ha : IsWord a := hwords a (by simp)
    have hb : IsWord b := hwords b (by simp)
    split_ifs at h
    cases h
    exact ⟨_, _, rfl, rfl, ha.decode_ne_empty, hb.decode_ne_empty, by simp⟩
  · cases h

/-! ### Requests -/

namespace Request

lemma route_eq_ok_iff : r.route router = (.ok m, request) ↔
    router.matchRequest r.method r.path = .ok m ∧ request = r.addParams m.params := by
  rcases h : router.matchRequest r.method r.path with e | m'
  · simp [route_of_error h]
  · rw [route_of_ok h]
    constructor
    · intro h
      cases h
      exact ⟨rfl, rfl⟩
    · rintro ⟨hm, rfl⟩
      cases hm
      rfl

lemma get?_of_params {name value : String} (hp : r.params.get? name = some value) (hv : value ≠ "")
    (hname : name ∉ ["method", "path", "uri"]) : r.get? name = some value := by
  simp only [List.mem_cons, List.not_mem_nil, or_false, not_or] at hname
  simp [get?, hname, hp, hv]

/-- Nothing is set before a request is matched, so the parameters are those of the match. -/
lemma get?_params_route {uri name : String}
    (h : (new method uri).route router = (.ok m, request)) :
    request.params.get? name = m.params.get? name := by
  obtain ⟨-, rfl⟩ := route_eq_ok_iff.mp h
  have hnone : (new method uri).params.get? name = none := rfl
  have hadd : ((new method uri).addParams m.params).params =
      (new method uri).params.insertAllNew m.params.toList := rfl
  rw [hadd, OrderedMap.get?_insertAllNew, hnone, Option.none_or]
  rfl

lemma method_of_route {uri : String} (h : (new method uri).route router = (.ok m, request)) :
    request.method = method := by
  obtain ⟨-, rfl⟩ := route_eq_ok_iff.mp h
  rfl

end Request

/-! ### Targets -/

namespace Dispatcher

variable {α : Type} {module action : String}

lemma dispatchRequest_ne_missingTarget (d : Dispatcher α) (hm : request.get? "module" = some module)
    (ha : request.get? "action" = some action) :
    d.dispatchRequest request ≠ .error .missingTarget := by
  have hrun : ∀ t : Target α, t.run request ≠ .error .missingTarget := by
    intro t
    unfold Target.run
    split <;> simp
  have hfind : d.findTarget request ≠ .error .missingTarget := by
    simp only [findTarget, hm, ha, findMethod, findAction]
    split <;> split <;> (try split) <;> simp
  unfold dispatchRequest
  split
  · exact hrun _
  · rename_i e he
    rintro ⟨⟩
    exact hfind he

lemma dispatchRequest_of_method (d : Dispatcher α) (hm : request.get? "module" = some module)
    (ha : request.get? "action" = some action)
    (hsame : Text.sameIgnoringCase action request.method.text = true) :
    d.dispatchRequest request =
      match d.modules.get? (ModuleName.normalize module) with
      | none => .error (.moduleNotFound (ModuleName.normalize module))
      | some handlers =>
        match handlers.methods.get? request.method with
        | none => .error (.actionNotFound (ModuleName.normalize module) request.method.text)
        | some handler =>
          Target.run ⟨ModuleName.normalize module, request.method.text, handler⟩ request := by
  have hfind : d.findTarget request = d.findMethod module request.method := by
    simp [findTarget, hm, ha, hsame]
  rw [dispatchRequest, hfind, findMethod, handlersOf?]
  rcases d.modules.get? (ModuleName.normalize module) with _ | handlers
  · rfl
  · dsimp only
    rcases handlers.methods.get? request.method with _ | handler <;> rfl

end Dispatcher

/-! ### Requests that the default routes match -/

/-- **What the default routes match can be dispatched.** The request has a module and an action that
are not empty, so a target is never missing. If an item is put or deleted, it is for the handler of
this method in the module, whatever named actions the module has. -/
theorem routed_request_dispatches (hrouter : Router.ofTable .default = .ok router)
    (method : Method) (uri : String)
    (hroute : (Request.new method uri).route router = (.ok m, request)) :
    (∃ module action, request.get? "module" = some module ∧
      request.get? "action" = some action ∧ module ≠ "" ∧ action ≠ "") ∧
    ∀ (α : Type) (d : Dispatcher α), d.dispatchRequest request ≠ .error .missingTarget ∧
      (m.routeName = "module-item" → (method = .put ∨ method = .delete) →
        ∃ module, request.get? "module" = some module ∧
          d.dispatchRequest request =
            match d.modules.get? (ModuleName.normalize module) with
            | none => .error (.moduleNotFound (ModuleName.normalize module))
            | some handlers =>
              match handlers.methods.get? method with
              | none => .error (.actionNotFound (ModuleName.normalize module) method.text)
              | some handler =>
                Target.run ⟨ModuleName.normalize module, method.text, handler⟩ request) := by
  obtain ⟨hmatch, -⟩ := Request.route_eq_ok_iff.mp hroute
  have hmethod := Request.method_of_route hroute
  have hdefault : defaultMatch? method (segments (Request.new method uri).path) = some m :=
    (RouteTable.matchRequest_eq_ok_iff hrouter).mp hmatch
  obtain ⟨module, action, hpm, hpa, hnem, hnea, hitem⟩ := target_of_defaultMatch? hdefault
  rw [← Request.get?_params_route hroute] at hpm hpa
  have hgm : request.get? "module" = some module := Request.get?_of_params hpm hnem (by decide)
  have hga : request.get? "action" = some action := Request.get?_of_params hpa hnea (by decide)
  refine ⟨⟨module, action, hgm, hga, hnem, hnea⟩, fun α d =>
    ⟨d.dispatchRequest_ne_missingTarget hgm hga, fun hname hput => ⟨module, hgm, ?_⟩⟩⟩
  have hsame : Text.sameIgnoringCase action request.method.text = true := by
    rw [hitem hname, hmethod]
    rcases hput with rfl | rfl <;> decide
  rw [d.dispatchRequest_of_method hgm hga hsame, hmethod]

/-- Users are replaced by the handler of the method, not by the action of the same name. -/
theorem routed_request_dispatches_put :
    let d : Dispatcher String := ((∅ : Dispatcher String).register "users" "put"
      fun _ => .ok "action").registerMethod "Users" .put fun _ => .ok "method"
    ∃ router request m, Router.ofTable .default = .ok router ∧
      (Request.new .put "/users/42?full=1").route router = (.ok m, request) ∧
      m.routeName = "module-item" ∧ request.get? "action" = some "put" ∧
      d.dispatchRequest request = .ok "method" := by
  intro d
  obtain ⟨router, hrouter⟩ := Router.exists_addSpecs RouteTable.new_of_default ∅
  let r : Request := .new .put "/users/42?full=1"
  let m : RouteMatch := ⟨"module-item", .ofList [("module", "users"), ("item", "42"),
    ("action", "put"), ("format", "html")]⟩
  have hmatch : router.matchRequest .put r.path = .ok m :=
    (RouteTable.matchRequest_eq_ok_iff hrouter).mpr (by decide +kernel)
  have hroute : r.route router = (.ok m, r.addParams m.params) :=
    Request.route_eq_ok_iff.mpr ⟨hmatch, rfl⟩
  have hmodule : (r.addParams m.params).get? "module" = some "users" := by decide +kernel
  obtain ⟨module, hm, hdispatch⟩ :=
    ((routed_request_dispatches hrouter .put "/users/42?full=1" hroute).2 String d).2 rfl (.inl rfl)
  obtain rfl : module = "users" := Option.some_inj.mp (hm.symm.trans hmodule)
  refine ⟨router, _, m, hrouter, hroute, rfl, by decide +kernel, hdispatch.trans ?_⟩
  rfl

end Signpost
