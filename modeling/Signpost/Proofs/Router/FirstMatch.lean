import Mathlib.Tactic.Lemma
import Signpost.Router.Resolve

/-!
Which route answers a request, and which hooks are called on the way.

A route ends the search if it fails on the path, or if it matches the path and its condition, if
it has one, agrees. The first route that ends the search gives the answer. Every route up to it
that matched had its condition asked, in order, and only its own callback is called, last.
-/

namespace Signpost

namespace Route

/-- The search ends at the route: it fails on the path, or it matches and no condition objects. -/
def Decides (r : Route) (method : Method) (path : String) : Prop :=
  (∃ e, r.extract method path = .error e) ∨
    ∃ params, r.extract method path = .ok (some params) ∧
      ∀ c, r.condition = some c → c params method path = true

/-- The calls of its condition that trying the route makes. -/
def asked (r : Route) (method : Method) (path : String) : List HookCall :=
  match r.extract method path with
  | .ok (some params) => r.conditionCalls params method path
  | _ => []

variable {r : Route} {method : Method} {path : String} {params : Params}

lemma accepts_eq_true :
    r.accepts params method path = true ↔
      ∀ c, r.condition = some c → c params method path = true := by
  unfold accepts
  rcases r.condition with _ | c <;> simp

lemma decides_of_extract_ok (h : r.extract method path = .ok (some params)) :
    r.Decides method path ↔ r.accepts params method path = true := by
  rw [accepts_eq_true]
  constructor
  · rintro (⟨e, he⟩ | ⟨p, hp, ha⟩)
    · rw [h] at he; cases he
    · rw [h] at hp; cases hp; exact ha
  · exact fun ha => .inr ⟨params, h, ha⟩

end Route

namespace Router

variable {method : Method} {path : String} {r : Route} {rs : List Route}

/-! ### One route -/

/-- A route at which the search does not end has its condition asked, and the search goes on. -/
lemma scan_cons_of_not_decides (h : ¬ r.Decides method path) :
    scan method path (r :: rs) = (scan method path rs).after (r.asked method path) := by
  rcases he : r.extract method path with e | (_ | params)
  · exact absurd (.inl ⟨e, he⟩) h
  · simp [scan, he, Route.asked, Resolution.after]
  · have ha : r.accepts params method path = false := by
      simpa [Route.decides_of_extract_ok he] using h
    simp [scan, he, ha, Route.asked]

lemma scan_cons_of_error {e : RouteError} (h : r.extract method path = .error e) :
    scan method path (r :: rs) = ⟨.error e, r.asked method path⟩ := by
  simp [scan, h, Route.asked]

lemma scan_cons_of_accepts {params : Params} (h : r.extract method path = .ok (some params))
    (ha : r.accepts params method path = true) :
    scan method path (r :: rs) =
      ⟨.ok ⟨r.name, r.conclude params method path⟩,
        r.asked method path ++ r.callbackCalls params method path⟩ := by
  simp [scan, h, ha, Route.asked]

/-! ### Any number of routes -/

lemma scan_append_of_not_decides {before : List Route}
    (h : ∀ q ∈ before, ¬ q.Decides method path) :
    scan method path (before ++ rs) =
      (scan method path rs).after (before.flatMap fun q => q.asked method path) := by
  induction before with
  | nil => rfl
  | cons q before ih =>
    have hq := h q List.mem_cons_self
    have ih' := ih fun p hp => h p (List.mem_cons_of_mem q hp)
    rw [List.cons_append, scan_cons_of_not_decides hq, ih']
    simp [Resolution.after, List.append_assoc]

lemma scan_of_not_decides (h : ∀ q ∈ rs, ¬ q.Decides method path) :
    scan method path rs =
      ⟨.error (.notFound method.text path), rs.flatMap fun q => q.asked method path⟩ := by
  have hs : scan method path (rs ++ []) = _ := scan_append_of_not_decides h
  rw [List.append_nil] at hs
  rw [hs]
  simp [scan, Resolution.after]

lemma resolve_of_ne_nil {router : Router} (h : router.routes ≠ []) (method : Method)
    (path : String) :
    router.resolve method path = scan method (trimPath path) router.routes := by
  rw [resolve, isEmpty, if_neg (by simpa using h)]

/-- **The answer and the hook calls of a request.** With no route at all there is no answer. If no
route decides, the path is not found and the conditions of all matching routes were asked. If route
number `k` is the first one that decides, it gives the answer; the conditions of the matching
routes up to it were asked, and its callback, if it has one, is called last. -/
theorem resolve_eq_first_deciding (router : Router) (method : Method) (path : String) :
    (router.routes = [] → router.resolve method path = ⟨.error .noRoutes, []⟩) ∧
    (router.routes ≠ [] → (∀ r ∈ router.routes, ¬ r.Decides method (trimPath path)) →
      router.resolve method path =
        ⟨.error (.notFound method.text (trimPath path)),
          router.routes.flatMap fun r => r.asked method (trimPath path)⟩) ∧
    ∀ (k : Nat) (hk : k < router.routes.length),
      router.routes[k].Decides method (trimPath path) →
      (∀ r ∈ router.routes.take k, ¬ r.Decides method (trimPath path)) →
      (∀ e, router.routes[k].extract method (trimPath path) = .error e →
        router.resolve method path =
          ⟨.error e,
            (router.routes.take (k + 1)).flatMap fun r => r.asked method (trimPath path)⟩) ∧
      ∀ params, router.routes[k].extract method (trimPath path) = .ok (some params) →
        router.resolve method path =
          ⟨.ok ⟨router.routes[k].name,
              match router.routes[k].callback with
              | some f => f params method (trimPath path)
              | none => params⟩,
            ((router.routes.take (k + 1)).flatMap fun r => r.asked method (trimPath path)) ++
              match router.routes[k].callback with
              | some _ => [.callback router.routes[k].name params method (trimPath path)]
              | none => []⟩ := by
  refine ⟨fun h => by simp [resolve, isEmpty, h], fun h hn => ?_, fun k hk hd hbefore => ?_⟩
  · rw [resolve_of_ne_nil h, scan_of_not_decides hn]
  · have hne : router.routes ≠ [] := by
      intro h
      rw [h] at hk
      simp at hk
    -- the routes before `k`, route `k` itself, and those that are never tried
    have hsplit : router.routes =
        router.routes.take k ++ router.routes[k] :: router.routes.drop (k + 1) := by
      rw [List.getElem_cons_drop, List.take_append_drop]
    have htake : (router.routes.take (k + 1)).flatMap (fun r => r.asked method (trimPath path)) =
        ((router.routes.take k).flatMap fun r => r.asked method (trimPath path)) ++
          router.routes[k].asked method (trimPath path) := by
      rw [List.take_succ_eq_append_getElem hk, List.flatMap_append, List.flatMap_singleton]
    have hscan : ∀ x, scan method (trimPath path)
          (router.routes[k] :: router.routes.drop (k + 1)) = x →
        router.resolve method path =
          x.after ((router.routes.take k).flatMap fun r => r.asked method (trimPath path)) := by
      rintro x rfl
      rw [resolve_of_ne_nil hne]
      exact (congrArg (scan method (trimPath path)) hsplit).trans
        (scan_append_of_not_decides hbefore)
    refine ⟨fun e he => ?_, fun params hp => ?_⟩
    · rw [hscan _ (scan_cons_of_error he), htake, Resolution.after]
    · have ha := (Route.decides_of_extract_ok hp).mp hd
      rw [hscan _ (scan_cons_of_accepts hp ha), htake, Resolution.after, List.append_assoc]
      rcases hf : router.routes[k].callback with _ | f
      · simp [Route.conclude, Route.callbackCalls, hf]
      · simp [Route.conclude, Route.callbackCalls, hf]

/-- A route that refuses whatever matches, in front of one that answers for the same path. -/
def refusedThenAnswered : Router where
  routes :=
    [(Route.ofTemplate "closed" (.ofText ['x'])).setCondition fun _ _ _ => false,
      (Route.ofTemplate "open" (.ofText ['x'])).setCallback fun params _ path =>
        params.insert "seen" path]
  nodup_names := by decide

/-- The second of two routes answers once the first has refused. -/
theorem resolve_refusedThenAnswered :
    refusedThenAnswered.routes[1].Decides .get (trimPath "/x/") ∧
    (∀ r ∈ refusedThenAnswered.routes.take 1, ¬ r.Decides .get (trimPath "/x/")) ∧
    refusedThenAnswered.resolve .get "/x/" =
      ⟨.ok ⟨"open", .ofList [("seen", "x")]⟩,
        [.condition "closed" ∅ .get "x" false, .callback "open" ∅ .get "x"]⟩ := by
  have hd : refusedThenAnswered.routes[1].Decides .get (trimPath "/x/") :=
    .inr ⟨∅, rfl, fun c hc => by cases hc⟩
  have hbefore : ∀ r ∈ refusedThenAnswered.routes.take 1, ¬ r.Decides .get (trimPath "/x/") := by
    intro r hr
    obtain rfl : r = refusedThenAnswered.routes[0] := List.mem_singleton.mp hr
    have h0 : refusedThenAnswered.routes[0].extract .get (trimPath "/x/") = .ok (some ∅) := rfl
    rw [Route.decides_of_extract_ok h0]
    exact Bool.false_ne_true
  refine ⟨hd, hbefore, ?_⟩
  exact (((resolve_eq_first_deciding refusedThenAnswered .get "/x/").2.2 1 (by decide) hd
    hbefore).2 ∅ rfl).trans rfl

end Router

end Signpost
