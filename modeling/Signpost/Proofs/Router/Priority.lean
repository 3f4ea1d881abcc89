import Signpost.Proofs.Router.FirstMatch
import Signpost.Proofs.Router.Registry

/-!
What a registration can change about the answers. A new route is tried after all others, so it can
only answer requests that no route answered before; a route that takes the place of another one
leaves alone every request that is decided before that place.
-/

namespace Signpost

/-- Matching fails in one way only: a required parameter took no part. -/
lemma Route.captureMismatch_of_extract {r : Route} {method : Method} {path : String}
    {e : RouteError} (h : r.extract method path = .error e) :
    ∃ matched named, e = .captureMismatch r.name matched named := by
  unfold extract at h
  rcases hc : r.captures? (Text.trimSlashes path.toList) with _ | captures
  · simp [hc] at h
  · rcases hcheck : r.checkCaptures captures with e' | ⟨⟩
    · simp only [hc, hcheck, Except.error.injEq] at h
      subst h
      unfold checkCaptures at hcheck
      split at hcheck
      · cases hcheck
        exact ⟨_, _, rfl⟩
      · cases hcheck
    · simp [hc, hcheck] at h

namespace Router

variable {method : Method} {path : String} {router later : Router} {r : Route} {rs : List Route}

/-! ### Where a route is put -/

lemma place_of_not_mem (h : r.name ∉ rs.map Route.name) : place r rs = rs ++ [r] := by
  induction rs with
  | nil => rfl
  | cons q rs ih =>
    rw [List.map_cons, List.mem_cons, not_or] at h
    rw [place, if_neg (Ne.symm h.1), ih h.2, List.cons_append]

lemma exists_place_eq_append (hrs : (rs.map Route.name).Nodup) {i : ℕ} (hi : i < rs.length)
    (h : rs[i].name = r.name) : ∃ rest, place r rs = rs.take i ++ rest := by
  induction rs generalizing i with
  | nil => simp at hi
  | cons q rs ih =>
    rw [List.map_cons, List.nodup_cons] at hrs
    cases i with
    | zero => exact ⟨place r (q :: rs), rfl⟩
    | succ i =>
      have hi' : i < rs.length := by simpa using hi
      rw [List.getElem_cons_succ] at h
      have hq : q.name ≠ r.name := fun e =>
        hrs.1 (e.trans h.symm ▸ List.mem_map_of_mem (List.getElem_mem hi'))
      obtain ⟨rest, hrest⟩ := ih hrs.2 hi' h
      exact ⟨rest, by rw [place, if_neg hq, hrest, List.take_succ_cons, List.cons_append]⟩

lemma routes_configure_insert (router : Router) (r : Route) (settings : List Route.Setting) :
    ((router.insert r).configure r.name settings).routes =
      place (r.applyAll settings) router.routes := by
  have key : ∀ rs : List Route, (rs.map Route.name).Nodup →
      (place r rs).map (fun q => if q.name = r.name then q.applyAll settings else q) =
        place (r.applyAll settings) rs := by
    intro rs hrs
    induction rs with
    | nil => simp [place]
    | cons q rs ih =>
      rw [List.map_cons, List.nodup_cons] at hrs
      by_cases hq : q.name = r.name
      · -- no route behind the one that is replaced has its name
        have hrest : rs.map (fun q => if q.name = r.name then q.applyAll settings else q) = rs := by
          refine (List.map_congr_left fun p hp => if_neg fun e => hrs.1 ?_).trans (List.map_id rs)
          rw [hq, ← e]
          exact List.mem_map_of_mem hp
        simp [place, hq, hrest]
      · simp [place, hq, ih hrs.2]
  exact key router.routes router.nodup_names

/-! ### Requests that are decided early -/

lemma scan_append_of_decides {before : List Route} (h : ∃ q ∈ before, q.Decides method path)
    (rs rs' : List Route) :
    scan method path (before ++ rs) = scan method path (before ++ rs') := by
  induction before with
  | nil => simp at h
  | cons q before ih =>
    rw [List.cons_append, List.cons_append]
    by_cases hq : q.Decides method path
    · rcases hq with ⟨e, he⟩ | ⟨params, hp, ha⟩
      · rw [scan_cons_of_error he, scan_cons_of_error he]
      · have haccepts := Route.accepts_eq_true.mpr ha
        rw [scan_cons_of_accepts hp haccepts, scan_cons_of_accepts hp haccepts]
    · have hbefore : ∃ p ∈ before, p.Decides method path := by
        obtain ⟨p, hp, hd⟩ := h
        rcases List.mem_cons.mp hp with rfl | hp
        · exact absurd hd hq
        · exact ⟨p, hp, hd⟩
      rw [scan_cons_of_not_decides hq, scan_cons_of_not_decides hq, ih hbefore]

lemma scan_answer_ne_notFound (h : ∃ q ∈ rs, q.Decides method path) (m p : String) :
    (scan method path rs).answer ≠ .error (.notFound m p) := by
  induction rs with
  | nil => simp at h
  | cons q rs ih =>
    by_cases hq : q.Decides method path
    · rcases hq with ⟨e, he⟩ | ⟨params, hp, ha⟩
      · obtain ⟨matched, named, rfl⟩ := Route.captureMismatch_of_extract he
        rw [scan_cons_of_error he]
        simp
      · rw [scan_cons_of_accepts hp (Route.accepts_eq_true.mpr ha)]
        simp
    · have hrs : ∃ p ∈ rs, p.Decides method path := by
        obtain ⟨p, hp, hd⟩ := h
        rcases List.mem_cons.mp hp with rfl | hp
        · exact absurd hd hq
        · exact ⟨p, hp, hd⟩
      rw [scan_cons_of_not_decides hq]
      exact ih hrs

lemma resolve_eq_of_decides {before rest rest' : List Route} (hrouter : router.routes = before ++ rest)
    (hlater : later.routes = before ++ rest')
    (h : ∃ q ∈ before, q.Decides method (trimPath path)) :
    later.resolve method path = router.resolve method path := by
  have hne : before ≠ [] := by
    rintro rfl
    simp at h
  rw [resolve_of_ne_nil (by simp [hlater, hne]), resolve_of_ne_nil (by simp [hrouter, hne]), hlater,
    hrouter]
  exact scan_append_of_decides h rest' rest

lemma matchRequest_of_not_decides (h : ∀ q ∈ router.routes, ¬ q.Decides method (trimPath path)) :
    router.matchRequest method path = .error .noRoutes ∨
      router.matchRequest method path = .error (.notFound method.text (trimPath path)) := by
  by_cases hne : router.routes = []
  · left
    simp [matchRequest, resolve, isEmpty, hne]
  · right
    rw [matchRequest, resolve_of_ne_nil hne, scan_of_not_decides h]

lemma of_matchRequest_eq_notFound {m p : String}
    (h : router.matchRequest method path = .error (.notFound m p)) :
    router.routes ≠ [] ∧ (∀ q ∈ router.routes, ¬ q.Decides method (trimPath path)) ∧
      RouteError.notFound m p = .notFound method.text (trimPath path) := by
  have hne : router.routes ≠ [] := by
    intro hnil
    simp [matchRequest, resolve, isEmpty, hnil] at h
  rw [matchRequest, resolve_of_ne_nil hne] at h
  have hnone : ∀ q ∈ router.routes, ¬ q.Decides method (trimPath path) := fun q hq hd =>
    scan_answer_ne_notFound ⟨q, hq, hd⟩ m p h
  rw [scan_of_not_decides hnone] at h
  exact ⟨hne, hnone, (Except.error.inj h).symm⟩

/-! ### A route behind all others -/

lemma resolve_append_of_decided (hroutes : later.routes = router.routes ++ [r])
    (hfirst : router.matchRequest method path ≠ .error .noRoutes)
    (hfound : router.matchRequest method path ≠ .error (.notFound method.text (trimPath path))) :
    later.resolve method path = router.resolve method path := by
  have hself : router.routes = router.routes ++ [] := by simp
  refine resolve_eq_of_decides hself hroutes ?_
  by_contra hnone
  push Not at hnone
  exact (matchRequest_of_not_decides hnone).elim hfirst hfound

lemma resolve_append_of_not_decides (hroutes : later.routes = router.routes ++ [r])
    (hne : router.routes ≠ []) (hnone : ∀ q ∈ router.routes, ¬ q.Decides method (trimPath path)) :
    later.resolve method path =
      (scan method (trimPath path) [r]).after (router.resolve method path).calls := by
  rw [resolve_of_ne_nil (by simp [hroutes]), resolve_of_ne_nil hne, hroutes,
    scan_append_of_not_decides hnone, scan_of_not_decides hnone]

lemma scan_singleton_answer (r : Route) (method : Method) (path : String) :
    (scan method path [r]).answer = .error (.notFound method.text path) ∨
      (∃ params, (scan method path [r]).answer = .ok ⟨r.name, params⟩) ∨
      ∃ matched named, r.extract method path = .error (.captureMismatch r.name matched named) ∧
        (scan method path [r]).answer = .error (.captureMismatch r.name matched named) := by
  by_cases hr : r.Decides method path
  · rcases hr with ⟨e, he⟩ | ⟨params, hp, ha⟩
    · obtain ⟨matched, named, rfl⟩ := Route.captureMismatch_of_extract he
      exact .inr (.inr ⟨matched, named, he, by rw [scan_cons_of_error he]⟩)
    · right; left
      rw [scan_cons_of_accepts hp (Route.accepts_eq_true.mpr ha)]
      exact ⟨_, rfl⟩
  · left
    rw [scan_cons_of_not_decides hr]
    rfl

/-- **Registering a route.** Under a new name, however it is configured, it disturbs no request that
was answered before, be it with a match or with an error of a route. Where no route was found
before, the same hooks are called first, and then the new route may match or fail. In the place of
an old route it does not disturb the requests that a route before that place decides. -/
theorem resolve_after_register {name template : String} {registered : Router}
    (h : router.register name template = .ok registered) (settings : List Route.Setting)
    (method : Method) (path : String) :
    let later := registered.configure name settings
    (name ∉ router.names →
      (∀ m, router.matchRequest method path = .ok m →
        later.resolve method path = router.resolve method path) ∧
      (∀ route matched named,
        router.matchRequest method path = .error (.captureMismatch route matched named) →
        later.resolve method path = router.resolve method path) ∧
      ∀ m p, router.matchRequest method path = .error (.notFound m p) →
        (∃ calls, (later.resolve method path).calls =
          (router.resolve method path).calls ++ calls) ∧
        (later.matchRequest method path = .error (.notFound m p) ∨
          (∃ params, later.matchRequest method path = .ok ⟨name, params⟩) ∨
          ∃ r matched named, later.find? name = some r ∧
            r.extract method (trimPath path) = .error (.captureMismatch name matched named) ∧
            later.matchRequest method path = .error (.captureMismatch name matched named))) ∧
    ∀ (i : ℕ) (hi : i < router.routes.length), router.routes[i].name = name →
      ∀ (k : ℕ) (hk : k < i), router.routes[k].Decides method (trimPath path) →
        later.resolve method path = router.resolve method path := by
  intro later
  obtain ⟨r, -, rfl, rfl⟩ := register_eq_ok h
  have hroutes : later.routes = place (r.applyAll settings) router.routes :=
    routes_configure_insert router r settings
  refine ⟨fun hnew => ?_, fun i hi hname k hk hd => ?_⟩
  · have hnew' : (r.applyAll settings).name ∉ router.routes.map Route.name := by
      rwa [Route.name_applyAll]
    -- a new name stands behind all others, so it is asked where nothing has decided
    rw [place_of_not_mem hnew'] at hroutes
    refine ⟨fun m hm => resolve_append_of_decided hroutes (by simp [hm]) (by simp [hm]),
      fun route matched named hm =>
        resolve_append_of_decided hroutes (by simp [hm]) (by simp [hm]), fun m p hm => ?_⟩
    obtain ⟨hne, hnone, hmp⟩ := of_matchRequest_eq_notFound hm
    have hlater := resolve_append_of_not_decides hroutes hne hnone
    have hanswer : later.matchRequest method path =
        (scan method (trimPath path) [r.applyAll settings]).answer := by
      rw [matchRequest, hlater]
      rfl
    have hfind : later.find? r.name = some (r.applyAll settings) := by
      rw [find?_configure, find?_insert]
      simp
    refine ⟨⟨_, congrArg Resolution.calls hlater⟩, ?_⟩
    rw [hanswer, hmp]
    rcases scan_singleton_answer (r.applyAll settings) method (trimPath path) with
      hs | ⟨params, hs⟩ | ⟨matched, named, he, hs⟩
    · exact .inl hs
    · exact .inr (.inl ⟨params, by rw [hs, Route.name_applyAll]⟩)
    · rw [Route.name_applyAll] at he hs
      exact .inr (.inr ⟨_, matched, named, hfind, he, hs⟩)
  · -- a known name keeps its place, and the routes before it are as they were
    have hplace : router.routes[i].name = (r.applyAll settings).name := by
      rw [hname, Route.name_applyAll]
    obtain ⟨rest, hrest⟩ := exists_place_eq_append router.nodup_names hi hplace
    have hself : router.routes = router.routes.take i ++ router.routes.drop i := by simp
    refine resolve_eq_of_decides hself (hroutes.trans hrest) ⟨router.routes[k], ?_, hd⟩
    rw [List.mem_take_iff_getElem]
    exact ⟨k, by omega, rfl⟩

/-- A route that refuses, one that answers for another path, and one that is never asked. -/
def guarded : Router where
  routes :=
    [(Route.ofTemplate "closed" (.ofText ['y'])).setCondition fun _ _ _ => false,
      Route.ofTemplate "open" (.ofText ['x']), Route.ofTemplate "last" (.ofText ['z'])]
  nodup_names := by decide

/-- A new route for the path that was refused, and a new route in the last place. -/
theorem resolve_after_register_guarded :
    let late := guarded.insert (Route.ofTemplate "late" (.ofText ['y']))
    let replaced := guarded.insert (Route.ofTemplate "last" (.ofText ['x']))
    guarded.register "late" "/y" = .ok late ∧ "late" ∉ guarded.names ∧
      guarded.matchRequest .get "/x/" = .ok ⟨"open", ∅⟩ ∧
      (late.configure "late" [.defaults [("k", "v")]]).resolve .get "/x/" =
        guarded.resolve .get "/x/" ∧
      guarded.resolve .get "y" =
        ⟨.error (.notFound "GET" "y"), [.condition "closed" ∅ .get "y" false]⟩ ∧
      (∃ calls, ((late.configure "late" [.defaults [("k", "v")]]).resolve .get "y").calls =
        .condition "closed" ∅ .get "y" false :: calls) ∧
      guarded.register "last" "/x" = .ok replaced ∧
      guarded.routes[1].Decides .get (trimPath "/x/") ∧
      (replaced.configure "last" []).resolve .get "/x/" = guarded.resolve .get "/x/" := by
  intro late replaced
  have hlate : guarded.register "late" "/y" = .ok late := rfl
  have hreplaced : guarded.register "last" "/x" = .ok replaced := rfl
  have hnew : "late" ∉ guarded.names := by decide
  have hmatch : guarded.matchRequest .get "/x/" = .ok ⟨"open", ∅⟩ := rfl
  have hrefused : guarded.resolve .get "y" =
      ⟨.error (.notFound "GET" "y"), [.condition "closed" ∅ .get "y" false]⟩ := rfl
  have hdecides : guarded.routes[1].Decides .get (trimPath "/x/") :=
    .inr ⟨∅, rfl, fun c hc => by cases hc⟩
  have hsettings := resolve_after_register hlate [.defaults [("k", "v")]] .get
  refine ⟨hlate, hnew, hmatch, ((hsettings "/x/").1 hnew).1 _ hmatch, hrefused, ?_, hreplaced,
    hdecides, ?_⟩
  · exact (((hsettings "y").1 hnew).2.2 "GET" "y" rfl).1
  · exact (resolve_after_register hreplaced [] .get "/x/").2 2 (by decide) rfl 1 (by decide) hdecides

end Router

end Signpost
