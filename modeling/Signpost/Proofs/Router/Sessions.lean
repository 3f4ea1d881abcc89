import Mathlib.Data.List.Induction
import Mathlib.Tactic.Common
import Signpost.Router.Session

/-!
What the sessions of a router remember. Sessions come into being one after the other, new or as
copies of others, and requests are answered on any of them in any order. The answer is always that
of the router. Afterwards the session remembers the route that accepted the request, or no route if
the request failed, however far the search had come; the other sessions remember what they did.
-/

namespace Signpost

/-- The name of the route that accepted the request. -/
def Resolution.accepted? (r : Resolution) : Option String :=
  r.answer.toOption.map RouteMatch.routeName

namespace Router

/-! ### The note of a search -/

/-- A search that begins without a note gives the answer of `scan`, and in the end just the route
that accepted the request is noted. -/
lemma scanNoting_none (method : Method) (path : String) (rs : List Route) :
    scanNoting method path none rs = (scan method path rs, (scan method path rs).accepted?) := by
  induction rs with
  | nil => rfl
  | cons r rs ih =>
    rcases he : r.extract method path with e | (_ | params)
    · simp only [scanNoting, scan, he]
      rfl
    · simp only [scanNoting, scan, he]
      exact ih
    · by_cases ha : r.accepts params method path = true
      · simp only [scanNoting, scan, he, ha, if_true]
        rfl
      · -- the note of the refused route is gone, so the search goes on without one
        simp only [scanNoting, scan, he, ha, ih]
        rfl

lemma exists_mem_of_accepted? {method : Method} {path name : String} {rs : List Route}
    (h : (scan method path rs).accepted? = some name) : ∃ r ∈ rs, r.name = name := by
  induction rs with
  | nil => cases h
  | cons r rs ih =>
    have hlater : (scan method path rs).accepted? = some name → ∃ q ∈ r :: rs, q.name = name :=
      fun h' => by
        obtain ⟨q, hq, hname⟩ := ih h'
        exact ⟨q, List.mem_cons_of_mem r hq, hname⟩
    rcases he : r.extract method path with e | (_ | params)
    · simp only [scan, he] at h
      cases h
    · simp only [scan, he] at h
      exact hlater h
    · by_cases ha : r.accepts params method path = true
      · simp only [scan, he, ha, if_true] at h
        exact ⟨r, List.mem_cons_self, Option.some.inj h⟩
      · simp only [scan, he, ha] at h
        exact hlater h

/-! ### Looking up a route -/

lemma exists_find? {router : Router} {name : String} (h : ∃ r ∈ router.routes, r.name = name) :
    ∃ r, router.find? name = some r := by
  obtain ⟨r, hr⟩ := h
  exact ⟨r, find?_eq_some_iff.mpr hr⟩

/-- A note that names a route of the router, if there is one. -/
def Knows (router : Router) (note : Option String) : Prop :=
  ∀ name, note = some name → ∃ r, router.find? name = some r

/-- What is noted after a request depends on the answer alone. If the router has no routes there is
no search that would cross out the note, but then there was none. -/
lemma resolveNoting_eq {router : Router} {note : Option String} (h : router.Knows note)
    (method : Method) (path : String) :
    router.resolveNoting method path note =
      (router.resolve method path, (router.resolve method path).accepted?) := by
  unfold resolveNoting resolve
  by_cases hempty : router.isEmpty = true
  · have hnote : note = none := by
      refine Option.eq_none_iff_forall_ne_some.mpr fun name hname => ?_
      obtain ⟨r, hr⟩ := h name hname
      have hmem := (find?_eq_some_iff.mp hr).1
      rw [List.isEmpty_iff.mp hempty] at hmem
      cases hmem
    rw [if_pos hempty, if_pos hempty, hnote]
    rfl
  · rw [if_neg hempty, if_neg hempty, scanNoting_none]

lemma knows_accepted? (router : Router) (method : Method) (path : String) :
    router.Knows (router.resolve method path).accepted? := by
  intro name h
  unfold resolve at h
  split at h
  · cases h
  · exact exists_find? (exists_mem_of_accepted? h)

end Router

namespace Session

/-! ### One step -/

/-- One step in the life of a router's sessions, which are numbered in the order in which they came
into being. -/
inductive Step where
  | new
  | copy (i : Nat)
  | request (i : Nat) (method : Method) (path : String)

/-- The sessions after one step; a step on a session that there is not changes nothing. -/
def step (router : Router) (sessions : List Session) : Step → List Session
  | .new => sessions ++ [.new router]
  | .copy i => sessions ++ sessions[i]?.toList
  | .request i method path => sessions.modify i fun s => (s.resolve method path).2

def run (router : Router) (steps : List Step) : List Session := steps.foldl (step router) []

lemma run_concat (router : Router) (steps : List Step) (t : Step) :
    run router (steps ++ [t]) = step router (run router steps) t := by
  rw [run, run, List.foldl_append]
  rfl

/-- A session of the router that remembers one of its routes, or none. -/
structure Sound (router : Router) (s : Session) : Prop where
  router_eq : s.router = router
  knows : router.Knows s.matchedName?

variable {router : Router} {s : Session}

lemma sound_new (router : Router) : (new router).Sound router := ⟨rfl, fun _ h => by cases h⟩

lemma Sound.resolve_eq (h : s.Sound router) (method : Method) (path : String) :
    s.resolve method path = (router.resolve method path,
      ⟨router, (router.resolve method path).accepted?⟩) := by
  obtain ⟨rfl, hknows⟩ := h
  rw [resolve, Router.resolveNoting_eq hknows]

lemma Sound.resolve (h : s.Sound router) (method : Method) (path : String) :
    (s.resolve method path).2.Sound router := by
  rw [h.resolve_eq]
  exact ⟨rfl, router.knows_accepted? method path⟩

lemma sound_step {sessions : List Session} (h : ∀ s ∈ sessions, s.Sound router) (t : Step) :
    ∀ s ∈ step router sessions t, s.Sound router := by
  intro s hs
  cases t with
  | new =>
    rw [step, List.mem_append, List.mem_singleton] at hs
    rcases hs with hs | rfl
    · exact h s hs
    · exact sound_new router
  | copy i =>
    rw [step, List.mem_append, Option.mem_toList] at hs
    exact h s (hs.elim id List.mem_of_getElem?)
  | request i method path =>
    obtain ⟨j, hj⟩ := List.getElem?_of_mem hs
    rw [step, List.getElem?_modify, Option.map_eq_map, Option.map_eq_some_iff] at hj
    obtain ⟨s₀, hs₀, rfl⟩ := hj
    have hsound := h s₀ (List.mem_of_getElem? hs₀)
    split
    · exact hsound.resolve method path
    · exact hsound

/-! ### Any number of steps -/

lemma sound_run (router : Router) (steps : List Step) :
    ∀ s ∈ run router steps, s.Sound router := by
  induction steps using List.reverseRecOn with
  | nil => intro s hs; cases hs
  | append_singleton steps t ih =>
    rw [run_concat]
    exact sound_step ih t

lemma Sound.matchedRoute_eq (h : s.Sound router) :
    (∀ name, s.matchedName? = some name →
      ∃ r, s.matchedRoute = .ok r ∧ router.find? name = some r ∧ r.name = name) ∧
    (s.matchedName? = none → s.matchedRoute = .error .noMatchedRoute) := by
  obtain ⟨rfl, hknows⟩ := h
  refine ⟨fun name hname => ?_, fun hnone => ?_⟩
  · obtain ⟨r, hr⟩ := hknows name hname
    refine ⟨r, ?_, hr, (Router.find?_eq_some_iff.mp hr).2⟩
    rw [matchedRoute, hname, Option.bind_some, hr]
  · rw [matchedRoute, hnone]
    rfl

/-- **What sessions remember.** After any steps, each session gives out the route whose name it
remembers, and there is such a route; if it remembers none, that is its error. A new session
remembers nothing, and a copy what its original does. A request has the answer, and makes the hook
calls, that it would have without a session; the session then remembers the route that accepted it,
or nothing if it failed, and no other session changes. -/
theorem sessions_remember_answers (router : Router) (steps : List Step) :
    (∀ s ∈ run router steps, s.router = router ∧
      (∀ name, s.matchedName? = some name →
        ∃ r, s.matchedRoute = .ok r ∧ router.find? name = some r ∧ r.name = name) ∧
      (s.matchedName? = none → s.matchedRoute = .error .noMatchedRoute)) ∧
    run router (steps ++ [.new]) = run router steps ++ [⟨router, none⟩] ∧
    ∀ i s, (run router steps)[i]? = some s →
      run router (steps ++ [.copy i]) = run router steps ++ [s] ∧
      ∀ method path,
        (s.resolve method path).1 = router.resolve method path ∧
        (run router (steps ++ [.request i method path]))[i]? =
          some ⟨router, match router.matchRequest method path with
            | .ok m => some m.routeName
            | .error _ => none⟩ ∧
        (run router (steps ++ [.request i method path])).length = (run router steps).length ∧
        ∀ j, j ≠ i →
          (run router (steps ++ [.request i method path]))[j]? = (run router steps)[j]? := by
  have hsound := sound_run router steps
  refine ⟨fun s hs => ⟨(hsound s hs).router_eq, (hsound s hs).matchedRoute_eq⟩,
    run_concat router steps .new, fun i s hi => ⟨?_, fun method path => ?_⟩⟩
  · rw [run_concat, step, hi]
    rfl
  · have hs := (hsound s (List.mem_of_getElem? hi)).resolve_eq method path
    have haccepted : (router.resolve method path).accepted? =
        match router.matchRequest method path with
        | .ok m => some m.routeName
        | .error _ => none := by
      unfold Resolution.accepted? Router.matchRequest
      rcases (router.resolve method path).answer with e | m <;> rfl
    rw [run_concat, step]
    refine ⟨by rw [hs], ?_, List.length_modify _ _ _, fun j hj => ?_⟩
    · rw [List.getElem?_modify_eq, hi, ← haccepted]
      exact congrArg (fun x => some x.2) hs
    · exact List.getElem?_modify_ne _ _ (Ne.symm hj)

/-- A route that refuses whatever matches, in front of one that answers for the same path. -/
def refusedFirst : Router where
  routes :=
    [(Route.ofTemplate "closed" (.ofText ['x'])).setCondition fun _ _ _ => false,
      Route.ofTemplate "open" (.ofText ['x'])]
  nodup_names := by decide

/-- A copy remembers the route that answered on the original, until a request on it fails. -/
theorem sessions_remember_refusedFirst :
    let steps : List Step := [.new, .request 0 .get "/x/", .copy 0]
    let later := run refusedFirst (steps ++ [.request 1 .get "y"])
    (run refusedFirst steps)[1]? = some ⟨refusedFirst, some "open"⟩ ∧
      refusedFirst.matchRequest .get "y" = .error (.notFound "GET" "y") ∧
      later[1]? = some ⟨refusedFirst, none⟩ ∧ later[0]? = some ⟨refusedFirst, some "open"⟩ := by
  intro steps later
  have hcopy : (run refusedFirst steps)[1]? = some ⟨refusedFirst, some "open"⟩ := rfl
  have hfails : refusedFirst.matchRequest .get "y" = .error (.notFound "GET" "y") := rfl
  obtain ⟨-, hrequest⟩ := (sessions_remember_answers refusedFirst steps).2.2 1 _ hcopy
  obtain ⟨-, hself, -, hother⟩ := hrequest .get "y"
  rw [hfails] at hself
  exact ⟨hcopy, hfails, hself, hother 0 (by decide)⟩

end Session

end Signpost
