import Mathlib.Data.List.Induction
import Mathlib.Tactic.Common
import Mathlib.Tactic.Lemma
import Signpost.Proofs.OrderedMap
import Signpost.Proofs.Table.Default
import Signpost.Request

/-!
What becomes of the parameters of a request. Matching a request is all or nothing: a match adds
those of its parameters that are not set yet, and a failure leaves the request as it was. So through
any number of changes a parameter keeps its place, and it keeps its value until it is set again.
-/

namespace Signpost.Request

/-! ### Changes -/

lemma toList_addParams (r : Request) (params : Params) :
    (r.addParams params).params.toList =
      r.params.toList ++ params.toList.filter fun p => p.1 ∉ r.params.keys :=
  OrderedMap.toList_insertAllNew params.nodup_keys r.params

/-- A change of the parameters of a request: one is set, several are added, or the request is
matched. -/
inductive Change where
  | set (key value : String)
  | add (params : Params)
  | route (router : Router)

/-- The value that the change gives to a parameter that may be set already. -/
def Change.set? (key : String) : Change → Option String
  | set k value => if k = key then some value else none
  | add _ | route _ => none

def change (r : Request) : Change → Request
  | .set key value => r.setParam key value
  | .add params => r.addParams params
  | .route router => (r.route router).2

def run (r : Request) (changes : List Change) : Request := changes.foldl change r

lemma run_concat (r : Request) (changes : List Change) (c : Change) :
    r.run (changes ++ [c]) = (r.run changes).change c := by
  simp [run, List.foldl_append]

/-- The value that was given to a parameter last, whether or not it was set already. -/
def lastSet? (changes : List Change) (key : String) : Option String :=
  changes.reverse.findSome? (Change.set? key)

/-- The later request is the earlier one with further parameters behind those that it had, and of
these the ones that `set?` tells have new values. -/
structure Grown (set? : String → Option String) (earlier later : Request) : Prop where
  method_eq : later.method = earlier.method
  uri_eq : later.uri = earlier.uri
  path_eq : later.path = earlier.path
  query_eq : later.query = earlier.query
  keys_prefix : earlier.params.keys <+: later.params.keys
  get?_eq : ∀ key value, earlier.params.get? key = some value →
    later.params.get? key = some ((set? key).getD value)

lemma Grown.refl (r : Request) : Grown (fun _ => none) r r :=
  ⟨rfl, rfl, rfl, rfl, List.prefix_rfl, fun _ _ h => h⟩

lemma Grown.trans {set? set'? : String → Option String} {r₁ r₂ r₃ : Request}
    (h : Grown set? r₁ r₂) (h' : Grown set'? r₂ r₃) :
    Grown (fun key => (set'? key).or (set? key)) r₁ r₃ where
  method_eq := h'.method_eq.trans h.method_eq
  uri_eq := h'.uri_eq.trans h.uri_eq
  path_eq := h'.path_eq.trans h.path_eq
  query_eq := h'.query_eq.trans h.query_eq
  keys_prefix := h.keys_prefix.trans h'.keys_prefix
  get?_eq key value hvalue := by
    rw [h'.get?_eq key _ (h.get?_eq key value hvalue)]
    rcases set'? key with _ | new <;> rfl

lemma grown_setParam (r : Request) (key value : String) :
    Grown (Change.set? · (.set key value)) r (r.setParam key value) where
  method_eq := rfl
  uri_eq := rfl
  path_eq := rfl
  query_eq := rfl
  keys_prefix := by
    rw [setParam, OrderedMap.keys_insert]
    split
    · exact List.prefix_rfl
    · exact List.prefix_append ..
  get?_eq k old h := by
    rw [setParam, OrderedMap.get?_insert, h, Change.set?]
    split <;> rfl

lemma grown_addParams (r : Request) (params : Params) :
    Grown (fun _ => none) r (r.addParams params) where
  method_eq := rfl
  uri_eq := rfl
  path_eq := rfl
  query_eq := rfl
  keys_prefix := by
    rw [OrderedMap.keys, OrderedMap.keys, toList_addParams, List.map_append]
    exact List.prefix_append ..
  get?_eq k old h := by
    rw [addParams, OrderedMap.get?_insertAllNew, h]
    rfl

lemma grown_change (r : Request) (c : Change) : Grown (Change.set? · c) r (r.change c) := by
  cases c with
  | set key value => exact grown_setParam r key value
  | add params => exact grown_addParams r params
  | route router =>
    rcases h : router.matchRequest r.method r.path with e | m
    · rw [change, route_of_error h]
      exact .refl r
    · rw [change, route_of_ok h]
      exact grown_addParams r m.params

lemma grown_run (r : Request) (changes : List Change) :
    Grown (lastSet? changes) r (r.run changes) := by
  induction changes using List.reverseRecOn with
  | nil => exact .refl r
  | append_singleton changes c ih =>
    have hlast : lastSet? (changes ++ [c]) =
        fun key => (c.set? key).or (lastSet? changes key) :=
      funext fun key => findSome?_reverse_concat (Change.set? key) changes c
    rw [hlast, run_concat]
    exact ih.trans (grown_change (r.run changes) c)

/-- **Matching a request is all or nothing, and it only adds.** The answer is that of the router,
whatever is set already. After a failure the request is the same. After a match the parameters that
were set are the first ones, as they were, and the new ones of the match come behind them in their
order. So through any number of changes a parameter that is set stays in its place, and it has the
value that was last given to it; nothing but the parameters changes. -/
theorem changes_keep_parameters (r : Request) :
    (∀ router : Router, (r.route router).1 = router.matchRequest r.method r.path) ∧
    (∀ (router : Router) (e : RouteError), (r.route router).1 = .error e →
      (r.route router).2 = r) ∧
    (∀ (router : Router) (m : RouteMatch), (r.route router).1 = .ok m →
      ∃ params, (r.route router).2 = { r with params := params } ∧
        params.toList =
          r.params.toList ++ m.params.toList.filter fun p => p.1 ∉ r.params.keys) ∧
    ∀ changes : List Change, Grown (lastSet? changes) r (r.run changes) := by
  refine ⟨r.route_fst, fun router e h => ?_, fun router m h => ?_, r.grown_run⟩
  · rw [route_fst] at h
    rw [route_of_error h]
  · rw [route_fst] at h
    rw [route_of_ok h]
    exact ⟨(r.addParams m.params).params, rfl, r.toList_addParams m.params⟩

/-- A request with a format is matched and then changed; another one is refused. -/
theorem changes_keep_format :
    let r := (Request.new .delete "/users/7?confirm=1").setParam "format" "json"
    let refused := (Request.new .get "/a/b/c/d").setParam "format" "json"
    r.params.get? "format" = some "json" ∧
      ∃ (router : Router) (m : RouteMatch) (e : RouteError), (r.route router).1 = .ok m ∧
        (∃ params, (r.route router).2 = { r with params := params } ∧
          params.toList =
            [("format", "json"), ("module", "users"), ("item", "7"), ("action", "delete")]) ∧
        (refused.route router).1 = .error e ∧ (refused.route router).2 = refused ∧
        (r.run [.route router, .set "format" "xml", .add m.params]).params.get? "format" =
          some "xml" := by
  intro r refused
  obtain ⟨router, hrouter⟩ := Router.exists_addSpecs RouteTable.new_of_default ∅
  let m : RouteMatch := ⟨"module-item", .ofList [("module", "users"), ("item", "7"),
    ("action", "delete"), ("format", "html")]⟩
  have hformat : r.params.get? "format" = some "json" := by decide +kernel
  have hrefused : defaultMatch? refused.method (segments refused.path) = none := by decide +kernel
  have hok : (r.route router).1 = .ok m := by
    rw [route_fst, RouteTable.matchRequest_eq_ok_iff hrouter]
    decide +kernel
  have herror : (refused.route router).1 = .error (.notFound "GET" "a/b/c/d") := by
    rw [route_fst, RouteTable.matchRequest_of_default hrouter, hrefused]
    decide +kernel
  obtain ⟨params, hparams, hlist⟩ := (changes_keep_parameters r).2.2.1 router m hok
  refine ⟨hformat, router, m, _, hok, ⟨params, hparams, hlist.trans (by decide +kernel)⟩, herror,
    (changes_keep_parameters refused).2.1 router _ herror, ?_⟩
  exact ((changes_keep_parameters r).2.2.2 _).get?_eq "format" "json" hformat

end Signpost.Request
