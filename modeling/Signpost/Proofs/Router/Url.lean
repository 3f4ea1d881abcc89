import Signpost.Proofs.Route.Built
import Signpost.Proofs.Router.Registry

/-!
When a URL cannot be made, and what it depends on. The parameters are filled in one after the other,
so the first required one without a value is reported; optional ones are left out instead. Of the
given parameters only those of the template count. A router reports a name that it does not have and
leaves everything else to the route.
-/

namespace Signpost

namespace Route

/-- A parameter that must be written but has neither a given value nor a default. -/
def Missing (r : Route) (params : Params) (t : Token) : Prop :=
  r.isOptional t = false ∧ params.get? t.name = none ∧ r.defaults.get? t.name = none

instance (r : Route) (params : Params) (t : Token) : Decidable (r.Missing params t) :=
  inferInstanceAs (Decidable (_ ∧ _))

variable {r : Route} {params params' : Params} {e : RouteError}

/-! ### The first missing parameter -/

lemma fill_eq_error_iff {url : List Char} {t : Token} :
    r.fill params url t = .error e ↔
      r.Missing params t ∧ e = .missingParameter r.name t.name := by
  unfold fill Missing isOptional
  rcases r.template.group? t.name with _ | g
  · rcases hp : params.get? t.name with _ | v
    · rcases hd : r.defaults.get? t.name with _ | v
      · simp [eq_comm]
      · simp
    · simp
  · simp

lemma fillAll_eq_error_iff (url : List Char) {ts : List Token} :
    r.fillAll params url ts = .error e ↔
      ∃ before t after, ts = before ++ t :: after ∧ r.Missing params t ∧
        (∀ u ∈ before, ¬ r.Missing params u) ∧ e = .missingParameter r.name t.name := by
  induction ts generalizing url with
  | nil => simp [fillAll]
  | cons u ts ih =>
    rw [fillAll]
    rcases hu : r.fill params url u with e' | url'
    · obtain ⟨hmissing, rfl⟩ := fill_eq_error_iff.mp hu
      constructor
      · rintro ⟨⟩
        exact ⟨[], u, ts, rfl, hmissing, nofun, rfl⟩
      · rintro ⟨before, t, after, hsplit, -, hbefore, rfl⟩
        rcases before with _ | ⟨x, before⟩
        · cases hsplit
          rfl
        · cases hsplit
          exact absurd hmissing (hbefore u List.mem_cons_self)
    · have hfine : ¬ r.Missing params u := fun h => by
        rw [fill_eq_error_iff.mpr ⟨h, rfl⟩] at hu
        cases hu
      simp only [ih]
      constructor
      · rintro ⟨before, t, after, rfl, hmissing, hbefore, he⟩
        exact ⟨u :: before, t, after, rfl, hmissing, List.forall_mem_cons.mpr ⟨hfine, hbefore⟩, he⟩
      · rintro ⟨before, t, after, hsplit, hmissing, hbefore, he⟩
        rcases before with _ | ⟨x, before⟩
        · cases hsplit
          exact absurd hmissing hfine
        · cases hsplit
          exact ⟨before, t, after, rfl, hmissing, (List.forall_mem_cons.mp hbefore).2, he⟩

lemma generate_eq_error_iff :
    r.generate params = .error e ↔ r.template.isStatic = false ∧
      ∃ before t after, r.template.tokens = before ++ t :: after ∧ r.Missing params t ∧
        (∀ u ∈ before, ¬ r.Missing params u) ∧ e = .missingParameter r.name t.name := by
  rw [generate, ← fillAll_eq_error_iff r.template.text]
  rcases r.template.isStatic with _ | _
  · rcases r.fillAll params r.template.text r.template.tokens with e' | url <;> simp [Except.map]
  · simp

/-! ### What a URL depends on -/

lemma fill_congr {t : Token} (h : params.get? t.name = params'.get? t.name) (url : List Char) :
    r.fill params url t = r.fill params' url t := by
  unfold fill
  rw [h]

lemma fillAll_congr {ts : List Token} (h : ∀ t ∈ ts, params.get? t.name = params'.get? t.name)
    (url : List Char) : r.fillAll params url ts = r.fillAll params' url ts := by
  induction ts generalizing url with
  | nil => rfl
  | cons t ts ih =>
    rw [List.forall_mem_cons] at h
    simp only [fillAll, fill_congr h.1, ih h.2]

/-- Of the given parameters only those of the template count, in whatever order. -/
lemma generate_congr (h : ∀ t ∈ r.template.tokens, params.get? t.name = params'.get? t.name) :
    r.generate params = r.generate params' := by
  rw [generate, generate, fillAll_congr h]

end Route

namespace Router

variable {router : Router} {name : String} {params : Params}

lemma url_of_mem {r : Route} (h : r ∈ router.routes) :
    router.url r.name params = r.generate params := by
  rw [url, find?_eq_some_iff.mpr ⟨h, rfl⟩]

lemma url_eq_unknownRoute_iff {n : String} :
    router.url name params = .error (.unknownRoute n) ↔ name ∉ router.names ∧ n = name := by
  rcases hfind : router.find? name with _ | r
  · have hnot : name ∉ router.names := fun hmem => by
      obtain ⟨r, hr, rfl⟩ := List.mem_map.mp hmem
      rw [find?_eq_some_iff.mpr ⟨hr, rfl⟩] at hfind
      cases hfind
    rw [url, hfind]
    simp [hnot, eq_comm]
  · have hname : r.name = name := by simpa using List.find?_some hfind
    have hmem : name ∈ router.names :=
      hname ▸ List.mem_map_of_mem (List.mem_of_find?_eq_some hfind)
    rw [url, hfind]
    simp [hmem, Route.generate_eq_error_iff]

/-- **When a URL cannot be made.** A route fails just if it has parameters and a required one has
neither a given value nor a default, and reports the first such parameter; the given parameters
count only as far as they are those of the template. A router reports just the names that it does
not have, and otherwise gives what the route of the name gives. -/
theorem url_reports_first_missing :
    (∀ (r : Route) (params : Params) (e : RouteError),
      r.generate params = .error e ↔ r.template.isStatic = false ∧
        ∃ before t after, r.template.tokens = before ++ t :: after ∧ r.Missing params t ∧
          (∀ u ∈ before, ¬ r.Missing params u) ∧ e = .missingParameter r.name t.name) ∧
    (∀ (r : Route) (params params' : Params),
      (∀ t ∈ r.template.tokens, params.get? t.name = params'.get? t.name) →
        r.generate params = r.generate params') ∧
    ∀ (router : Router) (name : String) (params : Params),
      (∀ n, router.url name params = .error (.unknownRoute n) ↔
        name ∉ router.names ∧ n = name) ∧
      (∀ r ∈ router.routes, r.name = name → router.url name params = r.generate params) ∧
      router.urlFor name = router.url name ∅ := by
  refine ⟨fun r params e => Route.generate_eq_error_iff,
    fun r params params' h => Route.generate_congr h, fun router name params =>
      ⟨fun n => url_eq_unknownRoute_iff, fun r hr hname => ?_, rfl⟩⟩
  rw [← hname, url_of_mem hr]

/-- A route with a default, an optional parameter and two parameters that must be given. -/
def posts : Route :=
  (Route.ofTemplate "posts"
    ((Template.compile "/<:kind>(/<:tag>)/<#id>/<:view>".toList).toOption.get
      (by decide +kernel))).apply (.defaults [("kind", "post")])

theorem url_reports_first_missing_posts :
    let given : Params := .ofList [("id", "7"), ("view", "x")]
    let other : Params := .ofList [("page", "2"), ("view", "x"), ("id", "7")]
    let router := (∅ : Router).insert posts
    posts.Built ∧ posts.generate ∅ = .error (.missingParameter "posts" "id") ∧
      (∀ t ∈ posts.template.tokens, given.get? t.name = other.get? t.name) ∧
      posts.generate given = posts.generate other ∧
      router.url "posts" given = posts.generate given ∧
      router.url "drafts" given = .error (.unknownRoute "drafts") := by
  intro given other router
  have hall : posts.template.isStatic = false ∧
      posts.template.tokens = [⟨.generic, "kind".toList⟩, ⟨.generic, "tag".toList⟩,
        ⟨.numeric, "id".toList⟩, ⟨.generic, "view".toList⟩] ∧
      (posts.template.tokens.map fun t => decide (posts.Missing ∅ t)) =
        [false, false, true, true] := by
    decide +kernel
  obtain ⟨hdynamic, htokens, hmissing⟩ := hall
  rw [htokens] at hmissing
  simp only [List.map_cons, List.cons.injEq, decide_eq_false_iff_not, decide_eq_true_eq] at hmissing
  obtain ⟨hkind, htag, hid, -⟩ := hmissing
  obtain ⟨hfails, hcongr, hrouter⟩ := url_reports_first_missing
  have hbuilt : posts.Built := .apply (.new (Route.new_of_compile "posts"
    (Template.compile_eq_ok_get _))) _
  have hname : posts.name = "posts" := Route.name_apply _ _
  have hsame : ∀ t ∈ posts.template.tokens, given.get? t.name = other.get? t.name := by
    rw [htokens]
    decide
  refine ⟨hbuilt, (hfails posts ∅ _).mpr ⟨hdynamic, _ :: [_], _, _, htokens, hid, ?_, ?_⟩, hsame,
    hcongr posts given other hsame,
    (hrouter router "posts" given).2.1 posts List.mem_cons_self hname,
    ((hrouter router "drafts" given).1 _).mpr ⟨?_, rfl⟩⟩
  · exact List.forall_mem_cons.mpr ⟨hkind, List.forall_mem_cons.mpr ⟨htag, nofun⟩⟩
  · rw [hname]
    rfl
  · have hnames : router.names = [posts.name] := rfl
    rw [hnames, hname]
    decide

end Router

end Signpost
