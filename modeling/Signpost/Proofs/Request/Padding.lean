import Signpost.Proofs.Text.Slice
import Signpost.Request

/-!
Slashes around paths and templates. Templates, routes, routers and requests each set outer slashes
aside on their own, and a request puts one slash back; so however many slashes there are, they are
seen in no match, no error and no argument of a hook.
-/

namespace Signpost

/-- A text with `m` slashes more in front and `n` more behind. -/
def padded (m n : Nat) (s : String) : String :=
  String.ofList (List.replicate m '/' ++ (s.toList ++ List.replicate n '/'))

variable {m n : Nat}

lemma trimSlashes_toList_padded (s : String) :
    Text.trimSlashes (padded m n s).toList = Text.trimSlashes s.toList := by
  rw [padded, String.toList_ofList, Text.trimSlashes_padded]

namespace Route

lemma isMatch_congr (r : Route) {path path' : String}
    (h : Text.trimSlashes path.toList = Text.trimSlashes path'.toList) :
    r.isMatch path = r.isMatch path' := by
  simp only [isMatch, h]

lemma extract_congr (r : Route) (method : Method) {path path' : String}
    (h : Text.trimSlashes path.toList = Text.trimSlashes path'.toList) :
    r.extract method path = r.extract method path' := by
  rw [extract, extract, h]

lemma toOption_new_congr (name : String) {template template' : String}
    (h : Text.trimSlashes template.toList = Text.trimSlashes template'.toList) :
    (Route.new name template).toOption = (Route.new name template').toOption := by
  have hcompile : Template.compile template.toList = Template.compile template'.toList := by
    simp only [Template.compile, h]
  rw [Route.new, Route.new, hcompile]
  rcases Template.compile template'.toList with e | t <;> rfl

end Route

lemma Router.resolve_congr (router : Router) (method : Method) {path path' : String}
    (h : Text.trimSlashes path.toList = Text.trimSlashes path'.toList) :
    router.resolve method path = router.resolve method path' := by
  rw [resolve, resolve, trimPath, trimPath, h]

namespace Request

lemma splitUri_fst (uri : List Char) : (splitUri uri).1 = uri.takeWhile (· != '?') := by
  rw [Text.takeWhile_ne, splitUri]
  rcases Text.cutAt? '?' uri with _ | ⟨path, query⟩ <;> rfl

/-- What stands in front of the query of a URI. -/
def rawPath (uri : String) : String := String.ofList (uri.toList.takeWhile (· != '?'))

lemma path_new (method : Method) (uri : String) :
    (new method uri).path = String.ofList ('/' :: Text.trimSlashes (rawPath uri).toList) := by
  rw [rawPath, String.toList_ofList, ← splitUri_fst]
  rfl

lemma question_not_mem_rawPath (uri : String) : '?' ∉ (rawPath uri).toList := by
  rw [rawPath, String.toList_ofList]
  exact Text.not_mem_takeWhile_ne '?' uri.toList

lemma trimSlashes_path_new (method : Method) (uri : String) :
    Text.trimSlashes (new method uri).path.toList = Text.trimSlashes (rawPath uri).toList := by
  have hslash := Text.trimSlashes_padded 1 0 (Text.trimSlashes (rawPath uri).toList)
  rw [List.replicate_one, List.replicate_zero, List.append_nil, List.singleton_append,
    Text.trimSlashes_trimSlashes] at hslash
  rw [path_new, String.toList_ofList]
  exact hslash

lemma exists_path_new (method : Method) (uri : String) :
    ∃ s, (new method uri).path.toList = '/' :: s ∧ s.head? ≠ some '/' ∧
      s.getLast? ≠ some '/' ∧ '?' ∉ s := by
  refine ⟨Text.trimSlashes (rawPath uri).toList, ?_, Text.head?_trimSlashes _, ?_, fun h => ?_⟩
  · rw [path_new, String.toList_ofList]
  · rw [← List.head?_reverse]
    exact Text.head?_reverse_trimSlashes _
  · exact question_not_mem_rawPath uri (Text.mem_of_mem_trimSlashes h)

lemma rawPath_of_not_mem {uri : String} (h : '?' ∉ uri.toList) : rawPath uri = uri := by
  rw [rawPath, Text.takeWhile_ne, Text.cutAt?_eq_none h]
  exact String.ofList_toList

lemma path_path_new (method method' : Method) (uri : String) :
    (new method' (new method uri).path).path = (new method uri).path := by
  obtain ⟨s, hs, -, -, hquestion⟩ := exists_path_new method uri
  have hraw : rawPath (new method uri).path = (new method uri).path :=
    rawPath_of_not_mem (by simpa [hs] using hquestion)
  calc (new method' (new method uri).path).path
    _ = String.ofList ('/' :: Text.trimSlashes (new method uri).path.toList) := by
        rw [path_new, hraw]
    _ = String.ofList ('/' :: Text.trimSlashes (rawPath uri).toList) := by
        rw [trimSlashes_path_new]
    _ = (new method uri).path := (path_new method uri).symm

lemma route_new_fst (method : Method) (uri : String) (router : Router) :
    ((new method uri).route router).1 = router.matchRequest method (rawPath uri) := by
  have hmatch : router.matchRequest method (new method uri).path =
      router.matchRequest method (rawPath uri) :=
    congrArg Resolution.answer (router.resolve_congr method (trimSlashes_path_new method uri))
  rw [route_fst, ← hmatch]
  rfl

end Request

/-- **Slashes around paths are invisible.** With any number of slashes around a path a router gives
the same answer and calls the same hooks with the same arguments, and a route matches and extracts
the same; a template with slashes around it makes the same route, if it makes one. The path of a
request has one slash in front, none at the end unless it is this slash, and no question mark; a
request for this path has the same path again, and it is answered like what stands in front of the
query. -/
theorem slash_padding_invisible (method : Method) (m n : Nat) :
    (∀ (router : Router) path,
      router.resolve method (padded m n path) = router.resolve method path) ∧
    (∀ (r : Route) path, r.isMatch (padded m n path) = r.isMatch path ∧
      r.extract method (padded m n path) = r.extract method path) ∧
    (∀ name template, (Route.new name (padded m n template)).toOption =
      (Route.new name template).toOption) ∧
    ∀ uri,
      (∃ s, (Request.new method uri).path.toList = '/' :: s ∧ s.head? ≠ some '/' ∧
        s.getLast? ≠ some '/' ∧ '?' ∉ s) ∧
      (∀ method', (Request.new method' (Request.new method uri).path).path =
        (Request.new method uri).path) ∧
      ∀ router, ((Request.new method uri).route router).1 =
        router.matchRequest method (String.ofList (uri.toList.takeWhile (· != '?'))) := by
  refine ⟨fun router path => ?_, fun r path => ⟨?_, ?_⟩, fun name template => ?_, fun uri => ?_⟩
  · exact router.resolve_congr method (trimSlashes_toList_padded path)
  · exact r.isMatch_congr (trimSlashes_toList_padded path)
  · exact r.extract_congr method (trimSlashes_toList_padded path)
  · exact Route.toOption_new_congr name (trimSlashes_toList_padded template)
  · exact ⟨Request.exists_path_new method uri,
      fun method' => Request.path_path_new method method' uri, Request.route_new_fst method uri⟩

end Signpost
