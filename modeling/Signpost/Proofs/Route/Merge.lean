import Signpost.Proofs.Route.Built

/-!
The parameters of a match. A template parameter or key has the value of the source that ranks
highest among those that have it: for `GET` the captured text, then the overrides for the method,
then the defaults; for other methods the overrides rank above the captured text. Template
parameters come first, in template order, then the keys that only the defaults have, then those
that only the overrides have.
-/

namespace Signpost.Route

open OrderedMap

/-! ### Layers -/

lemma keys_places (names : List String) :
    (names.map fun n => (n, (none : Option String))).map Prod.fst = names := by
  rw [List.map_map]
  exact List.map_id names

lemma keys_layer (l : List (String × String)) :
    (l.map fun p => (p.1, some p.2)).map Prod.fst = l.map Prod.fst := by
  rw [List.map_map]
  rfl

lemma get?_places {names : List String} (hn : names.Nodup) (k : String) :
    (ofList (names.map fun n => (n, (none : Option String)))).get? k =
      if k ∈ names then some none else none := by
  rw [get?_ofList (by rwa [keys_places])]
  clear hn
  induction names with
  | nil => rfl
  | cons n names ih =>
    rw [List.map_cons, findIn_cons, ih]
    by_cases h : n = k
    · simp [h]
    · have h' : ¬ k = n := fun e => h e.symm
      simp [h, h']

lemma get?_foldl_insertAll {layers : List (List (String × String))}
    (hl : ∀ l ∈ layers, (l.map Prod.fst).Nodup) (m : OrderedMap String (Option String))
    (k : String) :
    (layers.foldl (fun m l => m.insertAll (l.map fun (k, v) => (k, some v))) m).get? k =
      ((layers.reverse.findSome? (findIn k)).map some).or (m.get? k) := by
  induction layers generalizing m with
  | nil => rfl
  | cons l layers ih =>
    have hl' : ((l.map fun p => (p.1, some p.2)).map Prod.fst).Nodup := by
      rw [keys_layer]
      exact hl l List.mem_cons_self
    rw [List.foldl_cons, ih fun l' h => hl l' (List.mem_cons_of_mem l h), get?_insertAll hl',
      findIn_map, List.reverse_cons, List.findSome?_append]
    rcases layers.reverse.findSome? (findIn k) with _ | v
    · rcases h : findIn k l with _ | w <;> simp [h]
    · rfl

lemma keys_insertAll_layer {l : List (String × String)} (hl : (l.map Prod.fst).Nodup)
    (m : OrderedMap String (Option String)) :
    (m.insertAll (l.map fun (k, v) => (k, some v))).keys =
      m.keys ++ (l.map Prod.fst).filter fun k => k ∉ m.keys := by
  rw [keys_insertAll (by rwa [keys_layer]), keys_layer]

lemma get?_merge {names : List String} (hn : names.Nodup) {layers : List (List (String × String))}
    (hl : ∀ l ∈ layers, (l.map Prod.fst).Nodup) (k : String) :
    (merge names layers).get? k =
      (layers.reverse.findSome? (findIn k)).map Percent.decode := by
  simp only [merge]
  rw [get?_filterMap, get?_foldl_insertAll hl, get?_places hn]
  rcases layers.reverse.findSome? (findIn k) with _ | v
  · by_cases h : k ∈ names <;> simp [h]
  · simp

/-- The keys behind `ks` and then those of some layers, each where it is met first. -/
def gather (ks : List String) (layers : List (List (String × String))) : List String :=
  layers.foldl (fun ks l => ks ++ (l.map Prod.fst).filter fun k => k ∉ ks) ks

lemma gather_cons (ks : List String) (l : List (String × String))
    (layers : List (List (String × String))) :
    gather ks (l :: layers) =
      gather (ks ++ (l.map Prod.fst).filter fun k => k ∉ ks) layers := rfl

lemma gather_cons_of_subset {ks : List String} {l : List (String × String)}
    (h : ∀ k ∈ l.map Prod.fst, k ∈ ks) (layers : List (List (String × String))) :
    gather ks (l :: layers) = gather ks layers := by
  have hnone : (l.map Prod.fst).filter (fun k => k ∉ ks) = [] :=
    List.filter_eq_nil_iff.mpr fun k hk => by simp [h k hk]
  rw [gather_cons, hnone, List.append_nil]

lemma keys_foldl_insertAll {layers : List (List (String × String))}
    (hl : ∀ l ∈ layers, (l.map Prod.fst).Nodup) (m : OrderedMap String (Option String)) :
    (layers.foldl (fun m l => m.insertAll (l.map fun (k, v) => (k, some v))) m).keys =
      gather m.keys layers := by
  induction layers generalizing m with
  | nil => rfl
  | cons l layers ih =>
    rw [List.foldl_cons, gather_cons, ih fun l' h => hl l' (List.mem_cons_of_mem l h),
      keys_insertAll_layer (hl l List.mem_cons_self)]

lemma keys_merge {names : List String} (hn : names.Nodup) {layers : List (List (String × String))}
    (hl : ∀ l ∈ layers, (l.map Prod.fst).Nodup) :
    (merge names layers).keys =
      (gather names layers).filter fun k => (layers.reverse.findSome? (findIn k)).isSome := by
  have hplaces : (ofList (names.map fun n => (n, (none : Option String)))).keys = names := by
    rw [keys_ofList (by rwa [keys_places]), keys_places]
  have hget := get?_merge hn hl
  simp only [merge, get?_filterMap] at hget ⊢
  rw [keys_filterMap, keys_foldl_insertAll hl, hplaces]
  refine List.filter_congr fun k _ => ?_
  rw [hget, Option.isSome_map]

/-! ### Sources -/

/-- The captured texts under the names of their parameters. -/
def Captures.texts (c : Captures) : List (String × String) :=
  c.filterMap fun (t, text) => text.map fun s => (t.name, s)

variable {r : Route} {method : Method} {path : String} {params : Params} {captures : Captures}

/-- The sources of a match's values, highest rank first. -/
def sources (r : Route) (method : Method) (captured : List (String × String)) :
    List (List (String × String)) :=
  let overrides := ((r.overridesLike? method.text).getD ∅).toList
  if method.isGetInAnyCase then [captured, overrides, r.defaults.toList]
  else [overrides, captured, r.defaults.toList]

lemma sources_of_get (hg : method.isGetInAnyCase = true) (c : List (String × String)) :
    r.sources method c =
      [c, ((r.overridesLike? method.text).getD ∅).toList, r.defaults.toList] := by
  simp [sources, hg]

lemma sources_of_not_get (hg : ¬ method.isGetInAnyCase = true) (c : List (String × String)) :
    r.sources method c =
      [((r.overridesLike? method.text).getD ∅).toList, c, r.defaults.toList] := by
  simp [sources, hg]

/-- The value of a key in the highest source that has the key. -/
def rankedValue? (r : Route) (method : Method) (captured : List (String × String)) (key : String) :
    Option String :=
  (r.sources method captured).findSome? (findIn key)

lemma tokens_captures (hr : r.Built) {s : List Char} (h : r.captures? s = some captures) :
    captures.map Prod.fst = r.template.tokens := by
  unfold captures? at h
  split at h
  · rename_i regex hregex
    obtain ⟨m, -, rfl⟩ := Option.map_eq_some_iff.mp h
    rw [List.map_map]
    exact List.zipIdx_map_fst 0 _
  · rename_i hnone
    split at h
    · cases h
      exact (hr.wellFormed.tokens_of_static hnone).symm
    · cases h

lemma keys_texts_sublist (c : Captures) :
    List.Sublist (c.texts.map Prod.fst) ((c.map Prod.fst).map Token.name) := by
  induction c with
  | nil => exact List.Sublist.refl []
  | cons p c ih =>
    obtain ⟨t, _ | s⟩ := p
    · exact ih.cons _
    · exact ih.cons_cons _

lemma extract_of_captures?_eq_none
    (h : r.captures? (Text.trimSlashes path.toList) = none) : r.extract method path = .ok none := by
  rw [extract, h]

/-- A match gives the merged layers of the three sources, unless a required parameter is missing. -/
lemma extract_of_captures? (hr : r.Built)
    (h : r.captures? (Text.trimSlashes path.toList) = some captures) :
    r.extract method path = (r.checkCaptures captures).map fun _ =>
      some (merge (r.template.tokens.map Token.name)
        (r.sources method (Captures.texts captures)).reverse) := by
  unfold extract
  rw [h, hr.overridesFor?_eq]
  rcases hcheck : r.checkCaptures captures with e | ⟨⟩
  · simp only [hcheck]
    rfl
  · simp only [hcheck]
    by_cases hg : method.isGetInAnyCase = true <;>
      simp [sources, hg, Captures.texts, Except.map]

lemma extract_eq_some (hr : r.Built) (h : r.extract method path = .ok (some params)) :
    ∃ captures, r.captures? (Text.trimSlashes path.toList) = some captures ∧
      params = merge (r.template.tokens.map Token.name)
        (r.sources method (Captures.texts captures)).reverse := by
  rcases hc : r.captures? (Text.trimSlashes path.toList) with _ | captures
  · rw [extract_of_captures?_eq_none hc] at h
    cases h
  · refine ⟨captures, rfl, ?_⟩
    rw [extract_of_captures? hr hc] at h
    rcases hcheck : r.checkCaptures captures with e | ⟨⟩
    · rw [hcheck] at h
      cases h
    · rw [hcheck] at h
      exact (Option.some.inj (Except.ok.inj h)).symm

lemma nodup_keys_sources (hr : r.Built) (h : captures.map Prod.fst = r.template.tokens) :
    ∀ l ∈ r.sources method captures.texts, (l.map Prod.fst).Nodup := by
  have hc : (captures.texts.map Prod.fst).Nodup := by
    refine List.Nodup.sublist (keys_texts_sublist captures) ?_
    rw [h]
    exact hr.wellFormed.nodup_names
  have ho := ((r.overridesLike? method.text).getD ∅).nodup_keys
  have hd := r.defaults.nodup_keys
  intro l hl
  unfold sources at hl
  split at hl <;> simp only [List.mem_cons, List.not_mem_nil, or_false] at hl <;>
    rcases hl with rfl | rfl | rfl <;> assumption

/-! ### Keys -/

def overrideKeys (r : Route) (method : Method) : List String :=
  ((r.overridesLike? method.text).getD ∅).keys

/-- Captured texts have no key of their own, whichever rank they have. -/
lemma gather_sources (hc : captures.map Prod.fst = r.template.tokens) :
    gather (r.template.tokens.map Token.name) (r.sources method captures.texts).reverse =
      r.template.tokens.map Token.name ++
        (r.defaults.keys.filter fun k => k ∉ r.template.tokens.map Token.name) ++
        (r.overrideKeys method).filter fun k =>
          k ∉ r.template.tokens.map Token.name ∧ k ∉ r.defaults.keys := by
  generalize hn : r.template.tokens.map Token.name = names
  have hsub : ∀ k ∈ captures.texts.map Prod.fst, k ∈ names := by
    intro k hk
    have := (keys_texts_sublist captures).subset hk
    rwa [hc, hn] at this
  have hover : ((r.overrideKeys method).filter fun k =>
        k ∉ names ++ r.defaults.keys.filter fun k => k ∉ names) =
      (r.overrideKeys method).filter fun k => k ∉ names ∧ k ∉ r.defaults.keys := by
    refine List.filter_congr fun k _ => ?_
    by_cases h : k ∈ names <;> simp [h]
  rw [← hover]
  -- whether captured texts come before the overrides or behind them, their keys are there already
  by_cases hg : method.isGetInAnyCase = true
  · rw [sources_of_get hg, List.reverse_cons, List.reverse_cons, List.reverse_singleton]
    simp only [List.cons_append, List.nil_append]
    rw [gather_cons, gather_cons, gather_cons_of_subset]
    · rfl
    · intro k hk
      simp [hsub k hk]
  · rw [sources_of_not_get hg, List.reverse_cons, List.reverse_cons, List.reverse_singleton]
    simp only [List.cons_append, List.nil_append]
    rw [gather_cons, gather_cons_of_subset, gather_cons]
    · rfl
    · intro k hk
      simp [hsub k hk]

lemma isSome_rankedValue? (k : String) :
    (r.rankedValue? method captures.texts k).isSome = true ↔
      k ∈ captures.texts.map Prod.fst ∨ k ∈ r.overrideKeys method ∨ k ∈ r.defaults.keys := by
  rw [rankedValue?, List.isSome_findSome?]
  by_cases hg : method.isGetInAnyCase = true
  · rw [sources_of_get hg]
    simp [isSome_findIn, overrideKeys, keys]
  · rw [sources_of_not_get hg, or_left_comm]
    simp [isSome_findIn, overrideKeys, keys]

/-- The parameters are those of the sources: first the template's parameters that have a value, in
template order, then the other keys of the defaults, then the keys that only the overrides have,
and every value is that of the highest ranking source, decoded once. -/
structure Merged (r : Route) (method : Method) (captures : Captures) (params : Params) : Prop where
  nodup_keys : params.keys.Nodup
  keys : params.keys =
    ((r.template.tokens.map Token.name).filter fun k =>
      (r.rankedValue? method captures.texts k).isSome) ++
    (r.defaults.keys.filter fun k => k ∉ r.template.tokens.map Token.name) ++
    (r.overrideKeys method).filter fun k =>
      k ∉ r.template.tokens.map Token.name ∧ k ∉ r.defaults.keys
  get? : ∀ k, params.get? k = (r.rankedValue? method captures.texts k).map Percent.decode

lemma merged_merge (hr : r.Built) (htokens : captures.map Prod.fst = r.template.tokens) :
    r.Merged method captures
      (merge (r.template.tokens.map Token.name) (r.sources method captures.texts).reverse) := by
  have hnames := hr.wellFormed.nodup_names
  have hlayers : ∀ l ∈ (r.sources method (Captures.texts captures)).reverse,
      (l.map Prod.fst).Nodup :=
    fun l hl => nodup_keys_sources hr htokens l (List.mem_reverse.mp hl)
  refine ⟨nodup_keys _, ?_, fun k => ?_⟩
  · have hrank : ∀ k, (r.sources method (Captures.texts captures)).findSome? (findIn k) =
        r.rankedValue? method (Captures.texts captures) k := fun k => rfl
    rw [keys_merge hnames hlayers, gather_sources htokens, List.reverse_reverse,
      List.filter_append, List.filter_append]
    simp only [hrank]
    congr 1
    · congr 1
      refine List.filter_eq_self.mpr fun k hk => ?_
      exact (isSome_rankedValue? k).mpr (.inr (.inr (List.mem_filter.mp hk).1))
    · refine List.filter_eq_self.mpr fun k hk => ?_
      exact (isSome_rankedValue? k).mpr (.inr (.inl (List.mem_filter.mp hk).1))
  · rw [get?_merge hnames hlayers, List.reverse_reverse]
    rfl

/-- **The parameters of a match** are merged from the texts that the path gives to the template's
parameters, the overrides for the method and the defaults. A static route has no parameters in
its template. -/
theorem extract_merges_sources (hr : r.Built) (h : r.extract method path = .ok (some params)) :
    ∃ captures, r.captures? (Text.trimSlashes path.toList) = some captures ∧
      captures.map Prod.fst = r.template.tokens ∧
      (r.template.isStatic = true → r.template.tokens = []) ∧
      r.Merged method captures params := by
  obtain ⟨captures, hc, rfl⟩ := extract_eq_some hr h
  have htokens := tokens_captures hr hc
  refine ⟨captures, hc, htokens, fun hs => ?_, merged_merge hr htokens⟩
  exact hr.wellFormed.tokens_of_static (Option.isNone_iff_eq_none.mp hs)

lemma compiles_paged :
    (Template.compile "/<:shelf>(/<#page>)".toList).toOption.isSome = true := by
  decide +kernel

/-- A route with defaults and overrides that share keys with each other and with the template. -/
def paged : Route :=
  (ofTemplate "paged"
    ((Template.compile "/<:shelf>(/<#page>)".toList).toOption.get compiles_paged)).applyAll
    [.defaults [("page", "1"), ("view", "a+b")],
      .overrides "put" [("action", "%41"), ("shelf", "x")]]

lemma built_paged : paged.Built :=
  (Built.new (new_of_compile "paged" (Template.compile_eq_ok_get compiles_paged))).applyAll _

theorem extract_merges_sources_paged :
    paged.Built ∧
    paged.extract .put "/new/7/" =
      .ok (some (.ofList [("shelf", "x"), ("page", "7"), ("view", "a b"), ("action", "A")])) ∧
    ∃ captures, paged.captures? (Text.trimSlashes "/new/7/".toList) = some captures ∧
      captures.map Prod.fst = paged.template.tokens ∧
      (paged.template.isStatic = true → paged.template.tokens = []) ∧
      paged.Merged .put captures
        (.ofList [("shelf", "x"), ("page", "7"), ("view", "a b"), ("action", "A")]) := by
  have h : paged.extract .put "/new/7/" =
      .ok (some (.ofList [("shelf", "x"), ("page", "7"), ("view", "a b"), ("action", "A")])) := by
    decide +kernel
  exact ⟨built_paged, h, extract_merges_sources built_paged h⟩

end Signpost.Route
