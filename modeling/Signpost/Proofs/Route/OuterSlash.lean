import Mathlib.Data.List.Nodup
import Signpost.Proofs.Route.GeneratedMatch
import Signpost.Proofs.Route.KeptText
import Signpost.Proofs.Template.OuterText

/-!
Outer slashes of URLs. The template is trimmed once, when it is compiled; a group that is left out
later may uncover a slash at either end, and so may a backslash that is dropped. Which templates
this happens to can be read off their pieces.
-/

namespace Signpost.Route

open Text

variable {r : Route} {params : Params}

/-- What is written in the place of a token, if anything is. -/
def writtenText? (r : Route) (params : Params) (t : Token) : Option (List Char) :=
  (r.writtenValue? params t).map fun v => Percent.encodeChars v.toList

lemma rendered_eq_shown (hr : r.Built) {p : Piece} (hp : p ∈ r.template.pieces) :
    r.rendered params p = p.shown (r.writtenText? params) := by
  cases p with
  | literal s => rfl
  | required t =>
    rw [rendered, Piece.shown, writtenText?, writtenValue?_required hr hp]
    rcases hv : r.value? params t.name with _ | v
    · rw [encodedValue, hv]
      rfl
    · exact encodedValue_eq hv
  | optional g =>
    rw [rendered, Piece.shown, writtenText?, writtenValue?_optional hr hp]
    rcases hv : params.get? g.token.name with _ | v
    · rfl
    · rw [encodedValue_eq (value?_of_given hv)]
      rfl

lemma solid_encodeChars {v : String} (h : v ≠ "") : Solid (Percent.encodeChars v.toList) :=
  solid_of_not_mem (Percent.encodeChars_ne_nil (by simpa using h))
    (Percent.not_mem_encodeChars (by decide) (by decide) _)
    (Percent.not_mem_encodeChars (by decide) (by decide) _)

lemma solid_tokenText (t : Token) : Solid t.text where
  first := ⟨'<', rfl, by decide⟩
  last := ⟨'>', by simp [Token.text, firstKept], by decide⟩

lemma exists_fillAll {ts : List Token} (h : ∀ t ∈ ts, r.isOptional t = false →
    (r.value? params t.name).isSome = true) (url : List Char) :
    ∃ url', r.fillAll params url ts = .ok url' := by
  induction ts generalizing url with
  | nil => exact ⟨url, rfl⟩
  | cons t ts ih =>
    have hfill : ∃ url', r.fill params url t = .ok url' := by
      rw [fill]
      rcases hg : r.template.group? t.name with _ | g
      · have hoptional : r.isOptional t = false := by rw [isOptional, hg]; rfl
        obtain ⟨v, hv⟩ := Option.isSome_iff_exists.mp (h t List.mem_cons_self hoptional)
        exact ⟨replaceAll t.text (Percent.encode v).toList url, by rw [← value?, hv]⟩
      · exact ⟨_, rfl⟩
    obtain ⟨url₁, hurl₁⟩ := hfill
    obtain ⟨url₂, hurl₂⟩ := ih (fun u hu => h u (List.mem_cons_of_mem _ hu)) url₁
    refine ⟨url₂, ?_⟩
    rw [fillAll, hurl₁]
    exact hurl₂

/-- Without groups the values are put in the places of tokens, which have no influence on the
ends. -/
lemma sameEnds_fillAll (hgroups : r.template.groups = []) {ts : List Token}
    (hvalues : ∀ t ∈ ts, r.writtenValue? params t ≠ some "") {url url' : List Char}
    (h : r.fillAll params url ts = .ok url') : SameEnds url url' := by
  induction ts generalizing url with
  | nil =>
    cases h
    exact .refl _
  | cons t ts ih =>
    have hnone : r.template.group? t.name = none := by rw [Template.group?, hgroups]; rfl
    have hwritten : r.writtenValue? params t = r.value? params t.name := by
      rw [writtenValue?, isOptional, hnone]
      rfl
    rw [fillAll, fill, hnone, ← value?, ← hwritten] at h
    rcases hv : r.writtenValue? params t with _ | v
    · rw [hv] at h
      cases h
    · rw [hv] at h
      have hne : v ≠ "" := fun e => hvalues t List.mem_cons_self (by rw [hv, e])
      refine .trans (sameEnds_replaceAll (solid_tokenText t) ?_ url)
        (ih (fun u hu => hvalues u (List.mem_cons_of_mem _ hu)) h)
      rw [Percent.toList_encode]
      exact solid_encodeChars hne

section Dynamic

variable (hr : r.Built) (hdynamic : r.template.isStatic = false)
  (hplain : r.template.groups ≠ [] → ∀ p ∈ r.template.pieces, p.plain = true)

include hr hdynamic hplain

/-- The ends of a URL are those of what is written for the pieces. Without groups they are those of
the template, where the tokens stand for themselves. -/
lemma exists_shown_of_generate {url : String} (h : r.generate params = .ok url)
    (hvalues : ∀ t ∈ r.template.tokens, r.writtenValue? params t ≠ some "") :
    ∃ value : Token → Option (List Char),
      (∀ t ∈ r.template.tokens, ∀ v ∈ value t, Solid v) ∧
      (∀ t, .required t ∈ r.template.pieces → (value t).isSome = true) ∧
      (∀ t ∈ r.template.groups.map OptionalGroup.token,
        (value t).isSome = (params.get? t.name).isSome) ∧
      (url.toList.head? = some '/' ↔
        firstKept (r.template.pieces.flatMap (Piece.shown value)) = some '/') ∧
      (url.toList.getLast? = some '/' ↔
        firstKept (r.template.pieces.flatMap (Piece.shown value)).reverse = some '/') := by
  by_cases hgroups : r.template.groups = []
  · rw [generate, if_neg (by simp [hdynamic])] at h
    rcases hfill : r.fillAll params r.template.text r.template.tokens with e | url'
    · rw [hfill] at h
      cases h
    · rw [hfill] at h
      cases h
      have htext : r.template.pieces.flatMap (Piece.shown fun t => some t.text) =
          r.template.text := by
        rw [← hr.wellFormed.text_eq]
        exact List.flatMap_congr
          (Piece.forall_of_groups_eq_nil hgroups (fun _ => rfl) fun _ _ => rfl)
      have hends := sameEnds_fillAll hgroups hvalues hfill
      refine ⟨fun t => some t.text, ?_, fun _ _ => rfl, ?_, ?_, ?_⟩
      · rintro t - _ ⟨⟩
        exact solid_tokenText t
      · rw [hgroups]
        exact fun t ht => absurd ht List.not_mem_nil
      · rw [htext, String.toList_ofList, head?_filter_kept, hends.first]
      · rw [htext, String.toList_ofList, getLast?_filter_kept, hends.last]
  · obtain ⟨hnone, htext⟩ := (generate_eq_ok_iff hr (hplain hgroups) hdynamic).mp h
    rw [List.flatMap_congr fun p hp => rendered_eq_shown hr hp] at htext
    refine ⟨r.writtenText? params, fun t ht v hv => ?_, fun t ht => ?_, fun t ht => ?_, ?_, ?_⟩
    · obtain ⟨w, hw, rfl⟩ := Option.map_eq_some_iff.mp hv
      exact solid_encodeChars fun e => hvalues t ht (by rw [hw, e])
    · rw [writtenText?, Option.isSome_map, writtenValue?_required hr ht]
      exact findSome?_missingIn?_eq_none.mp hnone t ht
    · obtain ⟨g, hg, rfl⟩ := List.mem_map.mp ht
      rw [writtenText?, Option.isSome_map, writtenValue?_optional hr (Piece.mem_groups.mp hg)]
    · rw [htext, head?_filter_kept]
    · rw [htext, getLast?_filter_kept]

end Dynamic

/-- Short values for the parameters outside of groups, and for one of the others. -/
def leastParams (r : Route) (given : Option Token) : Params :=
  .ofList ((r.template.tokens.filter fun t => !r.isOptional t || given == some t).map
    fun t => (t.name, "x"))

lemma get?_leastParams (hr : r.Built) (given : Option Token) {t : Token}
    (ht : t ∈ r.template.tokens) : (r.leastParams given).get? t.name =
      if r.isOptional t = false ∨ given = some t then some "x" else none := by
  have hnodup : (((r.template.tokens.filter fun t => !r.isOptional t || given == some t).map
      fun t => (t.name, "x")).map Prod.fst).Nodup := by
    rw [List.map_map]
    exact hr.wellFormed.nodup_names.sublist (List.filter_sublist.map Token.name)
  rw [leastParams, OrderedMap.get?_ofList hnodup]
  split
  · rename_i h
    refine OrderedMap.findIn_of_mem hnodup (List.mem_map.mpr ⟨t, ?_, rfl⟩)
    rw [List.mem_filter, Bool.or_eq_true, Bool.not_eq_true', beq_iff_eq]
    exact ⟨ht, h⟩
  · rename_i h
    refine OrderedMap.findIn_eq_none fun hm => h ?_
    obtain ⟨u, hu, he⟩ := List.mem_map.mp (List.map_map ▸ hm)
    rw [List.mem_filter, Bool.or_eq_true, Bool.not_eq_true', beq_iff_eq] at hu
    have hsame : u = t := List.inj_on_of_nodup_map hr.wellFormed.nodup_names hu.1 ht he
    rw [← hsame]
    exact hu.2

/-- With these values a URL is made, and of the groups just the one is written out. -/
lemma exists_generate_leastParams (hr : r.Built) (hdynamic : r.template.isStatic = false)
    (given : Option Token) : ∃ url, r.generate (r.leastParams given) = .ok url ∧
      (∀ t ∈ r.template.tokens, r.writtenValue? (r.leastParams given) t ≠ some "") ∧
      ∀ t ∈ r.template.groups.map OptionalGroup.token,
        ((r.leastParams given).get? t.name).isSome = true ↔ given = some t := by
  have hrequired : ∀ t ∈ r.template.tokens, r.isOptional t = false →
      r.value? (r.leastParams given) t.name = some "x" := fun t ht hoptional =>
    value?_of_given (by rw [get?_leastParams hr given ht, if_pos (.inl hoptional)])
  have hsome : ∀ t ∈ r.template.tokens, r.isOptional t = false →
      (r.value? (r.leastParams given) t.name).isSome = true := fun t ht hoptional => by
    rw [hrequired t ht hoptional]
    rfl
  obtain ⟨url, hurl⟩ := exists_fillAll hsome r.template.text
  refine ⟨String.ofList (url.filter (· != '\\')), ?_, fun t ht => ?_, fun t ht => ?_⟩
  · rw [generate, if_neg (by simp [hdynamic]), hurl]
    rfl
  · rw [writtenValue?]
    split
    · rw [get?_leastParams hr given ht]
      split <;> simp
    · rename_i hoptional
      rw [hrequired t ht (Bool.eq_false_iff.mpr hoptional)]
      decide
  · obtain ⟨g, hg, rfl⟩ := List.mem_map.mp ht
    have hmem := Piece.mem_groups.mp hg
    rw [get?_leastParams hr given (List.mem_filterMap.mpr ⟨_, hmem, rfl⟩),
      hr.isOptional_optional hmem]
    split
    · rename_i h
      simpa using h
    · rename_i h
      simpa using h

example : (new "docs" "/(<:lang>/)docs/<:page>(/<#line>)").map
    (fun r => (r.template.tokens.map Token.name, r.generate (r.leastParams none),
      r.template.groups.map fun g => r.generate (r.leastParams (some g.token)))) =
    .ok (["lang", "page", "line"], .ok "docs/x", [.ok "x/docs/x", .ok "docs/x/x"]) := by
  decide +kernel

/-- **Outer slashes of URLs.** No URL that a route makes with values that are not empty begins or
ends with a slash, whichever groups are left out, exactly if the template has no parameter or its
pieces cannot be written so that they begin or end with a slash. -/
theorem no_outer_slash_iff (hr : r.Built)
    (hplain : r.template.groups ≠ [] → ∀ p ∈ r.template.pieces, p.plain = true) :
    (∀ params url, r.generate params = .ok url →
      (∀ t ∈ r.template.tokens, r.writtenValue? params t ≠ some "") →
      url.toList.head? ≠ some '/' ∧ url.toList.getLast? ≠ some '/' ∧
        trimSlashes url.toList = url.toList) ↔
    r.template.isStatic = true ∨
      Piece.mayLead r.template.pieces = false ∧ Piece.mayTrail r.template.pieces = false := by
  have hnodup : r.template.tokens.Nodup := hr.wellFormed.nodup_names.of_map
  constructor
  · intro hclaim
    rcases hstatic : r.template.isStatic with _ | _
    · refine .inr ⟨?_, ?_⟩
      · by_contra hlead
        rw [Bool.not_eq_false] at hlead
        -- the template itself says which optional parameter to supply so that a slash comes first
        obtain ⟨given, -, hall⟩ := Piece.exists_shown_of_mayLead hnodup hlead
        obtain ⟨url, hurl, hvalues, hgiven⟩ := exists_generate_leastParams hr hstatic given
        obtain ⟨value, -, -, hvalue, hfirst, -⟩ :=
          exists_shown_of_generate hr hstatic hplain hurl hvalues
        refine (hclaim _ url hurl hvalues).1 (hfirst.mpr (hall value fun t ht => ?_))
        rw [hvalue t ht, hgiven t ht]
      · by_contra htrail
        rw [Bool.not_eq_false] at htrail
        obtain ⟨given, -, hall⟩ := Piece.exists_shown_of_mayTrail hnodup htrail
        obtain ⟨url, hurl, hvalues, hgiven⟩ := exists_generate_leastParams hr hstatic given
        obtain ⟨value, -, -, hvalue, -, hlast⟩ :=
          exists_shown_of_generate hr hstatic hplain hurl hvalues
        refine (hclaim _ url hurl hvalues).2.1 (hlast.mpr (hall value fun t ht => ?_))
        rw [hvalue t ht, hgiven t ht]
    · exact .inl rfl
  · intro hends params url hurl hvalues
    suffices h : url.toList.head? ≠ some '/' ∧ url.toList.getLast? ≠ some '/' from
      ⟨h.1, h.2, trimSlashes_eq_self h.1 (by rw [List.head?_reverse]; exact h.2)⟩
    rcases hstatic : r.template.isStatic with _ | _
    · obtain ⟨hlead, htrail⟩ := hends.resolve_left (by simp [hstatic])
      obtain ⟨value, hsolid, hrequired, -, hfirst, hlast⟩ :=
        exists_shown_of_generate hr hstatic hplain hurl hvalues
      refine ⟨fun h => ?_, fun h => ?_⟩
      · have := Piece.mayLead_of_shown hsolid hrequired (hfirst.mp h)
        rw [hlead] at this
        cases this
      · have := Piece.mayTrail_of_shown hsolid hrequired (hlast.mp h)
        rw [htrail] at this
        cases this
    · rw [generate, if_pos hstatic] at hurl
      cases hurl
      obtain ⟨s, hs⟩ := hr.wellFormed.trimmed
      rw [String.toList_ofList, hs, ← List.head?_reverse]
      exact ⟨head?_trimSlashes s, head?_reverse_trimSlashes s⟩

/-- Groups at both ends, with their slashes inside. -/
theorem no_outer_slash_docs :
    ∃ r, new "docs" "/(<:lang>/)docs/<:page>(/<#line>)" = .ok r ∧
      (r.template.groups ≠ [] → ∀ p ∈ r.template.pieces, p.plain = true) ∧
      Piece.mayLead r.template.pieces = false ∧ Piece.mayTrail r.template.pieces = false ∧
      ∀ params url, r.generate params = .ok url →
        (∀ t ∈ r.template.tokens, r.writtenValue? params t ≠ some "") →
        url.toList.head? ≠ some '/' ∧ url.toList.getLast? ≠ some '/' ∧
          trimSlashes url.toList = url.toList := by
  have hall : (new "docs" "/(<:lang>/)docs/<:page>(/<#line>)").map (fun r =>
      (r.template.pieces.all Piece.plain, Piece.mayLead r.template.pieces,
        Piece.mayTrail r.template.pieces)) = .ok (true, false, false) := by
    decide +kernel
  obtain ⟨r, hnew, hr⟩ := exists_of_new hall
  rw [Prod.mk.injEq, Prod.mk.injEq, List.all_eq_true] at hr
  obtain ⟨hplain, hlead, htrail⟩ := hr
  exact ⟨r, hnew, fun _ => hplain, hlead, htrail,
    (no_outer_slash_iff (.new hnew) fun _ => hplain).mpr (.inr ⟨hlead, htrail⟩)⟩

/-- A group left out uncovers the slash next to it, at either end, and so does a backslash. -/
theorem outer_slash_of_left_out :
    (new "about" "/(<:lang>)/about").map (fun r => r.generate ∅) = .ok (.ok "/about") ∧
      (new "users" "/users/(<:tab>)").map (fun r => r.generate ∅) = .ok (.ok "users/") ∧
      (new "escaped" "/\\/a/<:b>").map (fun r => r.generate (.ofList [("b", "2")])) =
        .ok (.ok "/a/2") := by
  decide +kernel

end Signpost.Route
