import Signpost.Proofs.Route.Rendered

/-!
No value can change the structure of a URL. Encoded values are made of unreserved characters and
percent signs; what is left of a URL without these comes from the template alone, and each piece of
the template contributes its part whatever the values are.
-/

namespace Signpost

/-- What is left of a text without the characters that encoded values are made of. -/
def Percent.skeleton (s : List Char) : List Char :=
  s.filter fun c => !(isUnreserved c || c == '%')

lemma Percent.skeleton_append (s t : List Char) :
    skeleton (s ++ t) = skeleton s ++ skeleton t :=
  List.filter_append s t

lemma Percent.skeleton_encodeChars (s : List Char) : skeleton (encodeChars s) = [] := by
  refine List.filter_eq_nil_iff.mpr fun c hc hleft => ?_
  rw [Bool.not_eq_true', Bool.or_eq_false_iff, beq_eq_false_iff_ne] at hleft
  exact not_mem_encodeChars hleft.1 hleft.2 s hc

example : Percent.skeleton ("wiki/".toList ++ Percent.encodeChars "A/B?".toList ++ ";v=1".toList) =
    "/;=".toList := by
  decide +kernel

namespace Route

variable {r : Route} {params params' : Params}

/-- What is written for a piece of a template, less the backslashes. -/
def written (r : Route) (params : Params) (p : Piece) : List Char :=
  (r.rendered params p).filter (· != '\\')

lemma rendered_congr {p : Piece} (h : ∀ t ∈ p.token?, params.get? t.name = params'.get? t.name) :
    r.rendered params p = r.rendered params' p := by
  cases p with
  | literal s => rfl
  | required t => rw [rendered, rendered, encodedValue, encodedValue, value?, value?, h t rfl]
  | optional g =>
    rw [rendered, rendered, encodedValue, encodedValue, value?, value?, h g.token rfl]

lemma skeleton_rendered {p : Piece}
    (hgiven : ∀ g ∈ p.group?,
      (params.get? g.token.name).isSome = (params'.get? g.token.name).isSome) :
    Percent.skeleton (r.rendered params p) = Percent.skeleton (r.rendered params' p) := by
  cases p with
  | literal s => rfl
  | required t =>
    simp only [rendered, encodedValue, Percent.skeleton_encodeChars]
  | optional g =>
    rw [rendered, rendered, hgiven g rfl]
    split
    · simp only [encodedValue, Percent.skeleton_append, Percent.skeleton_encodeChars]
    · rfl

lemma skeleton_written {p : Piece}
    (h : Percent.skeleton (r.rendered params p) = Percent.skeleton (r.rendered params' p)) :
    Percent.skeleton (r.written params p) = Percent.skeleton (r.written params' p) := by
  have hcomm : ∀ s : List Char, Percent.skeleton (s.filter (· != '\\')) =
      (Percent.skeleton s).filter (· != '\\') := fun s => by
    simp only [Percent.skeleton, List.filter_filter, Bool.and_comm]
  rw [written, written, hcomm, hcomm, h]

/-- **No injection.** The URLs that a route makes of any two choices of values, where the same
groups are written out, differ in unreserved characters and percent signs only. Each is made of one
text for every piece of the template; it depends on the value of that piece alone, and its share of
the other characters does not depend even on that. -/
theorem generate_same_skeleton (hr : r.Built) (hdynamic : r.template.isStatic = false)
    (hbrackets : r.template.text.count '<' = r.template.tokens.length)
    (hgiven : ∀ g ∈ r.template.groups,
      (params.get? g.token.name).isSome = (params'.get? g.token.name).isSome)
    {url url' : String} (hurl : r.generate params = .ok url)
    (hurl' : r.generate params' = .ok url') :
    Percent.skeleton url.toList = Percent.skeleton url'.toList ∧
      url.toList = r.template.pieces.flatMap (r.written params) ∧
      url'.toList = r.template.pieces.flatMap (r.written params') ∧
      ∀ p ∈ r.template.pieces,
        Percent.skeleton (r.written params p) = Percent.skeleton (r.written params' p) ∧
        ((∀ t ∈ p.token?, params.get? t.name = params'.get? t.name) →
          r.written params p = r.written params' p) := by
  have hpieces : ∀ p ∈ r.template.pieces,
      Percent.skeleton (r.written params p) = Percent.skeleton (r.written params' p) :=
    fun p hp => skeleton_written (skeleton_rendered fun g hg =>
      hgiven g (List.mem_filterMap.mpr ⟨p, hp, hg⟩))
  have htext := (of_generate_eq_ok hr hbrackets hdynamic hurl).2
  have htext' := (of_generate_eq_ok hr hbrackets hdynamic hurl').2
  rw [List.filter_flatMap] at htext htext'
  refine ⟨?_, htext, htext', fun p hp => ⟨hpieces p hp, fun h => ?_⟩⟩
  · rw [htext, htext', Percent.skeleton, Percent.skeleton, List.filter_flatMap,
      List.filter_flatMap]
    exact List.flatMap_congr hpieces
  · rw [written, written, rendered_congr h]

lemma compiles_wiki :
    (Template.compile "/wiki/<:title|.+>(;v=<#rev>)#<:part>".toList).toOption.isSome = true := by
  decide +kernel

/-- A route with reserved characters around its parameters and a pattern that any text matches. -/
def wiki : Route :=
  ofTemplate "wiki"
    ((Template.compile "/wiki/<:title|.+>(;v=<#rev>)#<:part>".toList).toOption.get compiles_wiki)

theorem generate_same_skeleton_wiki :
    let params : Params := .ofList [("title", "A/B?<:part>"), ("rev", "1"), ("part", "top")]
    let params' : Params := .ofList [("title", "C"), ("rev", "2)#"), ("part", "(;v=<#rev>)")]
    let url := "wiki/A%2FB%3F%3C%3Apart%3E;v=1#top"
    let url' := "wiki/C;v=2%29%23#%28%3Bv%3D%3C%23rev%3E%29"
    wiki.Built ∧ wiki.template.isStatic = false ∧
      wiki.template.text.count '<' = wiki.template.tokens.length ∧
      (∀ g ∈ wiki.template.groups,
        (params.get? g.token.name).isSome = (params'.get? g.token.name).isSome) ∧
      wiki.generate params = .ok url ∧ wiki.generate params' = .ok url' ∧
      Percent.skeleton url.toList = Percent.skeleton url'.toList ∧
      url.toList = wiki.template.pieces.flatMap (wiki.written params) ∧
      url'.toList = wiki.template.pieces.flatMap (wiki.written params') ∧
      ∀ p ∈ wiki.template.pieces,
        Percent.skeleton (wiki.written params p) = Percent.skeleton (wiki.written params' p) ∧
        ((∀ t ∈ p.token?, params.get? t.name = params'.get? t.name) →
          wiki.written params p = wiki.written params' p) := by
  intro params params' url url'
  have hbuilt : wiki.Built :=
    .new (new_of_compile "wiki" (Template.compile_eq_ok_get compiles_wiki))
  have hall : wiki.template.isStatic = false ∧
      wiki.template.text.count '<' = wiki.template.tokens.length ∧
      ∀ g ∈ wiki.template.groups,
        (params.get? g.token.name).isSome = (params'.get? g.token.name).isSome := by
    decide +kernel
  obtain ⟨hdynamic, hbrackets, hgiven⟩ := hall
  have hurl : wiki.generate params = .ok url := by
    rw [generate, if_neg (by simp [hdynamic])]
    decide +kernel
  have hurl' : wiki.generate params' = .ok url' := by
    rw [generate, if_neg (by simp [hdynamic])]
    decide +kernel
  exact ⟨hbuilt, hdynamic, hbrackets, hgiven, hurl, hurl',
    generate_same_skeleton hbuilt hdynamic hbrackets hgiven hurl hurl'⟩

end Route

end Signpost
