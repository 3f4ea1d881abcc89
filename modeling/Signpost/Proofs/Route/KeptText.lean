import Signpost.Proofs.Route.Rendered

/-!
What becomes of a template's text in a URL. A template without parameters is its own URL. Of other
templates the pieces are written one after the other, and all that is lost are backslashes; but the
values are put into the text by looking for the texts of the tokens, so this needs that nothing else
in the template can be taken for one.
-/

namespace Signpost.Route

variable {r : Route} {params : Params}

lemma flatMap_rendered_of_tokens {ps : List Piece} (h : Piece.tokens ps = []) :
    ps.flatMap (r.rendered params) = ps.flatMap Piece.text := by
  refine List.flatMap_congr fun p hp => ?_
  have ht := List.filterMap_eq_nil_iff.mp h p hp
  cases p with
  | literal s => rfl
  | required t => cases ht
  | optional g => cases ht

lemma generate_of_static (hr : r.Built) (hstatic : r.template.isStatic = true) :
    r.generate params = .ok (String.ofList (r.template.pieces.flatMap (r.rendered params))) := by
  have htokens : r.template.tokens = [] :=
    hr.wellFormed.tokens_of_static (Option.isNone_iff_eq_none.mp hstatic)
  rw [generate, if_pos hstatic, flatMap_rendered_of_tokens htokens, hr.wellFormed.text_eq]

/-- **A URL keeps the text of the template**: if a URL is made, each required parameter has a value,
and the URL is what is written for the pieces in order, less the backslashes unless the template has
no parameter. So it is all that is written for the pieces exactly if the template has no parameter
or no backslash is written. -/
theorem generate_keeps_text (hr : r.Built)
    (hplain : r.template.isStatic = false → ∀ p ∈ r.template.pieces, p.plain = true)
    {url : String} (h : r.generate params = .ok url) :
    (∀ t, .required t ∈ r.template.pieces → (r.value? params t.name).isSome = true) ∧
      url.toList = (r.template.pieces.flatMap (r.rendered params)).filter
        (fun c => r.template.isStatic || c != '\\') ∧
      (url.toList = r.template.pieces.flatMap (r.rendered params) ↔
        r.template.isStatic = true ∨ ∀ p ∈ r.template.pieces, '\\' ∉ r.rendered params p) := by
  rcases hstatic : r.template.isStatic with _ | _
  · obtain ⟨hnone, htext⟩ := (generate_eq_ok_iff hr (hplain hstatic) hstatic).mp h
    refine ⟨findSome?_missingIn?_eq_none.mp hnone, by simpa using htext, ?_⟩
    rw [htext, List.filter_eq_self]
    simp only [List.mem_flatMap, bne_iff_ne]
    constructor
    · exact fun hall => .inr fun p hp hc => hall _ ⟨p, hp, hc⟩ rfl
    · rintro (hfalse | hall) c ⟨p, hp, hc⟩ rfl
      · cases hfalse
      · exact hall p hp hc
  · have hurl : r.generate params = _ := generate_of_static hr hstatic
    rw [h] at hurl
    cases hurl
    refine ⟨fun t ht => ?_, by simp, by simp⟩
    have hmem : t ∈ r.template.tokens := List.mem_filterMap.mpr ⟨_, ht, rfl⟩
    rw [hr.wellFormed.tokens_of_static (Option.isNone_iff_eq_none.mp hstatic)] at hmem
    cases hmem

/-- A route with a `<` in the text before its parameters, and a value that reads like a token. -/
theorem generate_keeps_text_angle :
    let params : Params := .ofList [("y", "2"), ("x", "<#y>")]
    let url := "a<b/%3C%23y%3E-2;"
    ∃ r, new "angle" "/a<b/<:x>(-<#y>;)" = .ok r ∧ r.template.isStatic = false ∧
      (∀ p ∈ r.template.pieces, p.plain = true) ∧ r.generate params = .ok url ∧
      (∀ t, .required t ∈ r.template.pieces → (r.value? params t.name).isSome = true) ∧
      url.toList = (r.template.pieces.flatMap (r.rendered params)).filter
        (fun c => r.template.isStatic || c != '\\') ∧
      (url.toList = r.template.pieces.flatMap (r.rendered params) ↔
        r.template.isStatic = true ∨ ∀ p ∈ r.template.pieces, '\\' ∉ r.rendered params p) := by
  intro params url
  have hall : (new "angle" "/a<b/<:x>(-<#y>;)").map (fun r =>
      (r.template.isStatic, r.template.pieces.all Piece.plain, r.generate params)) =
        .ok (false, true, .ok url) := by
    decide +kernel
  obtain ⟨r, hnew, hr⟩ := exists_of_new hall
  rw [Prod.mk.injEq, Prod.mk.injEq, List.all_eq_true] at hr
  obtain ⟨hdynamic, hplain, hurl⟩ := hr
  exact ⟨r, hnew, hdynamic, hplain, hurl, generate_keeps_text (.new hnew) (fun _ => hplain) hurl⟩

/-- A backslash in the text is lost as soon as there is a parameter; and where a group left out
joins the texts around it to a token, this is replaced as well. On the left is the URL, on the right
what is written for the pieces. -/
theorem generate_changes_text :
    let params : Params := .ofList [("b", "2")]
    let outcome := fun r : Route =>
      (r.generate params, r.template.pieces.flatMap (r.rendered params))
    (new "windows" "/a\\c/<:b>").map outcome = .ok (.ok "ac/2", "a\\c/2".toList) ∧
      (new "joined" "/x<(/<:a>):b>/<:b>").map outcome = .ok (.ok "x2/2", "x<:b>/2".toList) := by
  decide +kernel

end Signpost.Route
