import Signpost.Proofs.Route.Match
import Signpost.Proofs.Route.Rendered

/-!
A route matches the URLs that it makes. The text written for the pieces can be cut along the pieces
again, a group that was left out being left out of the cut; the expression may cut the URL in
another way, but wherever there is a cut it finds one.
-/

namespace Signpost

namespace Route

variable {r : Route} {params : Params}

/-- The value that is written for a parameter, if one is: a parameter in a group has no default. -/
def writtenValue? (r : Route) (params : Params) (t : Token) : Option String :=
  if r.isOptional t then params.get? t.name else r.value? params t.name

lemma writtenValue?_required (hr : r.Built) {t : Token} (h : .required t ∈ r.template.pieces) :
    r.writtenValue? params t = r.value? params t.name := by
  rw [writtenValue?, hr.isOptional_required h, if_neg Bool.false_ne_true]

lemma writtenValue?_optional (hr : r.Built) {g : OptionalGroup}
    (h : .optional g ∈ r.template.pieces) :
    r.writtenValue? params g.token = params.get? g.token.name := by
  rw [writtenValue?, hr.isOptional_optional h, if_pos rfl]

lemma fits_rendered (hr : r.Built)
    (hvalues : ∀ t ∈ r.template.tokens, ∀ v, r.writtenValue? params t = some v →
      t.marker.Admits (Percent.encode v).toList) {ps : List Piece} (hps : ps ⊆ r.template.pieces)
    (hnone : ps.findSome? (r.missingIn? params) = none) :
    Piece.Fits ps (ps.flatMap (r.rendered params)) := by
  induction ps with
  | nil => exact ⟨_, .nil⟩
  | cons p ps ih =>
    obtain ⟨hmem, hrest⟩ := List.cons_subset.mp hps
    rw [List.findSome?_eq_none_iff, List.forall_mem_cons, ← List.findSome?_eq_none_iff] at hnone
    obtain ⟨vs, hcuts⟩ := ih hrest hnone.2
    have hadmits : ∀ t, p.token? = some t → ∀ v, r.writtenValue? params t = some v →
        t.marker.Admits (Percent.encodeChars v.toList) := fun t ht v hv =>
      Percent.toList_encode v ▸ hvalues t (List.mem_filterMap.mpr ⟨p, hmem, ht⟩) v hv
    rw [List.flatMap_cons]
    cases p with
    | literal s => exact ⟨_, .literal s hcuts⟩
    | required t =>
      rcases hv : r.value? params t.name with _ | v
      · simp [missingIn?, hv] at hnone
      · have hv' := hadmits t rfl v (by rw [writtenValue?_required hr hmem, hv])
        rw [← encodedValue_eq hv] at hv'
        exact ⟨_, .required hv' hcuts⟩
    | optional g =>
      rw [rendered]
      rcases hv : params.get? g.token.name with _ | v
      · exact ⟨_, .absent hcuts⟩
      · have hv' := hadmits g.token rfl v (by rw [writtenValue?_optional hr hmem, hv])
        rw [← encodedValue_eq (value?_of_given hv)] at hv'
        have hpresent := Piece.Cuts.present hv' hcuts
        simp only [← List.append_assoc] at hpresent
        exact ⟨_, hpresent⟩

/-- **A route matches its own URLs**, whichever of its groups are written out and whatever text
stands between the parameters, if each value in encoded form is one that its parameter can take and
the URL has no outer slash. -/
theorem matches_generated (hr : r.Built) (hdynamic : r.template.isStatic = false)
    (hplain : ∀ t ∈ r.template.tokens, '|' ∉ t.body) (hbackslash : '\\' ∉ r.template.text)
    (hbrackets : r.template.text.count '<' = r.template.tokens.length)
    (hvalues : ∀ t ∈ r.template.tokens, ∀ v, r.writtenValue? params t = some v →
      t.marker.Admits (Percent.encode v).toList) {url : String}
    (hurl : r.generate params = .ok url) (hfirst : url.toList.head? ≠ some '/')
    (hlast : url.toList.getLast? ≠ some '/') :
    r.isMatch url = true ∧ ∀ method, ∃ out, r.extract method url = .ok (some out) := by
  have hk : ∀ t ∈ r.template.tokens, t.kind = t.marker.kind := fun t ht =>
    Token.kind_of_not_mem (hplain t ht)
  obtain ⟨hnone, htext⟩ := of_generate_eq_ok hr hbrackets hdynamic hurl
  rw [filter_rendered hr hbackslash] at htext
  have htrim : Text.trimSlashes url.toList = url.toList :=
    Text.trimSlashes_eq_self hfirst (by rwa [List.head?_reverse])
  obtain ⟨vs, hcuts⟩ := fits_rendered hr hvalues (List.Subset.refl _) hnone
  rw [← htext, ← htrim] at hcuts
  obtain ⟨vs', hfit⟩ := Option.isSome_iff_exists.mp (Piece.isSome_fit? hcuts)
  have hgreedy := Piece.fit?_eq_some_iff.mp hfit
  have hextract := extract_of_greedyCut hr hk hgreedy
  refine ⟨?_, fun method => ?_⟩
  · rw [isMatch_eq, (hextract .get).1]
    rfl
  · obtain ⟨-, out, hout, -⟩ := hextract method
    exact ⟨out, hout⟩

lemma compiles_catalog :
    (Template.compile "/<:lang>(/<:region>)/items(.<:format>)".toList).toOption.isSome = true := by
  decide +kernel

/-- A route with two groups, one of them with a default. -/
def catalog : Route :=
  (ofTemplate "catalog"
    ((Template.compile "/<:lang>(/<:region>)/items(.<:format>)".toList).toOption.get
      compiles_catalog)).applyAll [.defaults [("region", "TW")]]

theorem matches_generated_catalog :
    let params : Params := .ofList [("format", "json"), ("lang", "zh Hant")]
    let url := "zh%20Hant/items.json"
    catalog.Built ∧ catalog.template.isStatic = false ∧
      (∀ t ∈ catalog.template.tokens, '|' ∉ t.body) ∧ '\\' ∉ catalog.template.text ∧
      catalog.template.text.count '<' = catalog.template.tokens.length ∧
      (∀ t ∈ catalog.template.tokens, ∀ v, catalog.writtenValue? params t = some v →
        t.marker.Admits (Percent.encode v).toList) ∧
      catalog.generate params = .ok url ∧ url.toList.head? ≠ some '/' ∧
      url.toList.getLast? ≠ some '/' ∧
      catalog.isMatch url = true ∧ ∀ method, ∃ out, catalog.extract method url = .ok (some out) := by
  intro params url
  have hbuilt : catalog.Built :=
    (Built.new (new_of_compile "catalog" (Template.compile_eq_ok_get compiles_catalog))).applyAll _
  have hall : catalog.template.isStatic = false ∧
      (∀ t ∈ catalog.template.tokens, '|' ∉ t.body) ∧ '\\' ∉ catalog.template.text ∧
      catalog.template.text.count '<' = catalog.template.tokens.length := by
    decide +kernel
  obtain ⟨hdynamic, hplain, hbackslash, hbrackets⟩ := hall
  have hcheck : ∀ t ∈ catalog.template.tokens, ((catalog.writtenValue? params t).all fun v =>
      (Percent.encode v).toList != [] && (Percent.encode v).toList.all t.marker.admitsChar) =
        true := by
    decide +kernel
  have hvalues : ∀ t ∈ catalog.template.tokens, ∀ v, catalog.writtenValue? params t = some v →
      t.marker.Admits (Percent.encode v).toList := fun t ht v hv => by
    have hc := (Option.all_eq_true _ _).mp (hcheck t ht) v hv
    rw [Bool.and_eq_true, bne_iff_ne, List.all_eq_true] at hc
    exact ⟨fun _ => hc.1, hc.2⟩
  have hurl : catalog.generate params = .ok url := by
    rw [generate, if_neg (by simp [hdynamic])]
    decide +kernel
  have hfirst : url.toList.head? ≠ some '/' := by decide
  have hlast : url.toList.getLast? ≠ some '/' := by decide
  exact ⟨hbuilt, hdynamic, hplain, hbackslash, hbrackets, hvalues, hurl, hfirst, hlast,
    matches_generated hbuilt hdynamic hplain hbackslash hbrackets hvalues hurl hfirst hlast⟩

end Route

end Signpost
