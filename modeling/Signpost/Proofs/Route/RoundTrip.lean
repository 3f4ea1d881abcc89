import Signpost.Proofs.Route.Match
import Signpost.Proofs.Route.Rendered
import Signpost.Proofs.Template.Separated

/-!
From parameters to a URL and back. Encoded values have no slash and none of the signs that
templates are made of, so they are put in the places of their tokens one after the other, and the
slashes between the parameters leave only one way to take them out again.
-/

namespace Signpost

namespace Marker

/-- The characters that a parameter carries through a URL. -/
def carriesChar : Marker → Char → Bool
  | generic, c => c != '.' && c != '~'
  | numeric, c => '0' ≤ c && c ≤ '9'
  | wildcard, _ => true

/-- The values that a parameter carries through a URL. -/
def Carries (m : Marker) (v : String) : Prop := v ≠ "" ∧ ∀ c ∈ v.toList, m.carriesChar c = true

instance (m : Marker) (v : String) : Decidable (m.Carries v) :=
  decidable_of_iff (v ≠ "" ∧ v.toList.all m.carriesChar = true)
    (and_congr_right fun _ => List.all_eq_true)

lemma admitsChar_of_isUnreserved {c : Char} (hu : Percent.isUnreserved c = true)
    (hc : generic.carriesChar c = true) : generic.admitsChar c = true := by
  simp only [Percent.isUnreserved, Bool.or_eq_true, Bool.and_eq_true, decide_eq_true_eq,
    beq_iff_eq] at hu
  simp only [carriesChar, Bool.and_eq_true, bne_iff_ne] at hc
  simp only [admitsChar, Bool.or_eq_true, Bool.and_eq_true, decide_eq_true_eq, beq_iff_eq]
  tauto

lemma Carries.admits {m : Marker} {v : String} (h : m.Carries v) :
    m.Admits (Percent.encodeChars v.toList) := by
  obtain ⟨hv, h⟩ := h
  have hne : v.toList ≠ [] := by simpa using hv
  refine ⟨fun _ => Percent.encodeChars_ne_nil hne, fun c hc => ?_⟩
  cases m with
  | generic =>
    have hescape : generic.admitsChar '%' = true ∧
        ∀ n < 16, generic.admitsChar (Percent.hexDigit n) = true := by
      decide
    rcases Percent.mem_encodeChars hc with ⟨hm, hu⟩ | rfl | ⟨n, hn, rfl⟩
    · exact admitsChar_of_isUnreserved hu (h c hm)
    · exact hescape.1
    · exact hescape.2 n hn
  | numeric =>
    have hdigit : ∀ c ∈ v.toList, Percent.isUnreserved c = true := fun c hc => by
      have : '0' ≤ c ∧ c ≤ '9' := by simpa [carriesChar] using h c hc
      simp [Percent.isUnreserved, this]
    rw [Percent.encodeChars_eq_self hdigit] at hc
    exact h c hc
  | wildcard =>
    have hnl : '\n' ∉ Percent.encodeChars v.toList :=
      Percent.not_mem_encodeChars (by decide) (by decide) _
    have : c ≠ '\n' := fun e => hnl (e ▸ hc)
    simpa [admitsChar] using this

end Marker

/-- Templates whose parameters can be told apart in a URL: there are no groups, patterns of their
own or backslashes, each `<` begins a parameter, and slashes stand between the parameters. -/
structure Template.Invertible (t : Template) : Prop where
  dynamic : t.isStatic = false
  groups : t.groups = []
  plain : ∀ k ∈ t.tokens, '|' ∉ k.body
  backslash : '\\' ∉ t.text
  brackets : t.text.count '<' = t.tokens.length
  separated : Piece.Separated t.pieces

namespace Route

variable {r : Route} {params : Params}

/-- The template with the encoded values in the places of the tokens. -/
def filled (r : Route) (params : Params) : List Char :=
  r.template.pieces.flatMap (Piece.written (r.encodedValue params))

/-! ### Writing the values -/

lemma flatMap_rendered {ps : List Piece} (hgroups : Piece.groups ps = []) :
    ps.flatMap (r.rendered params) = ps.flatMap (Piece.written (r.encodedValue params)) :=
  List.flatMap_congr (Piece.forall_of_groups_eq_nil hgroups (fun _ => rfl) fun _ _ => rfl)

lemma missingIn?_eq_none
    (hvalues : ∀ t ∈ r.template.tokens, (r.value? params t.name).isSome = true) :
    r.template.pieces.findSome? (r.missingIn? params) = none :=
  findSome?_missingIn?_eq_none.mpr fun t ht => hvalues t (List.mem_filterMap.mpr ⟨_, ht, rfl⟩)

lemma generate_eq (hr : r.Built) (ht : r.template.Invertible)
    (hvalues : ∀ t ∈ r.template.tokens, (r.value? params t.name).isSome = true) :
    r.generate params = .ok (String.ofList (r.filled params)) := by
  rw [generate_eq_rendered hr ht.brackets ht.dynamic, missingIn?_eq_none hvalues,
    filter_rendered hr ht.backslash, flatMap_rendered ht.groups, filled]

/-! ### Taking the values out again -/

section Carried

variable (hvalues : ∀ t ∈ r.template.tokens, ∃ v, r.value? params t.name = some v ∧
  t.marker.Carries v)

include hvalues

lemma admits_encodedValue {t : Token} (hm : t ∈ r.template.tokens) :
    t.marker.Admits (r.encodedValue params t) := by
  obtain ⟨v, hv, hcarries⟩ := hvalues t hm
  rw [encodedValue, hv]
  exact hcarries.admits

lemma encodedValue_ne_nil {t : Token} (hm : t ∈ r.template.tokens) :
    r.encodedValue params t ≠ [] := by
  obtain ⟨v, hv, hne, -⟩ := hvalues t hm
  rw [encodedValue, hv]
  exact Percent.encodeChars_ne_nil (by simpa using hne)

lemma decode_encodedValue {t : Token} (hm : t ∈ r.template.tokens) :
    some (Percent.decode (String.ofList (r.encodedValue params t))) = r.value? params t.name := by
  obtain ⟨v, hv, -⟩ := hvalues t hm
  rw [encodedValue, hv]
  exact congrArg some (Percent.decode_encode v)

lemma trimSlashes_filled (hr : r.Built) (ht : r.template.Invertible) :
    Text.trimSlashes (r.filled params) = r.filled params := by
  obtain ⟨s, hs⟩ := hr.wellFormed.trimmed
  refine Piece.trimSlashes_written ht.groups (fun t hm => ?_) (s := s) ?_
  · exact ⟨encodedValue_ne_nil hvalues hm, not_mem_encodedValue (by decide) (by decide) t⟩
  · rw [← hs, hr.wellFormed.text_eq]

lemma greedyCut_filled (ht : r.template.Invertible) :
    Piece.GreedyCut r.template.pieces
      (r.template.tokens.map fun t => some (r.encodedValue params t)) (r.filled params) := by
  have hcuts : Piece.Cuts r.template.pieces
      (r.template.tokens.map fun t => some (r.encodedValue params t)) (r.filled params) :=
    Piece.cuts_written fun t hm => admits_encodedValue hvalues hm
  have htaken : '/' ∉
      Piece.taken (r.template.tokens.map fun t => some (r.encodedValue params t)) := by
    rw [Piece.taken, List.flatMap_map, List.mem_flatMap]
    rintro ⟨t, -, hslash⟩
    exact not_mem_encodedValue (by decide) (by decide) t hslash
  exact hcuts.greedyCut fun ws hws =>
    Piece.cut_eq_of_taken hws hcuts ht.groups ht.separated htaken

end Carried

lemma texts_capturesOf (ts : List Token) (value : Token → List Char) :
    Captures.texts (capturesOf ts (ts.map fun t => some (value t))) =
      ts.map fun t => (t.name, String.ofList (value t)) := by
  induction ts with
  | nil => rfl
  | cons t ts ih => exact congrArg (_ :: ·) ih

/-- Captured text counts for `GET`, and for other methods unless there is an override. -/
lemma rankedValue?_of_mem {method : Method} {captured : List (String × String)} {key text : String}
    (hc : (captured.map Prod.fst).Nodup) (hm : (key, text) ∈ captured)
    (h : method.isGetInAnyCase = true ∨ key ∉ r.overrideKeys method) :
    r.rankedValue? method captured key = some text := by
  have hfind := OrderedMap.findIn_of_mem hc hm
  by_cases hg : method.isGetInAnyCase = true
  · rw [rankedValue?, sources_of_get hg, List.findSome?_cons, hfind]
  · have hnone := OrderedMap.findIn_eq_none (h.resolve_left hg)
    rw [rankedValue?, sources_of_not_get hg, List.findSome?_cons]
    simp only [hnone, List.findSome?_cons, hfind]

/-- **Round trip.** What a URL was made from is taken out of it again: every parameter of the
template has the value that was used, whatever text it is, and the template's parameters come first
and in template order. -/
theorem extract_generate (hr : r.Built) (ht : r.template.Invertible)
    (hvalues : ∀ t ∈ r.template.tokens, ∃ v, r.value? params t.name = some v ∧
      t.marker.Carries v) :
    ∃ url, r.generate params = .ok url ∧
      ∀ method, ∃ out, r.extract method url = .ok (some out) ∧
        r.template.tokens.map Token.name <+: out.keys ∧
        ∀ t ∈ r.template.tokens,
          (method.isGetInAnyCase = true ∨ t.name ∉ r.overrideKeys method) →
            out.get? t.name = r.value? params t.name := by
  have hsome : ∀ t ∈ r.template.tokens, (r.value? params t.name).isSome = true := by
    intro t hm
    obtain ⟨v, hv, -⟩ := hvalues t hm
    rw [hv]
    rfl
  refine ⟨_, generate_eq hr ht hsome, fun method => ?_⟩
  have hk : ∀ t ∈ r.template.tokens, t.kind = t.marker.kind := fun t hm =>
    Token.kind_of_not_mem (ht.plain t hm)
  have hpath : Text.trimSlashes (String.ofList (r.filled params)).toList = r.filled params := by
    rw [String.toList_ofList, trimSlashes_filled hvalues hr ht]
  obtain ⟨-, out, hextract, hmerged⟩ :=
    extract_of_greedyCut hr hk (hpath.symm ▸ greedyCut_filled hvalues ht) method
  have htexts := texts_capturesOf r.template.tokens (r.encodedValue params)
  have hnames : (Captures.texts (capturesOf r.template.tokens
        (r.template.tokens.map fun t => some (r.encodedValue params t)))).map Prod.fst =
      r.template.tokens.map Token.name := by
    rw [htexts, List.map_map]
    rfl
  refine ⟨out, hextract, ?_, fun t hm hrank => ?_⟩
  · rw [hmerged.keys, List.append_assoc, List.filter_eq_self.mpr]
    · exact List.prefix_append _ _
    · exact fun k hk => (isSome_rankedValue? k).mpr (.inl (hnames ▸ hk))
  · have hmem : (t.name, String.ofList (r.encodedValue params t)) ∈
        Captures.texts (capturesOf r.template.tokens
          (r.template.tokens.map fun t => some (r.encodedValue params t))) :=
      htexts ▸ List.mem_map_of_mem hm
    rw [hmerged.get?, rankedValue?_of_mem (hnames ▸ hr.wellFormed.nodup_names) hmem hrank]
    exact decode_encodedValue hvalues hm

lemma compiles_files :
    (Template.compile "/files/<:owner>/v<#version>/<*path>".toList).toOption.isSome = true := by
  decide +kernel

/-- A route with a default for one parameter and an override for another. -/
def files : Route :=
  (ofTemplate "files"
    ((Template.compile "/files/<:owner>/v<#version>/<*path>".toList).toOption.get
      compiles_files)).applyAll
    [.defaults [("version", "1")], .overrides "put" [("owner", "x")]]

theorem extract_generate_files :
    let params : Params := .ofList [("path", "b/<#version>%2F"), ("owner", "Zoë + 1")]
    files.Built ∧ files.template.Invertible ∧
      (∀ t ∈ files.template.tokens, ∃ v, files.value? params t.name = some v ∧
        t.marker.Carries v) ∧
      ∃ url, files.generate params = .ok url ∧
        ∀ method, ∃ out, files.extract method url = .ok (some out) ∧
          files.template.tokens.map Token.name <+: out.keys ∧
          ∀ t ∈ files.template.tokens,
            (method.isGetInAnyCase = true ∨ t.name ∉ files.overrideKeys method) →
              out.get? t.name = files.value? params t.name := by
  intro params
  have hbuilt : files.Built :=
    (Built.new (new_of_compile "files" (Template.compile_eq_ok_get compiles_files))).applyAll _
  have hall : files.template.isStatic = false ∧ files.template.groups = [] ∧
      (∀ t ∈ files.template.tokens, '|' ∉ t.body) ∧ '\\' ∉ files.template.text ∧
      files.template.text.count '<' = files.template.tokens.length ∧
      Piece.Separated files.template.pieces := by
    decide +kernel
  obtain ⟨hdynamic, hgroups, hplain, hbackslash, hbrackets, hseparated⟩ := hall
  have hinvertible : files.template.Invertible :=
    ⟨hdynamic, hgroups, hplain, hbackslash, hbrackets, hseparated⟩
  have hcheck : ∀ t ∈ files.template.tokens, ((files.value? params t.name).any fun v =>
      v != "" && v.toList.all t.marker.carriesChar) = true := by
    decide +kernel
  have hvalues : ∀ t ∈ files.template.tokens, ∃ v, files.value? params t.name = some v ∧
      t.marker.Carries v := fun t ht => by
    obtain ⟨v, hv, hc⟩ := (Option.any_eq_true _ _).mp (hcheck t ht)
    rw [Bool.and_eq_true, bne_iff_ne, List.all_eq_true] at hc
    exact ⟨v, hv, hc⟩
  exact ⟨hbuilt, hinvertible, hvalues, extract_generate hbuilt hinvertible hvalues⟩

end Route

end Signpost
