import Signpost.Proofs.Route.Merge
import Signpost.Proofs.Template.Captured

/-!
Which paths a route matches. Unless a parameter has a pattern of its own, a path matches just where
it can be cut along the pieces of the template, and the texts of the parameters are those of the
greedy cut.
-/

namespace Signpost

lemma Token.kind_of_not_mem {t : Token} (h : '|' ∉ t.body) : t.kind = t.marker.kind := by
  rw [kind, Text.cutAt?_eq_none h]

namespace Piece

lemma mem_of_zip_none {takes : Token → List Char → Prop} {ps : List Piece} {vs : Cut}
    {s : List Char} (h : Placed takes ps vs s) {t : Token}
    (ht : (t, none) ∈ (tokens ps).zip vs) : ∃ g, optional g ∈ ps ∧ g.token = t := by
  induction h with
  | nil => cases ht
  | literal u _ ih =>
    obtain ⟨g, hg, rfl⟩ := ih ht
    exact ⟨g, List.mem_cons_of_mem _ hg, rfl⟩
  | required hv _ ih =>
    rw [tokens_required_cons, List.zip_cons_cons, List.mem_cons] at ht
    rcases ht with e | ht
    · cases e
    · obtain ⟨g, hg, rfl⟩ := ih ht
      exact ⟨g, List.mem_cons_of_mem _ hg, rfl⟩
  | present hv _ ih =>
    rw [tokens_optional_cons, List.zip_cons_cons, List.mem_cons] at ht
    rcases ht with e | ht
    · cases e
    · obtain ⟨g, hg, rfl⟩ := ih ht
      exact ⟨g, List.mem_cons_of_mem _ hg, rfl⟩
  | @absent ps vs s g _ ih =>
    rw [tokens_optional_cons, List.zip_cons_cons, List.mem_cons] at ht
    rcases ht with e | ht
    · cases e
      exact ⟨g, List.mem_cons_self, rfl⟩
    · obtain ⟨g', hg, rfl⟩ := ih ht
      exact ⟨g', List.mem_cons_of_mem _ hg, rfl⟩

lemma Placed.length_eq {takes : Token → List Char → Prop} {ps : List Piece} {vs : Cut}
    {s : List Char} (h : Placed takes ps vs s) : vs.length = (tokens ps).length := by
  induction h with
  | nil => rfl
  | literal t _ ih => exact ih
  | required _ _ ih => exact congrArg (· + 1) ih
  | present _ _ ih => exact congrArg (· + 1) ih
  | absent _ ih => exact congrArg (· + 1) ih

lemma fit?_ofLiteral (text s : List Char) :
    fit? (ofLiteral text) s = if text = s then some [] else none := by
  unfold ofLiteral
  split
  · rename_i h
    rw [fit?, h]
    exact if_congr eq_comm rfl rfl
  · rcases h : s.dropPrefix? text with _ | r
    · have hne : text ≠ s := by
        rintro rfl
        have := dropPrefix?_append text []
        rw [List.append_nil, h] at this
        cases this
      simp [fit?, h, hne]
    · have hs := dropPrefix?_eq_some.mp h
      rw [fit?, h, Option.bind_some, fit?, hs]
      simp

end Piece

namespace Route

/-- The texts of a cut under the parameters' tokens. -/
def capturesOf (ts : List Token) (vs : Piece.Cut) : Captures :=
  ts.zip (vs.map (Option.map String.ofList))

variable {r : Route}

lemma regex_eq (hr : r.Built) (hk : ∀ t ∈ r.template.tokens, t.kind = t.marker.kind) {regex : Regex}
    (h : r.template.regex = some regex) : regex.expr = Template.exprOf r.template.pieces :=
  Template.read_patternOf hk (Regex.read_of_ofSource (hr.wellFormed.regex_of_dynamic regex h).2)

lemma captures?_eq (hr : r.Built) (hk : ∀ t ∈ r.template.tokens, t.kind = t.marker.kind)
    (s : List Char) :
    r.captures? s = (Piece.fit? r.template.pieces s).map (capturesOf r.template.tokens) := by
  unfold captures?
  split
  · rename_i regex h
    rw [Regex.find?, regex_eq hr hk h, Piece.find?_exprOf, Option.map_map, Option.map_map]
    rcases hf : Piece.fit? r.template.pieces s with _ | vs
    · rfl
    · have hcuts := (Piece.fit?_eq_some_iff.mp hf).cuts
      have hzip := Piece.zip_recorded (n := s.length) (u := []) hcuts.placed Piece.fresh_nil
      simp only [Option.map_some, capturesOf, Template.tokens]
      rw [List.zip_map_right, ← hzip, List.map_map]
      rfl
  · rename_i h
    rw [hr.wellFormed.pieces, Piece.ofTemplate_of_tokens_eq_nil, Piece.fit?_ofLiteral]
    · split
      · rw [hr.wellFormed.tokens_of_static h]
        rfl
      · rfl
    · rw [← hr.wellFormed.pieces]
      exact hr.wellFormed.tokens_of_static h

lemma isMatch_eq (path : String) :
    r.isMatch path = (r.captures? (Text.trimSlashes path.toList)).isSome := by
  unfold isMatch captures?
  split
  · rename_i regex h
    simp [Regex.isMatch, Regex.find?]
  · rename_i h
    by_cases he : r.template.text = Text.trimSlashes path.toList <;> simp [he]

lemma mem_capturesOf {ts : List Token} {vs : Piece.Cut} {t : Token} {text : Option String} :
    (t, text) ∈ capturesOf ts vs ↔ ∃ v, (t, v) ∈ ts.zip vs ∧ v.map String.ofList = text := by
  rw [capturesOf, List.zip_map_right, List.mem_map]
  constructor
  · rintro ⟨⟨t', v⟩, hv, e⟩
    cases e
    exact ⟨v, hv, rfl⟩
  · rintro ⟨v, hv, rfl⟩
    exact ⟨(t, v), hv, rfl⟩

section Placed

variable {takes : Token → List Char → Prop} {vs : Piece.Cut} {s : List Char}

lemma isOptional_of_missing (h : Piece.Placed takes r.template.pieces vs s) {t : Token}
    (ht : (t, none) ∈ capturesOf r.template.tokens vs) : r.isOptional t = true := by
  obtain ⟨v, hv, hnone⟩ := mem_capturesOf.mp ht
  cases Option.map_eq_none_iff.mp hnone
  obtain ⟨g, hg, rfl⟩ := Piece.mem_of_zip_none h hv
  rw [isOptional, Template.group?, List.find?_isSome]
  exact ⟨g, Piece.mem_groups.mpr hg, beq_self_eq_true _⟩

lemma checkCaptures_capturesOf (h : Piece.Placed takes r.template.pieces vs s) :
    r.checkCaptures (capturesOf r.template.tokens vs) = .ok () := by
  unfold checkCaptures
  rw [if_neg]
  rw [Bool.not_eq_true, List.any_eq_false]
  rintro ⟨t, text⟩ hm
  rcases text with _ | text
  · simp [isOptional_of_missing h hm]
  · simp

lemma map_fst_capturesOf (h : Piece.Placed takes r.template.pieces vs s) :
    (capturesOf r.template.tokens vs).map Prod.fst = r.template.tokens := by
  refine List.map_fst_zip ?_
  rw [List.length_map, h.length_eq]
  exact Nat.le_refl _

end Placed

/-- Where there is a greedy cut, there is a match, and its texts are merged. -/
lemma extract_of_greedyCut (hr : r.Built) (hk : ∀ t ∈ r.template.tokens, t.kind = t.marker.kind)
    {vs : Piece.Cut} {path : String}
    (h : Piece.GreedyCut r.template.pieces vs (Text.trimSlashes path.toList)) (method : Method) :
    r.captures? (Text.trimSlashes path.toList) = some (capturesOf r.template.tokens vs) ∧
      ∃ params, r.extract method path = .ok (some params) ∧
        r.Merged method (capturesOf r.template.tokens vs) params := by
  have hsome : r.captures? (Text.trimSlashes path.toList) =
      some (capturesOf r.template.tokens vs) := by
    rw [captures?_eq hr hk, Piece.fit?_eq_some_iff.mpr h]
    rfl
  refine ⟨hsome, _, ?_, merged_merge hr (map_fst_capturesOf h.cuts.placed)⟩
  rw [extract_of_captures? hr hsome, checkCaptures_capturesOf h.cuts.placed]
  rfl

/-- **Matching.** A path matches a template without patterns of its own just where the path can be
cut along the template's pieces, whatever else is configured; then the texts of the parameters are
those of the greedy cut, and otherwise there is no match, but never an error. -/
theorem matches_iff_fits {name template : String} {r₀ : Route}
    (hr : Route.new name template = .ok r₀) (settings : List Setting)
    (hplain : ∀ t ∈ Piece.tokens (Piece.ofTemplate (Text.trimSlashes template.toList)),
      '|' ∉ t.body) (method : Method) (path : String) :
    let r := r₀.applyAll settings
    let pieces := Piece.ofTemplate (Text.trimSlashes template.toList)
    let s := Text.trimSlashes path.toList
    (r.isMatch path = true ↔ Piece.Fits pieces s) ∧
      (¬ Piece.Fits pieces s → r.extract method path = .ok none) ∧
      (Piece.Fits pieces s → ∃ vs params, Piece.GreedyCut pieces vs s ∧
        r.captures? s = some (capturesOf (Piece.tokens pieces) vs) ∧
        r.extract method path = .ok (some params) ∧
        r.Merged method (capturesOf (Piece.tokens pieces) vs) params) := by
  intro r pieces s
  have hbuilt : r.Built := (Built.new hr).applyAll settings
  have hcompile := Template.wellFormed_of_compile (template_of_new hr).1
  have hpieces : r.template.pieces = pieces := by
    rw [template_applyAll, hcompile.1.pieces, hcompile.2]
  have htokens : r.template.tokens = Piece.tokens pieces := by rw [Template.tokens, hpieces]
  have hk : ∀ t ∈ r.template.tokens, t.kind = t.marker.kind := fun t ht =>
    Token.kind_of_not_mem (hplain t (htokens ▸ ht))
  rw [isMatch_eq, ← htokens]
  -- the search of the compiled expression is the search for the greedy cut
  rcases hf : Piece.fit? pieces s with _ | vs
  · have hnone : r.captures? s = none := by
      rw [captures?_eq hbuilt hk, hpieces, hf]
      rfl
    have hnot := Piece.fit?_eq_none_iff.mp hf
    refine ⟨?_, fun _ => extract_of_captures?_eq_none hnone, fun hfit => absurd hfit hnot⟩
    rw [hnone]
    exact iff_of_false Bool.false_ne_true hnot
  · have hgreedy := Piece.fit?_eq_some_iff.mp hf
    have hfit : Piece.Fits pieces s := ⟨vs, hgreedy.cuts⟩
    obtain ⟨hsome, params, hextract, hmerged⟩ :=
      extract_of_greedyCut hbuilt hk (hpieces ▸ hgreedy) method
    refine ⟨?_, fun hnot => absurd hfit hnot,
      fun _ => ⟨vs, params, hgreedy, hsome, hextract, hmerged⟩⟩
    rw [hsome]
    exact iff_of_true rfl hfit

lemma compiles_archive :
    (Template.compile "/v1.0/<:name>(-<#page>)/<*rest>".toList).toOption.isSome = true := by
  decide +kernel

/-- A route whose first parameter can take what the group behind it could take. -/
def archive : Route :=
  ofTemplate "archive"
    ((Template.compile "/v1.0/<:name>(-<#page>)/<*rest>".toList).toOption.get compiles_archive)

theorem matches_iff_fits_archive :
    let pieces := Piece.ofTemplate (Text.trimSlashes "/v1.0/<:name>(-<#page>)/<*rest>".toList)
    let s := Text.trimSlashes "/v1.0/a-2-7/x/y//".toList
    Route.new "archive" "/v1.0/<:name>(-<#page>)/<*rest>" = .ok archive ∧
      (∀ t ∈ Piece.tokens pieces, '|' ∉ t.body) ∧
      ∃ vs params, Piece.GreedyCut pieces vs s ∧
        archive.captures? s = some (capturesOf (Piece.tokens pieces) vs) ∧
        archive.extract .get "/v1.0/a-2-7/x/y//" = .ok (some params) ∧
        archive.Merged .get (capturesOf (Piece.tokens pieces) vs) params := by
  intro pieces s
  have hr : Route.new "archive" "/v1.0/<:name>(-<#page>)/<*rest>" = .ok archive :=
    new_of_compile "archive" (Template.compile_eq_ok_get compiles_archive)
  have hplain : ∀ t ∈ Piece.tokens pieces, '|' ∉ t.body := by decide +kernel
  have hfit : Piece.fit? pieces s = some [some "a-2-7".toList, none, some "x/y".toList] := by
    decide +kernel
  have hfits : Piece.Fits pieces s := ⟨_, (Piece.fit?_eq_some_iff.mp hfit).cuts⟩
  exact ⟨hr, hplain, (matches_iff_fits hr [] hplain .get "/v1.0/a-2-7/x/y//").2.2 hfits⟩

end Route

end Signpost
