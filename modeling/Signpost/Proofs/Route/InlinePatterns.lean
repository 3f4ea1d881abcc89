import Mathlib.Data.List.Nodup
import Signpost.Proofs.Route.Match
import Signpost.Proofs.Template.Placement

/-!
Parameters with patterns of their own. As long as each pattern is a regular expression by itself and
does not make the reader skip blanks and comments, it stays in the group of its parameter: whatever
groups, alternatives, conditions, repetitions and flags it has, the captured texts written in place
of their tokens give the path, and the parameters without patterns capture what they may.
-/

namespace Signpost

open Regex

/-- A pattern that is a regular expression by itself and does not make the reader skip blanks and
comments. -/
def Regex.SelfContained (pattern : List Char) : Prop :=
  (∃ regex, Regex.ofSource pattern = .ok regex) ∧ turnsVerbose pattern = false

instance (pattern : List Char) : Decidable (Regex.SelfContained pattern) :=
  decidable_of_iff
    ((Regex.ofSource pattern).toOption.isSome = true ∧ turnsVerbose pattern = false)
    (and_congr_left fun _ => by cases Regex.ofSource pattern <;> simp [Except.toOption])

lemma Regex.SelfContained.pastes {pattern : List Char} (h : SelfContained pattern)
    (hname : '>' ∉ pattern) : Pastes pattern := by
  obtain ⟨⟨regex, hregex⟩, hverbose⟩ := h
  exact pastes_of_read (read_of_ofSource hregex) hverbose hname

namespace Token

/-- What a parameter matches. -/
def innerExpr (t : Token) : Expr :=
  match t.kind with
  | .inline pattern => ((Expr.read pattern).toOption).getD .empty
  | _ => t.marker.expr

/-- The texts that a parameter without a pattern can take; any, if it has one. -/
def Takes (t : Token) (v : List Char) : Prop :=
  (∀ pattern, t.kind ≠ .inline pattern) → t.marker.Admits v

lemma kind_cases (t : Token) :
    t.kind = t.marker.kind ∨ ∃ pattern, t.kind = .inline pattern ∧ pattern ⊆ t.body := by
  unfold kind
  rcases h : Text.cutAt? '|' t.body with _ | ⟨name, pattern⟩
  · exact .inl rfl
  · refine .inr ⟨pattern, rfl, ?_⟩
    rw [(Text.cutAt?_eq_some_iff.mp h).2]
    exact fun c hc => List.mem_append_right _ (List.mem_cons_of_mem _ hc)

lemma close_not_mem_pattern {t : Token} (hclose : '>' ∉ t.body) {pattern : List Char}
    (hk : t.kind = .inline pattern) : '>' ∉ pattern := by
  obtain hmarker | ⟨pattern', hk', hsub⟩ := t.kind_cases
  · rw [hmarker] at hk
    cases h : t.marker <;> rw [h] at hk <;> cases hk
  · rw [hk] at hk'
    cases hk'
    exact fun h => hclose (hsub h)

lemma innerExpr_spec {t : Token}
    (hpastes : ∀ pattern, t.kind = .inline pattern → Pastes pattern) :
    StandsFor t.kind.pattern t.innerExpr ∧ t.innerExpr.Nameless ∧
      t.innerExpr.MatchesOnly t.Takes := by
  obtain hk | ⟨pattern, hk, -⟩ := t.kind_cases
  · have hinner : t.innerExpr = t.marker.expr := by
      rw [innerExpr, hk]
      cases t.marker <;> rfl
    rw [hinner, hk]
    refine ⟨t.marker.standsFor, ?_, fun u v s past h _ => t.marker.matchesOnly u v s past h⟩
    cases t.marker <;> trivial
  · obtain ⟨e, hread, hstands, hnameless⟩ := hpastes pattern hk
    have hinner : t.innerExpr = e := by
      rw [innerExpr, hk]
      simp only [hread]
      rfl
    rw [hinner, hk]
    exact ⟨hstands, hnameless, fun _ _ _ _ _ hnone => absurd hk (hnone pattern)⟩

end Token

namespace Route

/-- The text that a parameter captured. -/
def Captures.text? (c : Captures) (t : Token) : Option (List Char) :=
  (OrderedMap.findIn t c).join.map String.toList

variable {r : Route}

/-- The captured texts are those of a way to put the path together of the template's pieces. -/
lemma captures?_placed_of_pastes (hr : r.Built)
    (hpastes : ∀ t ∈ r.template.tokens, ∀ pattern, t.kind = .inline pattern → Pastes pattern)
    {s : List Char} {captures : Captures} (h : r.captures? s = some captures) :
    ∃ vs, Piece.Placed Token.Takes r.template.pieces vs s ∧
      captures = capturesOf r.template.tokens vs := by
  have hinner : ∀ t ∈ r.template.tokens, StandsFor t.kind.pattern t.innerExpr ∧
      t.innerExpr.Nameless ∧ t.innerExpr.MatchesOnly t.Takes := fun t ht =>
    t.innerExpr_spec (hpastes t ht)
  unfold captures? at h
  split at h
  · rename_i regex hregex
    have hread := read_of_ofSource (hr.wellFormed.regex_of_dynamic regex hregex).2
    have hexpr := Template.read_patternOf_eq_exprWith (fun t ht => (hinner t ht).1) hread
    obtain ⟨m, hm, rfl⟩ := Option.map_eq_some_iff.mp h
    obtain ⟨c, hc, rfl⟩ := Option.map_eq_some_iff.mp hm
    rw [hexpr] at hc
    obtain ⟨vs, hvs, rfl⟩ := Piece.exists_placed_of_find? (fun t ht => (hinner t ht).2) hc
    refine ⟨vs, hvs, ?_⟩
    have hzip := Piece.zip_recorded (n := s.length) (u := []) hvs Piece.fresh_nil
    rw [capturesOf, List.zip_map_right, Template.tokens, ← hzip, List.map_map]
    rfl
  · rename_i hstatic
    split at h
    · rename_i htext
      cases h
      have htokens := hr.wellFormed.tokens_of_static hstatic
      refine ⟨[], ?_, by rw [htokens]; rfl⟩
      rw [Template.tokens, hr.wellFormed.pieces] at htokens
      rw [hr.wellFormed.pieces, Piece.ofTemplate_of_tokens_eq_nil htokens, htext]
      exact Piece.placed_ofLiteral s
    · cases h

lemma captures?_placed (hr : r.Built)
    (hvalid : ∀ t ∈ r.template.tokens, ∀ pattern, t.kind = .inline pattern → SelfContained pattern)
    {s : List Char} {captures : Captures} (h : r.captures? s = some captures) :
    ∃ vs, Piece.Placed Token.Takes r.template.pieces vs s ∧
      captures = capturesOf r.template.tokens vs :=
  captures?_placed_of_pastes hr (fun t ht pattern hk => (hvalid t ht pattern hk).pastes
    (Token.close_not_mem_pattern (hr.wellFormed.close_not_mem t ht) hk)) h

/-- **Inline patterns cannot shift captures.** With the captured texts written in place of their
tokens, and the groups of parameters that captured nothing left out, the template gives back the
path; every required parameter has captured a text, and every parameter without a pattern one that
it may capture. -/
theorem captures_fill_template (hr : r.Built)
    (hvalid : ∀ t ∈ r.template.tokens, ∀ pattern, t.kind = .inline pattern → SelfContained pattern)
    {path : String} (h : r.isMatch path = true) :
    ∃ captures, r.captures? (Text.trimSlashes path.toList) = some captures ∧
      captures.map Prod.fst = r.template.tokens ∧
      r.template.pieces.flatMap (Piece.shown captures.text?) = Text.trimSlashes path.toList ∧
      (∀ t text, (t, some text) ∈ captures → (∀ pattern, t.kind ≠ .inline pattern) →
        t.marker.Admits text.toList) ∧
      ∀ t, (t, none) ∈ captures → r.isOptional t = true := by
  rw [isMatch_eq] at h
  obtain ⟨captures, hcaptures⟩ := Option.isSome_iff_exists.mp h
  obtain ⟨vs, hvs, rfl⟩ := captures?_placed hr hvalid hcaptures
  refine ⟨_, hcaptures, map_fst_capturesOf hvs, ?_, fun t text ht hplain => ?_,
    fun t ht => isOptional_of_missing hvs ht⟩
  · refine hvs.shown_eq fun t v ht => ?_
    have hnodup : ((capturesOf r.template.tokens vs).map Prod.fst).Nodup := by
      rw [map_fst_capturesOf hvs]
      exact hr.wellFormed.nodup_names.of_map Token.name
    rw [Captures.text?, OrderedMap.findIn_of_mem hnodup (mem_capturesOf.mpr ⟨v, ht, rfl⟩)]
    rcases v with _ | v
    · rfl
    · simp
  · obtain ⟨v, hv, he⟩ := mem_capturesOf.mp ht
    obtain ⟨v, rfl, rfl⟩ := Option.map_eq_some_iff.mp he
    rw [String.toList_ofList]
    exact hvs.takes_of_mem hv hplain

lemma compiles_reports :
    (Template.compile
      "/<:kind|(?i)(post|page)s|^x>/<#id>(.<:format|(js|(?s:.))+?$>)".toList).toOption.isSome =
        true := by
  decide +kernel

/-- A route whose patterns have groups, alternatives, conditions, repetitions and flags. -/
def reports : Route :=
  ofTemplate "reports"
    ((Template.compile
      "/<:kind|(?i)(post|page)s|^x>/<#id>(.<:format|(js|(?s:.))+?$>)".toList).toOption.get
        compiles_reports)

theorem captures_fill_template_reports :
    reports.Built ∧ reports.isMatch "//Posts/7.jsx/" = true ∧
      (∀ t ∈ reports.template.tokens, ∀ pattern, t.kind = .inline pattern →
        SelfContained pattern) ∧
      ∃ captures, reports.captures? (Text.trimSlashes "//Posts/7.jsx/".toList) = some captures ∧
        captures.map Prod.fst = reports.template.tokens ∧
        reports.template.pieces.flatMap (Piece.shown captures.text?) = "Posts/7.jsx".toList ∧
        (∀ t text, (t, some text) ∈ captures → (∀ pattern, t.kind ≠ .inline pattern) →
          t.marker.Admits text.toList) ∧
        ∀ t, (t, none) ∈ captures → reports.isOptional t = true := by
  have hr : reports.Built :=
    .new (new_of_compile "reports" (Template.compile_eq_ok_get compiles_reports))
  have hmatch : reports.isMatch "//Posts/7.jsx/" = true := by decide +kernel
  have hvalid : ∀ t ∈ reports.template.tokens, ∀ pattern, t.kind = .inline pattern →
      SelfContained pattern := by
    have htokens : reports.template.tokens =
        [⟨.generic, "kind|(?i)(post|page)s|^x".toList⟩, ⟨.numeric, "id".toList⟩,
          ⟨.generic, "format|(js|(?s:.))+?$".toList⟩] := by
      decide +kernel
    rw [htokens]
    simp only [List.forall_mem_cons, List.not_mem_nil]
    refine ⟨?_, ?_, ?_, nofun⟩ <;> rintro _ ⟨⟩ <;> decide +kernel
  exact ⟨hr, hmatch, hvalid, captures_fill_template hr hvalid hmatch⟩

end Route

end Signpost
