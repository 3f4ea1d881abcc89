import Signpost.Proofs.Route.Built

/-!
What a compiled template is composed of. The pieces one after the other make up its text; each of
them adds its part to the expression, its parameter to the list of parameters and its group to the
list of groups, and nothing else is in any of these.
-/

namespace Signpost

/-- The expressions of the four kinds of parameters. -/
inductive ParamKind.Written : ParamKind → List Char → Prop
  | generic : Written .generic "[a-zA-Z0-9_\\-+%\\s]+".toList
  | numeric : Written .numeric "[0-9]+".toList
  | wildcard : Written .wildcard ".*".toList
  | inline (pattern : List Char) : Written (.inline pattern) pattern

lemma ParamKind.written_pattern (k : ParamKind) : k.Written k.pattern := by
  cases k <;> constructor

/-- The group of an expression that captures parameter number `i`. -/
def capturing (i : Nat) (pattern : List Char) : List Char :=
  "(?P<p".toList ++ Nat.toDigits 10 i ++ '>' :: (pattern ++ [')'])

/-- What pieces are composed to, where the parameters are counted from `i`: a text, the part of an
expression, the parameters, each with its name, the text of its token and its kind, and the optional
groups, each with the name of its parameter, its whole text and the texts around the token. -/
inductive Composed : Nat → List Piece → List Char → List Char →
    List (String × List Char × ParamKind) → List (String × List Char × List Char × List Char) → Prop
  | nil (i : Nat) : Composed i [] [] [] [] []
  | literal {i ps text source params groups} (s : List Char)
    (h : Composed i ps text source params groups) :
    Composed i (.literal s :: ps) (s ++ text) (escapeText s ++ source) params groups
  | required {i ps text source params groups} (t : Token) {pattern : List Char}
    (hpattern : t.kind.Written pattern) (h : Composed (i + 1) ps text source params groups) :
    Composed i (.required t :: ps) (t.text ++ text) (capturing i pattern ++ source)
      ((t.name, t.text, t.kind) :: params) groups
  | optional {i ps text source params groups} (before : List Char) (t : Token) (after : List Char)
    {pattern : List Char} (hpattern : t.kind.Written pattern)
    (h : Composed (i + 1) ps text source params groups) :
    Composed i (.optional ⟨before, t, after⟩ :: ps)
      ('(' :: (before ++ t.text ++ after ++ [')']) ++ text)
      ("(?:".toList ++ escapeText before ++ capturing i pattern ++ escapeText after ++
        ")?".toList ++ source)
      ((t.name, t.text, t.kind) :: params)
      ((t.name, '(' :: (before ++ t.text ++ after ++ [')']), before, after) :: groups)

lemma Token.patternSource_eq (i : Nat) (t : Token) :
    t.patternSource i = capturing i t.kind.pattern := by
  have hname : (groupName i).toList = 'p' :: Nat.toDigits 10 i := String.toList_ofList
  rw [Piece.patternSource_token, hname, List.append_assoc "(?P<".toList]
  rfl

/-- Pieces are composed as the template says: one piece after the other, with the number of the next
parameter passed on. -/
lemma Piece.composed (i : Nat) (ps : List Piece) :
    Composed i ps (ps.flatMap text) (patternSources i ps)
      ((tokens ps).map fun t => (t.name, t.text, t.kind))
      ((groups ps).map fun g => (g.token.name, g.text, g.before, g.after)) := by
  induction ps generalizing i with
  | nil => exact .nil i
  | cons p ps ih =>
    cases p with
    | literal s => exact .literal s (ih i)
    | required t =>
      have := Composed.required t t.kind.written_pattern (ih (i + 1))
      rwa [← Token.patternSource_eq] at this
    | optional g =>
      have := Composed.optional g.before g.token g.after g.token.kind.written_pattern (ih (i + 1))
      rwa [← Token.patternSource_eq] at this

namespace Template

lemma source_of_ofSource {s : List Char} {r : Regex} (h : Regex.ofSource s = .ok r) :
    r.source = s := by
  unfold Regex.ofSource at h
  split at h
  · cases h
  · cases h
    rfl

lemma token?_of_mem {t : Template} (h : t.WellFormed) {k : Token} (hk : k ∈ t.tokens) :
    t.token? k.name = some k :=
  find?_key_of_mem h.nodup_names hk

end Template

namespace Route

/-- **Nothing is lost and nothing is added** when a template is compiled. The pieces are those that
are found when the text is gone through, first for groups and then for tokens between them. The
whole text, the whole expression, all parameters and all groups are composed of these pieces; the
parameters have names of their own, which lead to their kinds, and a route is static exactly if it
has none. -/
theorem composed_of_new {name template : String} {r : Route} (h : new name template = .ok r) :
    r.template.text = Text.trimSlashes template.toList ∧
      (r.template.isStatic = true ↔ r.template.tokens = []) ∧
      (r.template.isStatic = false → ∃ source,
        r.template.regex.map Regex.source = some ('^' :: (source ++ ['$'])) ∧
        Composed 0 (Piece.ofTemplate (Text.trimSlashes template.toList)) r.template.text source
          (r.template.tokens.map fun t => (t.name, t.text, t.kind))
          (r.template.groups.map fun g => (g.token.name, g.text, g.before, g.after)) ∧
        (r.template.tokens.map Token.name).Nodup ∧
        ∀ t ∈ r.template.tokens, t.name ≠ "" ∧
          (r.template.token? t.name).map Token.kind = some t.kind) := by
  have hcompile := (template_of_new h).1
  obtain ⟨hwell, htext⟩ := Template.wellFormed_of_compile hcompile
  refine ⟨htext, ?_, fun hdynamic => ?_⟩
  · rw [Template.isStatic, Option.isNone_iff_eq_none]
    refine ⟨hwell.tokens_of_static, fun hnone => ?_⟩
    rcases hr : r.template.regex with _ | regex
    · rfl
    · exact absurd hnone (hwell.regex_of_dynamic regex hr).1
  · rw [Template.isStatic, Option.isNone_eq_false_iff, Option.isSome_iff_exists] at hdynamic
    obtain ⟨regex, hr⟩ := hdynamic
    have hsource := Template.source_of_ofSource (hwell.regex_of_dynamic regex hr).2
    refine ⟨Piece.patternSources 0 r.template.pieces, ?_, ?_, hwell.nodup_names,
      fun t ht => ⟨Template.names_ne_empty_of_compile hcompile t ht, ?_⟩⟩
    · rw [hr, Option.map_some, hsource, Template.patternOf]
    · have hpieces : Piece.ofTemplate (Text.trimSlashes template.toList) = r.template.pieces := by
        rw [hwell.pieces, htext]
      have hcomposed := Piece.composed 0 r.template.pieces
      rw [hwell.text_eq] at hcomposed
      rwa [hpieces]
    · rw [Template.token?_of_mem hwell ht, Option.map_some]

/-- A route with a parameter of each kind, one of them in a group. -/
theorem composed_of_new_tickets :
    let template := "/a.b/<:owner>/<:project|[a-z]+>(-<#number>;)/<*rest>"
    ∃ r, new "tickets" template = .ok r ∧ r.template.text = Text.trimSlashes template.toList ∧
      r.template.isStatic = false ∧
      r.template.tokens.map (fun t => (t.name, t.kind)) = [("owner", .generic),
        ("project", .inline "[a-z]+".toList), ("number", .numeric), ("rest", .wildcard)] ∧
      r.template.groups.map (fun g => (g.token.name, g.text, g.before, g.after)) =
        [("number", "(-<#number>;)".toList, ['-'], [';'])] ∧
      r.template.regex.map Regex.source = some ("^a\\.b/(?P<p0>[a-zA-Z0-9_\\-+%\\s]+)/".toList ++
        "(?P<p1>[a-z]+)(?:\\-(?P<p2>[0-9]+);)?/(?P<p3>.*)$".toList) ∧
      ∃ source,
        r.template.regex.map Regex.source = some ('^' :: (source ++ ['$'])) ∧
        Composed 0 (Piece.ofTemplate (Text.trimSlashes template.toList)) r.template.text source
          (r.template.tokens.map fun t => (t.name, t.text, t.kind))
          (r.template.groups.map fun g => (g.token.name, g.text, g.before, g.after)) ∧
        (r.template.tokens.map Token.name).Nodup ∧
        ∀ t ∈ r.template.tokens, t.name ≠ "" ∧
          (r.template.token? t.name).map Token.kind = some t.kind := by
  intro template
  have hparams : (new "tickets" template).map (fun r =>
      (r.template.isStatic, r.template.tokens.map fun t => (t.name, t.kind))) =
      .ok (false, [("owner", .generic), ("project", .inline "[a-z]+".toList), ("number", .numeric),
        ("rest", .wildcard)]) := by
    decide +kernel
  have hparts : (new "tickets" template).map (fun r =>
      (r.template.groups, r.template.regex.map Regex.source)) =
      .ok ([⟨['-'], ⟨.numeric, "number".toList⟩, [';']⟩],
        some ("^a\\.b/(?P<p0>[a-zA-Z0-9_\\-+%\\s]+)/".toList ++
          "(?P<p1>[a-z]+)(?:\\-(?P<p2>[0-9]+);)?/(?P<p3>.*)$".toList)) := by
    decide +kernel
  obtain ⟨r, hnew, hr⟩ := exists_of_new hparams
  obtain ⟨hstatic, htokens⟩ := Prod.mk.inj hr
  rw [hnew] at hparts
  obtain ⟨hgroups, hregex⟩ := Prod.mk.inj (Except.ok.inj hparts)
  have hgroup : r.template.groups.map (fun g => (g.token.name, g.text, g.before, g.after)) =
      [("number", "(-<#number>;)".toList, ['-'], [';'])] := by
    rw [hgroups]
    rfl
  obtain ⟨htext, -, hcomposed⟩ := composed_of_new hnew
  exact ⟨r, hnew, htext, hstatic, htokens, hgroup, hregex, hcomposed hstatic⟩

end Route

end Signpost
