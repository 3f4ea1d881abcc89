import Signpost.Proofs.Route.Match

/-!
What is reported of a match that lacks parameters. Patterns of their own can leave any selection of
the parameters out of a match. Matching fails exactly if a required one is left out; the number of
parameters found then falls short of the number expected by those that are missing, since each
optional group accounts for one parameter of the template.
-/

namespace Signpost

open Regex

/-- A parameter of a template: its token, its number from 0, and whether it stands outside of the
optional groups. -/
structure Parameter where
  token : Token
  number : Nat
  required : Bool

namespace Parameter

def text? (p : Parameter) (m : Match) : Option (List Char) := m.group? (groupName p.number)

variable (ps : List Parameter) (m : Match)

/-- The parameters whose groups took part in a match. -/
def foundIn : List Parameter := ps.filter fun p => (p.text? m).isSome

/-- The required parameters whose groups took no part in a match. -/
def missingIn : List Parameter := ps.filter fun p => p.required && (p.text? m).isNone

lemma missingIn_ne_nil_iff :
    missingIn ps m ≠ [] ↔ ∃ p ∈ ps, p.required = true ∧ p.text? m = none := by
  rw [Ne, missingIn, List.filter_eq_nil_iff]
  simp

/-- The required parameters and those found in groups are as many as the parameters found and the
missing ones. -/
lemma length_required_add_found :
    (ps.filter required).length + ((foundIn ps m).filter (!·.required)).length =
      (foundIn ps m).length + (missingIn ps m).length := by
  have hfound : (foundIn ps m).length =
      ((foundIn ps m).filter required).length + ((foundIn ps m).filter (!·.required)).length :=
    List.length_eq_length_filter_add _
  -- a required parameter that is not found is a missing one
  have hrequired : (ps.filter required).length =
      ((foundIn ps m).filter required).length + (missingIn ps m).length := by
    rw [List.length_eq_length_filter_add (fun p => (p.text? m).isSome), foundIn, missingIn]
    simp only [List.filter_filter, Option.not_isSome, Bool.and_comm]
  omega

end Parameter

namespace Piece

/-- The parameters of pieces in order, numbered from `i`. -/
def parameters (i : Nat) : List Piece → List Parameter
  | [] => []
  | literal _ :: ps => parameters i ps
  | required t :: ps => ⟨t, i, true⟩ :: parameters (i + 1) ps
  | optional g :: ps => ⟨g.token, i, false⟩ :: parameters (i + 1) ps

lemma map_parameters (i : Nat) (ps : List Piece) :
    (parameters i ps).map (fun p => (p.token, p.number)) = (tokens ps).zipIdx i := by
  induction ps generalizing i with
  | nil => rfl
  | cons p ps ih =>
    cases p with
    | literal s => exact ih i
    | required t => exact congrArg ((t, i) :: ·) (ih (i + 1))
    | optional g => exact congrArg ((g.token, i) :: ·) (ih (i + 1))

lemma map_token_parameters (i : Nat) (ps : List Piece) :
    (parameters i ps).map Parameter.token = tokens ps := by
  have := congrArg (List.map Prod.fst) (map_parameters i ps)
  rwa [List.map_map, List.zipIdx_map_fst] at this

lemma map_token_optional (i : Nat) (ps : List Piece) :
    ((parameters i ps).filter (!·.required)).map Parameter.token =
      (groups ps).map OptionalGroup.token := by
  induction ps generalizing i with
  | nil => rfl
  | cons p ps ih =>
    cases p with
    | literal s => exact ih i
    | required t => exact ih (i + 1)
    | optional g => exact congrArg (g.token :: ·) (ih (i + 1))

lemma mem_of_mem_parameters {i : Nat} {ps : List Piece} {p : Parameter}
    (h : p ∈ parameters i ps) :
    (p.required = true ∧ required p.token ∈ ps) ∨
      (p.required = false ∧ ∃ g, optional g ∈ ps ∧ g.token = p.token) := by
  induction ps generalizing i with
  | nil => cases h
  | cons q ps ih =>
    have later {j : Nat} (hp : p ∈ parameters j ps) :
        (p.required = true ∧ required p.token ∈ q :: ps) ∨
          (p.required = false ∧ ∃ g, optional g ∈ q :: ps ∧ g.token = p.token) := by
      obtain ⟨hreq, hmem⟩ | ⟨hreq, g, hmem, he⟩ := ih hp
      · exact .inl ⟨hreq, List.mem_cons_of_mem q hmem⟩
      · exact .inr ⟨hreq, g, List.mem_cons_of_mem q hmem, he⟩
    cases q with
    | literal s => exact later h
    | required t =>
      rcases List.mem_cons.mp h with rfl | h
      · exact .inl ⟨rfl, List.mem_cons_self⟩
      · exact later h
    | optional g =>
      rcases List.mem_cons.mp h with rfl | h
      · exact .inr ⟨rfl, g, List.mem_cons_self, rfl⟩
      · exact later h

end Piece

namespace Template

/-- The parameters of a template in order. -/
def parameters (t : Template) : List Parameter := Piece.parameters 0 t.pieces

variable (t : Template)

lemma groups_sublist_tokens : List.Sublist (t.groups.map OptionalGroup.token) t.tokens := by
  rw [tokens, groups, ← Piece.map_token_parameters 0, ← Piece.map_token_optional 0]
  exact List.filter_sublist.map _

lemma length_groups_le : t.groups.length ≤ t.tokens.length := by
  simpa using t.groups_sublist_tokens.length_le

lemma length_tokens_sub_groups :
    t.tokens.length - t.groups.length = (t.parameters.filter Parameter.required).length := by
  have htokens := congrArg List.length (Piece.map_token_parameters 0 t.pieces)
  have hgroups := congrArg List.length (Piece.map_token_optional 0 t.pieces)
  rw [List.length_map] at htokens
  rw [List.length_map, List.length_map] at hgroups
  have hsplit := List.length_eq_length_filter_add (l := t.parameters) Parameter.required
  rw [parameters] at hsplit ⊢
  rw [tokens, groups]
  omega

end Template

namespace Route

open Parameter

variable {r : Route} {ps : List Parameter} {m : Match}

lemma isOptional_of_mem_parameters (hr : r.Built) {p : Parameter}
    (h : p ∈ r.template.parameters) : r.isOptional p.token = !p.required := by
  obtain ⟨hreq, hmem⟩ | ⟨hreq, g, hmem, he⟩ := Piece.mem_of_mem_parameters h
  · rw [hr.isOptional_required hmem, hreq, Bool.not_true]
  · rw [← he, hr.isOptional_optional hmem, hreq, Bool.not_false]

/-- The texts of a match under the tokens of parameters. -/
def capturesIn (ps : List Parameter) (m : Match) : Captures :=
  ps.map fun p => (p.token, (p.text? m).map String.ofList)

lemma captures?_of_find? {regex : Regex} (hregex : r.template.regex = some regex) {s : List Char}
    (hm : regex.find? s = some m) : r.captures? s = some (capturesIn r.template.parameters m) := by
  unfold captures?
  simp only [hregex, hm, Option.map_some]
  rw [Template.tokens, ← Piece.map_parameters 0, List.map_map]
  rfl

lemma filter_capturesIn :
    (capturesIn ps m).filter (fun c => c.2.isSome) = capturesIn (foundIn ps m) m := by
  rw [capturesIn, List.filter_map, capturesIn, foundIn]
  simp only [Function.comp_def, Option.isSome_map]

lemma any_capturesIn (hoptional : ∀ p ∈ ps, r.isOptional p.token = !p.required) :
    (capturesIn ps m).any (fun c => c.2.isNone && !r.isOptional c.1) = true ↔
      missingIn ps m ≠ [] := by
  rw [missingIn_ne_nil_iff, capturesIn, List.any_map, List.any_eq_true]
  refine exists_congr fun p => and_congr_right fun hp => ?_
  simp [hoptional p hp, and_comm]

lemma length_filter_isOptional (hoptional : ∀ p ∈ ps, r.isOptional p.token = !p.required) :
    ((capturesIn ps m).filter fun c => r.isOptional c.1).length =
      (ps.filter (!·.required)).length := by
  rw [capturesIn, List.filter_map, List.length_map]
  exact congrArg List.length (List.filter_congr hoptional)

/-- The captures of a match are refused exactly if a required parameter is missing, and the refusal
counts the parameters found and, on top of these, the missing ones. -/
lemma checkCaptures_capturesIn (hr : r.Built) (m : Match) :
    r.checkCaptures (capturesIn r.template.parameters m) =
      if missingIn r.template.parameters m = [] then .ok ()
      else .error (.captureMismatch r.name (foundIn r.template.parameters m).length
        ((foundIn r.template.parameters m).length +
          (missingIn r.template.parameters m).length)) := by
  have hoptional : ∀ p ∈ r.template.parameters, r.isOptional p.token = !p.required :=
    fun p hp => isOptional_of_mem_parameters hr hp
  have hfound : ∀ p ∈ foundIn r.template.parameters m, r.isOptional p.token = !p.required :=
    fun p hp => hoptional p (List.mem_filter.mp hp).1
  unfold checkCaptures
  simp only [filter_capturesIn, r.template.length_tokens_sub_groups]
  rw [length_filter_isOptional hfound, length_required_add_found]
  by_cases hmissing : missingIn r.template.parameters m = []
  · rw [if_neg ((any_capturesIn hoptional).not.mpr (not_not_intro hmissing)), if_pos hmissing]
  · rw [if_pos ((any_capturesIn hoptional).mpr hmissing), if_neg hmissing, capturesIn,
      List.length_map]

lemma extract_of_find? (hr : r.Built) {regex : Regex} (hregex : r.template.regex = some regex)
    {path : String} (hm : regex.find? (Text.trimSlashes path.toList) = some m) (method : Method) :
    ∃ params, r.extract method path =
      if missingIn r.template.parameters m = [] then .ok (some params)
      else .error (.captureMismatch r.name (foundIn r.template.parameters m).length
        ((foundIn r.template.parameters m).length +
          (missingIn r.template.parameters m).length)) := by
  refine ⟨merge (r.template.tokens.map Token.name)
    (r.sources method (capturesIn r.template.parameters m).texts).reverse, ?_⟩
  rw [extract_of_captures? hr (captures?_of_find? hregex hm), checkCaptures_capturesIn hr m]
  by_cases hmissing : missingIn r.template.parameters m = []
  · rw [if_pos hmissing, if_pos hmissing, Except.map]
  · rw [if_neg hmissing, if_neg hmissing, Except.map]

/-- **The account of a match.** Matching fails exactly if the group of a required parameter took no
part in the match; groups left out do no harm by themselves. The failure tells how many parameters
were found, required and optional ones, and a greater number that exceeds it by just the missing
ones. That number starts from all parameters less those of the groups; each group has a parameter of
its own among them, so what is left are the required ones. -/
theorem extract_counts_missing (hr : r.Built) {regex : Regex}
    (hregex : r.template.regex = some regex) {path : String}
    (hm : regex.find? (Text.trimSlashes path.toList) = some m) (method : Method) :
    let parameters := r.template.parameters
    let found := foundIn parameters m
    let missing := missingIn parameters m
    ((∃ name matched named, r.extract method path = .error (.captureMismatch name matched named)) ↔
        ∃ p ∈ parameters, p.required = true ∧ p.text? m = none) ∧
      (∀ name matched named, r.extract method path = .error (.captureMismatch name matched named) →
        name = r.name ∧ matched < named ∧ named - matched = missing.length ∧
        matched = (found.filter (·.required)).length + (found.filter (!·.required)).length) ∧
      ((∀ p ∈ parameters, p.text? m = none → p.required = false) →
        ∃ params, r.extract method path = .ok (some params)) ∧
      (r.template.tokens.map Token.name).Nodup ∧
      List.Sublist (r.template.groups.map OptionalGroup.token) r.template.tokens ∧
      r.template.groups.length ≤ r.template.tokens.length ∧
      r.template.tokens.length - r.template.groups.length =
        (parameters.filter (·.required)).length := by
  intro parameters found missing
  obtain ⟨params, hextract⟩ : ∃ params, r.extract method path =
      if missing = [] then .ok (some params)
      else .error (.captureMismatch r.name found.length (found.length + missing.length)) :=
    extract_of_find? hr hregex hm method
  have hmissing : missing ≠ [] ↔ _ := missingIn_ne_nil_iff parameters m
  refine ⟨?_, fun name matched named he => ?_, fun hall => ?_, hr.wellFormed.nodup_names,
    r.template.groups_sublist_tokens, r.template.length_groups_le,
    r.template.length_tokens_sub_groups⟩
  · rw [← hmissing]
    constructor
    · rintro ⟨name, matched, named, he⟩ hnil
      rw [hextract, if_pos hnil] at he
      cases he
    · intro hne
      exact ⟨_, _, _, hextract.trans (if_neg hne)⟩
  · have hne : missing ≠ [] := by
      intro hnil
      rw [hextract, if_pos hnil] at he
      cases he
    rw [hextract, if_neg hne] at he
    cases he
    have hpos := List.length_pos_of_ne_nil hne
    exact ⟨rfl, by omega, by omega, List.length_eq_length_filter_add _⟩
  · have hnil : missing = [] := by
      by_contra hne
      obtain ⟨p, hp, hreq, hnone⟩ := hmissing.mp hne
      rw [hall p hp hnone] at hreq
      cases hreq
    exact ⟨params, hextract.trans (if_pos hnil)⟩

/-- A route whose expression falls apart into two alternatives, with a default for one of the
parameters. -/
def excerpts : Route :=
  (ofTemplate "excerpts"
    ((Template.compile
      "/<:author>/<:work|x)|(y>/<#page>(.<:format>)(-<:mark>)".toList).toOption.get
        (by decide +kernel))).applyAll
    [.defaults [("author", "anonymous")], .overrides "put" [("work", "all")]]

theorem extract_counts_missing_excerpts :
    let path := "/y/7-x5"
    let parameters := excerpts.template.parameters
    excerpts.Built ∧
      ∃ regex m, excerpts.template.regex = some regex ∧
        regex.find? (Text.trimSlashes path.toList) = some m ∧
        (foundIn parameters m).map (·.token.name) = ["page", "mark"] ∧
        (missingIn parameters m).map (·.token.name) = ["author", "work"] ∧
        excerpts.extract .put path = .error (.captureMismatch "excerpts" 2 4) ∧
        (∃ p ∈ parameters, p.required = true ∧ p.text? m = none) ∧
        4 - 2 = (missingIn parameters m).length ∧
        excerpts.template.groups.length ≤ excerpts.template.tokens.length := by
  intro path parameters
  have hbuilt : excerpts.Built :=
    (Built.new (new_of_compile "excerpts" (Template.compile_eq_ok_get _))).applyAll _
  have hall : (excerpts.template.regex.bind fun regex =>
      (regex.find? (Text.trimSlashes path.toList)).map fun m =>
        ((foundIn parameters m).map (·.token.name), (missingIn parameters m).map (·.token.name))) =
          some (["page", "mark"], ["author", "work"]) ∧
      excerpts.extract .put path = .error (.captureMismatch "excerpts" 2 4) := by
    decide +kernel
  obtain ⟨hnames, hextract⟩ := hall
  obtain ⟨regex, hregex, hfind⟩ := Option.bind_eq_some_iff.mp hnames
  obtain ⟨m, hm, he⟩ := Option.map_eq_some_iff.mp hfind
  rw [Prod.mk.injEq] at he
  obtain ⟨hiff, hcounts, -, -, -, hle, -⟩ := extract_counts_missing hbuilt hregex hm .put
  exact ⟨hbuilt, regex, m, hregex, hm, he.1, he.2, hextract, hiff.mp ⟨_, _, _, hextract⟩,
    (hcounts _ _ _ hextract).2.2.1, hle⟩

end Route

end Signpost
