import Mathlib.Data.List.Pairwise
import Mathlib.Tactic.Common
import Signpost.Template.Basic

/-!
What is true of every compiled template: its pieces are those of its text, its parameters have
names of their own, and unless it has no parameter its expression is that of its pieces.
-/

namespace Signpost

namespace Piece

lemma bracket_mem_text {p : Piece} {t : Token} (h : p.token? = some t) : '<' ∈ p.text := by
  cases p with
  | literal s => cases h
  | required u => simp [text, Token.text]
  | optional g => simp [text, OptionalGroup.text, Token.text]

lemma tokens_append (ps qs : List Piece) : tokens (ps ++ qs) = tokens ps ++ tokens qs :=
  List.filterMap_append

@[simp] lemma tokens_required_cons (t : Token) (ps : List Piece) :
    tokens (required t :: ps) = t :: tokens ps := rfl

@[simp] lemma tokens_optional_cons (g : OptionalGroup) (ps : List Piece) :
    tokens (optional g :: ps) = g.token :: tokens ps := rfl

lemma tokens_cons (p : Piece) (ps : List Piece) :
    tokens (p :: ps) = p.token?.toList ++ tokens ps := by
  cases p <;> rfl

lemma tokens_ofTemplate_of_not_mem {s : List Char} (h : '<' ∉ s) : tokens (ofTemplate s) = [] := by
  refine List.filterMap_eq_nil_iff.mpr fun p hp => ?_
  rcases ht : p.token? with _ | t
  · rfl
  · have hm : '<' ∈ (ofTemplate s).flatMap text :=
      List.mem_flatMap.mpr ⟨p, hp, bracket_mem_text ht⟩
    rw [text_ofTemplate] at hm
    exact absurd hm h

lemma ofText_of_tokens_eq_nil {s : List Char} (h : tokens (ofText s) = []) :
    ofText s = ofLiteral s := by
  have hs := text_splitTokens s
  rw [ofText, tokens_append] at h
  rcases hp : (splitTokens s).2 with _ | ⟨⟨t, u⟩, l⟩
  · rw [hp, List.flatMap_nil, List.append_nil] at hs
    rw [ofText, hp, List.flatMap_nil, List.append_nil, hs]
  · rw [hp] at h
    simp at h

lemma ofTemplate_of_tokens_eq_nil {s : List Char} (h : tokens (ofTemplate s) = []) :
    ofTemplate s = ofLiteral s := by
  have hs := text_splitGroups s
  rw [ofTemplate, tokens_append] at h
  rcases hp : (splitGroups s).2 with _ | ⟨⟨g, u⟩, l⟩
  · rw [hp, List.flatMap_nil, List.append_nil] at hs
    rw [hs] at h
    rw [ofTemplate, hp, List.flatMap_nil, List.append_nil, hs]
    exact ofText_of_tokens_eq_nil (List.append_eq_nil_iff.mp h).1
  · rw [hp] at h
    simp at h

lemma tokens_ofLiteral (s : List Char) : tokens (ofLiteral s) = [] := by
  unfold ofLiteral
  split <;> rfl

/-! ### The parts of the expression -/

lemma patternSource_token (i : Nat) (t : Token) : t.patternSource i =
    "(?P<".toList ++ (groupName i).toList ++ '>' :: (t.kind.pattern ++ [')']) := rfl

@[simp] lemma patternSource_literal (i : Nat) (s : List Char) :
    (literal s).patternSource i = escapeText s := rfl

@[simp] lemma patternSource_required (i : Nat) (t : Token) :
    (required t).patternSource i = t.patternSource i := rfl

lemma patternSource_optional (i : Nat) (g : OptionalGroup) : (optional g).patternSource i =
    "(?:".toList ++ escapeText g.before ++ g.token.patternSource i ++ escapeText g.after ++
      ")?".toList := rfl

/-! ### What a token can be -/

lemma mem_tokens_flatMap {α : Type} {f : α → List Piece} {l : List α} {t : Token} :
    t ∈ tokens (l.flatMap f) ↔ ∃ a ∈ l, t ∈ tokens (f a) := by
  unfold tokens
  rw [List.filterMap_flatMap, List.mem_flatMap]

lemma body_splitTokens (s : List Char) :
    ∀ p ∈ (splitTokens s).2, p.1.body ≠ [] ∧ '>' ∉ p.1.body := by
  fun_induction splitTokens s with
  | case1 => simp
  | case2 c s t rest h h₁ ih =>
    rw [List.forall_mem_cons]
    exact ⟨(Token.read?_eq_some h).2, ih⟩
  | case3 c s h ih => exact ih

lemma body_ofText (s : List Char) :
    ∀ t ∈ tokens (ofText s), t.body ≠ [] ∧ '>' ∉ t.body := by
  intro t ht
  rw [ofText, tokens_append, tokens_ofLiteral, List.nil_append, mem_tokens_flatMap] at ht
  obtain ⟨p, hp, ht⟩ := ht
  rw [tokens_required_cons, tokens_ofLiteral, List.mem_singleton] at ht
  rw [ht]
  exact body_splitTokens s p hp

lemma body_of_read? {s rest : List Char} {g : OptionalGroup}
    (h : OptionalGroup.read? s = some (g, rest)) : g.token.body ≠ [] ∧ '>' ∉ g.token.body := by
  unfold OptionalGroup.read? at h
  split at h
  · split at h
    · rename_i ht
      split at h
      · cases h
        exact (Token.read?_eq_some ht).2
      · cases h
    · cases h
  · cases h

lemma body_splitGroups (s : List Char) :
    ∀ p ∈ (splitGroups s).2, p.1.token.body ≠ [] ∧ '>' ∉ p.1.token.body := by
  fun_induction splitGroups s with
  | case1 => simp
  | case2 c s g rest h h₁ ih =>
    rw [List.forall_mem_cons]
    exact ⟨body_of_read? h, ih⟩
  | case3 c s h ih => exact ih

lemma body_ofTemplate (s : List Char) :
    ∀ t ∈ tokens (ofTemplate s), t.body ≠ [] ∧ '>' ∉ t.body := by
  intro t ht
  rw [ofTemplate, tokens_append, List.mem_append, mem_tokens_flatMap] at ht
  rcases ht with ht | ⟨p, hp, ht⟩
  · exact body_ofText _ t ht
  · rw [tokens_optional_cons, List.mem_cons] at ht
    rcases ht with rfl | ht
    · exact body_splitGroups s p hp
    · exact body_ofText _ t ht

/-! ### Names and groups -/

section Names

variable {ps : List Piece} {p q : Piece} {t t' : Token} {g : OptionalGroup}

lemma eq_of_name_eq (hnames : ((tokens ps).map Token.name).Nodup) (hp : p ∈ ps) (hq : q ∈ ps)
    (ht : p.token? = some t) (ht' : q.token? = some t') (h : t.name = t'.name) : p = q := by
  rw [tokens, List.map_filterMap, List.Nodup, List.pairwise_filterMap] at hnames
  have hsymm : Std.Symm fun a b : Piece => ∀ n, a.token?.map Token.name = some n →
      ∀ m, b.token?.map Token.name = some m → n ≠ m :=
    ⟨fun _ _ hab n hn m hm => (hab m hm n hn).symm⟩
  by_contra hne
  exact hnames.forall hp hq hne _ (congrArg _ ht) _ (congrArg _ ht') h

lemma mem_groups : g ∈ groups ps ↔ optional g ∈ ps := by
  constructor
  · intro h
    obtain ⟨p, hp, hg⟩ := List.mem_filterMap.mp h
    cases p <;> cases hg
    exact hp
  · exact fun h => List.mem_filterMap.mpr ⟨_, h, rfl⟩

/-- Where there are no groups, only literal text and required parameters need to be looked at. -/
lemma forall_of_groups_eq_nil {P : Piece → Prop} (hgroups : groups ps = [])
    (hliteral : ∀ s, P (literal s)) (hrequired : ∀ t ∈ tokens ps, P (required t)) :
    ∀ p ∈ ps, P p := by
  intro p hp
  cases p with
  | literal s => exact hliteral s
  | required t => exact hrequired t (List.mem_filterMap.mpr ⟨_, hp, rfl⟩)
  | optional g =>
    rw [← mem_groups, hgroups] at hp
    cases hp

end Names

end Piece

namespace Template

/-- What is true of every compiled template. -/
structure WellFormed (t : Template) : Prop where
  trimmed : ∃ s, t.text = Text.trimSlashes s
  pieces : t.pieces = Piece.ofTemplate t.text
  nodup_names : (t.tokens.map Token.name).Nodup
  tokens_of_static : t.regex = none → t.tokens = []
  regex_of_dynamic : ∀ r, t.regex = some r →
    t.tokens ≠ [] ∧ Regex.ofSource (patternOf t.pieces) = .ok r

namespace WellFormed

variable {t : Template} {k : Token} {g : OptionalGroup}

lemma text_eq (h : t.WellFormed) : t.pieces.flatMap Piece.text = t.text := by
  rw [h.pieces, Piece.text_ofTemplate]

lemma close_not_mem (h : t.WellFormed) : ∀ k ∈ t.tokens, '>' ∉ k.body := by
  rw [Template.tokens, h.pieces]
  exact fun k hk => (Piece.body_ofTemplate _ k hk).2

lemma group?_of_required (h : t.WellFormed) (hk : .required k ∈ t.pieces) :
    t.group? k.name = none := by
  refine List.find?_eq_none.mpr fun g hg he => ?_
  have := Piece.eq_of_name_eq h.nodup_names (Piece.mem_groups.mp hg) hk rfl rfl (eq_of_beq he)
  cases this

lemma group?_of_optional (h : t.WellFormed) (hg : .optional g ∈ t.pieces) :
    t.group? g.token.name = some g := by
  have hsome : (t.group? g.token.name).isSome = true :=
    List.find?_isSome.mpr ⟨g, Piece.mem_groups.mpr hg, beq_self_eq_true _⟩
  obtain ⟨g', hg'⟩ := Option.isSome_iff_exists.mp hsome
  have hname := List.find?_some hg'
  have hmem := Piece.mem_groups.mp (List.mem_of_find?_eq_some hg')
  cases Piece.eq_of_name_eq h.nodup_names hmem hg rfl rfl (eq_of_beq hname)
  exact hg'

end WellFormed

lemma wellFormed_ofText {s : List Char}
    (h : Piece.tokens (Piece.ofTemplate (Text.trimSlashes s)) = []) :
    (ofText (Text.trimSlashes s)).WellFormed where
  trimmed := ⟨s, rfl⟩
  pieces := (Piece.ofTemplate_of_tokens_eq_nil h).symm
  nodup_names := by simp [tokens, ofText, Piece.tokens_ofLiteral]
  tokens_of_static := fun _ => Piece.tokens_ofLiteral _
  regex_of_dynamic := by simp [ofText]

/-- What compiling can give: a template that stands for its text, if no token is found in it, or one
with the expression of its pieces. -/
lemma compile_cases {s : List Char} {t : Template} (h : compile s = .ok t) :
    let text := Text.trimSlashes s
    let pieces := Piece.ofTemplate text
    (Piece.tokens pieces = [] ∧ t = ofText text) ∨
      ∃ r, checkNames [] (Piece.tokens pieces) = .ok () ∧ Piece.tokens pieces ≠ [] ∧
        Regex.ofSource (patternOf pieces) = .ok r ∧ t = ⟨text, pieces, some r⟩ := by
  intro text pieces
  unfold compile at h
  simp only at h
  split at h
  · rename_i hlt
    cases h
    exact .inl ⟨Piece.tokens_ofTemplate_of_not_mem hlt, rfl⟩
  · split at h
    · cases h
    · split at h
      · cases h
      · rename_i hnames
        split at h
        · rename_i hnone
          cases h
          exact .inl ⟨hnone, rfl⟩
        · rename_i hsome
          split at h
          · cases h
          · rename_i r hr
            cases h
            exact .inr ⟨r, hnames, hsome, hr, rfl⟩

theorem wellFormed_of_compile {s : List Char} {t : Template} (h : compile s = .ok t) :
    t.WellFormed ∧ t.text = Text.trimSlashes s := by
  obtain ⟨hnone, rfl⟩ | ⟨r, hnames, hsome, hr, rfl⟩ := compile_cases h
  · exact ⟨wellFormed_ofText hnone, rfl⟩
  · refine ⟨⟨⟨s, rfl⟩, rfl, (names_of_checkNames hnames).1, nofun, ?_⟩, rfl⟩
    rintro _ ⟨⟩
    exact ⟨hsome, hr⟩

lemma names_ne_empty_of_compile {s : List Char} {t : Template} (h : compile s = .ok t) :
    ∀ k ∈ t.tokens, k.name ≠ "" := by
  obtain ⟨-, rfl⟩ | ⟨r, hnames, -, -, rfl⟩ := compile_cases h
  · intro k hk
    rw [tokens, ofText, Piece.tokens_ofLiteral] at hk
    cases hk
  · exact fun k hk => ((names_of_checkNames hnames).2 k hk).1

lemma compile_eq_ok_get {s : List Char} (h : (compile s).toOption.isSome = true) :
    compile s = .ok ((compile s).toOption.get h) := by
  generalize compile s = x at h ⊢
  rcases x with e | t
  · cases h
  · rfl

end Template

end Signpost
