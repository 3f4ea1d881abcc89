import Signpost.Template.Token

/-!
Templates as sequences of pieces: literal text, required parameters and optional groups. Groups are
found first, from left to right over the whole template; tokens are then found in the text between
them. The pieces in order spell the template.
-/

namespace Signpost

/-- An optional group: a token with literal text around it, in parentheses. -/
structure OptionalGroup where
  before : List Char
  token : Token
  after : List Char
  deriving DecidableEq, Repr

namespace OptionalGroup

def text (g : OptionalGroup) : List Char := '(' :: (g.before ++ g.token.text ++ g.after ++ [')'])

/-- Reads the group in front of a text. -/
def read? : List Char → Option (OptionalGroup × List Char)
  | '(' :: s =>
    match Token.read? (s.dropWhile fun c => c != '<' && c != '(' && c != ')') with
    | some (token, r) =>
      match r.dropWhile fun c => c != '(' && c != ')' with
      | ')' :: rest =>
        some (⟨s.takeWhile fun c => c != '<' && c != '(' && c != ')', token,
          r.takeWhile fun c => c != '(' && c != ')'⟩, rest)
      | _ => none
    | none => none
  | _ => none

theorem eq_of_read? {s rest : List Char} {g : OptionalGroup} (h : read? s = some (g, rest)) :
    s = g.text ++ rest := by
  unfold read? at h
  split at h
  · rename_i s
    split at h
    · rename_i token r ht
      split at h
      · rename_i rest' hr
        cases h
        have h₁ := List.takeWhile_append_dropWhile
          (p := fun c : Char => c != '<' && c != '(' && c != ')') (l := s)
        have h₂ := List.takeWhile_append_dropWhile
          (p := fun c : Char => c != '(' && c != ')') (l := r)
        rw [(Token.read?_eq_some ht).1, ← h₂, hr] at h₁
        simp only [text, List.cons_append, List.append_assoc, List.nil_append] at h₁ ⊢
        rw [h₁]
      · cases h
    · cases h
  · cases h

theorem length_read? {s rest : List Char} {g : OptionalGroup} (h : read? s = some (g, rest)) :
    rest.length < s.length := by
  rw [eq_of_read? h]
  simp only [text, List.length_append, List.length_cons]
  omega

end OptionalGroup

/-- A piece of a template: text that stands for itself, a parameter that every path has, or a group
that a path has or has not. -/
inductive Piece where
  | literal (text : List Char)
  | required (token : Token)
  | optional (group : OptionalGroup)
  deriving DecidableEq, Repr

namespace Piece

def text : Piece → List Char
  | literal t => t
  | required t => t.text
  | optional g => g.text

def token? : Piece → Option Token
  | literal _ => none
  | required t => some t
  | optional g => some g.token

def group? : Piece → Option OptionalGroup
  | optional g => some g
  | _ => none

/-- Literal text as pieces: none if it is empty. -/
def ofLiteral (s : List Char) : List Piece := if s = [] then [] else [literal s]

/-- The text before the first token, and each token with the text behind it. -/
def splitTokens (s : List Char) : List Char × List (Token × List Char) :=
  match s with
  | [] => ([], [])
  | c :: t =>
    match h : Token.read? (c :: t) with
    | some (token, rest) =>
      have := Token.length_read? h
      ([], (token, (splitTokens rest).1) :: (splitTokens rest).2)
    | none => (c :: (splitTokens t).1, (splitTokens t).2)
termination_by s.length
decreasing_by all_goals simp only [List.length_cons] at *; omega

/-- The text before the first group, and each group with the text behind it. -/
def splitGroups (s : List Char) : List Char × List (OptionalGroup × List Char) :=
  match s with
  | [] => ([], [])
  | c :: t =>
    match h : OptionalGroup.read? (c :: t) with
    | some (group, rest) =>
      have := OptionalGroup.length_read? h
      ([], (group, (splitGroups rest).1) :: (splitGroups rest).2)
    | none => (c :: (splitGroups t).1, (splitGroups t).2)
termination_by s.length
decreasing_by all_goals simp only [List.length_cons] at *; omega

def ofText (s : List Char) : List Piece :=
  ofLiteral (splitTokens s).1 ++
    (splitTokens s).2.flatMap fun (token, t) => required token :: ofLiteral t

def ofTemplate (s : List Char) : List Piece :=
  ofText (splitGroups s).1 ++ (splitGroups s).2.flatMap fun (group, t) => optional group :: ofText t

/-! ### The pieces spell the template -/

theorem text_ofLiteral (s : List Char) : (ofLiteral s).flatMap text = s := by
  unfold ofLiteral
  split
  · rename_i h
    rw [h]
    rfl
  · simp [text]

theorem text_splitTokens (s : List Char) :
    (splitTokens s).1 ++ (splitTokens s).2.flatMap (fun (token, t) => token.text ++ t) = s := by
  fun_induction splitTokens s with
  | case1 => rfl
  | case2 c t token rest h h₁ ih =>
    simp only [List.nil_append, List.flatMap_cons, List.append_assoc]
    rw [ih, (Token.read?_eq_some h).1]
  | case3 c t h ih =>
    rw [List.cons_append, ih]

theorem text_splitGroups (s : List Char) :
    (splitGroups s).1 ++ (splitGroups s).2.flatMap (fun (group, t) => group.text ++ t) = s := by
  fun_induction splitGroups s with
  | case1 => rfl
  | case2 c t group rest h h₁ ih =>
    simp only [List.nil_append, List.flatMap_cons, List.append_assoc]
    rw [ih, OptionalGroup.eq_of_read? h]
  | case3 c t h ih =>
    rw [List.cons_append, ih]

theorem text_ofText (s : List Char) : (ofText s).flatMap text = s := by
  have h : ∀ l : List (Token × List Char),
      (l.flatMap fun (token, t) => required token :: ofLiteral t).flatMap text =
        l.flatMap fun (token, t) => token.text ++ t := by
    intro l
    induction l with
    | nil => rfl
    | cons p l ih =>
      simp only [List.flatMap_cons, List.flatMap_append, ih, text, text_ofLiteral]
  rw [ofText, List.flatMap_append, text_ofLiteral, h, text_splitTokens]

/-- The pieces of a template, written one after the other, are the template. -/
theorem text_ofTemplate (s : List Char) : (ofTemplate s).flatMap text = s := by
  have h : ∀ l : List (OptionalGroup × List Char),
      (l.flatMap fun (group, t) => optional group :: ofText t).flatMap text =
        l.flatMap fun (group, t) => group.text ++ t := by
    intro l
    induction l with
    | nil => rfl
    | cons p l ih =>
      simp only [List.flatMap_cons, List.flatMap_append, ih, text, text_ofText]
  rw [ofTemplate, List.flatMap_append, text_ofText, h, text_splitGroups]

end Piece

end Signpost
