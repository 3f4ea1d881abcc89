import Signpost.Regex.Reader

/-!
Parameter tokens. A token is written `<`, a marker, a body and `>`; the body is a name, or a name,
a bar and the pattern that values of the parameter must match.
-/

namespace Signpost

/-- The sign behind the opening bracket of a token: `:` for one segment of text, `#` for a number,
`*` for any text within a line. -/
inductive Marker where
  | generic
  | numeric
  | wildcard
  deriving DecidableEq, Repr

namespace Marker

def sign : Marker → Char
  | generic => ':'
  | numeric => '#'
  | wildcard => '*'

def ofSign? : Char → Option Marker
  | ':' => some generic
  | '#' => some numeric
  | '*' => some wildcard
  | _ => none

@[simp] theorem ofSign?_sign (m : Marker) : ofSign? m.sign = some m := by cases m <;> rfl

theorem ofSign?_eq_some {c : Char} {m : Marker} : ofSign? c = some m ↔ c = m.sign := by
  constructor
  · intro h
    unfold ofSign? at h
    split at h <;> cases h <;> rfl
  · rintro rfl
    exact ofSign?_sign m

end Marker

/-- How the text of a parameter is matched: by the class of its marker, or by a pattern of its
own. -/
inductive ParamKind where
  | generic
  | numeric
  | wildcard
  | inline (pattern : List Char)
  deriving DecidableEq, Repr

/-- The text of the expression that matches a parameter. -/
def ParamKind.pattern : ParamKind → List Char
  | generic => "[a-zA-Z0-9_\\-+%\\s]+".toList
  | numeric => "[0-9]+".toList
  | wildcard => ".*".toList
  | inline p => p

/-- The kind of a parameter whose token has no pattern. -/
def Marker.kind : Marker → ParamKind
  | generic => .generic
  | numeric => .numeric
  | wildcard => .wildcard

/-- A parameter token as written in a template; its body is what is between the marker and the
closing bracket. -/
structure Token where
  marker : Marker
  body : List Char
  deriving DecidableEq, Repr

namespace Token

def text (t : Token) : List Char := '<' :: t.marker.sign :: (t.body ++ ['>'])

/-- The name of the parameter: the body up to its first bar. -/
def name (t : Token) : String := String.ofList (((Text.cutAt? '|' t.body).map Prod.fst).getD t.body)

/-- How the parameter is matched: by the pattern behind the bar, whatever the marker, or else as
the marker says. -/
def kind (t : Token) : ParamKind :=
  match Text.cutAt? '|' t.body with
  | some (_, pattern) => .inline pattern
  | none => t.marker.kind

/-- Reads the token in front of a text: a marker and a body that is not empty, up to the first
closing bracket. -/
def read? : List Char → Option (Token × List Char)
  | '<' :: c :: s =>
    match Marker.ofSign? c, s.takeWhile (· != '>'), s.dropWhile (· != '>') with
    | some m, b :: body, _ :: rest => some (⟨m, b :: body⟩, rest)
    | _, _, _ => none
  | _ => none

theorem read?_eq_some {s rest : List Char} {t : Token} (h : read? s = some (t, rest)) :
    s = t.text ++ rest ∧ t.body ≠ [] ∧ '>' ∉ t.body := by
  unfold read? at h
  split at h
  · rename_i c s
    split at h
    · rename_i m b body x rest' hm hb hr
      cases h
      have hs := List.takeWhile_append_dropWhile (p := fun x : Char => x != '>') (l := s)
      have hx : x = '>' := by
        have := List.head_dropWhile_not (p := fun x : Char => x != '>') (l := s) (by rw [hr]; simp)
        simp only [hr, List.head_cons] at this
        simpa using this
      refine ⟨?_, by simp, ?_⟩
      · rw [Marker.ofSign?_eq_some.mp hm, ← hs, hb, hr, hx]
        simp [text]
      · intro hmem
        have hall := List.all_takeWhile (p := fun x : Char => x != '>') (l := s)
        rw [hb] at hall
        simpa using List.all_eq_true.mp hall '>' hmem
    · cases h
  · cases h

theorem length_read? {s rest : List Char} {t : Token} (h : read? s = some (t, rest)) :
    rest.length < s.length := by
  rw [(read?_eq_some h).1]
  simp only [text, List.length_append, List.length_cons]
  omega

end Token

end Signpost
