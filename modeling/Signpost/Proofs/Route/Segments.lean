import Mathlib.Data.List.Forall2
import Signpost.Proofs.Route.Match
import Signpost.Proofs.Template.Separated

/-!
Templates with a parameter in each segment. A path matches such a template just where it has as
many segments as the template has parameters and each parameter can take its segment, and then each
of them takes its segment.
-/

namespace Signpost

namespace Text

/-- What stands between the slashes of a text without outer slashes; nothing in an empty text. -/
def segments (s : List Char) : List (List Char) := if s = [] then [] else splitAll '/' s

lemma segments_of_ne_nil {s : List Char} (h : s ≠ []) : segments s = splitAll '/' s := if_neg h

end Text

/-- The segments of a path, its outer slashes set aside. -/
def segments (path : String) : List String :=
  (Text.segments (Text.trimSlashes path.toList)).map String.ofList

lemma segments_trimPath (path : String) : segments (trimPath path) = segments path := by
  rw [segments, trimPath, String.toList_ofList, Text.trimSlashes_trimSlashes]
  rfl

namespace Marker

lemma Admits.generic {v : List Char} (h : numeric.Admits v) : generic.Admits v := by
  refine ⟨fun _ => h.1 (by decide), fun c hc => ?_⟩
  have hdigit : '0' ≤ c ∧ c ≤ '9' := by simpa [admitsChar] using h.2 c hc
  simp [admitsChar, hdigit]

end Marker

namespace Piece

/-- Parameters with a slash between any two of them. -/
def ofSegments : List Token → List Piece
  | [] => []
  | [t] => [required t]
  | t :: ts => required t :: literal ['/'] :: ofSegments ts

variable {ts : List Token} {vs : Cut} {s : List Char}

lemma cuts_required_nil {t : Token} :
    Cuts [required t] vs s ↔ t.marker.Admits s ∧ vs = [some s] := by
  constructor
  · intro h
    cases h with
    | required hv h =>
      cases h
      simpa using hv
  · rintro ⟨hs, rfl⟩
    have := Cuts.required hs Cuts.nil
    rwa [List.append_nil] at this

lemma cuts_required_slash {t : Token} {ps : List Piece} :
    Cuts (required t :: literal ['/'] :: ps) vs s ↔
      ∃ v vs' s', s = v ++ '/' :: s' ∧ vs = some v :: vs' ∧ t.marker.Admits v ∧ Cuts ps vs' s' := by
  constructor
  · intro h
    cases h with
    | required hv h =>
      cases h with
      | literal _ h => exact ⟨_, _, _, rfl, rfl, hv, h⟩
  · rintro ⟨v, vs', s', rfl, rfl, hv, h⟩
    exact .required hv (.literal ['/'] h)

lemma cuts_ofSegments_cons {t : Token} (hwild : ∀ u ∈ t :: ts, u.marker ≠ .wildcard) :
    Cuts (ofSegments (t :: ts)) vs s ↔
      List.Forall₂ (fun t v => t.marker.Admits v) (t :: ts) (Text.splitAll '/' s) ∧
        vs = (Text.splitAll '/' s).map some := by
  induction ts generalizing t vs s with
  | nil =>
    rw [ofSegments, cuts_required_nil]
    constructor
    · rintro ⟨hs, rfl⟩
      have hslash := Marker.slash_not_mem hs (hwild t List.mem_cons_self)
      rw [Text.splitAll_of_not_mem hslash]
      exact ⟨.cons hs .nil, rfl⟩
    · rintro ⟨h, rfl⟩
      rcases Text.splitAll_cases '/' s with hs | ⟨v, rest, rfl, hs⟩
      · rw [hs] at h ⊢
        exact ⟨(List.forall₂_cons.mp h).1, rfl⟩
      · rw [hs] at h
        exact absurd (List.forall₂_nil_left_iff.mp (List.forall₂_cons.mp h).2)
          (Text.splitAll_ne_nil '/' rest)
  | cons u ts ih =>
    have hrest : ∀ k ∈ u :: ts, k.marker ≠ .wildcard := fun k hk =>
      hwild k (List.mem_cons_of_mem t hk)
    rw [ofSegments, cuts_required_slash]
    · constructor
      · rintro ⟨v, vs', s', rfl, rfl, hv, h⟩
        -- the parameter ends at the first slash, because it has none itself
        have hslash := Marker.slash_not_mem hv (hwild t List.mem_cons_self)
        obtain ⟨hall, rfl⟩ := (ih hrest).mp h
        rw [Text.splitAll_append hslash]
        exact ⟨.cons hv hall, rfl⟩
      · rintro ⟨h, rfl⟩
        rcases Text.splitAll_cases '/' s with hs | ⟨v, rest, rfl, hs⟩
        · rw [hs] at h
          cases (List.forall₂_cons.mp h).2
        · rw [hs] at h ⊢
          obtain ⟨hv, hall⟩ := List.forall₂_cons.mp h
          exact ⟨v, _, rest, rfl, rfl, hv, (ih hrest).mpr ⟨hall, rfl⟩⟩
    · simp

/-- **A parameter in each segment.** A text is cut by giving each parameter its segment. -/
theorem cuts_ofSegments (hwild : ∀ t ∈ ts, t.marker ≠ .wildcard) :
    Cuts (ofSegments ts) vs s ↔
      List.Forall₂ (fun t v => t.marker.Admits v) ts (Text.segments s) ∧
        vs = (Text.segments s).map some := by
  cases ts with
  | nil =>
    rw [List.forall₂_nil_left_iff]
    by_cases hs : s = []
    · subst hs
      refine ⟨fun h => ?_, fun ⟨_, h⟩ => h ▸ .nil⟩
      cases h
      exact ⟨rfl, rfl⟩
    · refine iff_of_false (fun h => ?_) fun h => ?_
      · cases h
        exact hs rfl
      · rw [Text.segments_of_ne_nil hs] at h
        exact Text.splitAll_ne_nil '/' s h.1
  | cons t ts =>
    rw [cuts_ofSegments_cons hwild]
    by_cases hs : s = []
    · -- the only part of an empty text is empty, which no parameter here can take
      subst hs
      refine iff_of_false (fun h => ?_) fun h => by cases h.1
      exact (List.forall₂_cons.mp h.1).1.1 (hwild t List.mem_cons_self) rfl
    · rw [Text.segments_of_ne_nil hs]

lemma tokens_ofSegments (ts : List Token) : tokens (ofSegments ts) = ts := by
  induction ts with
  | nil => rfl
  | cons t ts ih =>
    cases ts with
    | nil => rfl
    | cons u ts => exact congrArg (t :: ·) ih

end Piece

namespace Route

/-- A route whose template has a parameter in each segment, none of them a wildcard or with a
pattern of its own. -/
structure Segmented (r : Route) (ts : List Token) : Prop where
  built : r.Built
  pieces : r.template.pieces = Piece.ofSegments ts
  wildcard : ∀ t ∈ ts, t.marker ≠ .wildcard
  plain : ∀ t ∈ ts, '|' ∉ t.body

variable {r : Route} {ts : List Token}

/-- The parameters of a match in which each parameter takes its segment. -/
def segmentParams (r : Route) (ts : List Token) (method : Method) (path : String) : Params :=
  merge (ts.map Token.name) (r.sources method ((ts.map Token.name).zip (segments path))).reverse

lemma segmentParams_eq (r : Route) (ts : List Token) (method : Method) (path : String) :
    r.segmentParams ts method path =
      merge (ts.map Token.name)
        (if method.isGetInAnyCase then
          [r.defaults.toList, ((r.overridesLike? method.text).getD ∅).toList,
            (ts.map Token.name).zip (segments path)]
        else
          [r.defaults.toList, (ts.map Token.name).zip (segments path),
            ((r.overridesLike? method.text).getD ∅).toList]) := by
  unfold segmentParams sources
  split <;> rfl

lemma texts_segments (ts : List Token) (vs : List (List Char)) :
    Captures.texts (capturesOf ts (vs.map some)) =
      (ts.map Token.name).zip (vs.map String.ofList) := by
  induction ts generalizing vs with
  | nil => rfl
  | cons t ts ih =>
    cases vs with
    | nil => rfl
    | cons v vs => exact congrArg (_ :: ·) (ih vs)

lemma Segmented.tokens_eq (h : r.Segmented ts) : r.template.tokens = ts := by
  rw [Template.tokens, h.pieces, Piece.tokens_ofSegments]

/-- **Matching by segments.** -/
theorem Segmented.extract_eq (h : r.Segmented ts) (method : Method) (path : String) :
    r.extract method path =
      .ok (if List.Forall₂ (fun t v => t.marker.Admits v.toList) ts (segments path)
        then some (r.segmentParams ts method path) else none) := by
  have htokens := h.tokens_eq
  have hk : ∀ t ∈ r.template.tokens, t.kind = t.marker.kind := fun t ht =>
    Token.kind_of_not_mem (h.plain t (htokens ▸ ht))
  have hforall : List.Forall₂ (fun t v => t.marker.Admits v.toList) ts (segments path) ↔
      List.Forall₂ (fun t v => t.marker.Admits v) ts
        (Text.segments (Text.trimSlashes path.toList)) := by
    simp [segments, List.forall₂_map_right_iff]
  have hcaptures := captures?_eq h.built hk (Text.trimSlashes path.toList)
  rw [h.pieces] at hcaptures
  by_cases hfit : List.Forall₂ (fun t v => t.marker.Admits v.toList) ts (segments path)
  · have hcuts := (Piece.cuts_ofSegments h.wildcard).mpr ⟨hforall.mp hfit, rfl⟩
    -- the segments are the only way to cut the path
    obtain ⟨vs, hvs⟩ := Option.isSome_iff_exists.mp (Piece.isSome_fit? hcuts)
    have hgreedy := (Piece.fit?_eq_some_iff.mp hvs).cuts
    obtain ⟨-, rfl⟩ := (Piece.cuts_ofSegments h.wildcard).mp hgreedy
    rw [hvs, Option.map_some, htokens] at hcaptures
    have hcheck := checkCaptures_capturesOf (h.pieces ▸ hgreedy.placed)
    rw [htokens] at hcheck
    rw [if_pos hfit, extract_of_captures? h.built hcaptures, hcheck, texts_segments, htokens]
    rfl
  · have hnone : Piece.fit? (Piece.ofSegments ts) (Text.trimSlashes path.toList) = none := by
      refine Piece.fit?_eq_none_iff.mpr ?_
      rintro ⟨vs, hvs⟩
      exact hfit (hforall.mpr ((Piece.cuts_ofSegments h.wildcard).mp hvs).1)
    rw [hnone] at hcaptures
    rw [if_neg hfit, extract_of_captures?_eq_none hcaptures]

end Route

end Signpost
