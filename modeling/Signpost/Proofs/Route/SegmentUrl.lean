import Signpost.Proofs.Route.RoundTrip
import Signpost.Proofs.Route.Segments

/-!
URLs of templates with a parameter in each segment: the segments of the URL are the encoded values.
-/

namespace Signpost

lemma Piece.written_ofSegments (value : Token → List Char) (ts : List Token) :
    (ofSegments ts).flatMap (written value) = Text.joinWith ['/'] (ts.map value) := by
  induction ts with
  | nil => rfl
  | cons t ts ih =>
    cases ts with
    | nil => exact List.append_nil _
    | cons u ts =>
      rw [List.map_cons, Text.joinWith_cons _ _ (by simp), ← ih, List.append_assoc]
      rfl

namespace Route

variable {r : Route} {ts : List Token} {params : Params}

lemma Segmented.filled_eq (h : r.Segmented ts) (params : Params) :
    r.filled params = Text.joinWith ['/'] (ts.map (r.encodedValue params)) := by
  rw [filled, h.pieces, Piece.written_ofSegments]

lemma Segmented.generate_nil (h : r.Segmented []) (params : Params) :
    r.generate params = .ok "" := by
  have hwell := h.built.wellFormed
  have hstatic : r.template.isStatic = true := by
    rcases hregex : r.template.regex with _ | regex
    · rw [Template.isStatic, hregex]
      rfl
    · exact absurd h.tokens_eq (hwell.regex_of_dynamic regex hregex).1
  have htext : r.template.text = [] := by
    rw [← hwell.text_eq, h.pieces]
    rfl
  rw [generate, if_pos hstatic, htext]

section Carried

variable (hvalues : ∀ t ∈ r.template.tokens, ∃ v, r.value? params t.name = some v ∧
  t.marker.Carries v)

include hvalues

lemma Segmented.splitAll_filled (h : r.Segmented ts) (hne : ts ≠ []) :
    r.filled params ≠ [] ∧
      Text.splitAll '/' (r.filled params) = ts.map (r.encodedValue params) := by
  have hslash : ∀ part ∈ ts.map (r.encodedValue params), '/' ∉ part := by
    rw [List.forall_mem_map]
    exact fun t _ => not_mem_encodedValue (by decide) (by decide) t
  have hsplit : Text.splitAll '/' (r.filled params) = ts.map (r.encodedValue params) := by
    rw [h.filled_eq, Text.splitAll_joinWith (by simpa using hne) hslash]
  refine ⟨fun hnil => ?_, hsplit⟩
  have hempty : [] ∈ ts.map (r.encodedValue params) := by
    rw [← hsplit, hnil]
    exact List.mem_cons_self
  obtain ⟨t, ht, he⟩ := List.mem_map.mp hempty
  exact encodedValue_ne_nil hvalues (h.tokens_eq ▸ ht) he

/-- **The segments of a URL** are the encoded values of the parameters, in order. -/
theorem Segmented.segments_generate (h : r.Segmented ts) (hi : ts ≠ [] → r.template.Invertible) :
    ∃ url, r.generate params = .ok url ∧
      segments url = ts.map fun t => String.ofList (r.encodedValue params t) := by
  rcases eq_or_ne ts [] with rfl | hne
  · exact ⟨"", h.generate_nil params, rfl⟩
  · have hsome : ∀ t ∈ r.template.tokens, (r.value? params t.name).isSome = true := fun t ht => by
      obtain ⟨v, hv, -⟩ := hvalues t ht
      exact Option.isSome_of_eq_some hv
    obtain ⟨hfilled, hsplit⟩ := h.splitAll_filled hvalues hne
    refine ⟨_, generate_eq h.built (hi hne) hsome, ?_⟩
    rw [segments, String.toList_ofList, trimSlashes_filled hvalues h.built (hi hne),
      Text.segments_of_ne_nil hfilled, hsplit, List.map_map]
    rfl

end Carried

end Route

end Signpost
