import Signpost.Proofs.Route.Built
import Signpost.Proofs.Template.Written
import Signpost.Proofs.Text.Percent
import Signpost.Route.Path

/-!
What a route writes into a URL. The values are put in one after the other, each into the text that
the earlier ones have left. An encoded value has no `<`, so if nothing in the template but a token
begins like one, no value can be taken for a later token or group, and the URL is the same as if
every piece of the template had been written on its own.
-/

namespace Signpost

namespace Route

variable {r : Route} {params : Params}

/-- The value of a parameter in a URL: the one given, or else the route's default. -/
def value? (r : Route) (params : Params) (name : String) : Option String :=
  (params.get? name).or (r.defaults.get? name)

/-- What is written in the place of a token. -/
def encodedValue (r : Route) (params : Params) (t : Token) : List Char :=
  Percent.encodeChars ((r.value? params t.name).getD "").toList

lemma not_mem_encodedValue {c : Char} (h : Percent.isUnreserved c = false) (hc : c ≠ '%')
    (t : Token) : c ∉ r.encodedValue params t :=
  Percent.not_mem_encodeChars h hc _

lemma encodedValue_eq {t : Token} {v : String} (h : r.value? params t.name = some v) :
    r.encodedValue params t = Percent.encodeChars v.toList := by
  rw [encodedValue, h]
  rfl

lemma value?_of_given {name v : String} (h : params.get? name = some v) :
    r.value? params name = some v := by
  rw [value?, h, Option.some_or]

/-- The required parameter of a piece, if it has no value. -/
def missingIn? (r : Route) (params : Params) : Piece → Option String
  | .literal _ => none
  | .required t => if (r.value? params t.name).isNone then some t.name else none
  | .optional _ => none

lemma findSome?_missingIn?_eq_none {ps : List Piece} :
    ps.findSome? (r.missingIn? params) = none ↔
      ∀ t, .required t ∈ ps → (r.value? params t.name).isSome = true := by
  rw [List.findSome?_eq_none_iff]
  constructor
  · intro h t ht
    have hnone := h _ ht
    rw [missingIn?] at hnone
    split at hnone
    · cases hnone
    · rename_i hsome
      rwa [Bool.not_eq_true, Option.isNone_eq_false_iff] at hsome
  · intro h p hp
    cases p with
    | literal s => rfl
    | required t =>
      rw [missingIn?, if_neg]
      simp [Option.isSome_iff_ne_none.mp (h t hp)]
    | optional g => rfl

/-- What is written for a piece: nothing for a group whose value is not given, even if there is a
default. -/
def rendered (r : Route) (params : Params) : Piece → List Char
  | .literal s => s
  | .required t => r.encodedValue params t
  | .optional g =>
    if (params.get? g.token.name).isSome then g.before ++ r.encodedValue params g.token ++ g.after
    else []

lemma unmarked_rendered {p : Piece} (hp : p.plain = true) :
    unmarked (r.rendered params p) = true := by
  have hvalue : ∀ t, unmarked (r.encodedValue params t) = true := fun t =>
    unmarked_of_not_mem (not_mem_encodedValue (by decide) (by decide) t)
  cases p with
  | literal s => exact hp
  | required t => exact hvalue t
  | optional g =>
    rw [Piece.plain, Bool.and_eq_true, Bool.and_eq_true] at hp
    rw [rendered]
    split
    · exact unmarked_append (unmarked_append hp.1.1 (hvalue g.token)) hp.2
    · rfl

lemma mem_rendered {ps : List Piece} {c : Char} (h : c ∈ ps.flatMap (r.rendered params)) :
    c ∈ ps.flatMap Piece.text ∨ ∃ t, c ∈ r.encodedValue params t := by
  obtain ⟨p, hp, hc⟩ := List.mem_flatMap.mp h
  have htext : c ∈ p.text → c ∈ ps.flatMap Piece.text := fun hm => List.mem_flatMap.mpr ⟨p, hp, hm⟩
  cases p with
  | literal s => exact .inl (htext hc)
  | required t => exact .inr ⟨t, hc⟩
  | optional g =>
    rw [rendered] at hc
    split at hc
    · simp only [List.mem_append] at hc
      rcases hc with (hc | hc) | hc
      · exact .inl (htext (by simp [Piece.text, OptionalGroup.text, hc]))
      · exact .inr ⟨g.token, hc⟩
      · exact .inl (htext (by simp [Piece.text, OptionalGroup.text, hc]))
    · cases hc

/-- Where the text of a piece stands at one place only, filling in the value of its parameter puts
what is written for the piece in its place. -/
lemma fill_eq (hr : r.Built) (params : Params) {p : Piece} (hp : p ∈ r.template.pieces)
    {t : Token} (ht : p.token? = some t) {x y : List Char}
    (hreplace : ∀ new, Text.replaceAll p.text new (x ++ (p.text ++ y)) = x ++ (new ++ y)) :
    r.fill params (x ++ (p.text ++ y)) t =
      match r.missingIn? params p with
      | some name => .error (.missingParameter r.name name)
      | none => .ok (x ++ (r.rendered params p ++ y)) := by
  cases p with
  | literal s => cases ht
  | required t =>
    cases ht
    rw [fill, hr.wellFormed.group?_of_required hp, missingIn?, ← value?, rendered]
    rcases hv : r.value? params t.name with _ | v
    · rfl
    · rw [encodedValue_eq hv, ← Percent.toList_encode]
      exact congrArg _ (hreplace _)
  | optional g =>
    cases ht
    rw [fill, hr.wellFormed.group?_of_optional hp, rendered]
    rcases hv : params.get? g.token.name with _ | v
    · exact congrArg _ (hreplace _)
    · rw [encodedValue_eq (value?_of_given hv), ← Percent.toList_encode]
      exact congrArg _ (hreplace _)

section Plain

variable (hr : r.Built) (hplain : ∀ p ∈ r.template.pieces, p.plain = true)

include hr hplain

/-- The values of the last pieces are put in behind the text `x` that has been written for the
others: by induction on the pieces that are left, where no token ever begins in `x`. -/
lemma fillAll_eq (params : Params) {ps : List Piece} (hps : ps <:+ r.template.pieces)
    {x : List Char} (hx : unmarked x = true) :
    r.fillAll params (x ++ ps.flatMap Piece.text) (Piece.tokens ps) =
      match ps.findSome? (r.missingIn? params) with
      | some name => .error (.missingParameter r.name name)
      | none => .ok (x ++ ps.flatMap (r.rendered params)) := by
  induction ps generalizing x with
  | nil => rfl
  | cons p ps ih =>
    have hmem : p ∈ r.template.pieces := hps.subset List.mem_cons_self
    have hx' : unmarked (x ++ r.rendered params p) = true :=
      unmarked_append hx (unmarked_rendered (hplain p hmem))
    have hrest := ih ((List.suffix_cons p ps).trans hps) hx'
    rw [List.flatMap_cons, List.flatMap_cons, List.findSome?_cons, Piece.tokens_cons]
    rcases ht : p.token? with _ | t
    · cases p with
      | literal s =>
        rw [List.append_assoc, List.append_assoc] at hrest
        exact hrest
      | required t => cases ht
      | optional g => cases ht
    · have htokens : (Piece.tokens (p :: ps)).Sublist r.template.tokens := hps.sublist.filterMap _
      have hnames : ((Piece.tokens (p :: ps)).map Token.name).Nodup :=
        hr.wellFormed.nodup_names.sublist (htokens.map _)
      rw [Piece.tokens_cons, ht] at hnames
      have hnot : t ∉ Piece.tokens ps := fun hm =>
        (List.nodup_cons.mp hnames).1 (List.mem_map_of_mem hm)
      -- neither `x` nor a later piece has the text of this piece
      have hfill := fill_eq hr params hmem ht
        (Piece.replaceAll_text hx (fun q hq => hplain q (hps.subset hq))
          (fun k hk => hr.wellFormed.close_not_mem k (htokens.subset hk)) ht hnot)
      rw [Option.toList_some, List.singleton_append, fillAll, hfill]
      rcases r.missingIn? params p with _ | name
      · simpa only [List.append_assoc] using hrest
      · rfl

/-- **The URL of a route** is what is written for its pieces, each with its own value, less the
backslashes; or else the first required parameter without a value is reported. -/
theorem generate_eq_pieces (hdynamic : r.template.isStatic = false) :
    r.generate params =
      match r.template.pieces.findSome? (r.missingIn? params) with
      | some name => .error (.missingParameter r.name name)
      | none => .ok (String.ofList
          ((r.template.pieces.flatMap (r.rendered params)).filter (· != '\\'))) := by
  have hfill := fillAll_eq hr hplain params (List.suffix_refl _) (x := []) rfl
  rw [List.nil_append, hr.wellFormed.text_eq] at hfill
  rw [generate, if_neg (by simp [hdynamic]), Template.tokens, hfill]
  rcases r.template.pieces.findSome? (r.missingIn? params) with _ | name
  · rfl
  · rfl

/-- A URL is made if each required parameter has a value, and then it is what is written for the
pieces less the backslashes. -/
lemma generate_eq_ok_iff (hdynamic : r.template.isStatic = false) {url : String} :
    r.generate params = .ok url ↔
      r.template.pieces.findSome? (r.missingIn? params) = none ∧
        url.toList = (r.template.pieces.flatMap (r.rendered params)).filter (· != '\\') := by
  rw [generate_eq_pieces hr hplain hdynamic]
  rcases r.template.pieces.findSome? (r.missingIn? params) with _ | name
  · rw [Except.ok.injEq, ← String.toList_inj, String.toList_ofList, eq_comm]
    simp
  · simp

end Plain

section Bracketed

variable (hr : r.Built) (hbrackets : r.template.text.count '<' = r.template.tokens.length)

include hr hbrackets

/-- The URL, where each `<` of the template begins a token. -/
theorem generate_eq_rendered (hdynamic : r.template.isStatic = false) :
    r.generate params =
      match r.template.pieces.findSome? (r.missingIn? params) with
      | some name => .error (.missingParameter r.name name)
      | none => .ok (String.ofList
          ((r.template.pieces.flatMap (r.rendered params)).filter (· != '\\'))) :=
  generate_eq_pieces hr (fun p hp => (hr.wellFormed.bracketed hbrackets p hp).plain) hdynamic

lemma of_generate_eq_ok (hdynamic : r.template.isStatic = false) {url : String}
    (h : r.generate params = .ok url) :
    r.template.pieces.findSome? (r.missingIn? params) = none ∧
      url.toList = (r.template.pieces.flatMap (r.rendered params)).filter (· != '\\') :=
  (generate_eq_ok_iff hr (fun p hp => (hr.wellFormed.bracketed hbrackets p hp).plain)
    hdynamic).mp h

end Bracketed

lemma filter_rendered (hr : r.Built) (hbackslash : '\\' ∉ r.template.text) :
    (r.template.pieces.flatMap (r.rendered params)).filter (· != '\\') =
      r.template.pieces.flatMap (r.rendered params) := by
  refine List.filter_eq_self.mpr fun c hc => ?_
  rw [bne_iff_ne]
  rintro rfl
  rcases mem_rendered hc with hc | ⟨t, hc⟩
  · exact hbackslash (hr.wellFormed.text_eq ▸ hc)
  · exact not_mem_encodedValue (by decide) (by decide) t hc

end Route

end Signpost
