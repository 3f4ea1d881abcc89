import Mathlib.Data.List.Nodup
import Signpost.Proofs.Route.RoundTrip

/-!
A group at the end of a template, with a default for its parameter. Two URLs lead to the same
parameters but for this one: a URL without the group, where the default is found, and a URL that has
the default in it. The first default comes out decoded, as all values do; the second one was encoded
before.
-/

namespace Signpost

namespace Piece

variable {front : List Piece} {g : OptionalGroup} {vs ws : Cut} {s v : List Char}

lemma slash_not_mem_taken (h : Cuts front vs s)
    (hnarrow : ∀ t ∈ tokens front, t.marker ≠ .wildcard) : '/' ∉ taken vs := by
  induction h with
  | nil => nofun
  | literal t _ ih => exact ih hnarrow
  | @required ps vs s t v hv _ ih =>
    rw [tokens_required_cons, List.forall_mem_cons] at hnarrow
    have htaken : taken (some v :: vs) = v ++ taken vs := rfl
    rw [htaken, List.mem_append, not_or]
    exact ⟨Marker.slash_not_mem hv hnarrow.1, ih hnarrow.2⟩
  | @present ps vs s g v hv _ ih =>
    rw [tokens_optional_cons, List.forall_mem_cons] at hnarrow
    have htaken : taken (some v :: vs) = v ++ taken vs := rfl
    rw [htaken, List.mem_append, not_or]
    exact ⟨Marker.slash_not_mem hv hnarrow.1, ih hnarrow.2⟩
  | absent _ ih =>
    rw [tokens_optional_cons, List.forall_mem_cons] at hnarrow
    exact ih hnarrow.2

lemma cuts_optional_nil : Cuts [optional g] vs s ↔
    vs = [none] ∧ s = [] ∨
      ∃ v, g.token.marker.Admits v ∧ vs = [some v] ∧ s = g.before ++ (v ++ g.after) := by
  constructor
  · intro h
    cases h with
    | present hv h =>
      cases h
      exact .inr ⟨_, hv, rfl, by rw [List.append_nil]⟩
    | absent h =>
      cases h
      exact .inl ⟨rfl, rfl⟩
  · rintro (⟨rfl, rfl⟩ | ⟨v, hv, rfl, rfl⟩)
    · exact .absent .nil
    · have := Cuts.present hv Cuts.nil
      rwa [List.append_nil] at this

section Unique

variable (hgroups : groups front = []) (hsep : Separated front)
  (hnarrow : ∀ t ∈ tokens front, t.marker ≠ .wildcard) (hslash : '/' ∈ g.before)
  (hafter : g.after = [])

include hgroups hnarrow

/-- Two texts that are cut along pieces without groups have the same slashes. -/
lemma count_slash_eq {s' : List Char} (h : Cuts front vs s) (h' : Cuts front ws s') :
    s.count '/' = s'.count '/' := by
  rw [count_slash h hgroups, count_slash h' hgroups,
    List.count_eq_zero.mpr (slash_not_mem_taken h hnarrow),
    List.count_eq_zero.mpr (slash_not_mem_taken h' hnarrow)]

lemma cut_eq_of_narrow (h : Cuts front vs s) (h' : Cuts front ws s) (hsep : Separated front) :
    vs = ws :=
  cut_eq_of_taken h h' hgroups hsep (slash_not_mem_taken h' hnarrow)

include hsep hslash

/-- A text that is cut along the pieces in front has no slash left for the group. -/
lemma cut_of_left_out (h : Cuts front ws s) (hvs : Cuts (front ++ [optional g]) vs s) :
    vs = ws ++ [none] := by
  obtain ⟨vs₁, vs₂, s₁, s₂, rfl, rfl, h₁, h₂⟩ := cuts_append_iff.mp hvs
  rcases cuts_optional_nil.mp h₂ with ⟨rfl, rfl⟩ | ⟨v, hv, rfl, rfl⟩
  · rw [List.append_nil] at h
    rw [cut_eq_of_narrow hgroups hnarrow h₁ h hsep]
  · have hcount := count_slash_eq hgroups hnarrow h h₁
    have hpos := List.count_pos_iff.mpr hslash
    rw [List.count_append, List.count_append] at hcount
    omega

include hafter

/-- In a text with the group at its end, the last slash of the group tells where its parameter
begins. -/
lemma cut_of_written (h : Cuts front ws s) (hwild : g.token.marker ≠ .wildcard)
    (hv : g.token.marker.Admits v)
    (hvs : Cuts (front ++ [optional g]) vs (s ++ (g.before ++ v))) : vs = ws ++ [some v] := by
  obtain ⟨vs₁, vs₂, s₁, s₂, rfl, hs, h₁, h₂⟩ := cuts_append_iff.mp hvs
  rcases cuts_optional_nil.mp h₂ with ⟨rfl, rfl⟩ | ⟨w, hw, rfl, rfl⟩
  · rw [List.append_nil] at hs
    have hcount := count_slash_eq hgroups hnarrow h (hs ▸ h₁)
    have hpos := List.count_pos_iff.mpr hslash
    rw [List.count_append, List.count_append] at hcount
    omega
  · rw [hafter, List.append_nil] at hs
    -- read from behind, both parameters end at the same slash
    have hreverse := congrArg List.reverse hs
    rw [List.reverse_append, List.reverse_append, List.reverse_append, List.reverse_append,
      List.append_assoc, List.append_assoc] at hreverse
    have hvw : v.reverse = w.reverse :=
      append_cancel_of_slash (by simpa using Marker.slash_not_mem hv hwild)
        (by simpa using Marker.slash_not_mem hw hwild) (by simpa using hslash) hreverse
    rw [List.reverse_inj.mp hvw] at hs
    rw [List.reverse_inj.mp hvw]
    have hsame : s = s₁ := List.append_cancel_right hs
    subst hsame
    rw [cut_eq_of_narrow hgroups hnarrow h₁ h hsep]

end Unique

lemma written_ne_nil {value : Token → List Char} (hgroups : groups front = [])
    (hvalue : ∀ t ∈ tokens front, value t ≠ []) (h : front.flatMap text ≠ []) :
    front.flatMap (written value) ≠ [] := by
  have hempty : ∀ p ∈ front, written value p = [] → text p = [] :=
    forall_of_groups_eq_nil hgroups (fun _ => id) fun t ht hnil => absurd hnil (hvalue t ht)
  intro hnil
  rw [List.flatMap_eq_nil_iff] at hnil
  exact h (List.flatMap_eq_nil_iff.mpr fun p hp => hempty p hp (hnil p hp))

end Piece

/-- Templates with a group at the end: there is a slash in front of its parameter and between any
two of the parameters before, none of which is a wildcard or has a pattern of its own, and nothing
behind its parameter. The text before the group is not empty and does not end with a slash. -/
structure Template.EndsInGroup (t : Template) (front : List Piece) (g : OptionalGroup) :
    Prop where
  pieces : t.pieces = front ++ [.optional g]
  groups : Piece.groups front = []
  separated : Piece.Separated front
  slash : '/' ∈ g.before
  after : g.after = []
  narrow : ∀ k ∈ t.tokens, '|' ∉ k.body ∧ k.marker ≠ .wildcard
  backslash : '\\' ∉ t.text
  brackets : t.text.count '<' = t.tokens.length
  front_ne_nil : front.flatMap Piece.text ≠ []
  last : (front.flatMap Piece.text).getLast? ≠ some '/'

namespace Route

variable {r : Route} {params : Params} {front : List Piece} {g : OptionalGroup} {d : String}

/-! ### What is taken out of the two URLs -/

/-- Without overrides a captured text counts, or else the default. -/
lemma rankedValue?_get (hover : r.overrideKeys .get = []) (captured : List (String × String))
    (k : String) : r.rankedValue? .get captured k =
      (OrderedMap.findIn k captured).or (r.defaults.get? k) := by
  have hnone : ((r.overridesLike? Method.get.text).getD ∅).toList = [] :=
    List.map_eq_nil_iff.mp hover
  rw [rankedValue?, sources_of_get rfl, hnone]
  simp only [List.findSome?_cons, List.findSome?_nil, OrderedMap.findIn_nil]
  rcases OrderedMap.findIn k captured with _ | v
  · rw [Option.none_or, OrderedMap.get?]
    rcases OrderedMap.findIn k r.defaults.toList with _ | v <;> rfl
  · rfl

/-- A parameter with a default that is captured on top of everything else gets its value, in the
place where its default was. -/
lemma Merged.insert {captures captures' : Captures} {out out' : Params} {name text : String}
    (hm : r.Merged .get captures out) (hm' : r.Merged .get captures' out')
    (htexts : captures'.texts = captures.texts ++ [(name, text)])
    (hfresh : name ∉ captures.texts.map Prod.fst) (hover : r.overrideKeys .get = [])
    (hdefault : r.defaults.get? name = some d) :
    out.get? name = some (Percent.decode d) ∧ out' = out.insert name (Percent.decode text) := by
  have hget : out.get? name = some (Percent.decode d) := by
    rw [hm.get?, rankedValue?_get hover, OrderedMap.findIn_eq_none hfresh, hdefault]
    rfl
  have hmem : ∀ {m : Params}, (m.get? name).isSome = true → name ∈ m.keys := fun h =>
    (OrderedMap.isSome_findIn name _).mp h
  have hdefaultKey : name ∈ r.defaults.keys := hmem (by rw [hdefault]; rfl)
  refine ⟨hget, OrderedMap.eq_of_get? ?_ fun k => ?_⟩
  · rw [OrderedMap.keys_insert, if_pos (hmem (by rw [hget]; rfl)), hm'.keys, hm.keys]
    have hsome : ∀ k, (r.rankedValue? .get captures'.texts k).isSome =
        (r.rankedValue? .get captures.texts k).isSome := fun k => by
      rw [Bool.eq_iff_iff, isSome_rankedValue?, isSome_rankedValue?, htexts, List.map_append,
        List.mem_append, List.map_singleton, List.mem_singleton]
      constructor
      · rintro ((h | rfl) | h | h)
        · exact .inl h
        · exact .inr (.inr hdefaultKey)
        · exact .inr (.inl h)
        · exact .inr (.inr h)
      · rintro (h | h)
        · exact .inl (.inl h)
        · exact .inr h
    simp only [hsome]
  · rw [hm'.get?, OrderedMap.get?_insert, hm.get?, rankedValue?_get hover, rankedValue?_get hover,
      htexts, OrderedMap.findIn_append, OrderedMap.findIn_cons, OrderedMap.findIn_nil]
    by_cases hk : name = k
    · subst hk
      rw [OrderedMap.findIn_eq_none hfresh, if_pos rfl, if_pos rfl]
      rfl
    · rw [if_neg hk, if_neg hk, Option.or_none]

/-- The text before the group with the values written in. -/
def frontText (r : Route) (front : List Piece) (params : Params) : List Char :=
  front.flatMap (Piece.written (r.encodedValue params))

lemma texts_append (c c' : Captures) : Captures.texts (c ++ c') = c.texts ++ c'.texts :=
  List.filterMap_append

/-! ### The two URLs -/

section EndsInGroup

variable (ht : r.template.EndsInGroup front g)

include ht

lemma tokens_endsInGroup : r.template.tokens = Piece.tokens front ++ [g.token] := by
  rw [Template.tokens, ht.pieces, Piece.tokens_append]
  rfl

lemma flatMap_rendered_endsInGroup :
    r.template.pieces.flatMap (r.rendered params) =
      r.frontText front params ++ r.rendered params (.optional g) := by
  rw [ht.pieces, List.flatMap_append, List.flatMap_singleton, flatMap_rendered ht.groups, frontText]

lemma narrow_front : ∀ t ∈ Piece.tokens front, t.marker ≠ .wildcard := fun t hm =>
  (ht.narrow t (tokens_endsInGroup ht ▸ List.mem_append_left _ hm)).2

variable (hr : r.Built)

include hr

lemma name_not_mem_front : g.token.name ∉ (Piece.tokens front).map Token.name := by
  have hnodup := hr.wellFormed.nodup_names
  rw [tokens_endsInGroup ht, List.map_append] at hnodup
  exact fun h => List.disjoint_of_nodup_append hnodup h List.mem_cons_self

lemma isStatic_endsInGroup : r.template.isStatic = false := by
  rw [Template.isStatic, Option.isNone_eq_false_iff, Option.isSome_iff_ne_none]
  intro hnone
  have htokens := hr.wellFormed.tokens_of_static hnone
  rw [tokens_endsInGroup ht] at htokens
  simp at htokens

section Values

variable (hvalues : ∀ t ∈ Piece.tokens front, ∃ v, r.value? params t.name = some v ∧
  t.marker.Admits (Percent.encode v).toList)

include hvalues

omit ht hr in
lemma admits_front : ∀ t ∈ Piece.tokens front, t.marker.Admits (r.encodedValue params t) := by
  intro t hm
  obtain ⟨v, hv, hadmits⟩ := hvalues t hm
  rwa [encodedValue_eq hv, ← Percent.toList_encode]

omit ht hr in
lemma cuts_frontText : Piece.Cuts front
    ((Piece.tokens front).map fun t => some (r.encodedValue params t))
    (r.frontText front params) :=
  Piece.cuts_written (admits_front hvalues)

lemma generate_endsInGroup : r.generate params =
    .ok (String.ofList (r.frontText front params ++ r.rendered params (.optional g))) := by
  have hnone : r.template.pieces.findSome? (r.missingIn? params) = none := by
    refine findSome?_missingIn?_eq_none.mpr fun t htoken => ?_
    rw [ht.pieces, List.mem_append, List.mem_singleton] at htoken
    obtain ⟨v, hv, -⟩ := hvalues t (List.mem_filterMap.mpr ⟨_, htoken.resolve_right nofun, rfl⟩)
    rw [hv]
    rfl
  rw [generate_eq_rendered hr ht.brackets (isStatic_endsInGroup ht hr), hnone,
    filter_rendered hr ht.backslash, flatMap_rendered_endsInGroup ht]

lemma trimmed_frontText : r.frontText front params ≠ [] ∧
    Text.trimSlashes (r.frontText front params) = r.frontText front params := by
  have hvalue : ∀ t ∈ Piece.tokens front,
      r.encodedValue params t ≠ [] ∧ '/' ∉ r.encodedValue params t := fun t hm =>
    ⟨(admits_front hvalues t hm).1 (narrow_front ht t hm),
      not_mem_encodedValue (by decide) (by decide) t⟩
  have hfirst : (front.flatMap Piece.text).head? ≠ some '/' := by
    obtain ⟨s, hs⟩ := hr.wellFormed.trimmed
    have hhead := Text.head?_trimSlashes s
    rw [← hs, ← hr.wellFormed.text_eq, ht.pieces, List.flatMap_append, List.head?_append] at hhead
    rcases hx : (front.flatMap Piece.text).head? with _ | d
    · nofun
    · rwa [hx, Option.some_or] at hhead
  have htrim : Text.trimSlashes (front.flatMap Piece.text) = front.flatMap Piece.text :=
    Text.trimSlashes_eq_self hfirst (by rw [List.head?_reverse]; exact ht.last)
  exact ⟨Piece.written_ne_nil ht.groups (fun t hm => (hvalue t hm).1) ht.front_ne_nil,
    Piece.trimSlashes_written ht.groups hvalue htrim.symm⟩

end Values

/-! ### The group left out, and written -/

lemma value?_insert_front {t : Token} (hm : t ∈ Piece.tokens front) :
    r.value? (params.insert g.token.name d) t.name = r.value? params t.name := by
  have hne : g.token.name ≠ t.name := fun e =>
    name_not_mem_front ht hr (e ▸ List.mem_map_of_mem hm)
  rw [value?, OrderedMap.get?_insert, if_neg hne, value?]

lemma frontText_insert :
    r.frontText front (params.insert g.token.name d) = r.frontText front params := by
  refine List.flatMap_congr
    (Piece.forall_of_groups_eq_nil ht.groups (fun _ => rfl) fun t hm => ?_)
  rw [Piece.written, Piece.written, encodedValue, encodedValue, value?_insert_front ht hr hm]

lemma generate_left_out (hnone : params.get? g.token.name = none)
    (hvalues : ∀ t ∈ Piece.tokens front, ∃ v, r.value? params t.name = some v ∧
      t.marker.Admits (Percent.encode v).toList) :
    r.generate params = .ok (String.ofList (r.frontText front params)) := by
  rw [generate_endsInGroup ht hr hvalues, rendered, hnone, if_neg (by simp), List.append_nil]

lemma generate_written (hvalues : ∀ t ∈ Piece.tokens front, ∃ v, r.value? params t.name = some v ∧
      t.marker.Admits (Percent.encode v).toList) :
    r.generate (params.insert g.token.name d) = .ok (String.ofList
      (r.frontText front params ++ (g.before ++ (Percent.encode d).toList))) := by
  have hgiven : (params.insert g.token.name d).get? g.token.name = some d := by
    rw [OrderedMap.get?_insert, if_pos rfl]
  have hvalues' : ∀ t ∈ Piece.tokens front, ∃ v,
      r.value? (params.insert g.token.name d) t.name = some v ∧
        t.marker.Admits (Percent.encode v).toList := fun t hm => by
    rw [value?_insert_front ht hr hm]
    exact hvalues t hm
  rw [generate_endsInGroup ht hr hvalues', frontText_insert ht hr, rendered, hgiven,
    if_pos Option.isSome_some, encodedValue_eq (value?_of_given hgiven), ht.after, List.append_nil,
    Percent.toList_encode]

lemma extract_of_only_cut {vs : Piece.Cut} {w : List Char}
    (h : Piece.Cuts (front ++ [Piece.optional g]) vs w)
    (hunique : ∀ vs', Piece.Cuts (front ++ [Piece.optional g]) vs' w → vs' = vs)
    (htrim : Text.trimSlashes w = w) :
    ∃ out, r.extract .get (String.ofList w) = .ok (some out) ∧
      r.Merged .get (capturesOf r.template.tokens vs) out := by
  have hgreedy := h.greedyCut hunique
  have hpath : Text.trimSlashes (String.ofList w).toList = w := by
    rw [String.toList_ofList, htrim]
  rw [← ht.pieces, ← hpath] at hgreedy
  exact (extract_of_greedyCut hr (fun t hm => Token.kind_of_not_mem (ht.narrow t hm).1)
    hgreedy .get).2

section Extract

variable {ws : Piece.Cut} {w v : List Char} (hcuts : Piece.Cuts front ws w)
  (hne : w ≠ []) (htrim : Text.trimSlashes w = w)

include hcuts htrim

lemma extract_left_out : ∃ out, r.extract .get (String.ofList w) = .ok (some out) ∧
    r.Merged .get (capturesOf r.template.tokens (ws ++ [none])) out := by
  have hfits : Piece.Cuts (front ++ [Piece.optional g]) (ws ++ [none]) w :=
    Piece.cuts_append_iff.mpr ⟨ws, [none], w, [], rfl, (List.append_nil w).symm, hcuts,
      .absent .nil⟩
  exact extract_of_only_cut ht hr hfits (fun vs hvs => Piece.cut_of_left_out ht.groups ht.separated
    (narrow_front ht) ht.slash hcuts hvs) htrim

include hne

lemma extract_written (hv : g.token.marker.Admits v) (hslash : '/' ∉ v) : ∃ out,
    r.extract .get (String.ofList (w ++ (g.before ++ v))) = .ok (some out) ∧
      r.Merged .get (capturesOf r.template.tokens (ws ++ [some v])) out := by
  have hwild : g.token.marker ≠ .wildcard :=
    (ht.narrow _ (tokens_endsInGroup ht ▸ List.mem_append_right _ List.mem_cons_self)).2
  have hfits : Piece.Cuts (front ++ [Piece.optional g]) (ws ++ [some v]) (w ++ (g.before ++ v)) := by
    refine Piece.cuts_append_iff.mpr ⟨ws, [some v], w, g.before ++ v, rfl, rfl, hcuts, ?_⟩
    have hpresent := Piece.Cuts.present hv Piece.Cuts.nil
    rwa [ht.after, List.append_nil, List.append_nil] at hpresent
  have hv' := hv.1 hwild
  have htrim' : Text.trimSlashes (w ++ (g.before ++ v)) = w ++ (g.before ++ v) := by
    refine Text.trimSlashes_append hne (by simp [hv']) ?_ ?_
    · rw [← htrim]
      exact Text.head?_trimSlashes w
    · rw [List.reverse_append, List.head?_append, List.head?_reverse]
      rcases hl : v.getLast? with _ | c
      · exact absurd (List.getLast?_eq_none_iff.mp hl) hv'
      · rw [Option.some_or]
        rintro ⟨⟩
        exact hslash (List.mem_of_getLast? hl)
  exact extract_of_only_cut ht hr hfits (fun vs hvs => Piece.cut_of_written ht.groups ht.separated
    (narrow_front ht) ht.slash ht.after hcuts hwild hv hvs) htrim'

end Extract

omit hr in
lemma texts_endsInGroup (value : Token → List Char) (x : Option (List Char)) :
    Captures.texts (capturesOf r.template.tokens
      ((Piece.tokens front).map (fun t => some (value t)) ++ [x])) =
      (Piece.tokens front).map (fun t => (t.name, String.ofList (value t))) ++
        (x.map fun v => (g.token.name, String.ofList v)).toList := by
  rw [tokens_endsInGroup ht, capturesOf, List.map_append, List.zip_append (by simp), texts_append,
    ← texts_capturesOf]
  rcases x with _ | v <;> rfl

end EndsInGroup

/-- **A default left out.** Let a template end in a group, with a default for its parameter and no
overrides. The URL without the group and the URL with the default written into the group both match,
and they give the same parameters in the same order, apart from the parameter of the group: it has
the decoded default if the group is left out, and the default itself if it was written. So the
parameters are the same just for a default that decoding leaves alone. -/
theorem extract_of_default_left_out (hr : r.Built) (ht : r.template.EndsInGroup front g)
    (hdefault : r.defaults.get? g.token.name = some d) (hover : r.overrideKeys .get = [])
    (hnone : params.get? g.token.name = none)
    (hvalues : ∀ t ∈ Piece.tokens front, ∃ v, r.value? params t.name = some v ∧
      t.marker.Admits (Percent.encode v).toList)
    (hd : g.token.marker.Admits (Percent.encode d).toList) :
    ∃ url url' out, r.generate params = .ok url ∧
      r.generate (params.insert g.token.name d) = .ok url' ∧
      r.extract .get url = .ok (some out) ∧
      r.extract .get url' = .ok (some (out.insert g.token.name d)) ∧
      out.get? g.token.name = some (Percent.decode d) ∧
      (r.extract .get url = r.extract .get url' ↔ Percent.decode d = d) := by
  obtain ⟨hne, htrim⟩ := trimmed_frontText ht hr hvalues
  have hcuts := cuts_frontText hvalues
  obtain ⟨out, hout, hmerged⟩ := extract_left_out ht hr hcuts htrim
  obtain ⟨out', hout', hmerged'⟩ := extract_written ht hr hcuts hne htrim hd
    (Percent.toList_encode d ▸ Percent.not_mem_encodeChars (by decide) (by decide) _)
  have htexts := texts_endsInGroup ht (r.encodedValue params) none
  rw [Option.map_none, Option.toList_none, List.append_nil] at htexts
  obtain ⟨hget, rfl⟩ := hmerged.insert hmerged'
    (by rw [texts_endsInGroup ht, htexts]; rfl)
    (by rw [htexts, List.map_map]; exact name_not_mem_front ht hr) hover hdefault
  rw [String.ofList_toList, Percent.decode_encode] at hout'
  refine ⟨_, _, out, generate_left_out ht hr hnone hvalues, generate_written ht hr hvalues, hout,
    hout', hget, ?_⟩
  rw [hout, hout', Except.ok.injEq, Option.some.injEq]
  constructor
  · intro h
    rw [h, OrderedMap.get?_insert, if_pos rfl, Option.some.injEq] at hget
    exact hget.symm
  · intro h
    rw [OrderedMap.insert_eq_self (by rw [hget, h])]

lemma compiles_manual :
    (Template.compile "/manual/<:page>/v<#major>(/at/<:revision>)".toList).toOption.isSome =
      true := by
  decide +kernel

/-- A route whose default has a plus sign, which is a blank once it is decoded. -/
def manual : Route :=
  (ofTemplate "manual"
    ((Template.compile "/manual/<:page>/v<#major>(/at/<:revision>)".toList).toOption.get
      compiles_manual)).applyAll
    [.defaults [("revision", "a+b"), ("major", "1")], .overrides "put" [("page", "x")]]

theorem extract_of_default_left_out_manual :
    let front : List Piece := [.literal "manual/".toList, .required ⟨.generic, "page".toList⟩,
      .literal "/v".toList, .required ⟨.numeric, "major".toList⟩]
    let g : OptionalGroup := ⟨"/at/".toList, ⟨.generic, "revision".toList⟩, []⟩
    let params : Params := .ofList [("page", "Zoë + 1")]
    manual.Built ∧ manual.template.EndsInGroup front g ∧
      manual.defaults.get? "revision" = some "a+b" ∧ manual.overrideKeys .get = [] ∧
      params.get? "revision" = none ∧
      (∀ t ∈ Piece.tokens front, ∃ v, manual.value? params t.name = some v ∧
        t.marker.Admits (Percent.encode v).toList) ∧
      g.token.marker.Admits (Percent.encode "a+b").toList ∧
      ∃ url url' out, manual.generate params = .ok url ∧
        manual.generate (params.insert "revision" "a+b") = .ok url' ∧
        manual.extract .get url = .ok (some out) ∧
        manual.extract .get url' = .ok (some (out.insert "revision" "a+b")) ∧
        out.get? "revision" = some (Percent.decode "a+b") ∧
        (manual.extract .get url = manual.extract .get url' ↔ Percent.decode "a+b" = "a+b") := by
  intro front g params
  have hbuilt : manual.Built :=
    (Built.new (new_of_compile "manual" (Template.compile_eq_ok_get compiles_manual))).applyAll _
  have hall : manual.template.pieces = front ++ [.optional g] ∧
      (∀ t ∈ manual.template.tokens, '|' ∉ t.body ∧ t.marker ≠ .wildcard) ∧
      '\\' ∉ manual.template.text ∧
      manual.template.text.count '<' = manual.template.tokens.length ∧
      manual.defaults.get? "revision" = some "a+b" ∧ manual.overrideKeys .get = [] ∧
      ∀ t ∈ Piece.tokens front, ((manual.value? params t.name).any fun v =>
        decide (t.marker.Admits (Percent.encode v).toList)) = true := by
    decide +kernel
  obtain ⟨hpieces, hnarrow, hbackslash, hbrackets, hdefault, hover, hcheck⟩ := hall
  have hends : manual.template.EndsInGroup front g :=
    { pieces := hpieces, groups := rfl, separated := by decide, slash := by decide, after := rfl,
      narrow := hnarrow, backslash := hbackslash, brackets := hbrackets,
      front_ne_nil := by decide, last := by decide }
  have hvalues : ∀ t ∈ Piece.tokens front, ∃ v, manual.value? params t.name = some v ∧
      t.marker.Admits (Percent.encode v).toList := fun t ht => by
    obtain ⟨v, hv, hadmits⟩ := (Option.any_eq_true _ _).mp (hcheck t ht)
    exact ⟨v, hv, of_decide_eq_true hadmits⟩
  have hd : g.token.marker.Admits (Percent.encode "a+b").toList := by decide
  exact ⟨hbuilt, hends, hdefault, hover, rfl, hvalues, hd,
    extract_of_default_left_out hbuilt hends hdefault hover rfl hvalues hd⟩

/-- A default with a plus sign is read in two ways; and where the text before the group ends with a
slash, this is an outer slash once the group is left out, and the path does not match. -/
theorem default_left_out_differs :
    let outcomes := fun (r : Route) (params : Params) =>
      let r := r.applyAll [.defaults [("o", "a+b")]]
      ((r.generate params).bind (r.extract .get),
        (r.generate (params.insert "o" "a+b")).bind (r.extract .get))
    (new "wiki" "/wiki/<:page>(/<:o>)").map (outcomes · (.ofList [("page", "x")])) =
        .ok (.ok (some (.ofList [("page", "x"), ("o", "a b")])),
          .ok (some (.ofList [("page", "x"), ("o", "a+b")]))) ∧
      (new "ended" "/a/(/<:o>)").map (outcomes · ∅) =
        .ok (.ok none, .ok (some (.ofList [("o", "a+b")]))) := by
  decide +kernel

end Route

end Signpost
