import Signpost.Proofs.Route.SegmentUrl
import Signpost.Proofs.Table.Default

/-!
URLs of the default table. The routes are told apart by the number of segments and by whether the
last one is a number, and a URL is given back to the route that made it, unless that is the route of
an action and the action is a number: a URL with such an action is one of an item.
-/

namespace Signpost

namespace RouteTable

variable {s : RouteSpec} {r : Route} {ts : List Token} {router : Router} {params : Params}

lemma segment_eq {t : Token} {v : String} (h : params.get? t.name = some v) :
    String.ofList (r.encodedValue params t) = Percent.encode v := by
  rw [Route.encodedValue_eq (Route.value?_of_given h)]
  rfl

lemma isWord_encode {v : String} (h : Marker.generic.Carries v) : IsWord (Percent.encode v) := by
  have := h.admits
  rwa [← Percent.toList_encode] at this

lemma isNumber_encode_iff {v : String} :
    IsNumber (Percent.encode v) ↔ Marker.numeric.Carries v := by
  constructor
  · intro h
    have hdigits : ∀ c ∈ (Percent.encode v).toList, '0' ≤ c ∧ c ≤ '9' := by
      simpa [Marker.admitsChar] using h.2
    have hv : v = Percent.encode v := by
      have hself : Percent.decode (Percent.encode v) = Percent.encode v :=
        Percent.decode_eq_self (List.all_eq_true.mpr fun c hc => by
          simp [Percent.isUnreserved, hdigits c hc])
      rwa [Percent.decode_encode] at hself
    refine ⟨fun he => h.1 (by decide) ?_, fun c hc => ?_⟩
    · rw [← hv, he]
      rfl
    · rw [hv] at hc
      simp [Marker.carriesChar, hdigits c hc]
  · intro h
    have := h.admits
    rwa [← Percent.toList_encode] at this

lemma segmented_of_default (hs : s ∈ default.routes) (h : s.Describes r) :
    r.name = "module-item" ∧ r.Segmented [moduleToken, itemToken] ∨
      r.name = "module-action-item" ∧ r.Segmented [moduleToken, actionToken, itemToken] ∨
      r.name = "module-action" ∧ r.Segmented [moduleToken, actionToken] ∨
      r.name = "module" ∧ r.Segmented [moduleToken] ∨ r.name = "home" ∧ r.Segmented [] := by
  have hpieces := pieces_default
  simp only [default, List.map_cons, List.map_nil, List.cons.injEq, and_true] at hpieces
  obtain ⟨hpitem, hpactionItem, hpaction, hpmodule, hphome⟩ := hpieces
  rw [h.name_eq]
  simp only [default, List.mem_cons, List.not_mem_nil, or_false] at hs
  rcases hs with rfl | rfl | rfl | rfl | rfl
  · exact .inl ⟨rfl, h.segmented _ hpitem (by decide)⟩
  · exact .inr (.inl ⟨rfl, h.segmented _ hpactionItem (by decide)⟩)
  · exact .inr (.inr (.inl ⟨rfl, h.segmented _ hpaction (by decide)⟩))
  · exact .inr (.inr (.inr (.inl ⟨rfl, h.segmented _ hpmodule (by decide)⟩)))
  · exact .inr (.inr (.inr (.inr ⟨rfl, h.segmented _ hphome (by decide)⟩)))

lemma invertible_of_default (hs : s ∈ default.routes) (h : s.Describes r)
    (hne : r.template.tokens ≠ []) : r.template.Invertible := by
  have hall : ∀ s ∈ default.routes,
      let text := Text.trimSlashes s.path.toList
      let pieces := Piece.ofTemplate text
      Piece.groups pieces = [] ∧ (∀ t ∈ Piece.tokens pieces, '|' ∉ t.body) ∧ '\\' ∉ text ∧
        text.count '<' = (Piece.tokens pieces).length ∧ Piece.Separated pieces := by
    decide +kernel
  obtain ⟨hwell, htext⟩ := Template.wellFormed_of_compile h.compile
  obtain ⟨hgroups, hplain, hbackslash, hbrackets, hseparated⟩ := hall s hs
  rw [← htext, ← hwell.pieces] at hgroups hplain hbrackets hseparated
  rw [← htext] at hbackslash
  refine ⟨?_, hgroups, hplain, hbackslash, hbrackets, hseparated⟩
  rw [Template.isStatic, Option.isNone_eq_false_iff, Option.isSome_iff_ne_none]
  exact fun hnone => hne (hwell.tokens_of_static hnone)

lemma url_of_default (h : Router.ofTable default = .ok router) (hr : r ∈ router.routes)
    (hts : r.Segmented ts)
    (hvalues : ∀ t ∈ ts, ∃ v, params.get? t.name = some v ∧ t.marker.Carries v) :
    ∃ url, router.url r.name params = .ok url ∧
      segments url = ts.map fun t => Percent.encode ((params.get? t.name).getD "") := by
  obtain ⟨s, hs, hd⟩ := Router.exists_describes h nodup_names_default hr
  have hused : ∀ t ∈ r.template.tokens, ∃ v, r.value? params t.name = some v ∧
      t.marker.Carries v := fun t ht => by
    obtain ⟨v, hv, hc⟩ := hvalues t (hts.tokens_eq ▸ ht)
    exact ⟨v, Route.value?_of_given hv, hc⟩
  obtain ⟨url, hurl, hsegments⟩ := hts.segments_generate hused fun hne =>
    invertible_of_default hs hd (hts.tokens_eq ▸ hne)
  refine ⟨url, ?_, hsegments.trans (List.map_congr_left fun t ht => ?_)⟩
  · rw [Router.url, Router.find?_eq_some_iff.mpr ⟨hr, rfl⟩]
    exact hurl
  · obtain ⟨v, hv, -⟩ := hvalues t ht
    rw [segment_eq hv, hv]
    rfl

section Answers

variable (h : Router.ofTable default = .ok router) {url m a i : String}

include h

lemma matchRequest_item (hs : segments url = [Percent.encode m, Percent.encode i])
    (hm : Marker.generic.Carries m) (hi : Marker.numeric.Carries i) :
    router.matchRequest .get url = .ok ⟨"module-item",
      .ofList [("module", m), ("item", i), ("action", "view"), ("format", "html")]⟩ := by
  have hnumber := isNumber_encode_iff.mpr hi
  have hview : itemAction .get = "view" := by decide
  simp [matchRequest_of_default h, hs, defaultMatch?, isWord_encode hm, hnumber, hnumber.generic,
    Percent.decode_encode, hview]

lemma matchRequest_actionItem
    (hs : segments url = [Percent.encode m, Percent.encode a, Percent.encode i])
    (hm : Marker.generic.Carries m) (ha : Marker.generic.Carries a)
    (hi : Marker.numeric.Carries i) :
    router.matchRequest .get url = .ok ⟨"module-action-item",
      .ofList [("module", m), ("action", a), ("item", i), ("format", "html")]⟩ := by
  have hnumber := isNumber_encode_iff.mpr hi
  simp [matchRequest_of_default h, hs, defaultMatch?, isWord_encode hm, isWord_encode ha, hnumber,
    hnumber.generic, Percent.decode_encode]

lemma matchRequest_action (hs : segments url = [Percent.encode m, Percent.encode a])
    (hm : Marker.generic.Carries m) (ha : Marker.generic.Carries a)
    (hnumber : ¬ Marker.numeric.Carries a) :
    router.matchRequest .get url = .ok ⟨"module-action",
      .ofList [("module", m), ("action", a), ("format", "html")]⟩ := by
  have hnot := mt isNumber_encode_iff.mp hnumber
  simp [matchRequest_of_default h, hs, defaultMatch?, isWord_encode hm, isWord_encode ha, hnot,
    Percent.decode_encode]

lemma matchRequest_module (hs : segments url = [Percent.encode m])
    (hm : Marker.generic.Carries m) :
    router.matchRequest .get url = .ok ⟨"module",
      .ofList [("module", m), ("action", "index"), ("format", "html")]⟩ := by
  simp [matchRequest_of_default h, hs, defaultMatch?, isWord_encode hm, Percent.decode_encode]

lemma matchRequest_home (hs : segments url = []) :
    router.matchRequest .get url = .ok ⟨"home",
      .ofList [("module", "Home"), ("action", "index"), ("format", "html")]⟩ := by
  simp [matchRequest_of_default h, hs, defaultMatch?]

end Answers

lemma exists_action (h : Router.ofTable default = .ok router) :
    ∃ r ∈ router.routes, r.name = "module-action" ∧ r.Segmented [moduleToken, actionToken] := by
  have hmem : "module-action" ∈ router.names := by
    rw [Router.names_ofTable h nodup_names_default]
    decide
  obtain ⟨r, hr, hname⟩ := List.mem_map.mp hmem
  obtain ⟨s, hs, hd⟩ := Router.exists_describes h nodup_names_default hr
  have hts := segmented_of_default hs hd
  rw [hname] at hts
  exact ⟨r, hr, hname, by simpa using hts⟩

/-- **Round trip of the default table.** A URL that a default route makes of values of the kinds of
its parameters is answered by this route again, with these values, except that of the route of an
action whose action is a number. -/
theorem default_urls_round_trip :
    ∃ router, Router.ofTable default = .ok router ∧
      router.names = default.routes.map RouteSpec.name ∧
      ∀ r ∈ router.routes, ∀ params : Params,
        (∀ t ∈ r.template.tokens, ∃ v, params.get? t.name = some v ∧ t.marker.Carries v) →
        (r.name = "module-action" → ∀ v, params.get? "action" = some v →
          ¬ Marker.numeric.Carries v) →
        ∃ url m, router.url r.name params = .ok url ∧ router.matchRequest .get url = .ok m ∧
          m.routeName = r.name ∧
          ∀ t ∈ r.template.tokens, m.params.get? t.name = params.get? t.name := by
  obtain ⟨router, h⟩ := Router.exists_addSpecs new_of_default ∅
  refine ⟨router, h, Router.names_ofTable h nodup_names_default,
    fun r hr params hvalues haction => ?_⟩
  obtain ⟨s, hs, hd⟩ := Router.exists_describes h nodup_names_default hr
  rcases segmented_of_default hs hd with ⟨hname, hts⟩ | ⟨hname, hts⟩ | ⟨hname, hts⟩ |
    ⟨hname, hts⟩ | ⟨hname, hts⟩
  -- the segments of the URL decide about the route, whatever the values are
  all_goals
    rw [hts.tokens_eq] at hvalues ⊢
    obtain ⟨url, hurl, hsegments⟩ := url_of_default h hr hts hvalues
  · simp only [List.forall_mem_cons] at hvalues ⊢
    obtain ⟨⟨m, hm, hmc⟩, ⟨i, hi, hic⟩, -⟩ := hvalues
    simp only [List.map_cons, List.map_nil, hm, hi, Option.getD_some] at hsegments
    refine ⟨url, _, hurl, matchRequest_item h hsegments hmc hic, hname.symm, ?_⟩
    rw [hm, hi]
    exact ⟨rfl, rfl, by simp⟩
  · simp only [List.forall_mem_cons] at hvalues ⊢
    obtain ⟨⟨m, hm, hmc⟩, ⟨a, ha, hac⟩, ⟨i, hi, hic⟩, -⟩ := hvalues
    simp only [List.map_cons, List.map_nil, hm, ha, hi, Option.getD_some] at hsegments
    refine ⟨url, _, hurl, matchRequest_actionItem h hsegments hmc hac hic, hname.symm, ?_⟩
    rw [hm, ha, hi]
    exact ⟨rfl, rfl, rfl, by simp⟩
  · simp only [List.forall_mem_cons] at hvalues ⊢
    obtain ⟨⟨m, hm, hmc⟩, ⟨a, ha, hac⟩, -⟩ := hvalues
    simp only [List.map_cons, List.map_nil, hm, ha, Option.getD_some] at hsegments
    refine ⟨url, _, hurl, matchRequest_action h hsegments hmc hac (haction hname a ha),
      hname.symm, ?_⟩
    rw [hm, ha]
    exact ⟨rfl, rfl, by simp⟩
  · simp only [List.forall_mem_cons] at hvalues ⊢
    obtain ⟨⟨m, hm, hmc⟩, -⟩ := hvalues
    simp only [List.map_cons, List.map_nil, hm, Option.getD_some] at hsegments
    refine ⟨url, _, hurl, matchRequest_module h hsegments hmc, hname.symm, ?_⟩
    rw [hm]
    exact ⟨rfl, by simp⟩
  · exact ⟨url, _, hurl, matchRequest_home h hsegments, hname.symm, by simp⟩

theorem default_urls_round_trip_action :
    let params : Params := .ofList [("action", "24 h/7 %2F"), ("module", "Zoë")]
    ∃ router r, Router.ofTable default = .ok router ∧ r ∈ router.routes ∧
      r.name = "module-action" ∧
      (∀ t ∈ r.template.tokens, ∃ v, params.get? t.name = some v ∧ t.marker.Carries v) ∧
      (r.name = "module-action" → ∀ v, params.get? "action" = some v →
        ¬ Marker.numeric.Carries v) ∧
      ∃ url m, router.url r.name params = .ok url ∧ router.matchRequest .get url = .ok m ∧
        m.routeName = r.name ∧
        ∀ t ∈ r.template.tokens, m.params.get? t.name = params.get? t.name := by
  intro params
  obtain ⟨router, h, -, hall⟩ := default_urls_round_trip
  obtain ⟨r, hr, hname, hts⟩ := exists_action h
  have hvalues : ∀ t ∈ r.template.tokens, ∃ v, params.get? t.name = some v ∧
      t.marker.Carries v := by
    rw [hts.tokens_eq]
    simp only [List.forall_mem_cons]
    exact ⟨⟨"Zoë", rfl, by decide +kernel⟩, ⟨"24 h/7 %2F", rfl, by decide +kernel⟩, by simp⟩
  have haction : r.name = "module-action" → ∀ v, params.get? "action" = some v →
      ¬ Marker.numeric.Carries v := by
    rintro - v hv
    obtain rfl : "24 h/7 %2F" = v := Option.some.inj hv
    decide +kernel
  exact ⟨router, r, h, hr, hname, hvalues, haction, hall r hr params hvalues haction⟩

/-- A URL with a number for the action is not given back to its route. -/
theorem url_of_numbered_action :
    let params : Params := .ofList [("module", "users"), ("action", "42")]
    ∃ router r, Router.ofTable default = .ok router ∧ r ∈ router.routes ∧
      r.name = "module-action" ∧
      (∀ t ∈ r.template.tokens, ∃ v, params.get? t.name = some v ∧ t.marker.Carries v) ∧
      ∃ url, router.url r.name params = .ok url ∧
        router.matchRequest .get url = .ok ⟨"module-item", .ofList [("module", "users"),
          ("item", "42"), ("action", "view"), ("format", "html")]⟩ := by
  intro params
  obtain ⟨router, h⟩ := Router.exists_addSpecs new_of_default ∅
  obtain ⟨r, hr, hname, hts⟩ := exists_action h
  have hmodule : Marker.generic.Carries "users" := by decide +kernel
  have haction : Marker.generic.Carries "42" := by decide +kernel
  have hvalues : ∀ t ∈ [moduleToken, actionToken], ∃ v, params.get? t.name = some v ∧
      t.marker.Carries v := by
    simp only [List.forall_mem_cons]
    exact ⟨⟨"users", rfl, hmodule⟩, ⟨"42", rfl, haction⟩, by simp⟩
  obtain ⟨url, hurl, hsegments⟩ := url_of_default h hr hts hvalues
  exact ⟨router, r, h, hr, hname, hts.tokens_eq ▸ hvalues, url, hurl,
    matchRequest_item h hsegments hmodule (by decide +kernel)⟩

end RouteTable

end Signpost
