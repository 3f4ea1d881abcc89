import Signpost.Proofs.Route.Segments
import Signpost.Proofs.Table.Routes
import Signpost.Proofs.Text.Percent

/-!
What the routes of the default table make of a path. Only the segments of the path count: how many
there are, that each is a word, and whether the last of two or three is a number.
-/

namespace Signpost

open Percent (decode)

/-- Whether a segment can be a module or an action. -/
abbrev IsWord (s : String) : Prop := Marker.generic.Admits s.toList

/-- Whether a segment can be an item. -/
abbrev IsNumber (s : String) : Prop := Marker.numeric.Admits s.toList

/-- What is done with an item if the path does not tell. -/
def itemAction (method : Method) : String :=
  if Text.sameIgnoringCase "PUT" method.text then "put"
  else if Text.sameIgnoringCase "DELETE" method.text then "delete"
  else "view"

/-- The match that the default routes give to the segments of a path. -/
def defaultMatch? (method : Method) (segments : List String) : Option RouteMatch :=
  if ∀ s ∈ segments, IsWord s then
    match segments with
    | [] => some ⟨"home", .ofList [("module", "Home"), ("action", "index"), ("format", "html")]⟩
    | [m] =>
      some ⟨"module", .ofList [("module", decode m), ("action", "index"), ("format", "html")]⟩
    | [m, a] =>
      if IsNumber a then
        some ⟨"module-item", .ofList [("module", decode m), ("item", decode a),
          ("action", itemAction method), ("format", "html")]⟩
      else
        some ⟨"module-action", .ofList [("module", decode m), ("action", decode a),
          ("format", "html")]⟩
    | [m, a, i] =>
      if IsNumber i then
        some ⟨"module-action-item", .ofList [("module", decode m), ("action", decode a),
          ("item", decode i), ("format", "html")]⟩
      else none
    | _ => none
  else none

/-! ### Routes that specs describe -/

namespace RouteSpec.Describes

variable {s : RouteSpec} {r : Route} {ts : List Token}

lemma overrides_eq_empty (h : s.Describes r) (hm : s.methods = ∅) : r.overrides = ∅ := by
  obtain ⟨t, rfl⟩ := h.eq_applyAll
  have hsettings : s.settings = [.defaults s.defaults.toList] := by
    rw [settings, hm]
    rfl
  have happly : (Route.ofTemplate s.name t).applyAll s.settings =
      (Route.ofTemplate s.name t).setDefaults s.defaults.toList := by
    rw [hsettings]
    rfl
  rw [happly, Route.setDefaults]
  split <;> rfl

lemma segmented (h : s.Describes r) (ts : List Token)
    (hp : Piece.ofTemplate (Text.trimSlashes s.path.toList) = Piece.ofSegments ts)
    (hts : ∀ t ∈ ts, t.marker ≠ .wildcard ∧ '|' ∉ t.body) : r.Segmented ts := by
  have hbuilt : r.Built := by
    obtain ⟨r₀, hr₀, rfl⟩ := h
    exact (Route.Built.new hr₀).applyAll _
  obtain ⟨hwell, htext⟩ := Template.wellFormed_of_compile h.compile
  exact ⟨hbuilt, by rw [hwell.pieces, htext, hp], fun t ht => (hts t ht).1,
    fun t ht => (hts t ht).2⟩

lemma scan_cons_answer (h : s.Describes r) (ht : r.Segmented ts) (method : Method) (path : String)
    (rs : List Route) :
    (Router.scan method path (r :: rs)).answer =
      if List.Forall₂ (fun t v => t.marker.Admits v.toList) ts (segments path)
      then .ok ⟨s.name, r.segmentParams ts method path⟩
      else (Router.scan method path rs).answer := by
  obtain ⟨-, hcondition, hcallback⟩ := h.configured
  have hextract := ht.extract_eq method path
  split_ifs at hextract ⊢ with hfit
  · simp [Router.scan, hextract, Route.accepts, Route.conclude, hcondition, hcallback, h.name_eq]
  · simp [Router.scan, hextract]

end RouteSpec.Describes

namespace RouteTable

lemma new_of_default : ∀ s ∈ default.routes, ∃ r, Route.new s.name s.path = .ok r := by
  have hcompiles : ∀ s ∈ default.routes,
      (Template.compile s.path.toList).toOption.isSome = true := by
    decide +kernel
  exact fun s hs => ⟨_, Route.new_of_compile s.name (Template.compile_eq_ok_get (hcompiles s hs))⟩

lemma nodup_names_default : (default.routes.map RouteSpec.name).Nodup := by decide

def moduleToken : Token := ⟨.generic, "module".toList⟩

def actionToken : Token := ⟨.generic, "action".toList⟩

def itemToken : Token := ⟨.numeric, "item".toList⟩

@[simp] lemma marker_moduleToken : moduleToken.marker = .generic := rfl
@[simp] lemma marker_actionToken : actionToken.marker = .generic := rfl
@[simp] lemma marker_itemToken : itemToken.marker = .numeric := rfl

lemma pieces_default :
    (default.routes.map fun s => Piece.ofTemplate (Text.trimSlashes s.path.toList)) =
      [[moduleToken, itemToken], [moduleToken, actionToken, itemToken], [moduleToken, actionToken],
        [moduleToken], []].map Piece.ofSegments := by
  decide +kernel

/-! ### Parameters -/

section Params

variable {r : Route} {path m a i : String} (method : Method)

lemma decode_home : decode "Home" = "Home" := Percent.decode_eq_self (by decide)

lemma decode_index : decode "index" = "index" := Percent.decode_eq_self (by decide)

lemma decode_html : decode "html" = "html" := Percent.decode_eq_self (by decide)

lemma decode_itemAction : decode (itemAction method) = itemAction method := by
  unfold itemAction
  split_ifs <;> exact Percent.decode_eq_self (by decide)

lemma segmentParams_of_overrides {ts : List Token} (h : r.overrides = ∅) :
    r.segmentParams ts method path =
      Route.merge (ts.map Token.name)
        [r.defaults.toList, (ts.map Token.name).zip (segments path)] := by
  have hnone : ((r.overridesLike? method.text).getD ∅).toList = [] := by
    rw [Route.overridesLike?, h]
    rfl
  rw [Route.segmentParams_eq, hnone]
  split <;> rfl

lemma overrides_item (h : r.overrides = .ofList [("PUT", .ofList [("action", "put")]),
      ("DELETE", .ofList [("action", "delete")])]) :
    ((r.overridesLike? method.text).getD ∅).toList =
      if itemAction method = "view" then [] else [("action", itemAction method)] := by
  have hlist : r.overrides.toList = [("PUT", .ofList [("action", "put")]),
      ("DELETE", .ofList [("action", "delete")])] := by
    rw [h]
    rfl
  rw [Route.overridesLike?, hlist, itemAction, List.find?_cons, List.find?_cons]
  by_cases hput : Text.sameIgnoringCase "PUT" method.text = true
  · simp only [hput]
    rfl
  · by_cases hdelete : Text.sameIgnoringCase "DELETE" method.text = true
    · simp only [hput, hdelete]
      rfl
    · simp only [hput, hdelete]
      rfl

lemma segmentParams_item (hd : r.defaults = .ofList [("action", "view"), ("format", "html")])
    (ho : r.overrides = .ofList [("PUT", .ofList [("action", "put")]),
      ("DELETE", .ofList [("action", "delete")])])
    (hs : segments path = [m, i]) :
    r.segmentParams [moduleToken, itemToken] method path =
      .ofList [("module", decode m), ("item", decode i), ("action", itemAction method),
        ("format", "html")] := by
  -- the action is that of the overrides, or else that of the defaults
  have hmerge : ∀ (overrides : List (String × String)) (action : String) (get : Bool),
      overrides = [] ∧ action = "view" ∨ overrides = [("action", action)] →
      Route.merge (([moduleToken, itemToken] : List Token).map Token.name)
        (if get then [[("action", "view"), ("format", "html")], overrides,
            [("module", m), ("item", i)]]
          else [[("action", "view"), ("format", "html")], [("module", m), ("item", i)],
            overrides]) =
        .ofList [("module", decode m), ("item", decode i), ("action", decode action),
          ("format", decode "html")] := by
    rintro _ action get (⟨rfl, rfl⟩ | rfl) <;> cases get <;> rfl
  rw [Route.segmentParams_eq, overrides_item method ho, hs, hd]
  refine (hmerge _ (itemAction method) _ ?_).trans ?_
  · by_cases hview : itemAction method = "view" <;> simp [hview]
  · rw [decode_itemAction, decode_html]

lemma segmentParams_actionItem (hd : r.defaults = .ofList [("format", "html")])
    (ho : r.overrides = ∅) (hs : segments path = [m, a, i]) :
    r.segmentParams [moduleToken, actionToken, itemToken] method path =
      .ofList [("module", decode m), ("action", decode a), ("item", decode i),
        ("format", "html")] := by
  have hmerge : r.segmentParams [moduleToken, actionToken, itemToken] method path =
      .ofList [("module", decode m), ("action", decode a), ("item", decode i),
        ("format", decode "html")] := by
    rw [segmentParams_of_overrides method ho, hs, hd]
    rfl
  rw [hmerge, decode_html]

lemma segmentParams_action (hd : r.defaults = .ofList [("format", "html")])
    (ho : r.overrides = ∅) (hs : segments path = [m, a]) :
    r.segmentParams [moduleToken, actionToken] method path =
      .ofList [("module", decode m), ("action", decode a), ("format", "html")] := by
  have hmerge : r.segmentParams [moduleToken, actionToken] method path =
      .ofList [("module", decode m), ("action", decode a), ("format", decode "html")] := by
    rw [segmentParams_of_overrides method ho, hs, hd]
    rfl
  rw [hmerge, decode_html]

lemma segmentParams_module (hd : r.defaults = .ofList [("action", "index"), ("format", "html")])
    (ho : r.overrides = ∅) (hs : segments path = [m]) :
    r.segmentParams [moduleToken] method path =
      .ofList [("module", decode m), ("action", "index"), ("format", "html")] := by
  have hmerge : r.segmentParams [moduleToken] method path =
      .ofList [("module", decode m), ("action", decode "index"), ("format", decode "html")] := by
    rw [segmentParams_of_overrides method ho, hs, hd]
    rfl
  rw [hmerge, decode_index, decode_html]

lemma segmentParams_home
    (hd : r.defaults = .ofList [("module", "Home"), ("action", "index"), ("format", "html")])
    (ho : r.overrides = ∅) (hs : segments path = []) :
    r.segmentParams [] method path =
      .ofList [("module", "Home"), ("action", "index"), ("format", "html")] := by
  have hmerge : r.segmentParams [] method path =
      .ofList [("module", decode "Home"), ("action", decode "index"), ("format", decode "html")] := by
    rw [segmentParams_of_overrides method ho, hs, hd]
    rfl
  rw [hmerge, decode_home, decode_index, decode_html]

end Params

/-! ### Answers -/

lemma answer_scan_default {routes : List Route}
    (h : List.Forall₂ RouteSpec.Describes RouteTable.default.routes routes) (method : Method)
    (path : String) :
    (Router.scan method path routes).answer =
      match defaultMatch? method (segments path) with
      | some m => .ok m
      | none => .error (.notFound method.text path) := by
  unfold RouteTable.default at h
  obtain ⟨item, _, hitem, h₁, rfl⟩ := List.forall₂_cons_left_iff.mp h
  obtain ⟨actionItem, _, hactionItem, h₂, rfl⟩ := List.forall₂_cons_left_iff.mp h₁
  obtain ⟨action, _, haction, h₃, rfl⟩ := List.forall₂_cons_left_iff.mp h₂
  obtain ⟨module, _, hmodule, h₄, rfl⟩ := List.forall₂_cons_left_iff.mp h₃
  obtain ⟨home, _, hhome, h₅, rfl⟩ := List.forall₂_cons_left_iff.mp h₄
  obtain rfl := List.forall₂_nil_left_iff.mp h₅
  have hoitem : item.overrides = .ofList [("PUT", .ofList [("action", "put")]),
      ("DELETE", .ofList [("action", "delete")])] := by
    obtain ⟨t, rfl⟩ := hitem.eq_applyAll
    rfl
  have hpieces := pieces_default
  simp only [default, List.map_cons, List.map_nil, List.cons.injEq, and_true] at hpieces
  obtain ⟨hpitem, hpactionItem, hpaction, hpmodule, hphome⟩ := hpieces
  have hitem' := hitem.segmented _ hpitem (by decide)
  have hactionItem' := hactionItem.segmented _ hpactionItem (by decide)
  have haction' := haction.segmented _ hpaction (by decide)
  have hmodule' := hmodule.segmented _ hpmodule (by decide)
  have hhome' := hhome.segmented _ hphome (by decide)
  rw [hitem.scan_cons_answer hitem', hactionItem.scan_cons_answer hactionItem',
    haction.scan_cons_answer haction', hmodule.scan_cons_answer hmodule',
    hhome.scan_cons_answer hhome']
  -- each route has its own number of segments, and two have two
  rcases hs : segments path with _ | ⟨m, _ | ⟨a, _ | ⟨i, _ | ⟨x, l⟩⟩⟩⟩
  · have hparams := segmentParams_home method hhome.configured.1
      (hhome.overrides_eq_empty rfl) hs
    simp [defaultMatch?, hparams]
  · have hparams := segmentParams_module method hmodule.configured.1
      (hmodule.overrides_eq_empty rfl) hs
    by_cases hm : IsWord m <;> simp [defaultMatch?, hm, hparams, Router.scan]
  · have hparams := segmentParams_item method hitem.configured.1 hoitem hs
    have hparams' := segmentParams_action method haction.configured.1
      (haction.overrides_eq_empty rfl) hs
    by_cases hm : IsWord m
    · by_cases hnumber : IsNumber a
      · simp [defaultMatch?, hm, hnumber, hnumber.generic, hparams]
      · by_cases ha : IsWord a <;> simp [defaultMatch?, hm, hnumber, ha, hparams', Router.scan]
    · simp [defaultMatch?, hm, Router.scan]
  · have hparams := segmentParams_actionItem method hactionItem.configured.1
      (hactionItem.overrides_eq_empty rfl) hs
    by_cases hm : IsWord m
    · by_cases ha : IsWord a
      · by_cases hnumber : IsNumber i
        · simp [defaultMatch?, hm, ha, hnumber, hnumber.generic, hparams]
        · simp [defaultMatch?, hnumber, Router.scan]
      · simp [defaultMatch?, ha, Router.scan]
    · simp [defaultMatch?, hm, Router.scan]
  · simp [defaultMatch?, Router.scan]

lemma matchRequest_of_default {router : Router} (h : Router.ofTable default = .ok router)
    (method : Method) (path : String) :
    router.matchRequest method path =
      match defaultMatch? method (segments path) with
      | some m => .ok m
      | none => .error (.notFound method.text (trimPath path)) := by
  have hroutes := Router.routes_ofTable h nodup_names_default
  have hne : router.routes ≠ [] := by
    intro hnil
    rw [hnil] at hroutes
    cases hroutes
  rw [Router.matchRequest, Router.resolve_of_ne_nil hne, answer_scan_default hroutes,
    segments_trimPath]

lemma matchRequest_eq_ok_iff {router : Router} (h : Router.ofTable default = .ok router)
    {method : Method} {path : String} {m : RouteMatch} :
    router.matchRequest method path = .ok m ↔ defaultMatch? method (segments path) = some m := by
  rw [matchRequest_of_default h]
  rcases defaultMatch? method (segments path) with _ | m' <;> simp

/-- **The default routes.** The default table makes a router. It answers a request by the segments of
its path alone: with the match that `defaultMatch?` gives to them, and if there is none, the path is
not found. -/
theorem default_routes_answer :
    ∃ router, Router.ofTable default = .ok router ∧ ∀ method path,
      router.matchRequest method path =
        match defaultMatch? method (segments path) with
        | some m => .ok m
        | none => .error (.notFound method.text (trimPath path)) := by
  obtain ⟨router, hrouter⟩ := Router.exists_addSpecs new_of_default ∅
  exact ⟨router, hrouter, matchRequest_of_default hrouter⟩

end RouteTable

end Signpost
