import Signpost.Proofs.Json.RoundTrip
import Signpost.Proofs.OrderedMap
import Signpost.Table.Format

/-!
Tables written as JSON and read again. A table is read from the document that is made of it, as
empty maps, which are left out of the document, are what is read where a field is not there; and
the document is one that JSON spells.
-/

namespace Signpost

lemma mapM_map_eq_ok {ε α β γ : Type} {f : β → Except ε γ} {g : α → β} {h : α → γ}
    (hf : ∀ a, f (g a) = .ok (h a)) (l : List α) : (l.map g).mapM f = .ok (l.map h) := by
  have hpure : f ∘ g = fun a => pure (h a) := funext hf
  rw [List.mapM_map, hpure, List.mapM_pure]
  rfl

namespace Document

variable {α : Type}

lemma asMap_mapping {read : Document → Except TableFault α} (f : α → Document)
    (h : ∀ a, read (f a) = .ok a) (m : OrderedMap String α) :
    asMap read (.mapping (m.toList.map fun (k, a) => (some k, f a))) = .ok m := by
  have hentries : asEntries (.mapping (m.toList.map fun (k, a) => (some k, f a))) =
      .ok (m.toList.map fun (k, a) => (k, f a)) := by
    rw [asEntries]
    refine mapM_map_eq_ok (fun p => ?_) m.toList
    rfl
  have hpairs : (m.toList.map fun (k, a) => (k, f a)).mapM
      (fun e => (read e.2).map fun a => (e.1, a)) = .ok (m.toList.map id) := by
    refine mapM_map_eq_ok (fun p => ?_) m.toList
    simp only [h]
    rfl
  rw [List.map_id] at hpairs
  rw [asMap, hentries]
  change List.mapM (fun e : String × Document => (read e.2).map fun a => (e.1, a)) _ >>= _ = _
  rw [hpairs]
  exact congrArg Except.ok (OrderedMap.ofList_toList m)

lemma asMap_optional {read : Document → Except TableFault α} (f : α → Document)
    (h : ∀ a, read (f a) = .ok a) (m : OrderedMap String α) :
    asMap read (if m.isEmpty then .blank
      else .mapping (m.toList.map fun (k, a) => (some k, f a))) = .ok m := by
  split_ifs with hm
  · have hempty : m = ∅ := OrderedMap.ext (List.isEmpty_iff.mp hm)
    rw [hempty]
    rfl
  · exact asMap_mapping f h m

end Document

open Document

namespace RouteSpec

variable (s : RouteSpec)

lemma exists_fields (p : Positional) :
    ∃ fields, asFields p fieldNames s.toDocument = .ok fields ∧
      required fields "name" = .ok (.text s.name) ∧
      required fields "path" = .ok (.text s.path) ∧
      optional fields "defaults" = (if s.defaults.isEmpty then .blank
        else .mapping (s.defaults.toList.map fun (k, v) => (some k, .text v))) ∧
      optional fields "methods" = if s.methods.isEmpty then .blank
        else .mapping (s.methods.toList.map fun (m, p) => (some m, ofParams p)) := by
  -- which entries there are is known once it is known which of the two maps are empty
  unfold toDocument
  by_cases hd : s.defaults.isEmpty = true <;> by_cases hm : s.methods.isEmpty = true
  all_goals
    simp only [hd, hm]
    exact ⟨_, rfl, rfl, rfl, rfl, rfl⟩

lemma ofDocument_toDocument (p : Positional) : ofDocument p s.toDocument = .ok s := by
  obtain ⟨fields, hfields, hname, hpath, hdefaults, hmethods⟩ := s.exists_fields p
  have hparams : (optional fields "defaults").asParams = .ok s.defaults := by
    rw [hdefaults]
    exact asMap_optional .text (fun _ => rfl) s.defaults
  have hmaps : (optional fields "methods").asMap asParams = .ok s.methods := by
    rw [hmethods]
    exact asMap_optional ofParams (asMap_mapping .text fun _ => rfl) s.methods
  simp only [ofDocument, hfields, bind, Except.bind, hname, hpath, asText, hparams, hmaps]
  rfl

end RouteSpec

namespace RouteTable

lemma ofDocument_toDocument (p : Positional) (t : RouteTable) :
    ofDocument p t.toDocument = .ok t := by
  have hfields : asFields p ["routes"] t.toDocument =
      .ok [("routes", .sequence (t.routes.map RouteSpec.toDocument))] := rfl
  have hroutes : (t.routes.map RouteSpec.toDocument).mapM (RouteSpec.ofDocument p) =
      .ok (t.routes.map id) :=
    mapM_map_eq_ok (RouteSpec.ofDocument_toDocument · p) t.routes
  have hitems : (optional [("routes", .sequence (t.routes.map RouteSpec.toDocument))]
      "routes").asItems = .ok (t.routes.map RouteSpec.toDocument) := rfl
  simp only [ofDocument, hfields, bind, Except.bind, hitems, hroutes, List.map_id]
  rfl

end RouteTable

/-! ### JSON -/

open Json (Spellable)

lemma RouteSpec.spellable_toDocument (s : RouteSpec) : Spellable s.toDocument := by
  have hparams : ∀ params, Spellable (ofParams params) := fun params =>
    .mapping_map .text params.toList
  have hmethods : Spellable (.mapping (s.methods.toList.map fun (m, p) => (some m, ofParams p))) :=
    .mapping_map hparams s.methods.toList
  unfold toDocument
  refine .mapping_cons _ (.text s.name) (.mapping_cons _ (.text s.path) ?_)
  split_ifs
  · exact .mapping_nil
  · exact .mapping_cons _ hmethods .mapping_nil
  · exact .mapping_cons _ (hparams s.defaults) .mapping_nil
  · exact .mapping_cons _ (hparams s.defaults) (.mapping_cons _ hmethods .mapping_nil)

lemma RouteTable.spellable_toDocument (t : RouteTable) : Spellable t.toDocument := by
  refine .mapping_cons _ (.sequence ?_) .mapping_nil
  rw [List.forall_mem_map]
  exact fun s _ => s.spellable_toDocument

/-- **JSON round trip of tables.** What is written for a table is read as the same table, whatever
texts stand in it, with all maps in the same order. -/
theorem RouteTable.parse_toJson (t : RouteTable) : parse .json t.toJson = .ok t := by
  have hread : Table.Format.json.read? t.toJson.toList = some t.toDocument := by
    rw [toJson, String.toList_ofList]
    exact Json.read?_write t.spellable_toDocument
  rw [parse, hread]
  exact ofDocument_toDocument _ t

end Signpost
