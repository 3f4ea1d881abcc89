import Signpost.Proofs.OrderedMap
import Signpost.Proofs.Request.Padding
import Signpost.Proofs.Text.Percent

/-!
Queries read back. A query of encoded pairs is read as these pairs, whatever texts they are made of:
the encoded texts have neither of the signs that set them off, and decoding undoes the encoding.
-/

namespace Signpost

namespace Percent

/-! ### Pairs in a query -/

def pairText (p : String × String) : String := encode p.1 ++ "=" ++ encode p.2

def queryText (pairs : List (String × String)) : String := "&".intercalate (pairs.map pairText)

lemma toList_pairText (p : String × String) :
    (pairText p).toList = encodeChars p.1.toList ++ '=' :: encodeChars p.2.toList := by
  simp [pairText, toList_encode]

lemma toList_queryText (pairs : List (String × String)) :
    (queryText pairs).toList =
      Text.joinWith ['&'] (pairs.map fun p => (pairText p).toList) := by
  rw [queryText, String.toList_intercalate, List.map_map, Text.joinWith_eq_intercalate]
  rfl

lemma ampersand_not_mem_pairText (p : String × String) : '&' ∉ (pairText p).toList := by
  have hencoded : ∀ s, '&' ∉ encodeChars s := not_mem_encodeChars (by decide) (by decide)
  simp [toList_pairText, hencoded]

lemma ofList_decodeChars_encodeChars (s : String) :
    String.ofList (decodeChars (encodeChars s.toList)) = s := by
  rw [← toList_encode]
  exact decode_encode s

/-- The key of a pair has no equals sign once it is encoded, so the pair is cut behind it. -/
lemma cutAt?_pairText (p : String × String) :
    Text.cutAt? '=' (pairText p).toList =
      some (encodeChars p.1.toList, encodeChars p.2.toList) := by
  rw [toList_pairText, Text.cutAt?_append (not_mem_encodeChars (by decide) (by decide) _)]

lemma splitAll_queryText {pairs : List (String × String)} (h : pairs ≠ []) :
    Text.splitAll '&' (queryText pairs).toList = pairs.map fun p => (pairText p).toList := by
  rw [toList_queryText, Text.splitAll_joinWith (by simpa using h)]
  intro part hpart
  obtain ⟨p, -, rfl⟩ := List.mem_map.mp hpart
  exact ampersand_not_mem_pairText p

/-- **Pairs are read back** from the query that they are written as. -/
theorem queryPairs_queryText (pairs : List (String × String)) :
    queryPairs (queryText pairs).toList = pairs := by
  rcases eq_or_ne pairs [] with rfl | hne
  · rfl
  · have hkept : (pairs.map fun p => (pairText p).toList).filter (· ≠ []) =
        pairs.map fun p => (pairText p).toList := by
      -- even a pair of empty texts has its equals sign
      refine List.filter_eq_self.mpr fun part hpart => ?_
      obtain ⟨p, -, rfl⟩ := List.mem_map.mp hpart
      simp [toList_pairText]
    rw [queryPairs, splitAll_queryText hne, hkept, List.map_map]
    calc pairs.map _
      _ = pairs.map id := List.map_congr_left fun p _ => by
          simp [cutAt?_pairText, ofList_decodeChars_encodeChars]
      _ = pairs := List.map_id pairs

end Percent

/-! ### Requests with a query -/

namespace Request

lemma splitUri_append {path : List Char} (h : '?' ∉ path) (query : List Char) :
    splitUri (path ++ '?' :: query) = (path, some query) := by
  rw [splitUri, Text.cutAt?_append h]

lemma new_append (method : Method) {path : String} (h : '?' ∉ path.toList) (query : String) :
    new method (path ++ "?" ++ query) =
      ⟨method, path ++ "?" ++ query, (new method path).path,
        .ofList (Percent.queryPairs query.toList), ∅⟩ := by
  have huri : (path ++ "?" ++ query).toList = path.toList ++ '?' :: query.toList := by simp
  have hsplit := splitUri_append h query.toList
  have hpath : (new method path).path = String.ofList ('/' :: Text.trimSlashes path.toList) := by
    rw [path_new, rawPath_of_not_mem h]
  rw [hpath, new, huri, hsplit]
  rfl

/-- **A query reads back.** The request for a path and a query of encoded pairs has the map of these
pairs as its query, so that a repeated key has its first place and its last value; the path is that
of the request for the path alone, and the URI is as given. -/
theorem query_reads_back (method : Method) (path : String) (h : '?' ∉ path.toList)
    (pairs : List (String × String)) :
    let uri := path ++ "?" ++ Percent.queryText pairs
    (new method uri).query = .ofList pairs ∧
      (new method uri).query.keys = (pairs.map Prod.fst).eraseDups ∧
      (∀ key, (new method uri).query.get? key = pairs.reverse.lookup key) ∧
      (new method uri).path = (new method path).path ∧ (new method uri).uri = uri := by
  intro uri
  have hquery : (new method uri).query = .ofList pairs := by
    rw [new_append method h, Percent.queryPairs_queryText]
  refine ⟨hquery, ?_, fun key => ?_, ?_, rfl⟩
  · rw [hquery, OrderedMap.keys_ofList_eq_eraseDups]
  · rw [hquery, OrderedMap.get?_ofList_eq_lookup]
  · rw [new_append method h]

/-- Keys and values with all signs of a query in them, empty ones, and a repeated key. -/
theorem query_reads_back_signs :
    let pairs := [("a&b", "1=2"), ("", ""), ("ü", "+ %3D"), ("a&b", "?"), ("=", "")]
    '?' ∉ "//list/".toList ∧
      (new .get ("//list/" ++ "?" ++ Percent.queryText pairs)).query.toList =
        [("a&b", "?"), ("", ""), ("ü", "+ %3D"), ("=", "")] := by
  intro pairs
  have h : '?' ∉ "//list/".toList := by decide
  refine ⟨h, ?_⟩
  rw [(query_reads_back .get "//list/" h pairs).1]
  decide +kernel

end Request

end Signpost
