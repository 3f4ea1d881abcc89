import Mathlib.Data.List.Induction
import Mathlib.Tactic.Common
import Mathlib.Tactic.Lemma
import Signpost.OrderedMap

/-!
Ordered maps seen through their keys and their look-ups. Every operation is described by what it
does to the list of keys and to `get?`; nothing later opens the list of pairs.
-/

namespace Signpost

/-! ### First occurrences and keys -/

section

variable {κ : Type} [DecidableEq κ]

lemma eraseDups_concat (l : List κ) (a : κ) :
    (l ++ [a]).eraseDups = if a ∈ l.eraseDups then l.eraseDups else l.eraseDups ++ [a] := by
  rw [List.eraseDups_append]
  by_cases h : a ∈ l <;> simp [List.removeAll, List.eraseDups_cons, h]

lemma findSome?_reverse_concat {α β : Type} (f : α → Option β) (l : List α) (a : α) :
    (l ++ [a]).reverse.findSome? f = (f a).or (l.reverse.findSome? f) := by
  rw [List.reverse_concat, List.findSome?_cons]
  rcases f a with _ | b <;> rfl

lemma eraseDups_eq_self {l : List κ} (h : l.Nodup) : l.eraseDups = l := by
  induction l with
  | nil => rfl
  | cons a l ih =>
    rw [List.nodup_cons] at h
    have hrest : l.filter (fun b => !b == a) = l := by
      refine List.filter_eq_self.mpr fun b hb => ?_
      have : b ≠ a := fun e => h.1 (e ▸ hb)
      simpa using this
    rw [List.eraseDups_cons, hrest, ih h.2]

end

namespace OrderedMap

variable {κ α β : Type} [DecidableEq κ]

/-! ### Look-ups in lists of pairs -/

@[simp] lemma findIn_nil (k : κ) : findIn k ([] : List (κ × α)) = none := rfl

lemma findIn_cons (k : κ) (p : κ × α) (l : List (κ × α)) :
    findIn k (p :: l) = if p.1 = k then some p.2 else findIn k l := rfl

lemma findIn_insertIn (j k : κ) (v : α) (l : List (κ × α)) :
    findIn j (insertIn k v l) = if k = j then some v else findIn j l := by
  induction l with
  | nil => rfl
  | cons p l ih =>
    obtain ⟨k', v'⟩ := p
    by_cases h : k' = k
    · subst h
      by_cases hj : k' = j <;> simp [insertIn, findIn_cons, hj]
    · rw [insertIn, if_neg h, findIn_cons, findIn_cons, ih]
      by_cases hj : k = j
      · subst hj
        simp [h]
      · simp [hj]

lemma isSome_findIn (k : κ) (l : List (κ × α)) :
    (findIn k l).isSome = true ↔ k ∈ l.map Prod.fst := by
  induction l with
  | nil => simp
  | cons p l ih =>
    rw [findIn_cons, List.map_cons, List.mem_cons, ← ih]
    by_cases h : p.1 = k
    · simp [h]
    · have h' : ¬ k = p.1 := fun e => h e.symm
      simp [h, h']

lemma findIn_eq_none {k : κ} {l : List (κ × α)} (h : k ∉ l.map Prod.fst) : findIn k l = none := by
  rw [← isSome_findIn] at h
  simpa using h

lemma findIn_of_mem {k : κ} {v : α} {l : List (κ × α)} (hl : (l.map Prod.fst).Nodup)
    (h : (k, v) ∈ l) : findIn k l = some v := by
  induction l with
  | nil => cases h
  | cons p l ih =>
    rw [List.map_cons, List.nodup_cons] at hl
    rw [findIn_cons]
    rcases List.mem_cons.mp h with rfl | h
    · exact if_pos rfl
    · have hne : p.1 ≠ k := fun e => hl.1 (e ▸ List.mem_map_of_mem (f := Prod.fst) h)
      rw [if_neg hne, ih hl.2 h]

lemma mem_of_findIn {k : κ} {v : α} {l : List (κ × α)} (h : findIn k l = some v) : (k, v) ∈ l := by
  induction l with
  | nil => cases h
  | cons p l ih =>
    rw [findIn_cons] at h
    split at h
    · rename_i hk
      cases h
      rw [← hk]
      exact List.mem_cons_self
    · exact List.mem_cons_of_mem p (ih h)

lemma findIn_map (f : α → β) (k : κ) (l : List (κ × α)) :
    findIn k (l.map fun p => (p.1, f p.2)) = (findIn k l).map f := by
  induction l with
  | nil => rfl
  | cons p l ih =>
    rw [List.map_cons, findIn_cons, findIn_cons, ih]
    split <;> rfl

/-- Where no key occurs twice, leaving out pairs leaves out just their keys. -/
lemma findIn_filterMap (f : α → Option β) (k : κ) {l : List (κ × α)}
    (hl : (l.map Prod.fst).Nodup) :
    findIn k (l.filterMap fun p => (f p.2).map fun w => (p.1, w)) = (findIn k l).bind f := by
  induction l with
  | nil => rfl
  | cons p l ih =>
    rw [List.map_cons, List.nodup_cons] at hl
    have ih' := ih hl.2
    by_cases h : p.1 = k
    · have hk : findIn k l = none := findIn_eq_none (h ▸ hl.1)
      rw [hk] at ih'
      rcases hf : f p.2 with _ | w
      · simp [findIn_cons, h, hf, ih']
      · simp [findIn_cons, h, hf]
    · rcases hf : f p.2 with _ | w <;> simp [findIn_cons, h, hf, ih']

lemma findIn_append (k : κ) (l l' : List (κ × α)) :
    findIn k (l ++ l') = (findIn k l).or (findIn k l') := by
  induction l with
  | nil => rfl
  | cons p l ih =>
    rw [List.cons_append, findIn_cons, findIn_cons, ih]
    split <;> rfl

lemma findIn_eq_lookup (k : κ) (l : List (κ × α)) : findIn k l = l.lookup k := by
  induction l with
  | nil => rfl
  | cons p l ih =>
    obtain ⟨j, v⟩ := p
    rw [findIn_cons, ih, List.lookup_cons]
    by_cases h : j = k
    · simp [h]
    · rw [if_neg h, beq_false_of_ne (Ne.symm h)]

lemma insertIn_of_not_mem {k : κ} {v : α} {l : List (κ × α)} (h : k ∉ l.map Prod.fst) :
    insertIn k v l = l ++ [(k, v)] := by
  induction l with
  | nil => rfl
  | cons p l ih =>
    rw [List.map_cons, List.mem_cons, not_or] at h
    rw [insertIn, if_neg (Ne.symm h.1), ih h.2, List.cons_append]

lemma eq_of_findIn {l l' : List (κ × α)} (hl : (l.map Prod.fst).Nodup)
    (hkeys : l.map Prod.fst = l'.map Prod.fst) (h : ∀ k, findIn k l = findIn k l') : l = l' := by
  induction l generalizing l' with
  | nil => exact (List.map_eq_nil_iff.mp hkeys.symm).symm
  | cons p l ih =>
    rcases l' with _ | ⟨q, l'⟩
    · cases hkeys
    · rw [List.map_cons, List.map_cons, List.cons.injEq] at hkeys
      rw [List.map_cons, List.nodup_cons] at hl
      obtain ⟨hkey, hkeys⟩ := hkeys
      have hvalue : p.2 = q.2 := by
        have hfirst := h p.1
        rw [findIn_cons, findIn_cons, if_pos rfl, if_pos hkey.symm] at hfirst
        exact Option.some.inj hfirst
      have hrest : ∀ k, findIn k l = findIn k l' := fun k => by
        by_cases hk : p.1 = k
        · rw [findIn_eq_none (hk ▸ hl.1), findIn_eq_none (hkeys ▸ hk ▸ hl.1)]
        · have hk' := h k
          rwa [findIn_cons, findIn_cons, if_neg hk, if_neg (hkey ▸ hk)] at hk'
      rw [ih hl.2 hkeys hrest, Prod.ext hkey hvalue]

/-! ### One operation on a map -/

variable {m : OrderedMap κ α}

/-- Maps are equal if they have the same keys in the same order, and the same values. -/
lemma eq_of_get? {n : OrderedMap κ α} (hkeys : m.keys = n.keys)
    (h : ∀ k, m.get? k = n.get? k) : m = n :=
  OrderedMap.ext (eq_of_findIn m.nodup_keys hkeys h)

lemma mem_toList_iff {k : κ} {v : α} : (k, v) ∈ m.toList ↔ m.get? k = some v :=
  ⟨findIn_of_mem m.nodup_keys, mem_of_findIn⟩

lemma get?_insert (m : OrderedMap κ α) (j k : κ) (v : α) :
    (m.insert k v).get? j = if k = j then some v else m.get? j :=
  findIn_insertIn j k v m.toList

lemma keys_insert (m : OrderedMap κ α) (k : κ) (v : α) :
    (m.insert k v).keys = if k ∈ m.keys then m.keys else m.keys ++ [k] :=
  keys_insertIn k v m.toList

lemma mem_keys_insert {j k : κ} {v : α} : j ∈ (m.insert k v).keys ↔ j = k ∨ j ∈ m.keys := by
  rw [keys_insert]
  split
  · rename_i hk
    exact ⟨.inr, fun h => h.elim (fun e => e ▸ hk) id⟩
  · rw [List.mem_append, List.mem_singleton, or_comm]

lemma toList_insert_of_not_mem {k : κ} {v : α} (h : k ∉ m.keys) :
    (m.insert k v).toList = m.toList ++ [(k, v)] :=
  insertIn_of_not_mem h

lemma insert_eq_self {k : κ} {v : α} (h : m.get? k = some v) : m.insert k v = m := by
  have hmem : k ∈ m.keys := (isSome_findIn k m.toList).mp (by rw [← get?, h]; rfl)
  refine eq_of_get? (by rw [keys_insert, if_pos hmem]) fun j => ?_
  rw [get?_insert]
  split
  · rename_i hj
    rw [← hj, h]
  · rfl

lemma get?_filterMap (f : α → Option β) (m : OrderedMap κ α) (k : κ) :
    (m.filterMap f).get? k = (m.get? k).bind f :=
  findIn_filterMap f k m.nodup_keys

lemma keys_filterMap (f : α → Option β) (m : OrderedMap κ α) :
    (m.filterMap f).keys = m.keys.filter fun k => ((m.get? k).bind f).isSome := by
  have key : ∀ l : List (κ × α), (l.map Prod.fst).Nodup →
      (l.filterMap fun p => (f p.2).map fun w => (p.1, w)).map Prod.fst =
        (l.map Prod.fst).filter fun k => ((findIn k l).bind f).isSome := by
    intro l hl
    induction l with
    | nil => rfl
    | cons p l ih =>
      rw [List.map_cons, List.nodup_cons] at hl
      -- the rest of the list does not have the first key
      have hrest : (l.map Prod.fst).filter (fun k => ((findIn k (p :: l)).bind f).isSome) =
          (l.map Prod.fst).filter fun k => ((findIn k l).bind f).isSome := by
        refine List.filter_congr fun k hk => ?_
        have h : p.1 ≠ k := by
          rintro rfl
          exact hl.1 hk
        rw [findIn_cons, if_neg h]
      rw [List.map_cons, List.filter_cons, hrest, ← ih hl.2]
      rcases hf : f p.2 with _ | w <;> simp [findIn_cons, hf]
  exact key m.toList m.nodup_keys

/-! ### Inserting whole lists -/

/-- Inserting pairs without a repeated key: they rank above what was there. -/
lemma get?_insertAll {l : List (κ × α)} (hl : (l.map Prod.fst).Nodup) (m : OrderedMap κ α)
    (k : κ) : (m.insertAll l).get? k = (findIn k l).or (m.get? k) := by
  induction l generalizing m with
  | nil => rfl
  | cons p l ih =>
    rw [List.map_cons, List.nodup_cons] at hl
    have hstep : m.insertAll (p :: l) = (m.insert p.1 p.2).insertAll l := rfl
    rw [hstep, ih hl.2, get?_insert, findIn_cons]
    by_cases h : p.1 = k
    · rw [findIn_eq_none (h ▸ hl.1)]
      simp [h]
    · simp [h]

/-- Inserting pairs without a repeated key puts the new keys at the end, in their order. -/
lemma keys_insertAll {l : List (κ × α)} (hl : (l.map Prod.fst).Nodup) (m : OrderedMap κ α) :
    (m.insertAll l).keys = m.keys ++ (l.map Prod.fst).filter fun k => k ∉ m.keys := by
  induction l generalizing m with
  | nil => simp [insertAll]
  | cons p l ih =>
    rw [List.map_cons, List.nodup_cons] at hl
    have hstep : m.insertAll (p :: l) = (m.insert p.1 p.2).insertAll l := rfl
    rw [hstep, ih hl.2, keys_insert, List.map_cons, List.filter_cons]
    by_cases h : p.1 ∈ m.keys
    · simp [h]
    · have hrest : (l.map Prod.fst).filter (fun k => k ∉ m.keys ++ [p.1]) =
          (l.map Prod.fst).filter fun k => k ∉ m.keys := by
        refine List.filter_congr fun k hk => ?_
        have hne : k ≠ p.1 := by
          rintro rfl
          exact hl.1 hk
        simp [hne]
      simp only [h, if_false, not_false_eq_true, decide_true, if_true, List.append_assoc,
        List.singleton_append, hrest]

lemma get?_ofList {l : List (κ × α)} (hl : (l.map Prod.fst).Nodup) (k : κ) :
    (ofList l).get? k = findIn k l := by
  rw [ofList, get?_insertAll hl]
  exact Option.or_none

lemma ofList_concat (l : List (κ × α)) (p : κ × α) :
    ofList (l ++ [p]) = (ofList l).insert p.1 p.2 := by
  simp [ofList, insertAll, List.foldl_append]

lemma get?_ofList_eq_lookup (l : List (κ × α)) (k : κ) :
    (ofList l).get? k = l.reverse.lookup k := by
  induction l using List.reverseRecOn with
  | nil => rfl
  | append_singleton l p ih =>
    obtain ⟨j, v⟩ := p
    rw [ofList_concat, get?_insert, ih, List.reverse_append, List.reverse_singleton,
      List.singleton_append, List.lookup_cons]
    by_cases h : j = k
    · simp [h]
    · rw [if_neg h, beq_false_of_ne (Ne.symm h)]

lemma keys_ofList_eq_eraseDups (l : List (κ × α)) :
    (ofList l).keys = (l.map Prod.fst).eraseDups := by
  induction l using List.reverseRecOn with
  | nil => rfl
  | append_singleton l p ih =>
    rw [ofList_concat, keys_insert, ih, List.map_append, List.map_singleton, eraseDups_concat]

lemma keys_ofList {l : List (κ × α)} (hl : (l.map Prod.fst).Nodup) :
    (ofList l).keys = l.map Prod.fst := by
  rw [keys_ofList_eq_eraseDups, eraseDups_eq_self hl]

lemma toList_insertAll {l : List (κ × α)} (hl : (l.map Prod.fst).Nodup) {m : OrderedMap κ α}
    (hm : ∀ k ∈ l.map Prod.fst, k ∉ m.keys) : (m.insertAll l).toList = m.toList ++ l := by
  induction l generalizing m with
  | nil => simp [insertAll]
  | cons p l ih =>
    rw [List.map_cons, List.nodup_cons] at hl
    have hp : (m.insert p.1 p.2).toList = m.toList ++ [p] :=
      toList_insert_of_not_mem (hm p.1 (by simp))
    have hstep : m.insertAll (p :: l) = (m.insert p.1 p.2).insertAll l := rfl
    rw [hstep, ih hl.2, hp, List.append_assoc, List.singleton_append]
    intro k hk
    have hne : k ≠ p.1 := fun e => hl.1 (e ▸ hk)
    have hkm : k ∉ m.keys := hm k (List.mem_cons_of_mem p.1 hk)
    rw [keys, hp, List.map_append, List.mem_append, not_or]
    exact ⟨hkm, by simpa using hne⟩

lemma get?_insertNew (m : OrderedMap κ α) (j k : κ) (v : α) :
    (m.insertNew k v).get? j = (m.get? j).or (if k = j then some v else none) := by
  unfold insertNew contains
  by_cases h : k = j
  · subst h
    rcases hk : m.get? k with _ | w <;> simp [hk, get?_insert]
  · split <;> simp [get?_insert, h]

/-- Of the values that are inserted for a new key the first one stays. -/
lemma get?_insertAllNew (m : OrderedMap κ α) (l : List (κ × α)) (k : κ) :
    (m.insertAllNew l).get? k = (m.get? k).or (findIn k l) := by
  induction l generalizing m with
  | nil => simp [insertAllNew]
  | cons p l ih =>
    have hstep : m.insertAllNew (p :: l) = (m.insertNew p.1 p.2).insertAllNew l := rfl
    rw [hstep, ih, get?_insertNew, Option.or_assoc, findIn_cons]
    by_cases h : p.1 = k <;> simp [h]

lemma toList_insertNew (m : OrderedMap κ α) (k : κ) (v : α) :
    (m.insertNew k v).toList = if k ∈ m.keys then m.toList else m.toList ++ [(k, v)] := by
  have hcontains : m.contains k = true ↔ k ∈ m.keys := isSome_findIn k m.toList
  rw [insertNew]
  by_cases h : k ∈ m.keys
  · rw [if_pos (hcontains.mpr h), if_pos h]
  · rw [if_neg fun hc => h (hcontains.mp hc), if_neg h, toList_insert_of_not_mem h]

lemma keys_insertNew (m : OrderedMap κ α) (k : κ) (v : α) :
    (m.insertNew k v).keys = if k ∈ m.keys then m.keys else m.keys ++ [k] := by
  rw [keys, toList_insertNew]
  split <;> simp [keys]

lemma insertAllNew_append (m : OrderedMap κ α) (l l' : List (κ × α)) :
    m.insertAllNew (l ++ l') = (m.insertAllNew l).insertAllNew l' := List.foldl_append

lemma keys_insertAllNew (m : OrderedMap κ α) (l : List (κ × α)) :
    (m.insertAllNew l).keys = (m.keys ++ l.map Prod.fst).eraseDups := by
  induction l using List.reverseRecOn with
  | nil =>
    have hkeys : m.keys.Nodup := m.nodup_keys
    simp [insertAllNew, eraseDups_eq_self hkeys]
  | append_singleton l p ih =>
    have hstep : m.insertAllNew (l ++ [p]) = (m.insertAllNew l).insertNew p.1 p.2 :=
      insertAllNew_append m l [p]
    rw [hstep, keys_insertNew, ih, List.map_append, ← List.append_assoc, List.map_singleton,
      eraseDups_concat]

lemma keys_insertAllNew_empty (l : List (κ × α)) :
    ((∅ : OrderedMap κ α).insertAllNew l).keys = (l.map Prod.fst).eraseDups :=
  keys_insertAllNew ∅ l

lemma get?_insertAllNew_empty (l : List (κ × α)) (k : κ) :
    ((∅ : OrderedMap κ α).insertAllNew l).get? k = findIn k l :=
  get?_insertAllNew ∅ l k

/-- Of pairs without a repeated key those with a new key come behind the old ones, in order. -/
lemma toList_insertAllNew {l : List (κ × α)} (hl : (l.map Prod.fst).Nodup) (m : OrderedMap κ α) :
    (m.insertAllNew l).toList = m.toList ++ l.filter fun p => p.1 ∉ m.keys := by
  induction l generalizing m with
  | nil => simp [insertAllNew]
  | cons p l ih =>
    rw [List.map_cons, List.nodup_cons] at hl
    have hstep : m.insertAllNew (p :: l) = (m.insertNew p.1 p.2).insertAllNew l := rfl
    -- whether the first key is there or new, the rest of the list does not have it
    have hrest : l.filter (fun q => q.1 ∉ (m.insertNew p.1 p.2).keys) =
        l.filter fun q => q.1 ∉ m.keys := by
      refine List.filter_congr fun q hq => ?_
      have hne : q.1 ≠ p.1 := fun e => hl.1 (e ▸ List.mem_map_of_mem hq)
      rw [keys_insertNew]
      split <;> simp [hne]
    rw [hstep, ih hl.2, hrest, toList_insertNew, List.filter_cons]
    by_cases h : p.1 ∈ m.keys <;> simp [h]

lemma ofList_toList (m : OrderedMap κ α) : ofList m.toList = m := by
  have h : (empty : OrderedMap κ α).keys = [] := rfl
  refine OrderedMap.ext ?_
  rw [ofList, toList_insertAll m.nodup_keys (by simp [h])]
  rfl

end OrderedMap

end Signpost
