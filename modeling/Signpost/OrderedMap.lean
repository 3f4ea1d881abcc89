/-!
Maps that remember insertion order. A key keeps the place of its first insertion; `insert`
overwrites the value in place, `insertNew` leaves a key alone that is already there. No key occurs
twice, by type.
-/

namespace Signpost

/-- Where no two elements share a key, an element is the one that is found under its key. -/
theorem find?_key_of_mem {κ α : Type} [DecidableEq κ] {f : α → κ} {l : List α}
    (hl : (l.map f).Nodup) {a : α} (ha : a ∈ l) : l.find? (fun b => f b == f a) = some a := by
  induction l with
  | nil => cases ha
  | cons b l ih =>
    rw [List.map_cons, List.nodup_cons] at hl
    rcases List.mem_cons.mp ha with rfl | ha
    · simp
    · have hb : f b ≠ f a := fun e => hl.1 (e ▸ List.mem_map_of_mem ha)
      simp [hb, ih hl.2 ha]

/-- Key/value pairs in insertion order, no key twice. -/
@[ext] structure OrderedMap (κ α : Type) where
  toList : List (κ × α)
  nodup_keys : (toList.map Prod.fst).Nodup

namespace OrderedMap

variable {κ α : Type} [DecidableEq κ]

/-- The value that goes with `k` in a list of pairs, the first one if there are several. -/
def findIn (k : κ) : List (κ × α) → Option α
  | [] => none
  | (k', v) :: l => if k' = k then some v else findIn k l

/-- The pairs with the value at `k` replaced in place, or with a new pair at the end. -/
def insertIn (k : κ) (v : α) : List (κ × α) → List (κ × α)
  | [] => [(k, v)]
  | (k', v') :: l => if k' = k then (k, v) :: l else (k', v') :: insertIn k v l

theorem keys_insertIn (k : κ) (v : α) (l : List (κ × α)) :
    (insertIn k v l).map Prod.fst =
      if k ∈ l.map Prod.fst then l.map Prod.fst else l.map Prod.fst ++ [k] := by
  induction l with
  | nil => simp [insertIn]
  | cons p l ih =>
    obtain ⟨k', v'⟩ := p
    by_cases h : k' = k
    · simp [insertIn, h]
    · have h' : k ≠ k' := fun e => h e.symm
      simp only [insertIn, h, if_false, List.map_cons, ih, List.mem_cons, h', false_or]
      split <;> simp

theorem nodup_insertIn (k : κ) (v : α) {l : List (κ × α)} (h : (l.map Prod.fst).Nodup) :
    ((insertIn k v l).map Prod.fst).Nodup := by
  rw [keys_insertIn]
  split
  · exact h
  · rename_i hk
    rw [List.nodup_append]
    refine ⟨h, by simp, ?_⟩
    intro a ha b hb
    rw [List.mem_singleton] at hb
    rintro rfl
    exact hk (hb ▸ ha)

instance [DecidableEq α] : DecidableEq (OrderedMap κ α) := fun m n =>
  decidable_of_iff (m.toList = n.toList) OrderedMap.ext_iff.symm

def empty : OrderedMap κ α := ⟨[], by simp⟩

instance : EmptyCollection (OrderedMap κ α) := ⟨empty⟩

instance : Inhabited (OrderedMap κ α) := ⟨empty⟩

def keys (m : OrderedMap κ α) : List κ := m.toList.map Prod.fst

def values (m : OrderedMap κ α) : List α := m.toList.map Prod.snd

def size (m : OrderedMap κ α) : Nat := m.toList.length

def isEmpty (m : OrderedMap κ α) : Bool := m.toList.isEmpty

def get? (m : OrderedMap κ α) (k : κ) : Option α := findIn k m.toList

def contains (m : OrderedMap κ α) (k : κ) : Bool := (m.get? k).isSome

/-- Sets the value at `k`: in place if `k` is there, at the end if not. -/
def insert (m : OrderedMap κ α) (k : κ) (v : α) : OrderedMap κ α :=
  ⟨insertIn k v m.toList, nodup_insertIn k v m.nodup_keys⟩

/-- Sets the value at `k` unless `k` has one. -/
def insertNew (m : OrderedMap κ α) (k : κ) (v : α) : OrderedMap κ α :=
  if m.contains k then m else m.insert k v

/-- Every pair inserted in turn: of a repeated key the first place and the last value stay. -/
def insertAll (m : OrderedMap κ α) (pairs : List (κ × α)) : OrderedMap κ α :=
  pairs.foldl (fun m (k, v) => m.insert k v) m

/-- Every pair inserted in turn unless its key is there: the first value of a key stays. -/
def insertAllNew (m : OrderedMap κ α) (pairs : List (κ × α)) : OrderedMap κ α :=
  pairs.foldl (fun m (k, v) => m.insertNew k v) m

def ofList (pairs : List (κ × α)) : OrderedMap κ α := empty.insertAll pairs

/-- Keeps the keys whose value passes through `f`, with the value `f` gives. -/
def filterMap {β : Type} (f : α → Option β) (m : OrderedMap κ α) : OrderedMap κ β :=
  ⟨m.toList.filterMap fun (k, v) => (f v).map fun w => (k, w), by
    refine List.Nodup.sublist ?_ m.nodup_keys
    generalize m.toList = l
    induction l with
    | nil => simp
    | cons p l ih =>
      simp only [List.filterMap_cons, List.map_cons]
      cases f p.2 with
      | none => exact ih.cons p.1
      | some w => exact ih.cons_cons p.1⟩

def map {β : Type} (f : α → β) (m : OrderedMap κ α) : OrderedMap κ β :=
  ⟨m.toList.map fun (k, v) => (k, f v), by
    have h := m.nodup_keys
    rwa [List.map_map]⟩

end OrderedMap

/-- Parameters of a route or request: names with texts, in the order in which they were set. -/
abbrev Params := OrderedMap String String

end Signpost
