import Mathlib.Data.List.Basic
import Signpost.Template.Basic

/-!
Texts cut along the pieces of a template. A literal is found as it stands, a required parameter
takes a text that its marker admits, and an optional group is there with all its parts or not at
all. Of several ways to cut a text the greedy one is that which, from left to right, keeps a group
whenever the rest can still be cut and gives each parameter as much as the rest allows.
`Piece.fit?` finds the greedy cut, and finds one whenever there is any.
-/

namespace Signpost

namespace Marker

def admitsChar : Marker → Char → Bool
  | generic, c =>
    ('a' ≤ c && c ≤ 'z') || ('A' ≤ c && c ≤ 'Z') || ('0' ≤ c && c ≤ '9') || c == '_' || c == '-' ||
      c == '+' || c == '%' || Unicode.isBlank c
  | numeric, c => '0' ≤ c && c ≤ '9'
  | wildcard, c => c != '\n'

/-- The texts that a parameter can take: only a wildcard can be empty. -/
def Admits (m : Marker) (v : List Char) : Prop :=
  (m ≠ wildcard → v ≠ []) ∧ ∀ c ∈ v, m.admitsChar c = true

instance (m : Marker) (v : List Char) : Decidable (m.Admits v) :=
  decidable_of_iff ((m ≠ wildcard → v ≠ []) ∧ v.all m.admitsChar = true)
    (and_congr_right fun _ => List.all_eq_true)

/-- The lengths of what a parameter can take in front of a text, the longest first. -/
def lengths (m : Marker) (s : List Char) : List Nat :=
  let ks := List.range ((s.takeWhile m.admitsChar).length + 1)
  (if m = wildcard then ks else ks.tail).reverse

lemma le_length_takeWhile {p : Char → Bool} {k : Nat} {s : List Char} :
    k ≤ (s.takeWhile p).length ↔ k ≤ s.length ∧ ∀ c ∈ s.take k, p c = true := by
  induction s generalizing k with
  | nil => simp
  | cons x s ih =>
    rcases k with _ | k
    · simp
    · by_cases hx : p x = true
      · simp [hx, ih]
      · simp [hx]

lemma mem_lengths {m : Marker} {k : Nat} {s : List Char} :
    k ∈ m.lengths s ↔ k ≤ s.length ∧ m.Admits (s.take k) := by
  have htail : ∀ n, k ∈ (List.range (n + 1)).tail ↔ k ≠ 0 ∧ k ≤ n := by
    intro n
    rw [List.range_succ_eq_map, List.tail_cons, List.mem_map]
    constructor
    · rintro ⟨j, hj, rfl⟩
      have := List.mem_range.mp hj
      omega
    · rintro ⟨h0, hk⟩
      exact ⟨k - 1, List.mem_range.mpr (by omega), by omega⟩
  have hempty : k ≤ s.length → (s.take k = [] ↔ k = 0) := by
    intro hk
    rw [← List.length_eq_zero_iff, List.length_take]
    omega
  unfold lengths Admits
  by_cases hm : m = wildcard
  · have hrange : ∀ n, k ∈ List.range (n + 1) ↔ k ≤ n := fun n => by
      rw [List.mem_range, Nat.lt_succ_iff]
    simp only [hm, if_true, List.mem_reverse, hrange, le_length_takeWhile, ne_eq,
      not_true_eq_false, false_implies, true_and]
  · simp only [hm, if_false, List.mem_reverse, htail, le_length_takeWhile, ne_eq, not_false_eq_true,
      true_implies]
    constructor
    · rintro ⟨h0, hk, hc⟩
      exact ⟨hk, fun h => h0 ((hempty hk).mp h), hc⟩
    · rintro ⟨hk, h0, hc⟩
      exact ⟨fun h => h0 ((hempty hk).mpr h), hk, hc⟩

lemma pairwise_lengths (m : Marker) (s : List Char) : (m.lengths s).Pairwise (· > ·) := by
  unfold lengths
  rw [List.pairwise_reverse]
  split
  · exact List.pairwise_lt_range
  · exact List.pairwise_lt_range.sublist (List.tail_sublist _)

lemma findSome?_lengths {β : Type} {m : Marker} {s : List Char} {f : Nat → Option β} {b : β} :
    (m.lengths s).findSome? f = some b ↔
      ∃ k ∈ m.lengths s, f k = some b ∧ ∀ j ∈ m.lengths s, k < j → f j = none := by
  have hp := m.pairwise_lengths s
  constructor
  · intro h
    obtain ⟨l₁, k, l₂, hl, hk, hnone⟩ := List.findSome?_eq_some_iff.mp h
    rw [hl] at hp
    refine ⟨k, by rw [hl]; simp, hk, fun j hj hlt => ?_⟩
    rw [hl, List.mem_append, List.mem_cons] at hj
    rcases hj with hj | rfl | hj
    · exact hnone j hj
    · omega
    · have := (List.pairwise_cons.mp (List.pairwise_append.mp hp).2.1).1 j hj
      omega
  · rintro ⟨k, hk, hb, hnone⟩
    obtain ⟨l₁, l₂, hl⟩ := List.append_of_mem hk
    rw [hl] at hp
    refine List.findSome?_eq_some_iff.mpr ⟨l₁, k, l₂, hl, hb, fun j hj => ?_⟩
    exact hnone j (by rw [hl]; simp [hj])
      ((List.pairwise_append.mp hp).2.2 j hj k List.mem_cons_self)

end Marker

namespace Piece

/-- What each parameter takes; nothing for an optional group that is left out. -/
abbrev Cut := List (Option (List Char))

/-- The ways to cut a text along pieces. -/
inductive Cuts : List Piece → Cut → List Char → Prop
  | nil : Cuts [] [] []
  | literal {ps vs s} (t : List Char) (h : Cuts ps vs s) : Cuts (.literal t :: ps) vs (t ++ s)
  | required {ps vs s} {t : Token} {v : List Char} (hv : t.marker.Admits v) (h : Cuts ps vs s) :
    Cuts (.required t :: ps) (some v :: vs) (v ++ s)
  | present {ps vs s} {g : OptionalGroup} {v : List Char} (hv : g.token.marker.Admits v)
    (h : Cuts ps vs s) :
    Cuts (.optional g :: ps) (some v :: vs) (g.before ++ (v ++ (g.after ++ s)))
  | absent {ps vs s} {g : OptionalGroup} (h : Cuts ps vs s) :
    Cuts (.optional g :: ps) (none :: vs) s

/-- The ways to put a text together of pieces, where `takes` tells what each parameter can take. -/
inductive Placed (takes : Token → List Char → Prop) : List Piece → Cut → List Char → Prop
  | nil : Placed takes [] [] []
  | literal {ps vs s} (t : List Char) (h : Placed takes ps vs s) :
    Placed takes (.literal t :: ps) vs (t ++ s)
  | required {ps vs s} {t : Token} {v : List Char} (hv : takes t v) (h : Placed takes ps vs s) :
    Placed takes (.required t :: ps) (some v :: vs) (v ++ s)
  | present {ps vs s} {g : OptionalGroup} {v : List Char} (hv : takes g.token v)
    (h : Placed takes ps vs s) :
    Placed takes (.optional g :: ps) (some v :: vs) (g.before ++ (v ++ (g.after ++ s)))
  | absent {ps vs s} {g : OptionalGroup} (h : Placed takes ps vs s) :
    Placed takes (.optional g :: ps) (none :: vs) s

/-- What is written for a piece: nothing for a group whose parameter has no value. -/
def shown (value : Token → Option (List Char)) : Piece → List Char
  | literal s => s
  | required t => (value t).getD []
  | optional g => (value g.token).elim [] fun v => g.before ++ v ++ g.after

def Fits (ps : List Piece) (s : List Char) : Prop := ∃ vs, Cuts ps vs s

/-- The greedy way to cut a text along pieces: at each parameter the rest cannot be cut if the
parameter takes more, and a group is left out only if the text cannot be cut with it. -/
inductive GreedyCut : List Piece → Cut → List Char → Prop
  | nil : GreedyCut [] [] []
  | literal {ps vs s} (t : List Char) (h : GreedyCut ps vs s) :
    GreedyCut (.literal t :: ps) vs (t ++ s)
  | required {ps vs s} {t : Token} {v : List Char} (hv : t.marker.Admits v)
    (h : GreedyCut ps vs s)
    (hmax : ∀ v' s', v' ++ s' = v ++ s → t.marker.Admits v' → Fits ps s' → v'.length ≤ v.length) :
    GreedyCut (.required t :: ps) (some v :: vs) (v ++ s)
  | present {ps vs s} {g : OptionalGroup} {v : List Char} (hv : g.token.marker.Admits v)
    (h : GreedyCut ps vs s)
    (hmax : ∀ v' s', v' ++ (g.after ++ s') = v ++ (g.after ++ s) → g.token.marker.Admits v' →
      Fits ps s' → v'.length ≤ v.length) :
    GreedyCut (.optional g :: ps) (some v :: vs) (g.before ++ (v ++ (g.after ++ s)))
  | absent {ps vs s} {g : OptionalGroup} (h : GreedyCut ps vs s)
    (hnone : ∀ v s', s = g.before ++ (v ++ (g.after ++ s')) → g.token.marker.Admits v →
      ¬ Fits ps s') :
    GreedyCut (.optional g :: ps) (none :: vs) s

lemma GreedyCut.cuts {ps : List Piece} {vs : Cut} {s : List Char} (h : GreedyCut ps vs s) :
    Cuts ps vs s := by
  induction h with
  | nil => exact .nil
  | literal t _ ih => exact .literal t ih
  | required hv _ _ ih => exact .required hv ih
  | present hv _ _ ih => exact .present hv ih
  | absent _ _ ih => exact .absent ih

lemma Cuts.placed {ps : List Piece} {vs : Cut} {s : List Char} (h : Cuts ps vs s) :
    Placed (fun t => t.marker.Admits) ps vs s := by
  induction h with
  | nil => exact .nil
  | literal t _ ih => exact .literal t ih
  | required hv _ ih => exact .required hv ih
  | present hv _ ih => exact .present hv ih
  | absent _ ih => exact .absent ih

lemma cuts_append_iff {ps qs : List Piece} {vs : Cut} {s : List Char} :
    Cuts (ps ++ qs) vs s ↔ ∃ vs₁ vs₂ s₁ s₂, vs = vs₁ ++ vs₂ ∧ s = s₁ ++ s₂ ∧
      Cuts ps vs₁ s₁ ∧ Cuts qs vs₂ s₂ := by
  constructor
  · intro h
    induction ps generalizing vs s with
    | nil => exact ⟨[], vs, [], s, rfl, rfl, .nil, h⟩
    | cons p ps ih =>
      rw [List.cons_append] at h
      cases h with
      | literal t h =>
        obtain ⟨vs₁, vs₂, s₁, s₂, rfl, rfl, h₁, h₂⟩ := ih h
        exact ⟨vs₁, vs₂, t ++ s₁, s₂, rfl, by simp, .literal t h₁, h₂⟩
      | @required _ _ _ _ v hv h =>
        obtain ⟨vs₁, vs₂, s₁, s₂, rfl, rfl, h₁, h₂⟩ := ih h
        exact ⟨some v :: vs₁, vs₂, v ++ s₁, s₂, rfl, by simp, .required hv h₁, h₂⟩
      | @present _ _ _ g v hv h =>
        obtain ⟨vs₁, vs₂, s₁, s₂, rfl, rfl, h₁, h₂⟩ := ih h
        exact ⟨some v :: vs₁, vs₂, _, s₂, rfl, by simp, .present hv h₁, h₂⟩
      | absent h =>
        obtain ⟨vs₁, vs₂, s₁, s₂, rfl, rfl, h₁, h₂⟩ := ih h
        exact ⟨none :: vs₁, vs₂, s₁, s₂, rfl, rfl, .absent h₁, h₂⟩
  · rintro ⟨vs₁, vs₂, s₁, s₂, rfl, rfl, h₁, h₂⟩
    induction h₁ with
    | nil => exact h₂
    | literal t _ ih => rw [List.append_assoc]; exact .literal t ih
    | required hv _ ih => rw [List.append_assoc]; exact .required hv ih
    | present hv _ ih =>
      rw [List.append_assoc, List.append_assoc, List.append_assoc]
      exact .present hv ih
    | absent _ ih => exact .absent ih

/-! ### Finding the greedy cut -/

/-- The greedy way to cut a text along pieces, if there is any way. -/
def fit? : List Piece → List Char → Option Cut
  | [], s => if s = [] then some [] else none
  | .literal t :: ps, s => (s.dropPrefix? t).bind (fit? ps)
  | .required t :: ps, s =>
    (t.marker.lengths s).findSome? fun k => (fit? ps (s.drop k)).map (some (s.take k) :: ·)
  | .optional g :: ps, s =>
    ((s.dropPrefix? g.before).bind fun r =>
        (g.token.marker.lengths r).findSome? fun k =>
          ((r.drop k).dropPrefix? g.after).bind fun q =>
            (fit? ps q).map (some (r.take k) :: ·)).or
      ((fit? ps s).map (none :: ·))

lemma dropPrefix?_eq_some {s t r : List Char} : s.dropPrefix? t = some r ↔ s = t ++ r := by
  rw [List.dropPrefix?_eq_some_iff]
  constructor
  · rintro ⟨t', rfl, h⟩
    rw [eq_of_beq h]
  · rintro rfl
    exact ⟨t, rfl, by simp⟩

lemma dropPrefix?_append (t r : List Char) : (t ++ r).dropPrefix? t = some r :=
  dropPrefix?_eq_some.mpr rfl

variable {ps : List Piece} {vs : Cut} {s : List Char}

lemma length_mem_lengths {m : Marker} {v : List Char} (hv : m.Admits v) (r : List Char) :
    v.length ∈ m.lengths (v ++ r) := by
  rw [Marker.mem_lengths, List.take_left]
  exact ⟨by simp, hv⟩

lemma exists_of_mem_lengths {m : Marker} {k : Nat} (h : k ∈ m.lengths s) :
    ∃ v r, s = v ++ r ∧ v.length = k ∧ m.Admits v := by
  obtain ⟨hle, hv⟩ := Marker.mem_lengths.mp h
  exact ⟨s.take k, s.drop k, (List.take_append_drop k s).symm, List.length_take_of_le hle, hv⟩

lemma isSome_fit? (h : Cuts ps vs s) : (fit? ps s).isSome = true := by
  induction h with
  | nil => rfl
  | literal t _ ih => rw [fit?, dropPrefix?_append]; exact ih
  | required hv _ ih =>
    rw [fit?, List.isSome_findSome?, List.any_eq_true]
    refine ⟨_, length_mem_lengths hv _, ?_⟩
    rw [List.drop_left, Option.isSome_map]
    exact ih
  | present hv _ ih =>
    rw [fit?, dropPrefix?_append, Option.isSome_or, Option.bind_some, List.isSome_findSome?,
      Bool.or_eq_true, List.any_eq_true]
    refine .inl ⟨_, length_mem_lengths hv _, ?_⟩
    rw [List.drop_left, dropPrefix?_append, Option.bind_some, Option.isSome_map]
    exact ih
  | absent _ ih =>
    rw [fit?, Option.isSome_or, Option.isSome_map, ih, Bool.or_true]

lemma not_fits_of_fit? (h : fit? ps s = none) : ¬ Fits ps s := by
  rintro ⟨vs, hvs⟩
  have := isSome_fit? hvs
  rw [h] at this
  cases this

lemma greedyCut_of_fit? (h : fit? ps s = some vs) : GreedyCut ps vs s := by
  induction ps generalizing vs s with
  | nil =>
    rw [fit?] at h
    split at h
    · rename_i hs
      cases h
      subst hs
      exact .nil
    · cases h
  | cons p ps ih =>
    cases p with
    | literal t =>
      rw [fit?] at h
      obtain ⟨r, hr, h⟩ := Option.bind_eq_some_iff.mp h
      rw [dropPrefix?_eq_some.mp hr]
      exact .literal t (ih h)
    | required t =>
      rw [fit?] at h
      obtain ⟨_, hk, hf, hmax⟩ := Marker.findSome?_lengths.mp h
      obtain ⟨v, r, rfl, rfl, hv⟩ := exists_of_mem_lengths hk
      rw [List.drop_left, List.take_left] at hf
      obtain ⟨vs', hvs, rfl⟩ := Option.map_eq_some_iff.mp hf
      refine .required hv (ih hvs) fun v' s' he hv' hfit => ?_
      -- a longer part that leaves a rest with a cut would have been taken first
      by_contra hlt
      rw [← he] at hmax
      have hnone := hmax _ (length_mem_lengths hv' s') (Nat.not_le.mp hlt)
      rw [Option.map_eq_none_iff, List.drop_left] at hnone
      exact not_fits_of_fit? hnone hfit
    | optional g =>
      rw [fit?] at h
      rcases Option.or_eq_some_iff.mp h with h | ⟨hnone, h⟩
      · obtain ⟨r, hr, h⟩ := Option.bind_eq_some_iff.mp h
        obtain ⟨_, hk, hf, hmax⟩ := Marker.findSome?_lengths.mp h
        obtain ⟨v, r', rfl, rfl, hv⟩ := exists_of_mem_lengths hk
        rw [List.drop_left, List.take_left] at hf
        obtain ⟨q, hq, hf⟩ := Option.bind_eq_some_iff.mp hf
        obtain ⟨vs', hvs, rfl⟩ := Option.map_eq_some_iff.mp hf
        rw [dropPrefix?_eq_some.mp hq] at hr hmax
        rw [dropPrefix?_eq_some.mp hr]
        refine .present hv (ih hvs) fun v' s' he hv' hfit => ?_
        by_contra hlt
        rw [← he] at hmax
        have hnone := hmax _ (length_mem_lengths hv' _) (Nat.not_le.mp hlt)
        rw [List.drop_left, dropPrefix?_append, Option.bind_some, Option.map_eq_none_iff] at hnone
        exact not_fits_of_fit? hnone hfit
      · obtain ⟨vs', hvs, rfl⟩ := Option.map_eq_some_iff.mp h
        refine .absent (ih hvs) fun v s' he hv hfit => ?_
        rw [he, dropPrefix?_append, Option.bind_some, List.findSome?_eq_none_iff] at hnone
        have := hnone _ (length_mem_lengths hv _)
        rw [List.drop_left, dropPrefix?_append, Option.bind_some, Option.map_eq_none_iff] at this
        exact not_fits_of_fit? this hfit

/-- The greedy cut is found, so there is only one. -/
lemma fit?_of_greedyCut (h : GreedyCut ps vs s) : fit? ps s = some vs := by
  induction h with
  | nil => rfl
  | literal t _ ih => rw [fit?, dropPrefix?_append]; exact ih
  | @required ps vs s t v hv _ hmax ih =>
    rw [fit?, Marker.findSome?_lengths]
    refine ⟨v.length, length_mem_lengths hv s, ?_, fun j hj hlt => ?_⟩
    · rw [List.drop_left, List.take_left, ih]
      rfl
    · -- a longer part is tried first, and none of those leaves a rest that fits
      obtain ⟨v', s', he, rfl, hv'⟩ := exists_of_mem_lengths hj
      rw [he, List.drop_left, Option.map_eq_none_iff]
      rcases hf : fit? ps s' with _ | vs'
      · rfl
      · have := hmax v' s' he.symm hv' ⟨vs', (greedyCut_of_fit? hf).cuts⟩
        omega
  | @present ps vs s g v hv _ hmax ih =>
    rw [fit?, dropPrefix?_append, Option.bind_some]
    refine Option.or_eq_some_iff.mpr (.inl (Marker.findSome?_lengths.mpr ?_))
    refine ⟨v.length, length_mem_lengths hv _, ?_, fun j hj hlt => ?_⟩
    · rw [List.drop_left, List.take_left, dropPrefix?_append, Option.bind_some, ih]
      rfl
    · obtain ⟨v', r, he, rfl, hv'⟩ := exists_of_mem_lengths hj
      rw [he, List.drop_left]
      rcases hr : r.dropPrefix? g.after with _ | s'
      · rfl
      · rw [Option.bind_some, Option.map_eq_none_iff]
        rcases hf : fit? ps s' with _ | vs'
        · rfl
        · rw [dropPrefix?_eq_some.mp hr] at he
          have := hmax v' s' he.symm hv' ⟨vs', (greedyCut_of_fit? hf).cuts⟩
          omega
  | @absent ps vs s g _ hnone ih =>
    rw [fit?, ih]
    refine Option.or_eq_some_iff.mpr (.inr ⟨?_, rfl⟩)
    rcases hr : s.dropPrefix? g.before with _ | r
    · rfl
    · rw [Option.bind_some, List.findSome?_eq_none_iff]
      intro k hk
      obtain ⟨v, q, rfl, rfl, hv⟩ := exists_of_mem_lengths hk
      rw [List.drop_left]
      rcases hq : q.dropPrefix? g.after with _ | s'
      · rfl
      · rw [Option.bind_some, Option.map_eq_none_iff]
        rcases hf : fit? ps s' with _ | vs'
        · rfl
        · rw [dropPrefix?_eq_some.mp hq] at hr
          exact absurd ⟨vs', (greedyCut_of_fit? hf).cuts⟩
            (hnone v s' (dropPrefix?_eq_some.mp hr) hv)

/-- **The greedy cut** is the one that is found. -/
theorem fit?_eq_some_iff : fit? ps s = some vs ↔ GreedyCut ps vs s :=
  ⟨greedyCut_of_fit?, fit?_of_greedyCut⟩

/-- Where there is only one cut, it is the greedy one. -/
lemma Cuts.greedyCut (h : Cuts ps vs s) (hunique : ∀ ws, Cuts ps ws s → ws = vs) :
    GreedyCut ps vs s := by
  obtain ⟨ws, hws⟩ := Option.isSome_iff_exists.mp (isSome_fit? h)
  have hgreedy := fit?_eq_some_iff.mp hws
  rwa [hunique ws hgreedy.cuts] at hgreedy

/-- Nothing is found just where there is no way to cut the text. -/
theorem fit?_eq_none_iff : fit? ps s = none ↔ ¬ Fits ps s := by
  refine ⟨not_fits_of_fit?, fun h => ?_⟩
  rcases hf : fit? ps s with _ | vs
  · rfl
  · exact absurd ⟨vs, (greedyCut_of_fit? hf).cuts⟩ h

end Piece

end Signpost
