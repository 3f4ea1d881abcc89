import Signpost.Proofs.Regex.Nameless
import Signpost.Proofs.Template.Captured

/-!
What the expression of a template can find, whatever the patterns of its parameters are. As long as
nothing in them is recorded, a match puts the text together of the pieces, and what it records is
where the texts of the parameters stand.
-/

namespace Signpost

open Regex

variable {g : Cursor → Option Cursor} {c : Cursor}

/-- Only texts with a property are matched. -/
def Regex.Expr.MatchesOnly (e : Expr) (P : List Char → Prop) : Prop :=
  ∀ (u v s : List Char) (past : List (String × Nat × Nat)),
    ⟨(u ++ v).length, past⟩ ∈ e.run (u ++ (v ++ s)).toArray ⟨u.length, past⟩ → P v

lemma Marker.matchesOnly (m : Marker) : m.expr.MatchesOnly m.Admits := by
  intro u v s past h
  rw [m.run_expr] at h
  obtain ⟨k, hk, he⟩ := List.mem_map.mp h
  have hlength : k = v.length := by
    have := congrArg Cursor.pos he
    simp only [List.length_append] at this
    omega
  have hadmits := (Marker.mem_lengths.mp hk).2
  rwa [hlength, List.take_left] at hadmits

lemma Regex.Expr.exists_of_findSome?_capture {e : Expr} (he : e.Nameless) {name : String}
    {u s : List Char} {past : List (String × Nat × Nat)}
    (h : ((Expr.capture name e).run (u ++ s).toArray ⟨u.length, past⟩).findSome? g = some c) :
    ∃ v r, s = v ++ r ∧
      ⟨(u ++ v).length, past⟩ ∈ e.run (u ++ (v ++ r)).toArray ⟨u.length, past⟩ ∧
      g ⟨(u ++ v).length, (name, u.length, (u ++ v).length) :: past⟩ = some c := by
  rw [Expr.findSome?_capture] at h
  obtain ⟨d, hd, hg⟩ := List.exists_of_findSome?_eq_some h
  obtain ⟨hle, hsize, hcaptures⟩ := Expr.onward_of_mem_run he _ d hd
  obtain ⟨pos, captures⟩ := d
  cases hcaptures
  have hpos : pos ≤ u.length + s.length := by
    simpa using hsize (by simp)
  obtain ⟨v, r, rfl, hv⟩ : ∃ v r, s = v ++ r ∧ u.length + v.length = pos := by
    refine ⟨s.take (pos - u.length), s.drop (pos - u.length),
      (List.take_append_drop _ s).symm, ?_⟩
    rw [List.length_take]
    simp only at hle
    omega
  rw [← hv, ← List.length_append] at hd hg
  exact ⟨v, r, rfl, hd, hg⟩

namespace Piece

variable {inner : Token → Expr} {takes : Token → List Char → Prop}

/-- From any place on the search finds the rest put together of the pieces. -/
lemma exists_placed_of_follow {ps : List Piece}
    (hinner : ∀ t ∈ tokens ps, (inner t).Nameless ∧ (inner t).MatchesOnly (takes t))
    {i : Nat} {s u : List Char} {past : List (String × Nat × Nat)}
    (h : Expr.follow (u ++ s).toArray (allExprsWith inner i ps ++ [.look .textEnd]) some
      ⟨u.length, past⟩ = some c) :
    ∃ vs, Placed takes ps vs s ∧ c = ⟨(u ++ s).length, recorded i u.length past ps vs⟩ := by
  induction ps generalizing i s u past with
  | nil =>
    by_cases hs : s = []
    · subst hs
      refine ⟨[], .nil, ?_⟩
      simpa [allExprsWith, Expr.follow, Expr.run, Look.holds, recorded] using h.symm
    · simp [allExprsWith, Expr.follow, Expr.run, Look.holds, hs] at h
  | cons p ps ih =>
    cases p with
    | literal t =>
      rw [allExprsWith_literal, List.append_assoc, Expr.follow_append, Expr.follow_literals] at h
      obtain ⟨r, hr, h⟩ := Option.bind_eq_some_iff.mp h
      cases dropPrefix?_eq_some.mp hr
      rw [← List.append_assoc] at h
      obtain ⟨vs, hvs, hc⟩ := ih hinner h
      refine ⟨vs, .literal t hvs, ?_⟩
      simp only [hc, recorded, List.length_append, Nat.add_assoc]
    | required t =>
      obtain ⟨ht, hps⟩ := List.forall_mem_cons.mp hinner
      rw [allExprsWith_required, List.cons_append, Expr.follow_cons] at h
      obtain ⟨v, r, rfl, hv, h⟩ := Expr.exists_of_findSome?_capture ht.1 h
      rw [← List.append_assoc] at h
      obtain ⟨vs, hvs, hc⟩ := ih hps h
      refine ⟨some v :: vs, .required (ht.2 u v r past hv) hvs, ?_⟩
      simp only [hc, recorded, List.length_append, Nat.add_assoc]
    | optional q =>
      obtain ⟨ht, hps⟩ := List.forall_mem_cons.mp hinner
      -- what follows does not look at the groups, so the group is tried first and then left out
      have hblind : Blind (Expr.follow (u ++ s).toArray
          (allExprsWith inner (i + 1) ps ++ [.look .textEnd]) some) :=
        Expr.blind_follow _ blind_some
      rw [allExprsWith_optional, List.cons_append, Expr.follow_cons,
        Expr.findSome?_upTo_one _ hblind, Expr.findSome?_sequence _ hblind] at h
      rcases Option.or_eq_some_iff.mp h with h | ⟨-, h⟩
      · rw [Expr.follow_append, Expr.follow_literals] at h
        obtain ⟨r, hr, h⟩ := Option.bind_eq_some_iff.mp h
        cases dropPrefix?_eq_some.mp hr
        rw [← List.append_assoc, Expr.follow_cons] at h
        obtain ⟨v, r, rfl, hv, h⟩ := Expr.exists_of_findSome?_capture ht.1 h
        have hafter : (u ++ q.before) ++ (v ++ r) = ((u ++ q.before) ++ v) ++ r :=
          (List.append_assoc _ _ _).symm
        rw [hafter, Expr.follow_literals] at h
        obtain ⟨r', hr', h⟩ := Option.bind_eq_some_iff.mp h
        cases dropPrefix?_eq_some.mp hr'
        rw [← List.append_assoc] at h
        obtain ⟨vs, hvs, hc⟩ := ih hps h
        refine ⟨some v :: vs, .present (ht.2 _ v _ past hv) hvs, ?_⟩
        rw [hc, recorded]
        simp only [List.append_assoc, List.length_append, Nat.add_assoc]
      · obtain ⟨vs, hvs, hc⟩ := ih hps h
        exact ⟨none :: vs, .absent hvs, hc⟩

/-- **What a match is.** A match of the expression of some pieces is the whole text, put together of
the pieces, and it records where the texts of the parameters stand. -/
theorem exists_placed_of_find? {ps : List Piece}
    (hinner : ∀ t ∈ tokens ps, (inner t).Nameless ∧ (inner t).MatchesOnly (takes t))
    {s : List Char} (h : (Template.exprWith inner ps).find? s.toArray = some c) :
    ∃ vs, Placed takes ps vs s ∧ c = ⟨s.length, recorded 0 0 [] ps vs⟩ := by
  obtain ⟨pos, -, h⟩ := List.exists_of_findSome?_eq_some h
  rw [Expr.matchAt?, ← findSome?_some, Template.exprWith, Expr.findSome?_sequence _ blind_some,
    Expr.follow_cons] at h
  -- the condition in front holds at the beginning only
  by_cases hpos : pos = 0
  · subst hpos
    refine exists_placed_of_follow (u := []) hinner ?_
    simpa [Expr.run, Look.holds] using h
  · simp [Expr.run, Look.holds, hpos] at h

lemma placed_ofLiteral (s : List Char) : Placed takes (ofLiteral s) [] s := by
  unfold ofLiteral
  split
  · rename_i hs
    exact hs ▸ .nil
  · have hplaced : Placed takes [literal s] [] (s ++ []) := .literal s .nil
    rwa [List.append_nil] at hplaced

variable {value : Token → Option (List Char)} {ps : List Piece} {vs : Cut} {s : List Char}

lemma Placed.takes_of_mem (h : Placed takes ps vs s) {t : Token} {v : List Char}
    (ht : (t, some v) ∈ (tokens ps).zip vs) : takes t v := by
  induction h with
  | nil => cases ht
  | literal u _ ih => exact ih ht
  | required hv _ ih =>
    rcases List.mem_cons.mp ht with e | ht
    · cases e
      exact hv
    · exact ih ht
  | present hv _ ih =>
    rcases List.mem_cons.mp ht with e | ht
    · cases e
      exact hv
    · exact ih ht
  | absent _ ih =>
    rcases List.mem_cons.mp ht with e | ht
    · cases e
    · exact ih ht

lemma Placed.shown_eq (h : Placed takes ps vs s)
    (hvalue : ∀ t v, (t, v) ∈ (tokens ps).zip vs → value t = v) : ps.flatMap (shown value) = s := by
  induction h with
  | nil => rfl
  | literal u _ ih => exact congrArg (u ++ ·) (ih hvalue)
  | @required ps vs s t v hv _ ih =>
    rw [List.flatMap_cons, shown, hvalue t (some v) List.mem_cons_self,
      ih fun t' v' h' => hvalue t' v' (List.mem_cons_of_mem _ h')]
    rfl
  | @present ps vs s g v hv _ ih =>
    rw [List.flatMap_cons, shown, hvalue g.token (some v) List.mem_cons_self,
      ih fun t' v' h' => hvalue t' v' (List.mem_cons_of_mem _ h')]
    simp
  | @absent ps vs s g _ ih =>
    rw [List.flatMap_cons, shown, hvalue g.token none List.mem_cons_self,
      ih fun t' v' h' => hvalue t' v' (List.mem_cons_of_mem _ h')]
    rfl

end Piece

end Signpost
