import Signpost.Proofs.Regex.Search
import Signpost.Proofs.Template.Compile
import Signpost.Proofs.Template.Expression

/-!
What the expression of a template finds. The search goes through the pieces as `Piece.fit?` does,
from left to right and the longest part first; so it succeeds just where there is a cut, and what
it records is the greedy one.
-/

namespace Signpost

open Regex

variable {β : Type} {g : Cursor → Option β}

/-- The places where a parameter can end, the farthest first. -/
lemma Marker.run_expr (m : Marker) (s u : List Char) (past : List (String × Nat × Nat)) :
    m.expr.run (u ++ s).toArray ⟨u.length, past⟩ =
      (m.lengths s).map fun k => ⟨u.length + k, past⟩ := by
  unfold expr lengths
  by_cases hm : m = wildcard
  · simp only [hm, if_true]
    rw [Expr.run_star_set, mem_charSet, List.map_reverse]
    rfl
  · simp only [hm, if_false]
    rw [Expr.run_plus_set, mem_charSet, List.map_reverse, List.map_tail]
    rfl

lemma Token.findSome?_run (i : Nat) (t : Token) (s u : List Char)
    (past : List (String × Nat × Nat)) :
    ((t.expr i).run (u ++ s).toArray ⟨u.length, past⟩).findSome? g =
      (t.marker.lengths s).findSome? fun k =>
        g ⟨u.length + k, (groupName i, u.length, u.length + k) :: past⟩ := by
  rw [Token.expr, Expr.findSome?_capture, Marker.run_expr, List.findSome?_map]
  rfl

/-- Inside an optional group the text before is stepped over, the parameter is recorded, and the
text after is stepped over. -/
lemma OptionalGroup.follow_exprs (i : Nat) (q : OptionalGroup) (s u : List Char)
    (past : List (String × Nat × Nat)) :
    Expr.follow (u ++ s).toArray (q.exprs i) g ⟨u.length, past⟩ =
      (s.dropPrefix? q.before).bind fun r => (q.token.marker.lengths r).findSome? fun k =>
        ((r.drop k).dropPrefix? q.after).bind fun _ =>
          g ⟨(((u ++ q.before) ++ r.take k) ++ q.after).length,
            (groupName i, (u ++ q.before).length, ((u ++ q.before) ++ r.take k).length) ::
              past⟩ := by
  rw [exprs, Expr.follow_append, Expr.follow_literals]
  refine Option.bind_congr fun r hr => ?_
  have hs : u ++ s = (u ++ q.before) ++ r := by
    rw [Piece.dropPrefix?_eq_some.mp hr, List.append_assoc]
  rw [hs, Expr.follow_cons, Token.findSome?_run]
  refine findSome?_congr fun k hk => ?_
  obtain ⟨v, r', rfl, rfl, -⟩ := Piece.exists_of_mem_lengths hk
  have hs' : (u ++ q.before) ++ (v ++ r') = ((u ++ q.before) ++ v) ++ r' :=
    (List.append_assoc _ _ _).symm
  rw [List.drop_left, List.take_left, hs', ← List.length_append, Expr.follow_literals]

namespace Piece

/-- What a search records for a cut from a place on, on top of what it has recorded before. -/
def recorded (i pos : Nat) (past : List (String × Nat × Nat)) :
    List Piece → Cut → List (String × Nat × Nat)
  | .literal t :: ps, vs => recorded i (pos + t.length) past ps vs
  | .required _ :: ps, some v :: vs =>
    let last := pos + v.length
    recorded (i + 1) last ((groupName i, pos, last) :: past) ps vs
  | .optional g :: ps, some v :: vs =>
    let first := pos + g.before.length
    let last := first + v.length
    recorded (i + 1) (last + g.after.length) ((groupName i, first, last) :: past) ps vs
  | .optional _ :: ps, none :: vs => recorded (i + 1) pos past ps vs
  | _, _ => past

/-- From any place on the search finds the greedy cut of the rest. -/
lemma follow_allExprs (ps : List Piece) (i : Nat) (s u : List Char)
    (past : List (String × Nat × Nat)) :
    Expr.follow (u ++ s).toArray (allExprs i ps ++ [.look .textEnd]) some ⟨u.length, past⟩ =
      (fit? ps s).map fun vs => ⟨(u ++ s).length, recorded i u.length past ps vs⟩ := by
  induction ps generalizing i s u past with
  | nil =>
    by_cases hs : s = []
    · subst hs
      simp [allExprs, Expr.follow, Expr.run, Look.holds, fit?, recorded]
    · simp [allExprs, Expr.follow, Expr.run, Look.holds, fit?, hs]
  | cons p ps ih =>
    cases p with
    | literal t =>
      rw [allExprs_literal, List.append_assoc, Expr.follow_append, Expr.follow_literals, fit?]
      rcases h : s.dropPrefix? t with _ | r
      · rfl
      · have hs : u ++ s = (u ++ t) ++ r := by rw [dropPrefix?_eq_some.mp h, List.append_assoc]
        rw [Option.bind_some, Option.bind_some, hs, ih]
        simp only [recorded, List.length_append]
    | required t =>
      rw [allExprs_required, List.cons_append, Expr.follow_cons, Token.findSome?_run, fit?,
        List.map_findSome?]
      refine findSome?_congr fun k hk => ?_
      obtain ⟨v, r, rfl, rfl, -⟩ := exists_of_mem_lengths hk
      have hs : u ++ (v ++ r) = (u ++ v) ++ r := (List.append_assoc _ _ _).symm
      rw [Function.comp_apply, List.drop_left, List.take_left, Option.map_map, hs,
        ← List.length_append, ih]
      simp only [List.length_append]
      rfl
    | optional q =>
      have hblind : Blind (Expr.follow (u ++ s).toArray
          (allExprs (i + 1) ps ++ [.look .textEnd]) some) :=
        Expr.blind_follow _ blind_some
      rw [allExprs_optional, List.cons_append, Expr.follow_cons,
        Expr.findSome?_upTo_one _ hblind, Expr.findSome?_sequence _ hblind,
        OptionalGroup.follow_exprs, fit?, Option.map_or, Option.map_bind]
      congr 1
      · refine Option.bind_congr fun r hr => ?_
        rw [Function.comp_apply, List.map_findSome?]
        refine findSome?_congr fun k hk => ?_
        obtain ⟨v, r', rfl, rfl, -⟩ := exists_of_mem_lengths hk
        rw [Function.comp_apply, List.drop_left, List.take_left, Option.map_bind]
        refine Option.bind_congr fun r'' hr' => ?_
        -- the whole text, cut behind the group
        have hs : u ++ s = (((u ++ q.before) ++ v) ++ q.after) ++ r'' := by
          rw [dropPrefix?_eq_some.mp hr, dropPrefix?_eq_some.mp hr']
          simp only [List.append_assoc]
        rw [Function.comp_apply, Option.map_map, hs, ih]
        simp only [List.length_append]
        rfl
      · rw [Option.map_map, ih]
        rfl

lemma findSome?_some {α : Type} (l : List α) : l.findSome? some = l.head? := by
  cases l <;> rfl

/-- The search finds the greedy cut of the whole text, and nothing if there is no cut. -/
theorem find?_exprOf (ps : List Piece) (s : List Char) :
    (Template.exprOf ps).find? s.toArray =
      (fit? ps s).map fun vs => ⟨s.length, recorded 0 0 [] ps vs⟩ := by
  generalize hx : ((fit? ps s).map fun vs => Cursor.mk s.length (recorded 0 0 [] ps vs)) = x
  have hat : ∀ pos, (Template.exprOf ps).matchAt? s.toArray pos =
      if pos = 0 then x else none := by
    intro pos
    rw [Expr.matchAt?, ← findSome?_some, Template.exprOf, Expr.findSome?_sequence _ blind_some,
      Expr.follow_cons]
    by_cases hpos : pos = 0
    · subst hpos
      have h := follow_allExprs ps 0 s [] []
      rcases x with _ | c <;> simp_all [Expr.run, Look.holds]
    · simp [Expr.run, Look.holds, hpos]
  rw [Expr.find?, List.range_succ_eq_map, List.findSome?_cons, hat 0, if_pos rfl]
  rcases x with _ | c
  · refine List.findSome?_eq_none_iff.mpr fun pos hpos => ?_
    obtain ⟨k, -, rfl⟩ := List.mem_map.mp hpos
    rw [hat, if_neg (Nat.succ_ne_zero k)]
  · rfl

/-! ### Looking up what was recorded -/

section Recorded

variable {n i pos : Nat} {past : List (String × Nat × Nat)} {name : String}

lemma capture?_cons (other : String) (first last : Nat) :
    (Cursor.mk n ((other, first, last) :: past)).capture? name =
      if other = name then some (first, last) else (Cursor.mk n past).capture? name := by
  by_cases h : other = name <;> simp [Cursor.capture?, h]

lemma capture?_recorded (hname : ∀ j, i ≤ j → groupName j ≠ name) (ps : List Piece) (vs : Cut) :
    (Cursor.mk n (recorded i pos past ps vs)).capture? name =
      (Cursor.mk n past).capture? name := by
  have hnext : ∀ {i}, (∀ j, i ≤ j → groupName j ≠ name) → ∀ j, i + 1 ≤ j → groupName j ≠ name :=
    fun h j hj => h j (by omega)
  induction ps generalizing i pos past vs with
  | nil => rfl
  | cons p ps ih =>
    cases p with
    | literal t =>
      exact ih hname vs
    | required t =>
      rcases vs with _ | ⟨_ | v, vs⟩
      · rfl
      · rfl
      · rw [recorded, ih (hnext hname), capture?_cons, if_neg (hname i (Nat.le_refl i))]
    | optional g =>
      rcases vs with _ | ⟨_ | v, vs⟩
      · rfl
      · exact ih (hnext hname) vs
      · rw [recorded, ih (hnext hname), capture?_cons, if_neg (hname i (Nat.le_refl i))]

lemma groupName_ne {j : Nat} (h : i + 1 ≤ j) : groupName j ≠ groupName i := fun e => by
  have := groupName_injective e
  omega

/-- Nothing is recorded yet for the parameters from number `i` on. -/
def Fresh (i : Nat) (past : List (String × Nat × Nat)) : Prop :=
  ∀ n j, i ≤ j → (Cursor.mk n past).capture? (groupName j) = none

lemma Fresh.succ (h : Fresh i past) : Fresh (i + 1) past := fun n j hj => h n j (by omega)

lemma Fresh.cons (h : Fresh i past) (first last : Nat) :
    Fresh (i + 1) ((groupName i, first, last) :: past) := fun n j hj => by
  rw [capture?_cons, if_neg (groupName_ne hj).symm]
  exact h n j (by omega)

lemma group?_recorded (u v s : List Char) (ps : List Piece) (vs : Cut) :
    (Match.mk (u ++ (v ++ s)) ⟨n, recorded (i + 1) pos
      ((groupName i, u.length, u.length + v.length) :: past) ps vs⟩).group? (groupName i) =
        some v := by
  rw [Match.group?, capture?_recorded (fun j hj => groupName_ne hj), capture?_cons, if_pos rfl]
  simp

lemma fresh_nil : Fresh 0 [] := fun _ _ _ => rfl

/-- What was recorded for a cut gives back each of its parts under the number of the part. -/
lemma zip_recorded {takes : Token → List Char → Prop} {ps : List Piece} {vs : Cut}
    {s u : List Char} (h : Placed takes ps vs s)
    (hpast : Fresh i past) :
    ((tokens ps).zipIdx i).map (fun (t, j) =>
        (t, (Match.mk (u ++ s) ⟨n, recorded i u.length past ps vs⟩).group? (groupName j))) =
      (tokens ps).zip vs := by
  induction h generalizing i u past with
  | nil => rfl
  | literal t _ ih =>
    have := ih (u := u ++ t) hpast
    rwa [List.append_assoc, List.length_append] at this
  | @required ps vs s t v hv _ ih =>
    have htail := ih (u := u ++ v) (hpast.cons u.length (u.length + v.length))
    rw [List.append_assoc, List.length_append] at htail
    rw [tokens_required_cons, List.zipIdx_cons, List.map_cons, List.zip_cons_cons, recorded]
    simp only [htail, group?_recorded]
  | @present ps vs s g v hv _ ih =>
    generalize hw : u ++ g.before = w
    have htail := ih (u := w ++ v ++ g.after) (hpast.cons w.length (w.length + v.length))
    rw [List.append_assoc (w ++ v), List.append_assoc w, List.length_append,
      List.length_append] at htail
    have happ : u ++ (g.before ++ (v ++ (g.after ++ s))) = w ++ (v ++ (g.after ++ s)) := by
      rw [← hw, List.append_assoc]
    have hlen : u.length + g.before.length = w.length := by rw [← hw, List.length_append]
    rw [tokens_optional_cons, List.zipIdx_cons, List.map_cons, List.zip_cons_cons, recorded, happ,
      hlen]
    simp only [htail, group?_recorded]
  | @absent ps vs s g _ ih =>
    have hhead : (Match.mk (u ++ s) ⟨n, recorded (i + 1) u.length past ps vs⟩).group?
        (groupName i) = none := by
      rw [Match.group?, capture?_recorded (fun j hj => groupName_ne hj), hpast n i (Nat.le_refl i)]
      rfl
    rw [tokens_optional_cons, List.zipIdx_cons, List.map_cons, List.zip_cons_cons, recorded,
      ih hpast.succ]
    simp only [hhead]

end Recorded

end Piece

end Signpost
