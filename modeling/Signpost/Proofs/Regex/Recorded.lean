import Mathlib.Tactic.Common
import Signpost.Regex.Match

/-!
What was recorded before a search. Parts recorded on the way to a place do not change where a match
can end from there, nor in which order the ends are tried: they only stay behind what the search
records itself.
-/

namespace Signpost.Regex

/-- The cursor with parts that were recorded earlier. -/
def Cursor.lift (earlier : List (String × Nat × Nat)) (c : Cursor) : Cursor :=
  { c with captures := c.captures ++ earlier }

@[simp] lemma Cursor.lift_pos (earlier : List (String × Nat × Nat)) (c : Cursor) :
    (c.lift earlier).pos = c.pos := rfl

namespace Walk

def lift (earlier : List (String × Nat × Nat)) (w : Walk) : Walk :=
  { w with found := w.found.map (Cursor.lift earlier) }

variable {earlier : List (String × Nat × Nat)} {step : Cursor → List Cursor}

@[simp] lemma start_lift : start.lift earlier = start := rfl

@[simp] lemma lift_begun (w : Walk) : (w.lift earlier).begun = w.begun := rfl

@[simp] lemma lift_begin (w : Walk) (round : Nat) :
    (w.lift earlier).begin round = (w.begin round).lift earlier := rfl

@[simp] lemma lift_cursors (w : Walk) :
    (w.lift earlier).cursors = w.cursors.map (Cursor.lift earlier) := by
  simp [cursors, lift]

@[simp] lemma report_lift (w : Walk) (c : Cursor) :
    (w.lift earlier).report (c.lift earlier) = (w.report c).lift earlier := by
  unfold report
  by_cases h : w.seen.testBit c.pos = true <;> simp [lift, h]

lemma foldl_lift {f : Walk → Cursor → Walk}
    (hf : ∀ w c, f (w.lift earlier) (c.lift earlier) = (f w c).lift earlier)
    (cs : List Cursor) (w : Walk) :
    (cs.map (Cursor.lift earlier)).foldl f (w.lift earlier) = (cs.foldl f w).lift earlier := by
  induction cs generalizing w with
  | nil => rfl
  | cons c cs ih => rw [List.map_cons, List.foldl_cons, List.foldl_cons, hf, ih]

lemma rounds_lift (hs : ∀ c, step (c.lift earlier) = (step c).map (Cursor.lift earlier))
    (greedy : Bool) (fuel : Nat) (w : Walk) (c : Cursor) :
    rounds step greedy fuel (w.lift earlier) (c.lift earlier) =
      (rounds step greedy fuel w c).lift earlier := by
  induction fuel generalizing w c with
  | zero => exact report_lift w c
  | succ fuel ih =>
    have hfilter : (step (c.lift earlier)).filter (fun d => (c.lift earlier).pos < d.pos) =
        ((step c).filter fun d => c.pos < d.pos).map (Cursor.lift earlier) := by
      rw [hs, List.filter_map]
      rfl
    simp only [rounds, hfilter]
    simp only [Cursor.lift_pos]
    cases greedy
    · simp only [Bool.false_eq_true, if_false, report_lift, lift_begun]
      split
      · rw [report_lift]
      · rw [lift_begin, foldl_lift ih, report_lift]
    · simp only [if_true, lift_begun]
      split
      · rw [report_lift]
      · rw [lift_begin, foldl_lift ih, report_lift]

lemma atLeastOne_lift (hs : ∀ c, step (c.lift earlier) = (step c).map (Cursor.lift earlier))
    (greedy : Bool) (fuel : Nat) (w : Walk) (c : Cursor) :
    atLeastOne step greedy fuel (w.lift earlier) (c.lift earlier) =
      (atLeastOne step greedy fuel w c).lift earlier := by
  unfold atLeastOne
  rw [hs]
  refine foldl_lift (fun w d => ?_) (step c) w
  by_cases h : c.pos < d.pos
  · simp [h, rounds_lift hs]
  · simp [h]

lemma atMost_lift (hs : ∀ c, step (c.lift earlier) = (step c).map (Cursor.lift earlier))
    (greedy : Bool) (width n : Nat) (w : Walk) (c : Cursor) :
    atMost step greedy width n (w.lift earlier) (c.lift earlier) =
      (atMost step greedy width n w c).lift earlier := by
  induction n generalizing w c with
  | zero => exact report_lift w c
  | succ n ih =>
    simp only [atMost, Cursor.lift_pos, hs]
    cases greedy
    · simp only [Bool.false_eq_true, if_false, report_lift, lift_begun]
      split
      · rw [report_lift]
      · rw [lift_begin, foldl_lift ih, report_lift]
    · simp only [if_true, lift_begun]
      split
      · rw [report_lift]
      · rw [lift_begin, foldl_lift ih, report_lift]

end Walk

variable {earlier : List (String × Nat × Nat)}

lemma distinct_lift (cs : List Cursor) :
    distinct (cs.map (Cursor.lift earlier)) = (distinct cs).map (Cursor.lift earlier) := by
  have h := Walk.foldl_lift (f := Walk.report) (@Walk.report_lift earlier) cs Walk.start
  unfold distinct
  rw [← Walk.lift_cursors, ← h, Walk.start_lift]

lemma flatMap_lift {f : Cursor → List Cursor}
    (hf : ∀ c, f (c.lift earlier) = (f c).map (Cursor.lift earlier)) (cs : List Cursor) :
    (cs.map (Cursor.lift earlier)).flatMap f = (cs.flatMap f).map (Cursor.lift earlier) := by
  rw [List.flatMap_map, List.map_flatMap]
  simp only [hf]

lemma iterate_lift {step : Cursor → List Cursor}
    (hs : ∀ c, step (c.lift earlier) = (step c).map (Cursor.lift earlier))
    (n : Nat) (cs : List Cursor) :
    iterate step n (cs.map (Cursor.lift earlier)) =
      (iterate step n cs).map (Cursor.lift earlier) := by
  induction n generalizing cs with
  | zero => rfl
  | succ n ih =>
    rcases cs with _ | ⟨c, cs⟩
    · rfl
    · exact (congrArg (iterate step n) (by rw [flatMap_lift hs, distinct_lift])).trans
        (ih (distinct ((c :: cs).flatMap step)))

/-- What was recorded before plays no part in a search; it stays behind what the search records. -/
theorem Expr.run_lift (text : Array Char) (e : Expr) (c : Cursor) :
    e.run text (c.lift earlier) = (e.run text c).map (Cursor.lift earlier) := by
  induction e generalizing c with
  | empty => rfl
  | set chars =>
    simp only [run, Cursor.lift_pos]
    split
    · split <;> rfl
    · rfl
  | look cond =>
    by_cases h : cond.holds text c.pos = true <;> simp [run, h]
  | capture name e ih =>
    simp only [run, ih, List.map_map]
    rfl
  | seq a b iha ihb =>
    simp only [run]
    rw [iha, flatMap_lift ihb, distinct_lift]
  | alt a b iha ihb =>
    simp only [run]
    rw [iha, ihb, ← List.map_append, distinct_lift]
  | times n e ih =>
    simp only [run]
    exact iterate_lift ih n [c]
  | upTo n greedy e ih =>
    simp only [run]
    rw [← Walk.lift_cursors, ← Walk.atMost_lift ih, Walk.start_lift]
  | star greedy e ih =>
    simp only [run]
    cases greedy
    · simp only [Bool.false_eq_true, if_false]
      rw [← Walk.lift_cursors, ← Walk.atLeastOne_lift ih, ← Walk.report_lift, Walk.start_lift]
    · simp only [if_true]
      rw [← Walk.lift_cursors, ← Walk.report_lift, ← Walk.atLeastOne_lift ih, Walk.start_lift]
  | plus greedy e ih =>
    simp only [run]
    rw [← Walk.lift_cursors, ← Walk.atLeastOne_lift ih, Walk.start_lift]

end Signpost.Regex
