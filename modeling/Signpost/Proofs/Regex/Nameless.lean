import Mathlib.Data.List.Basic
import Mathlib.Tactic.Common
import Signpost.Regex.Match

/-!
Where a search can lead. What holds of a place and of every place one round further holds of all
places that a repetition reports; so an expression without names leads onward in the text and
records nothing.
-/

namespace Signpost.Regex

variable {P : Cursor → Prop} {step : Cursor → List Cursor}

namespace Walk

def All (P : Cursor → Prop) (w : Walk) : Prop := ∀ c ∈ w.found, P c

variable {w : Walk} {c : Cursor}

lemma all_start : start.All P := nofun

lemma All.cursors (h : w.All P) : ∀ c ∈ w.cursors, P c := fun c hc =>
  h c (List.mem_reverse.mp hc)

lemma All.begin (h : w.All P) (round : Nat) : (w.begin round).All P := h

lemma All.report (h : w.All P) (hc : P c) : (w.report c).All P := by
  unfold Walk.report
  split
  · exact h
  · intro d hd
    rcases List.mem_cons.mp hd with rfl | hd
    · exact hc
    · exact h d hd

lemma All.foldl {f : Walk → Cursor → Walk} (h : w.All P) {cs : List Cursor}
    (hf : ∀ c ∈ cs, ∀ w : Walk, w.All P → (f w c).All P) : (cs.foldl f w).All P := by
  induction cs generalizing w with
  | nil => exact h
  | cons c cs ih =>
    exact ih (hf c List.mem_cons_self w h) fun d hd => hf d (List.mem_cons_of_mem _ hd)

variable (hs : ∀ c, P c → ∀ d ∈ step c, P d)

include hs

lemma All.rounds (greedy : Bool) (fuel : Nat) (h : w.All P) (hc : P c) :
    (rounds step greedy fuel w c).All P := by
  induction fuel generalizing w c with
  | zero => exact h.report hc
  | succ fuel ih =>
    have hfirst : (if greedy = true then w else w.report c).All P := by
      split
      · exact h
      · exact h.report hc
    simp only [Walk.rounds]
    generalize (if greedy = true then w else w.report c) = first at hfirst ⊢
    refine All.report ?_ hc
    split
    · exact hfirst
    · exact (hfirst.begin _).foldl fun d hd w hw => ih hw (hs c hc d (List.mem_of_mem_filter hd))

lemma All.atLeastOne (greedy : Bool) (fuel : Nat) (h : w.All P) (hc : P c) :
    (atLeastOne step greedy fuel w c).All P := by
  refine h.foldl fun d hd w hw => ?_
  split
  · exact hw.rounds hs greedy fuel (hs c hc d hd)
  · exact hw.report (hs c hc d hd)

lemma All.atMost (greedy : Bool) (width n : Nat) (h : w.All P) (hc : P c) :
    (atMost step greedy width n w c).All P := by
  induction n generalizing w c with
  | zero => exact h.report hc
  | succ n ih =>
    have hfirst : (if greedy = true then w else w.report c).All P := by
      split
      · exact h
      · exact h.report hc
    simp only [Walk.atMost]
    generalize (if greedy = true then w else w.report c) = first at hfirst ⊢
    refine All.report ?_ hc
    split
    · exact hfirst
    · exact (hfirst.begin _).foldl fun d hd w hw => ih hw (hs c hc d hd)

end Walk

lemma forall_mem_distinct {cs : List Cursor} (h : ∀ c ∈ cs, P c) : ∀ c ∈ distinct cs, P c :=
  Walk.All.cursors (Walk.all_start.foldl fun c hc _ hw => hw.report (h c hc))

lemma forall_mem_iterate (hs : ∀ c, P c → ∀ d ∈ step c, P d) (n : Nat) {cs : List Cursor}
    (h : ∀ c ∈ cs, P c) : ∀ c ∈ iterate step n cs, P c := by
  induction n generalizing cs with
  | zero => exact h
  | succ n ih =>
    rcases cs with _ | ⟨c, cs⟩
    · nofun
    · refine ih (forall_mem_distinct fun d hd => ?_)
      obtain ⟨c', hc', hd⟩ := List.mem_flatMap.mp hd
      exact hs c' (h c' hc') d hd

/-! ### Expressions without names -/

/-- Nothing is recorded under a name. -/
def Expr.Nameless : Expr → Prop
  | .empty => True
  | .set _ => True
  | .look _ => True
  | .capture _ _ => False
  | .seq a b => a.Nameless ∧ b.Nameless
  | .alt a b => a.Nameless ∧ b.Nameless
  | .times _ e => e.Nameless
  | .upTo _ _ e => e.Nameless
  | .star _ e => e.Nameless
  | .plus _ e => e.Nameless

/-- The second place is reached from the first one going onward within the text, and nothing is
recorded. -/
structure Onward (text : Array Char) (c d : Cursor) : Prop where
  le : c.pos ≤ d.pos
  le_size : c.pos ≤ text.size → d.pos ≤ text.size
  captures : d.captures = c.captures

variable {text : Array Char} {c d d' : Cursor}

lemma Onward.refl (text : Array Char) (c : Cursor) : Onward text c c := ⟨Nat.le_refl _, id, rfl⟩

lemma Onward.trans (h : Onward text c d) (h' : Onward text d d') : Onward text c d' :=
  ⟨Nat.le_trans h.le h'.le, h'.le_size ∘ h.le_size, h'.captures.trans h.captures⟩

/-- **Nothing leaks** out of an expression without names: a match of it ends farther on in the text
and records nothing. -/
theorem Expr.onward_of_mem_run {e : Expr} (he : e.Nameless) (c : Cursor) :
    ∀ d ∈ e.run text c, Onward text c d := by
  induction e generalizing c with
  | empty =>
    intro d hd
    rw [run, List.mem_singleton] at hd
    exact hd ▸ .refl text c
  | set chars =>
    intro d hd
    rw [run] at hd
    split at hd
    · rename_i x hx
      split at hd
      · cases List.mem_singleton.mp hd
        have hlt := (Array.getElem?_eq_some_iff.mp hx).choose
        exact ⟨Nat.le_succ _, fun _ => hlt, rfl⟩
      · cases hd
    · cases hd
  | look cond =>
    intro d hd
    rw [run] at hd
    split at hd
    · exact List.mem_singleton.mp hd ▸ .refl text c
    · cases hd
  | capture name e ih => exact he.elim
  | seq a b iha ihb =>
    refine forall_mem_distinct fun d hd => ?_
    obtain ⟨m, hm, hd⟩ := List.mem_flatMap.mp hd
    exact (iha he.1 c m hm).trans (ihb he.2 m d hd)
  | alt a b iha ihb =>
    refine forall_mem_distinct fun d hd => ?_
    rcases List.mem_append.mp hd with hd | hd
    · exact iha he.1 c d hd
    · exact ihb he.2 c d hd
  | times n e ih =>
    refine forall_mem_iterate (fun m hm d hd => hm.trans (ih he m d hd)) n ?_
    intro d hd
    exact List.mem_singleton.mp hd ▸ .refl text c
  | upTo n greedy e ih =>
    exact (Walk.all_start.atMost (fun m hm d hd => hm.trans (ih he m d hd)) greedy _ n
      (.refl text c)).cursors
  | star greedy e ih =>
    have hs : ∀ m, Onward text c m → ∀ d ∈ e.run text m, Onward text c d :=
      fun m hm d hd => hm.trans (ih he m d hd)
    rw [run]
    split
    · exact ((Walk.all_start.atLeastOne hs greedy _ (.refl text c)).report (.refl text c)).cursors
    · exact ((Walk.all_start.report (.refl text c)).atLeastOne hs greedy _ (.refl text c)).cursors
  | plus greedy e ih =>
    exact (Walk.all_start.atLeastOne (fun m hm d hd => hm.trans (ih he m d hd)) greedy _
      (.refl text c)).cursors

end Signpost.Regex
