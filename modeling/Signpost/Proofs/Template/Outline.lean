import Mathlib.Data.List.Induction
import Signpost.Proofs.Template.Grouping

/-!
When exactly the check of the parentheses refuses a text. Of the text only its outline matters: the
parentheses outside of angle brackets, and where a pair of angle brackets stood. A text is refused
if an outermost pair of parentheses holds several pairs of angle brackets, or one of them together
with other parentheses. What stands between the angle brackets plays no part, so a text without any
token can be refused.
-/

namespace Signpost.Grouping

/-- The parentheses outside of angle brackets, and a `<` for each pair of angle brackets. A `<` that
is never closed hides the rest; `inAngle` says that one is open at the beginning. -/
def outline : (inAngle : Bool) → List Char → List Char
  | _, [] => []
  | true, c :: s => if c = '>' then '<' :: outline false s else outline true s
  | false, c :: s =>
    if c = '<' then outline true s
    else if c = '(' ∨ c = ')' then c :: outline false s
    else outline false s

/-- What an outermost pair of parentheses around `b` is refused for: several pairs of angle
brackets, or one of them together with other parentheses. -/
def Crammed (b : List Char) : Prop := 1 < b.count '<' ∨ '<' ∈ b ∧ '(' ∈ b

instance (b : List Char) : Decidable (Crammed b) := inferInstanceAs (Decidable (_ ∨ _))

/-- An outermost pair of parentheses in an outline, behind `a` and around `b`, holds too much. -/
def Overfull (u : List Char) : Prop :=
  ∃ a b c, u = a ++ '(' :: (b ++ ')' :: c) ∧ Text.openAfter 0 a = 0 ∧
    (∀ v, v <+: b → 0 < Text.openAfter 1 v) ∧ Text.openAfter 1 b = 1 ∧ Crammed b

def mark (g : Grouping) (c : Char) : Except TemplateFault Grouping :=
  if c = '<' then .ok g.behindToken else g.step c

def walk (g : Grouping) : List Char → Except TemplateFault Grouping
  | [] => .ok g
  | c :: u =>
    match g.mark c with
    | .error e => .error e
    | .ok g' => g'.walk u

variable {g g' : Grouping} {s u : List Char} {c : Char} {e : TemplateFault}

lemma mark_bracket : g.mark '<' = .ok g.behindToken := rfl

lemma mark_of_ne (hc : c ≠ '<') : g.mark c = g.step c := if_neg hc

/-- The check of a text is the walk along its outline. -/
lemma walk_outline (g : Grouping) (s : List Char) :
    (walk { g with inToken := false } (outline g.inToken s)).map (fun _ => ()) =
      (run g s).map fun _ => () := by
  -- what the outline drops, inside a token or outside of all brackets, moves nothing
  induction s generalizing g with
  | nil => cases g; cases ‹Bool› <;> rfl
  | cons c s ih =>
    obtain ⟨inToken, depth, nested, tokens⟩ := g
    cases inToken with
    | true =>
      by_cases hc : c = '>'
      · subst hc
        exact ih ⟨false, depth, nested, if 0 < depth then tokens + 1 else tokens⟩
      · have hstep : step ⟨true, depth, nested, tokens⟩ c = .ok ⟨true, depth, nested, tokens⟩ := by
          simp [step, hc]
        rw [outline, if_neg hc, run, hstep]
        exact ih ⟨true, depth, nested, tokens⟩
    | false =>
      by_cases hc : c = '<'
      · subst hc
        exact ih ⟨true, depth, nested, tokens⟩
      · by_cases hparen : c = '(' ∨ c = ')'
        · rw [outline, if_neg hc, if_pos hparen, run, walk, mark_of_ne hc]
          rcases hstep : step ⟨false, depth, nested, tokens⟩ c with e | g'
          · rfl
          · have hin := (step_outside rfl hc hstep).1
            have := ih g'
            rw [hin] at this
            obtain ⟨inToken', depth', nested', tokens'⟩ := g'
            cases hin
            exact this
        · have hstep : step ⟨false, depth, nested, tokens⟩ c =
              .ok ⟨false, depth, nested, tokens⟩ := by
            rw [not_or] at hparen
            simp [step, hc, hparen]
          rw [outline, if_neg hc, if_neg hparen, run, hstep]
          exact ih ⟨false, depth, nested, tokens⟩

/-! ### Inside and outside of parentheses -/

lemma walk_append (g : Grouping) (u v : List Char) :
    g.walk (u ++ v) = (g.walk u).bind fun g' => g'.walk v := by
  induction u generalizing g with
  | nil => rfl
  | cons c u ih =>
    rw [List.cons_append, walk, walk]
    rcases g.mark c with e | g'
    · rfl
    · exact ih g'

/-- The state behind an outermost open parenthesis and the part `b` behind it. -/
def within (b : List Char) : Grouping :=
  ⟨false, Text.openAfter 1 b, decide ('(' ∈ b), b.count '<'⟩

lemma openAfter_concat (d : Nat) (b : List Char) (c : Char) : Text.openAfter d (b ++ [c]) =
    if c = '(' then Text.openAfter d b + 1
    else if c = ')' then Text.openAfter d b - 1 else Text.openAfter d b := by
  rw [Text.openAfter_append]
  rfl

lemma mark_within {b : List Char} (hb : 0 < Text.openAfter 1 b)
    (hc : 0 < Text.openAfter 1 (b ++ [c])) : (within b).mark c = .ok (within (b ++ [c])) := by
  by_cases hlt : c = '<'
  · subst hlt
    simp [mark_bracket, behindToken, within, hb, openAfter_concat]
  rw [mark_of_ne hlt]
  by_cases ho : c = '('
  · subst ho
    simp [step, within, hb, openAfter_concat]
  by_cases hclose : c = ')'
  · subst hclose
    obtain ⟨d, hd⟩ : ∃ d, Text.openAfter 1 b = d + 2 := by
      rw [openAfter_concat, if_neg (by decide), if_pos rfl] at hc
      exact ⟨Text.openAfter 1 b - 2, by omega⟩
    simp [step, within, hd, openAfter_concat]
  · simp [step, within, hlt, ho, hclose, openAfter_concat, Ne.symm ho]

lemma mark_close {b : List Char} (hb : Text.openAfter 1 b = 1) :
    (Crammed b → ∃ e, (within b).mark ')' = .error e) ∧
      (¬ Crammed b → (within b).mark ')' = .ok {}) := by
  have hmem : '<' ∈ b ↔ 0 < b.count '<' := List.count_pos_iff.symm
  have hstep : (within b).mark ')' =
      if 1 < b.count '<' then .error .crowdedGroup
      else if decide ('(' ∈ b) && decide (0 < b.count '<') then .error .nestedGroups
      else .ok {} := by
    rw [mark_of_ne (by decide), step, within, hb]
    rfl
  rw [hstep, Crammed, hmem]
  grind

/-- Behind an outermost parenthesis that is still open, the state tells what has been passed. -/
lemma walk_within {b : List Char} (hb : ∀ v, v <+: b → 0 < Text.openAfter 1 v) :
    walk ⟨false, 1, false, 0⟩ b = .ok (within b) := by
  induction b using List.reverseRecOn with
  | nil => rfl
  | append_singleton b c ih =>
    rw [walk_append, ih fun v hv => hb v (hv.trans (List.prefix_append b [c])), Except.bind, walk,
      mark_within (hb b (List.prefix_append b [c])) (hb _ (List.prefix_refl _))]
    rfl

/-- The states that the outline `u` can lead to: outside of all parentheses, or behind the outermost
open one. -/
inductive At : List Char → Grouping → Prop
  | outside {u : List Char} (hu : Text.openAfter 0 u = 0) : At u {}
  | inside {a b : List Char} (ha : Text.openAfter 0 a = 0)
      (hb : ∀ v, v <+: b → 0 < Text.openAfter 1 v) : At (a ++ '(' :: b) (within b)

lemma At.depth (h : At u g) : g.depth = Text.openAfter 0 u := by
  cases h with
  | outside hu => exact hu.symm
  | inside ha hb =>
    rw [Text.openAfter_append, ha]
    rfl

lemma At.eq_of_depth (h : At u g) (hg : g.depth = 0) : g = {} := by
  cases h with
  | outside hu => rfl
  | inside ha hb => exact absurd hg (Nat.ne_of_gt (hb _ (List.prefix_refl _)))

/-- One mark further: the next state, or a pair of parentheses has closed that holds too much. -/
lemma At.mark (h : At u g) :
    (∃ g', g.mark c = .ok g' ∧ At (u ++ [c]) g') ∨
      (∃ e, g.mark c = .error e) ∧ Overfull (u ++ [c]) := by
  cases h with
  | outside hu =>
    left
    by_cases ho : c = '('
    · subst ho
      exact ⟨_, rfl, .inside hu fun v hv => by rw [List.prefix_nil.mp hv]; decide⟩
    · refine ⟨{}, ?_, .outside ?_⟩
      · by_cases hlt : c = '<'
        · rw [hlt, mark_bracket]
          rfl
        · by_cases hclose : c = ')' <;> simp [mark_of_ne, step, hlt, ho, hclose]
      · rw [openAfter_concat, hu]
        simp [ho]
  | @inside a b ha hb =>
    have hpos := hb b (List.prefix_refl b)
    rw [List.append_assoc, List.cons_append]
    by_cases hlast : c = ')' ∧ Text.openAfter 1 b = 1
    · obtain ⟨rfl, hone⟩ := hlast
      by_cases hfull : Crammed b
      · exact .inr ⟨(mark_close hone).1 hfull, a, b, [], rfl, ha, hb, hone, hfull⟩
      · refine .inl ⟨_, (mark_close hone).2 hfull, .outside ?_⟩
        rw [Text.openAfter_append, ha]
        show Text.openAfter 1 (b ++ [')']) = 0
        rw [openAfter_concat, hone]
        rfl
    · have hc : 0 < Text.openAfter 1 (b ++ [c]) := by
        rw [openAfter_concat]
        grind
      refine .inl ⟨_, mark_within hpos hc, .inside ha fun v hv => ?_⟩
      rcases List.prefix_concat_iff.mp hv with rfl | hv
      · exact hc
      · exact hb v hv

lemma Overfull.append (h : Overfull u) (v : List Char) : Overfull (u ++ v) := by
  obtain ⟨a, b, c, rfl, h⟩ := h
  exact ⟨a, b, c ++ v, by simp, h⟩

/-- The walk along an outline ends in one of its states, or some pair of parentheses on the way
holds too much. -/
lemma at_walk (u : List Char) :
    (∃ g, walk {} u = .ok g ∧ At u g) ∨ (∃ e, walk {} u = .error e) ∧ Overfull u := by
  induction u using List.reverseRecOn with
  | nil => exact .inl ⟨_, rfl, .outside rfl⟩
  | append_singleton u c ih =>
    rw [walk_append]
    obtain ⟨g, hg, hat⟩ | ⟨⟨e, he⟩, hfull⟩ := ih
    · rw [hg]
      obtain ⟨g', hg', hat'⟩ | ⟨⟨e, he⟩, hfull⟩ := hat.mark (c := c)
      · exact .inl ⟨g', by simp [Except.bind, walk, hg'], hat'⟩
      · exact .inr ⟨⟨e, by simp [Except.bind, walk, he]⟩, hfull⟩
    · rw [he]
      exact .inr ⟨⟨e, rfl⟩, hfull.append [c]⟩

lemma walk_of_overfull (h : Overfull u) : ∃ e, walk {} u = .error e := by
  obtain ⟨a, b, c, rfl, ha, hb, hone, hfull⟩ := h
  rw [walk_append]
  obtain ⟨g, hg, hat⟩ | ⟨⟨e, he⟩, -⟩ := at_walk a
  · cases hat.eq_of_depth (hat.depth.trans ha)
    obtain ⟨e, he⟩ := (mark_close hone).1 hfull
    refine ⟨e, ?_⟩
    rw [hg]
    show walk ⟨false, 1, false, 0⟩ (b ++ ')' :: c) = _
    rw [walk_append, walk_within hb, Except.bind, walk, he]
  · exact ⟨e, by rw [he]; rfl⟩

/-- The check of the parentheses refuses a text exactly if an outermost pair of parentheses in its
outline holds several pairs of angle brackets, or one together with other parentheses. -/
theorem check_eq_error_iff (s : List Char) :
    (∃ e, check s = .error e) ↔ Overfull (outline false s) := by
  have houtline := walk_outline {} s
  have hcheck : (∃ e, check s = .error e) ↔ ∃ e, walk {} (outline false s) = .error e := by
    rw [check, ← houtline]
    rcases walk {} (outline false s) with e | g
    · simp [Except.map]
    · simp [Except.map]
  rw [hcheck]
  refine ⟨?_, walk_of_overfull⟩
  rintro ⟨e, he⟩
  obtain ⟨g, hg, -⟩ | ⟨-, hfull⟩ := at_walk (outline false s)
  · rw [hg] at he
    cases he
  · exact hfull

end Signpost.Grouping
