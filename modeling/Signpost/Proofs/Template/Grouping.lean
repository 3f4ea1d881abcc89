import Signpost.Proofs.Template.Scan
import Signpost.Template.Grouping

/-!
What the check of the parentheses sees. Where each `<` outside of tokens begins one, it passes over
the tokens as they are read from left to right, follows the depth of the text outside of them, and
can no longer succeed at depth 0 once two tokens stand behind an open parenthesis.
-/

namespace Signpost


/-- How many parentheses are open at the end of a text if `d` were open at its beginning. -/
def Text.openAfter : Nat → List Char → Nat
  | d, [] => d
  | d, c :: s => openAfter (if c = '(' then d + 1 else if c = ')' then d - 1 else d) s

lemma Text.openAfter_append (d : Nat) (s t : List Char) :
    openAfter d (s ++ t) = openAfter (openAfter d s) t := by
  induction s generalizing d with
  | nil => rfl
  | cons c s ih => exact ih _

lemma Text.openAfter_pos {d : Nat} {s : List Char} (hd : 0 < d) (hs : ')' ∉ s) :
    0 < openAfter d s := by
  induction s generalizing d with
  | nil => exact hd
  | cons c s ih =>
    rw [List.mem_cons, not_or] at hs
    rw [openAfter, if_neg (Ne.symm hs.1)]
    refine ih ?_ hs.2
    split <;> omega

namespace Grouping

variable {g g' : Grouping} {s u : List Char}

/-- Outside of angle brackets only parentheses count. -/
lemma step_outside (hin : g.inToken = false) {c : Char} (hc : c ≠ '<') (h : g.step c = .ok g') :
    g'.inToken = false ∧
      g'.depth = if c = '(' then g.depth + 1 else if c = ')' then g.depth - 1 else g.depth := by
  obtain ⟨_, depth, nested, tokens⟩ := g
  cases hin
  by_cases ho : c = '('
  · subst ho
    cases h
    exact ⟨rfl, rfl⟩
  · by_cases hclose : c = ')'
    · subst hclose
      rcases depth with _ | _ | d
      · cases h
        exact ⟨rfl, rfl⟩
      · -- the outermost parenthesis closes, and what was inside is judged
        simp only [step, Bool.false_eq_true, if_false, hc, ho, if_true] at h
        split at h
        · cases h
        · split at h
          · cases h
          · cases h
            exact ⟨rfl, rfl⟩
      · cases h
        exact ⟨rfl, rfl⟩
    · simp only [step, Bool.false_eq_true, if_false, hc, ho, hclose] at h
      cases h
      simp [ho, hclose]

lemma run_cons {c : Char} (h : run g (c :: s) = .ok g') :
    ∃ g₁, g.step c = .ok g₁ ∧ run g₁ s = .ok g' := by
  rw [run] at h
  split at h
  · cases h
  · rename_i g₁ h₁
    exact ⟨g₁, h₁, h⟩

lemma run_plain (hin : g.inToken = false) (hu : ∀ c ∈ u, c ≠ '<' ∧ c ≠ '(' ∧ c ≠ ')') :
    run g (u ++ s) = run g s := by
  induction u with
  | nil => rfl
  | cons c u ih =>
    rw [List.forall_mem_cons] at hu
    obtain ⟨⟨hc, ho, hclose⟩, hu⟩ := hu
    have hstep : g.step c = .ok g := by simp [step, hin, hc, ho, hclose]
    rw [List.cons_append, run, hstep]
    exact ih hu

/-- What is known behind a token: it counts if a parenthesis is open. -/
def behindToken (g : Grouping) : Grouping :=
  { g with tokens := if 0 < g.depth then g.tokens + 1 else g.tokens }

lemma tokens_behindToken (h : 0 < g.depth) : g.behindToken.tokens = g.tokens + 1 := if_pos h

lemma run_token (hin : g.inToken = false) {t : Token} (ht : t.Readable) :
    run g (t.text ++ s) = run g.behindToken s := by
  obtain ⟨_, depth, nested, tokens⟩ := g
  cases hin
  have hsign : t.marker.sign ≠ '>' := by cases t.marker <;> decide
  -- everything up to the closing bracket is passed over
  have hinside : ∀ v : List Char, '>' ∉ v → run ⟨true, depth, nested, tokens⟩ (v ++ '>' :: s) =
      run ⟨false, depth, nested, if 0 < depth then tokens + 1 else tokens⟩ s := by
    intro v hv
    induction v with
    | nil => rfl
    | cons c v ih =>
      rw [List.mem_cons, not_or] at hv
      have hstep : step ⟨true, depth, nested, tokens⟩ c = .ok ⟨true, depth, nested, tokens⟩ := by
        simp [step, Ne.symm hv.1]
      rw [List.cons_append, run, hstep]
      exact ih hv.2
  have := hinside (t.marker.sign :: t.body) (by simp [hsign.symm, ht.close])
  rw [Token.text, List.cons_append, List.cons_append, List.append_assoc]
  exact this

/-- Once there are two tokens behind an open parenthesis, the parenthesis cannot be closed. -/
lemma run_crowded (hd : 0 < g.depth) (ht : 1 < g.tokens) (h : run g s = .ok g') :
    0 < g'.depth := by
  induction s generalizing g with
  | nil =>
    cases h
    exact hd
  | cons c s ih =>
    obtain ⟨g₁, h₁, h⟩ := run_cons h
    have hstep : 0 < g₁.depth ∧ 1 < g₁.tokens := by
      obtain ⟨inToken, depth, nested, tokens⟩ := g
      simp only at hd ht
      rcases depth with _ | _ | d
      · cases hd
      · simp only [step, ht, if_true] at h₁
        grind
      · simp only [step] at h₁
        grind
    exact ih hstep.1 hstep.2 h

/-- Where each `<` begins a token, the check follows the depth outside of tokens. -/
lemma depth_of_run {ts : List Token} (hscan : Scanned s ts u) (hu : '<' ∉ u)
    (hin : g.inToken = false) (h : run g s = .ok g') :
    g'.depth = Text.openAfter g.depth u := by
  induction hscan generalizing g with
  | nil =>
    cases h
    rfl
  | token ht _ ih =>
    rw [run_token hin ht] at h
    exact ih (g := g.behindToken) hu hin h
  | @skip s ts u c hc _ ih =>
    rw [List.mem_cons, not_or] at hu
    obtain ⟨g₁, h₁, h⟩ := run_cons h
    obtain ⟨hin', hdepth⟩ := step_outside hin (Ne.symm hu.1) h₁
    rw [ih hu.2 hin' h, hdepth]
    rfl

end Grouping

end Signpost
