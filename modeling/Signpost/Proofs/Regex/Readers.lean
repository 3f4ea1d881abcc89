import Signpost.Proofs.Regex.Reading

/-!
Reading in front of a closing parenthesis. What a reader keeps there is a property of readers that
is closed under all ways to put them together: one after the other, with what does not count skipped
in between. The parenthesis itself is skipped only in a comment that goes on to the end of the text.
-/

namespace Signpost.Regex

/-! ### Skipping -/

lemma skipVerbose_suffix (inComment : Bool) (s : List Char) : skipVerbose inComment s <:+ s := by
  induction s generalizing inComment with
  | nil => cases inComment <;> exact List.suffix_refl _
  | cons c s ih =>
    have hstep : ∀ b, skipVerbose b s <:+ c :: s := fun b => (ih b).trans (List.suffix_cons c s)
    cases inComment with
    | true => exact hstep _
    | false =>
      rw [skipVerbose]
      split
      · exact hstep _
      · split
        · exact hstep _
        · exact List.suffix_refl _

lemma skipVerbose_append {inComment : Bool} {s : List Char} (h : skipVerbose inComment s ≠ [])
    (t : List Char) : skipVerbose inComment (s ++ t) = skipVerbose inComment s ++ t := by
  induction s generalizing inComment with
  | nil => cases inComment <;> exact absurd rfl h
  | cons c s ih =>
    cases inComment with
    | true => exact ih h
    | false =>
      rw [skipVerbose] at h
      rw [List.cons_append, skipVerbose, skipVerbose]
      split
      · rename_i hc
        rw [if_pos hc] at h
        exact ih h
      · rename_i hc
        rw [if_neg hc] at h
        split
        · rename_i hsign
          rw [if_pos hsign] at h
          exact ih h
        · rfl

/-- A parenthesis behind a text counts, or it stands in a comment that goes on to the end. -/
lemma skipVerbose_close (inComment : Bool) (s : List Char) :
    (∀ t, skipVerbose inComment (s ++ ')' :: t) = skipVerbose inComment s ++ ')' :: t) ∨
      skipVerbose inComment s = [] ∧ skipVerbose inComment (s ++ [')']) = [] := by
  induction s generalizing inComment with
  | nil =>
    cases inComment with
    | true => exact .inr ⟨rfl, rfl⟩
    | false => exact .inl fun t => rfl
  | cons c s ih =>
    cases inComment with
    | true => exact ih _
    | false =>
      simp only [List.cons_append, skipVerbose]
      split
      · exact ih _
      · split
        · exact ih _
        · exact .inl fun t => rfl

lemma skipVerbose_skipVerbose (inComment : Bool) (s : List Char) :
    skipVerbose false (skipVerbose inComment s) = skipVerbose inComment s := by
  induction s generalizing inComment with
  | nil => cases inComment <;> rfl
  | cons c s ih =>
    cases inComment with
    | true => exact ih _
    | false =>
      rw [skipVerbose]
      split
      · exact ih _
      · rename_i hblank
        split
        · exact ih _
        · rename_i hsign
          rw [skipVerbose, if_neg hblank, if_neg hsign]

namespace Flags

variable {f : Flags} {s : List Char}

lemma skip_suffix (f : Flags) (s : List Char) : f.skip s <:+ s := by
  unfold skip
  split
  · exact skipVerbose_suffix false s
  · exact List.suffix_refl _

@[simp] lemma skip_nil (f : Flags) : f.skip [] = [] := List.suffix_nil.mp (f.skip_suffix [])

lemma skip_append (h : f.skip s ≠ []) (t : List Char) : f.skip (s ++ t) = f.skip s ++ t := by
  unfold skip at h ⊢
  split
  · rename_i hv
    rw [if_pos hv] at h
    exact skipVerbose_append h t
  · rfl

lemma skip_close (f : Flags) (s : List Char) :
    (∀ t, f.skip (s ++ ')' :: t) = f.skip s ++ ')' :: t) ∨
      f.verbose = true ∧ f.skip s = [] ∧ f.skip (s ++ [')']) = [] := by
  unfold skip
  split
  · exact (skipVerbose_close false s).imp_right fun h => ⟨‹_›, h⟩
  · exact .inl fun t => rfl

@[simp] lemma skip_skip (f : Flags) (s : List Char) : f.skip (f.skip s) = f.skip s := by
  unfold skip
  split
  · exact skipVerbose_skipVerbose false s
  · rfl

lemma skip_append_close (h : f.skip s = s) (t : List Char) :
    f.skip (s ++ ')' :: t) = s ++ ')' :: t := by
  rcases f.skip_close s with hall | ⟨hv, hnil, hclose⟩
  · rw [hall, h]
  · rw [h] at hnil
    rw [hnil, List.nil_append, skip, if_pos hv] at hclose
    cases hclose

end Flags

/-! ### What a reader keeps -/

variable {α β : Type} {f : Flags}

/-- What is read off the text `s` stands at its beginning. In front of a closing parenthesis it is
read in the same way, unless a comment goes on to the end of the text and takes the parenthesis with
it. -/
def SteadyAt (f : Flags) (read : List Char → Read α) (s : List Char) : Prop :=
  ∀ a rest, read s = .ok (a, rest) → rest <:+ s ∧
    ((∀ t, read (s ++ ')' :: t) = .ok (a, rest ++ ')' :: t)) ∨
      f.verbose = true ∧ rest = [] ∧ read (s ++ [')']) = .ok (a, []))

/-- Off every text a reader reads the same in front of a closing parenthesis. -/
def Steady (f : Flags) (read : List Char → Read α) : Prop := ∀ s, SteadyAt f read s

namespace SteadyAt

variable {read : List Char → Read α} {s u : List Char}

/-- No comment can go on to the end where nothing is skipped there. -/
lemma of_firm (h : ∀ a rest, read s = .ok (a, rest) → rest <:+ s ∧
    ∀ t, read (s ++ ')' :: t) = .ok (a, rest ++ ')' :: t)) : SteadyAt f read s :=
  fun a rest ha => ⟨(h a rest ha).1, .inl (h a rest ha).2⟩

lemma of_error {e : SyntaxError} (h : read s = .error e) : SteadyAt f read s := fun a rest ha => by
  rw [h] at ha
  cases ha

lemma of_eq (read' : List Char → Read α) (hu : u <:+ s) (h : read s = read' u)
    (hclose : ∀ t, read (s ++ ')' :: t) = read' (u ++ ')' :: t)) (h' : SteadyAt f read' u) :
    SteadyAt f read s := by
  intro a rest ha
  rw [h] at ha
  obtain ⟨hsuffix, hsame⟩ := h' a rest ha
  refine ⟨hsuffix.trans hu, ?_⟩
  simpa only [hclose] using hsame

lemma refine (h : SteadyAt f read s) (g : α → Except SyntaxError β) :
    SteadyAt f (fun s => (read s).refine g) s := by
  intro b rest hb
  obtain ⟨a, ha, hg⟩ := Read.refine_eq_ok.mp hb
  obtain ⟨hsuffix, hsame⟩ := h a rest ha
  refine ⟨hsuffix, ?_⟩
  rcases hsame with hall | ⟨hv, hnil, hclose⟩
  · exact .inl fun t => Read.refine_eq_ok.mpr ⟨a, hall t, hg⟩
  · exact .inr ⟨hv, hnil, Read.refine_eq_ok.mpr ⟨a, hclose, hg⟩⟩

lemma skip (h : SteadyAt f read (f.skip s)) : SteadyAt f (fun s => read (f.skip s)) s := by
  intro a rest ha
  obtain ⟨hsuffix, hsame⟩ := h a rest ha
  refine ⟨hsuffix.trans (f.skip_suffix s), ?_⟩
  rcases f.skip_close s with hall | ⟨hv, hnil, hclose⟩
  · simpa only [hall] using hsame
  · rw [hnil] at hsuffix
    cases List.suffix_nil.mp hsuffix
    refine .inr ⟨hv, rfl, ?_⟩
    simp only [hnil, hclose] at ha ⊢
    exact ha

lemma bind (next : α → List Char → Read β) (h : SteadyAt f read s)
    (hnext : ∀ a rest, read s = .ok (a, rest) → SteadyAt f (next a) rest) :
    SteadyAt f (fun s => (read s).bind fun p => next p.1 p.2) s := by
  intro b rest hb
  simp only at hb
  rcases ha : read s with e | ⟨a, r⟩
  · rw [ha] at hb
    cases hb
  · rw [ha] at hb
    obtain ⟨hsuffix, hsame⟩ := h a r ha
    obtain ⟨hsuffix', hsame'⟩ := hnext a r ha b rest hb
    refine ⟨hsuffix'.trans hsuffix, ?_⟩
    rcases hsame with hall | ⟨hv, rfl, hclose⟩
    · simp only [hall]
      exact hsame'
    · cases List.suffix_nil.mp hsuffix'
      refine .inr ⟨hv, rfl, ?_⟩
      simp only [hclose]
      exact hb

end SteadyAt

lemma Steady.refine {read : List Char → Read α} (h : Steady f read)
    (g : α → Except SyntaxError β) : Steady f fun s => (read s).refine g :=
  fun s => (h s).refine g

lemma steady_ok (a : α) : Steady f fun s => .ok (a, s) := by
  intro s a' rest h
  cases h
  exact ⟨List.suffix_refl _, .inl fun t => rfl⟩

/-- Of a reader that skips first, only texts that begin with what counts need to be looked at. -/
lemma Steady.of_skip {read : List Char → Read α} (hskip : ∀ s, read (f.skip s) = read s)
    (h : ∀ s, f.skip s = s → SteadyAt f read s) : Steady f read := by
  intro s
  have := (h (f.skip s) (f.skip_skip s)).skip
  rwa [funext hskip] at this

lemma head?_append_close {c : Char} (hc : c ≠ ')') (s t : List Char) :
    (s ++ ')' :: t).head? = some c ↔ s.head? = some c := by
  rcases s with _ | ⟨d, s⟩
  · simp [hc.symm]
  · rfl

end Signpost.Regex
