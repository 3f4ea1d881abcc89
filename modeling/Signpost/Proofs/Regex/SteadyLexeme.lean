import Signpost.Proofs.Regex.Steady

/-!
Each part of an expression's text is read in the same way in front of a closing parenthesis. Of the
numbers in braces this is only true because a brace must follow them.
-/

namespace Signpost.Regex

variable {f : Flags}

/-! ### Repetitions and groups -/

lemma steady_readGreed (min : Nat) (max : Option Nat) :
    Steady f fun s => .ok (readGreed f min max s) := by
  intro s
  by_cases hs : s.head? = some '?'
  · obtain ⟨u, rfl⟩ := List.head?_eq_some_iff.mp hs
    exact .of_eq (fun u => .ok (.repetition min max f.swapGreed, u)) (List.suffix_cons _ u) rfl
      (fun t => rfl) (steady_ok _ u)
  · refine .of_eq (fun u => .ok (.repetition min max !f.swapGreed, u)) (List.suffix_refl s) ?_
      (fun t => ?_) (steady_ok _ s)
    · rw [readGreed, if_neg hs]
    · rw [readGreed, if_neg fun h => hs ((head?_append_close (by decide) s t).mp h)]

lemma dropWhile_append_of_ne_nil {p : Char → Bool} {s : List Char} (h : s.dropWhile p ≠ [])
    (t : List Char) : (s ++ t).dropWhile p = s.dropWhile p ++ t := by
  rw [List.dropWhile_append, if_neg (by simpa using h)]

lemma readDigits_append {acc : Option Nat} {s rest : List Char} {n : Nat}
    (h : readCount.digits f acc s = .ok (n, rest)) (hrest : rest ≠ []) :
    rest <:+ s ∧ ∀ t, readCount.digits f acc (s ++ t) = .ok (n, rest ++ t) := by
  fun_induction readCount.digits f acc s with
  | case1 n =>
    cases h
    exact absurd rfl hrest
  | case2 => cases h
  | case3 acc c u hc h₁ ih =>
    obtain ⟨hsuffix, hsame⟩ := ih h
    have hskip : f.skip u ≠ [] := by
      intro hnil
      rw [hnil] at hsuffix
      exact hrest (List.suffix_nil.mp hsuffix)
    refine ⟨(hsuffix.trans (f.skip_suffix u)).trans (List.suffix_cons c u), fun t => ?_⟩
    rw [List.cons_append, readCount.digits.eq_def]
    simp only [hc, if_true, Flags.skip_append hskip, hsame]
  | case4 c u hc n hn =>
    cases h
    refine ⟨List.dropWhile_suffix _, fun t => ?_⟩
    rw [List.cons_append, readCount.digits.eq_def]
    simp only [hc, Bool.false_eq_true, if_false, hn, if_true]
    rw [← List.cons_append, dropWhile_append_of_ne_nil hrest]
  | case5 => cases h
  | case6 => cases h

lemma readCount_nil : readCount f [] = .error .badCount := by
  rw [readCount, List.dropWhile_nil, readCount.digits.eq_def]

lemma readCount_append {s rest : List Char} {n : Nat} (h : readCount f s = .ok (n, rest))
    (hrest : rest ≠ []) : rest <:+ s ∧ ∀ t, readCount f (s ++ t) = .ok (n, rest ++ t) := by
  obtain ⟨hsuffix, hsame⟩ := readDigits_append h hrest
  have hdrop : s.dropWhile Unicode.isBlank ≠ [] := by
    intro hnil
    rw [hnil] at hsuffix
    exact hrest (List.suffix_nil.mp hsuffix)
  refine ⟨hsuffix.trans (List.dropWhile_suffix _), fun t => ?_⟩
  rw [readCount, dropWhile_append_of_ne_nil hdrop, hsame]

/-- A number up to a sign behind it is the same whatever follows the sign. -/
lemma readCount_skip_append {s rest u : List Char} {n : Nat} {c : Char}
    (h : readCount f (f.skip s) = .ok (n, rest)) (hskip : f.skip rest = c :: u) :
    u <:+ s ∧ ∀ t, readCount f (f.skip (s ++ t)) = .ok (n, rest ++ t) ∧
      f.skip (rest ++ t) = c :: (u ++ t) := by
  have hrest : rest ≠ [] := by
    rintro rfl
    rw [f.skip_nil] at hskip
    cases hskip
  obtain ⟨hsuffix, hsame⟩ := readCount_append h hrest
  have hs : f.skip s ≠ [] := by
    intro hnil
    rw [hnil] at hsuffix
    exact hrest (List.suffix_nil.mp hsuffix)
  have hu : u <:+ f.skip rest := hskip ▸ List.suffix_cons c u
  refine ⟨((hu.trans (f.skip_suffix rest)).trans hsuffix).trans (f.skip_suffix s), fun t => ?_⟩
  rw [Flags.skip_append hs, hsame, Flags.skip_append (by rw [hskip]; exact List.cons_ne_nil c u),
    hskip, List.cons_append]
  exact ⟨rfl, rfl⟩

lemma steady_readBounds : Steady f (readBounds f) := by
  intro s x rest h
  -- behind the closing brace only the mark of laziness is looked for
  have hgreed : ∀ min max {v : List Char}, v <:+ s →
      (∀ t, readBounds f (s ++ t) = .ok (readGreed f min max (f.skip (v ++ t)))) →
      SteadyAt f (readBounds f) s := fun min max v hv hsame => by
    have hnil := hsame []
    rw [List.append_nil, List.append_nil] at hnil
    exact .of_eq (fun u => .ok (readGreed f min max (f.skip u))) hv hnil (fun t => hsame _)
      (steady_readGreed min max (f.skip v)).skip
  suffices SteadyAt f (readBounds f) s from this x rest h
  unfold readBounds at h
  split at h
  · cases h
  · rename_i min rest₁ hmin
    split at h
    · rename_i u hu
      obtain ⟨hsuffix, hsame⟩ := readCount_skip_append hmin hu
      exact hgreed min (some min) hsuffix fun t => by simp only [readBounds, hsame t]
    · rename_i u hu
      obtain ⟨hsuffix, hsame⟩ := readCount_skip_append hmin hu
      split at h
      · rename_i v hv
        have hclose : ∀ t, f.skip (u ++ t) = '\x7d' :: (v ++ t) := fun t => by
          rw [Flags.skip_append (by rw [hv]; exact List.cons_ne_nil _ v), hv, List.cons_append]
        have hv' : v <:+ f.skip u := hv ▸ List.suffix_cons _ v
        exact hgreed min none ((hv'.trans (f.skip_suffix u)).trans hsuffix) fun t => by
          simp only [readBounds, hsame t, hclose t]
      · rename_i hne
        split at h
        · cases h
        · rename_i max rest₂ hmax
          split at h
          · rename_i v hv
            split at h
            · rename_i hle
              obtain ⟨hsuffix', hsame'⟩ := readCount_skip_append hmax hv
              refine hgreed min (some max) (hsuffix'.trans hsuffix) fun t => ?_
              have hclose : ∀ w, f.skip (u ++ t) ≠ '\x7d' :: w := by
                intro w hw
                rcases hskip : f.skip u with _ | ⟨d, u'⟩
                · rw [hskip, readCount_nil] at hmax
                  cases hmax
                · rw [Flags.skip_append (by rw [hskip]; exact List.cons_ne_nil d u'), hskip] at hw
                  cases hw
                  exact hne u' hskip
              simp only [readBounds, hsame t, hsame' t, hle, if_true]
            · cases h
          · cases h
    · cases h

lemma steady_readName : Steady f readName := by
  intro s
  refine .of_firm fun name rest h => ?_
  unfold readName at h ⊢
  split at h
  · rename_i c cs rest' hcut
    split at h
    · rename_i hall
      cases h
      refine ⟨⟨c :: cs ++ ['>'], by simp [(Text.cutAt?_eq_some_iff.mp hcut).2]⟩, fun t => ?_⟩
      simp only [Text.cutAt?_append_right hcut, hall, if_true]
    · cases h
  · cases h

lemma readFlags_append {seen s rest : List Char} {x : Lexeme}
    (h : readFlags f seen s = .ok (x, rest)) :
    rest <:+ s ∧ ∀ t, readFlags f seen (s ++ t) = .ok (x, rest ++ t) := by
  induction s generalizing f seen with
  | nil => cases h
  | cons c s ih =>
    simp only [readFlags, List.cons_append] at h ⊢
    split at h
    · rename_i hc
      simp only [hc, if_true]
      split at h
      · cases h
      · rename_i hhyphen
        simp only [hhyphen, if_false]
        split at h
        · rename_i hcolon
          cases h
          exact ⟨List.suffix_cons _ _, fun t => by simp [hcolon]⟩
        · rename_i hcolon
          split at h
          · cases h
          · rename_i hseen
            cases h
            exact ⟨List.suffix_cons _ _, fun t => by simp [hcolon, hseen]⟩
    · rename_i hc
      simp only [hc, if_false]
      split at h
      · cases h
      · rename_i hnew
        simp only [hnew, Bool.false_eq_true, if_false]
        split at h
        · rename_i hhyphen
          obtain ⟨hsuffix, hsame⟩ := ih h
          refine ⟨hsuffix.trans (List.suffix_cons _ _), fun t => ?_⟩
          rw [if_pos hhyphen, hsame]
        · rename_i hhyphen
          simp only [hhyphen, if_false]
          split at h
          · obtain ⟨hsuffix, hsame⟩ := ih h
            exact ⟨hsuffix.trans (List.suffix_cons _ _), hsame⟩
          · cases h

lemma steady_readFlags (f g : Flags) (seen : List Char) : Steady f (readFlags g seen) := fun _ =>
  .of_firm fun _ _ h => ⟨(readFlags_append h).1, fun _ => (readFlags_append h).2 _⟩

/-! ### Parts -/

lemma steady_groupName (f g : Flags) : Steady f fun s => (readName s).refine fun name =>
    .ok (Lexeme.opening (some name) g) :=
  steady_readName.refine _

lemma skip_question (f : Flags) (t : List Char) : f.skip ('?' :: t) = '?' :: t := by
  unfold Flags.skip
  split <;> rfl

lemma readOpening_plain {s : List Char} (hs : f.skip s = s) (h : s.head? ≠ some '?') :
    readOpening f s = .ok (.opening none f, s) := by
  unfold readOpening
  rw [hs]
  split <;> simp_all

lemma readOpening_named (t : List Char) : readOpening f ('?' :: 'P' :: '<' :: t) =
    (readName t).refine fun name => .ok (.opening (some name) f) := by
  simp only [readOpening, skip_question]

lemma readOpening_angle {t : List Char} (h : t.head? ≠ some '=' ∧ t.head? ≠ some '!') :
    readOpening f ('?' :: '<' :: t) =
      (readName t).refine fun name => .ok (.opening (some name) f) := by
  unfold readOpening
  rw [skip_question]
  split <;> rename_i he <;> first
    | exact absurd rfl (he _)
    | (cases he <;> simp_all)

/-- Flags are read behind the question mark unless a sign of another kind of group stands there. -/
lemma readOpening_flags {t : List Char}
    (h : t.head? ≠ some '=' ∧ t.head? ≠ some '!' ∧ t.head? ≠ some '<' ∧ t.head? ≠ some 'P') :
    readOpening f ('?' :: t) = readFlags f [] t := by
  unfold readOpening
  rw [skip_question]
  split <;> simp_all

lemma readOpening_skip (s : List Char) : readOpening f (f.skip s) = readOpening f s := by
  simp only [readOpening, Flags.skip_skip]

lemma readOpening_cases {s : List Char} {a : Lexeme × List Char} (hs : f.skip s = s)
    (h : readOpening f s = .ok a) :
    (s.head? ≠ some '?' ∧ a = (.opening none f, s)) ∨
      (∃ t, s = '?' :: 'P' :: '<' :: t ∧
        (readName t).refine (fun name => .ok (.opening (some name) f)) = .ok a) ∨
      (∃ t, s = '?' :: '<' :: t ∧ (t.head? ≠ some '=' ∧ t.head? ≠ some '!') ∧
        (readName t).refine (fun name => .ok (.opening (some name) f)) = .ok a) ∨
      ∃ t, s = '?' :: t ∧
        (t.head? ≠ some '=' ∧ t.head? ≠ some '!' ∧ t.head? ≠ some '<' ∧ t.head? ≠ some 'P') ∧
        readFlags f [] t = .ok a := by
  by_cases hsign : s.head? = some '?'
  · obtain ⟨t, rfl⟩ := List.head?_eq_some_iff.mp hsign
    unfold readOpening at h
    rw [hs] at h
    split at h
    · cases h
    · cases h
    · cases h
    · cases h
    · rename_i u he
      exact .inr (.inl ⟨u, he, h⟩)
    · rename_i u hequal hmark he
      refine .inr (.inr (.inl ⟨u, he, ?_, h⟩))
      constructor <;> rintro hu <;> obtain ⟨v, rfl⟩ := List.head?_eq_some_iff.mp hu
      · exact hequal v rfl
      · exact hmark v rfl
    · rename_i u hequal hmark _ _ _ hangle he
      refine .inr (.inr (.inr ⟨u, he, ?_, h⟩))
      refine ⟨?_, ?_, ?_, ?_⟩ <;> rintro hu <;> obtain ⟨v, rfl⟩ := List.head?_eq_some_iff.mp hu
      · exact hequal v rfl
      · exact hmark v rfl
      · exact hangle v rfl
      · cases h
    · rename_i hne
      exact absurd rfl (hne t)
  · rw [readOpening_plain hs hsign] at h
    exact .inl ⟨hsign, (Except.ok.inj h).symm⟩

lemma steady_readOpening : Steady f (readOpening f) := by
  refine .of_skip readOpening_skip fun s hs x rest h => ?_
  suffices SteadyAt f (readOpening f) s from this x rest h
  obtain ⟨hsign, -⟩ | ⟨u, rfl, h'⟩ | ⟨u, rfl, hu, h'⟩ | ⟨u, rfl, hu, h'⟩ := readOpening_cases hs h
  · exact .of_eq (fun u => .ok (.opening none f, u)) (List.suffix_refl s)
      (readOpening_plain hs hsign)
      (fun t => readOpening_plain (Flags.skip_append_close hs t)
        fun h => hsign ((head?_append_close (by decide) s t).mp h)) (steady_ok _ s)
  · exact .of_eq _ ⟨['?', 'P', '<'], rfl⟩ (readOpening_named u) (fun t => readOpening_named _)
      (steady_groupName f f u)
  · rcases u with _ | ⟨d, u⟩
    · cases h'
    exact .of_eq _ ⟨['?', '<'], rfl⟩ (readOpening_angle hu)
      (fun t => readOpening_angle (t := d :: u ++ ')' :: t) hu) (steady_groupName f f (d :: u))
  · rcases u with _ | ⟨c, u⟩
    · cases h'
    exact .of_eq _ (List.suffix_cons _ _) (readOpening_flags hu)
      (fun t => readOpening_flags (t := c :: u ++ ')' :: t) hu) (steady_readFlags f f [] (c :: u))

lemma steady_readLexeme (c : Char) : Steady f (readLexeme f c) := by
  unfold readLexeme
  split
  · exact steady_readOpening
  · exact steady_ok _
  · exact steady_ok _
  · exact steady_readBracket.refine _
  · exact steady_readGreed 0 (some 1)
  · exact steady_readGreed 0 none
  · exact steady_readGreed 1 none
  · exact steady_readBounds
  · exact steady_readEscape.refine _
  · exact (steady_ok ()).refine _
  · exact steady_ok _
  · exact steady_ok _
  · exact steady_ok _

end Signpost.Regex
