import Signpost.Proofs.Regex.Readers

/-!
Escapes and bracketed classes in front of a closing parenthesis. Each reader stops at the end of what
it has read and looks no further than the next character that counts. So what is read off a text is
read off it in the same way if a closing parenthesis and more text follow; only a comment that goes
on to the end of the text takes the parenthesis with it.
-/

namespace Signpost.Regex

variable {f : Flags}

/-! ### Escapes -/

lemma readBraced_append {inComment : Bool} {s name rest : List Char}
    (h : readBraced f inComment s = some (name, rest)) :
    rest <:+ s ∧ ∀ t, readBraced f inComment (s ++ t) = some (name, rest ++ t) := by
  induction s generalizing inComment name with
  | nil => cases inComment <;> cases h
  | cons c s ih =>
    have hstep : ∀ {b n}, readBraced f b s = some (n, rest) →
        rest <:+ c :: s ∧ ∀ t, readBraced f b (s ++ t) = some (n, rest ++ t) :=
      fun h => ⟨(ih h).1.trans (List.suffix_cons c s), (ih h).2⟩
    cases inComment with
    | true => exact hstep h
    | false =>
      simp only [readBraced, List.cons_append] at h ⊢
      by_cases hblank : (f.verbose && Unicode.isBlank c) = true
      · simp only [hblank, if_true] at h ⊢
        exact hstep h
      by_cases hsign : (f.verbose && c == '#') = true
      · simp only [hblank, hsign, if_true] at h ⊢
        exact hstep h
      simp only [hblank, hsign] at h ⊢
      by_cases hc : c = '\x7d'
      · simp only [hc, if_true] at h ⊢
        cases h
        exact ⟨List.suffix_cons _ _, fun t => rfl⟩
      · simp only [hc, if_false] at h ⊢
        obtain ⟨⟨name', rest'⟩, h', he⟩ := Option.map_eq_some_iff.mp h
        cases he
        obtain ⟨hsuffix, hsame⟩ := hstep h'
        exact ⟨hsuffix, fun t => by rw [hsame t]; rfl⟩

lemma steady_readChars (n : Nat) : Steady f (readChars f n) := by
  induction n with
  | zero => exact steady_ok []
  | succ n ih =>
    intro s
    rcases s with _ | ⟨c, s⟩
    · exact .of_error rfl
    · exact .of_eq (fun u => (readChars f n (f.skip u)).refine fun cs => .ok (c :: cs))
        (List.suffix_cons c s) rfl (fun t => rfl) ((ih (f.skip s)).skip.refine _)

lemma readHex_of_ne {s : List Char} (hs : f.skip s = s) (h : s.head? ≠ some '\x7b') (n : Nat) :
    readHex f n s = (readChars f n s).refine fun digits =>
      (hexNumber 0 digits).bind charNumbered := by
  unfold readHex
  rw [hs]
  split
  · exact absurd rfl h
  · rfl

lemma steady_readHex (n : Nat) : Steady f (readHex f n) := by
  refine .of_skip (fun s => by simp only [readHex, Flags.skip_skip]) fun s hs => ?_
  by_cases hbrace : s.head? = some '\x7b'
  · obtain ⟨u, rfl⟩ := List.head?_eq_some_iff.mp hbrace
    refine .of_firm fun x rest h => ?_
    obtain ⟨digits, hd, hx⟩ := Read.refine_eq_ok.mp h
    simp only [hs] at hd
    split at hd
    · cases hd
    · cases hd
    · rename_i digits' rest' hne hbraced
      cases hd
      obtain ⟨hsuffix, hsame⟩ := readBraced_append hbraced
      refine ⟨hsuffix.trans (List.suffix_cons _ _), fun t => Read.refine_eq_ok.mpr ⟨digits, ?_, hx⟩⟩
      rcases digits with _ | ⟨d, digits⟩
      · exact absurd rfl hne
      · have hclose := Flags.skip_append_close hs t
        rw [List.cons_append] at hclose
        simp only [List.cons_append, hclose, hsame]
  · refine .of_eq _ (List.suffix_refl s) (readHex_of_ne hs hbrace n) (fun t => ?_)
      ((steady_readChars n s).refine _)
    exact readHex_of_ne (Flags.skip_append_close hs t)
      (fun h => hbrace ((head?_append_close (by decide) s t).mp h)) n

lemma steady_readQuery : Steady f (readQuery f) := by
  refine .of_skip (fun s => by simp only [readQuery, Flags.skip_skip]) fun s hs => ?_
  rcases s with _ | ⟨c, s⟩
  · exact .of_error (e := .unfinishedEscape) (by simp [readQuery])
  have hclose := Flags.skip_append_close hs
  simp only [List.cons_append] at hclose
  by_cases hc : c = '\x7b'
  · subst hc
    refine .of_firm fun query rest h => ?_
    simp only [readQuery, hs, hclose, List.cons_append, if_true] at h ⊢
    split at h
    · cases h
    · rename_i hbraced
      cases h
      obtain ⟨hsuffix, hsame⟩ := readBraced_append hbraced
      exact ⟨hsuffix.trans (List.suffix_cons _ _), fun t => by simp only [hsame]⟩
  · by_cases hb : c = '\\'
    · subst hb
      exact .of_error (e := .unknownProperty) (by simp [readQuery, hs])
    · refine .of_eq (fun u => .ok ([c], f.skip u)) (List.suffix_cons c s) ?_ (fun t => ?_)
        (steady_ok [c] (f.skip s)).skip
      · simp only [readQuery, hs, hc, hb, if_false]
      · simp only [readQuery, hclose, List.cons_append, hc, hb, if_false]

lemma readBoundary_of_ne {s : List Char} (h : s.head? ≠ some '\x7b') :
    readBoundary f s = .ok (.boundary f.wordChars, s) := by
  unfold readBoundary
  split
  · exact absurd rfl h
  · rfl

lemma steady_readBoundary : Steady f (readBoundary f) := by
  intro s
  refine .of_firm fun l rest h => ?_
  by_cases hs : s.head? = some '\x7b'
  · obtain ⟨s, rfl⟩ := List.head?_eq_some_iff.mp hs
    rcases hskip : f.skip s with _ | ⟨d, u⟩
    · simp only [readBoundary, hskip] at h
      cases h
    · have hclose : ∀ t, f.skip (s ++ ')' :: t) = d :: (u ++ ')' :: t) := fun t => by
        rw [Flags.skip_append (by rw [hskip]; exact List.cons_ne_nil d u), hskip, List.cons_append]
      simp only [readBoundary, hskip, hclose, List.cons_append] at h ⊢
      split at h
      · rename_i hd
        split at h
        · cases h
        · rename_i hbraced
          split at h
          · cases h
          · rename_i hname
            cases h
            obtain ⟨hsuffix, hsame⟩ := readBraced_append hbraced
            exact ⟨hsuffix.trans (List.suffix_cons _ _), fun t => by
              simp only [hd, if_true, hsame, hname]⟩
      · rename_i hd
        cases h
        exact ⟨List.suffix_refl _, fun t => by simp [hd]⟩
  · rw [readBoundary_of_ne hs] at h
    cases h
    exact ⟨List.suffix_refl _, fun t =>
      readBoundary_of_ne fun h => hs ((head?_append_close (by decide) s t).mp h)⟩

lemma steady_readLongEscape (c : Char) : Steady f (readLongEscape f c) := by
  unfold readLongEscape
  split
  · exact (steady_readHex 2).refine _
  · exact (steady_readHex 4).refine _
  · exact (steady_readHex 8).refine _
  · exact (steady_readQuery.refine _).refine _
  · exact (steady_readQuery.refine _).refine _
  · exact steady_readBoundary.refine _
  · rcases f.letterClass? c.toLower with _ | a
    · exact fun s => .of_error rfl
    · exact (steady_ok a).refine _

lemma steady_readEscape : Steady f (readEscape f) := by
  intro s
  rcases s with _ | ⟨c, s⟩
  · exact .of_error rfl
  · have hsuffix := List.suffix_cons c s
    by_cases hdigit : c.isDigit = true
    · exact .of_error (e := .backReference) (by simp [readEscape, hdigit])
    by_cases hescapable : isEscapable c = true
    · refine .of_eq (fun u => .ok (.char c, u)) hsuffix ?_ (fun t => ?_) (steady_ok _ s)
      · simp [readEscape, hdigit, hescapable]
      · simp [readEscape, hdigit, hescapable]
    rcases hletter : letterEscape? f c with _ | a
    · refine .of_eq _ hsuffix ?_ (fun t => ?_) (steady_readLongEscape c s)
      · simp [readEscape, hdigit, hescapable, hletter]
      · simp [readEscape, hdigit, hescapable, hletter]
    · refine .of_eq (fun u => .ok (a, u)) hsuffix ?_ (fun t => ?_) (steady_ok a s)
      · simp [readEscape, hdigit, hescapable, hletter]
      · simp [readEscape, hdigit, hescapable, hletter]

/-! ### Bracketed classes -/

lemma steady_readItem : Steady f (readItem f) := by
  intro s
  rcases s with _ | ⟨c, s⟩
  · exact .of_error rfl
  · have hsuffix := List.suffix_cons c s
    by_cases hc : c = '\\'
    · subst hc
      exact .of_eq _ hsuffix rfl (fun t => rfl) (steady_readEscape s)
    · refine .of_eq (fun u => .ok (.char c, u)) hsuffix ?_ (fun t => ?_) (steady_ok _ s)
      · simp [readItem, hc]
      · simp [readItem, hc]

lemma dropWhile_isBlank_append (s t : List Char) :
    (s ++ ')' :: t).dropWhile Unicode.isBlank = s.dropWhile Unicode.isBlank ++ ')' :: t := by
  rw [List.dropWhile_append]
  split
  · rename_i h
    rw [List.isEmpty_iff.mp h]
    rfl
  · rfl

/-- A sign behind a hyphen, such as a bracket or another hyphen, is seen there or not whatever
follows the text. -/
lemma peekBehind_append_close {c : Char} (hblank : Unicode.isBlank c = false) (hsign : c ≠ '#')
    (hc : c ≠ ')') (s t : List Char) :
    peekBehind f (s ++ ')' :: t) = some c ↔ peekBehind f s = some c := by
  -- where nothing but blanks and the sign of a comment are seen, the first character is taken
  have hfirst : ∀ u, s.dropWhile Unicode.isBlank = u → u.head? ≠ some c → s.head? ≠ some c := by
    rintro _ rfl hu hs
    obtain ⟨v, rfl⟩ := List.head?_eq_some_iff.mp hs
    exact hu (by simp [hblank])
  have hclose : some ')' ≠ some c := fun h => hc (Option.some.inj h).symm
  by_cases hv : f.verbose = true
  · simp only [peekBehind, hv, if_true, dropWhile_isBlank_append]
    rcases hs : s.dropWhile Unicode.isBlank with _ | ⟨d, u⟩
    · exact iff_of_false hclose (hfirst [] hs (by simp))
    by_cases hd : d = '#'
    · subst hd
      simp only [List.cons_append, if_true, dropWhile_isBlank_append]
      rcases u.dropWhile Unicode.isBlank with _ | ⟨e, v⟩
      · exact iff_of_false hclose (hfirst _ hs fun h => hsign (Option.some.inj h).symm)
      · rfl
    · simp only [List.cons_append, hd, if_false]
  · simp only [peekBehind, hv]
    exact head?_append_close hc s t

lemma steady_readRange : Steady f (readRange f) := by
  intro s a rest h
  unfold readRange at h ⊢
  rcases hfirst : readItem f s with e | ⟨first, rest'⟩
  · rw [hfirst] at h
    cases h
  obtain ⟨hsuffix, hsame⟩ := steady_readItem s first rest' hfirst
  simp only [hfirst] at h
  rcases hskip : f.skip rest' with _ | ⟨c, u⟩
  · rw [hskip] at h
    cases h
  -- something follows the first item, so the text was not at its end there
  have hfirm : ∀ t, readItem f (s ++ ')' :: t) = .ok (first, rest' ++ ')' :: t) := by
    refine hsame.resolve_right ?_
    rintro ⟨-, rfl, -⟩
    rw [f.skip_nil] at hskip
    cases hskip
  have hskip' : ∀ t, f.skip (rest' ++ ')' :: t) = c :: (u ++ ')' :: t) := fun t => by
    rw [Flags.skip_append (by rw [hskip]; exact List.cons_ne_nil c u), hskip, List.cons_append]
  have hu : u <:+ s :=
    ((List.suffix_cons c u).trans (hskip ▸ f.skip_suffix rest')).trans hsuffix
  have hpeek : ∀ t, (c = '-' ∧ peekBehind f (u ++ ')' :: t) ≠ some ']' ∧
      peekBehind f (u ++ ')' :: t) ≠ some '-') ↔
        (c = '-' ∧ peekBehind f u ≠ some ']' ∧ peekBehind f u ≠ some '-') := fun t => by
    rw [ne_eq, ne_eq, peekBehind_append_close (by decide) (by decide) (by decide),
      peekBehind_append_close (by decide) (by decide) (by decide)]
  simp only [hskip] at h
  simp only [hfirm, hskip', hpeek]
  by_cases hrange : c = '-' ∧ peekBehind f u ≠ some ']' ∧ peekBehind f u ≠ some '-'
  · simp only [if_pos hrange] at h ⊢
    obtain ⟨hsuffix', hsame'⟩ := (steady_readItem.refine (rangeSet f first) (f.skip u)).skip _ _ h
    exact ⟨hsuffix'.trans hu, hsame'⟩
  · simp only [if_neg hrange] at h ⊢
    obtain ⟨hsuffix', hsame'⟩ := (steady_ok first).refine (itemSet f) rest' _ _ h
    exact ⟨hsuffix'.trans hsuffix, hsame'⟩

lemma readHyphens_cons (b : Bracket) (c : Char) (s : List Char) : readHyphens f b (c :: s) =
    if c = '-' then readHyphens f (b.add (.single '-')) (f.skip s) else (b, c :: s) := by
  rw [readHyphens]

lemma steady_readHyphens (b : Bracket) : Steady f fun s => .ok (readHyphens f b s) := by
  intro s
  fun_induction readHyphens f b s with
  | case1 b =>
    refine .of_eq (fun u => .ok (b, u)) (List.suffix_refl _) ?_ (fun t => ?_)
      (steady_ok b [])
    · rw [readHyphens]
    · rw [List.nil_append, readHyphens_cons, if_neg (by decide)]
  | case2 b t h ih =>
    refine .of_eq (fun u => .ok (readHyphens f (b.add (.single '-')) (f.skip u)))
      (List.suffix_cons '-' t) ?_ (fun u => ?_) ih.skip
    · rw [readHyphens_cons, if_pos rfl]
    · rw [List.cons_append, readHyphens_cons, if_pos rfl]
  | case3 b c t h hc =>
    refine .of_eq (fun u => .ok (b, u)) (List.suffix_refl _) ?_ (fun u => ?_)
      (steady_ok b (c :: t))
    · rw [readHyphens_cons, if_neg hc]
    · rw [List.cons_append, readHyphens_cons, if_neg hc]

lemma steady_readFirstClose (b : Bracket) : Steady f fun s => .ok (readFirstClose f b s) := by
  intro s
  rcases s with _ | ⟨c, s⟩
  · refine .of_eq (fun u => .ok (b, u)) (List.suffix_refl _) rfl (fun t => ?_)
      (steady_ok b [])
    simp [readFirstClose]
  · by_cases hc : c = ']' ∧ b.items = .empty
    · refine .of_eq (fun u => .ok (b.add (.single ']'), f.skip u)) (List.suffix_cons c s)
        ?_ (fun t => ?_) (steady_ok _ (f.skip s)).skip
      · simp only [readFirstClose, if_pos hc]
      · simp only [List.cons_append, readFirstClose, if_pos hc]
    · refine .of_eq (fun u => .ok (b, u)) (List.suffix_refl _) ?_ (fun t => ?_)
        (steady_ok b (c :: s))
      · simp only [readFirstClose, if_neg hc]
      · simp only [List.cons_append, readFirstClose, if_neg hc]

lemma steady_skipNegation :
    Steady f fun s => .ok (decide (s.head? = some '^'), skipNegation f s) := by
  intro s
  have hhead : ∀ t, (s ++ ')' :: t).head? = some '^' ↔ s.head? = some '^' :=
    head?_append_close (by decide) s
  by_cases hs : s.head? = some '^'
  · refine .of_eq (fun u => .ok (true, f.skip u)) (List.tail_suffix s) ?_ (fun t => ?_)
      (steady_ok true (f.skip s.tail)).skip
    · simp [skipNegation, hs]
    · obtain ⟨u, rfl⟩ := List.head?_eq_some_iff.mp hs
      simp [skipNegation]
  · refine .of_eq (fun u => .ok (false, u)) (List.suffix_refl s) ?_ (fun t => ?_)
      (steady_ok false s)
    · simp [skipNegation, hs]
    · simp only [skipNegation, hhead, hs, decide_false, if_false]

lemma steady_openBracket : Steady f fun s => .ok (openBracket f s) := fun s =>
  ((steady_skipNegation s).bind _ fun negated u _ =>
    steady_readHyphens ⟨negated, none, .empty⟩ u).bind _ fun b u _ => steady_readFirstClose b u

lemma named?_of_mem {name : List Char} (h : ')' ∈ name) :
    CharSet.named? (String.ofList name) = none := by
  have hne : ∀ s : String, ')' ∉ s.toList → String.ofList name ≠ s := by
    rintro s hs rfl
    exact hs (by rwa [String.toList_ofList])
  unfold CharSet.named?
  split <;> first
    | rfl
    | exact absurd ‹_› (hne _ (by decide))

lemma mem_of_cutAt?_append {u t name after : List Char} (hu : Text.cutAt? ':' u = none)
    (h : Text.cutAt? ':' (u ++ ')' :: t) = some (name, after)) : ')' ∈ name := by
  have hcolon : ':' ∉ u := by
    intro hmem
    obtain ⟨x, y, rfl, hx⟩ := List.eq_append_cons_of_mem hmem
    rw [Text.cutAt?_append hx] at hu
    cases hu
  obtain ⟨w, rfl, hw⟩ := Text.exists_eq_append hcolon (Text.cutAt?_eq_some_iff.mp h).2
  rcases w with _ | ⟨c, w⟩
  · cases hw
  · cases hw
    simp

lemma readNamed?_of_head? {s : List Char} (h : s.head? ≠ some ':') : readNamed? f s = none := by
  unfold readNamed?
  split
  · exact absurd rfl h
  · rfl

/-- Whether there is a named class, and which one, does not depend on the text behind: no name has a
parenthesis. -/
lemma readNamed?_append (s t : List Char) :
    readNamed? f (s ++ ')' :: t) =
      (readNamed? f s).map fun (a, rest) => (a, rest ++ ')' :: t) := by
  by_cases hs : s.head? = some ':'
  · obtain ⟨s, rfl⟩ := List.head?_eq_some_iff.mp hs
    have hhead : ((s ++ ')' :: t).head? = some '^') = (s.head? = some '^') :=
      propext (head?_append_close (by decide) s t)
    have hinside : (if s.head? = some '^' then (s ++ ')' :: t).tail else s ++ ')' :: t) =
        (if s.head? = some '^' then s.tail else s) ++ ')' :: t := by
      rcases s with _ | ⟨c, s⟩
      · rfl
      · by_cases hc : c = '^' <;> simp [hc]
    simp only [readNamed?, List.cons_append, hhead, hinside]
    generalize (if s.head? = some '^' then s.tail else s) = u
    rcases hcut : Text.cutAt? ':' u with _ | ⟨name, after⟩
    · -- a colon found only in the text behind ends a name with the parenthesis in it
      rcases hcut' : Text.cutAt? ':' (u ++ ')' :: t) with _ | ⟨name, after⟩
      · rfl
      · simp only [Option.map_none]
        split
        · rename_i he
          cases he
          rw [named?_of_mem (mem_of_cutAt?_append hcut hcut')]
          rfl
        · rfl
    · simp only [Text.cutAt?_append_right hcut]
      rcases after with _ | ⟨d, after⟩
      · rfl
      · by_cases hd : d = ']'
        · subst hd
          simp only [List.cons_append, Option.map_map]
          rfl
        · simp [hd]
  · have hs' : (s ++ ')' :: t).head? ≠ some ':' := fun h =>
      hs ((head?_append_close (by decide) s t).mp h)
    rw [readNamed?_of_head? hs, readNamed?_of_head? hs']
    rfl

lemma suffix_of_readNamed? {s rest : List Char} {a : CharSet}
    (h : readNamed? f s = some (a, rest)) : rest <:+ s := by
  unfold readNamed? at h
  split at h
  · rename_i t
    simp only at h
    split at h
    · rename_i name rest' hcut
      obtain ⟨a, -, he⟩ := Option.map_eq_some_iff.mp h
      cases he
      have hinside : (if t.head? = some '^' then t.tail else t) <:+ t := by
        split
        · exact List.tail_suffix t
        · exact List.suffix_refl t
      have hcut' : ':' :: ']' :: rest <:+ (if t.head? = some '^' then t.tail else t) :=
        ⟨name, (Text.cutAt?_eq_some_iff.mp hcut).2.symm⟩
      have hrest : rest <:+ ':' :: ']' :: rest := ⟨[':', ']'], rfl⟩
      exact ((hrest.trans hcut').trans hinside).trans (List.suffix_cons _ _)
    · cases h
  · cases h

lemma steady_readInside (outer : List Bracket) (b : Bracket) : Steady f (readInside f outer b) := by
  intro s
  -- the cases follow the reader: a class, an inner bracket, an end, an operation, a range
  fun_induction readInside f outer b s with
  | case1 => exact .of_error (by rw [readInside])
  | case2 outer b t a' rest' hnamed h₁ h₂ ih =>
    refine .of_eq (fun u => readInside f outer (b.add a') (f.skip u))
      ((suffix_of_readNamed? hnamed).trans (List.suffix_cons _ _)) (readInside_named hnamed)
      (fun u => ?_) ih.skip
    have hnamed' : readNamed? f (t ++ ')' :: u) = some (a', rest' ++ ')' :: u) := by
      rw [readNamed?_append, hnamed]
      rfl
    exact readInside_named hnamed'
  | case3 outer b t hnamed h₁ h₂ h₃ ih =>
    have hopen := (steady_openBracket (f.skip t)).skip.bind
      (fun b' u => readInside f (b :: outer) b' (f.skip u)) fun b' rest h => by
        rw [Except.ok.injEq] at h
        rw [h] at ih
        exact ih.skip
    refine .of_eq _ (List.suffix_cons _ t) (readInside_open hnamed) (fun u => ?_) hopen
    have hnamed' : readNamed? f (t ++ ')' :: u) = none := by
      rw [readNamed?_append, hnamed]
      rfl
    exact readInside_open hnamed'
  | case4 b t hc =>
    exact .of_eq (fun u => Read.refine (.ok (b.close f, u)) f.checkText)
      (List.suffix_cons _ t) (readInside_close b t) (fun u => readInside_close b _)
      ((steady_ok (b.close f) t).refine f.checkText)
  | case5 b t b' outer h₁ hc ih =>
    exact .of_eq (fun u => readInside f outer (b'.add (b.close f)) (f.skip u))
      (List.suffix_cons _ t) (readInside_closeInner b') (fun u => readInside_closeInner b') ih.skip
  | case6 outer b c t hc hc' op ho h₁ ih =>
    rcases t with _ | ⟨d, t⟩
    · cases ho
    refine .of_eq (fun u => readInside f outer (b.operate f op) (f.skip u))
      ((List.suffix_cons d t).trans (List.suffix_cons c _)) (readInside_operation ⟨hc, hc'⟩ ho)
      (fun u => ?_) ih.skip
    have ho' : (d :: t ++ ')' :: u).head?.bind (SetOp.ofSigns? c) = some op := ho
    exact readInside_operation ⟨hc, hc'⟩ ho'
  | case7 outer b c t hc hc' ho e he =>
    exact .of_error (e := e) (by rw [readInside_range ⟨hc, hc'⟩ ho, he]; rfl)
  | case8 outer b c t hc hc' ho a' rest' hrange h₁ h₂ ih =>
    have hread := (steady_readRange (c :: t)).bind
      (fun a u => readInside f outer (b.add a) (f.skip u)) fun a rest h => by
        rw [hrange] at h
        cases h
        exact ih.skip
    refine .of_eq _ (List.suffix_refl _) (readInside_range ⟨hc, hc'⟩ ho) (fun u => ?_) hread
    have ho' : (t ++ ')' :: u).head?.bind (SetOp.ofSigns? c) = none := by
      rcases t with _ | ⟨d, t⟩
      · rcases hop : SetOp.ofSigns? c ')' with _ | op
        · exact hop
        · simp [SetOp.ofSigns?] at hop
      · exact ho
    exact readInside_range ⟨hc, hc'⟩ ho'

lemma steady_readBracket : Steady f (readBracket f) := fun s =>
  ((steady_openBracket (f.skip s)).skip).bind _ fun b u _ =>
    (steady_readInside [] b (f.skip u)).skip

end Signpost.Regex
