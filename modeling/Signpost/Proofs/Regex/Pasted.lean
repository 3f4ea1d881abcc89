import Signpost.Proofs.Regex.Nameless
import Signpost.Proofs.Regex.SteadyLexeme

/-!
Patterns pasted into groups. What is read of a pattern by itself is read in the same way inside a
group: each step of the reader leaves the groups around it alone, and the closing parenthesis of the
group is met only behind the pattern, unless the pattern ends in a comment. Names could clash with
names outside, so it is assumed that no group in the pattern has one.
-/

namespace Signpost.Regex

/-! ### Parts without names -/

namespace Expr

variable {a b e : Expr}

lemma Nameless.andThen (ha : a.Nameless) (hb : b.Nameless) : (a.andThen b).Nameless := by
  unfold Expr.andThen
  split
  · exact hb
  · exact ⟨ha, hb⟩

lemma Nameless.counted (he : e.Nameless) (min : Nat) (max : Option Nat) (greedy : Bool) :
    (e.counted min max greedy).Nameless := by
  unfold Expr.counted
  split
  · split
    · exact he
    · exact he
    · exact ⟨he, he⟩
  · split
    · split <;> exact he
    · split
      · exact he
      · exact ⟨he, he⟩

end Expr

lemma Flags.nameless_literal (f : Flags) (c : Char) : (f.literal c).Nameless := by
  unfold Flags.literal
  split <;> trivial

lemma Flags.nameless_dot {f : Flags} {e : Expr} (h : f.dot = .ok e) : e.Nameless := by
  unfold Flags.dot at h
  split at h
  · cases h
  · split at h
    · cases h
      trivial
    · split at h <;> cases h <;> trivial

lemma Atom.nameless_expr (f : Flags) (a : Atom) : (a.expr f).Nameless := by
  cases a with
  | char c => exact f.nameless_literal c
  | set a => trivial
  | look l => trivial

/-- No name is in a part of an expression's text. -/
def Lexeme.Nameless : Lexeme → Prop
  | .item e => e.Nameless
  | .opening name _ => name = none
  | _ => True

section Lexemes

variable {f : Flags} {s rest : List Char} {x : Lexeme}

lemma nameless_readGreed {min : Nat} {max : Option Nat}
    (h : (.ok (readGreed f min max s) : Read Lexeme) = .ok (x, rest)) : x.Nameless := by
  unfold readGreed at h
  split at h <;> cases h <;> trivial

lemma nameless_readBounds (h : readBounds f s = .ok (x, rest)) : x.Nameless := by
  unfold readBounds at h
  split at h
  · cases h
  · split at h
    · exact nameless_readGreed h
    · split at h
      · exact nameless_readGreed h
      · split at h
        · cases h
        · split at h
          · split at h
            · exact nameless_readGreed h
            · cases h
          · cases h
    · cases h

lemma nameless_readFlags {seen : List Char} (h : readFlags f seen s = .ok (x, rest)) :
    x.Nameless := by
  induction s generalizing f seen with
  | nil => cases h
  | cons c s ih =>
    simp only [readFlags] at h
    split at h
    · split at h
      · cases h
      · split at h
        · cases h
          rfl
        · split at h <;> cases h
          trivial
    · split at h
      · cases h
      · split at h
        · exact ih h
        · split at h
          · exact ih h
          · cases h

lemma mem_of_readName {name : String} (h : readName s = .ok (name, rest)) : '>' ∈ s := by
  unfold readName at h
  split at h
  · rename_i hcut
    rw [(Text.cutAt?_eq_some_iff.mp hcut).2]
    simp
  · cases h

lemma nameless_readOpening (hs : '>' ∉ s) (h : readOpening f s = .ok (x, rest)) : x.Nameless := by
  have hskip : '>' ∉ f.skip s := fun hmem => hs ((f.skip_suffix s).subset hmem)
  rw [← readOpening_skip] at h
  obtain ⟨-, he⟩ | ⟨t, ht, h'⟩ | ⟨t, ht, -, h'⟩ | ⟨t, -, -, h'⟩ :=
    readOpening_cases (f.skip_skip s) h
  · cases he
    rfl
  · obtain ⟨name, hname, -⟩ := Read.refine_eq_ok.mp h'
    rw [ht] at hskip
    exact absurd (mem_of_readName hname) (by simpa using hskip)
  · obtain ⟨name, hname, -⟩ := Read.refine_eq_ok.mp h'
    rw [ht] at hskip
    exact absurd (mem_of_readName hname) (by simpa using hskip)
  · exact nameless_readFlags h'

lemma nameless_readLexeme {c : Char} (hs : '>' ∉ s)
    (h : readLexeme f c s = .ok (x, rest)) : x.Nameless := by
  unfold readLexeme at h
  split at h
  · exact nameless_readOpening hs h
  · cases h
    trivial
  · cases h
    trivial
  · obtain ⟨a, -, h⟩ := Read.refine_eq_ok.mp h
    cases h
    trivial
  · exact nameless_readGreed h
  · exact nameless_readGreed h
  · exact nameless_readGreed h
  · exact nameless_readBounds h
  · obtain ⟨a, -, h⟩ := Read.refine_eq_ok.mp h
    cases h
    exact a.nameless_expr f
  · obtain ⟨-, -, h⟩ := Read.refine_eq_ok.mp h
    rcases he : f.dot with _ | e <;> rw [he] at h <;> cases h
    exact Flags.nameless_dot he
  · cases h
    trivial
  · cases h
    trivial
  · cases h
    exact f.nameless_literal _

end Lexemes

/-! ### Progress that records nothing -/

/-- Nothing that is read of a group is recorded under a name. -/
structure Branches.Nameless (b : Branches) : Prop where
  before : ∀ e ∈ b.before, e.Nameless
  front : b.front.Nameless
  last : ∀ e, b.last = .expr e → e.Nameless

namespace Branches

variable {b : Branches} {e : Expr}

lemma nameless_none : none.Nameless := ⟨nofun, trivial, nofun⟩

lemma Nameless.current (h : b.Nameless) : b.current.Nameless := by
  unfold Branches.current
  split
  · exact h.front
  · exact h.front.andThen (h.last _ ‹_›)

lemma Nameless.expr (h : b.Nameless) : b.expr.Nameless := by
  unfold Branches.expr
  split
  · exact h.current
  · exact ⟨h.before _ ‹_›, h.current⟩

lemma Nameless.add (h : b.Nameless) (he : e.Nameless) : (b.add e).Nameless where
  before := h.before
  front := h.current
  last := by
    rintro e' ⟨⟩
    exact he

lemma Nameless.bar (h : b.Nameless) : b.bar.Nameless where
  before := by
    rintro e ⟨⟩
    exact h.expr
  front := trivial
  last := nofun

end Branches

namespace Progress

/-- Nothing that is read is recorded under a name. -/
structure Nameless (p : Progress) : Prop where
  inside : p.inside.Nameless
  groups : ∀ g ∈ p.groups, g.name = none ∧ g.outside.Nameless

def within (p : Progress) (groups : List OpenGroup) (names : List String) : Progress :=
  { p with groups := p.groups ++ groups, names := p.names ++ names }

variable {p q : Progress} {x : Lexeme} {c : Char} {s rest : List Char}

lemma nameless_start : start.Nameless :=
  ⟨Branches.nameless_none, fun _ hg => absurd hg List.not_mem_nil⟩

/-- A step without names records nothing, and the groups around do not matter to it. -/
lemma Nameless.push (hp : p.Nameless) (hx : x.Nameless) (h : p.push x = .ok q) :
    (q.Nameless ∧ q.names = p.names) ∧
      ∀ groups names, (p.within groups names).push x = .ok (q.within groups names) := by
  cases x with
  | item e =>
    cases h
    exact ⟨⟨⟨hp.inside.add hx, hp.groups⟩, rfl⟩, fun _ _ => rfl⟩
  | repetition min max greedy =>
    simp only [Progress.push, within] at h ⊢
    split at h
    · cases h
    · rename_i e he
      cases h
      have hlast := (hp.inside.last e he).counted min max greedy
      refine ⟨⟨⟨⟨hp.inside.before, hp.inside.front, ?_⟩, hp.groups⟩, rfl⟩, fun _ _ => rfl⟩
      rintro e' ⟨⟩
      exact hlast
  | opening name flags =>
    cases hx
    cases h
    refine ⟨⟨⟨Branches.nameless_none, ?_⟩, rfl⟩, fun _ _ => rfl⟩
    rintro g (_ | ⟨_, hg⟩)
    · exact ⟨rfl, hp.inside⟩
    · exact hp.groups g hg
  | flags flags =>
    cases h
    refine ⟨⟨⟨⟨hp.inside.before, hp.inside.current, ?_⟩, hp.groups⟩, rfl⟩, fun _ _ => rfl⟩
    rintro e ⟨⟩
  | closing =>
    rcases hg : p.groups with _ | ⟨g, gs⟩
    · simp only [Progress.push, hg] at h
      cases h
    · simp only [Progress.push, within, hg, List.cons_append] at h ⊢
      cases h
      -- the group that closes is nameless, so it becomes a plain part of the expression outside
      obtain ⟨hname, houtside⟩ := hp.groups g (hg ▸ List.mem_cons_self)
      have hclose : (closeGroup g.name p.inside.expr).Nameless := by
        rw [hname]
        exact hp.inside.expr
      refine ⟨⟨⟨houtside.add hclose, fun g' hg' => hp.groups g' ?_⟩, rfl⟩, fun _ _ => rfl⟩
      rw [hg]
      exact List.mem_cons_of_mem _ hg'
  | bar =>
    cases h
    exact ⟨⟨⟨hp.inside.bar, hp.groups⟩, rfl⟩, fun _ _ => rfl⟩

/-- Whether flags are met under which blanks and comments are skipped. -/
def turnsVerbose (p : Progress) (s : List Char) : Bool :=
  match s with
  | [] => false
  | c :: t =>
    match h : readLexeme p.flags c t with
    | .error _ => false
    | .ok (x, rest) =>
      match p.push x with
      | .error _ => false
      | .ok q =>
        have := length_readLexeme h
        have := q.flags.length_skip rest
        q.flags.verbose || turnsVerbose q (q.flags.skip rest)
termination_by s.length
decreasing_by simp only [List.length_cons]; omega

/-- A part of a text is read in the same way inside other groups and in front of the parenthesis that
closes the innermost of these, unless a comment behind it takes this parenthesis. -/
lemma readAll_step_within (hx : readLexeme p.flags c s = .ok (x, rest))
    (hpush : ∀ groups names, (p.within groups names).push x = .ok (q.within groups names)) :
    (∀ groups names t, (p.within groups names).readAll (c :: s ++ ')' :: t) =
        (q.within groups names).readAll (q.flags.skip rest ++ ')' :: t)) ∨
      (p.flags.verbose = true ∨ q.flags.verbose = true) ∧ q.flags.skip rest = [] ∧
        ∀ groups names,
          (p.within groups names).readAll (c :: s ++ [')']) = .ok (q.within groups names) := by
  have hstep : ∀ {groups names t u}, readLexeme p.flags c (s ++ t) = .ok (x, u) →
      (p.within groups names).readAll (c :: s ++ t) =
        (q.within groups names).readAll (q.flags.skip u) := fun h =>
    readAll_step (p := p.within _ _) h (hpush _ _)
  rcases (steady_readLexeme c s x rest hx).2 with hall | ⟨hverbose, rfl, hclose⟩
  · rcases q.flags.skip_close rest with hskip | ⟨hverbose, hnil, hclose⟩
    · exact .inl fun groups names t => by rw [hstep (hall t), hskip]
    · exact .inr ⟨.inr hverbose, hnil, fun groups names => by
        rw [hstep (hall []), hclose, readAll_nil]⟩
  · exact .inr ⟨.inl hverbose, q.flags.skip_nil, fun groups names => by
      rw [hstep hclose, Flags.skip_nil, readAll_nil]⟩

/-- What is read of a text by itself is read of it inside other groups, up to the parenthesis that
closes the innermost of these; unless flags turn on comments and one of them goes on to the end of
the text, so that it takes this parenthesis with it. -/
theorem readAll_within (hp : p.Nameless) (hs : '>' ∉ s) (h : p.readAll s = .ok q) :
    (q.Nameless ∧ q.names = p.names) ∧
      ((∀ groups names t, (p.within groups names).readAll (s ++ ')' :: t) =
          (q.within groups names).readAll (')' :: t)) ∨
        (p.flags.verbose = true ∨ p.turnsVerbose s = true) ∧ ∀ groups names,
          (p.within groups names).readAll (s ++ [')']) = .ok (q.within groups names)) := by
  fun_induction turnsVerbose p s with
  | case1 p =>
    rw [readAll] at h
    cases h
    exact ⟨⟨hp, rfl⟩, .inl fun _ _ _ => rfl⟩
  | case2 p c t e he =>
    rw [readAll] at h
    split at h <;> simp_all
  | case3 p c t x rest hx e he =>
    rw [readAll] at h
    split at h <;> simp_all
  | case4 p c t x rest hx q' hq h₁ h₂ ih =>
    -- what is left is an end of the text, so there is no name in it either
    have ht : '>' ∉ t := fun ht => hs (List.mem_cons_of_mem _ ht)
    have hsuffix := (q'.flags.skip_suffix rest).trans (steady_readLexeme c t x rest hx).1
    have hrest : '>' ∉ q'.flags.skip rest := fun hmem => ht (hsuffix.subset hmem)
    obtain ⟨⟨hp', hnames⟩, hpush⟩ := hp.push (nameless_readLexeme ht hx) hq
    rw [readAll_step hx hq] at h
    obtain ⟨⟨hq', hnames'⟩, hwithin⟩ := ih hp' hrest h
    refine ⟨⟨hq', hnames'.trans hnames⟩, ?_⟩
    rcases readAll_step_within hx hpush with hall | ⟨hverbose, hnil, hclose⟩
    · refine hwithin.imp (fun hwithin groups names u => ?_) fun hwithin => ?_
      · rw [hall, hwithin]
      · obtain ⟨hverbose, hwithin⟩ := hwithin
        refine ⟨.inr (Bool.or_eq_true_iff.mpr hverbose), fun groups names => ?_⟩
        rw [hall, hwithin]
    · rw [hnil, readAll_nil] at h
      cases h
      exact .inr ⟨hverbose.imp_right fun hv => by rw [hv, Bool.true_or], hclose⟩

end Progress

/-! ### Patterns in groups -/

/-- In a group the pattern is read as the expression, whatever is around the group. -/
def StandsFor (pattern : List Char) (e : Expr) : Prop :=
  ∀ (p : Progress) (name : Option String) (rest : List Char), p.flags = {} →
    (p.openGroup name).readAll (pattern ++ ')' :: rest) =
      ((p.named name.toList).addAll [Progress.closeGroup name e]).readAll rest

/-- Whether flags in a pattern turn on that blanks and comments are skipped. -/
def turnsVerbose (pattern : List Char) : Bool := Progress.start.turnsVerbose pattern

/-- A pattern without names that is an expression by itself stands for this expression in every
group, unless flags turn on comments and one of them takes the parenthesis that closes the group. -/
lemma standsFor_or_unclosed {pattern : List Char} {e : Expr} (h : Expr.read pattern = .ok e)
    (hname : '>' ∉ pattern) :
    e.Nameless ∧ (StandsFor pattern e ∨ turnsVerbose pattern = true ∧
      ∃ q, (Progress.start.openGroup none).readAll (pattern ++ [')']) = .ok q ∧ q.groups ≠ []) := by
  unfold Expr.read at h
  split at h
  · cases h
  rename_i q hq
  split at h
  · cases h
  rename_i e' he
  split at h <;> cases h
  unfold Progress.finish at he
  split at he
  · rename_i hgroups
    cases he
    obtain ⟨⟨hq', hnames⟩, hwithin⟩ := Progress.readAll_within Progress.nameless_start hname hq
    refine ⟨hq'.inside.expr, hwithin.imp (fun hwithin p name rest hp => ?_) ?_⟩
    · have hopen : p.openGroup name = Progress.start.within
          (⟨p.inside, name, p.flags⟩ :: p.groups) (name.toList ++ p.names) := by
        rw [Progress.openGroup, hp]
        rfl
      have hgroups' : (q.within (⟨p.inside, name, p.flags⟩ :: p.groups)
          (name.toList ++ p.names)).groups = ⟨p.inside, name, p.flags⟩ :: p.groups := by
        rw [Progress.within, hgroups]
        rfl
      rw [hopen, hwithin, Progress.readAll_close hgroups' (by rw [hp]), Progress.within, hnames]
      rfl
    · rintro ⟨hverbose, hwithin⟩
      refine ⟨hverbose.resolve_left Bool.false_ne_true, _, hwithin [⟨.none, none, {}⟩] [], ?_⟩
      simp [Progress.within]
  · cases he

/-- A pattern is an expression by itself and stands for this expression in every group, and nothing
in it is recorded under a name. -/
def Pastes (pattern : List Char) : Prop :=
  ∃ e, Expr.read pattern = .ok e ∧ StandsFor pattern e ∧ e.Nameless

/-- **Pasting.** A pattern without names that is an expression by itself stands for this expression
in every group, unless it makes the reader skip blanks and comments. -/
theorem pastes_of_read {pattern : List Char} {e : Expr} (h : Expr.read pattern = .ok e)
    (hverbose : turnsVerbose pattern = false) (hname : '>' ∉ pattern) : Pastes pattern := by
  obtain ⟨hnameless, hstands | ⟨hverbose', -⟩⟩ := standsFor_or_unclosed h hname
  · exact ⟨e, h, hstands, hnameless⟩
  · rw [hverbose] at hverbose'
    cases hverbose'

/-- A pattern without names that is an expression in a group too, whatever its flags, stands for the
same expression in every group. -/
theorem pastes_of_read_group {pattern : List Char} {e e' : Expr} (h : Expr.read pattern = .ok e)
    (hgroup : Expr.read ("(?:".toList ++ (pattern ++ [')'])) = .ok e') (hname : '>' ∉ pattern) :
    Pastes pattern := by
  obtain ⟨hnameless, hstands | ⟨-, q, hq, hgroups⟩⟩ := standsFor_or_unclosed h hname
  · exact ⟨e, h, hstands, hnameless⟩
  · -- without its parenthesis the group would be open at the end
    unfold Expr.read at hgroup
    rw [Progress.readAll_open rfl, hq] at hgroup
    simp only [Progress.finish] at hgroup
    split at hgroup
    · cases hgroup
    · rename_i he
      split at he
      · exact absurd ‹_› hgroups
      · cases he

lemma Pastes.read_group {pattern : List Char} (h : Pastes pattern) :
    Expr.read ("(?:".toList ++ (pattern ++ [')'])) = Expr.read pattern := by
  obtain ⟨e, hread, hstands, -⟩ := h
  have hweight : e.weight ≤ maxWeight := by
    unfold Expr.read at hread
    split at hread
    · cases hread
    · split at hread
      · cases hread
      · split at hread <;> cases hread
        assumption
  have hall := hstands .start none [] rfl
  have hfinish : ((Progress.start.named []).addAll [Progress.closeGroup none e]).finish = .ok e :=
    rfl
  rw [hread, Expr.read, Progress.readAll_open rfl, hall, Progress.readAll_nil]
  simp only [Option.toList, hfinish, if_pos hweight]

end Signpost.Regex
