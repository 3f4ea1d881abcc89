import Signpost.Proofs.Regex.Pasted
import Signpost.Proofs.Template.Compile
import Signpost.Proofs.Template.Cut

/-!
The expression of a template as a tree. The text that is put together for the pieces is read back
as their expressions one after the other: literal text as its characters, whatever they mean in
expressions, a parameter as a group of its own, and an optional group as a part that may be left
out.
-/

namespace Signpost

open Regex

/-! ### Names of groups -/

lemma isGroupName_groupName (i : Nat) : IsGroupName (groupName i) := by
  refine ⟨'p', Nat.toDigits 10 i, rfl, rfl, fun d hd => ?_⟩
  have h := Nat.isDigit_of_mem_toDigits (by decide) (by decide) hd
  simp [isNameChar, h]

lemma groupName_injective {i j : Nat} (h : groupName i = groupName j) : i = j := by
  have hd : Nat.toDigits 10 i = Nat.toDigits 10 j :=
    (List.cons.inj (String.ofList_injective h)).2
  rw [← Nat.ofDigitChars_ten_toDigits (n := i), ← Nat.ofDigitChars_ten_toDigits (n := j), hd]

/-! ### Parameters -/

namespace Marker

/-- The characters that a parameter can take, as its class puts them together. -/
def charSet : Marker → CharSet
  | generic =>
    [.range 'a' 'z', .range 'A' 'Z', .range '0' '9', .single '_', .single '-', .single '+',
      .single '%', .blank].foldl .union .empty
  | numeric => .union .empty (.range '0' '9')
  | wildcard => .compl (.single '\n')

lemma mem_single_eq_beq (a c : Char) : (CharSet.single a).mem c = (c == a) := by
  rw [Bool.eq_iff_iff, CharSet.mem_single, beq_iff_eq]

lemma mem_charSet (m : Marker) : m.charSet.mem = m.admitsChar := by
  funext c
  cases m with
  | generic =>
    simp only [charSet, List.foldl_cons, List.foldl_nil, CharSet.mem_union, mem_single_eq_beq]
    rfl
  | numeric => rfl
  | wildcard =>
    rw [charSet, CharSet.mem_compl, mem_single_eq_beq]
    rfl

/-- The expression that matches what a parameter can take. -/
def expr (m : Marker) : Expr :=
  if m = wildcard then .star true (.set m.charSet) else .plus true (.set m.charSet)

lemma readBracket_generic (rest : List Char) :
    readBracket {} ("a-zA-Z0-9_\\-+%\\s]".toList ++ rest) = .ok (generic.charSet, rest) := by
  refine (readBracket_of_item (by decide) _).trans ?_
  iterate 8 refine (readInside_item (by decide) rfl rfl).trans ?_
  exact readInside_close _ rest

lemma readBracket_numeric (rest : List Char) :
    readBracket {} ("0-9]".toList ++ rest) = .ok (numeric.charSet, rest) := by
  refine (readBracket_of_item (by decide) _).trans ?_
  refine (readInside_item (by decide) rfl rfl).trans ?_
  exact readInside_close _ rest

lemma readAll_kind {p : Progress} (hp : p.flags = {}) (m : Marker) (rest : List Char) :
    p.readAll (m.kind.pattern ++ ')' :: rest) = (p.addAll [m.expr]).readAll (')' :: rest) := by
  have hv : p.flags.verbose = false := by rw [hp]
  have hplus : readLexeme p.flags '+' (')' :: rest) =
      .ok (.repetition 1 none true, ')' :: rest) := by
    rw [hp]
    rfl
  have hstar : readLexeme p.flags '*' (')' :: rest) =
      .ok (.repetition 0 none true, ')' :: rest) := by
    rw [hp]
    rfl
  have hdot : readLexeme p.flags '.' ('*' :: ')' :: rest) =
      .ok (.item (.set wildcard.charSet), '*' :: ')' :: rest) := by
    rw [hp]
    rfl
  have hbracket : ∀ {s t a}, readBracket {} s = .ok (a, t) →
      readLexeme p.flags '[' s = .ok (.item (.set a), t) := by
    intro s t a h
    rw [hp, readLexeme, h]
    rfl
  cases m with
  | generic =>
    have hpattern : generic.kind.pattern ++ ')' :: rest =
        '[' :: ("a-zA-Z0-9_\\-+%\\s]".toList ++ ('+' :: ')' :: rest)) := rfl
    rw [hpattern, Progress.readAll_item hv (hbracket (readBracket_generic _)),
      Progress.readAll_repetition hv hplus]
    rfl
  | numeric =>
    have hpattern : numeric.kind.pattern ++ ')' :: rest =
        '[' :: ("0-9]".toList ++ ('+' :: ')' :: rest)) := rfl
    rw [hpattern, Progress.readAll_item hv (hbracket (readBracket_numeric _)),
      Progress.readAll_repetition hv hplus]
    rfl
  | wildcard =>
    have hpattern : wildcard.kind.pattern ++ ')' :: rest = '.' :: '*' :: ')' :: rest := rfl
    rw [hpattern, Progress.readAll_item hv hdot, Progress.readAll_repetition hv hstar]
    rfl

lemma standsFor (m : Marker) : StandsFor m.kind.pattern m.expr := by
  intro p name rest hp
  rw [readAll_kind (p := p.openGroup name) hp, Progress.readAll_close rfl (by rw [hp])]
  cases m <;> rfl

end Marker

def Token.expr (i : Nat) (t : Token) : Expr := .capture (groupName i) t.marker.expr

def OptionalGroup.exprs (i : Nat) (g : OptionalGroup) : List Expr :=
  Expr.literals g.before ++ g.token.expr i :: Expr.literals g.after

namespace Piece

/-- The expressions that stand for a piece whose parameter, if it has one, is number `i`. -/
def exprs (i : Nat) : Piece → List Expr
  | literal s => Expr.literals s
  | required t => [t.expr i]
  | optional g => [.upTo 1 true (.sequence (g.exprs i))]

def allExprs (i : Nat) : List Piece → List Expr
  | [] => []
  | p :: ps => p.exprs i ++ allExprs (i + p.token?.toList.length) ps

lemma allExprs_literal (i : Nat) (t : List Char) (ps : List Piece) :
    allExprs i (literal t :: ps) = Expr.literals t ++ allExprs i ps := rfl

lemma allExprs_required (i : Nat) (t : Token) (ps : List Piece) :
    allExprs i (required t :: ps) = t.expr i :: allExprs (i + 1) ps := rfl

lemma allExprs_optional (i : Nat) (g : OptionalGroup) (ps : List Piece) :
    allExprs i (optional g :: ps) =
      .upTo 1 true (.sequence (g.exprs i)) :: allExprs (i + 1) ps := rfl

/-! ### Any expression for each parameter -/

variable (inner : Token → Expr)

/-- The expressions that stand for a piece, where `inner` tells what its parameter matches. -/
def exprsWith (i : Nat) : Piece → List Expr
  | literal s => Expr.literals s
  | required t => [.capture (groupName i) (inner t)]
  | optional g =>
    [.upTo 1 true (.sequence (Expr.literals g.before ++
      .capture (groupName i) (inner g.token) :: Expr.literals g.after))]

def allExprsWith (i : Nat) : List Piece → List Expr
  | [] => []
  | p :: ps => p.exprsWith inner i ++ allExprsWith (i + p.token?.toList.length) ps

lemma allExprsWith_literal (i : Nat) (t : List Char) (ps : List Piece) :
    allExprsWith inner i (literal t :: ps) = Expr.literals t ++ allExprsWith inner i ps := rfl

lemma allExprsWith_required (i : Nat) (t : Token) (ps : List Piece) :
    allExprsWith inner i (required t :: ps) =
      .capture (groupName i) (inner t) :: allExprsWith inner (i + 1) ps := rfl

lemma allExprsWith_optional (i : Nat) (g : OptionalGroup) (ps : List Piece) :
    allExprsWith inner i (optional g :: ps) =
      .upTo 1 true (.sequence (Expr.literals g.before ++
        .capture (groupName i) (inner g.token) :: Expr.literals g.after)) ::
          allExprsWith inner (i + 1) ps := rfl

lemma allExprs_eq (i : Nat) (ps : List Piece) :
    allExprs i ps = allExprsWith (fun t => t.marker.expr) i ps := by
  induction ps generalizing i with
  | nil => rfl
  | cons p ps ih => cases p <;> exact congrArg _ (ih _)

end Piece

/-! ### Reading the pieces -/

namespace Regex.Progress

variable {p : Progress} {i : Nat} {rest : List Char}

lemma readAll_escapeText (hp : p.flags = {}) (s : List Char) :
    p.readAll (escapeText s ++ rest) = (p.addAll (Expr.literals s)).readAll rest := by
  have hv : p.flags.verbose = false := by rw [hp]
  induction s generalizing p with
  | nil => rfl
  | cons c s ih =>
    have hstep : p.readAll (escapeText (c :: s) ++ rest) =
        (p.addAll [.set (.single c)]).readAll (escapeText s ++ rest) := by
      have happ : escapeText (c :: s) ++ rest =
          (if isMeta c then ['\\', c] else [c]) ++ (escapeText s ++ rest) := by
        simp [escapeText]
      rw [happ]
      by_cases hc : isMeta c = true
      · rw [if_pos hc]
        exact readAll_item hv (by rw [hp]; exact readLexeme_of_meta hc _ _)
      · rw [if_neg hc]
        exact readAll_item hv (by rw [hp]; exact readLexeme_of_not_meta (by simpa using hc) _ _)
    rw [hstep, ih (p := p.addAll _) hp hv, addAll_addAll]
    rfl

variable {inner : Token → Expr}

lemma readAll_token (hp : p.flags = {}) {t : Token} (ht : StandsFor t.kind.pattern (inner t))
    (hnew : groupName i ∉ p.names) :
    p.readAll (t.patternSource i ++ rest) =
      ((p.named [groupName i]).addAll [.capture (groupName i) (inner t)]).readAll rest := by
  have happ : t.patternSource i ++ rest = "(?P<".toList ++
      ((groupName i).toList ++ '>' :: (t.kind.pattern ++ ')' :: rest)) := by
    rw [Piece.patternSource_token]
    simp only [List.append_assoc, List.cons_append, List.nil_append]
  rw [happ, readAll_openName hp (isGroupName_groupName i) hnew, ht p _ rest hp]
  rfl

lemma readAll_optional (hp : p.flags = {}) {g : OptionalGroup}
    (ht : StandsFor g.token.kind.pattern (inner g.token)) (hnew : groupName i ∉ p.names)
    (hrest : rest.head? ≠ some '?') :
    p.readAll ((Piece.optional g).patternSource i ++ rest) =
      ((p.named [groupName i]).addAll ((Piece.optional g).exprsWith inner i)).readAll rest := by
  have hv : p.flags.verbose = false := by rw [hp]
  have happ : (Piece.optional g).patternSource i ++ rest = "(?:".toList ++ (escapeText g.before ++
      (g.token.patternSource i ++ (escapeText g.after ++ ')' :: '?' :: rest))) := by
    simp only [Piece.patternSource_optional, List.append_assoc]
    rfl
  have hsign : readLexeme p.flags '?' rest = .ok (.repetition 0 (some 1) true, rest) := by
    rw [hp]
    exact congrArg Except.ok (readGreed_greedy hrest 0 (some 1))
  -- the expressions inside the group, and the progress behind its token
  let es := Expr.literals g.before ++
    .capture (groupName i) (inner g.token) :: Expr.literals g.after
  let q := (((p.openGroup none).addAll (Expr.literals g.before)).named [groupName i]).addAll
    [.capture (groupName i) (inner g.token)]
  have hinside : (q.addAll (Expr.literals g.after)).inside.expr = Expr.sequence es := by
    rw [← Branches.expr_foldl_add]
    simp [q, es, addAll, openGroup, named]
  calc p.readAll ((Piece.optional g).patternSource i ++ rest)
    _ = (p.openGroup none).readAll (escapeText g.before ++
          (g.token.patternSource i ++ (escapeText g.after ++ ')' :: '?' :: rest))) := by
        rw [happ, readAll_open hp]
    _ = q.readAll (escapeText g.after ++ ')' :: '?' :: rest) := by
        rw [readAll_escapeText (p := p.openGroup none) hp,
          readAll_token (p := (p.openGroup none).addAll _) hp ht hnew]
    _ = (q.addAll (Expr.literals g.after)).readAll (')' :: '?' :: rest) :=
        readAll_escapeText (p := q) hp _
    _ = ((p.named [groupName i]).addAll [Expr.sequence es]).readAll ('?' :: rest) := by
        rw [readAll_close rfl hv, hinside]
        rfl
    _ = ((p.named [groupName i]).addAll [.upTo 1 true (.sequence es)]).readAll rest :=
        readAll_repetition (p := p.named _) hv hsign

lemma readAll_patternSource (hp : p.flags = {}) (piece : Piece)
    (hk : ∀ t ∈ piece.token?, StandsFor t.kind.pattern (inner t)) (hnew : groupName i ∉ p.names)
    (hrest : rest.head? ≠ some '?') :
    p.readAll (piece.patternSource i ++ rest) =
      ((p.named (piece.token?.toList.map fun _ => groupName i)).addAll
        (piece.exprsWith inner i)).readAll rest := by
  cases piece with
  | literal s => exact readAll_escapeText hp s
  | required t => exact readAll_token hp (hk t rfl) hnew
  | optional g => exact readAll_optional hp (hk g.token rfl) hnew hrest

lemma head?_patternSource (piece : Piece) (hrest : rest.head? ≠ some '?') :
    (piece.patternSource i ++ rest).head? ≠ some '?' := by
  cases piece with
  | literal s =>
    rcases s with _ | ⟨c, s⟩
    · exact hrest
    · by_cases hc : isMeta c = true
      · simp [escapeText, hc]
      · have : c ≠ '?' := by
          rintro rfl
          exact hc rfl
        simp [escapeText, hc, this]
  | required t => simp [Piece.patternSource_token]
  | optional g => simp [Piece.patternSource_optional]

lemma head?_patternSources (i : Nat) (ps : List Piece) (hrest : rest.head? ≠ some '?') :
    (Piece.patternSources i ps ++ rest).head? ≠ some '?' := by
  induction ps generalizing i with
  | nil => exact hrest
  | cons piece ps ih =>
    rw [Piece.patternSources, List.append_assoc]
    exact head?_patternSource piece (ih _)

/-- The pieces are read one after the other; the groups named on the way are new ones. -/
lemma readAll_patternSources (hp : p.flags = {}) (ps : List Piece)
    (hk : ∀ t ∈ Piece.tokens ps, StandsFor t.kind.pattern (inner t))
    (hnew : ∀ j, i ≤ j → groupName j ∉ p.names) (hrest : rest.head? ≠ some '?') :
    ∃ names, p.readAll (Piece.patternSources i ps ++ rest) =
      ((p.named names).addAll (Piece.allExprsWith inner i ps)).readAll rest := by
  induction ps generalizing p i with
  | nil => exact ⟨[], rfl⟩
  | cons piece ps ih =>
    have hpiece : ∀ t ∈ piece.token?, StandsFor t.kind.pattern (inner t) := fun t ht =>
      hk t (List.mem_filterMap.mpr ⟨piece, List.mem_cons_self, ht⟩)
    have hps : ∀ t ∈ Piece.tokens ps, StandsFor t.kind.pattern (inner t) := fun t ht => by
      obtain ⟨piece', hm, ht⟩ := List.mem_filterMap.mp ht
      exact hk t (List.mem_filterMap.mpr ⟨piece', List.mem_cons_of_mem _ hm, ht⟩)
    let q := (p.named (piece.token?.toList.map fun _ => groupName i)).addAll
      (piece.exprsWith inner i)
    have hq : ∀ j, i + piece.token?.toList.length ≤ j → groupName j ∉ q.names := by
      intro j hj
      rcases ht : piece.token? with _ | t
      · rw [ht] at hj
        simpa [q, named, ht] using hnew j hj
      · rw [ht] at hj
        have hlt : i + 1 ≤ j := hj
        have hne : groupName j ≠ groupName i := fun e => by
          have := groupName_injective e
          omega
        simpa [q, named, ht, hne] using hnew j (by omega)
    obtain ⟨names, h⟩ := ih (p := q) hp hps hq
    refine ⟨names ++ piece.token?.toList.map fun _ => groupName i, ?_⟩
    rw [Piece.patternSources, List.append_assoc,
      readAll_patternSource hp piece hpiece (hnew i (Nat.le_refl i))
        (head?_patternSources _ ps hrest), h]
    simp [q, addAll, named, Piece.allExprsWith]

end Regex.Progress

namespace Template

def exprOf (ps : List Piece) : Expr :=
  .sequence (.look .textStart :: (Piece.allExprs 0 ps ++ [.look .textEnd]))

def exprWith (inner : Token → Expr) (ps : List Piece) : Expr :=
  .sequence (.look .textStart :: (Piece.allExprsWith inner 0 ps ++ [.look .textEnd]))

/-- **Reading back**: an expression put together from pieces is the expression of these pieces, with
what the patterns of the parameters stand for. -/
theorem read_patternOf_eq_exprWith {inner : Token → Expr} {ps : List Piece}
    (hk : ∀ t ∈ Piece.tokens ps, StandsFor t.kind.pattern (inner t)) {e : Expr}
    (h : Expr.read (patternOf ps) = .ok e) : e = exprWith inner ps := by
  let p := Progress.start.addAll [.look .textStart]
  have hdollar : ['$'].head? ≠ some '?' := by decide
  obtain ⟨names, hps⟩ := Progress.readAll_patternSources (p := p) (i := 0) rfl ps hk
    (fun j _ => List.not_mem_nil) hdollar
  let q := (p.named names).addAll (Piece.allExprsWith inner 0 ps ++ [.look .textEnd])
  have hall : Progress.start.readAll (patternOf ps) = .ok q :=
    calc Progress.start.readAll (patternOf ps)
      _ = p.readAll (Piece.patternSources 0 ps ++ ['$']) := Progress.readAll_item rfl rfl
      _ = ((p.named names).addAll (Piece.allExprsWith inner 0 ps)).readAll ['$'] := hps
      _ = (((p.named names).addAll (Piece.allExprsWith inner 0 ps)).addAll
            [.look .textEnd]).readAll [] :=
          Progress.readAll_item rfl rfl
      _ = .ok q := by rw [Progress.readAll_nil, Progress.addAll_addAll]
  have hq : q.finish = .ok (exprWith inner ps) := by
    have : q.inside = (Expr.look .textStart ::
        (Piece.allExprsWith inner 0 ps ++ [.look .textEnd])).foldl Branches.add .none := rfl
    rw [Progress.finish]
    exact congrArg Except.ok (this ▸ Branches.expr_foldl_add _)
  unfold Expr.read at h
  rw [hall] at h
  simp only [hq] at h
  split at h
  · exact (Except.ok.inj h).symm
  · cases h

/-- An expression put together from pieces, none of which has a pattern of its own, is the
expression of these pieces. -/
theorem read_patternOf {ps : List Piece} (hk : ∀ t ∈ Piece.tokens ps, t.kind = t.marker.kind)
    {e : Expr} (h : Expr.read (patternOf ps) = .ok e) : e = exprOf ps := by
  have hmarker : ∀ t ∈ Piece.tokens ps, StandsFor t.kind.pattern t.marker.expr := fun t ht => by
    rw [hk t ht]
    exact t.marker.standsFor
  rw [read_patternOf_eq_exprWith hmarker h, exprWith, exprOf, Piece.allExprs_eq]

end Template

end Signpost
