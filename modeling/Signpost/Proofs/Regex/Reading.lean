import Signpost.Proofs.Text.Slice
import Signpost.Regex.Reader

/-!
Reading the parts of an expression that templates are made of, under plain flags: one part after
the other is read off the text and added to the branch in progress, whatever comes behind it.
-/

namespace Signpost.Regex

def Expr.sequence (es : List Expr) : Expr := es.foldl Expr.andThen .empty

/-- The expressions of the characters of a text, each standing for itself. -/
def Expr.literals (s : List Char) : List Expr := s.map fun c => .set (.single c)

lemma read_of_ofSource {source : List Char} {r : Regex} (h : ofSource source = .ok r) :
    Expr.read source = .ok r.expr := by
  unfold ofSource at h
  split at h
  · cases h
  · cases h
    assumption

namespace Branches

lemma current_add (b : Branches) (e : Expr) : (b.add e).current = b.current.andThen e := rfl

lemma current_foldl_add (b : Branches) (es : List Expr) :
    (es.foldl add b).current = es.foldl Expr.andThen b.current := by
  induction es generalizing b with
  | nil => rfl
  | cons e es ih => rw [List.foldl_cons, List.foldl_cons, ih, current_add]

lemma before_foldl_add (b : Branches) (es : List Expr) : (es.foldl add b).before = b.before := by
  induction es generalizing b with
  | nil => rfl
  | cons e es ih => rw [List.foldl_cons, ih]; rfl

lemma expr_foldl_add (es : List Expr) : (es.foldl add .none).expr = .sequence es := by
  have hb : (es.foldl add .none).before = .none := before_foldl_add _ es
  rw [expr, hb]
  exact current_foldl_add _ es

end Branches

namespace Progress

def addAll (p : Progress) (es : List Expr) : Progress :=
  { p with inside := es.foldl Branches.add p.inside }

lemma addAll_addAll (p : Progress) (es es' : List Expr) :
    (p.addAll es).addAll es' = p.addAll (es ++ es') := by
  simp [addAll, List.foldl_append]

@[simp] lemma names_addAll (p : Progress) (es : List Expr) : (p.addAll es).names = p.names := rfl

variable {p q : Progress} {c : Char} {s rest : List Char} {x : Lexeme}

lemma readAll_nil (p : Progress) : p.readAll [] = .ok p := by
  rw [readAll]

lemma readAll_step (h : readLexeme p.flags c s = .ok (x, rest)) (hx : p.push x = .ok q) :
    p.readAll (c :: s) = q.readAll (q.flags.skip rest) := by
  rw [readAll]
  split
  · rename_i e
    rw [h] at e
    cases e
  · rename_i e
    rw [h] at e
    cases e
    simp only [hx]

lemma readAll_cons (h : readLexeme p.flags c s = .ok (x, rest)) (hx : p.push x = .ok q)
    (hq : q.flags.verbose = false) : p.readAll (c :: s) = q.readAll rest := by
  rw [readAll_step h hx, Flags.skip_of_not_verbose hq]

lemma readAll_item {e : Expr} (hp : p.flags.verbose = false)
    (h : readLexeme p.flags c s = .ok (.item e, rest)) :
    p.readAll (c :: s) = (p.addAll [e]).readAll rest :=
  readAll_cons h rfl hp

end Progress

/-! ### Literal text -/

lemma readLexeme_of_not_meta {c : Char} (h : isMeta c = false) (f : Flags) (s : List Char) :
    readLexeme f c s = .ok (.item (f.literal c), s) := by
  unfold readLexeme
  split <;> first
    | rfl
    | exact absurd h (by decide)

lemma readLexeme_of_meta {c : Char} (h : isMeta c = true) (f : Flags) (s : List Char) :
    readLexeme f '\\' (c :: s) = .ok (.item (f.literal c), s) := by
  have hall : ("\\.+*?()|[]\x7b\x7d^$#&-~".toList.all fun d => !d.isDigit && isEscapable d) =
      true := by
    decide +kernel
  have hc := List.all_eq_true.mp hall c (List.contains_iff_mem.mp h)
  rw [Bool.and_eq_true, Bool.not_eq_true'] at hc
  simp [readLexeme, readEscape, hc, Read.refine, Atom.expr]

/-! ### Bracketed classes -/

section Bracketed

variable {f : Flags} {outer : List Bracket} {b : Bracket} {c : Char} {t rest : List Char}
  {a : CharSet}

lemma readBracket_of_item (h : c ≠ '^' ∧ c ≠ '-' ∧ c ≠ ']') (t : List Char) :
    readBracket {} (c :: t) = readInside {} [] ⟨false, none, .empty⟩ (c :: t) := by
  have hopen : openBracket {} (c :: t) = (⟨false, none, .empty⟩, c :: t) := by
    simp [openBracket, skipNegation, readHyphens, readFirstClose, h]
  rw [readBracket, Flags.skip_of_not_verbose rfl, hopen, Flags.skip_of_not_verbose rfl]

lemma readInside_named (h : readNamed? f t = some (a, rest)) :
    readInside f outer b ('[' :: t) = readInside f outer (b.add a) (f.skip rest) := by
  rw [readInside.eq_def]
  simp only [if_true]
  split
  · rename_i e
    rw [h] at e
    cases e
    rfl
  · rename_i e
    rw [h] at e
    cases e

lemma readInside_open (h : readNamed? f t = none) : readInside f outer b ('[' :: t) =
    readInside f (b :: outer) (openBracket f (f.skip t)).1
      (f.skip (openBracket f (f.skip t)).2) := by
  rw [readInside.eq_def]
  simp only [if_true]
  split
  · rename_i e
    rw [h] at e
    cases e
  · rfl

lemma readInside_closeInner (b' : Bracket) : readInside f (b' :: outer) b (']' :: t) =
    readInside f outer (b'.add (b.close f)) (f.skip t) := by
  rw [readInside, if_neg (by decide), if_pos rfl]

lemma readInside_operation (hc : c ≠ '[' ∧ c ≠ ']') {op : SetOp}
    (ho : t.head?.bind (SetOp.ofSigns? c) = some op) :
    readInside f outer b (c :: t) = readInside f outer (b.operate f op) (f.skip t.tail) := by
  rw [readInside.eq_def]
  simp only [hc.1, hc.2, if_false, ho]

lemma readInside_range (hc : c ≠ '[' ∧ c ≠ ']') (ho : t.head?.bind (SetOp.ofSigns? c) = none) :
    readInside f outer b (c :: t) =
      (readRange f (c :: t)).bind fun p => readInside f outer (b.add p.1) (f.skip p.2) := by
  rw [readInside.eq_def]
  simp only [hc.1, hc.2, if_false, ho]
  split
  · rename_i e
    rw [e]
    rfl
  · rename_i e
    rw [e]
    rfl

lemma readInside_item (hc : c ≠ '[' ∧ c ≠ ']') (ho : t.head?.bind (SetOp.ofSigns? c) = none)
    (h : readRange f (c :: t) = .ok (a, rest)) :
    readInside f outer b (c :: t) = readInside f outer (b.add a) (f.skip rest) := by
  rw [readInside_range hc ho, h]
  rfl

lemma readInside_close (b : Bracket) (t : List Char) :
    readInside f [] b (']' :: t) = Read.refine (.ok (b.close f, t)) f.checkText := by
  rw [readInside, if_neg (by decide), if_pos rfl]

end Bracketed

/-! ### Repetitions and groups -/

lemma readGreed_greedy {s : List Char} (h : s.head? ≠ some '?') (min : Nat) (max : Option Nat) :
    readGreed {} min max s = (.repetition min max true, s) := by
  simp [readGreed, h]

/-- What groups can be named. -/
def IsGroupName (name : String) : Prop :=
  ∃ c cs, name = String.ofList (c :: cs) ∧ isNameChar true c = true ∧
    ∀ d ∈ cs, isNameChar false d = true

lemma readName_eq {name : String} (h : IsGroupName name) (rest : List Char) :
    readName (name.toList ++ '>' :: rest) = .ok (name, rest) := by
  obtain ⟨c, cs, rfl, hc, hcs⟩ := h
  have hcut : '>' ∉ c :: cs := by
    rw [List.mem_cons]
    rintro (rfl | h)
    · exact absurd hc (by decide)
    · exact absurd (hcs _ h) (by decide)
  have hall : (isNameChar true c && cs.all (isNameChar false)) = true := by
    rw [hc, List.all_eq_true.mpr hcs]
    rfl
  rw [readName, String.toList_ofList, Text.cutAt?_append hcut]
  simp only [hall, if_true]

namespace Progress

variable {p q : Progress} {rest : List Char}

def openGroup (p : Progress) (name : Option String) : Progress :=
  ⟨p.flags, ⟨p.inside, name, p.flags⟩ :: p.groups, .none, name.toList ++ p.names⟩

def named (p : Progress) (names : List String) : Progress := { p with names := names ++ p.names }

lemma readAll_repetition {c : Char} {min : Nat} {max : Option Nat} {e : Expr}
    (hp : p.flags.verbose = false)
    (h : readLexeme p.flags c rest = .ok (.repetition min max true, rest)) :
    (p.addAll [e]).readAll (c :: rest) = (p.addAll [e.counted min max true]).readAll rest :=
  readAll_cons h rfl hp

lemma readAll_openName {name : String} (hp : p.flags = {}) (hname : IsGroupName name)
    (hnew : name ∉ p.names) :
    p.readAll ("(?P<".toList ++ (name.toList ++ '>' :: rest)) =
      (p.openGroup (some name)).readAll rest := by
  have hread : readLexeme p.flags '(' ("?P<".toList ++ (name.toList ++ '>' :: rest)) =
      .ok (.opening (some name) p.flags, rest) := by
    have hopen : ∀ s, readLexeme {} '(' ("?P<".toList ++ s) =
        (readName s).refine fun n => .ok (.opening (some n) {}) := fun s => rfl
    rw [hp, hopen, readName_eq hname]
    rfl
  refine readAll_cons hread ?_ (by rw [openGroup, hp])
  simp [push, hnew, openGroup]

lemma readAll_open (hp : p.flags = {}) :
    p.readAll ("(?:".toList ++ rest) = (p.openGroup none).readAll rest := by
  refine readAll_cons (x := .opening none p.flags) ?_ rfl (by rw [openGroup, hp])
  rw [hp]
  rfl

lemma readAll_close {b : Branches} {name : Option String} {f : Flags} {gs : List OpenGroup}
    (hq : q.groups = ⟨b, name, f⟩ :: gs) (hf : f.verbose = false) :
    q.readAll (')' :: rest) =
      (Progress.mk f gs (b.add (closeGroup name q.inside.expr)) q.names).readAll rest :=
  readAll_cons rfl (by rw [push, hq]) hf

end Progress

end Signpost.Regex
