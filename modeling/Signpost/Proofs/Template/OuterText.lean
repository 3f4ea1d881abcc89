import Signpost.Proofs.Template.Compile
import Signpost.Proofs.Template.Cut
import Signpost.Proofs.Text.Ends

/-!
How the text that is written for pieces can begin and end. Groups may be left out, so the text
begins with a slash if the first piece that is written does, and which one this is depends on the
groups before it. Read from behind, the pieces are pieces again, so what is shown of the beginning
is true of the end.
-/

namespace Signpost.Piece

open Text

variable {value : Token → Option (List Char)} {ps : List Piece} {p : Piece} {t : Token}

/-- Whether a text begins with a slash when a text that `rest` tells about stands behind it. -/
def leadsWith (s : List Char) (rest : Bool) : Bool := (firstKept s).elim rest (· == '/')

/-- Whether what is written for the pieces may begin with a slash, backslashes apart. -/
def mayLead : List Piece → Bool
  | [] => false
  | literal s :: ps => leadsWith s (mayLead ps)
  | required _ :: _ => false
  | optional g :: ps => leadsWith g.before false || mayLead ps

/-- A piece whose texts are read from behind. -/
def mirror : Piece → Piece
  | literal s => literal s.reverse
  | required t => required t
  | optional g => optional ⟨g.after.reverse, g.token, g.before.reverse⟩

/-- Whether what is written for the pieces may end with a slash, backslashes apart. -/
def mayTrail (ps : List Piece) : Bool := mayLead (ps.reverse.map mirror)

/-! ### The beginning -/

lemma firstKept_append_iff (s t : List Char) :
    firstKept (s ++ t) = some '/' ↔ leadsWith s (firstKept t == some '/') = true := by
  rw [firstKept_append, leadsWith]
  rcases firstKept s with _ | c
  · exact beq_iff_eq.symm
  · simp

lemma leadsWith_mono {s : List Char} {a b : Bool} (hab : a = true → b = true)
    (h : leadsWith s a = true) : leadsWith s b = true := by
  rw [leadsWith] at h ⊢
  rcases hs : firstKept s with _ | c
  · rw [hs] at h
    exact hab h
  · rwa [hs] at h

lemma mayLead_of_shown (hsolid : ∀ t ∈ tokens ps, ∀ v ∈ value t, Solid v)
    (hrequired : ∀ t, required t ∈ ps → (value t).isSome = true)
    (h : firstKept (ps.flatMap (shown value)) = some '/') : mayLead ps = true := by
  induction ps with
  | nil => cases h
  | cons p ps ih =>
    rw [tokens_cons] at hsolid
    have hrest : firstKept (ps.flatMap (shown value)) = some '/' → mayLead ps = true :=
      ih (fun t ht => hsolid t (List.mem_append_right _ ht))
        fun t ht => hrequired t (List.mem_cons_of_mem _ ht)
    rw [List.flatMap_cons] at h
    cases p with
    | literal s =>
      exact leadsWith_mono (fun hb => hrest (beq_iff_eq.mp hb)) ((firstKept_append_iff _ _).mp h)
    | required t =>
      obtain ⟨v, hv⟩ := Option.isSome_iff_exists.mp (hrequired t List.mem_cons_self)
      rw [shown, hv] at h
      exact absurd h ((hsolid t List.mem_cons_self v hv).firstKept_append_ne _)
    | optional g =>
      rw [mayLead, Bool.or_eq_true]
      rcases hv : value g.token with _ | v
      · rw [shown, hv] at h
        exact .inr (hrest h)
      · rw [shown, hv, Option.elim_some, List.append_assoc, List.append_assoc,
          firstKept_append_iff] at h
        refine .inl (leadsWith_mono (fun hb => ?_) h)
        exact absurd (beq_iff_eq.mp hb)
          ((hsolid g.token List.mem_cons_self v hv).firstKept_append_ne _)

/-- Where a slash at the beginning is possible, it is there if one group at most, the right one, is
written out. -/
lemma exists_shown_of_mayLead (hnodup : (tokens ps).Nodup) (h : mayLead ps = true) :
    ∃ given : Option Token, (∀ t ∈ given, t ∈ tokens ps) ∧
      ∀ value : Token → Option (List Char),
        (∀ t ∈ (groups ps).map OptionalGroup.token, (value t).isSome = true ↔ given = some t) →
        firstKept (ps.flatMap (shown value)) = some '/' := by
  induction ps with
  | nil => cases h
  | cons p ps ih =>
    rw [tokens_cons] at hnodup ⊢
    cases p with
    | literal s =>
      by_cases hrest : mayLead ps = true
      · obtain ⟨given, hgiven, hall⟩ := ih hnodup hrest
        refine ⟨given, hgiven, fun value hvalue => ?_⟩
        rw [List.flatMap_cons, shown, firstKept_append_iff]
        exact leadsWith_mono (fun _ => beq_iff_eq.mpr (hall value hvalue)) h
      · refine ⟨none, nofun, fun value _ => ?_⟩
        rw [List.flatMap_cons, shown, firstKept_append_iff]
        exact leadsWith_mono (fun hb => absurd hb hrest) h
    | required t => cases h
    | optional g =>
      rw [mayLead, Bool.or_eq_true] at h
      rcases h with h | h
      · refine ⟨some g.token, fun t ht => ?_, fun value hvalue => ?_⟩
        · cases Option.mem_some.mp ht
          exact List.mem_cons_self
        · have hsome := (hvalue g.token List.mem_cons_self).mpr rfl
          obtain ⟨v, hv⟩ := Option.isSome_iff_exists.mp hsome
          rw [List.flatMap_cons, shown, hv, Option.elim_some, List.append_assoc, List.append_assoc,
            firstKept_append_iff]
          exact leadsWith_mono (fun hb => absurd hb Bool.false_ne_true) h
      · -- the group in front is left out: the one that is written out stands behind it
        have hcons := List.nodup_cons.mp hnodup
        obtain ⟨given, hgiven, hall⟩ := ih hcons.2 h
        refine ⟨given, fun t ht => List.mem_cons_of_mem _ (hgiven t ht), fun value hvalue => ?_⟩
        have hnone : value g.token = none := by
          rw [← Option.not_isSome_iff_eq_none, hvalue g.token List.mem_cons_self]
          exact fun he => hcons.1 (hgiven _ he)
        rw [List.flatMap_cons, shown, hnone]
        exact hall value fun t ht => hvalue t (List.mem_cons_of_mem _ ht)

/-! ### The end -/

lemma token?_mirror (p : Piece) : p.mirror.token? = p.token? := by
  cases p <;> rfl

lemma tokens_mirror (ps : List Piece) : tokens (ps.reverse.map mirror) = (tokens ps).reverse := by
  have hcomp : token? ∘ mirror = token? := funext token?_mirror
  rw [tokens, List.filterMap_map, hcomp, List.filterMap_reverse, tokens]

lemma groups_mirror (ps : List Piece) :
    (groups (ps.reverse.map mirror)).map OptionalGroup.token =
      ((groups ps).map OptionalGroup.token).reverse := by
  have hcomp : (fun p => (group? (mirror p)).map OptionalGroup.token) =
      fun p => (group? p).map OptionalGroup.token := by
    funext p
    cases p <;> rfl
  rw [groups, groups, List.map_filterMap, List.map_filterMap, List.filterMap_map,
    List.filterMap_reverse]
  exact congrArg (fun f => (ps.filterMap f).reverse) hcomp

lemma required_mem_mirror : required t ∈ ps.reverse.map mirror ↔ required t ∈ ps := by
  rw [List.mem_map]
  constructor
  · rintro ⟨p, hp, he⟩
    cases p with
    | literal s => cases he
    | required t' =>
      cases he
      exact List.mem_reverse.mp hp
    | optional g => cases he
  · exact fun h => ⟨required t, List.mem_reverse.mpr h, rfl⟩

lemma shown_mirror (p : Piece) :
    shown (fun t => (value t).map List.reverse) p.mirror = (shown value p).reverse := by
  cases p with
  | literal s => rfl
  | required t => rw [mirror, shown, shown]; rcases value t with _ | v <;> rfl
  | optional g =>
    rw [mirror, shown, shown]
    rcases value g.token with _ | v
    · rfl
    · simp

/-- What is written for the pieces, read from behind, is written for the pieces read from behind. -/
lemma reverse_shown (ps : List Piece) : (ps.flatMap (shown value)).reverse =
    (ps.reverse.map mirror).flatMap (shown fun t => (value t).map List.reverse) := by
  rw [List.reverse_flatMap, List.flatMap_map]
  exact List.flatMap_congr fun p _ => (shown_mirror p).symm

lemma mayTrail_of_shown (hsolid : ∀ t ∈ tokens ps, ∀ v ∈ value t, Solid v)
    (hrequired : ∀ t, required t ∈ ps → (value t).isSome = true)
    (h : firstKept (ps.flatMap (shown value)).reverse = some '/') : mayTrail ps = true := by
  rw [reverse_shown] at h
  refine mayLead_of_shown (fun t ht v hv => ?_) (fun t ht => ?_) h
  · rw [tokens_mirror, List.mem_reverse] at ht
    obtain ⟨u, hu, rfl⟩ := Option.map_eq_some_iff.mp hv
    exact (hsolid t ht u hu).reverse
  · rw [Option.isSome_map]
    exact hrequired t (required_mem_mirror.mp ht)

lemma exists_shown_of_mayTrail (hnodup : (tokens ps).Nodup) (h : mayTrail ps = true) :
    ∃ given : Option Token, (∀ t ∈ given, t ∈ tokens ps) ∧
      ∀ value : Token → Option (List Char),
        (∀ t ∈ (groups ps).map OptionalGroup.token, (value t).isSome = true ↔ given = some t) →
        firstKept (ps.flatMap (shown value)).reverse = some '/' := by
  have hnodup' : (tokens (ps.reverse.map mirror)).Nodup := by
    rw [tokens_mirror]
    exact (List.reverse_perm _).nodup_iff.mpr hnodup
  obtain ⟨given, hgiven, hall⟩ := exists_shown_of_mayLead hnodup' h
  rw [tokens_mirror] at hgiven
  refine ⟨given, fun t ht => List.mem_reverse.mp (hgiven t ht), fun value hvalue => ?_⟩
  rw [reverse_shown]
  refine hall _ fun t ht => ?_
  rw [groups_mirror, List.mem_reverse] at ht
  rw [Option.isSome_map, hvalue t ht]

end Signpost.Piece
