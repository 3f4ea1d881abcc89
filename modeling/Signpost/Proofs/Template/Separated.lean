import Signpost.Proofs.Template.Compile
import Signpost.Proofs.Template.Cut
import Signpost.Proofs.Text.Slice

/-!
Cuts along separated parameters. Where a slash stands between any two parameters, and a text has no
more slashes than the literal text of the template, no parameter can take a slash; so the slashes of
the text are those of the template, and there is only one way to cut the text.
-/

namespace Signpost

namespace Marker

lemma slash_not_mem {m : Marker} {v : List Char} (h : m.Admits v) (hm : m ≠ wildcard) :
    '/' ∉ v := by
  intro hv
  have := h.2 '/' hv
  cases m with
  | generic => revert this; decide
  | numeric => revert this; decide
  | wildcard => exact hm rfl

end Marker

namespace Piece

/-- The literal text in front of the first parameter. -/
def lead : List Piece → List Char
  | literal s :: ps => s ++ lead ps
  | _ => []

/-- A slash stands between each parameter and the next one. -/
def Separated : List Piece → Prop
  | [] => True
  | literal _ :: ps => Separated ps
  | _ :: ps => (tokens ps = [] ∨ '/' ∈ lead ps) ∧ Separated ps

instance decidableSeparated : DecidablePred Separated
  | [] => .isTrue trivial
  | literal _ :: ps => decidableSeparated ps
  | required _ :: ps =>
    @instDecidableAnd _ _ inferInstance (decidableSeparated ps)
  | optional _ :: ps =>
    @instDecidableAnd _ _ inferInstance (decidableSeparated ps)

def literalText (ps : List Piece) : List Char :=
  ps.flatMap fun
    | literal s => s
    | _ => []

def taken (vs : Cut) : List Char := vs.flatMap (·.getD [])

variable {ps : List Piece} {vs ws : Cut} {s : List Char}

lemma count_slash (h : Cuts ps vs s) (hgroups : groups ps = []) :
    s.count '/' = (literalText ps).count '/' + (taken vs).count '/' := by
  induction h with
  | nil => rfl
  | @literal ps vs s t h ih =>
    have hlit : literalText (literal t :: ps) = t ++ literalText ps := rfl
    rw [hlit, List.count_append, List.count_append, ih hgroups]
    omega
  | @required ps vs s t v hv h ih =>
    have htaken : taken (some v :: vs) = v ++ taken vs := rfl
    have hlit : literalText (required t :: ps) = literalText ps := rfl
    rw [hlit, htaken, List.count_append, List.count_append, ih hgroups]
    omega
  | present hv h ih => cases hgroups
  | absent h ih => cases hgroups

lemma lead_prefix (h : Cuts ps vs s) (hgroups : groups ps = []) : lead ps <+: s := by
  induction h with
  | nil => exact List.prefix_refl []
  | @literal ps vs s t h ih => exact (List.prefix_append_right_inj t).mpr (ih hgroups)
  | required hv h ih => exact List.nil_prefix
  | present hv h ih => cases hgroups
  | absent h ih => cases hgroups

lemma eq_lead_of_cuts (h : Cuts ps vs s) (htokens : tokens ps = []) : s = lead ps := by
  induction h with
  | nil => rfl
  | @literal ps vs s t h ih => exact congrArg (t ++ ·) (ih htokens)
  | required hv h ih => cases htokens
  | present hv h ih => cases htokens
  | absent h ih => cases htokens

/-- In front of a text with a slash, what has no slash is found up to the slash. -/
lemma append_cancel_of_slash {v w x r r' : List Char} (hv : '/' ∉ v) (hw : '/' ∉ w)
    (hx : '/' ∈ x) (h : v ++ (x ++ r) = w ++ (x ++ r')) : v = w := by
  obtain ⟨a, b, rfl, ha⟩ := List.eq_append_cons_of_mem hx
  have hcut : ∀ {v}, '/' ∉ v → ∀ r, Text.cutAt? '/' (v ++ ((a ++ '/' :: b) ++ r)) =
      some (v ++ a, b ++ r) := by
    intro v hv r
    have hva : '/' ∉ v ++ a := by simp [hv, ha]
    simpa using Text.cutAt?_append hva (b ++ r)
  have := hcut hv r
  rw [h, hcut hw r', Option.some.injEq, Prod.mk.injEq] at this
  exact (List.append_cancel_right this.1).symm

/-- **Only one cut** takes no slash. -/
theorem cut_unique (h : Cuts ps vs s) (h' : Cuts ps ws s) (hgroups : groups ps = [])
    (hsep : Separated ps) (hv : '/' ∉ taken vs) (hw : '/' ∉ taken ws) : vs = ws := by
  induction h generalizing ws with
  | nil =>
    cases h'
    rfl
  | @literal ps vs s t h ih =>
    generalize hx : t ++ s = x at h'
    cases h' with
    | literal t h' =>
      rw [List.append_cancel_left hx] at ih
      exact ih h' hgroups hsep hv hw
  | @required ps vs s t v hadmits h ih =>
    generalize hx : v ++ s = x at h'
    cases h' with
    | @required _ ws s' _ w _ h' =>
      have hv' : '/' ∉ v ∧ '/' ∉ taken vs := by simpa [taken] using hv
      have hw' : '/' ∉ w ∧ '/' ∉ taken ws := by simpa [taken] using hw
      -- either the rest is literal to the end, or the literal text behind has a slash
      have hvw : v = w := by
        rcases hsep.1 with hlast | hslash
        · rw [eq_lead_of_cuts h hlast, eq_lead_of_cuts h' hlast] at hx
          exact List.append_cancel_right hx
        · obtain ⟨r, rfl⟩ := lead_prefix h hgroups
          obtain ⟨r', rfl⟩ := lead_prefix h' hgroups
          exact append_cancel_of_slash hv'.1 hw'.1 hslash hx
      subst hvw
      rw [List.append_cancel_left hx] at ih
      rw [ih h' hgroups hsep.2 hv'.2 hw'.2]
  | present hv h ih => cases hgroups
  | absent h ih => cases hgroups

/-- If one cut takes no slash, it is the only one. -/
theorem cut_eq_of_taken (h : Cuts ps vs s) (h' : Cuts ps ws s) (hgroups : groups ps = [])
    (hsep : Separated ps) (hw : '/' ∉ taken ws) : vs = ws := by
  refine cut_unique h h' hgroups hsep ?_ hw
  have hcount := count_slash h hgroups
  rw [count_slash h' hgroups, List.count_eq_zero.mpr hw] at hcount
  exact List.count_eq_zero.mp (by omega)

end Piece

end Signpost
