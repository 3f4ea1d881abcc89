import Signpost.Proofs.Route.Built
import Signpost.Proofs.Template.Outline
import Signpost.Route.Path

/-!
Templates without a token. They stand for their own text, whatever brackets and parentheses they
have, with one exception: the check of the parentheses comes before any token is looked for, and
what it counts are pairs of angle brackets.
-/

namespace Signpost

/-- Reading a text passes over all of it exactly if no token occurs in it. -/
lemma scanned_nil_iff {s : List Char} :
    Scanned s [] s ↔ ∀ t : Token, t.Readable → ¬ t.text <:+: s := by
  induction s with
  | nil =>
    refine ⟨fun _ t ht hin => ?_, fun _ => .nil⟩
    simp [Token.text] at hin
  | cons c s ih =>
    constructor
    · rintro (_ | _ | ⟨hc, h⟩) t ht hin
      rcases List.infix_cons_iff.mp hin with hprefix | hin
      · exact hc t ht hprefix
      · exact ih.mp h t ht hin
    · intro h
      exact .skip (fun t ht hprefix => h t ht hprefix.isInfix)
        (ih.mpr fun t ht hin => h t ht (List.infix_cons hin))

namespace Piece

lemma infix_text {p : Piece} {t : Token} (h : p.token? = some t) : t.text <:+: p.text := by
  cases p with
  | literal s => cases h
  | required u =>
    cases h
    exact List.infix_refl _
  | optional g =>
    cases h
    exact ⟨'(' :: g.before, g.after ++ [')'], by simp [text, OptionalGroup.text]⟩

lemma infix_of_mem_tokens {s : List Char} {t : Token} (h : t ∈ tokens (ofTemplate s)) :
    t.text <:+: s := by
  obtain ⟨p, hp, ht⟩ := List.mem_filterMap.mp h
  have hin : p.text <:+: (ofTemplate s).flatMap text :=
    List.infix_of_mem_flatten (List.mem_map_of_mem hp)
  rw [text_ofTemplate] at hin
  exact (infix_text ht).trans hin

end Piece

namespace Grouping

lemma bracket_mem_of_outline (inAngle : Bool) {s : List Char} (h : '<' ∈ outline inAngle s) :
    inAngle = true ∨ '<' ∈ s := by
  induction s generalizing inAngle with
  | nil =>
    rw [outline] at h
    cases h
  | cons c s ih =>
    cases inAngle with
    | true => exact .inl rfl
    | false =>
      right
      rw [outline] at h
      split at h
      · rename_i hc
        rw [hc]
        exact List.mem_cons_self
      · refine List.mem_cons_of_mem c ?_
        split at h
        · rename_i hc hparen
          rw [List.mem_cons] at h
          exact (ih false (h.resolve_left (Ne.symm hc))).resolve_left Bool.false_ne_true
        · exact (ih false h).resolve_left Bool.false_ne_true

lemma not_overfull_of_not_mem {s : List Char} (h : '<' ∉ s) : ¬ Overfull (outline false s) := by
  rintro ⟨a, b, c, heq, -, -, -, hfull⟩
  have hmem : '<' ∈ b := by
    rcases hfull with hcount | hfull
    · exact List.count_pos_iff.mp (by omega)
    · exact hfull.1
  refine h ((bracket_mem_of_outline false ?_).resolve_left Bool.false_ne_true)
  rw [heq]
  simp [hmem]

end Grouping

namespace Template

lemma compile_of_no_token {s : List Char}
    (h : ∀ t : Token, t.Readable → ¬ t.text <:+: Text.trimSlashes s) :
    compile s = if '<' ∉ Text.trimSlashes s then .ok (ofText (Text.trimSlashes s))
      else (Grouping.check (Text.trimSlashes s)).map fun _ => ofText (Text.trimSlashes s) := by
  have htokens : Piece.tokens (Piece.ofTemplate (Text.trimSlashes s)) = [] := by
    refine List.eq_nil_iff_forall_not_mem.mpr fun t ht => ?_
    have hbody := Piece.body_ofTemplate _ t ht
    exact h t ⟨hbody.1, hbody.2⟩ (Piece.infix_of_mem_tokens ht)
  rw [compile]
  simp only [htokens]
  rcases Grouping.check (Text.trimSlashes s) with e | _ <;> rfl

end Template

namespace Route

/-- **A template in which no token occurs stands for its own text**: the route is static, matches
just the paths with this text and is its own URL, unless an outermost pair of parentheses holds
several pairs of angle brackets, or one together with other parentheses. Such a template is
refused. -/
theorem static_of_no_token (name template : String) :
    let text := Text.trimSlashes template.toList
    (∀ t : Token, t.Readable → ¬ t.text <:+: text) →
      (¬ Grouping.Overfull (Grouping.outline false text) → ∃ r, new name template = .ok r ∧
        r.template.isStatic = true ∧ r.template.text = text ∧
        (∀ path, r.isMatch path = true ↔ Text.trimSlashes path.toList = text) ∧
        ∀ params, r.generate params = .ok (String.ofList text)) ∧
      (Grouping.Overfull (Grouping.outline false text) → ∃ fault,
        new name template = .error (.invalidTemplate template fault)) := by
  intro text h
  have hcompile := Template.compile_of_no_token h
  constructor
  · intro hfit
    have hcheck : Grouping.check text = .ok () := by
      rcases hcheck : Grouping.check text with e | _
      · exact absurd ((Grouping.check_eq_error_iff text).mp ⟨e, hcheck⟩) hfit
      · rfl
    rw [hcheck, Except.map, ite_id] at hcompile
    refine ⟨_, new_of_compile name hcompile, rfl, rfl, fun path => ?_, fun params => rfl⟩
    rw [isMatch]
    exact beq_iff_eq.trans eq_comm
  · intro hfull
    obtain ⟨e, he⟩ := (Grouping.check_eq_error_iff text).mpr hfull
    have hmem : '<' ∈ text := by
      by_contra hmem
      exact Grouping.not_overfull_of_not_mem hmem hfull
    rw [if_neg (not_not.mpr hmem), he] at hcompile
    exact ⟨e, by rw [new, hcompile]; rfl⟩

/-- A template with brackets and parentheses in every place but no token. -/
theorem static_of_no_token_stray :
    let template := "/a<b(<c>)(<:>)((d)>/<e"
    let text := Text.trimSlashes template.toList
    (∀ t : Token, t.Readable → ¬ t.text <:+: text) ∧
      ∃ r, new "stray" template = .ok r ∧ r.template.isStatic = true ∧ r.template.text = text ∧
        (∀ path, r.isMatch path = true ↔ Text.trimSlashes path.toList = text) ∧
        ∀ params, r.generate params = .ok (String.ofList text) := by
  intro template text
  have hnone : ∀ t : Token, t.Readable → ¬ t.text <:+: text :=
    scanned_nil_iff.mp (by decide +kernel)
  have hfit : ¬ Grouping.Overfull (Grouping.outline false text) := by
    have hcheck : Grouping.check text = .ok () := by decide
    rw [← Grouping.check_eq_error_iff, hcheck]
    rintro ⟨e, he⟩
    cases he
  exact ⟨hnone, (static_of_no_token "stray" template hnone).1 hfit⟩

/-- Two pairs of angle brackets in parentheses, or one in two pairs of parentheses, are refused even
if neither is a token. -/
theorem no_token_refused :
    (∀ t : Token, t.Readable → ¬ t.text <:+: "(<x><y>)".toList ∧ ¬ t.text <:+: "((<x>))".toList) ∧
      (new "typo" "/(<x><y>)").map name = .error (.invalidTemplate "/(<x><y>)" .crowdedGroup) ∧
      (new "typo" "/((<x>))").map name = .error (.invalidTemplate "/((<x>))" .nestedGroups) := by
  have hall : Scanned "(<x><y>)".toList [] "(<x><y>)".toList ∧
      Scanned "((<x>))".toList [] "((<x>))".toList ∧
      (new "typo" "/(<x><y>)").map name = .error (.invalidTemplate "/(<x><y>)" .crowdedGroup) ∧
      (new "typo" "/((<x>))").map name = .error (.invalidTemplate "/((<x>))" .nestedGroups) := by
    decide +kernel
  obtain ⟨hcrowded, hnested, hnew⟩ := hall
  exact ⟨fun t ht => ⟨scanned_nil_iff.mp hcrowded t ht, scanned_nil_iff.mp hnested t ht⟩, hnew⟩

end Route

end Signpost
