import Signpost.Proofs.Template.Written

/-!
The tokens of a text, read from left to right whatever parentheses there are.
-/

namespace Signpost

/-- Tokens as they can be read: the body is not empty and goes up to the first `>`. -/
structure Token.Readable (t : Token) : Prop where
  body_ne_nil : t.body ≠ []
  close : '>' ∉ t.body

lemma Token.readable_of_read? {s rest : List Char} {t : Token} (h : read? s = some (t, rest)) :
    t.Readable :=
  ⟨(read?_eq_some h).2.1, (read?_eq_some h).2.2⟩

lemma Token.Readable.read?_text {t : Token} (h : t.Readable) (rest : List Char) :
    read? (t.text ++ rest) = some (t, rest) := by
  obtain ⟨m, body⟩ := t
  obtain ⟨hne, hclose⟩ := h
  rcases body with _ | ⟨b, body⟩
  · exact absurd rfl hne
  · have hall : ∀ c ∈ b :: body, (c != '>') = true := fun c hc => by
      rw [bne_iff_ne]
      rintro rfl
      exact hclose hc
    have htake : (b :: body ++ '>' :: rest).takeWhile (· != '>') = b :: body := by
      rw [List.takeWhile_append_of_pos hall]
      simp
    have hdrop : (b :: body ++ '>' :: rest).dropWhile (· != '>') = '>' :: rest := by
      rw [List.dropWhile_append_of_pos hall]
      simp
    have htext : Token.text ⟨m, b :: body⟩ ++ rest =
        '<' :: m.sign :: (b :: body ++ '>' :: rest) := by
      simp [text]
    rw [htext, read?, Marker.ofSign?_sign, htake, hdrop]

/-- Read from left to right, the text `s` has the tokens `ts`, and `u` is the text outside of
them: wherever a token can be read it is read, and the reading goes on behind it. -/
inductive Scanned : List Char → List Token → List Char → Prop
  | nil : Scanned [] [] []
  | token {s ts u} {t : Token} (ht : t.Readable) (h : Scanned s ts u) :
    Scanned (t.text ++ s) (t :: ts) u
  | skip {s ts u} {c : Char} (hc : ∀ t : Token, t.Readable → ¬ t.text <+: c :: s)
    (h : Scanned s ts u) : Scanned (c :: s) ts (c :: u)

namespace Piece

variable {s : List Char} {t : Token}

lemma splitTokens_cons {c : Char} (h : Token.read? (c :: s) = none) :
    splitTokens (c :: s) = (c :: (splitTokens s).1, (splitTokens s).2) := by
  rw [splitTokens]
  split
  · rename_i h'
    rw [h] at h'
    cases h'
  · rfl

lemma splitTokens_text (ht : t.Readable) (rest : List Char) :
    splitTokens (t.text ++ rest) =
      ([], (t, (splitTokens rest).1) :: (splitTokens rest).2) := by
  have h := ht.read?_text rest
  rw [Token.text, List.cons_append] at h ⊢
  rw [splitTokens]
  split
  · rename_i h'
    rw [h] at h'
    cases h'
    rfl
  · rename_i h'
    rw [h] at h'
    cases h'

end Piece

/-- Every text can be read, and in one way only. -/
theorem scanned_iff {s u : List Char} {ts : List Token} :
    Scanned s ts u ↔ (Piece.splitTokens s).2.map Prod.fst = ts ∧
      (Piece.splitTokens s).1 ++ (Piece.splitTokens s).2.flatMap Prod.snd = u := by
  constructor
  · intro h
    induction h with
    | nil => simp [Piece.splitTokens]
    | token ht _ ih =>
      rw [Piece.splitTokens_text ht]
      exact ⟨congrArg _ ih.1, ih.2⟩
    | @skip s ts u c hc _ ih =>
      have hnone : Token.read? (c :: s) = none := by
        rcases h : Token.read? (c :: s) with _ | ⟨t, rest⟩
        · rfl
        · exact absurd ⟨rest, (Token.read?_eq_some h).1.symm⟩ (hc t (Token.readable_of_read? h))
      rw [Piece.splitTokens_cons hnone]
      exact ⟨ih.1, congrArg _ ih.2⟩
  · rintro ⟨rfl, rfl⟩
    fun_induction Piece.splitTokens s with
    | case1 => exact .nil
    | case2 c s t rest h h₁ ih =>
      rw [(Token.read?_eq_some h).1]
      exact .token (Token.readable_of_read? h) ih
    | case3 c s h ih =>
      refine .skip (fun t ht hprefix => ?_) ih
      obtain ⟨rest, hrest⟩ := hprefix
      have := ht.read?_text rest
      rw [hrest, h] at this
      cases this

instance (s : List Char) (ts : List Token) (u : List Char) : Decidable (Scanned s ts u) :=
  decidable_of_iff _ scanned_iff.symm

namespace Scanned

variable {s u v : List Char} {ts : List Token} {t : Token}

lemma of_append (hv : '<' ∉ v) (h : Scanned (v ++ s) ts u) :
    ∃ u', u = v ++ u' ∧ Scanned s ts u' := by
  induction v generalizing u with
  | nil => exact ⟨u, rfl, h⟩
  | cons c v ih =>
    rw [List.mem_cons, not_or] at hv
    generalize hx : c :: v ++ s = x at h
    cases h with
    | nil => cases hx
    | token ht h =>
      rw [Token.text, List.cons_append, List.cons_append, List.cons.injEq] at hx
      exact absurd hx.1.symm hv.1
    | skip hc h =>
      rw [List.cons_append, List.cons.injEq] at hx
      obtain ⟨rfl, rfl⟩ := hx
      obtain ⟨u', rfl, h'⟩ := ih hv.2 h
      exact ⟨u', rfl, h'⟩

lemma of_token (ht : t.Readable) (h : Scanned (t.text ++ s) ts u) :
    ∃ ts', ts = t :: ts' ∧ Scanned s ts' u := by
  generalize hx : t.text ++ s = x at h
  cases h with
  | nil => simp [Token.text] at hx
  | @token s' ts' _ t' ht' h =>
    have heq : t = t' := Token.eq_of_text_prefix ht.close ht'.close ⟨s, hx⟩
    subst heq
    rw [List.append_cancel_left hx]
    exact ⟨ts', rfl, h⟩
  | skip hc h => exact absurd ⟨s, hx⟩ (hc t ht)

lemma of_bracket (hu : '<' ∉ u) (h : Scanned ('<' :: s) ts u) :
    ∃ t rest ts', t.Readable ∧ '<' :: s = t.text ++ rest ∧ ts = t :: ts' ∧ Scanned rest ts' u := by
  generalize hx : '<' :: s = x at h
  cases h with
  | nil => cases hx
  | @token rest ts' _ t ht h => exact ⟨t, rest, ts', ht, rfl, rfl, h⟩
  | skip hc h =>
    rw [List.cons.injEq] at hx
    exact absurd (hx.1 ▸ List.mem_cons_self) hu

end Scanned

end Signpost
