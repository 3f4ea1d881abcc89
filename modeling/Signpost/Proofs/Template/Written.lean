import Signpost.Proofs.Template.Compile
import Signpost.Proofs.Template.Cut
import Signpost.Proofs.Text.Slice

/-!
Values written in the places of tokens. As long as nothing but a token begins like one, the text of
a piece with a token stands at one place only, so putting something in its place changes that piece
and nothing else.
-/

namespace Signpost

/-! ### Texts in which no token begins -/

/-- Whether no token begins in a text, whatever stands behind the text: every `<` in it has a
character behind it, which is no marker's sign. -/
def unmarked : List Char → Bool
  | [] => true
  | [c] => c != '<'
  | c :: d :: s => (c != '<' || (Marker.ofSign? d).isNone) && unmarked (d :: s)

lemma unmarked_cons_of_ne {c : Char} (hc : c ≠ '<') (s : List Char) :
    unmarked (c :: s) = unmarked s := by
  cases s <;> simp [unmarked, hc]

lemma unmarked_of_not_mem {s : List Char} (h : '<' ∉ s) : unmarked s = true := by
  induction s with
  | nil => rfl
  | cons c s ih =>
    rw [List.mem_cons, not_or] at h
    rw [unmarked_cons_of_ne (Ne.symm h.1), ih h.2]

lemma unmarked_append {s t : List Char} (hs : unmarked s = true) (ht : unmarked t = true) :
    unmarked (s ++ t) = true := by
  fun_induction unmarked s with
  | case1 => exact ht
  | case2 c =>
    rw [List.singleton_append, unmarked_cons_of_ne (bne_iff_ne.mp hs), ht]
  | case3 c d s ih =>
    rw [Bool.and_eq_true] at hs
    rw [List.cons_append, List.cons_append, unmarked, hs.1, Bool.true_and]
    exact ih hs.2

lemma exists_eq_append_of_unmarked {s t u v : List Char} {m : Marker} (hs : unmarked s = true)
    (h : s ++ t = u ++ '<' :: m.sign :: v) :
    ∃ w, u = s ++ w ∧ t = w ++ '<' :: m.sign :: v := by
  induction s generalizing u with
  | nil => exact ⟨u, rfl, h⟩
  | cons c s ih =>
    rcases u with _ | ⟨d, u⟩
    · -- the text cannot end behind its `<`, nor go on with the marker
      rw [List.nil_append, List.cons_append, List.cons.injEq] at h
      obtain ⟨rfl, h⟩ := h
      rcases s with _ | ⟨d, s⟩
      · cases hs
      · rw [List.cons_append, List.cons.injEq] at h
        simp [unmarked, h.1] at hs
    · rw [List.cons_append, List.cons_append, List.cons.injEq] at h
      obtain ⟨rfl, h⟩ := h
      have hs' : unmarked s = true := by
        rcases s with _ | ⟨d, s⟩
        · rfl
        · rw [unmarked, Bool.and_eq_true] at hs
          exact hs.2
      obtain ⟨w, rfl, ht⟩ := ih hs' h
      exact ⟨w, rfl, ht⟩

namespace Token

lemma sign_injective {m m' : Marker} (h : m.sign = m'.sign) : m = m' := by
  have := Marker.ofSign?_sign m
  rw [h, Marker.ofSign?_sign] at this
  exact (Option.some.inj this).symm

lemma eq_of_text_prefix {t t' : Token} (ht : '>' ∉ t.body) (ht' : '>' ∉ t'.body)
    {rest : List Char} (h : t.text <+: t'.text ++ rest) : t = t' := by
  obtain ⟨r, hr⟩ := h
  simp only [text, List.cons_append, List.append_assoc, List.nil_append, List.cons.injEq,
    true_and] at hr
  have hbody := Text.cutAt?_append ht r
  rw [hr.2, Text.cutAt?_append ht'] at hbody
  obtain ⟨m, b⟩ := t
  obtain ⟨m', b'⟩ := t'
  cases hbody
  cases sign_injective hr.1
  rfl

end Token

namespace Piece

/-- A piece in which `<` does nothing but begin its token. -/
def Bracketed : Piece → Prop
  | literal s => '<' ∉ s
  | required t => '<' ∉ t.body ∧ '>' ∉ t.body
  | optional g =>
    '<' ∉ g.before ∧ ('<' ∉ g.token.body ∧ '>' ∉ g.token.body) ∧ '<' ∉ g.after

/-- Whether no token begins in a piece, apart from its own: every other `<` has a character behind
it that is no marker's sign. -/
def plain : Piece → Bool
  | literal s => unmarked s
  | required t => unmarked (t.body ++ ['>'])
  | optional g => unmarked g.before && unmarked (g.token.body ++ ['>']) && unmarked g.after

variable {value : Token → List Char} {t : Token} {p : Piece} {ps : List Piece}
  {s u v w x : List Char}

lemma Bracketed.plain (h : p.Bracketed) : p.plain = true := by
  have hbody : ∀ {b : List Char}, '<' ∉ b → unmarked (b ++ ['>']) = true := fun hb =>
    unmarked_append (unmarked_of_not_mem hb) rfl
  cases p with
  | literal s => exact unmarked_of_not_mem h
  | required t => exact hbody h.1
  | optional g =>
    rw [Piece.plain, unmarked_of_not_mem h.1, hbody h.2.1.1, unmarked_of_not_mem h.2.2]
    rfl

lemma text_eq_of_plain (hp : p.plain = true) (ht : p.token? = some t) :
    ∃ u v, p.text = u ++ '<' :: t.marker.sign :: v ∧ unmarked u = true ∧
      unmarked (t.marker.sign :: v) = true ∧ t.text <+: '<' :: t.marker.sign :: v := by
  have hsign : t.marker.sign ≠ '<' := by cases t.marker <;> decide
  cases p with
  | literal s => cases ht
  | required t =>
    cases ht
    refine ⟨[], t.body ++ ['>'], rfl, rfl, ?_, List.prefix_refl _⟩
    rwa [unmarked_cons_of_ne hsign]
  | optional g =>
    cases ht
    rw [plain, Bool.and_eq_true, Bool.and_eq_true] at hp
    obtain ⟨⟨hbefore, hbody⟩, hafter⟩ := hp
    refine ⟨'(' :: g.before, g.token.body ++ ['>'] ++ (g.after ++ [')']), ?_, ?_, ?_, ?_⟩
    · simp [text, OptionalGroup.text, Token.text]
    · rwa [unmarked_cons_of_ne (by decide)]
    · rw [unmarked_cons_of_ne hsign]
      exact unmarked_append hbody (unmarked_append hafter rfl)
    · exact ⟨g.after ++ [')'], by simp [Token.text]⟩

/-- Only where it is the token of a piece does the text of a token stand. -/
lemma mem_tokens_of_text (hps : ∀ p ∈ ps, p.plain = true) (hclose : ∀ k ∈ tokens ps, '>' ∉ k.body)
    (ht : '>' ∉ t.body) (h : ps.flatMap text = u ++ (t.text ++ v)) : t ∈ tokens ps := by
  induction ps generalizing u with
  | nil => simp [Token.text] at h
  | cons p ps ih =>
    rw [List.forall_mem_cons] at hps
    rw [tokens_cons] at hclose
    rw [List.flatMap_cons] at h
    rw [tokens_cons, List.mem_append]
    have hclose' : ∀ k ∈ tokens ps, '>' ∉ k.body := fun k hk =>
      hclose k (List.mem_append_right _ hk)
    rcases hp : p.token? with _ | t'
    · have hplain : unmarked p.text = true := by
        cases p with
        | literal s => exact hps.1
        | required t => cases hp
        | optional g => cases hp
      obtain ⟨u', -, hrest⟩ := exists_eq_append_of_unmarked hplain h
      exact .inr (ih hps.2 hclose' hrest)
    · obtain ⟨a, b, htext, ha, hb, hprefix⟩ := text_eq_of_plain hps.1 hp
      rw [htext, List.append_assoc] at h
      obtain ⟨u', -, hrest⟩ := exists_eq_append_of_unmarked ha h
      rcases u' with _ | ⟨c, u'⟩
      · -- both tokens begin at the same place
        obtain ⟨r, hr⟩ := hprefix
        have hsame : t.text <+: t'.text ++ (r ++ ps.flatMap text) :=
          ⟨v, by rw [← List.append_assoc, hr]; exact hrest.symm⟩
        have hmem : t' ∈ p.token?.toList ++ tokens ps := by simp [hp]
        exact .inl (by simp [Token.eq_of_text_prefix ht (hclose t' hmem) hsame])
      · obtain ⟨u'', -, hlater⟩ := exists_eq_append_of_unmarked hb (List.cons.inj hrest).2
        exact .inr (ih hps.2 hclose' hlater)

/-- Putting something in the place of a piece with a token changes that piece only. -/
theorem replaceAll_text (hx : unmarked x = true) (hps : ∀ q ∈ p :: ps, q.plain = true)
    (hclose : ∀ k ∈ tokens (p :: ps), '>' ∉ k.body) (ht : p.token? = some t) (hnot : t ∉ tokens ps)
    (new : List Char) :
    Text.replaceAll p.text new (x ++ (p.text ++ ps.flatMap text)) =
      x ++ (new ++ ps.flatMap text) := by
  rw [List.forall_mem_cons] at hps
  rw [tokens_cons, ht, Option.toList_some, List.singleton_append, List.forall_mem_cons] at hclose
  obtain ⟨a, b, htext, ha, hb, ⟨r, hr⟩⟩ := text_eq_of_plain hps.1 ht
  refine Text.replaceAll_of_unique (by simp [htext]) fun u v h => ?_
  rw [htext, List.append_assoc, List.append_assoc, ← List.append_assoc, ← List.append_assoc u] at h
  obtain ⟨w, hw, hrest⟩ := exists_eq_append_of_unmarked (unmarked_append hx ha) h
  rcases w with _ | ⟨c, w⟩
  · rw [List.append_nil] at hw
    exact List.append_cancel_right hw
  · -- another occurrence would have the token's text behind the piece
    obtain ⟨w', -, hlater⟩ := exists_eq_append_of_unmarked hb (List.cons.inj hrest).2
    refine absurd (@mem_tokens_of_text t ps w' (r ++ v) hps.2 hclose.2 hclose.1 ?_) hnot
    rw [hlater, ← List.append_assoc t.text, hr]
    rfl

/-- The text of a piece with the value of its token written in. -/
def written (value : Token → List Char) : Piece → List Char
  | literal s => s
  | required t => value t
  | optional g => g.before ++ value g.token ++ g.after

lemma cuts_written (h : ∀ t ∈ tokens ps, t.marker.Admits (value t)) :
    Cuts ps ((tokens ps).map fun t => some (value t)) (ps.flatMap (written value)) := by
  induction ps with
  | nil => exact .nil
  | cons p ps ih =>
    rw [tokens_cons] at h
    have ih' := ih fun t ht => h t (List.mem_append_right _ ht)
    cases p with
    | literal s => exact .literal s ih'
    | required t => exact .required (h t List.mem_cons_self) ih'
    | optional g =>
      have := Cuts.present (g := g) (h g.token List.mem_cons_self) ih'
      simpa [written] using this

lemma trimSlashes_written (hps : groups ps = [])
    (hvalue : ∀ t ∈ tokens ps, value t ≠ [] ∧ '/' ∉ value t) {s : List Char}
    (htext : ps.flatMap text = Text.trimSlashes s) :
    Text.trimSlashes (ps.flatMap (written value)) = ps.flatMap (written value) := by
  have hpiece : ∀ p ∈ ps, written value p = text p ∨
      written value p ≠ [] ∧ '/' ∉ written value p :=
    forall_of_groups_eq_nil hps (fun _ => .inl rfl) fun t ht => .inr (hvalue t ht)
  have hfirst := Text.head?_trimSlashes s
  have hlast := Text.head?_reverse_trimSlashes s
  rw [← htext] at hfirst hlast
  refine Text.trimSlashes_eq_self (Text.head?_flatMap_ne (fun p hp => ?_) hfirst) ?_
  · exact (hpiece p hp).imp_right fun h => ⟨h.1, fun e => h.2 (List.mem_of_head? e)⟩
  · rw [List.reverse_flatMap] at hlast ⊢
    refine Text.head?_flatMap_ne (fun p hp => ?_) hlast
    rcases hpiece p (List.mem_reverse.mp hp) with he | ⟨hne, hslash⟩
    · exact .inl (congrArg List.reverse he)
    · refine .inr ⟨by simpa using hne, fun e => hslash ?_⟩
      exact List.mem_reverse.mp (List.mem_of_head? e)

/-! ### Templates in which `<` only begins tokens -/

lemma length_token?_le_count (p : Piece) : p.token?.toList.length ≤ p.text.count '<' := by
  rcases h : p.token? with _ | t
  · exact Nat.zero_le _
  · exact List.count_pos_iff.mpr (bracket_mem_text h)

lemma length_tokens_le_count (ps : List Piece) :
    (tokens ps).length ≤ (ps.flatMap text).count '<' := by
  induction ps with
  | nil => exact Nat.le_refl 0
  | cons p ps ih =>
    have := length_token?_le_count p
    rw [List.flatMap_cons, List.count_append, tokens_cons, List.length_append]
    omega

lemma bracketed_of_count {p : Piece} (hclose : ∀ t ∈ p.token?, '>' ∉ t.body)
    (h : p.text.count '<' = p.token?.toList.length) : p.Bracketed := by
  have hsign : ∀ m : Marker, m.sign ≠ '<' := fun m => by cases m <;> decide
  cases p with
  | literal s => exact List.count_eq_zero.mp h
  | required t =>
    refine ⟨List.count_eq_zero.mp ?_, hclose _ rfl⟩
    simpa [text, Token.text, token?, List.count_cons, hsign] using h
  | optional g =>
    have hzero : g.before.count '<' = 0 ∧ g.token.body.count '<' = 0 ∧ g.after.count '<' = 0 := by
      simp [text, OptionalGroup.text, Token.text, token?, hsign] at h
      omega
    exact ⟨List.count_eq_zero.mp hzero.1, ⟨List.count_eq_zero.mp hzero.2.1, hclose _ rfl⟩,
      List.count_eq_zero.mp hzero.2.2⟩

lemma bracketed_of_mem (hclose : ∀ t ∈ tokens ps, '>' ∉ t.body)
    (h : (ps.flatMap text).count '<' = (tokens ps).length) : ∀ p ∈ ps, p.Bracketed := by
  induction ps with
  | nil => nofun
  | cons p ps ih =>
    have hp := length_token?_le_count p
    have hps := length_tokens_le_count ps
    rw [List.flatMap_cons, List.count_append, tokens_cons, List.length_append] at h
    rw [tokens_cons] at hclose
    rw [List.forall_mem_cons]
    refine ⟨bracketed_of_count (fun t ht => hclose t ?_) (by omega),
      ih (fun t ht => hclose t (List.mem_append_right _ ht)) (by omega)⟩
    exact List.mem_append_left _ (Option.mem_toList.mpr ht)

end Piece

/-- If there are no more `<` than parameters, each `<` begins a token. -/
lemma Template.WellFormed.bracketed {t : Template} (h : t.WellFormed)
    (hcount : t.text.count '<' = t.tokens.length) : ∀ p ∈ t.pieces, p.Bracketed :=
  Piece.bracketed_of_mem h.close_not_mem (h.text_eq.symm ▸ hcount)

end Signpost
