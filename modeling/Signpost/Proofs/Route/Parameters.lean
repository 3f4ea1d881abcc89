import Mathlib.Data.Nat.Init
import Signpost.Proofs.Route.Built
import Signpost.Proofs.Template.Grouping

/-!
The parameters of a route are the tokens of its template. Groups are looked for before tokens, so a
group could take a token behind its own for text, or begin inside of a token. In a tidy template
neither happens: each group has just its own token, because otherwise the check of the parentheses
refuses the template. In templates that are not tidy the check can be evaded, and then tokens are
lost.
-/

namespace Signpost

/-! ### Groups -/

/-- Groups as they can be read. The text behind the token may have a token in it. -/
structure OptionalGroup.Readable (q : OptionalGroup) : Prop where
  before : ∀ c ∈ q.before, c ≠ '<' ∧ c ≠ '(' ∧ c ≠ ')'
  token : q.token.Readable
  after : ∀ c ∈ q.after, c ≠ '(' ∧ c ≠ ')'

lemma OptionalGroup.readable_of_read? {s rest : List Char} {q : OptionalGroup}
    (h : read? s = some (q, rest)) : q.Readable := by
  unfold read? at h
  split at h
  · split at h
    · rename_i ht
      split at h
      · cases h
        refine ⟨fun c hc => ?_, Token.readable_of_read? ht, fun c hc => ?_⟩
        · simpa [and_assoc] using List.all_eq_true.mp List.all_takeWhile c hc
        · simpa using List.all_eq_true.mp List.all_takeWhile c hc
      · cases h
    · cases h
  · cases h

lemma OptionalGroup.text_append (q : OptionalGroup) (w : List Char) :
    q.text ++ w = ('(' :: q.before) ++ (q.token.text ++ (q.after ++ ')' :: w)) := by
  simp [text]

/-- A template is tidy if, where its tokens are `ts` and the text outside of them is `u`, no `<`
stands outside of tokens, each parenthesis that opens outside of tokens closes there, and one that
opens inside a token closes in the same token, with no `<` in it. -/
structure Tidy (ts : List Token) (u : List Char) : Prop where
  bracket : '<' ∉ u
  closed : Text.openAfter 0 u = 0
  tokens : ∀ t ∈ ts, '(' ∈ t.body → '<' ∉ t.body ∧ Text.openAfter 0 t.body = 0

variable {s u v w : List Char} {ts : List Token} {t : Token} {q : OptionalGroup}

lemma Token.body_of_text {x : List Char} (h : t.text = v ++ '(' :: x) :
    ∃ b b', t.body = b ++ '(' :: b' ∧ x = b' ++ ['>'] := by
  have hstart : '(' ∉ ['<', t.marker.sign] := by cases t.marker <;> decide
  obtain ⟨b, -, hb⟩ := Text.exists_eq_append (t := t.body ++ ['>']) hstart h
  rcases List.append_eq_append_iff.mp hb with ⟨y, -, hy⟩ | ⟨y, hbody, hy⟩
  · rcases y with _ | ⟨c, y⟩ <;> simp at hy
  · rcases y with _ | ⟨c, b'⟩
    · simp at hy
    · rw [List.cons_append, List.cons.injEq] at hy
      obtain ⟨rfl, rfl⟩ := hy
      exact ⟨b, b', hbody, rfl⟩

lemma exists_append_of_group (ht : '(' ∈ t.body → '<' ∉ t.body ∧ Text.openAfter 0 t.body = 0)
    (hq : q.Readable) (h : t.text ++ s = v ++ (q.text ++ w)) : ∃ v', v = t.text ++ v' := by
  rcases List.append_eq_append_iff.mp h with ⟨v', rfl, -⟩ | ⟨x, htext, hx⟩
  · exact ⟨v', rfl⟩
  · rcases x with _ | ⟨c, x⟩
    · exact ⟨[], by simpa using htext.symm⟩
    · rw [q.text_append, List.cons_append, List.cons_append, List.cons.injEq] at hx
      obtain ⟨rfl, hx⟩ := hx
      obtain ⟨b, b', hbody, rfl⟩ := Token.body_of_text htext
      obtain ⟨hlt, hclosed⟩ := ht (by simp [hbody])
      have hmem : ')' ∈ b' := by
        by_contra hnot
        have hcons : Text.openAfter 0 (b ++ '(' :: b') =
            Text.openAfter (Text.openAfter 0 b + 1) b' := Text.openAfter_append 0 b ('(' :: b')
        have : 0 < Text.openAfter (Text.openAfter 0 b + 1) b' :=
          Text.openAfter_pos (by omega) hnot
        rw [hbody, hcons] at hclosed
        omega
      -- the parenthesis is closed in front of the first `<`, which is that of the group's token
      have hlt' : '<' ∉ b' := fun hm => hlt (by simp [hbody, hm])
      rw [List.append_assoc] at hx
      obtain ⟨y, hy, -⟩ := Text.exists_eq_append hlt' hx.symm
      exact absurd rfl (hq.before ')' (by simp [hy, hmem])).2.2

lemma read?_inside_token {x : List Char}
    (ht : '(' ∈ t.body → '<' ∉ t.body ∧ Text.openAfter 0 t.body = 0) (hx : t.text = v ++ x)
    (hne : x ≠ []) : OptionalGroup.read? (x ++ s) = none := by
  by_contra hsome
  obtain ⟨⟨q, w⟩, hq⟩ := Option.ne_none_iff_exists'.mp hsome
  have htext : t.text ++ s = v ++ (q.text ++ w) := by
    rw [hx, List.append_assoc, OptionalGroup.eq_of_read? hq]
  obtain ⟨v', rfl⟩ := exists_append_of_group ht (OptionalGroup.readable_of_read? hq) htext
  have hlen := congrArg List.length hx
  have hpos := List.length_pos_iff.mpr hne
  simp only [List.length_append] at hlen
  omega

lemma Scanned.of_group (hscan : Scanned (q.text ++ w) ts u) (hq : q.Readable)
    (hafter : '<' ∉ q.after) :
    ∃ ts' u', ts = q.token :: ts' ∧ u = '(' :: q.before ++ (q.after ++ [')'] ++ u') ∧
      Scanned w ts' u' := by
  have hbefore : '<' ∉ '(' :: q.before := by
    simpa using fun hm => (hq.before '<' hm).1 rfl
  have hafter' : '<' ∉ q.after ++ [')'] := by simpa using hafter
  rw [OptionalGroup.text_append, List.append_cons] at hscan
  obtain ⟨u₁, rfl, hscan₁⟩ := hscan.of_append hbefore
  obtain ⟨ts', rfl, hscan₂⟩ := hscan₁.of_token hq.token
  obtain ⟨u₂, rfl, hscan₃⟩ := hscan₂.of_append hafter'
  exact ⟨ts', u₂, rfl, rfl, hscan₃⟩

/-! ### Groups and the check -/

/-- If the check passes and all parentheses are closed, a group at the beginning of the text has no
token but its own. -/
lemma not_mem_after_of_run {g g' : Grouping} (hscan : Scanned (q.text ++ w) ts u) (hu : '<' ∉ u)
    (hin : g.inToken = false) (hrun : g.run (q.text ++ w) = .ok g') (hd : g'.depth = 0)
    (hq : q.Readable) : '<' ∉ q.after := by
  intro hlt
  obtain ⟨a, b, hab, ha⟩ := List.eq_append_cons_of_mem hlt
  have htext : q.text ++ w =
      ('(' :: q.before) ++ (q.token.text ++ (a ++ '<' :: (b ++ ')' :: w))) := by
    rw [OptionalGroup.text_append, hab]
    simp
  have hbefore : '<' ∉ '(' :: q.before := by
    simpa using fun hm => (hq.before '<' hm).1 rfl
  have ha' : ∀ c ∈ a, c ≠ '<' ∧ c ≠ '(' ∧ c ≠ ')' := fun c hc =>
    ⟨fun e => ha (e ▸ hc), hq.after c (by simp [hab, hc])⟩
  rw [htext] at hscan hrun
  -- a second token begins where `a` ends
  obtain ⟨u₁, rfl, hscan₁⟩ := hscan.of_append hbefore
  obtain ⟨ts', rfl, hscan₂⟩ := hscan₁.of_token hq.token
  obtain ⟨u₂, rfl, hscan₃⟩ := hscan₂.of_append ha
  obtain ⟨t, rest, ts'', ht, hrest, -, -⟩ := hscan₃.of_bracket fun hm => hu (by simp [hm])
  rw [hrest, List.cons_append] at hrun
  obtain ⟨g₁, hopen, hrun⟩ := Grouping.run_cons hrun
  obtain ⟨hin₁, hdepth⟩ := Grouping.step_outside hin (by decide) hopen
  rw [if_pos rfl] at hdepth
  have hin₂ : g₁.behindToken.inToken = false := hin₁
  rw [Grouping.run_plain hin₁ hq.before, Grouping.run_token hin₁ hq.token,
    Grouping.run_plain hin₂ ha', Grouping.run_token hin₂ ht] at hrun
  have hpos : 0 < g₁.depth := by omega
  have hpos₂ : 0 < g₁.behindToken.depth := hpos
  have htwo : 1 < g₁.behindToken.behindToken.tokens := by
    rw [Grouping.tokens_behindToken hpos₂, Grouping.tokens_behindToken hpos]
    omega
  have := Grouping.run_crowded (g := g₁.behindToken.behindToken) hpos htwo hrun
  omega

lemma not_mem_after {g g' : Grouping} (hscan : Scanned s ts u) (hu : '<' ∉ u)
    (hts : ∀ t ∈ ts, '(' ∈ t.body → '<' ∉ t.body ∧ Text.openAfter 0 t.body = 0)
    (hin : g.inToken = false) (hrun : g.run s = .ok g') (hd : g'.depth = 0)
    (h : s = v ++ (q.text ++ w)) (hq : q.Readable) : '<' ∉ q.after := by
  induction hscan generalizing g v with
  | nil => simp [OptionalGroup.text] at h
  | token ht _ ih =>
    rw [List.forall_mem_cons] at hts
    obtain ⟨v', rfl⟩ := exists_append_of_group hts.1 hq h
    rw [List.append_assoc] at h
    rw [Grouping.run_token hin ht] at hrun
    exact ih (g := g.behindToken) hu hts.2 hin hrun (List.append_cancel_left h)
  | skip hc hscan ih =>
    rcases v with _ | ⟨d, v⟩
    · rw [List.nil_append] at h
      rw [h] at hrun
      exact not_mem_after_of_run (h ▸ Scanned.skip hc hscan) hu hin hrun hd hq
    · rw [List.mem_cons, not_or] at hu
      obtain ⟨g₁, h₁, hrun⟩ := Grouping.run_cons hrun
      obtain ⟨hin₁, -⟩ := Grouping.step_outside hin (Ne.symm hu.1) h₁
      rw [List.cons_append, List.cons.injEq] at h
      exact ih hu.2 hts hin₁ hrun h.2

/-! ### Groups first, then tokens -/

lemma Token.read?_of_ne {c : Char} (hc : c ≠ '<') (s : List Char) : read? (c :: s) = none := by
  rcases h : read? (c :: s) with _ | ⟨t, rest⟩
  · rfl
  · have := (read?_eq_some h).1
    rw [text, List.cons_append, List.cons.injEq] at this
    exact absurd this.1 hc

namespace Piece

lemma splitGroups_cons {c : Char} (h : OptionalGroup.read? (c :: s) = none) :
    splitGroups (c :: s) = (c :: (splitGroups s).1, (splitGroups s).2) := by
  rw [splitGroups]
  split
  · rename_i h'
    rw [h] at h'
    cases h'
  · rfl

lemma splitGroups_of_read? {rest : List Char} (h : OptionalGroup.read? s = some (q, rest)) :
    splitGroups s = ([], (q, (splitGroups rest).1) :: (splitGroups rest).2) := by
  rcases s with _ | ⟨c, s⟩
  · cases h
  · rw [splitGroups]
    split
    · rename_i h'
      rw [h] at h'
      cases h'
      rfl
    · rename_i h'
      rw [h] at h'
      cases h'

lemma splitGroups_append
    (h : ∀ v x, u = v ++ x → x ≠ [] → OptionalGroup.read? (x ++ s) = none) :
    splitGroups (u ++ s) = (u ++ (splitGroups s).1, (splitGroups s).2) := by
  induction u with
  | nil => rfl
  | cons c u ih =>
    have hc : OptionalGroup.read? (c :: (u ++ s)) = none := h [] (c :: u) rfl (by simp)
    rw [List.cons_append, splitGroups_cons hc,
      ih fun v x e hx => h (c :: v) x (by rw [e]; rfl) hx]
    rfl

lemma tokens_ofText (s : List Char) : tokens (ofText s) = (splitTokens s).2.map Prod.fst := by
  rw [ofText, tokens_append, tokens_ofLiteral, List.nil_append]
  induction (splitTokens s).2 with
  | nil => rfl
  | cons p l ih =>
    rw [List.flatMap_cons, tokens_append, ih, tokens_required_cons, tokens_ofLiteral]
    rfl

lemma tokens_ofTemplate (s : List Char) :
    tokens (ofTemplate s) = (splitTokens (splitGroups s).1).2.map Prod.fst ++
      tokens ((splitGroups s).2.flatMap fun (group, t) => optional group :: ofText t) := by
  rw [ofTemplate, tokens_append, tokens_ofText]

lemma tokens_ofTemplate_text (ht : t.Readable)
    (hinside : ∀ v x, t.text = v ++ x → x ≠ [] → OptionalGroup.read? (x ++ s) = none) :
    tokens (ofTemplate (t.text ++ s)) = t :: tokens (ofTemplate s) := by
  rw [tokens_ofTemplate, tokens_ofTemplate s, splitGroups_append hinside, splitTokens_text ht,
    List.map_cons, List.cons_append]

lemma tokens_ofTemplate_cons {c : Char} (hc : c ≠ '<')
    (h : OptionalGroup.read? (c :: s) = none) :
    tokens (ofTemplate (c :: s)) = tokens (ofTemplate s) := by
  rw [tokens_ofTemplate, tokens_ofTemplate s, splitGroups_cons h,
    splitTokens_cons (Token.read?_of_ne hc _)]

lemma tokens_ofTemplate_of_read? {rest : List Char}
    (h : OptionalGroup.read? s = some (q, rest)) :
    tokens (ofTemplate s) = q.token :: tokens (ofTemplate rest) := by
  rw [tokens_ofTemplate, tokens_ofTemplate rest, splitGroups_of_read? h]
  simp only [List.flatMap_cons, tokens_append, tokens_optional_cons, List.cons_append,
    tokens_ofText, splitTokens, List.map_nil, List.nil_append]

/-- Where no group begins inside a token, and none takes a token for text, looking for groups first
finds the same tokens. -/
lemma tokens_ofTemplate_of_scanned (hscan : Scanned s ts u) (hu : '<' ∉ u)
    (hts : ∀ t ∈ ts, '(' ∈ t.body → '<' ∉ t.body ∧ Text.openAfter 0 t.body = 0)
    (hgroups : ∀ v (q : OptionalGroup) w, s = v ++ (q.text ++ w) → q.Readable → '<' ∉ q.after) :
    tokens (ofTemplate s) = ts := by
  -- a group is longer than its token, so the induction is on the length
  induction hn : s.length using Nat.strong_induction_on generalizing s ts u with
  | _ n ih =>
    rcases hr : OptionalGroup.read? s with _ | ⟨q, rest⟩
    · cases hscan with
      | nil => exact tokens_ofTemplate_of_not_mem List.not_mem_nil
      | @token s ts _ t ht hscan =>
        rw [List.forall_mem_cons] at hts
        have hlen : s.length < n := by
          rw [← hn, Token.text]
          simp
          omega
        have hrest := ih s.length hlen hscan hu hts.2
          (fun v q w e hq => hgroups (t.text ++ v) q w (by rw [e, List.append_assoc]) hq) rfl
        rw [tokens_ofTemplate_text ht fun v x => read?_inside_token hts.1, hrest]
      | @skip s ts u c hc hscan =>
        rw [List.mem_cons, not_or] at hu
        have hlen : s.length < n := by
          rw [← hn]
          simp
        have hrest := ih s.length hlen hscan hu.2 hts
          (fun v q w e hq => hgroups (c :: v) q w (by rw [e]; rfl) hq) rfl
        rw [tokens_ofTemplate_cons (Ne.symm hu.1) hr, hrest]
    · have hq := OptionalGroup.readable_of_read? hr
      have hs := OptionalGroup.eq_of_read? hr
      obtain ⟨ts', u', rfl, rfl, hscan'⟩ := (hs ▸ hscan).of_group hq (hgroups [] q rest hs hq)
      have hlen : rest.length < n := hn ▸ OptionalGroup.length_read? hr
      have hrest := ih rest.length hlen hscan' (fun hm => hu (by simp [hm]))
        (fun t ht => hts t (List.mem_cons_of_mem _ ht))
        (fun v q' w e hq' => hgroups (q.text ++ v) q' w (by rw [hs, e, List.append_assoc]) hq') rfl
      rw [tokens_ofTemplate_of_read? hr, hrest]

/-! ### The groups of a template -/

lemma readable_splitGroups (s : List Char) : ∀ p ∈ (splitGroups s).2, p.1.Readable := by
  fun_induction splitGroups s with
  | case1 => simp
  | case2 c s q rest h h₁ ih =>
    rw [List.forall_mem_cons]
    exact ⟨OptionalGroup.readable_of_read? h, ih⟩
  | case3 c s h ih => exact ih

lemma optional_not_mem_ofText (q : OptionalGroup) (s : List Char) : optional q ∉ ofText s := by
  have hliteral : ∀ s, optional q ∉ ofLiteral s := by
    intro s
    unfold ofLiteral
    split <;> simp
  simp [ofText, hliteral]

lemma readable_of_mem_groups {s : List Char} (hq : q ∈ groups (ofTemplate s)) :
    q.Readable ∧ ∃ v w, s = v ++ (q.text ++ w) := by
  have hp := mem_groups.mp hq
  refine ⟨?_, ?_⟩
  · rw [ofTemplate, List.mem_append, List.mem_flatMap] at hp
    rcases hp with hp | ⟨x, hx, hp⟩
    · exact absurd hp (optional_not_mem_ofText q _)
    · rcases List.mem_cons.mp hp with e | hp
      · cases e
        exact readable_splitGroups s x hx
      · exact absurd hp (optional_not_mem_ofText q _)
  · obtain ⟨ps, ps', hsplit⟩ := List.append_of_mem hp
    refine ⟨ps.flatMap text, ps'.flatMap text, ?_⟩
    rw [← text_ofTemplate s, hsplit, List.flatMap_append, List.flatMap_cons]
    rfl

end Piece

namespace Route

lemma run_of_new {name template : String} {r : Route} (h : new name template = .ok r)
    (hlt : '<' ∈ Text.trimSlashes template.toList) :
    ∃ g, Grouping.run {} (Text.trimSlashes template.toList) = .ok g := by
  have hcompile := (template_of_new h).1
  unfold Template.compile at hcompile
  simp only [hlt, not_true_eq_false, if_false] at hcompile
  unfold Grouping.check at hcompile
  rcases hrun : Grouping.run {} (Text.trimSlashes template.toList) with e | g
  · rw [hrun] at hcompile
    cases hcompile
  · exact ⟨g, rfl⟩

lemma error_of_not_ok {name template : String} (h : ∀ r, new name template ≠ .ok r) :
    ∃ fault, new name template = .error (.invalidTemplate template fault) := by
  unfold new at h ⊢
  split
  · rename_i t ht
    simp [ht] at h
  · rename_i fault _
    exact ⟨fault, rfl⟩

/-- **The parameters of a route** with a tidy template are the tokens of the template, read from
left to right. No group that was found has another token in it, and a template with such a group is
refused. -/
theorem tokens_eq_scanned {template : String} {ts : List Token} {u : List Char}
    (hscan : Scanned (Text.trimSlashes template.toList) ts u) (htidy : Tidy ts u) (name : String) :
    (∀ r, new name template = .ok r →
      r.template.tokens = ts ∧ ∀ q ∈ r.template.groups, '<' ∉ q.before ∧ '<' ∉ q.after) ∧
    ∀ v (q : OptionalGroup) w, Text.trimSlashes template.toList = v ++ (q.text ++ w) →
      q.Readable → '<' ∈ q.after →
      ∃ fault, new name template = .error (.invalidTemplate template fault) := by
  have hlone : ∀ r, new name template = .ok r → ∀ v (q : OptionalGroup) w,
      Text.trimSlashes template.toList = v ++ (q.text ++ w) → q.Readable → '<' ∉ q.after := by
    intro r h v q w htext hq
    obtain ⟨g, hg⟩ := run_of_new h (by rw [htext]; simp [OptionalGroup.text, Token.text])
    have hd := Grouping.depth_of_run hscan htidy.bracket rfl hg
    rw [htidy.closed] at hd
    exact not_mem_after hscan htidy.bracket htidy.tokens rfl hg hd htext hq
  have hpieces : ∀ r, new name template = .ok r →
      r.template.pieces = Piece.ofTemplate (Text.trimSlashes template.toList) := by
    intro r h
    obtain ⟨hwell, htext⟩ := Template.wellFormed_of_compile (template_of_new h).1
    rw [hwell.pieces, htext]
  refine ⟨fun r h => ⟨?_, fun q hq => ?_⟩, fun v q w htext hq hlt => ?_⟩
  · rw [Template.tokens, hpieces r h]
    exact Piece.tokens_ofTemplate_of_scanned hscan htidy.bracket htidy.tokens (hlone r h)
  · rw [Template.groups, hpieces r h] at hq
    obtain ⟨hread, v, w, htext⟩ := Piece.readable_of_mem_groups hq
    exact ⟨fun hm => (hread.before '<' hm).1 rfl, hlone r h v q w htext hread⟩
  · exact error_of_not_ok fun r h => hlone r h v q w htext hq hlt

lemma compiles_versions :
    (Template.compile "/v<:major|(0|1)>(.<#minor>)/<*rest>".toList).toOption.isSome = true := by
  decide +kernel

/-- A route with parentheses in a pattern and around a group. -/
def versions : Route :=
  ofTemplate "versions"
    ((Template.compile "/v<:major|(0|1)>(.<#minor>)/<*rest>".toList).toOption.get
      compiles_versions)

theorem tokens_eq_scanned_versions :
    let text := Text.trimSlashes "/v<:major|(0|1)>(.<#minor>)/<*rest>".toList
    let tokens : List Token := [⟨.generic, "major|(0|1)".toList⟩, ⟨.numeric, "minor".toList⟩,
      ⟨.wildcard, "rest".toList⟩]
    Scanned text tokens "v(.)/".toList ∧ Tidy tokens "v(.)/".toList ∧
      new "versions" "/v<:major|(0|1)>(.<#minor>)/<*rest>" = .ok versions ∧
      versions.template.tokens = tokens ∧
      Scanned (Text.trimSlashes "/a(<:b>-<:c>)".toList)
        [⟨.generic, ['b']⟩, ⟨.generic, ['c']⟩] "a(-)".toList ∧
      ∃ fault, new "crowded" "/a(<:b>-<:c>)" =
        .error (.invalidTemplate "/a(<:b>-<:c>)" fault) := by
  intro text tokens
  have hscan : Scanned text tokens "v(.)/".toList := by decide +kernel
  have htidy : Tidy tokens "v(.)/".toList := ⟨by decide, by decide, by decide⟩
  have hnew : new "versions" "/v<:major|(0|1)>(.<#minor>)/<*rest>" = .ok versions :=
    new_of_compile "versions" (Template.compile_eq_ok_get compiles_versions)
  have hscan' : Scanned (Text.trimSlashes "/a(<:b>-<:c>)".toList)
      [⟨.generic, ['b']⟩, ⟨.generic, ['c']⟩] "a(-)".toList := by decide +kernel
  have htidy' : Tidy [⟨.generic, ['b']⟩, ⟨.generic, ['c']⟩] "a(-)".toList :=
    ⟨by decide, by decide, by decide⟩
  refine ⟨hscan, htidy, hnew, ((tokens_eq_scanned hscan htidy "versions").1 _ hnew).1, hscan', ?_⟩
  refine (tokens_eq_scanned hscan' htidy' "crowded").2 ['a']
    ⟨[], ⟨.generic, ['b']⟩, "-<:c>".toList⟩ [] (by decide +kernel) ?_ (by decide)
  exact ⟨by simp, ⟨by decide, by decide⟩, by simp⟩

lemma compiles_stray :
    (Template.compile "/x<y(/<:a>-<:b>)".toList).toOption.isSome = true := by
  decide +kernel

lemma compiles_unclosed :
    (Template.compile "/x((/<:a>-<:b>)".toList).toOption.isSome = true := by
  decide +kernel

/-- A stray `<` hides a parenthesis from the check, and an unclosed parenthesis keeps it from
judging; either way the second token of a group is taken for text. -/
theorem token_lost_in_group :
    let tokens : List Token := [⟨.generic, ['a']⟩, ⟨.generic, ['b']⟩]
    let group : OptionalGroup := ⟨['/'], ⟨.generic, ['a']⟩, "-<:b>".toList⟩
    (Scanned (Text.trimSlashes "/x<y(/<:a>-<:b>)".toList) tokens "x<y(/-)".toList ∧
      ∃ r, new "stray" "/x<y(/<:a>-<:b>)" = .ok r ∧
        r.template.tokens = [⟨.generic, ['a']⟩] ∧ r.template.groups = [group]) ∧
    (Scanned (Text.trimSlashes "/x((/<:a>-<:b>)".toList) tokens "x((/-)".toList ∧
      ∃ r, new "unclosed" "/x((/<:a>-<:b>)" = .ok r ∧
        r.template.tokens = [⟨.generic, ['a']⟩] ∧ r.template.groups = [group]) := by
  refine ⟨⟨by decide +kernel, _,
      new_of_compile "stray" (Template.compile_eq_ok_get compiles_stray), ?_⟩,
    ⟨by decide +kernel, _,
      new_of_compile "unclosed" (Template.compile_eq_ok_get compiles_unclosed), ?_⟩⟩ <;>
  decide +kernel

end Route

end Signpost
