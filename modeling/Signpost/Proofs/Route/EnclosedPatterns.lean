import Signpost.Proofs.Route.InlinePatterns

/-!
Which patterns cannot make a required parameter miss its capture. A pattern is pasted into the group
of its parameter as it stands, so it is not enough that it is a regular expression by itself: with
blanks and comments skipped, a comment at its end takes the parenthesis that closes the group. A
pattern that is a regular expression in a group too does no harm, whatever its flags.
-/

namespace Signpost

open Regex

/-- A pattern that is a regular expression by itself and in a group. -/
def Regex.Enclosable (pattern : List Char) : Prop :=
  (∃ regex, Regex.ofSource pattern = .ok regex) ∧
    ∃ regex, Regex.ofSource ("(?:".toList ++ (pattern ++ [')'])) = .ok regex

instance (pattern : List Char) : Decidable (Regex.Enclosable pattern) :=
  decidable_of_iff ((Regex.ofSource pattern).toOption.isSome = true ∧
      (Regex.ofSource ("(?:".toList ++ (pattern ++ [')']))).toOption.isSome = true)
    (and_congr (by cases Regex.ofSource pattern <;> simp [Except.toOption])
      (by cases Regex.ofSource ("(?:".toList ++ (pattern ++ [')'])) <;> simp [Except.toOption]))

/-- A pattern is enclosable exactly if it can be pasted into every group. -/
lemma Regex.enclosable_iff_pastes {pattern : List Char} (hname : '>' ∉ pattern) :
    Enclosable pattern ↔ Pastes pattern := by
  constructor
  · rintro ⟨⟨regex, h⟩, regex', h'⟩
    exact pastes_of_read_group (read_of_ofSource h) (read_of_ofSource h') hname
  · intro h
    obtain ⟨e, he, -⟩ := id h
    have hgroup := h.read_group
    rw [he] at hgroup
    exact ⟨⟨⟨pattern, e⟩, by rw [ofSource, he]⟩, ⟨_, e⟩, by rw [ofSource, hgroup]⟩

namespace Route

variable {r : Route}

/-- **Matching cannot miss a required parameter** where each pattern is a regular expression by
itself and in a group, whatever its flags: every method and path gives parameters or no match, and
parameters exactly if the path matches. -/
theorem extract_of_enclosable (hr : r.Built)
    (hvalid : ∀ t ∈ r.template.tokens, ∀ pattern, t.kind = .inline pattern → Enclosable pattern)
    (method : Method) (path : String) :
    (∀ name matched named, r.extract method path ≠ .error (.captureMismatch name matched named)) ∧
      ∃ found, r.extract method path = .ok found ∧
        (found.isSome = true ↔ r.isMatch path = true) := by
  have hfound : ∃ found, r.extract method path = .ok found ∧
      (found.isSome = true ↔ r.isMatch path = true) := by
    rw [isMatch_eq]
    rcases hcaptures : r.captures? (Text.trimSlashes path.toList) with _ | captures
    · exact ⟨none, extract_of_captures?_eq_none hcaptures, by simp⟩
    · obtain ⟨vs, hvs, rfl⟩ := captures?_placed_of_pastes hr (fun t ht pattern hk =>
        (enclosable_iff_pastes (Token.close_not_mem_pattern
          (hr.wellFormed.close_not_mem t ht) hk)).mp (hvalid t ht pattern hk)) hcaptures
      have hextract : r.extract method path = _ := extract_of_captures? hr hcaptures
      rw [checkCaptures_capturesOf hvs, Except.map] at hextract
      exact ⟨_, hextract, by simp⟩
  refine ⟨fun name matched named h => ?_, hfound⟩
  obtain ⟨found, hok, -⟩ := hfound
  rw [h] at hok
  cases hok

/-- A route with patterns that skip blanks and comments, one of them with a comment that ends before
the pattern does. -/
def tags : Route :=
  ofTemplate "tags"
    ((Template.compile
      "/tags/<:tag|(?x) [a-z]+ # letters\n>(-<:id|(?xi)0x [0-9 a-f]+>)".toList).toOption.get
        (by decide +kernel))

theorem extract_of_enclosable_tags :
    let path := "tags/lean-0x1F"
    tags.Built ∧ tags.isMatch path = true ∧
      (∀ t ∈ tags.template.tokens, ∀ pattern, t.kind = .inline pattern → Enclosable pattern) ∧
      (∀ name matched named,
        tags.extract .get path ≠ .error (.captureMismatch name matched named)) ∧
      ∃ found, tags.extract .get path = .ok found ∧
        (found.isSome = true ↔ tags.isMatch path = true) := by
  intro path
  have hall : tags.isMatch path = true ∧
      tags.template.tokens.map Token.kind =
        [.inline "(?x) [a-z]+ # letters\n".toList, .inline "(?xi)0x [0-9 a-f]+".toList] ∧
      Enclosable "(?x) [a-z]+ # letters\n".toList ∧
      Enclosable "(?xi)0x [0-9 a-f]+".toList := by
    decide +kernel
  obtain ⟨hmatch, hkinds, hletters, hnumber⟩ := hall
  have hbuilt : tags.Built := .new (new_of_compile "tags" (Template.compile_eq_ok_get _))
  have hvalid : ∀ t ∈ tags.template.tokens, ∀ pattern, t.kind = .inline pattern →
      Enclosable pattern := by
    intro t ht pattern hk
    have hmem := List.mem_map_of_mem (f := Token.kind) ht
    rw [hkinds, hk] at hmem
    simp only [List.mem_cons, ParamKind.inline.injEq, List.not_mem_nil, or_false] at hmem
    rcases hmem with rfl | rfl
    · exact hletters
    · exact hnumber
  exact ⟨hbuilt, hmatch, hvalid, extract_of_enclosable hbuilt hvalid .get path⟩

/-- The pattern ends in a comment, which takes the closing parenthesis of its group and goes on to
the end of the line in the text behind; the group is closed, and left out, by the parenthesis that
should close the optional group. -/
theorem extract_misses_commented :
    (∃ regex, Regex.ofSource "(?x)b#".toList = .ok regex) ∧ ¬ Enclosable "(?x)b#".toList ∧
      (new "commented" "/<:a|(?x)b#>(c\n<:d>)").map
        (fun r => (r.template.tokens.map Token.kind, r.isMatch "", r.extract .get "")) =
          .ok ([.inline "(?x)b#".toList, .generic], true,
            .error (.captureMismatch "commented" 0 1)) := by
  have hall : (Regex.ofSource "(?x)b#".toList).toOption.isSome = true ∧
      ¬ Enclosable "(?x)b#".toList ∧
      (new "commented" "/<:a|(?x)b#>(c\n<:d>)").map
        (fun r => (r.template.tokens.map Token.kind, r.isMatch "", r.extract .get "")) =
          .ok ([.inline "(?x)b#".toList, .generic], true,
            .error (.captureMismatch "commented" 0 1)) := by
    decide +kernel
  refine ⟨?_, hall.2⟩
  rcases h : Regex.ofSource "(?x)b#".toList with e | regex
  · rw [h] at hall
    cases hall.1
  · exact ⟨regex, rfl⟩

end Route

end Signpost
