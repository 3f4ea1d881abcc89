import Mathlib.Data.List.Forall2
import Signpost.Dispatcher
import Signpost.Proofs.Text.Slice

/-!
Which names stand for the same module. The canonical form of a name tells its words up to the case
of the first letter of each, and nothing else of the name counts: the words have no colon, so they
are found again between the double colons.
-/

namespace Signpost.ModuleName

/-! ### Words -/

/-- Words that differ at most in the case of their first letter. -/
def SameWord (w v : List Char) : Prop :=
  w.head?.map Char.toUpper = v.head?.map Char.toUpper ∧ w.tail = v.tail

lemma mem_words {s w : List Char} (h : w ∈ words s) :
    w ≠ [] ∧ ∀ c ∈ w, c.isAlphanum = true := by
  obtain ⟨hsplit, hne⟩ := List.mem_filter.mp h
  refine ⟨of_decide_eq_true hne, fun c hc => ?_⟩
  obtain ⟨hkept, hsep⟩ := Text.mem_of_mem_splitAll hsplit hc
  have hc : isKept c = true := (List.mem_filter.mp hkept).2
  simpa [isKept, hsep] using hc

lemma of_mem_map_capitalize {s w : List Char} (h : w ∈ (words s).map capitalize) :
    w ≠ [] ∧ (∀ c ∈ w, c.isAlphanum = true) ∧ ∀ c ∈ w.head?, c.isLower = false := by
  obtain ⟨v, hv, rfl⟩ := List.mem_map.mp h
  obtain ⟨hne, hall⟩ := mem_words hv
  rcases v with _ | ⟨c, v⟩
  · exact absurd rfl hne
  · rw [List.forall_mem_cons] at hall
    refine ⟨by simp [capitalize], ?_, ?_⟩
    · rw [capitalize, List.forall_mem_cons]
      exact ⟨Text.isAlphanum_toUpper c hall.1, hall.2⟩
    · rintro _ ⟨⟩
      exact Text.isLower_toUpper c

lemma capitalize_eq_iff {w v : List Char} : capitalize w = capitalize v ↔ SameWord w v := by
  rcases w with _ | ⟨c, w⟩ <;> rcases v with _ | ⟨d, v⟩ <;> simp [capitalize, SameWord]

lemma map_capitalize_eq_iff {ws vs : List (List Char)} :
    ws.map capitalize = vs.map capitalize ↔ List.Forall₂ SameWord ws vs := by
  have hsame : SameWord = fun w v => capitalize w = capitalize v :=
    funext₂ fun w v => propext capitalize_eq_iff.symm
  rw [hsame, ← List.forall₂_map_left_iff (R := fun x v => x = capitalize v),
    ← List.forall₂_map_right_iff (R := Eq), List.forall₂_eq_eq_eq]

/-! ### Joined words -/

lemma filter_splitAll_joinWith {ws : List (List Char)} (h : ∀ w ∈ ws, w ≠ [] ∧ ':' ∉ w) :
    (Text.splitAll ':' (Text.joinWith "::".toList ws)).filter (· ≠ []) = ws := by
  induction ws with
  | nil => rfl
  | cons w ws ih =>
    rw [List.forall_mem_cons] at h
    obtain ⟨⟨hw, hcolon⟩, hws⟩ := h
    rcases eq_or_ne ws [] with rfl | hne
    · simp [Text.joinWith, Text.splitAll_of_not_mem hcolon, hw]
    · -- the second colon of a pair stands behind an empty part
      have hsplit : Text.splitAll ':' (Text.joinWith "::".toList (w :: ws)) =
          w :: [] :: Text.splitAll ':' (Text.joinWith "::".toList ws) := by
        rw [Text.joinWith_cons _ _ hne, List.append_assoc]
        exact (Text.splitAll_append hcolon _).trans
          (congrArg (w :: ·) (Text.splitAll_append (s := []) (by simp) _))
      rw [hsplit, List.filter_cons_of_pos (by simpa using hw), List.filter_cons_of_neg (by simp),
        ih hws]

lemma filter_splitAll_normalize (a : String) :
    (Text.splitAll ':' (normalize a).toList).filter (· ≠ []) = (words a.toList).map capitalize := by
  rw [normalize, String.toList_ofList]
  refine filter_splitAll_joinWith fun w hw => ?_
  obtain ⟨hne, hall, -⟩ := of_mem_map_capitalize hw
  refine ⟨hne, fun hcolon => ?_⟩
  cases hall ':' hcolon

lemma normalize_eq_intercalate (a : String) :
    normalize a = "::".intercalate (((words a.toList).map capitalize).map String.ofList) := by
  rw [← String.toList_inj, String.toList_intercalate, normalize, String.toList_ofList,
    Text.joinWith_eq_intercalate, List.map_map (g := String.toList)]
  simp [Function.comp_def]

/-- **Names of the same module.** Two names have the same canonical form just if they have equally
many words, and each word of the one is that of the other up to the case of its first letter. A
canonical form is made of words with double colons between them, each of them not empty, made of
letters and digits, and without a small letter in front. -/
theorem normalize_identifies_words :
    (∀ a b, normalize a = normalize b ↔
      List.Forall₂ SameWord (words a.toList) (words b.toList)) ∧
    ∀ a, ∃ ws : List String, normalize a = "::".intercalate ws ∧
      ∀ w ∈ ws, w ≠ "" ∧ (∀ c ∈ w.toList, c.isAlphanum = true) ∧
        ∀ c ∈ w.toList.head?, c.isLower = false := by
  refine ⟨fun a b => ?_, fun a => ⟨_, normalize_eq_intercalate a, fun w hw => ?_⟩⟩
  · rw [← map_capitalize_eq_iff]
    constructor
    · intro h
      rw [← filter_splitAll_normalize a, ← filter_splitAll_normalize b, h]
    · intro h
      rw [normalize, normalize, h]
  · obtain ⟨v, hv, rfl⟩ := List.mem_map.mp hw
    obtain ⟨hne, hrest⟩ := of_mem_map_capitalize hv
    rw [String.toList_ofList]
    exact ⟨by simpa using hne, hrest⟩

/-- Where characters are left out words grow together, underscores do not pile up, and only the first
letter of a word is capitalized. -/
theorem normalize_identifies_words_respelled :
    normalize "../blog-post__v2_" = normalize "_Blogpost_V2" ∧
      normalize "blog_post" ≠ normalize "blogpost" ∧
      normalize "userList" ≠ normalize "userlist" := by
  refine ⟨(normalize_identifies_words.1 _ _).mpr ?_, fun h => ?_, fun h => ?_⟩
  · exact .cons ⟨rfl, rfl⟩ (.cons ⟨rfl, rfl⟩ .nil)
  · have hwords := ((normalize_identifies_words.1 _ _).mp h).length_eq
    revert hwords
    decide
  · have hwords := (normalize_identifies_words.1 _ _).mp h
    obtain ⟨⟨-, htail⟩, -⟩ := List.forall₂_cons.mp hwords
    revert htail
    decide

end Signpost.ModuleName
