import Signpost.Proofs.Regex.Reading
import Signpost.Proofs.Regex.Recorded

/-!
What a search finds. Whatever follows an expression is a continuation, which is tried at the places
where the expression can end, the preferred place first, until it succeeds. A continuation is blind
if its success depends on the place alone and not on what was recorded on the way; for blind
continuations it makes no difference that a place already found is dropped, and the constructors
of expressions become the usual steps of backtracking.
-/

namespace Signpost.Regex

variable {β : Type}

/-- The success of a continuation depends on the place alone. -/
def Blind (g : Cursor → Option β) : Prop :=
  ∀ c d : Cursor, c.pos = d.pos → (g c).isSome = (g d).isSome

lemma blind_some : Blind (some : Cursor → Option Cursor) := fun _ _ _ => rfl

lemma Blind.eq_none {g : Cursor → Option β} (hg : Blind g) {c d : Cursor} (h : c.pos = d.pos)
    (hc : g c = none) : g d = none := by
  have := hg c d h
  rw [hc] at this
  simpa using this.symm

/-! ### Places found twice -/

def Walk.Tracks (w : Walk) : Prop := ∀ p, w.seen.testBit p = true ↔ ∃ c ∈ w.found, c.pos = p

namespace Walk

lemma tracks_start : start.Tracks := fun p => by simp [start]

lemma Tracks.begin {w : Walk} (h : w.Tracks) (round : Nat) : (w.begin round).Tracks := h

lemma testBit_or_single (n p q : Nat) :
    (n ||| 1 <<< p).testBit q = true ↔ n.testBit q = true ∨ p = q := by
  rw [Nat.testBit_or, Nat.one_shiftLeft, Nat.testBit_two_pow]
  simp

lemma Tracks.report {w : Walk} (h : w.Tracks) (c : Cursor) : (w.report c).Tracks := by
  unfold Walk.report
  split
  · exact h
  · intro p
    simp only [testBit_or_single, h p, List.mem_cons]
    constructor
    · rintro (⟨d, hd, rfl⟩ | rfl)
      · exact ⟨d, .inr hd, rfl⟩
      · exact ⟨c, .inl rfl, rfl⟩
    · rintro ⟨d, rfl | hd, rfl⟩
      · exact .inr rfl
      · exact .inl ⟨d, hd, rfl⟩

/-- A blind continuation does not notice that a place already found is not reported again. -/
lemma findSome?_report {w : Walk} (h : w.Tracks) {g : Cursor → Option β} (hg : Blind g)
    (c : Cursor) :
    (w.report c).cursors.findSome? g = (w.cursors ++ [c]).findSome? g := by
  rw [List.findSome?_append]
  unfold report
  split
  · rename_i hs
    obtain ⟨d, hd, hpos⟩ := (h c.pos).mp hs
    rcases hw : w.cursors.findSome? g with _ | b
    · have hdn : g d = none := List.findSome?_eq_none_iff.mp hw d (by simpa [cursors] using hd)
      simp [hg.eq_none hpos hdn]
    · rfl
  · rw [← List.findSome?_append]
    simp [cursors]

lemma findSome?_foldl_report {w : Walk} (h : w.Tracks) {g : Cursor → Option β} (hg : Blind g)
    (cs : List Cursor) :
    (cs.foldl report w).Tracks ∧
      (cs.foldl report w).cursors.findSome? g = (w.cursors ++ cs).findSome? g := by
  induction cs generalizing w with
  | nil => exact ⟨h, by simp⟩
  | cons c cs ih =>
    obtain ⟨ht, he⟩ := ih (h.report c)
    refine ⟨ht, ?_⟩
    rw [List.foldl_cons, he, List.findSome?_append, findSome?_report h hg, ← List.findSome?_append,
      List.append_assoc]
    rfl

end Walk

lemma findSome?_distinct {g : Cursor → Option β} (hg : Blind g) (cs : List Cursor) :
    (distinct cs).findSome? g = cs.findSome? g :=
  (Walk.findSome?_foldl_report Walk.tracks_start hg cs).2

lemma findSome?_flatMap {α γ : Type} (f : α → List γ) (g : γ → Option β) (l : List α) :
    (l.flatMap f).findSome? g = l.findSome? fun a => (f a).findSome? g := by
  induction l with
  | nil => rfl
  | cons a l ih =>
    rw [List.flatMap_cons, List.findSome?_append, ih, List.findSome?_cons]
    rcases (f a).findSome? g with _ | b <;> rfl

lemma findSome?_congr {α : Type} {f g : α → Option β} {l : List α} (h : ∀ a ∈ l, f a = g a) :
    l.findSome? f = l.findSome? g := by
  induction l with
  | nil => rfl
  | cons a l ih =>
    rw [List.findSome?_cons, List.findSome?_cons, h a List.mem_cons_self,
      ih fun b hb => h b (List.mem_cons_of_mem a hb)]

/-! ### Steps of backtracking -/

namespace Expr

variable {text : Array Char} {g : Cursor → Option β}

lemma blind_run (e : Expr) (hg : Blind g) : Blind fun c => (e.run text c).findSome? g := by
  have h : ∀ c : Cursor, ((e.run text c).findSome? g).isSome =
      ((e.run text ⟨c.pos, []⟩).findSome? g).isSome := by
    intro c
    have hc : c = (Cursor.mk c.pos []).lift c.captures := rfl
    rw [hc, run_lift, List.findSome?_map, List.isSome_findSome?, List.isSome_findSome?]
    exact congrArg (List.any _) (funext fun d => hg _ d rfl)
  intro c d hpos
  simp only
  rw [h c, h d, hpos]

lemma findSome?_seq (a b : Expr) (hg : Blind g) (c : Cursor) :
    ((seq a b).run text c).findSome? g =
      (a.run text c).findSome? fun d => (b.run text d).findSome? g := by
  rw [run, findSome?_distinct hg, findSome?_flatMap]

lemma findSome?_capture (name : String) (e : Expr) (c : Cursor) :
    ((capture name e).run text c).findSome? g =
      (e.run text c).findSome? fun d =>
        g { d with captures := (name, c.pos, d.pos) :: d.captures } := by
  rw [run, List.findSome?_map]
  rfl

lemma findSome?_upTo_one (e : Expr) (hg : Blind g) (c : Cursor) :
    ((upTo 1 true e).run text c).findSome? g = ((e.run text c).findSome? g).or (g c) := by
  have hw : (Walk.start.begin c.pos).Tracks := Walk.tracks_start.begin c.pos
  obtain ⟨ht, he⟩ := Walk.findSome?_foldl_report hw hg (e.run text c)
  have hrun : (upTo 1 true e).run text c =
      (((e.run text c).foldl Walk.report (Walk.start.begin c.pos)).report c).cursors := by
    simp [run, Walk.atMost, Walk.start]
  rw [hrun, Walk.findSome?_report ht hg, List.findSome?_append, he]
  simp [Walk.begin, Walk.start, Walk.cursors]

/-! ### Repeated characters -/

lemma run_set_nil (chars : CharSet) (u : List Char) (past : List (String × Nat × Nat)) :
    (set chars).run (u ++ []).toArray ⟨u.length, past⟩ = [] := by
  simp [run]

lemma run_set_cons (chars : CharSet) (u : List Char) (x : Char) (s : List Char)
    (past : List (String × Nat × Nat)) :
    (set chars).run (u ++ x :: s).toArray ⟨u.length, past⟩ =
      if chars.mem x then [⟨u.length + 1, past⟩] else [] := by
  simp [run]

/-- The places reached from the end of `u` by taking up to `n` characters, the nearest first. -/
def stretch (u : List Char) (past : List (String × Nat × Nat)) (n : Nat) : List Cursor :=
  (List.range (n + 1)).map fun k => ⟨u.length + k, past⟩

lemma stretch_succ (u : List Char) (x : Char) (past : List (String × Nat × Nat)) (n : Nat) :
    stretch u past (n + 1) = ⟨u.length, past⟩ :: stretch (u ++ [x]) past n := by
  rw [stretch, List.range_succ_eq_map, List.map_cons, List.map_map, stretch]
  refine congrArg _ (List.map_congr_left fun k _ => ?_)
  simp only [Function.comp_apply, List.length_append, List.length_singleton]
  congr 1
  omega

lemma found_report {w : Walk} {c : Cursor} (h : w.seen.testBit c.pos = false) :
    (w.report c).found = c :: w.found := by
  simp [Walk.report, h]

lemma rounds_succ {step : Cursor → List Cursor} {fuel : Nat} {w : Walk} {c : Cursor}
    (h : w.begun.testBit c.pos = false) :
    Walk.rounds step true (fuel + 1) w c =
      (((step c).filter fun d => c.pos < d.pos).foldl (Walk.rounds step true fuel)
        (w.begin c.pos)).report c := by
  simp [Walk.rounds, h]

/-- Further rounds over a set report every place that characters of the set lead to, the farthest
first. -/
lemma rounds_set (chars : CharSet) (s u : List Char) (past : List (String × Nat × Nat))
    {fuel : Nat} (hf : s.length ≤ fuel) {w : Walk} (hw : w.Tracks)
    (hseen : ∀ q, u.length ≤ q → w.seen.testBit q = false)
    (hbegun : ∀ q, u.length ≤ q → w.begun.testBit q = false) :
    (Walk.rounds ((set chars).run (u ++ s).toArray) true fuel w ⟨u.length, past⟩).Tracks ∧
      (Walk.rounds ((set chars).run (u ++ s).toArray) true fuel w ⟨u.length, past⟩).found =
        stretch u past (s.takeWhile chars.mem).length ++ w.found := by
  induction s generalizing u fuel w with
  | nil =>
    rcases fuel with _ | fuel
    · exact ⟨hw.report _, found_report (hseen _ (Nat.le_refl _))⟩
    · rw [rounds_succ (hbegun _ (Nat.le_refl _)), run_set_nil]
      exact ⟨(hw.begin _).report _, found_report (hseen _ (Nat.le_refl _))⟩
  | cons x s ih =>
    rcases fuel with _ | fuel
    · simp at hf
    rw [rounds_succ (hbegun _ (Nat.le_refl _)), run_set_cons]
    by_cases hx : chars.mem x = true
    · -- the rounds from the next place, which have begun none of theirs
      have happ : u ++ x :: s = (u ++ [x]) ++ s := by simp
      have hlen : u.length + 1 = (u ++ [x]).length := by simp
      obtain ⟨ht, he⟩ := ih (u ++ [x]) (w := w.begin u.length) (Nat.le_of_succ_le_succ hf)
        (hw.begin _) (fun q hq => hseen q (by omega)) (fun q hq => by
          have h1 : w.begun.testBit q = false := hbegun q (by omega)
          have h2 : ¬ u.length = q := by omega
          have h3 := Walk.testBit_or_single w.begun u.length q
          simpa [Walk.begin, h1, h2] using h3)
      have hfilter : [Cursor.mk (u.length + 1) past].filter (fun d => u.length < d.pos) =
          [⟨u.length + 1, past⟩] := by
        simp
      rw [if_pos hx, happ, hfilter, hlen, List.foldl_cons, List.foldl_nil]
      generalize Walk.rounds ((set chars).run (u ++ [x] ++ s).toArray) true fuel
        (w.begin u.length) ⟨(u ++ [x]).length, past⟩ = w' at ht he
      have hnot : w'.seen.testBit u.length = false := by
        rw [Bool.eq_false_iff]
        intro hs
        obtain ⟨d, hd, hpos⟩ := (ht u.length).mp hs
        rw [he, List.mem_append] at hd
        rcases hd with hd | hd
        · obtain ⟨k, -, rfl⟩ := List.mem_map.mp hd
          simp only [List.length_append, List.length_singleton] at hpos
          omega
        · have := (hw u.length).mpr ⟨d, hd, hpos⟩
          rw [hseen _ (Nat.le_refl _)] at this
          cases this
      refine ⟨ht.report _, ?_⟩
      rw [found_report hnot, he, List.takeWhile_cons_of_pos hx, List.length_cons,
        stretch_succ u x]
      rfl
    · rw [if_neg hx, List.takeWhile_cons_of_neg hx]
      exact ⟨(hw.begin _).report _, found_report (hseen _ (Nat.le_refl _))⟩

lemma atLeastOne_set (chars : CharSet) (s u : List Char) (past : List (String × Nat × Nat)) :
    let w := Walk.atLeastOne ((set chars).run (u ++ s).toArray) true (u ++ s).toArray.size
      Walk.start ⟨u.length, past⟩
    w.Tracks ∧ w.found = (stretch u past (s.takeWhile chars.mem).length).tail := by
  intro w
  rcases s with _ | ⟨x, s⟩
  · have hw : w = Walk.start := by
      simp only [w, Walk.atLeastOne, run_set_nil, List.foldl_nil]
    rw [hw]
    exact ⟨Walk.tracks_start, rfl⟩
  · by_cases hx : chars.mem x = true
    · have hw : w = Walk.rounds ((set chars).run (u ++ [x] ++ s).toArray) true
          (u ++ [x] ++ s).toArray.size Walk.start ⟨(u ++ [x]).length, past⟩ := by
        simp only [w, Walk.atLeastOne, run_set_cons, hx, if_true, List.foldl_cons, List.foldl_nil]
        simp
      have hf : s.length ≤ (u ++ [x] ++ s).toArray.size := by simp; omega
      obtain ⟨ht, he⟩ := rounds_set chars s (u ++ [x]) past hf Walk.tracks_start
        (fun q _ => by simp [Walk.start]) (fun q _ => by simp [Walk.start])
      rw [hw]
      refine ⟨ht, ?_⟩
      rw [he, List.takeWhile_cons_of_pos hx, List.length_cons, stretch_succ u x]
      simp [Walk.start]
    · have hw : w = Walk.start := by
        simp only [w, Walk.atLeastOne, run_set_cons, hx]
        rfl
      rw [hw, List.takeWhile_cons_of_neg hx]
      exact ⟨Walk.tracks_start, rfl⟩

/-- A greedy repetition of a set ends behind as many of its characters as there are, or else
behind fewer, but behind one at least. -/
theorem run_plus_set (chars : CharSet) (s u : List Char) (past : List (String × Nat × Nat)) :
    (plus true (set chars)).run (u ++ s).toArray ⟨u.length, past⟩ =
      (stretch u past (s.takeWhile chars.mem).length).tail.reverse := by
  rw [run, Walk.cursors, (atLeastOne_set chars s u past).2]

/-- The same where no character needs to be taken. -/
theorem run_star_set (chars : CharSet) (s u : List Char) (past : List (String × Nat × Nat)) :
    (star true (set chars)).run (u ++ s).toArray ⟨u.length, past⟩ =
      (stretch u past (s.takeWhile chars.mem).length).reverse := by
  obtain ⟨ht, he⟩ := atLeastOne_set chars s u past
  rw [run, if_pos rfl, Walk.cursors]
  generalize Walk.atLeastOne ((set chars).run (u ++ s).toArray) true (u ++ s).toArray.size
    Walk.start ⟨u.length, past⟩ = w at ht he
  have hstretch : stretch u past (s.takeWhile chars.mem).length =
      ⟨u.length, past⟩ :: (stretch u past (s.takeWhile chars.mem).length).tail := by
    rw [stretch, List.range_succ_eq_map]
    rfl
  have hnot : w.seen.testBit u.length = false := by
    rw [Bool.eq_false_iff]
    intro hs
    obtain ⟨d, hd, hpos⟩ := (ht u.length).mp hs
    rw [he, stretch, List.range_succ_eq_map, List.map_cons, List.tail_cons, List.map_map] at hd
    obtain ⟨k, -, rfl⟩ := List.mem_map.mp hd
    simp only [Function.comp_apply] at hpos
    omega
  rw [found_report hnot, he, ← hstretch]

/-! ### Expressions one after the other -/

/-- Expressions one after the other in front of a continuation. -/
def follow (text : Array Char) : List Expr → (Cursor → Option β) → Cursor → Option β
  | [], g => g
  | e :: es, g => fun c => (e.run text c).findSome? (follow text es g)

lemma follow_cons (e : Expr) (es : List Expr) (g : Cursor → Option β) (c : Cursor) :
    follow text (e :: es) g c = (e.run text c).findSome? (follow text es g) := rfl

lemma follow_append (es es' : List Expr) (g : Cursor → Option β) :
    follow text (es ++ es') g = follow text es (follow text es' g) := by
  induction es with
  | nil => rfl
  | cons e es ih => rw [List.cons_append, follow, ih, follow]

lemma blind_follow (es : List Expr) (hg : Blind g) : Blind (follow text es g) := by
  induction es with
  | nil => exact hg
  | cons e es ih => exact blind_run e ih

lemma findSome?_andThen (a b : Expr) (hg : Blind g) (c : Cursor) :
    ((a.andThen b).run text c).findSome? g =
      (a.run text c).findSome? fun d => (b.run text d).findSome? g := by
  by_cases ha : a = .empty
  · subst ha
    rcases hb : (b.run text c).findSome? g with _ | x <;> simp [andThen, run, hb]
  · have hseq : a.andThen b = .seq a b := by cases a <;> simp_all [andThen]
    rw [hseq, findSome?_seq a b hg]

lemma findSome?_foldl_andThen (es : List Expr) (e : Expr) (hg : Blind g) (c : Cursor) :
    ((es.foldl andThen e).run text c).findSome? g =
      (e.run text c).findSome? (follow text es g) := by
  induction es generalizing e with
  | nil => rfl
  | cons e' es ih =>
    rw [List.foldl_cons, ih, findSome?_andThen e e' (blind_follow es hg)]
    rfl

lemma findSome?_sequence (es : List Expr) (hg : Blind g) (c : Cursor) :
    ((sequence es).run text c).findSome? g = follow text es g c := by
  rw [sequence, findSome?_foldl_andThen es .empty hg]
  rcases h : follow text es g c with _ | x <;> simp [run, h]

lemma follow_literals (t s u : List Char) (past : List (String × Nat × Nat)) :
    follow (u ++ s).toArray (literals t) g ⟨u.length, past⟩ =
      (s.dropPrefix? t).bind fun _ => g ⟨(u ++ t).length, past⟩ := by
  induction t generalizing s u with
  | nil => cases s <;> simp [literals, follow, List.dropPrefix?]
  | cons c t ih =>
    rcases s with _ | ⟨x, s⟩
    · rw [literals, List.map_cons, follow_cons, run_set_nil]
      rfl
    · rw [literals, List.map_cons, follow_cons, run_set_cons]
      by_cases hx : x = c
      · have hmem : (CharSet.single c).mem x = true := (CharSet.mem_single c x).mpr hx
        have happ : u ++ x :: s = (u ++ [x]) ++ s := by simp
        have hlen : u.length + 1 = (u ++ [x]).length := by simp
        rw [if_pos hmem, List.findSome?_singleton, happ, hlen]
        refine (ih s (u ++ [x])).trans ?_
        simp [List.dropPrefix?, hx]
      · have hmem : ¬ (CharSet.single c).mem x = true := fun h =>
          hx ((CharSet.mem_single c x).mp h)
        rw [if_neg hmem]
        simp [List.dropPrefix?, hx]

end Expr

end Signpost.Regex
