/-
  Pagemark.Proofs.Text.Cut — texts taken apart and put together again.

  Proved: `uncut_cut` — the two parts of a cut make up the text; `cut_flatMap`, `pieces_flatMap` —
  what is replaced between separators stays between them; `pieces_joined` — joined pieces come
  apart as they were; `strip_of_stripped` and `stripped_strip` — the texts that `strip` leaves
  alone are its results.
-/

import Pagemark.Text.Blank
import Pagemark.Text.Cut

namespace Pagemark.Text

/-! ## One cut -/

theorem cut_append_left {c : Char} {a : List Char} (h : c ∉ a) (b : List Char) :
    cut c (a ++ b) = (a ++ (cut c b).1, (cut c b).2) := by
  induction a with
  | nil => rfl
  | cons x xs ih =>
    rw [List.mem_cons, not_or] at h
    simp [cut, Ne.symm h.1, ih h.2]

theorem cut_of_not_mem {c : Char} {cs : List Char} (h : c ∉ cs) : cut c cs = (cs, none) := by
  have hcut := cut_append_left h []
  rwa [List.append_nil, show cut c [] = ([], none) from rfl, List.append_nil] at hcut

theorem cut_append {c : Char} {before : List Char} (h : c ∉ before) (behind : List Char) :
    cut c (before ++ c :: behind) = (before, some behind) := by
  simp [cut_append_left h, cut]

theorem cut_fst_eq_takeWhile (c : Char) (cs : List Char) : (cut c cs).1 = cs.takeWhile (· != c) := by
  induction cs with
  | nil => rfl
  | cons x xs ih =>
    by_cases h : x = c
    · simp [cut, h]
    · simp [cut, h, ih]

/-- The two parts put together again. -/
def uncut (c : Char) : List Char × Option (List Char) → List Char
  | (before, none) => before
  | (before, some behind) => before ++ c :: behind

theorem uncut_cut (c : Char) (cs : List Char) : uncut c (cut c cs) = cs := by
  induction cs with
  | nil => rfl
  | cons x xs ih =>
    by_cases h : x = c
    · simp [cut, uncut, h]
    · rcases hcut : cut c xs with ⟨before, _ | behind⟩
      · rw [hcut] at ih; simpa [cut, h, hcut, uncut] using ih
      · rw [hcut] at ih; simpa [cut, h, hcut, uncut] using ih

theorem mem_of_mem_cut_fst {c x : Char} {cs : List Char} (h : x ∈ (cut c cs).1) : x ∈ cs := by
  rw [← uncut_cut c cs]
  rcases hcut : cut c cs with ⟨before, _ | behind⟩
  · rw [hcut] at h; exact h
  · rw [hcut] at h; exact List.mem_append_left _ h

/-- Replacing all but the separator leaves the cut where it is. -/
theorem cut_flatMap {c : Char} {f : Char → List Char} (hc : f c = [c]) (hf : ∀ x, x ≠ c → c ∉ f x) (cs : List Char) :
    cut c (cs.flatMap f) = ((cut c cs).1.flatMap f, (cut c cs).2.map (·.flatMap f)) := by
  induction cs with
  | nil => rfl
  | cons x xs ih =>
    by_cases hx : x = c
    · subst hx
      simp [cut, hc]
    · rw [List.flatMap_cons, cut_append_left (hf x hx), ih]
      simp [cut, hx]

/-! ## Pieces -/

variable {p : Char → Bool}

theorem pieces_ne_nil (cs : List Char) : pieces p cs ≠ [] := List.cons_ne_nil _ _

theorem pieces_cons_of_pos {x : Char} (h : p x = true) (xs : List Char) : pieces p (x :: xs) = [] :: pieces p xs := by
  simp [pieces, piecesFrom, h]

theorem pieces_cons_of_neg {x : Char} (h : p x = false) (xs : List Char) :
    pieces p (x :: xs) = (x :: (piecesFrom p xs).1) :: (piecesFrom p xs).2 := by
  simp [pieces, piecesFrom, h]

theorem pieces_append_left {a : List Char} (h : ∀ x ∈ a, p x = false) (b : List Char) :
    pieces p (a ++ b) = (a ++ (piecesFrom p b).1) :: (piecesFrom p b).2 := by
  induction a with
  | nil => rfl
  | cons x xs ih =>
    have ih := ih fun y hy => h y (List.mem_cons_of_mem _ hy)
    simp only [pieces, List.cons.injEq] at ih
    rw [List.cons_append, pieces_cons_of_neg (h x List.mem_cons_self), ih.1, ih.2]
    rfl

theorem pieces_of_none {cs : List Char} (h : ∀ x ∈ cs, p x = false) : pieces p cs = [cs] := by
  have hpieces := pieces_append_left h []
  rwa [List.append_nil, show piecesFrom p [] = ([], []) from rfl, List.append_nil] at hpieces

theorem pieces_append {c : Char} (hc : p c = true) {piece : List Char} (h : ∀ x ∈ piece, p x = false)
    (rest : List Char) : pieces p (piece ++ c :: rest) = piece :: pieces p rest := by
  have hcut : piecesFrom p (c :: rest) = ([], pieces p rest) := by
    simp [piecesFrom, hc, pieces]
  rw [pieces_append_left h, hcut, List.append_nil]

/-- Replacing all but the separators leaves the pieces where they are. -/
theorem pieces_flatMap {f : Char → List Char} (hp : ∀ c, p c = true → f c = [c])
    (hf : ∀ c, p c = false → ∀ x ∈ f c, p x = false) (cs : List Char) :
    pieces p (cs.flatMap f) = (pieces p cs).map (·.flatMap f) := by
  induction cs with
  | nil => rfl
  | cons c cs ih =>
    by_cases hc : p c = true
    · rw [List.flatMap_cons, hp c hc, List.singleton_append, pieces_cons_of_pos hc, pieces_cons_of_pos hc, ih]
      rfl
    · have hc : p c = false := by simpa using hc
      simp only [pieces, List.map_cons, List.cons.injEq] at ih
      rw [List.flatMap_cons, pieces_append_left (hf c hc), pieces_cons_of_neg hc, ih.1, ih.2]
      rfl

/-- Joined pieces come apart as they were. -/
theorem pieces_joined {c : Char} (hc : p c = true) :
    ∀ {all : List (List Char)}, all ≠ [] → (∀ piece ∈ all, ∀ x ∈ piece, p x = false) →
      pieces p (joined c all) = all
  | [], hne, _ => absurd rfl hne
  | [piece], _, h => pieces_of_none (h piece List.mem_cons_self)
  | piece :: next :: more, _, h => by
    rw [joined, pieces_append hc (h piece List.mem_cons_self)]
    · rw [pieces_joined hc (List.cons_ne_nil _ _) fun q hq => h q (List.mem_cons_of_mem _ hq)]
    · exact List.cons_ne_nil _ _

theorem of_mem_pieces {cs piece : List Char} (hp : piece ∈ pieces p cs) {x : Char} (hx : x ∈ piece) :
    x ∈ cs ∧ p x = false := by
  induction cs generalizing piece with
  | nil =>
    simp only [pieces, piecesFrom, List.mem_singleton] at hp
    subst hp; cases hx
  | cons y ys ih =>
    by_cases hy : p y = true
    · rw [pieces_cons_of_pos hy] at hp
      rcases List.mem_cons.mp hp with rfl | hp
      · cases hx
      · exact ⟨List.mem_cons_of_mem _ (ih hp hx).1, (ih hp hx).2⟩
    · have hy : p y = false := by simpa using hy
      rw [pieces_cons_of_neg hy] at hp
      rcases List.mem_cons.mp hp with rfl | hp
      · rcases List.mem_cons.mp hx with rfl | hx
        · exact ⟨List.mem_cons_self, hy⟩
        · exact ⟨List.mem_cons_of_mem _ (ih List.mem_cons_self hx).1, (ih List.mem_cons_self hx).2⟩
      · exact ⟨List.mem_cons_of_mem _ (ih (List.mem_cons_of_mem _ hp) hx).1, (ih (List.mem_cons_of_mem _ hp) hx).2⟩

theorem mem_joined {c x : Char} {all : List (List Char)} (h : x ∈ joined c all) :
    x = c ∨ ∃ piece ∈ all, x ∈ piece := by
  induction all with
  | nil => cases h
  | cons piece more ih =>
    cases more with
    | nil => exact Or.inr ⟨piece, List.mem_cons_self, h⟩
    | cons next more =>
      simp only [joined, List.mem_append, List.mem_cons] at h
      rcases h with h | h | h
      · exact Or.inr ⟨piece, List.mem_cons_self, h⟩
      · exact Or.inl h
      · rcases ih h with h | ⟨q, hq, hx⟩
        · exact Or.inl h
        · exact Or.inr ⟨q, List.mem_cons_of_mem _ hq, hx⟩

theorem joined_ne_nil {c : Char} {piece : List Char} (h : piece ≠ []) (more : List (List Char)) :
    joined c (piece :: more) ≠ [] := by
  cases more with
  | nil => exact h
  | cons next more => simp [joined]

theorem joined_eq_intercalate (c : Char) (all : List (List Char)) : joined c all = [c].intercalate all := by
  induction all with
  | nil => rfl
  | cons piece more ih =>
    cases more with
    | nil => simp [joined]
    | cons next more =>
      rw [List.intercalate_cons_cons, ← ih, List.append_assoc]
      rfl

/-- Texts with a separator of one character between them. -/
theorem toList_intercalate_singleton (c : Char) (texts : List String) :
    ((String.singleton c).intercalate texts).toList = joined c (texts.map String.toList) := by
  rw [String.toList_intercalate, joined_eq_intercalate, String.toList_singleton]

/-- The text is made of the pieces with a separator between each two, and no piece holds one. -/
structure CutInto (c : Char) (cs : List Char) (all : List (List Char)) : Prop where
  ne_nil : all ≠ []
  whole : ∀ piece ∈ all, c ∉ piece
  joined : joined c all = cs

theorem joined_pieces (c : Char) (cs : List Char) : joined c (pieces (· == c) cs) = cs := by
  induction cs with
  | nil => rfl
  | cons x xs ih =>
    by_cases hx : x = c
    · have hseparator : (x == c) = true := beq_iff_eq.mpr hx
      rw [pieces_cons_of_pos (p := (· == c)) hseparator, hx]
      exact congrArg (c :: ·) ih
    · have hinside : (x == c) = false := beq_false_of_ne hx
      rw [pieces_cons_of_neg (p := (· == c)) hinside]
      unfold pieces at ih
      cases hmore : (piecesFrom (· == c) xs).2 with
      | nil =>
        rw [hmore] at ih
        exact congrArg (x :: ·) ih
      | cons next more =>
        rw [hmore] at ih
        exact congrArg (x :: ·) ih

/-- A text is cut into its pieces and into no others. -/
theorem pieces_eq_iff {c : Char} {cs : List Char} {all : List (List Char)} :
    pieces (· == c) cs = all ↔ CutInto c cs all := by
  constructor
  · rintro rfl
    refine ⟨pieces_ne_nil cs, fun piece hp hc => ?_, joined_pieces c cs⟩
    have hother := (of_mem_pieces hp hc).2
    simp at hother
  · rintro ⟨hne, hwhole, rfl⟩
    have hseparator : (c == c) = true := beq_self_eq_true c
    refine pieces_joined (p := (· == c)) hseparator hne fun piece hp x hx => ?_
    exact beq_false_of_ne fun heq => hwhole piece hp (heq ▸ hx)

/-! ## Stripped ends -/

/-- Neither the first nor the last character satisfies the predicate. -/
def Stripped (p : Char → Bool) (cs : List Char) : Prop :=
  (∀ c ∈ cs.head?, p c = false) ∧ ∀ c ∈ cs.getLast?, p c = false

theorem stripped_iff {cs : List Char} :
    Stripped p cs ↔ cs.head?.all (!p ·) = true ∧ cs.getLast?.all (!p ·) = true := by
  simp [Stripped, Option.all_eq_true]

instance (cs : List Char) : Decidable (Stripped p cs) := decidable_of_iff _ stripped_iff.symm

theorem dropWhile_of_head {cs : List Char} (h : ∀ c ∈ cs.head?, p c = false) : cs.dropWhile p = cs := by
  cases cs with
  | nil => rfl
  | cons x xs => rw [List.dropWhile_cons_of_neg (by simp [h x rfl])]

theorem strip_of_stripped {cs : List Char} (h : Stripped p cs) : strip p cs = cs := by
  unfold strip
  rw [dropWhile_of_head h.1, dropWhile_of_head (by simpa using h.2), List.reverse_reverse]

theorem head_dropWhile (cs : List Char) : ∀ c ∈ (cs.dropWhile p).head?, p c = false := by
  intro c hc
  have := List.head?_dropWhile_not p cs
  rw [Option.mem_def.mp hc] at this
  exact this

theorem stripped_strip (cs : List Char) : Stripped p (strip p cs) := by
  unfold strip
  refine ⟨?_, ?_⟩
  · intro c hc
    rw [List.head?_reverse] at hc
    have hmem : c ∈ (cs.dropWhile p).head? := by
      have suffixed := List.dropWhile_suffix p (l := (cs.dropWhile p).reverse)
      obtain ⟨front, hfront⟩ := suffixed
      have : (List.dropWhile p (List.dropWhile p cs).reverse).getLast? = some c := hc
      rw [← List.reverse_reverse (cs.dropWhile p), List.head?_reverse, ← hfront,
        List.getLast?_append, this]
      rfl
    exact head_dropWhile cs c hmem
  · intro c hc
    rw [List.getLast?_reverse] at hc
    exact head_dropWhile _ c hc

/-- The result has nothing to strip at its ends, and what is gone from there all satisfies the predicate. -/
structure StripsTo (p : Char → Bool) (cs text : List Char) : Prop where
  stripped : Stripped p text
  ends : ∃ front back, cs = front ++ text ++ back ∧ (∀ c ∈ front, p c = true) ∧ ∀ c ∈ back, p c = true

theorem stripsTo_strip (cs : List Char) : StripsTo p cs (strip p cs) := by
  refine ⟨stripped_strip cs, cs.takeWhile p, ((cs.dropWhile p).reverse.takeWhile p).reverse, ?_, ?_, ?_⟩
  · have hbehind : strip p cs ++ ((cs.dropWhile p).reverse.takeWhile p).reverse = cs.dropWhile p := by
      rw [strip, ← List.reverse_append, List.takeWhile_append_dropWhile, List.reverse_reverse]
    rw [List.append_assoc, hbehind, List.takeWhile_append_dropWhile]
  · exact List.all_eq_true.mp List.all_takeWhile
  · exact fun c hc => List.all_eq_true.mp List.all_takeWhile c (List.mem_reverse.mp hc)

/-- Nothing is left only of what satisfies the predicate throughout. -/
theorem strip_eq_nil_iff {cs : List Char} : strip p cs = [] ↔ ∀ c ∈ cs, p c = true := by
  constructor
  · intro h c hc
    obtain ⟨front, back, hcs, hfront, hback⟩ := (stripsTo_strip (p := p) cs).ends
    rw [h, List.append_nil] at hcs
    rw [hcs] at hc
    rcases List.mem_append.mp hc with hc | hc
    · exact hfront c hc
    · exact hback c hc
  · intro h
    have hgone : cs.dropWhile p = [] := by
      rw [← List.append_nil cs, List.dropWhile_append_of_pos h]
      rfl
    rw [strip, hgone]
    rfl

/-- A text is stripped to what `strip` leaves of it and to nothing else. -/
theorem strip_eq_iff {cs text : List Char} : strip p cs = text ↔ StripsTo p cs text := by
  constructor
  · rintro rfl
    exact stripsTo_strip cs
  · rintro ⟨⟨hhead, hlast⟩, front, back, rfl, hfront, hback⟩
    cases text with
    | nil =>
      refine strip_eq_nil_iff.mpr fun c hc => ?_
      rw [List.append_nil] at hc
      rcases List.mem_append.mp hc with hc | hc
      · exact hfront c hc
      · exact hback c hc
    | cons c text =>
      have hbehind : (c :: text ++ back).dropWhile p = c :: text ++ back := dropWhile_of_head hhead
      have hbefore : (c :: text).reverse.dropWhile p = (c :: text).reverse :=
        dropWhile_of_head (by rw [List.head?_reverse]; exact hlast)
      rw [strip, List.append_assoc, List.dropWhile_append_of_pos hfront, hbehind, List.reverse_append,
        List.dropWhile_append_of_pos (by simpa using hback), hbefore, List.reverse_reverse]

/-- What does not go from the front stays in front. -/
theorem head_strip {c : Char} (h : p c = false) (cs : List Char) : (strip p (c :: cs)).head? = some c := by
  have hkept : [c].dropWhile p = [c] := dropWhile_of_head (by simpa using h)
  unfold strip
  rw [List.dropWhile_cons_of_neg (by simp [h]), List.reverse_cons, List.dropWhile_append, hkept]
  split
  · rfl
  · simp

theorem mem_of_mem_strip {cs : List Char} {c : Char} (h : c ∈ strip p cs) : c ∈ cs := by
  unfold strip at h
  have h := (List.dropWhile_suffix p).subset (List.mem_reverse.mp h)
  exact (List.dropWhile_suffix p).subset (List.mem_reverse.mp h)

theorem stripped_of_forall {cs : List Char} (h : ∀ c ∈ cs, p c = false) : Stripped p cs :=
  ⟨fun c hc => h c (List.mem_of_mem_head? hc), fun c hc => h c (List.mem_of_mem_getLast? hc)⟩

end Pagemark.Text
