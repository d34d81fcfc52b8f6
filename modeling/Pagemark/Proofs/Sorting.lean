/-
  Pagemark.Proofs.Sorting — sortings survive their query values.

  A property is `Named` when it can be told from what stands around it in a query value: it is
  not empty, has no comma, and neither begins nor ends with a blank. Whatever is read out of
  query values is named, and named keys are read back from the values that they are written as,
  because writing always gives the direction: a property may itself be called `desc`.

  Proved: `ofWord?_eq_some_iff` — which texts are direction words; `named_of_parse` — reading gives
  named keys; `parse_values` — and reads them again; `parse_values_iff` — it gives back no others.
-/

import Mathlib.Data.List.Forall2
import Pagemark.Proofs.Text.Cut
import Pagemark.Sorting

namespace Pagemark

open Text

/-- The property can be told from the commas and blanks around it. -/
def SortKey.Named (key : SortKey) : Prop :=
  key.property ≠ "" ∧ ',' ∉ key.property.toList ∧ Stripped isBlank key.property.toList

instance (key : SortKey) : Decidable key.Named :=
  inferInstanceAs (Decidable (key.property ≠ "" ∧ ',' ∉ key.property.toList ∧ Stripped isBlank key.property.toList))

/-! ## Direction words -/

theorem toNat_toLower (c : Char) :
    c.toLower.toNat = if 65 ≤ c.toNat ∧ c.toNat ≤ 90 then c.toNat + 32 else c.toNat := by
  have hrange : ('A'.val ≤ c.val ∧ c.val ≤ 'Z'.val) ↔ 65 ≤ c.toNat ∧ c.toNat ≤ 90 := Iff.rfl
  unfold Char.toLower
  split
  · rename_i h
    have hcapital := hrange.mp h
    rw [if_pos hcapital]
    show (c.toNat + 32) % 2 ^ 32 = c.toNat + 32
    omega
  · rename_i h
    rw [if_neg (mt hrange.mpr h)]

theorem isLower_iff {c : Char} : c.isLower = true ↔ 97 ≤ c.toNat ∧ c.toNat ≤ 122 := by
  show (decide ('a'.val ≤ c.val) && decide (c.val ≤ 'z'.val)) = true ↔ _
  rw [Bool.and_eq_true, decide_eq_true_iff, decide_eq_true_iff]
  exact Iff.rfl

theorem toNat_toUpper {c : Char} (h : c.isLower = true) : c.toUpper.toNat + 32 = c.toNat := by
  have hletter := isLower_iff.mp h
  have hrange : 'a'.val ≤ c.val ∧ c.val ≤ 'z'.val := hletter
  have hdown : ('A'.val - 'a'.val).toNat = 2 ^ 32 - 32 := by decide
  unfold Char.toUpper
  rw [dif_pos hrange]
  show (c.val + ('A'.val - 'a'.val)).toNat + 32 = c.toNat
  rw [UInt32.toNat_add, hdown]
  show (c.toNat + (2 ^ 32 - 32)) % 2 ^ 32 + 32 = c.toNat
  omega

/-- Two characters have a small letter as their lower case: the letter, and its capital. -/
theorem toLower_eq_iff {c letter : Char} (h : letter.isLower = true) :
    c.toLower = letter ↔ c = letter ∨ c = letter.toUpper := by
  have hletter := isLower_iff.mp h
  have hupper := toNat_toUpper h
  rw [← Char.toNat_inj, ← Char.toNat_inj, ← Char.toNat_inj, toNat_toLower]
  split
  · omega
  · omega

namespace Direction

/-- The text is the word of the direction, each letter small or capital. -/
def SpelledBy (d : Direction) (cs : List Char) : Prop :=
  List.Forall₂ (fun c letter => c = letter ∨ c = letter.toUpper) cs d.word.toList

theorem isLower_of_mem_word {d : Direction} {letter : Char} (h : letter ∈ d.word.toList) : letter.isLower = true := by
  have lower : d.word.toList.all Char.isLower = true := by
    cases d with
    | ascending => decide
    | descending => decide
  exact List.all_eq_true.mp lower letter h

theorem map_toLower_eq_iff {cs word : List Char} (h : ∀ letter ∈ word, letter.isLower = true) :
    cs.map Char.toLower = word ↔ List.Forall₂ (fun c letter => c = letter ∨ c = letter.toUpper) cs word := by
  induction word generalizing cs with
  | nil => rw [List.map_eq_nil_iff, List.forall₂_nil_right_iff]
  | cons letter word ih =>
    obtain ⟨hletter, hword⟩ := List.forall_mem_cons.mp h
    cases cs with
    | nil => simp
    | cons c cs => rw [List.map_cons, List.cons.injEq, List.forall₂_cons, toLower_eq_iff hletter, ih hword]

/-- The words that name a direction are its spellings. -/
theorem ofWord?_eq_some_iff {cs : List Char} {d : Direction} : ofWord? cs = some d ↔ d.SpelledBy cs := by
  have hspelled : d.SpelledBy cs ↔ cs.map Char.toLower = d.word.toList :=
    (map_toLower_eq_iff fun _ h => isLower_of_mem_word h).symm
  rw [hspelled, ofWord?]
  by_cases hascending : cs.map Char.toLower = ['a', 's', 'c']
  · cases d with
    | ascending => simp [hascending, word]
    | descending => simp [hascending, word]
  by_cases hdescending : cs.map Char.toLower = ['d', 'e', 's', 'c']
  · cases d with
    | ascending => simp [hdescending, word]
    | descending => simp [hdescending, word]
  · cases d with
    | ascending => simp [hascending, hdescending, word]
    | descending => simp [hascending, hdescending, word]

theorem ofWord?_word (d : Direction) : ofWord? d.word.toList = some d := by
  cases d with
  | ascending => decide
  | descending => decide

theorem not_mem_word (d : Direction) {c : Char} (h : c.isLower = false) : c ∉ d.word.toList := by
  intro hc
  rw [isLower_of_mem_word hc] at h
  cases h

theorem stripped_word (d : Direction) : Stripped isBlank d.word.toList := by
  cases d with
  | ascending => decide
  | descending => decide

theorem word_ne_nil (d : Direction) : d.word.toList ≠ [] := by
  cases d with
  | ascending => decide
  | descending => decide

/-- A direction word holds neither commas nor blanks. -/
theorem of_mem_spelledBy {d : Direction} {cs : List Char} (h : d.SpelledBy cs) {c : Char} (hc : c ∈ cs) :
    c ≠ ',' ∧ isBlank c = false := by
  have hlower : cs.map Char.toLower = d.word.toList := (map_toLower_eq_iff fun _ h => isLower_of_mem_word h).mpr h
  have hmem : c.toLower ∈ d.word.toList := by
    rw [← hlower]
    exact List.mem_map_of_mem hc
  have hrange := isLower_iff.mp (isLower_of_mem_word hmem)
  rw [toNat_toLower] at hrange
  refine ⟨?_, ?_⟩
  · rintro rfl
    revert hrange
    decide
  · simp only [isBlank, Bool.or_eq_false_iff, Bool.and_eq_false_iff, decide_eq_false_iff_not, beq_eq_false_iff_ne]
    split at hrange
    · omega
    · omega

/-- So a property may be called as a direction is. -/
theorem named_of_spelledBy {d : Direction} {key : SortKey} (h : d.SpelledBy key.property.toList) : key.Named := by
  refine ⟨?_, fun hc => (of_mem_spelledBy h hc).1 rfl, stripped_of_forall fun c hc => (of_mem_spelledBy h hc).2⟩
  intro hempty
  rw [hempty] at h
  cases d with
  | ascending => cases h
  | descending => cases h

end Direction

/-! ## Writing and reading -/

namespace Sorting

theorem segments_text {key : SortKey} (h : key.Named) :
    segments key.text.toList = [key.property.toList, key.direction.word.toList] := by
  obtain ⟨hne, hcomma, hstripped⟩ := h
  have spelled : key.text.toList = key.property.toList ++ ',' :: key.direction.word.toList := by
    simp [SortKey.text]
  have apart : pieces (· == ',') key.text.toList = [key.property.toList, key.direction.word.toList] := by
    rw [spelled, pieces_append (by decide), pieces_of_none]
    · intro c hc
      have hne : c ≠ ',' := by
        rintro rfl
        exact key.direction.not_mem_word (by decide) hc
      simpa using hne
    · intro c hc
      have hne : c ≠ ',' := by
        rintro rfl
        exact hcomma hc
      simpa using hne
  have full : key.property.toList ≠ [] := by
    intro e
    exact hne (String.toList_injective e)
  rw [segments, apart, List.map_cons, List.map_cons, List.map_nil, strip_of_stripped hstripped,
    strip_of_stripped key.direction.stripped_word]
  refine List.filter_eq_self.mpr ?_
  simp [full, key.direction.word_ne_nil]

theorem parseValue_text {key : SortKey} (h : key.Named) : parseValue key.text = .ok [key] := by
  have taken : takeDirection [key.property.toList, key.direction.word.toList]
      = ([key.property.toList], key.direction) := by
    simp [takeDirection, key.direction.ofWord?_word]
  rw [parseValue, segments_text h]
  simp [taken]

/-- Named keys are read back from their query values. -/
theorem parse_values {s : Sorting} (h : ∀ key ∈ s, key.Named) : parse (values s) = .ok s := by
  induction s with
  | nil => rfl
  | cons key s ih =>
    obtain ⟨hkey, hs⟩ := List.forall_mem_cons.mp h
    show parse (key.text :: values s) = _
    rw [parse, parseValue_text hkey, ih hs]
    rfl

/-! ## What reading gives -/

theorem mem_takeDirection {segments : List (List Char)} {p : List Char} (h : p ∈ (takeDirection segments).1) :
    p ∈ segments := by
  unfold takeDirection at h
  split at h
  · exact List.dropLast_subset segments h
  · exact h

theorem named_of_mem_segments {cs p : List Char} (h : p ∈ segments cs) (d : Direction) :
    SortKey.Named ⟨.ofList p, d⟩ := by
  obtain ⟨hmem, hne⟩ := List.mem_filter.mp h
  obtain ⟨piece, hpiece, rfl⟩ := List.mem_map.mp hmem
  refine ⟨?_, ?_, ?_⟩
  · intro e
    have := congrArg String.toList e
    simp_all
  · rw [String.toList_ofList]
    intro hc
    have := (of_mem_pieces hpiece (mem_of_mem_strip hc)).2
    exact absurd this (by decide)
  · rw [String.toList_ofList]
    exact stripped_strip piece

theorem named_of_parseValue {value : String} {s : Sorting} (h : parseValue value = .ok s) :
    ∀ key ∈ s, key.Named := by
  unfold parseValue at h
  split at h
  · cases h
    exact fun _ hk => absurd hk List.not_mem_nil
  split at h
  · cases h
  cases h
  rename_i taken
  intro key hk
  obtain ⟨p, hp, rfl⟩ := List.mem_map.mp hk
  have hmem : p ∈ (takeDirection (segments value.toList)).1 := by rw [taken]; exact hp
  exact named_of_mem_segments (mem_takeDirection hmem) _

/-- Only named keys come out of query values. -/
theorem named_of_parse : ∀ {vs : List String} {s : Sorting}, parse vs = .ok s → ∀ key ∈ s, key.Named
  | [], s, h => by
    cases h
    exact fun _ hk => absurd hk List.not_mem_nil
  | value :: vs, s, h => by
    unfold parse at h
    split at h
    · cases h
    rename_i keys hkeys
    split at h
    · cases h
    rename_i rest hrest
    cases h
    intro key hk
    rcases List.mem_append.mp hk with hk | hk
    · exact named_of_parseValue hkeys key hk
    · exact named_of_parse hrest key hk

/-! ## The round trip -/

/-- Query values give a sorting back exactly when all its keys are named, be they called as directions are.
Whatever is read out of query values is so, and is written as values that read and write the same. -/
theorem parse_values_iff :
    (∀ s : Sorting, parse (values s) = .ok s ↔ ∀ key ∈ s, key.Named) ∧
    (∀ (key : SortKey) (d : Direction), d.SpelledBy key.property.toList → key.Named) ∧
    ∀ (vs : List String) (s : Sorting), parse vs = .ok s →
      (∀ key ∈ s, key.Named) ∧ parse (values s) = .ok s ∧ (parse (values s)).map values = .ok (values s) := by
  refine ⟨fun s => ⟨named_of_parse, parse_values⟩, fun key d => Direction.named_of_spelledBy, ?_⟩
  intro vs s h
  have named : ∀ key ∈ s, key.Named := named_of_parse h
  have again : parse (values s) = .ok s := parse_values named
  refine ⟨named, again, ?_⟩
  rw [again]
  rfl

/-- Properties that are called as directions come back, wherever they stood; one that ends in a no-break
space does not. -/
theorem parse_values_named_as_directions :
    let vs := [" a, DESC ,\u3000desc", "asc,Asc", " ,\u00a0"]
    let s : Sorting := [⟨"a", .descending⟩, ⟨"DESC", .descending⟩, ⟨"asc", .ascending⟩]
    parse vs = .ok s ∧ parse (values s) = .ok s ∧ (parse (values s)).map values = .ok (values s) ∧
      Direction.descending.SpelledBy "DESC".toList ∧ SortKey.Named ⟨"DESC", .descending⟩ ∧
      parse (values [⟨"a\u00a0", .ascending⟩]) ≠ .ok [⟨"a\u00a0", .ascending⟩] := by
  intro vs s
  have read : parse vs = .ok s := rfl
  have spelled : Direction.descending.SpelledBy "DESC".toList := Direction.ofWord?_eq_some_iff.mp rfl
  obtain ⟨iff, direction, again⟩ := parse_values_iff
  obtain ⟨-, same, rewritten⟩ := again vs s read
  refine ⟨read, same, rewritten, spelled, direction ⟨"DESC", .descending⟩ _ spelled, fun h => ?_⟩
  exact absurd ((iff _).mp h _ List.mem_cons_self) (by decide)

end Sorting

end Pagemark
