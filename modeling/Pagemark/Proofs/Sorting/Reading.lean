/-
  Pagemark.Proofs.Sorting.Reading — what query values mean, value by value.

  A value lists texts: its segments between commas, without the blanks at their ends, and without
  those that hold nothing else. Only the last text listed can be the direction, and it is when it is a
  direction word; anywhere else such a word is a property. So a value means nothing at all, properties in
  ascending order, properties in the direction that it names (`Means`), or it names a direction of
  nothing (`Bare`), which is the only fault there is.

  Values are read one after another. What they mean is put together in their order, and the first
  one at fault is what is reported, whatever stands behind it: so lists of values that are joined
  are read as one after the other.

  Proved: `lists_iff` — the texts of a value are its segments; `parseValue_of_means`,
  `parseValue_of_bare`, `means_or_bare` — what is read of each kind of value, and that there are no
  others; `parse_append`, `parse_eq_ok_iff`, `parse_eq_error_iff` — and of a list of values;
  `parse_means_each_value` — together.
-/

import Pagemark.Proofs.Sorting

namespace Pagemark.Sorting

open Text

/-! ## Texts of a value -/

/-- The texts that a value lists: its segments between commas that are not blank, without the blanks at
their ends. -/
def Lists (value : String) (texts : List String) : Prop :=
  ∃ segments, CutInto ',' value.toList segments ∧
    List.Forall₂ (fun segment text => StripsTo isBlank segment text.toList)
      (segments.filter fun segment => !segment.all isBlank) texts

/-- A segment is dropped when nothing is left of it, which is when it is blank. -/
theorem segments_eq (cs : List Char) :
    segments cs = ((pieces (· == ',') cs).filter fun segment => !segment.all isBlank).map (strip isBlank) := by
  have same : ∀ segment, (!(strip isBlank segment).isEmpty) = !segment.all isBlank := by
    intro segment
    rw [Bool.eq_iff_iff]
    simp [strip_eq_nil_iff]
  rw [segments, List.filter_map]
  exact congrArg _ (List.filter_congr fun segment _ => same segment)

theorem lists_iff {value : String} {texts : List String} :
    Lists value texts ↔ segments value.toList = texts.map String.toList := by
  have stripped (kept : List (List Char)) : kept.map (strip isBlank) = texts.map String.toList ↔
      List.Forall₂ (fun segment text => StripsTo isBlank segment text.toList) kept texts := by
    rw [← List.forall₂_eq_eq_eq, List.forall₂_map_left_iff, List.forall₂_map_right_iff]
    simp only [strip_eq_iff]
  rw [segments_eq, stripped]
  constructor
  · rintro ⟨all, hcut, htexts⟩
    rwa [pieces_eq_iff.mpr hcut]
  · intro h
    exact ⟨_, pieces_eq_iff.mp rfl, h⟩

/-- Every value lists texts. -/
theorem exists_lists (value : String) : ∃ texts, Lists value texts := by
  refine ⟨(segments value.toList).map String.ofList, lists_iff.mpr ?_⟩
  simp

/-! ## One value -/

/-- The value names a direction, and no property for it. -/
def Bare (value : String) : Prop :=
  ∃ (word : String) (d : Direction), Lists value [word] ∧ d.SpelledBy word.toList

/-- The keys that a value stands for. -/
inductive Means (value : String) : Sorting → Prop
  /-- Nothing is listed. -/
  | blank : Lists value [] → Means value []
  /-- The last text is no direction: properties alone. -/
  | ascending {texts : List String} {last : String} : Lists value (texts ++ [last]) →
      (∀ d : Direction, ¬ d.SpelledBy last.toList) → Means value ((texts ++ [last]).map (⟨·, .ascending⟩))
  /-- The last text is the direction of the others. -/
  | directed {texts : List String} {last : String} {d : Direction} : Lists value (texts ++ [last]) →
      d.SpelledBy last.toList → texts ≠ [] → Means value (texts.map (⟨·, d⟩))

theorem takeDirection_append (texts : List String) (last : String) :
    takeDirection ((texts ++ [last]).map String.toList)
      = match Direction.ofWord? last.toList with
        | some d => (texts.map String.toList, d)
        | none => ((texts ++ [last]).map String.toList, .ascending) := by
  have hlast : ((texts ++ [last]).map String.toList).getLast? = some last.toList := by simp
  have hothers : ((texts ++ [last]).map String.toList).dropLast = texts.map String.toList := by simp
  cases hword : Direction.ofWord? last.toList with
  | none => simp only [takeDirection, hlast, Option.bind_some, hword]
  | some d => simp only [takeDirection, hlast, hothers, Option.bind_some, hword]

theorem parseValue_of_lists {value : String} {texts : List String} {last : String} (h : Lists value (texts ++ [last])) :
    parseValue value
      = match Direction.ofWord? last.toList with
        | some d => if texts = [] then .error (.missingProperty value) else .ok (texts.map (⟨·, d⟩))
        | none => .ok ((texts ++ [last]).map (⟨·, .ascending⟩)) := by
  have listed := lists_iff.mp h
  unfold parseValue
  rw [listed]
  split
  · rename_i e
    simp at e
  rw [takeDirection_append]
  cases Direction.ofWord? last.toList with
  | none => simp
  | some d => cases texts with
    | nil => simp
    | cons text texts => simp

section Kinds

variable {value : String}

theorem parseValue_of_means {keys : Sorting} (h : Means value keys) : parseValue value = .ok keys := by
  cases h with
  | blank hlists =>
    unfold parseValue
    rw [lists_iff.mp hlists]
    rfl
  | ascending hlists hlast =>
    have hword : Direction.ofWord? _ = none := Option.eq_none_iff_forall_ne_some.mpr fun d hd =>
      hlast d (Direction.ofWord?_eq_some_iff.mp hd)
    rw [parseValue_of_lists hlists, hword]
  | directed hlists hlast hne =>
    rw [parseValue_of_lists hlists, Direction.ofWord?_eq_some_iff.mpr hlast]
    exact if_neg hne

theorem parseValue_of_bare (h : Bare value) : parseValue value = .error (.missingProperty value) := by
  obtain ⟨word, d, hlists, hword⟩ := h
  have halone : Lists value ([] ++ [word]) := hlists
  rw [parseValue_of_lists halone, Direction.ofWord?_eq_some_iff.mpr hword]
  exact if_pos rfl

/-- The last text, if there is one, is a direction or is none. -/
theorem means_or_bare (value : String) : (∃ keys, Means value keys) ∨ Bare value := by
  obtain ⟨listed, hlists⟩ := exists_lists value
  rcases List.eq_nil_or_concat' listed with rfl | ⟨texts, last, rfl⟩
  · exact Or.inl ⟨_, .blank hlists⟩
  by_cases hword : ∃ d : Direction, d.SpelledBy last.toList
  · obtain ⟨d, hd⟩ := hword
    by_cases hne : texts = []
    · subst hne
      exact Or.inr ⟨last, d, hlists, hd⟩
    · exact Or.inl ⟨_, .directed hlists hd hne⟩
  · exact Or.inl ⟨_, .ascending hlists fun d hd => hword ⟨d, hd⟩⟩

theorem parseValue_eq_ok_iff {keys : Sorting} : parseValue value = .ok keys ↔ Means value keys := by
  constructor
  · intro h
    rcases means_or_bare value with ⟨keys', hmeans⟩ | hbare
    · rw [parseValue_of_means hmeans] at h
      cases h
      exact hmeans
    · rw [parseValue_of_bare hbare] at h
      cases h
  · exact parseValue_of_means

theorem parseValue_eq_error_iff {e : SortError} : parseValue value = .error e ↔ Bare value ∧ e = .missingProperty value := by
  constructor
  · intro h
    rcases means_or_bare value with ⟨keys, hmeans⟩ | hbare
    · rw [parseValue_of_means hmeans] at h
      cases h
    · rw [parseValue_of_bare hbare] at h
      cases h
      exact ⟨hbare, rfl⟩
  · rintro ⟨hbare, rfl⟩
    exact parseValue_of_bare hbare

theorem not_bare_iff : ¬ Bare value ↔ ∃ keys, Means value keys := by
  constructor
  · intro h
    exact (means_or_bare value).resolve_right h
  · rintro ⟨keys, hmeans⟩ hbare
    have hread := parseValue_of_means hmeans
    rw [parseValue_of_bare hbare] at hread
    cases hread

end Kinds

/-! ## Values in their order -/

/-- Values behind others are read after them. -/
theorem parse_append (vs ws : List String) :
    parse (vs ++ ws)
      = match parse vs with
        | .error e => .error e
        | .ok a => (parse ws).map (a ++ ·) := by
  induction vs with
  | nil =>
    show parse ws = (parse ws).map ([] ++ ·)
    cases parse ws with
    | error e => rfl
    | ok b => rfl
  | cons v vs ih =>
    rw [List.cons_append, parse, parse, ih]
    cases parseValue v with
    | error e => rfl
    | ok keys =>
      cases parse vs with
      | error e => rfl
      | ok a =>
        cases parse ws with
        | error e => rfl
        | ok b => simp [Except.map]

/-- A list is read when each of its values means something, as all of it in order. -/
theorem parse_eq_ok_iff {vs : List String} {s : Sorting} :
    parse vs = .ok s ↔ ∃ parts, List.Forall₂ Means vs parts ∧ s = parts.flatten := by
  induction vs generalizing s with
  | nil =>
    constructor
    · intro h
      cases h
      exact ⟨[], .nil, rfl⟩
    · rintro ⟨parts, hparts, rfl⟩
      cases hparts
      rfl
  | cons v vs ih =>
    constructor
    · intro h
      rw [parse] at h
      split at h
      · cases h
      rename_i keys hkeys
      split at h
      · cases h
      rename_i rest hrest
      cases h
      obtain ⟨parts, hparts, rfl⟩ := ih.mp hrest
      exact ⟨keys :: parts, .cons (parseValue_eq_ok_iff.mp hkeys) hparts, rfl⟩
    · rintro ⟨parts, hparts, rfl⟩
      cases hparts with
      | cons hmeans hmore =>
        rw [parse, parseValue_of_means hmeans, ih.mpr ⟨_, hmore, rfl⟩]
        rfl

/-- The first value at fault is reported. -/
theorem parse_eq_error_iff {vs : List String} {e : SortError} :
    parse vs = .error e ↔
      ∃ front v back, vs = front ++ v :: back ∧ (∀ u ∈ front, ¬ Bare u) ∧ Bare v ∧ e = .missingProperty v := by
  constructor
  · intro h
    induction vs with
    | nil => cases h
    | cons v vs ih =>
      rw [parse] at h
      split at h
      · rename_i hvalue
        cases h
        obtain ⟨hbare, rfl⟩ := parseValue_eq_error_iff.mp hvalue
        exact ⟨[], v, vs, rfl, fun _ hu => absurd hu List.not_mem_nil, hbare, rfl⟩
      rename_i keys hkeys
      split at h
      · rename_i hrest
        cases h
        obtain ⟨front, w, back, rfl, hfront, hbare⟩ := ih hrest
        have hv : ¬ Bare v := not_bare_iff.mpr ⟨keys, parseValue_eq_ok_iff.mp hkeys⟩
        exact ⟨v :: front, w, back, rfl, List.forall_mem_cons.mpr ⟨hv, hfront⟩, hbare⟩
      · cases h
  · rintro ⟨front, v, back, rfl, hfront, hbare, rfl⟩
    induction front with
    | nil => rw [List.nil_append, parse, parseValue_of_bare hbare]
    | cons u front ih =>
      obtain ⟨hu, hfront⟩ := List.forall_mem_cons.mp hfront
      obtain ⟨keys, hmeans⟩ := not_bare_iff.mp hu
      rw [List.cons_append, parse, parseValue_of_means hmeans, ih hfront]

theorem not_bare_of_means_each {vs : List String} {parts : List Sorting} (h : List.Forall₂ Means vs parts) :
    ∀ v ∈ vs, ¬ Bare v := by
  induction h with
  | nil => exact fun _ hv => absurd hv List.not_mem_nil
  | cons hmeans _ ih => exact List.forall_mem_cons.mpr ⟨not_bare_iff.mpr ⟨_, hmeans⟩, ih⟩

theorem exists_parse_iff {vs : List String} : (∃ s, parse vs = .ok s) ↔ ∀ v ∈ vs, ¬ Bare v := by
  constructor
  · rintro ⟨s, h⟩
    obtain ⟨parts, hparts, -⟩ := parse_eq_ok_iff.mp h
    exact not_bare_of_means_each hparts
  · intro h
    cases hparse : parse vs with
    | ok s => exact ⟨s, rfl⟩
    | error e =>
      obtain ⟨front, v, back, rfl, -, hbare, -⟩ := parse_eq_error_iff.mp hparse
      exact absurd hbare (h v (List.mem_append_right _ List.mem_cons_self))

/-! ## All values -/

/-- Joined lists of values are read as one after the other, and what is at fault in the first is reported
whatever follows. A list is at fault exactly when one of its values is bare; the first of these is
reported as it stands, and no other fault is. Else the list is read as what its values mean, in order. -/
theorem parse_means_each_value (vs : List String) :
    (∀ ws a b, parse vs = .ok a → parse ws = .ok b → parse (vs ++ ws) = .ok (a ++ b)) ∧
    (∀ ws e, parse vs = .error e → parse (vs ++ ws) = .error e) ∧
    ((∃ s, parse vs = .ok s) ↔ ∀ v ∈ vs, ¬ Bare v) ∧
    (∀ e, parse vs = .error e ↔
      ∃ front v back, vs = front ++ v :: back ∧ (∀ u ∈ front, ¬ Bare u) ∧ Bare v ∧ e = .missingProperty v) ∧
    (∀ value, parse vs ≠ .error (.unknownDirection value)) ∧
    ∀ s, parse vs = .ok s ↔ ∃ parts, List.Forall₂ Means vs parts ∧ s = parts.flatten := by
  refine ⟨?_, ?_, exists_parse_iff, fun e => parse_eq_error_iff, ?_, fun s => parse_eq_ok_iff⟩
  · intro ws a b ha hb
    rw [parse_append, ha, hb]
    rfl
  · intro ws e h
    rw [parse_append, h]
  · intro value h
    obtain ⟨_, _, _, -, -, -, hfault⟩ := parse_eq_error_iff.mp h
    cases hfault

/-- A direction behind blank segments, a blank value, a property that is called as its direction, and a
direction of nothing between other values. -/
theorem parse_means_directions_and_properties :
    let vs := [" a ,DESC,,\u00a0", " ,", "desc,Desc"]
    let s : Sorting := [⟨"a", .descending⟩, ⟨"desc", .descending⟩]
    let ws := ["x", "\u3000,aSc ", "desc"]
    parse vs = .ok s ∧ parse (vs ++ ["x"]) = .ok (s ++ [⟨"x", .ascending⟩]) ∧
      (∃ parts, List.Forall₂ Means vs parts ∧ s = parts.flatten) ∧ ¬ Bare "desc,Desc" ∧
      parse (ws ++ vs) = .error (.missingProperty "\u3000,aSc ") ∧ Bare "\u3000,aSc " := by
  intro vs s ws
  have read : parse vs = .ok s := rfl
  have fault : parse ws = .error (.missingProperty "\u3000,aSc ") := rfl
  obtain ⟨joined, -, readable, -, -, meaning⟩ := parse_means_each_value vs
  obtain ⟨-, first, -, faulty, -, -⟩ := parse_means_each_value ws
  obtain ⟨_, v, _, -, -, bare, hv⟩ := (faulty _).mp fault
  cases hv
  exact ⟨read, joined ["x"] s _ read rfl, (meaning s).mp read, readable.mp ⟨s, read⟩ _ (by simp [vs]),
    first vs _ fault, bare⟩

end Pagemark.Sorting
