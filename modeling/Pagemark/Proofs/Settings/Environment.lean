/-
  Pagemark.Proofs.Settings.Environment — what the variables of the environment set.

  Each variable makes a table of its own, with one entry below another along its path, and these tables
  are laid over one another like files. Where no variable stands for a section as a whole and no two
  variables set the same field, the layer of the environment holds for a field what the one variable
  sets that is named for it, or what is below that one for a deeper path.

  Proved: `sectioned_layer`, `at?_layer` — what the layer holds; `path?_ne_section` — no
  variable with two underscores behind a section's name stands for the section.
-/

import Pagemark.Proofs.Text.Cut
import Pagemark.Proofs.Toml.Merge
import Pagemark.Settings.Environment

namespace Pagemark.Settings.Environment

open Text Toml
open Value (nested overlay)

/-! ## Variables -/

/-- What a variable sets a field to. -/
def sets? (part field : String) (setting : String × String) : Option Value :=
  match path? setting.1 with
  | some (p :: f :: more) => if p = part ∧ f = field then some (nested more (ofText setting.2)) else none
  | _ => none

/-- No variable stands for a section as a whole. -/
def FieldsOnly (parts : List String) (settings : List (String × String)) : Prop :=
  ∀ setting ∈ settings, ∀ part ∈ parts, path? setting.1 ≠ some [part]

/-- At most one variable sets the field. -/
def SetOnce (part field : String) (settings : List (String × String)) : Prop :=
  (settings.filterMap (sets? part field)).length ≤ 1

theorem path?_ne_nil (name : String) : path? name ≠ some [] := by
  unfold path?
  simp only
  split
  · simp
  · split
    · simp
    · simp [pieces]

/-- The layer of one variable. -/
theorem at?_of_layer {setting : String × String} {layer : Value} (h : entry? setting = some layer) {part : String}
    (hpart : path? setting.1 ≠ some [part]) (field : String) : layer.at? part field = sets? part field setting := by
  obtain ⟨path, hpath, rfl⟩ := Option.map_eq_some_iff.mp h
  rw [sets?, hpath]
  match path, hpath with
  | [], hpath => exact absurd hpath (path?_ne_nil _)
  | [key], hpath =>
    -- A key on its own may be anything but the section.
    have other : part ≠ key := by
      rintro rfl
      exact hpart hpath
    rw [Value.nested_cons, Value.at?, Value.child?_singleton, if_neg other]
    rfl
  | p :: f :: more, _ => exact Value.at?_nested p f more _ part field

theorem sets?_of_silent {setting : String × String} (h : entry? setting = none) (part field : String) :
    sets? part field setting = none := by
  rw [sets?, Option.map_eq_none_iff.mp h]

/-! ## The layer -/

variable {parts : List String} {settings : List (String × String)}

theorem sectioned_entries (h : FieldsOnly parts settings) :
    ∀ layer ∈ settings.filterMap entry?, layer.Sectioned parts := by
  intro layer hlayer
  obtain ⟨setting, hsetting, hentry⟩ := List.mem_filterMap.mp hlayer
  obtain ⟨path, hpath, rfl⟩ := Option.map_eq_some_iff.mp hentry
  refine Value.sectioned_nested ?_ ?_ _
  · rintro rfl
    exact path?_ne_nil _ hpath
  · rintro part hpart rfl
    exact h setting hsetting part hpart hpath

theorem sectioned_empty (parts : List String) : Value.empty.Sectioned parts :=
  ⟨Value.tabular_empty, fun _ _ _ h => by cases h⟩

theorem sectioned_layer (h : FieldsOnly parts settings) : (layer settings).Sectioned parts :=
  (sectioned_empty parts).foldl_merge (sectioned_entries h)

/-- A value that is the only one of its kind stays as it is under what holds none. -/
theorem foldl_overlay_of_once {α : Type} {value? : α → Option Value} {sources : List α}
    (h : (sources.filterMap value?).length ≤ 1) :
    sources.foldl (fun held source => overlay held (value? source)) none = sources.findSome? value? := by
  have none_left {sources : List α} (h : sources.filterMap value? = []) (held : Option Value) :
      sources.foldl (fun held source => overlay held (value? source)) held = held := by
    induction sources with
    | nil => rfl
    | cons source sources ih =>
      obtain ⟨first, others⟩ := List.forall_mem_cons.mp (List.filterMap_eq_nil_iff.mp h)
      rw [List.foldl_cons, first]
      exact ih (List.filterMap_eq_nil_iff.mpr others)
  induction sources with
  | nil => rfl
  | cons source sources ih =>
    cases hvalue : value? source with
    | none =>
      rw [List.filterMap_cons_none hvalue] at h
      rw [List.foldl_cons, List.findSome?_cons, hvalue]
      exact ih h
    | some v =>
      rw [List.filterMap_cons_some hvalue, List.length_cons] at h
      have empty : sources.filterMap value? = [] := List.length_eq_zero_iff.mp (by omega)
      rw [List.foldl_cons, List.findSome?_cons, hvalue]
      exact none_left empty (some v)

theorem foldl_entries (h : FieldsOnly parts settings) {part : String} (hpart : part ∈ parts) (field : String)
    (held : Option Value) :
    (settings.filterMap entry?).foldl (fun held layer => overlay held (layer.at? part field)) held
      = settings.foldl (fun held setting => overlay held (sets? part field setting)) held := by
  induction settings generalizing held with
  | nil => rfl
  | cons setting settings ih =>
    obtain ⟨first, others⟩ := List.forall_mem_cons.mp h
    cases hentry : entry? setting with
    | none =>
      rw [List.filterMap_cons_none hentry, ih others, List.foldl_cons, sets?_of_silent hentry]
      rfl
    | some layer =>
      rw [List.filterMap_cons_some hentry, List.foldl_cons, List.foldl_cons, ih others,
        at?_of_layer hentry (first part hpart)]

theorem at?_layer (h : FieldsOnly parts settings) {part field : String} (hpart : part ∈ parts)
    (once : SetOnce part field settings) : (layer settings).at? part field = settings.findSome? (sets? part field) := by
  rw [layer, (sectioned_empty parts).at?_foldl_merge (sectioned_entries h) hpart, foldl_entries h hpart]
  exact foldl_overlay_of_once once

/-! ## Names of fields -/

theorem replaceAll_underscores {part : List Char} (h : ∀ c ∈ part, c ≠ '_') (rest : List Char) :
    ∃ more, replaceAll ['_', '_'] ['.'] (part ++ '_' :: '_' :: rest) = part ++ '.' :: more := by
  refine ⟨replaceAll.go ['_', '_'] ['.'] rest 0, ?_⟩
  rw [replaceAll, if_neg (by decide)]
  induction part with
  | nil => rfl
  | cons c part ih =>
    obtain ⟨first, others⟩ := List.forall_mem_cons.mp h
    rw [List.cons_append, replaceAll.go, if_neg (by simp [Ne.symm first]), ih others, List.cons_append]

/-- A text that begins with something else than blanks keeps that at its beginning. -/
theorem strip_append {p : Char → Bool} {front : List Char} (hne : front ≠ []) (h : ∀ c ∈ front, p c = false)
    (rest : List Char) : ∃ rest', strip p (front ++ rest) = front ++ rest' := by
  have head : ∀ c ∈ (front ++ rest).head?, p c = false := by
    obtain ⟨c, front, rfl⟩ := List.exists_cons_of_ne_nil hne
    rintro x ⟨⟩
    exact h c List.mem_cons_self
  have tail : front.reverse.dropWhile p = front.reverse := by
    refine dropWhile_of_head fun c hc => h c ?_
    exact List.mem_reverse.mp (List.mem_of_mem_head? hc)
  rw [strip, dropWhile_of_head head, List.reverse_append, List.dropWhile_append]
  split
  · exact ⟨[], by rw [tail, List.reverse_reverse, List.append_nil]⟩
  · exact ⟨(rest.reverse.dropWhile p).reverse, by rw [List.reverse_append, List.reverse_reverse]⟩

/-- A name with two underscores behind a section's name is longer than the section's, whatever follows. -/
theorem path?_ne_section {front part : List Char} (lower : front.map Char.toLower = part ++ ['_', '_'])
    (shown : ∀ c ∈ front ++ part, Text.isBlank c = false) (letters : ∀ c ∈ part, c ≠ '_' ∧ c ≠ '.') (rest : List Char)
    (key : String) :
    path? (.ofList (['C', 'U', 'R', 'S', 'O', 'R', '_'] ++ front ++ rest)) ≠ some [key] := by
  have capitals : ∀ c ∈ ['C', 'U', 'R', 'S', 'O', 'R', '_'], Text.isBlank c = false := by simp [Text.isBlank]
  have underscores : ∀ c ∈ ['_', '_'], Text.isBlank c = false := by simp [Text.isBlank]
  obtain ⟨hfront, hpart⟩ := List.forall_mem_append.mp shown
  obtain ⟨rest₁, strip₁⟩ := strip_append (by simp) (List.forall_mem_append.mpr ⟨capitals, hfront⟩) rest
  obtain ⟨rest₂, strip₂⟩ :=
    strip_append (by simp) (List.forall_mem_append.mpr ⟨hpart, underscores⟩) (rest₁.map Char.toLower)
  obtain ⟨rest₃, replaced⟩ := replaceAll_underscores (fun c hc => (letters c hc).1) rest₂
  have marked : after? marker ((['C', 'U', 'R', 'S', 'O', 'R', '_'] ++ front ++ rest₁).map Char.toLower)
      = some (part ++ ['_', '_'] ++ rest₁.map Char.toLower) := by
    rw [List.append_assoc, List.map_append, List.map_append, lower]
    rfl
  have keys : pieces (· == '.') (part ++ '.' :: rest₃) = part :: pieces (· == '.') rest₃ :=
    pieces_append (p := (· == '.')) (beq_self_eq_true _) (fun c hc => beq_eq_false_iff_ne.mpr (letters c hc).2) rest₃
  rw [path?, String.toList_ofList, strip₁]
  dsimp only
  rw [marked]
  dsimp only
  rw [strip₂, List.append_assoc, List.cons_append, List.singleton_append, replaced, keys]
  split
  · simp
  · simp [pieces]

end Pagemark.Settings.Environment
