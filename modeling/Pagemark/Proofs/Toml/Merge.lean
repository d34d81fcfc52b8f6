/-
  Pagemark.Proofs.Toml.Merge — what a value laid over another one holds.

  The entries of the upper table are laid over the lower one in turn. As long as their keys are all
  different, what the joined table holds under a key depends on what the two hold there and on nothing
  else; so it goes for the fields of a section as well, when both tables hold a table there or nothing.
  Two values are joined only when both are tables. What comes out is then neither of them, but a table
  again, which makes no difference to a reader that takes no tables (`Alike`).

  Proved: `lookup_mergeEntries`, `Sectioned.at?_merge` — by entries and by fields of sections;
  `alike_overlay` — the upper value where there is one, and otherwise the lower one.
-/

import Mathlib.Data.List.Nodup
import Pagemark.Toml.Value

namespace Pagemark.Toml

/-! ## Entries -/

theorem mem_of_lookup {α : Type} {key : String} {v : α} {entries : List (String × α)}
    (h : entries.lookup key = some v) : (key, v) ∈ entries := by
  obtain ⟨before, behind, rfl, -⟩ := List.lookup_eq_some_iff.mp h
  exact List.mem_append_right before List.mem_cons_self

theorem lookup_update {α : Type} (key k : String) (f : Option α → α) (entries : List (String × α)) :
    (update key f entries).lookup k = if k = key then some (f (entries.lookup key)) else entries.lookup k := by
  induction entries with
  | nil =>
    by_cases h : k = key
    · simp [update, h]
    · simp [update, h, List.lookup_cons, beq_eq_false_iff_ne.mpr h]
  | cons entry entries ih =>
    obtain ⟨other, v⟩ := entry
    by_cases hother : other = key
    · subst hother
      by_cases h : k = other
      · simp [update, h]
      · simp [update, h, List.lookup_cons, beq_eq_false_iff_ne.mpr h]
    · by_cases h : k = other
      · subst h
        simp [update, hother]
      · have hkey : (key == other) = false := beq_eq_false_iff_ne.mpr (Ne.symm hother)
        simp [update, hother, List.lookup_cons, beq_eq_false_iff_ne.mpr h, hkey, ih]

theorem keys_update {α : Type} (key : String) (f : Option α → α) (entries : List (String × α)) :
    (update key f entries).map Prod.fst
      = if key ∈ entries.map Prod.fst then entries.map Prod.fst else entries.map Prod.fst ++ [key] := by
  induction entries with
  | nil => rfl
  | cons entry entries ih =>
    obtain ⟨other, v⟩ := entry
    by_cases h : other = key
    · simp [update, h]
    · by_cases hin : key ∈ entries.map Prod.fst
      · simp [update, h, ih, hin]
      · simp [update, h, ih, hin, Ne.symm h]

theorem nodup_update {α : Type} {entries : List (String × α)} (h : (entries.map Prod.fst).Nodup) (key : String)
    (f : Option α → α) : ((update key f entries).map Prod.fst).Nodup := by
  rw [keys_update]
  split
  · exact h
  · rename_i hkey
    exact List.nodup_append.mpr ⟨h, List.nodup_singleton key, by
      rintro k hk _ hk' rfl
      exact hkey (List.mem_singleton.mp hk' ▸ hk)⟩

theorem mem_update {α : Type} {key : String} {f : Option α → α} {entries : List (String × α)} {entry : String × α}
    (h : entry ∈ update key f entries) : entry ∈ entries ∨ ∃ old, entry.2 = f old := by
  induction entries with
  | nil => exact .inr ⟨none, by rw [List.mem_singleton.mp h]⟩
  | cons first entries ih =>
    obtain ⟨other, v⟩ := first
    unfold update at h
    split at h
    · rcases List.mem_cons.mp h with rfl | h
      · exact .inr ⟨some v, rfl⟩
      · exact .inl (List.mem_cons_of_mem _ h)
    · rcases List.mem_cons.mp h with rfl | h
      · exact .inl List.mem_cons_self
      · exact (ih h).imp_left (List.mem_cons_of_mem _)

/-! ## Tables -/

namespace Value

/-- What a table holds under a key. -/
def child? (key : String) : Value → Option Value
  | .table entries => entries.lookup key
  | _ => none

/-- What a table holds under a key of the table under another one. -/
def at? (v : Value) (part field : String) : Option Value := (v.child? part).bind (·.child? field)

/-- A table with one entry for each of its keys. -/
def Tabular (v : Value) : Prop := ∃ entries, v = .table entries ∧ (entries.map Prod.fst).Nodup

theorem tabular_empty : empty.Tabular := ⟨[], rfl, List.nodup_nil⟩

theorem tabular_singleton (key : String) (v : Value) : (Value.table [(key, v)]).Tabular :=
  ⟨_, rfl, List.nodup_singleton key⟩

/-- What there is of an upper and a lower value, one laid over the other. -/
def overlay : Option Value → Option Value → Option Value
  | under, none => under
  | none, some upper => some upper
  | some under, some upper => some (under.merge upper)

theorem lookup_mergeEntries {upper : List (String × Value)} (h : (upper.map Prod.fst).Nodup)
    (under : List (String × Value)) (key : String) :
    (mergeEntries under upper).lookup key = overlay (under.lookup key) (upper.lookup key) := by
  induction upper generalizing under with
  | nil =>
    rw [mergeEntries]
    rfl
  | cons entry upper ih =>
    obtain ⟨k, v⟩ := entry
    obtain ⟨hk, h⟩ := List.nodup_cons.mp h
    rw [mergeEntries, ih h, lookup_update, List.lookup_cons]
    by_cases hkey : key = k
    · subst hkey
      -- No later entry has this key.
      have absent : upper.lookup key = none := by
        rw [List.lookup_eq_none_iff]
        intro e he
        exact bne_iff_ne.mpr fun same => hk (List.mem_map.mpr ⟨e, he, same.symm⟩)
      rw [absent, if_pos rfl, beq_self_eq_true]
      cases under.lookup key with
      | none => rfl
      | some old => rfl
    · rw [if_neg hkey, beq_eq_false_iff_ne.mpr hkey]

theorem nodup_mergeEntries {under : List (String × Value)} (h : (under.map Prod.fst).Nodup)
    (upper : List (String × Value)) : ((mergeEntries under upper).map Prod.fst).Nodup := by
  induction upper generalizing under with
  | nil =>
    rw [mergeEntries]
    exact h
  | cons entry upper ih =>
    rw [mergeEntries]
    exact ih (nodup_update h _ _)

theorem merge_table (under upper : List (String × Value)) :
    (table under).merge (.table upper) = .table (mergeEntries under upper) := by
  rw [merge]

namespace Tabular

variable {under upper : Value}

protected theorem merge (hunder : under.Tabular) (hupper : upper.Tabular) : (under.merge upper).Tabular := by
  obtain ⟨old, rfl, hold⟩ := hunder
  obtain ⟨entries, rfl, -⟩ := hupper
  exact ⟨_, merge_table old entries, nodup_mergeEntries hold entries⟩

theorem child?_merge (hunder : under.Tabular) (hupper : upper.Tabular) (key : String) :
    (under.merge upper).child? key = overlay (under.child? key) (upper.child? key) := by
  obtain ⟨old, rfl, -⟩ := hunder
  obtain ⟨entries, rfl, distinct⟩ := hupper
  rw [merge_table]
  exact lookup_mergeEntries distinct old key

end Tabular

/-! ## Sections -/

/-- A table that holds a table under each of some keys, or nothing. -/
structure Sectioned (parts : List String) (v : Value) : Prop where
  tabular : v.Tabular
  sections : ∀ part ∈ parts, ∀ w, v.child? part = some w → w.Tabular

theorem child?_singleton (key k : String) (v : Value) :
    (Value.table [(key, v)]).child? k = if k = key then some v else none := by
  by_cases h : k = key
  · simp [child?, h]
  · simp [child?, List.lookup_cons, beq_eq_false_iff_ne.mpr h, h]

theorem nested_cons (key : String) (path : List String) (v : Value) :
    nested (key :: path) v = .table [(key, nested path v)] := rfl

theorem sectioned_nested {parts path : List String} (hne : path ≠ []) (h : ∀ part ∈ parts, path ≠ [part]) (v : Value) :
    (nested path v).Sectioned parts := by
  obtain ⟨key, path, rfl⟩ := List.exists_cons_of_ne_nil hne
  refine ⟨tabular_singleton _ _, fun part hpart w hw => ?_⟩
  rw [nested_cons, child?_singleton] at hw
  split at hw
  · rename_i same
    subst same
    cases path with
    | nil => exact absurd rfl (h part hpart)
    | cons field more =>
      cases hw
      exact tabular_singleton _ _
  · cases hw

theorem at?_nested (p f : String) (more : List String) (v : Value) (part field : String) :
    (nested (p :: f :: more) v).at? part field = if p = part ∧ f = field then some (nested more v) else none := by
  rw [nested_cons, at?, child?_singleton]
  by_cases hp : part = p
  · rw [if_pos hp, Option.bind_some, nested_cons, child?_singleton]
    simp [hp, eq_comm]
  · rw [if_neg hp, if_neg fun h => hp h.1.symm]
    rfl

namespace Sectioned

variable {parts : List String} {under upper : Value}

theorem child?_cases (h : Sectioned parts under) {part : String} (hpart : part ∈ parts) :
    under.child? part = none ∨ ∃ w : Value, under.child? part = some w ∧ w.Tabular := by
  cases hw : under.child? part with
  | none => exact .inl rfl
  | some w => exact .inr ⟨w, rfl, h.sections part hpart w hw⟩

theorem merge (hunder : Sectioned parts under) (hupper : Sectioned parts upper) :
    Sectioned parts (under.merge upper) := by
  refine ⟨hunder.tabular.merge hupper.tabular, fun part hpart w hw => ?_⟩
  rw [hunder.tabular.child?_merge hupper.tabular] at hw
  rcases hupper.child?_cases hpart with absent | ⟨u, present, hu⟩
  · rw [absent] at hw
    exact hunder.sections part hpart w hw
  · rcases hunder.child?_cases hpart with absent | ⟨o, present', ho⟩
    · rw [absent, present] at hw
      obtain rfl := Option.some.inj hw
      exact hu
    · rw [present', present] at hw
      obtain rfl := Option.some.inj hw
      exact ho.merge hu

theorem at?_merge (hunder : Sectioned parts under) (hupper : Sectioned parts upper) {part : String}
    (hpart : part ∈ parts) (field : String) :
    (under.merge upper).at? part field = overlay (under.at? part field) (upper.at? part field) := by
  unfold at?
  rw [hunder.tabular.child?_merge hupper.tabular]
  rcases hupper.child?_cases hpart with absent | ⟨u, present, hu⟩
  · rw [absent]
    rfl
  · rcases hunder.child?_cases hpart with absent | ⟨o, present', ho⟩
    · rw [absent, present]
      cases hfield : u.child? field with
      | none => simp [overlay, hfield]
      | some w => simp [overlay, hfield]
    · rw [present', present]
      exact ho.child?_merge hu field

/-! ### Layers -/

theorem foldl_merge {layers : List Value} (hunder : Sectioned parts under)
    (hlayers : ∀ layer ∈ layers, Sectioned parts layer) : Sectioned parts (layers.foldl Value.merge under) := by
  induction layers generalizing under with
  | nil => exact hunder
  | cons layer layers ih =>
    obtain ⟨first, others⟩ := List.forall_mem_cons.mp hlayers
    exact ih (hunder.merge first) others

/-- What layers hold for a field depends on what each of them holds for it. -/
theorem at?_foldl_merge {layers : List Value} (hunder : Sectioned parts under)
    (hlayers : ∀ layer ∈ layers, Sectioned parts layer) {part : String} (hpart : part ∈ parts) (field : String) :
    (layers.foldl Value.merge under).at? part field
      = layers.foldl (fun held layer => overlay held (layer.at? part field)) (under.at? part field) := by
  induction layers generalizing under with
  | nil => rfl
  | cons layer layers ih =>
    obtain ⟨first, others⟩ := List.forall_mem_cons.mp hlayers
    rw [List.foldl_cons, List.foldl_cons, ih (hunder.merge first) others, hunder.at?_merge first hpart]

end Sectioned

/-! ## Readers that take no tables -/

/-- The same value, or two tables. -/
inductive Alike : Option Value → Option Value → Prop
  | refl (v : Option Value) : Alike v v
  | tables (entries entries' : List (String × Value)) : Alike (some (.table entries)) (some (.table entries'))

namespace Alike

theorem trans {a b c : Option Value} (h : Alike a b) (h' : Alike b c) : Alike a c := by
  cases h with
  | refl => exact h'
  | tables entries =>
    cases h' with
    | refl => exact .tables _ _
    | tables => exact .tables _ _

theorem isSome_eq {a b : Option Value} (h : Alike a b) : a.isSome = b.isSome := by
  cases h with
  | refl => rfl
  | tables => rfl

theorem eq_of_not_table {a b : Option Value} (h : Alike a b) (hb : ∀ entries, b ≠ some (.table entries)) : a = b := by
  cases h with
  | refl => rfl
  | tables entries entries' => exact absurd rfl (hb entries')

theorem or {a b : Option Value} (h : Alike a b) (upper : Option Value) : Alike (upper.or a) (upper.or b) := by
  cases upper with
  | none => exact h
  | some u => exact .refl _

end Alike

/-- Only tables are joined; any other value covers what is below it. -/
theorem alike_overlay (under upper : Option Value) : Alike (overlay under upper) (upper.or under) := by
  cases upper with
  | none => exact .refl _
  | some u =>
    cases under with
    | none => exact .refl _
    | some o =>
      show Alike (some (o.merge u)) (some u)
      unfold merge
      split
      · split
        · exact .tables _ _
        · exact .refl _
      · exact .refl _

end Value

end Pagemark.Toml
