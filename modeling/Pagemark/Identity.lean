/-
  Pagemark.Identity — what a token is bound to.

  The identity of a request is its path and its parameters apart from the paging ones. Names
  stand in ascending order of code points, each with the values it was given in their order,
  so that two requests have the same identity exactly when they ask for the same thing.

  Proved: `canonical_insert` — adding a value keeps the names ascending and leaves no name
  without a value.
-/

namespace Pagemark

namespace Parameters

/-- Adds a value for a name to a list in ascending order of names. -/
def insert (name value : String) : List (String × List String) → List (String × List String)
  | [] => [(name, [value])]
  | (key, values) :: rest =>
    if name = key then (key, values ++ [value]) :: rest
    else if name < key then (name, [value]) :: (key, values) :: rest
    else (key, values) :: insert name value rest

/-- Ascending names, none of them without a value. -/
def Canonical (entries : List (String × List String)) : Prop :=
  entries.Pairwise (fun a b => a.1 < b.1) ∧ ∀ e ∈ entries, e.2 ≠ []

theorem mem_insert {name value : String} {entries : List (String × List String)} {e : String × List String}
    (h : e ∈ insert name value entries) : e.1 = name ∨ ∃ e' ∈ entries, e'.1 = e.1 := by
  induction entries with
  | nil => simp [insert] at h; exact Or.inl (by rw [h])
  | cons x rest ih =>
    obtain ⟨key, values⟩ := x
    unfold insert at h
    split at h
    · rename_i hk
      rcases List.mem_cons.mp h with h | h
      · exact Or.inl (by rw [h, hk])
      · exact Or.inr ⟨e, List.mem_cons_of_mem _ h, rfl⟩
    · split at h
      · rcases List.mem_cons.mp h with h | h
        · exact Or.inl (by rw [h])
        · exact Or.inr ⟨e, h, rfl⟩
      · rcases List.mem_cons.mp h with h | h
        · exact Or.inr ⟨(key, values), List.mem_cons_self, by rw [h]⟩
        · rcases ih h with h | ⟨e', he', heq⟩
          · exact Or.inl h
          · exact Or.inr ⟨e', List.mem_cons_of_mem _ he', heq⟩

theorem canonical_insert {name value : String} {entries : List (String × List String)}
    (h : Canonical entries) : Canonical (insert name value entries) := by
  induction entries with
  | nil => simp [insert, Canonical]
  | cons x rest ih =>
    obtain ⟨key, values⟩ := x
    obtain ⟨hsorted, hfull⟩ := h
    rw [List.pairwise_cons] at hsorted
    obtain ⟨hkey, hrest⟩ := hsorted
    have ih := ih ⟨hrest, fun e he => hfull e (List.mem_cons_of_mem _ he)⟩
    unfold insert
    split
    · refine ⟨List.pairwise_cons.mpr ⟨hkey, hrest⟩, fun e he => ?_⟩
      rcases List.mem_cons.mp he with he | he
      · rw [he]; simp
      · exact hfull e (List.mem_cons_of_mem _ he)
    · rename_i hne
      split
      · rename_i hlt
        refine ⟨List.pairwise_cons.mpr ⟨fun e he => ?_, List.pairwise_cons.mpr ⟨hkey, hrest⟩⟩, fun e he => ?_⟩
        · rcases List.mem_cons.mp he with he | he
          · rw [he]; exact hlt
          · exact String.lt_trans hlt (hkey e he)
        · rcases List.mem_cons.mp he with he | he
          · rw [he]; simp
          · exact hfull e he
      · rename_i hnlt
        have hgt : key < name := by
          rcases Std.lt_trichotomy key name with h | h | h
          · exact h
          · exact absurd h.symm hne
          · exact absurd h hnlt
        refine ⟨List.pairwise_cons.mpr ⟨fun e he => ?_, ih.1⟩, fun e he => ?_⟩
        · rcases mem_insert he with h | ⟨e', he', heq⟩
          · rw [h]; exact hgt
          · rw [← heq]; exact hkey e' he'
        · rcases List.mem_cons.mp he with he | he
          · rw [he]; exact hfull (key, values) List.mem_cons_self
          · exact ih.2 e he

end Parameters

/-- Parameters by name, each with its values in the order given. -/
structure Parameters where
  entries : List (String × List String)
  canonical : Parameters.Canonical entries

namespace Parameters

theorem ext {a b : Parameters} (h : a.entries = b.entries) : a = b := by
  cases a; cases b; cases h; rfl

instance : DecidableEq Parameters := fun a b =>
  if h : a.entries = b.entries then isTrue (ext h) else isFalse fun e => h (e ▸ rfl)

/-- No parameters. -/
def empty : Parameters := ⟨[], List.Pairwise.nil, fun _ h => absurd h List.not_mem_nil⟩

/-- One more value for a name, after those it has. -/
def add (ps : Parameters) (name value : String) : Parameters :=
  ⟨insert name value ps.entries, canonical_insert ps.canonical⟩

/-- The parameters of a list of pairs. -/
def ofPairs (pairs : List (String × String)) : Parameters :=
  pairs.foldl (fun ps pair => ps.add pair.1 pair.2) empty

/-- The values of a name, none when it is absent. -/
def values (ps : Parameters) (name : String) : List String := (ps.entries.lookup name).getD []

end Parameters

/-- What a request asks for, independent of host and page. -/
structure Identity where
  path : String
  parameters : Parameters
  deriving DecidableEq

end Pagemark
