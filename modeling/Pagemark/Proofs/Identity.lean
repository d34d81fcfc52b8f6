/-
  Pagemark.Proofs.Identity — an identity is the path and, for each name, its values.

  Parameters are kept in ascending order of their names, so the order in which names came in leaves
  no trace; and no name is kept without a value, so a name that never came in is like one that has
  no values. What is left is the list of values of each name, in the order in which they came in.
  Names that are left out of account have none.

  Proved: `values_add` — a value is added for its name, and for no other; `eq_of_values` — parameters
  with the same values are the same; `values_ofPairs` — the values of a name are those of its pairs;
  `identity_eq_iff` — so two targets have one identity when their paths and values agree.
-/

import Pagemark.Target

namespace Pagemark

/-! ## Values of a name -/

namespace Target

variable (t : Target) (names : List String)

theorem without_without : (t.without names).without names = t.without names := by
  simp [without]

theorem identity_without : (t.without names).identity names = t.identity names := by
  rw [identity, without_without]
  rfl

/-- The values of a name in a list of pairs. -/
def valuesIn (pairs : List (String × String)) (name : String) : List String :=
  (pairs.filter fun pair => pair.1 == name).map (·.2)

theorem values_eq (name : String) : t.values name = valuesIn t.query name := rfl

theorem valuesIn_append (a b : List (String × String)) (name : String) :
    valuesIn (a ++ b) name = valuesIn a name ++ valuesIn b name := by
  rw [valuesIn, List.filter_append, List.map_append]
  rfl

theorem valuesIn_cons_of_eq (name value : String) (pairs : List (String × String)) :
    valuesIn ((name, value) :: pairs) name = value :: valuesIn pairs name := by
  simp [valuesIn]

theorem valuesIn_cons_of_ne {key name : String} (h : key ≠ name) (value : String) (pairs : List (String × String)) :
    valuesIn ((key, value) :: pairs) name = valuesIn pairs name := by
  simp [valuesIn, h]

/-- All values given for one name. -/
theorem valuesIn_map_of_eq (name : String) (values : List String) :
    valuesIn (values.map fun value => (name, value)) name = values := by
  induction values with
  | nil => rfl
  | cons value values ih => rw [List.map_cons, valuesIn_cons_of_eq, ih]

theorem valuesIn_map_of_ne {key name : String} (h : key ≠ name) (values : List String) :
    valuesIn (values.map fun value => (key, value)) name = [] := by
  induction values with
  | nil => rfl
  | cons value values ih => rw [List.map_cons, valuesIn_cons_of_ne h, ih]

theorem count_eq_count_valuesIn (pairs : List (String × String)) (name value : String) :
    pairs.count (name, value) = (valuesIn pairs name).count value := by
  induction pairs with
  | nil => rfl
  | cons pair pairs ih =>
    obtain ⟨key, other⟩ := pair
    by_cases hname : key = name
    · subst hname
      rw [valuesIn_cons_of_eq, List.count_cons, List.count_cons, ih]
      simp
    · rw [valuesIn_cons_of_ne hname, List.count_cons_of_ne, ih]
      exact fun h => hname (Prod.mk.inj h).1

/-- Where every name has the same values, the pairs differ in their order only. -/
theorem perm_of_values {t t' : Target} (h : ∀ name, t.values name = t'.values name) : t.query.Perm t'.query := by
  refine List.perm_iff_count.mpr ?_
  rintro ⟨name, value⟩
  rw [count_eq_count_valuesIn, count_eq_count_valuesIn, ← values_eq, ← values_eq, h]

theorem values_without_of_mem {names : List String} {name : String} (h : name ∈ names) :
    (t.without names).values name = [] := by
  have gone : ∀ pair ∈ t.query, names.contains pair.1 = false → pair.1 ≠ name := by
    rintro pair - hc rfl
    simp [h] at hc
  rw [values, without, List.filter_filter, List.map_eq_nil_iff, List.filter_eq_nil_iff]
  intro pair hp
  cases hc : names.contains pair.1 with
  | true => simp
  | false => simpa using gone pair hp hc

theorem values_without_of_not_mem {names : List String} {name : String} (h : name ∉ names) :
    (t.without names).values name = t.values name := by
  rw [values, values, without, List.filter_filter]
  congr 1
  refine List.filter_congr fun pair _ => ?_
  by_cases hname : pair.1 = name
  · simp [hname, h]
  · simp [hname]

end Target

/-! ## Parameters -/

namespace Parameters

theorem lookup_cons (head : String) (values : List String) (rest : List (String × List String)) (name : String) :
    ((head, values) :: rest).lookup name = if name = head then some values else rest.lookup name := by
  rw [List.lookup_cons]
  by_cases h : name = head
  · rw [if_pos h, beq_iff_eq.mpr h]
  · rw [if_neg h, beq_false_of_ne h]

/-- A name that is less than all others is not among them. -/
theorem lookup_of_lt {name : String} {entries : List (String × List String)} (h : ∀ e ∈ entries, name < e.1) :
    entries.lookup name = none := by
  refine List.lookup_eq_none_iff.mpr fun e he => ?_
  have hne : name ≠ e.1 := fun heq => String.lt_irrefl _ (heq ▸ h e he)
  simpa using hne

/-- Ascending names are different, so an entry is the one that is found. -/
theorem lookup_of_mem {entries : List (String × List String)} (h : Canonical entries) {e : String × List String}
    (hmem : e ∈ entries) : entries.lookup e.1 = some e.2 := by
  induction entries with
  | nil => cases hmem
  | cons head rest ih =>
    obtain ⟨hlt, hrest⟩ := List.pairwise_cons.mp h.1
    rw [lookup_cons]
    rcases List.mem_cons.mp hmem with rfl | hmem
    · exact if_pos rfl
    · have hne : e.1 ≠ head.1 := fun heq => String.lt_irrefl _ (heq ▸ hlt e hmem)
      rw [if_neg hne]
      exact ih ⟨hrest, fun e he => h.2 e (List.mem_cons_of_mem _ he)⟩ hmem

/-- Where a name is inserted in front of a greater one, it is not behind that one already. -/
theorem lookup_insert {entries : List (String × List String)} (h : Canonical entries) (name value key : String) :
    (insert name value entries).lookup key
      = if key = name then some ((entries.lookup key).getD [] ++ [value]) else entries.lookup key := by
  induction entries with
  | nil => rw [insert, lookup_cons]; rfl
  | cons e rest ih =>
    obtain ⟨head, values⟩ := e
    obtain ⟨hlt, hrest⟩ := List.pairwise_cons.mp h.1
    have ih := ih ⟨hrest, fun e he => h.2 e (List.mem_cons_of_mem _ he)⟩
    unfold insert
    split
    · rename_i hname
      subst hname
      rw [lookup_cons, lookup_cons]
      by_cases hkey : key = name
      · simp [hkey]
      · simp [hkey]
    · rename_i hname
      split
      · rename_i hless
        have absent : ((head, values) :: rest).lookup name = none := by
          refine lookup_of_lt fun e he => ?_
          rcases List.mem_cons.mp he with rfl | he
          · exact hless
          · exact String.lt_trans hless (hlt e he)
        rw [lookup_cons]
        by_cases hkey : key = name
        · rw [hkey, absent]
          rfl
        · rw [if_neg hkey, if_neg hkey]
      · rw [lookup_cons, lookup_cons, ih]
        by_cases hhead : key = head
        · have hne : key ≠ name := fun heq => hname (heq ▸ hhead)
          simp [hhead, hhead ▸ hne]
        · simp [hhead]

theorem values_empty (name : String) : empty.values name = [] := rfl

/-- A value is added for its name and for no other. -/
theorem values_add (ps : Parameters) (name value key : String) :
    (ps.add name value).values key = if key = name then ps.values key ++ [value] else ps.values key := by
  unfold values add
  rw [lookup_insert ps.canonical]
  split
  · rfl
  · rfl

theorem values_foldl_add (ps : Parameters) (pairs : List (String × String)) (name : String) :
    (pairs.foldl (fun ps pair => ps.add pair.1 pair.2) ps).values name = ps.values name ++ Target.valuesIn pairs name := by
  induction pairs generalizing ps with
  | nil => exact (List.append_nil _).symm
  | cons pair pairs ih =>
    obtain ⟨key, value⟩ := pair
    rw [List.foldl_cons, ih, values_add]
    by_cases hname : name = key
    · subst hname
      rw [if_pos rfl, Target.valuesIn_cons_of_eq, List.append_assoc]
      rfl
    · rw [if_neg hname, Target.valuesIn_cons_of_ne (Ne.symm hname)]

theorem values_ofPairs (pairs : List (String × String)) (name : String) :
    (ofPairs pairs).values name = Target.valuesIn pairs name := by
  rw [ofPairs, values_foldl_add, values_empty, List.nil_append]

/-- The entries are the names that have values. -/
theorem mem_entries_iff {ps : Parameters} {name : String} {values : List String} :
    (name, values) ∈ ps.entries ↔ ps.values name = values ∧ values ≠ [] := by
  constructor
  · intro h
    refine ⟨?_, ps.canonical.2 _ h⟩
    rw [Parameters.values, lookup_of_mem ps.canonical h]
    rfl
  · rintro ⟨rfl, hne⟩
    unfold Parameters.values at hne ⊢
    cases hlookup : ps.entries.lookup name with
    | none =>
      rw [hlookup] at hne
      exact absurd rfl hne
    | some values =>
      obtain ⟨before, behind, hentries, -⟩ := List.lookup_eq_some_iff.mp hlookup
      rw [hentries]
      exact List.mem_append_right _ List.mem_cons_self

/-- Parameters with the same values are the same: they have the same entries, and each has them in
ascending order. -/
theorem eq_of_values {a b : Parameters} (h : ∀ name, a.values name = b.values name) : a = b := by
  have nodup (ps : Parameters) : ps.entries.Nodup := by
    refine List.Pairwise.imp ?_ ps.canonical.1
    rintro e _ hlt rfl
    exact String.lt_irrefl _ hlt
  have same : a.entries.Perm b.entries := by
    refine (List.perm_ext_iff_of_nodup (nodup a) (nodup b)).mpr ?_
    rintro ⟨name, values⟩
    rw [mem_entries_iff, mem_entries_iff, h]
  refine ext (same.eq_of_pairwise (fun e e' _ _ hlt hgt => ?_) a.canonical.1 b.canonical.1)
  exact absurd (String.lt_trans hlt hgt) (String.lt_irrefl _)

end Parameters

/-! ## Identities -/

namespace Target

/-- Two targets have one identity when their paths agree as they are resolved, and every name that counts
has the same values in the same order. -/
theorem identity_eq_iff {t t' : Target} {excluded : List String} :
    t.identity excluded = t'.identity excluded ↔
      normalPath t.path = normalPath t'.path ∧ ∀ name ∉ excluded, t.values name = t'.values name := by
  have counted (t : Target) (name : String) :
      (Parameters.ofPairs (t.without excluded).query).values name = (t.without excluded).values name := by
    rw [Parameters.values_ofPairs, values_eq]
  unfold identity
  rw [Identity.mk.injEq]
  refine and_congr_right fun _ => ?_
  constructor
  · intro h name hname
    have hvalues := congrArg (Parameters.values · name) h
    simp only [counted] at hvalues
    rwa [values_without_of_not_mem _ hname, values_without_of_not_mem _ hname] at hvalues
  · intro h
    refine Parameters.eq_of_values fun name => ?_
    rw [counted, counted]
    by_cases hname : name ∈ excluded
    · rw [values_without_of_mem _ hname, values_without_of_mem _ hname]
    · rw [values_without_of_not_mem _ hname, values_without_of_not_mem _ hname, h name hname]

end Target

end Pagemark
