/-
  Pagemark.Proofs.Toml.Document — a document has one entry for each key.

  A line adds to the tree at the end of a path and changes the tables on the way. Whatever is put into
  a table goes in under a key that is not there yet, or in place of what was there, so that the keys of
  every table stay different from one another (`Item.Sound`). Nothing in front of the end of the path
  matters for that: a change of one table is carried out to the root (`keeps_within`).

  Proved: `keeps_within`, `keeps_insert`, `keeps_beginTable`, `keeps_beginNext` — the changes of a tree;
  `sound_toValue` — its value; `yields_value` — a value at any depth; `sound_parse` — a document.
-/

import Pagemark.Proofs.Toml.Merge
import Pagemark.Toml.Document

namespace Pagemark.Toml

/-! ## Trees -/

/-- Every table in the value has one entry for each of its keys. -/
inductive Value.Sound : Value → Prop
  | text (s : String) : Sound (.text s)
  | integer (n : Int) : Sound (.integer n)
  | real : Sound .real
  | flag (b : Bool) : Sound (.flag b)
  | list {items : List Value} (h : ∀ v ∈ items, Sound v) : Sound (.list items)
  | table {entries : List (String × Value)} (distinct : (entries.map Prod.fst).Nodup)
      (h : ∀ entry ∈ entries, Sound entry.2) : Sound (.table entries)

namespace Item

/-- Every table in the tree has one entry for each of its keys. -/
inductive Sound : Item → Prop
  | value {v : Value} (h : v.Sound) : Sound (.value v)
  | table {origin : Origin} {entries : List (String × Item)} (distinct : (entries.map Prod.fst).Nodup)
      (h : ∀ entry ∈ entries, Sound entry.2) : Sound (.table origin entries)
  | tables {all : List Item} (h : ∀ item ∈ all, Sound item) : Sound (.tables all)

theorem sound_new (origin : Origin) : Sound (.table origin []) := .table List.nodup_nil (by simp)

theorem Sound.of_lookup {origin : Origin} {entries : List (String × Item)} {key : String} {item : Item}
    (h : Sound (.table origin entries)) (hitem : entries.lookup key = some item) : item.Sound := by
  cases h with
  | table _ all => exact all (key, item) (mem_of_lookup hitem)

theorem Sound.put {origin : Origin} {entries : List (String × Item)} {item : Item}
    (h : Sound (.table origin entries)) (hitem : item.Sound) (key : String) :
    Sound (.table origin (put key item entries)) := by
  cases h with
  | table distinct all =>
    refine .table (nodup_update distinct _ _) fun entry hentry => ?_
    rcases mem_update hentry with old | ⟨_, new⟩
    · exact all entry old
    · rw [new]
      exact hitem

/-- A table counts for what it holds, however it came to be. -/
theorem Sound.of_origin {origin : Origin} {entries : List (String × Item)} (h : Sound (.table origin entries))
    (other : Origin) : Sound (.table other entries) := by
  cases h with
  | table distinct all => exact .table distinct all

/-! ### Changes -/

/-- A table, and sound. -/
def SoundTable (t : Item) : Prop := t.Sound ∧ ∃ origin entries, t = .table origin entries

theorem soundTable_new (origin : Origin) : SoundTable (.table origin []) := ⟨sound_new origin, _, _, rfl⟩

/-- A change that makes sound tables of sound trees. -/
def Keeps (f : Item → Option Item) : Prop := ∀ t t', t.Sound → f t = some t' → t'.SoundTable

theorem keeps_within {f : Item → Option Item} (hf : Keeps f) (isDotted : Bool) (path : List String) :
    Keeps (within isDotted f path) := by
  induction path with
  | nil => exact hf
  | cons key path ih =>
    intro t t' sound h
    cases t with
    | value v => cases h
    | tables all => cases h
    | table origin entries =>
      simp only [within, Option.map_eq_some_iff] at h
      obtain ⟨item, changed, rfl⟩ := h
      refine ⟨sound.put ?_ key, _, _, rfl⟩
      split at changed
      · exact (ih _ item (sound_new _) changed).1
      · rename_i inner children hlookup
        split at changed
        · cases changed
        · exact (ih _ item (sound.of_lookup hlookup) changed).1
      · rename_i newest older hlookup
        obtain ⟨newest', inside, rfl⟩ := Option.map_eq_some_iff.mp changed
        cases sound.of_lookup hlookup with
        | tables all =>
          obtain ⟨first, others⟩ := List.forall_mem_cons.mp all
          exact .tables (List.forall_mem_cons.mpr ⟨(ih newest newest' first inside).1, others⟩)
      · cases changed

theorem keeps_add {v : Value} (hv : v.Sound) (isDotted : Bool) (key : String) : Keeps (add isDotted key v) := by
  intro t t' sound h
  cases t with
  | value _ => cases h
  | tables _ => cases h
  | table origin entries =>
    simp only [add] at h
    split at h
    · cases h
    · cases h
      exact ⟨sound.put (.value hv) key, _, _, rfl⟩

theorem keeps_insert {v : Value} (hv : v.Sound) (path : List String) : Keeps (insert path v) := by
  intro t t' sound h
  unfold insert at h
  split at h
  · exact keeps_within (keeps_add hv _ _) true _ t t' sound h
  · cases h

theorem keeps_beginTable (key : String) : Keeps (beginTable key) := by
  intro t t' sound h
  cases t with
  | value _ => cases h
  | tables _ => cases h
  | table origin entries =>
    simp only [beginTable] at h
    split at h
    · cases h
      exact ⟨sound.put (sound_new _) key, _, _, rfl⟩
    · rename_i children hlookup
      cases h
      exact ⟨sound.put ((sound.of_lookup hlookup).of_origin _) key, _, _, rfl⟩
    · cases h

theorem keeps_beginNext (key : String) : Keeps (beginNext key) := by
  intro t t' sound h
  cases t with
  | value _ => cases h
  | tables _ => cases h
  | table origin entries =>
    simp only [beginNext] at h
    split at h
    · cases h
      exact ⟨sound.put (.tables (by simp [sound_new])) key, _, _, rfl⟩
    · rename_i all hlookup
      cases h
      cases sound.of_lookup hlookup with
      | tables others =>
        exact ⟨sound.put (.tables (List.forall_mem_cons.mpr ⟨sound_new _, others⟩)) key, _, _, rfl⟩
    · cases h

/-! ### Values of trees -/

theorem itemValues_eq_map (items : List Item) : itemValues items = items.map toValue := by
  induction items with
  | nil => rfl
  | cons item items ih => rw [itemValues, ih, List.map_cons]

theorem entryValues_eq_map (entries : List (String × Item)) :
    entryValues entries = entries.map fun (key, item) => (key, item.toValue) := by
  induction entries with
  | nil => rfl
  | cons entry entries ih => rw [entryValues, ih, List.map_cons]

theorem sound_toValue {t : Item} (h : t.Sound) : t.toValue.Sound := by
  induction h with
  | value h =>
    rw [toValue]
    exact h
  | @table origin entries distinct _ ih =>
    rw [toValue, entryValues_eq_map]
    refine .table ?_ fun entry hentry => ?_
    · rw [List.map_map]
      exact distinct
    · obtain ⟨inner, hinner, rfl⟩ := List.mem_map.mp hentry
      exact ih inner hinner
  | @tables all _ ih =>
    rw [toValue, itemValues_eq_map]
    refine .list fun v hv => ?_
    obtain ⟨item, hitem, rfl⟩ := List.mem_map.mp (List.mem_reverse.mp hv)
    exact ih item hitem

end Item

/-! ## Readers -/

/-- Whatever is read has the property. -/
def Yields {α : Type} (P : α → Prop) (read : Reader α) : Prop := ∀ cs x rest, read cs = some (x, rest) → P x

/-! ### Words -/

theorem sound_moment (cs : List Char) : (moment cs).Sound :=
  .table (List.nodup_singleton _) (by simp [Value.Sound.text])

theorem sound_of_real? {negative : Bool} {whole fraction exponent : List Char} {v : Value}
    (h : real? negative whole fraction exponent = some v) : v.Sound := by
  simp only [real?, Option.bind_eq_bind, Option.bind_eq_some_iff] at h
  obtain ⟨e, -, h⟩ := h
  split at h
  · cases h
  · cases h
    exact .real

theorem sound_of_based? {base : Nat} {cs : List Char} {v : Value} (h : based? base cs = some v) : v.Sound := by
  unfold based? at h
  split at h
  · split at h
    · cases h
      exact .integer _
    · cases h
  · cases h

theorem sound_of_decimal? {negative : Bool} {cs : List Char} {v : Value} (h : decimal? negative cs = some v) :
    v.Sound := by
  simp only [decimal?, Option.bind_eq_bind, Option.bind_eq_some_iff] at h
  obtain ⟨⟨whole, rest⟩, -, h⟩ := h
  split at h
  · simp only at h
    split at h
    · split at h
      · cases h
        exact .integer _
      · cases h
    · split at h
      · cases h
        exact .integer _
      · cases h
  · obtain ⟨⟨fraction, rest⟩, -, h⟩ := Option.bind_eq_some_iff.mp h
    exact sound_of_real? h
  · exact sound_of_real? h

theorem sound_of_signed? {negative : Bool} {cs : List Char} {v : Value} (h : signed? negative cs = some v) :
    v.Sound := by
  unfold signed? at h
  split at h
  · cases h
    exact .real
  · exact sound_of_decimal? h

theorem sound_of_number? {cs : List Char} {v : Value} (h : number? cs = some v) : v.Sound := by
  unfold number? at h
  split at h
  · exact sound_of_based? h
  · exact sound_of_based? h
  · exact sound_of_based? h
  · exact sound_of_signed? h
  · exact sound_of_signed? h
  · exact sound_of_signed? h

theorem sound_of_word? {cs : List Char} {v : Value} (h : word? cs = some v) : v.Sound := by
  unfold word? at h
  split at h
  · cases h
    exact .flag true
  split at h
  · cases h
    exact .flag false
  split at h
  · cases h
    exact sound_moment cs
  · exact sound_of_number? h

theorem yields_scalar : Yields Value.Sound scalar := by
  intro cs v rest h
  have word {cs rest' : List Char} (h : (word? cs).map (fun v => (v, rest')) = some (v, rest)) : v.Sound := by
    obtain ⟨w, hw, same⟩ := Option.map_eq_some_iff.mp h
    cases same
    exact sound_of_word? hw
  simp only [scalar] at h
  split at h
  · split at h
    · cases h
      exact sound_moment _
    · exact word h
  · exact word h

/-- A value that is not in brackets. -/
theorem sound_of_word_or_string {cs rest : List Char} {v : Value}
    (h : (match string? cs with
      | some read => read.map fun (s, cs) => (.text s, cs)
      | none => scalar cs) = some (v, rest)) : v.Sound := by
  split at h
  · obtain ⟨⟨s, cs'⟩, -, same⟩ := Option.map_eq_some_iff.mp h
    cases same
    exact .text s
  · exact yields_scalar cs v rest h

/-! ### Brackets -/

theorem yields_arrayItems {item : Reader Value} (hitem : Yields Value.Sound item) (fuel : Nat) :
    Yields (∀ v ∈ ·, v.Sound) (arrayItems item fuel) := by
  induction fuel with
  | zero =>
    intro cs vs rest h
    cases h
  | succ fuel ih =>
    intro cs vs rest h
    unfold arrayItems at h
    split at h
    · cases h
      simp
    · simp only [Option.bind_eq_bind, Option.bind_eq_some_iff] at h
      obtain ⟨⟨v, cs'⟩, hv, h⟩ := h
      have sound := hitem _ _ _ hv
      split at h
      · obtain ⟨⟨vs', cs''⟩, hvs, same⟩ := Option.bind_eq_some_iff.mp h
        cases same
        exact List.forall_mem_cons.mpr ⟨sound, ih _ _ _ hvs⟩
      · cases h
        simpa using sound
      · cases h

theorem yields_pair {item : Reader Value} (hitem : Yields Value.Sound item) : Yields (·.2.Sound) (pair item) := by
  intro cs p rest h
  simp only [pair, Option.bind_eq_bind, Option.bind_eq_some_iff] at h
  obtain ⟨⟨path, cs'⟩, -, h⟩ := h
  split at h
  · obtain ⟨⟨v, cs''⟩, hv, same⟩ := Option.bind_eq_some_iff.mp h
    cases same
    exact hitem _ _ _ hv
  · cases h

theorem yields_inlinePairs {item : Reader Value} (hitem : Yields Value.Sound item) (fuel : Nat) :
    Yields (∀ p ∈ ·, p.2.Sound) (inlinePairs item fuel) := by
  induction fuel with
  | zero =>
    intro cs ps rest h
    cases h
  | succ fuel ih =>
    intro cs ps rest h
    simp only [inlinePairs, Option.bind_eq_bind, Option.bind_eq_some_iff] at h
    obtain ⟨⟨p, cs'⟩, hp, h⟩ := h
    have sound := yields_pair hitem _ _ _ hp
    split at h
    · obtain ⟨⟨ps', cs''⟩, hps, same⟩ := Option.bind_eq_some_iff.mp h
      cases same
      exact List.forall_mem_cons.mpr ⟨sound, ih _ _ _ hps⟩
    · cases h
      simpa using sound
    · cases h

theorem sound_insertAll {pairs : List (List String × Value)} (h : ∀ p ∈ pairs, p.2.Sound) {t t' : Item}
    (sound : t.Sound) (run : pairs.foldlM (fun t (path, v) => Item.insert path v t) t = some t') : t'.Sound := by
  induction pairs generalizing t with
  | nil =>
    cases run
    exact sound
  | cons p pairs ih =>
    obtain ⟨first, others⟩ := List.forall_mem_cons.mp h
    obtain ⟨t₁, step, run⟩ := Option.bind_eq_some_iff.mp run
    exact ih others (Item.keeps_insert first p.1 t t₁ sound step).1 run

theorem yields_inlineTable {item : Reader Value} (hitem : Yields Value.Sound item) :
    Yields Value.Sound (inlineTable item) := by
  intro cs v rest h
  unfold inlineTable at h
  split at h
  · cases h
    exact .table List.nodup_nil (by simp)
  · simp only [Option.bind_eq_bind, Option.bind_eq_some_iff] at h
    obtain ⟨⟨pairs, cs'⟩, hpairs, t, run, same⟩ := h
    cases same
    exact Item.sound_toValue (sound_insertAll (yields_inlinePairs hitem _ _ _ _ hpairs) (Item.sound_new _) run)

theorem yields_value (depth : Nat) : Yields Value.Sound (value depth) := by
  induction depth with
  | zero =>
    intro cs v rest h
    exact sound_of_word_or_string h
  | succ depth ih =>
    intro cs v rest h
    unfold value at h
    split at h
    · obtain ⟨⟨vs, cs'⟩, hvs, same⟩ := Option.map_eq_some_iff.mp h
      cases same
      exact .list (yields_arrayItems ih _ _ _ _ hvs)
    · exact yields_inlineTable ih _ _ _ h
    · exact sound_of_word_or_string h

/-! ## Documents -/

namespace Document

theorem soundTable_of_header {d d' : Document} {cs rest : List Char} (sound : d.root.SoundTable)
    (h : d.header cs = some (d', rest)) : d'.root.SoundTable := by
  simp only [header, Option.bind_eq_bind, Option.bind_eq_some_iff] at h
  obtain ⟨⟨path, cs'⟩, -, key, -, root, changed, h⟩ := h
  have sound' : root.SoundTable := by
    refine Item.keeps_within ?_ false _ d.root root sound.1 changed
    split
    · exact Item.keeps_beginNext key
    · exact Item.keeps_beginTable key
  have closed {rest' : List Char} (h : some (⟨root, path⟩, rest') = some (d', rest)) : d'.root.SoundTable := by
    cases h
    exact sound'
  split at h
  · -- A second bracket at the beginning asks for a second one at the end.
    split at h
    · simp only [if_true] at h
      split at h
      · exact closed h
      · cases h
    · exact closed h
  · cases h

theorem soundTable_of_keyValue {d d' : Document} {cs rest : List Char} (sound : d.root.SoundTable)
    (h : d.keyValue cs = some (d', rest)) : d'.root.SoundTable := by
  simp only [keyValue, Option.bind_eq_bind, Option.bind_eq_some_iff] at h
  obtain ⟨⟨⟨path, v⟩, cs'⟩, hpair, root, changed, same⟩ := h
  cases same
  have hv : v.Sound := yields_pair (yields_value maxDepth) _ _ _ hpair
  exact Item.keeps_within (Item.keeps_insert hv path) false _ d.root root sound.1 changed

theorem soundTable_of_entry {d d' : Document} {cs rest : List Char} (sound : d.root.SoundTable)
    (h : d.entry cs = some (d', rest)) : d'.root.SoundTable := by
  unfold entry at h
  split at h
  · exact soundTable_of_header sound h
  · exact soundTable_of_keyValue sound h

theorem soundTable_of_lines {fuel : Nat} {d d' : Document} {cs : List Char} (sound : d.root.SoundTable)
    (h : lines fuel d cs = some d') : d'.root.SoundTable := by
  induction fuel generalizing d cs with
  | zero => cases h
  | succ fuel ih =>
    unfold lines at h
    split at h
    · cases h
      exact sound
    · simp only [Option.bind_eq_bind, Option.bind_eq_some_iff] at h
      obtain ⟨⟨d₁, cs₁⟩, step, cs₂, -, run⟩ := h
      exact ih (soundTable_of_entry sound step) run

end Document

/-- A document is a table, and every table in it has one entry for each of its keys. -/
theorem sound_parse {s : String} {v : Value} (h : parse s = some v) : v.Sound ∧ ∃ entries, v = .table entries := by
  obtain ⟨d, run, rfl⟩ := Option.map_eq_some_iff.mp h
  obtain ⟨sound, origin, entries, table⟩ := Document.soundTable_of_lines (Item.soundTable_new _) run
  refine ⟨Item.sound_toValue sound, Item.entryValues entries, ?_⟩
  rw [table, Item.toValue]

namespace Value

theorem Sound.tabular {entries : List (String × Value)} (h : (Value.table entries).Sound) :
    (Value.table entries).Tabular := by
  cases h with
  | table distinct _ => exact ⟨entries, rfl, distinct⟩

theorem Sound.of_child? {v w : Value} {key : String} (h : v.Sound) (hw : v.child? key = some w) : w.Sound := by
  cases h with
  | table _ all => exact all (key, w) (mem_of_lookup hw)
  | _ => cases hw

/-- A document whose entries under some keys are tables. -/
theorem sectioned_of_parse {s : String} {v : Value} {parts : List String} (h : parse s = some v)
    (tables : ∀ part ∈ parts, ∀ w, v.child? part = some w → ∃ entries, w = .table entries) : v.Sectioned parts := by
  obtain ⟨sound, entries, rfl⟩ := sound_parse h
  refine ⟨sound.tabular, fun part hpart w hw => ?_⟩
  obtain ⟨fields, rfl⟩ := tables part hpart w hw
  exact (sound.of_child? hw).tabular

end Value

end Pagemark.Toml
