/-
  Pagemark.Proofs.Settings.Precedence — which source sets which field.

  The environment comes before the files, a nearer file before a farther one, and what is built in comes
  last. For each field the first of them that sets it counts, whatever they set for other fields
  (`effective`). That is what the layers amount to: each of them is laid over those that come after it in
  this order, and where it sets a field it covers what they set.

  There is one exception. Two tables for one field are joined, so that what the layers hold for it is not
  what the first source sets (`layered`). No field takes a table, and the settings fail with the joined
  one as they do with that of the first source.

  Files are TOML documents, and where they have the sections these are tables. A list for a section would
  be read by position and cover the whole section below it, so such files are left out, and variables
  that stand for a whole section with them. The file at a path is the one that is read, except for a relative
  path at which none is: then one in a folder above may be read in its place.

  Proved: `at?_overlaid` — the value on top of the layers, field by field; `follows_load` — what is loaded;
  `first_source_counts` — for the settings of a service and for those of a single file;
  `first_source_does_not_always_count` — the two ends of the rule.
-/

import Pagemark.Proofs.Settings.Environment
import Pagemark.Proofs.Settings.Disk
import Pagemark.Proofs.Settings.Paging
import Pagemark.Proofs.Settings.Reading
import Pagemark.Proofs.Toml.Document

namespace Pagemark.Settings

open Toml
open Value (Alike overlay)

/-! ## Sources -/

/-- What a file sets; one that is not there sets nothing. -/
def fileSource (text : Option String) : Source := fun part field => (text.bind Toml.parse).bind (·.at? part field)

def environmentSource (environment : List (String × String)) : Source := fun part field =>
  environment.findSome? (Environment.sets? part field)

/-- What holds for a service that sets nothing itself. -/
def standardSource (service : String) : Source := (defaults service).at?

/-- The sources of the settings of a service, the one that counts before all others first. -/
def sources (service : String) (files : List (Option String)) (environment : List (String × String)) : List Source :=
  environmentSource environment :: (files.map fileSource ++ [standardSource service])

/-- For each field, the raw value of the first source that sets it. -/
def effective (service : String) (files : List (Option String)) (environment : List (String × String)) : Source :=
  fun part field => (sources service files environment).findSome? fun source => source part field

/-- What the sources set for a field, the one that counts before all others first. -/
def raws (service : String) (files : List (Option String)) (environment : List (String × String)) (part field : String) :
    List (Option Value) :=
  (sources service files environment).map fun source => source part field

/-- Values for one field laid over one another, the uppermost one first: tables are joined, and any other
value covers what is below it. -/
def layered (values : List (Option Value)) : Option Value := values.foldr (fun upper under => overlay under upper) none

/-- A file that is not there, or a document whose sections, where it has them, are tables. -/
def WellFormed (text : Option String) : Prop :=
  ∀ s ∈ text, ∃ v, Toml.parse s = some v ∧
    ∀ part ∈ sections, ∀ w, v.child? part = some w → ∃ entries, w = .table entries

/-- No variable stands for a whole section, and no two variables set the same field. -/
structure Orderly (environment : List (String × String)) : Prop where
  fieldsOnly : Environment.FieldsOnly sections environment
  once : ∀ field ∈ fields, Environment.SetOnce field.1 field.2 environment

/-- Variables named for something inside of a section stand for no section. -/
theorem fieldsOnly_of_named {environment : List (String × String)}
    (h : ∀ setting ∈ environment, ∃ rest, setting.1 = "CURSOR_SERVICE__" ++ rest ∨ setting.1 = "CURSOR_PAGING__" ++ rest) :
    Environment.FieldsOnly sections environment := by
  intro setting hsetting part _
  have service := @Environment.path?_ne_section "SERVICE__".toList "service".toList (by decide)
    (by simp [Text.isBlank]) (by simp)
  have paging := @Environment.path?_ne_section "PAGING__".toList "paging".toList (by decide)
    (by simp [Text.isBlank]) (by simp)
  have chars (front rest : String) : front ++ rest = .ofList (front.toList ++ rest.toList) := by
    rw [← String.toList_append, String.ofList_toList]
  obtain ⟨rest, named | named⟩ := h setting hsetting
  · rw [named, chars]
    exact service rest.toList part
  · rw [named, chars]
    exact paging rest.toList part

theorem mem_sections_of_mem_fields : ∀ field ∈ fields, field.1 ∈ sections := by decide

theorem effective_eq_findSome? (service : String) (files : List (Option String)) (environment : List (String × String))
    (part field : String) :
    effective service files environment part field = (raws service files environment part field).findSome? id := by
  rw [effective, raws, List.findSome?_map, Function.id_comp]

theorem raws_eq (service : String) (files : List (Option String)) (environment : List (String × String))
    (part field : String) :
    raws service files environment part field = environmentSource environment part field ::
      (files.map (fileSource · part field) ++ [standardSource service part field]) := by
  rw [raws, sources, List.map_cons, List.map_append, List.map_map]
  rfl

theorem effective_eq (service : String) (files : List (Option String)) (environment : List (String × String))
    (part field : String) :
    effective service files environment part field
      = (environmentSource environment part field).or
          (((files.map fun text => fileSource text part field).findSome? id).or (standardSource service part field)) := by
  rw [effective_eq_findSome?, raws_eq, List.findSome?_cons, List.findSome?_append]
  cases environmentSource environment part field with
  | none => cases standardSource service part field <;> rfl
  | some v => rfl

/-- A file that is not there sets nothing. -/
theorem raws_absent (service : String) (before after : List (Option String)) (environment : List (String × String))
    (part field : String) : ∃ upper lower,
      raws service (before ++ none :: after) environment part field = upper ++ none :: lower ∧
        raws service (before ++ after) environment part field = upper ++ lower := by
  refine ⟨environmentSource environment part field :: before.map (fileSource · part field),
    after.map (fileSource · part field) ++ [standardSource service part field], ?_, ?_⟩
  · have absent : fileSource none part field = none := rfl
    rw [raws_eq, List.map_append, List.map_cons, absent, List.append_assoc]
    rfl
  · rw [raws_eq, List.map_append, List.append_assoc]
    rfl

theorem effective_absent (service : String) (before after : List (Option String)) (environment : List (String × String)) :
    effective service (before ++ none :: after) environment = effective service (before ++ after) environment := by
  funext part field
  obtain ⟨upper, lower, withNone, without⟩ := raws_absent service before after environment part field
  rw [effective_eq_findSome?, effective_eq_findSome?, withNone, without, List.findSome?_append, List.findSome?_append,
    List.findSome?_cons]
  rfl

theorem layered_absent (upper lower : List (Option Value)) : layered (upper ++ none :: lower) = layered (upper ++ lower) := by
  have covered (under : Option Value) : overlay under none = under := by cases under <;> rfl
  rw [layered, layered, List.foldr_append, List.foldr_append, List.foldr_cons, covered]

/-! ## Layers -/

/-- The layer of a file. -/
def layerOf (text : Option String) : Value := (text.bind Toml.parse).getD .empty

theorem fileLayer_of_wellFormed {text : Option String} (h : WellFormed text) : fileLayer text = .ok (layerOf text) := by
  cases text with
  | none => rfl
  | some s =>
    obtain ⟨v, hv, -⟩ := h s rfl
    simp [fileLayer, layerOf, hv]

theorem mapM_fileLayer {files : List (Option String)} (h : ∀ text ∈ files, WellFormed text) :
    files.mapM fileLayer = .ok (files.map layerOf) := by
  induction files with
  | nil => rfl
  | cons text files ih =>
    obtain ⟨first, others⟩ := List.forall_mem_cons.mp h
    rw [List.mapM_cons, fileLayer_of_wellFormed first, ih others]
    rfl

theorem sectioned_layerOf {text : Option String} (h : WellFormed text) : (layerOf text).Sectioned sections := by
  cases text with
  | none => exact Environment.sectioned_empty sections
  | some s =>
    obtain ⟨v, hv, tables⟩ := h s rfl
    have layer : layerOf (some s) = v := by simp [layerOf, hv]
    rw [layer]
    exact Value.sectioned_of_parse hv tables

theorem sectioned_layers {files : List (Option String)} (h : ∀ text ∈ files, WellFormed text) :
    ∀ layer ∈ (files.map layerOf).reverse, layer.Sectioned sections := by
  intro layer hlayer
  obtain ⟨text, htext, rfl⟩ := List.mem_map.mp (List.mem_reverse.mp hlayer)
  exact sectioned_layerOf (h text htext)

theorem at?_layerOf (text : Option String) (part field : String) :
    (layerOf text).at? part field = fileSource text part field := by
  unfold layerOf fileSource
  cases text.bind Toml.parse with
  | none => rfl
  | some v => rfl

theorem sectioned_defaults (service : String) : (defaults service).Sectioned sections := by
  refine ⟨⟨_, rfl, by simp [serviceSection, pagingSection]⟩, fun part hpart w hw => ?_⟩
  have either : part = serviceSection ∨ part = pagingSection := by simpa [sections] using hpart
  rcases either with rfl | rfl
  · cases hw
    exact ⟨_, rfl, by simp⟩
  · cases hw
    exact ⟨_, rfl, by simp⟩

/-- Only a secret is not built in. -/
theorem complete_effective (service : String) (files : List (Option String)) (environment : List (String × String)) :
    Complete (effective service files environment) := by
  have standard : Complete (standardSource service) := by
    simp only [Complete, fields, serviceFields, pagingFields, List.map_cons, List.map_nil, List.cons_append,
      List.nil_append, List.forall_mem_cons]
    simp [standardSource, defaults, Value.at?, Value.child?, serviceSection, pagingSection, List.lookup_cons]
  intro field hfield other
  obtain ⟨v, hv⟩ := Option.isSome_iff_exists.mp (standard field hfield other)
  rw [effective_eq, hv]
  cases environmentSource environment field.1 field.2 <;> cases List.findSome? id _ <;> rfl

variable {service : String} {files : List (Option String)} {environment : List (String × String)}

theorem sectioned_overlaid (wellFormed : ∀ text ∈ files, WellFormed text) (orderly : Orderly environment) :
    (overlaid service (files.map layerOf).reverse environment).Sectioned sections :=
  ((sectioned_defaults service).foldl_merge (sectioned_layers wellFormed)).merge
    (Environment.sectioned_layer orderly.fieldsOnly)

theorem foldl_overlay_reverse (values : List (Option Value)) (lowest : Option Value) :
    values.reverse.foldl overlay lowest = layered (values ++ [lowest]) := by
  have bottom : overlay none lowest = lowest := by cases lowest <;> rfl
  rw [List.foldl_reverse, layered, List.foldr_append, List.foldr_cons, List.foldr_nil, bottom]

/-- The value on top holds for a field what the sources set for it, laid over one another. -/
theorem at?_overlaid (wellFormed : ∀ text ∈ files, WellFormed text) (orderly : Orderly environment) {part field : String}
    (hfield : (part, field) ∈ fields) :
    (overlaid service (files.map layerOf).reverse environment).at? part field
      = layered (raws service files environment part field) := by
  have hpart : part ∈ sections := mem_sections_of_mem_fields _ hfield
  have layers := sectioned_layers wellFormed
  have below := (sectioned_defaults service).foldl_merge layers
  have set : (Environment.layer environment).at? part field = environmentSource environment part field :=
    Environment.at?_layer orderly.fieldsOnly hpart (orderly.once _ hfield)
  -- The files are laid over what is built in, the nearest one last.
  have held : ((files.map layerOf).reverse.foldl Value.merge (defaults service)).at? part field
      = layered (files.map (fileSource · part field) ++ [standardSource service part field]) := by
    rw [(sectioned_defaults service).at?_foldl_merge layers hpart, ← foldl_overlay_reverse, ← List.map_reverse,
      ← List.map_reverse, List.foldl_map, List.foldl_map]
    simp only [at?_layerOf]
    rfl
  rw [overlaid, below.at?_merge (Environment.sectioned_layer orderly.fieldsOnly) hpart, set, held, raws_eq]
  rfl

/-- Values laid over one another are the uppermost one, or tables that are joined in a table. -/
theorem alike_layered (values : List (Option Value)) : Alike (layered values) (values.findSome? id) := by
  induction values with
  | nil => exact .refl _
  | cons upper values ih =>
    have covered : (upper :: values).findSome? id = upper.or (values.findSome? id) := by
      cases upper with
      | none => rfl
      | some v => rfl
    rw [covered]
    exact (Value.alike_overlay _ upper).trans (ih.or upper)

/-! ## Settings -/

variable (service files environment) in
/-- A value on top of layers, and what is loaded from it, by what the sources set for each field. -/
structure Follows (top : Value) (loaded : Except LoadError Settings) : Prop where
  /-- For each field, what the sources set for it is laid over one another. -/
  joined : ∀ {part field}, (part, field) ∈ fields →
    top.at? part field = layered (raws service files environment part field)
  /-- The first source that sets a field counts, if it does not set a table. -/
  first : ∀ {part field}, (part, field) ∈ fields →
    (∀ entries, effective service files environment part field ≠ some (.table entries)) →
      top.at? part field = effective service files environment part field
  /-- Settings or a reason why there are none, by what the first sources set and nothing else. -/
  loaded_eq : loaded = (read (assembled (effective service files environment))).bind checked
  /-- Settings when what the first sources set has the type of its field and the section on paging passes
  its check. -/
  ok_iff : ∀ s, loaded = .ok s ↔ Typed (effective service files environment) s ∧ s.paging.Usable

/-- A file that is not there makes no difference. -/
theorem Follows.absent {before after : List (Option String)} {top : Value} {loaded : Except LoadError Settings}
    (h : Follows service (before ++ after) environment top loaded) :
    Follows service (before ++ none :: after) environment top loaded := by
  have same := effective_absent service before after environment
  refine ⟨fun {part field} hfield => ?_, ?_, ?_, ?_⟩
  · obtain ⟨upper, lower, withNone, without⟩ := raws_absent service before after environment part field
    rw [h.joined hfield, withNone, without, layered_absent]
  · rw [same]
    exact h.first
  · rw [same]
    exact h.loaded_eq
  · rw [same]
    exact h.ok_iff

theorem checked_eq_ok_iff {s s' : Settings} : checked s = .ok s' ↔ s = s' ∧ s.paging.Usable := by
  rw [← PagingSettings.fault?_eq_none_iff]
  unfold checked
  cases s.paging.fault? with
  | none => simp
  | some fault => simp

/-- Sections with fields in them are there. -/
theorem exists_inSections {v : Value} (sectioned : v.Sectioned sections) (complete : Complete v.at?) :
    ∃ service paging, InSections v service paging := by
  have table (part field : String) (hfield : (part, field) ∈ fields) (other : field ≠ "integrity_secret") :
      ∃ entries, v.child? part = some (.table entries) := by
    obtain ⟨w, hw⟩ := Option.isSome_iff_exists.mp (complete (part, field) hfield other)
    obtain ⟨inner, hinner, -⟩ := Option.bind_eq_some_iff.mp hw
    obtain ⟨entries, rfl, -⟩ := sectioned.sections part (mem_sections_of_mem_fields _ hfield) inner hinner
    exact ⟨entries, hinner⟩
  obtain ⟨service, hservice⟩ := table serviceSection "name" (by decide) (by decide)
  obtain ⟨paging, hpaging⟩ := table pagingSection "max_page_size" (by decide) (by decide)
  exact ⟨service, paging, hservice, hpaging⟩

theorem follows_load (wellFormed : ∀ text ∈ files, WellFormed text) (orderly : Orderly environment) :
    ∃ layers, files.reverse.mapM fileLayer = .ok layers ∧
      Follows service files environment (overlaid service layers environment) (load service files.reverse environment) := by
  have read_layers : files.reverse.mapM fileLayer = .ok (files.map layerOf).reverse := by
    rw [mapM_fileLayer fun text htext => wellFormed text (List.mem_reverse.mp htext), List.map_reverse]
  have alike (field : String × String) (hfield : field ∈ fields) :
      Alike ((overlaid service (files.map layerOf).reverse environment).at? field.1 field.2)
        (effective service files environment field.1 field.2) := by
    rw [at?_overlaid wellFormed orderly hfield, effective_eq_findSome?]
    exact alike_layered _
  have complete := complete_effective service files environment
  have loaded : load service files.reverse environment
      = (read (assembled (effective service files environment))).bind checked := by
    have top_complete : Complete (overlaid service (files.map layerOf).reverse environment).at? := by
      intro field hfield other
      rw [(alike field hfield).isSome_eq]
      exact complete field hfield other
    obtain ⟨service', paging', tables⟩ := exists_inSections (sectioned_overlaid wellFormed orderly) top_complete
    have same := read_congr tables (inSections_assembled (effective service files environment)) fun field hfield => by
      rw [at?_assembled _ field hfield]
      exact alike field hfield
    rw [load, read_layers, ← same]
    rfl
  refine ⟨_, read_layers, at?_overlaid wellFormed orderly, fun hfield noTable => (alike _ hfield).eq_of_not_table noTable,
    loaded, fun s => ?_⟩
  rw [loaded]
  constructor
  · intro h
    obtain ⟨s', hs', hchecked⟩ := bind_eq_ok_iff.mp h
    obtain ⟨rfl, usable⟩ := checked_eq_ok_iff.mp hchecked
    exact ⟨(read_assembled_eq_ok_iff complete).mp hs', usable⟩
  · rintro ⟨typed, usable⟩
    exact bind_eq_ok_iff.mpr ⟨s, (read_assembled_eq_ok_iff complete).mpr typed, checked_eq_ok_iff.mpr ⟨rfl, usable⟩⟩

/-- What a service loads, from the files that are found. -/
theorem follows_ofService {d : Disk} (possible : d.Possible) (orderly : Orderly environment) (userSettings service : String)
    {near own system : Option String} (hnear : (places d userSettings service).1.loaded? fileName = near)
    (hown : (places d userSettings service).1.loaded? (placeOf userSettings service) = own)
    (hsystem : (places d userSettings service).1.loaded? (placeOf "/etc" service) = system)
    (wellFormed : ∀ text ∈ [near, own, system], WellFormed text) :
    ∃ layers, ((places d userSettings service).2.map (places d userSettings service).1.loaded?).reverse.mapM fileLayer
        = .ok layers ∧
      Follows service [near, own, system] environment (overlaid service layers environment)
        (ofService d userSettings service environment) := by
  simp only [ofService]
  rcases loaded?_places possible userSettings service with all | ⟨absent, others⟩
  · rw [all, hnear, hown, hsystem]
    exact follows_load wellFormed orderly
  · rw [others, hnear, hsystem]
    rw [hown] at absent
    subst absent
    obtain ⟨first, behind⟩ := List.forall_mem_cons.mp wellFormed
    obtain ⟨layers, hlayers, follows⟩ := @follows_load service _ environment
      (List.forall_mem_cons.mpr ⟨first, (List.forall_mem_cons.mp behind).2⟩) orderly
    exact ⟨layers, hlayers, @Follows.absent service environment [near] [system] _ _ follows⟩

/-- For each field the first source counts that sets it: the environment, the file in the working folder,
the one among the settings of the user, the one among those of the system, and what is built in, in this
order and whatever they set for other fields. What lies on top of the layers for a field is what that source
sets, or, where this is a table, the table joined with those that the next sources set. The settings are made
of the eight raw values of the first sources, and there are none exactly when one of these is of the wrong
type or the section on paging does not pass its check; what a source sets for a field that one before it sets
makes no difference. The files are those on the disk after folders have been made on the way to the second of
them. The settings of a single file follow the same rule with that file alone. -/
theorem first_source_counts {d : Disk} (possible : d.Possible) (orderly : Orderly environment) :
    (∀ userSettings service,
      let disk := (places d userSettings service).1
      let paths := [fileName, placeOf userSettings service, placeOf "/etc" service]
      let files := paths.map disk.read?
      (∀ path ∈ paths, isAbsolute path = true ∨ disk.hasFolder path = false) → (∀ text ∈ files, WellFormed text) →
        disk.files = d.files ∧
        ∃ layers, ((places d userSettings service).2.map disk.loaded?).reverse.mapM fileLayer = .ok layers ∧
          Follows service files environment (overlaid service layers environment)
            (ofService d userSettings service environment)) ∧
    ∀ path, isAbsolute path = true ∨ (d.read? path).isSome = true → WellFormed (d.read? path) →
      ∃ layers, [d.search? path].mapM fileLayer = .ok layers ∧
        Follows standardService [d.read? path] environment (overlaid standardService layers environment)
          (ofFile d path environment) := by
  constructor
  · intro userSettings service disk paths files plain wellFormed
    have found (path : String) (hpath : path ∈ paths) : disk.loaded? path = disk.read? path :=
      Disk.loaded?_eq_read? (plain path hpath)
    obtain ⟨near, own, system, -⟩ : _ ∧ _ ∧ _ ∧ _ := by simpa only [paths, List.forall_mem_cons] using found
    exact ⟨files_places possible userSettings service,
      follows_ofService possible orderly userSettings service near own system wellFormed⟩
  · intro path there wellFormed
    have single : ∀ text ∈ [d.read? path], WellFormed text := by simpa using wellFormed
    rw [ofFile, Disk.search?_eq_read? there]
    exact follows_load single orderly

/-- A greatest size of zero in the file of the user, which a variable covers, and a name that only the file sets. -/
theorem first_source_counts_before_faults :
    let text := "[paging]\nmax_page_size=0\npage_parameter=\"p\""
    let path := "/u/cursor-pagination/s/config.toml"
    let d := Disk.ofFiles ["w"] [(path, text)]
    let disk := (places d "/u" "s").1
    let environment := [("CURSOR_PAGING__MAX_PAGE_SIZE", "90")]
    d.Possible ∧ Orderly environment ∧
      disk.hasFolder fileName = false ∧ isAbsolute (placeOf "/u" "s") = true ∧ isAbsolute (placeOf "/etc" "s") = true ∧
      disk.read? fileName = none ∧ WellFormed (disk.read? (placeOf "/u" "s")) ∧ disk.read? (placeOf "/etc" "s") = none ∧
      ofService d "/u" "s" environment
        = .ok ⟨{ name := "s" }, { maxSize := 90, names := { Pager.standardNames with page := "p" } }⟩ ∧
      isAbsolute path = true ∧ WellFormed (d.read? path) ∧
      ofFile d path environment
        = .ok ⟨{ name := "cursor-pagination" }, { maxSize := 90, names := { Pager.standardNames with page := "p" } }⟩ := by
  intro text path d disk environment
  have possible : d.Possible := ⟨by decide +kernel, by decide +kernel⟩
  have orderly : Orderly environment := by
    refine ⟨fieldsOnly_of_named ?_, fun field _ => ?_⟩
    · exact List.forall_mem_singleton.mpr ⟨"MAX_PAGE_SIZE", .inr (by decide)⟩
    · exact Nat.le_trans (List.length_filterMap_le _ _) (Nat.le_refl 1)
  have set (part field : String) : environmentSource environment part field
      = if "paging" = part ∧ "max_page_size" = field then some (.integer 90) else none := by
    have keys : Environment.path? "CURSOR_PAGING__MAX_PAGE_SIZE" = some ["paging", "max_page_size"] := by decide +kernel
    have value : Environment.ofText "90" = .integer 90 := rfl
    simp [environmentSource, environment, Environment.sets?, keys, value, Value.nested]
  have parsed : Toml.parse text
      = some (.table [("paging", .table [("max_page_size", .integer 0), ("page_parameter", .text "p")])]) := by
    unfold Toml.parse
    rw [String.toList_ofList]
    rfl
  have formed : WellFormed (some text) := by
    rintro _ ⟨⟩
    refine ⟨_, parsed, fun part _ w hw => ?_⟩
    rw [Value.child?_singleton] at hw
    split at hw
    · exact ⟨_, (Option.some.inj hw).symm⟩
    · cases hw
  have plain : disk.hasFolder fileName = false := by decide +kernel
  have own : isAbsolute (placeOf "/u" "s") = true := by decide
  have etc : isAbsolute (placeOf "/etc" "s") = true := by decide
  have absolute : isAbsolute path = true := by decide
  have near : disk.read? fileName = none := by decide +kernel
  have user : disk.read? (placeOf "/u" "s") = some text := by decide +kernel
  have system : disk.read? (placeOf "/etc" "s") = none := by decide +kernel
  have file : d.read? path = some text := by decide +kernel
  have absent : WellFormed none := by rintro _ ⟨⟩
  obtain ⟨-, _, -, follows⟩ := (first_source_counts possible orderly).1 "/u" "s"
    (by simp only [List.forall_mem_cons]; exact ⟨.inr plain, .inl own, .inl etc, by simp⟩)
    (by simp only [List.forall_mem_cons, List.map_cons]; exact ⟨near ▸ absent, user ▸ formed, system ▸ absent, by simp⟩)
  obtain ⟨_, -, follows'⟩ := (first_source_counts possible orderly).2 path (.inl absolute) (file ▸ formed)
  rw [List.map_cons, List.map_cons, List.map_cons, List.map_nil, near, user, system] at follows
  rw [file] at follows'
  refine ⟨possible, orderly, plain, own, etc, near, user ▸ formed, system, ?_, absolute, file ▸ formed, ?_⟩
  · refine (follows.ok_iff _).mpr ⟨?_, PagingSettings.fault?_eq_none_iff.mp (by decide)⟩
    constructor <;>
      simp [effective_eq, set, fileSource, parsed, standardSource, defaults, Value.at?, Value.child?, serviceSection,
        pagingSection, List.lookup_cons] <;> rfl
  · refine (follows'.ok_iff _).mpr ⟨?_, PagingSettings.fault?_eq_none_iff.mp (by decide)⟩
    constructor <;>
      simp [effective_eq, set, fileSource, parsed, standardSource, defaults, Value.at?, Value.child?, serviceSection,
        pagingSection, List.lookup_cons] <;> rfl

/-- Where the rule ends. Two files set a table for one field, and the layers hold both of them joined. And a
relative path at which no file is leads to a file in a folder above the working folder: the path of a single
file, and the one of a service when a folder is there. -/
theorem first_source_does_not_always_count :
    (let near := "[paging.page_parameter]\na=1"
     let user := "[paging.page_parameter]\nb=2"
     let d := Disk.ofFiles ["w"] [("config.toml", near), ("/u/cursor-pagination/s/config.toml", user)]
     let disk := (places d "/u" "s").1
     [fileName, placeOf "/u" "s", placeOf "/etc" "s"].map disk.read? = [some near, some user, none] ∧
      effective "s" [some near, some user, none] [] pagingSection "page_parameter" = some (.table [("a", .integer 1)]) ∧
      ∃ layers, ((places d "/u" "s").2.map disk.loaded?).reverse.mapM fileLayer = .ok layers ∧
        (overlaid "s" layers []).at? pagingSection "page_parameter"
          = some (.table [("b", .integer 2), ("a", .integer 1)])) ∧
    (let text := "[paging]\ndefault_page_size=7"
     let files := Disk.ofFiles ["srv", "work"] [("/srv/app.toml", text), ("/srv/config.toml", text)]
     let d : Disk := { files with folders := [["srv", "work", "config.toml"]] }
     let disk := (places d "/u" "s").1
     d.read? "app.toml" = none ∧
      load standardService [none] [] = .ok (standard standardService) ∧
      ofFile d "app.toml" [] = .ok ⟨{ name := standardService }, { defaultSize := 7 }⟩ ∧
      [fileName, placeOf "/u" "s", placeOf "/etc" "s"].map disk.read? = [none, none, none] ∧
      load "s" [none, none, none] [] = .ok (standard "s") ∧
      ofService d "/u" "s" [] = .ok ⟨{ name := "s" }, { defaultSize := 7 }⟩) := by
  constructor
  · intro near user d disk
    have parsed_near : Toml.parse near
        = some (.table [("paging", .table [("page_parameter", .table [("a", .integer 1)])])]) := by
      unfold Toml.parse
      rw [String.toList_ofList]
      rfl
    have parsed_user : Toml.parse user
        = some (.table [("paging", .table [("page_parameter", .table [("b", .integer 2)])])]) := by
      unfold Toml.parse
      rw [String.toList_ofList]
      rfl
    have found : (places d "/u" "s").2.map disk.loaded? = [some near, some user, none] := by decide +kernel
    have layers : ((places d "/u" "s").2.map disk.loaded?).reverse.mapM fileLayer
        = .ok [.empty, .table [("paging", .table [("page_parameter", .table [("b", .integer 2)])])],
            .table [("paging", .table [("page_parameter", .table [("a", .integer 1)])])]] := by
      rw [found]
      show [none, some user, some near].mapM fileLayer = _
      simp only [List.mapM_cons, List.mapM_nil, fileLayer, parsed_near, parsed_user]
      rfl
    refine ⟨by decide +kernel, ?_, _, layers, rfl⟩
    simp [effective_eq, environmentSource, fileSource, parsed_near, Value.at?, Value.child?, pagingSection]
  · intro text files d disk
    have layer : fileLayer (some text) = .ok (.table [("paging", .table [("default_page_size", .integer 7)])]) := by
      have parsed : Toml.parse text = some (.table [("paging", .table [("default_page_size", .integer 7)])]) := by
        unfold Toml.parse
        rw [String.toList_ofList]
        rfl
      rw [fileLayer, parsed]
    have single : d.search? "app.toml" = some text := by decide +kernel
    have found : (places d "/u" "s").2.map disk.loaded? = [some text, none, none] := by decide +kernel
    refine ⟨by decide +kernel, rfl, ?_, by decide +kernel, rfl, ?_⟩
    · rw [ofFile, single, load, List.mapM_cons, layer]
      rfl
    · simp only [ofService]
      rw [found]
      show load "s" [none, none, some text] [] = _
      simp only [load, List.mapM_cons, List.mapM_nil, layer]
      rfl

end Pagemark.Settings
