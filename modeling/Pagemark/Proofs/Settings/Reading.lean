/-
  Pagemark.Proofs.Settings.Reading — what the raw values of the fields make.

  Settings are read from two tables, and in them from the eight fields alone. No field takes a table, so
  that one table is as good as another where one is given (`Alike`): what is wrong is the same. So what is
  read is a matter of the raw values of the eight fields, with nothing else that a table may hold.

  Proved: `read_congr` — the same values and the same errors for alike raw values; `read_eq_ok_iff` — settings
  are read exactly when each raw value has the type of its field, and then they are made of these values.
-/

import Pagemark.Proofs.Toml.Merge
import Pagemark.Settings.Layers

namespace Pagemark.Settings

open Toml
open Value (Alike)

/-! ## Fields -/

/-- The raw values of the fields of the sections. -/
abbrev Source := String → String → Option Value

def serviceFields : List String := ["name", "log_level"]

def pagingFields : List String :=
  ["default_page_size", "max_page_size", "page_parameter", "size_parameter", "sort_parameter", "integrity_secret"]

/-- The fields, each with its section. -/
def fields : List (String × String) :=
  serviceFields.map (serviceSection, ·) ++ pagingFields.map (pagingSection, ·)

def sections : List String := [serviceSection, pagingSection]

/-- Each raw value is of the type of its field, and the settings are made of them. Only the secret may
be missing. -/
structure Typed (raw : Source) (s : Settings) : Prop where
  name : raw serviceSection "name" = some (.text s.service.name)
  logLevel : raw serviceSection "log_level" = some (.text s.service.logLevel)
  defaultSize : raw pagingSection "default_page_size" = some (.integer s.paging.defaultSize.toNat)
  maxSize : raw pagingSection "max_page_size" = some (.integer s.paging.maxSize.toNat)
  page : raw pagingSection "page_parameter" = some (.text s.paging.names.page)
  size : raw pagingSection "size_parameter" = some (.text s.paging.names.size)
  sort : raw pagingSection "sort_parameter" = some (.text s.paging.names.sort)
  secret : raw pagingSection "integrity_secret" = s.paging.secret.map .text

/-- Every field but the secret has a raw value. -/
def Complete (raw : Source) : Prop :=
  ∀ field ∈ fields, field.2 ≠ "integrity_secret" → (raw field.1 field.2).isSome = true

/-! ## One field -/

theorem bind_eq_ok_iff {ε α β : Type} {x : Except ε α} {f : α → Except ε β} {b : β} :
    x >>= f = .ok b ↔ ∃ a, x = .ok a ∧ f a = .ok b := by
  cases x with
  | error e =>
    constructor
    · rintro ⟨⟩
    · rintro ⟨a, h, -⟩
      cases h
  | ok a =>
    constructor
    · exact fun h => ⟨a, rfl, h⟩
    · rintro ⟨a', h, h'⟩
      cases h
      exact h'

theorem discard_eq_ok_iff {ε α : Type} {x : Except ε α} {u : Unit} :
    discard x = .ok u ↔ ∃ a, x = .ok a := by
  cases x with
  | error e =>
    constructor
    · rintro ⟨⟩
    · rintro ⟨a, h⟩
      cases h
  | ok a => exact iff_of_true rfl ⟨a, rfl⟩

section

variable {α : Type} {path : List String} {part label : String}

/-- A reader that takes no tables, and finds the same fault with all of them. -/
def TakesNoTables (read : List String → Value → Except LoadError α) : Prop :=
  ∀ path entries, read path (.table entries) = .error (.unreadable .wrongType path)

theorem readSize_takesNoTables : TakesNoTables readSize := fun _ _ => rfl

theorem readText_takesNoTables : TakesNoTables readText := fun _ _ => rfl

theorem readSecret_takesNoTables : TakesNoTables readSecret := fun _ _ => rfl

theorem TakesNoTables.mapM_congr {read : List String → Value → Except LoadError α} (h : TakesNoTables read)
    {v w : Option Value} (alike : Alike v w) (path : List String) : v.mapM (read path) = w.mapM (read path) := by
  cases alike with
  | refl => rfl
  | tables entries entries' => rw [Option.mapM_some, Option.mapM_some, h path entries, h path entries']

theorem TakesNoTables.readField_congr {read : List String → Value → Except LoadError α} (h : TakesNoTables read)
    {v w : Option Value} (alike : Alike v w) (standard : α) :
    readField part read standard label v = readField part read standard label w := by
  cases alike with
  | refl => rfl
  | tables entries entries' => rw [readField, readField, h _ entries, h _ entries']

theorem readText_eq_ok_iff {v : Value} {s : String} : readText path v = .ok s ↔ v = .text s := by
  cases v <;> simp [readText]

theorem readSize_eq_ok_iff {v : Value} {n : UInt32} : readSize path v = .ok n ↔ v = .integer n.toNat := by
  cases v with
  | integer z =>
    simp only [readSize, Value.integer.injEq]
    split
    · rename_i range
      rw [Except.ok.injEq, ← UInt32.toNat_inj, UInt32.toNat_ofNat_of_lt' range.2]
      omega
    · rename_i range
      refine iff_of_false (by simp) ?_
      rintro rfl
      exact range ⟨by omega, by simpa using n.toNat_lt⟩
  | _ => simp [readSize]

theorem mapM_readText_eq_ok_iff {v : Option Value} {s : Option String} :
    v.mapM (readText path) = .ok s ↔ v = s.map .text := by
  cases v with
  | none => cases s <;> simp [pure, Except.pure]
  | some v => cases v <;> cases s <;> simp [readText]

theorem readField_size_iff (part label : String) {v : Option Value} (present : v.isSome = true) {standard n : UInt32} :
    readField part readSize standard label v = .ok n ↔ v = some (.integer n.toNat) := by
  obtain ⟨v, rfl⟩ := Option.isSome_iff_exists.mp present
  rw [readField, readSize_eq_ok_iff, Option.some_inj]

theorem readField_text_iff (part label : String) {v : Option Value} (present : v.isSome = true) {standard s : String} :
    readField part readText standard label v = .ok s ↔ v = some (.text s) := by
  obtain ⟨v, rfl⟩ := Option.isSome_iff_exists.mp present
  rw [readField, readText_eq_ok_iff, Option.some_inj]

/-- There is no secret unless one is set. -/
theorem readField_secret_iff {v : Option Value} {s : Option String} :
    readField part readSecret none label v = .ok s ↔ v = s.map .text := by
  cases v with
  | none => cases s <;> simp [readField]
  | some v => cases v <;> cases s <;> simp [readField, readSecret, readText, Except.map]

end

/-! ## Sections -/

section

variable {entries entries' : List (String × Value)}

theorem readService_congr (alike : ∀ field ∈ serviceFields, Alike (entries.lookup field) (entries'.lookup field)) :
    readService (.table entries) = readService (.table entries') := by
  have level := readText_takesNoTables.mapM_congr (alike "log_level" (by decide)) [serviceSection, "log_level"]
  have name := alike "name" (by decide)
  simp only [readService, level]
  generalize entries.lookup "name" = v at name
  generalize entries'.lookup "name" = w at name
  cases name with
  | refl => rfl
  | tables _ _ => rfl

theorem readPaging_congr (alike : ∀ field ∈ pagingFields, Alike (entries.lookup field) (entries'.lookup field)) :
    readPaging (.table entries) = readPaging (.table entries') := by
  have size {field : String} {standard : UInt32} (h : field ∈ pagingFields) :
      readField pagingSection readSize standard field (entries.lookup field)
        = readField pagingSection readSize standard field (entries'.lookup field) :=
    readSize_takesNoTables.readField_congr (alike field h) standard
  have text {field standard : String} (h : field ∈ pagingFields) :
      readField pagingSection readText standard field (entries.lookup field)
        = readField pagingSection readText standard field (entries'.lookup field) :=
    readText_takesNoTables.readField_congr (alike field h) standard
  have secret : readField pagingSection readSecret none "integrity_secret" (entries.lookup "integrity_secret")
      = readField pagingSection readSecret none "integrity_secret" (entries'.lookup "integrity_secret") :=
    readSecret_takesNoTables.readField_congr (alike "integrity_secret" (by decide)) none
  simp only [readPaging, readPagingFields]
  rw [size (by decide), size (by decide), text (by decide), text (by decide), text (by decide), secret]

theorem readService_eq_ok_iff (present : ∀ field ∈ serviceFields, (entries.lookup field).isSome = true)
    {s : ServiceSettings} :
    readService (.table entries) = .ok s ↔
      entries.lookup "name" = some (.text s.name) ∧ entries.lookup "log_level" = some (.text s.logLevel) := by
  obtain ⟨name, hname⟩ := Option.isSome_iff_exists.mp (present "name" (by decide))
  simp only [readService, hname, bind_eq_ok_iff, mapM_readText_eq_ok_iff, readText_eq_ok_iff, Option.some_inj]
  constructor
  · rintro ⟨level, hlevel, name', rfl, made⟩
    cases made
    cases level with
    | none =>
      have := present "log_level" (by decide)
      rw [hlevel] at this
      cases this
    | some level => exact ⟨rfl, hlevel⟩
  · rintro ⟨rfl, hlevel⟩
    exact ⟨some s.logLevel, hlevel, s.name, rfl, rfl⟩

theorem readPaging_eq_ok_iff (present : ∀ field ∈ pagingFields, field ≠ "integrity_secret" → (entries.lookup field).isSome = true)
    {s : PagingSettings} :
    readPaging (.table entries) = .ok s ↔
      entries.lookup "default_page_size" = some (.integer s.defaultSize.toNat) ∧
      entries.lookup "max_page_size" = some (.integer s.maxSize.toNat) ∧
      entries.lookup "page_parameter" = some (.text s.names.page) ∧
      entries.lookup "size_parameter" = some (.text s.names.size) ∧
      entries.lookup "sort_parameter" = some (.text s.names.sort) ∧
      entries.lookup "integrity_secret" = s.secret.map .text := by
  have size := fun field h other => @readField_size_iff pagingSection field _ (present field h other)
  have text := fun field h other => @readField_text_iff pagingSection field _ (present field h other)
  simp only [readPaging, readPagingFields, Bool.false_eq_true, if_false, bind_eq_ok_iff, discard_eq_ok_iff,
    size "default_page_size" (by decide) (by decide), size "max_page_size" (by decide) (by decide),
    text "page_parameter" (by decide) (by decide), text "size_parameter" (by decide) (by decide),
    text "sort_parameter" (by decide) (by decide), readField_secret_iff]
  constructor
  · rintro ⟨_, hdefault, -, -, _, hmax, _, hpage, _, hsize, _, hsort, _, hsecret, made⟩
    cases made
    exact ⟨hdefault, hmax, hpage, hsize, hsort, hsecret⟩
  · rintro ⟨hdefault, hmax, hpage, hsize, hsort, hsecret⟩
    exact ⟨_, hdefault, (), ⟨_, hsecret⟩, _, hmax, _, hpage, _, hsize, _, hsort, _, hsecret, rfl⟩

end

/-! ## Both sections -/

/-- Tables under the names of both sections. -/
structure InSections (v : Value) (service paging : List (String × Value)) : Prop where
  service : v.child? serviceSection = some (.table service)
  paging : v.child? pagingSection = some (.table paging)

theorem read_of_inSections {v : Value} {service paging : List (String × Value)} (h : InSections v service paging) :
    read v = (do
      let paging ← readPaging (.table paging)
      let service ← readService (.table service)
      return ⟨service, paging⟩) := by
  cases v with
  | table entries =>
    have hservice : entries.lookup serviceSection = some (.table service) := h.service
    have hpaging : entries.lookup pagingSection = some (.table paging) := h.paging
    simp only [read, hservice, hpaging, Option.mapM_some]
    cases readPaging (.table paging) <;> rfl
  | _ => cases h.service

theorem at?_service {v : Value} {service paging : List (String × Value)} (h : InSections v service paging)
    (field : String) : v.at? serviceSection field = service.lookup field := by
  rw [Value.at?, h.service]
  rfl

theorem at?_paging {v : Value} {service paging : List (String × Value)} (h : InSections v service paging)
    (field : String) : v.at? pagingSection field = paging.lookup field := by
  rw [Value.at?, h.paging]
  rfl

theorem read_congr {v w : Value} {service paging service' paging' : List (String × Value)}
    (hv : InSections v service paging) (hw : InSections w service' paging')
    (alike : ∀ field ∈ fields, Alike (v.at? field.1 field.2) (w.at? field.1 field.2)) : read v = read w := by
  obtain ⟨onService, onPaging⟩ := List.forall_mem_append.mp alike
  simp only [List.forall_mem_map, at?_service hv, at?_service hw, at?_paging hv, at?_paging hw] at onService onPaging
  rw [read_of_inSections hv, read_of_inSections hw, readPaging_congr onPaging, readService_congr onService]

theorem read_eq_ok_iff {v : Value} {service paging : List (String × Value)} (h : InSections v service paging)
    (complete : Complete v.at?) {s : Settings} : read v = .ok s ↔ Typed v.at? s := by
  obtain ⟨onService, onPaging⟩ := List.forall_mem_append.mp complete
  simp only [List.forall_mem_map, at?_service h, at?_paging h] at onService onPaging
  have inService : ∀ field ∈ serviceFields, (service.lookup field).isSome = true := fun field hfield =>
    onService field hfield (by rintro rfl; revert hfield; decide)
  simp only [read_of_inSections h, bind_eq_ok_iff, readPaging_eq_ok_iff onPaging, readService_eq_ok_iff inService]
  constructor
  · rintro ⟨_, ⟨hdefault, hmax, hpage, hsize, hsort, hsecret⟩, _, ⟨hname, hlevel⟩, made⟩
    cases made
    constructor <;> simpa only [at?_service h, at?_paging h]
  · rintro ⟨hname, hlevel, hdefault, hmax, hpage, hsize, hsort, hsecret⟩
    simp only [at?_service h, at?_paging h] at hname hlevel hdefault hmax hpage hsize hsort hsecret
    exact ⟨_, ⟨hdefault, hmax, hpage, hsize, hsort, hsecret⟩, _, ⟨hname, hlevel⟩, rfl⟩

/-! ### The fields and nothing else -/

/-- The fields of a section that have a raw value. -/
def column (raw : Source) (part : String) (names : List String) : List (String × Value) :=
  names.filterMap fun field => (raw part field).map (field, ·)

/-- A value that holds the raw values of the eight fields and nothing else. -/
def assembled (raw : Source) : Value :=
  .table
    [(serviceSection, .table (column raw serviceSection serviceFields)),
      (pagingSection, .table (column raw pagingSection pagingFields))]

theorem lookup_column (raw : Source) (part : String) (names : List String) (field : String) :
    (column raw part names).lookup field = if field ∈ names then raw part field else none := by
  induction names with
  | nil => rfl
  | cons name names ih =>
    unfold column at ih ⊢
    by_cases same : field = name
    · subst same
      cases hraw : raw part field with
      | none =>
        rw [List.filterMap_cons_none (by rw [hraw]; rfl), ih, hraw]
        simp
      | some v =>
        rw [List.filterMap_cons_some (by rw [hraw]; rfl)]
        simp
    · have other : (field == name) = false := beq_eq_false_iff_ne.mpr same
      cases hraw : raw part name with
      | none =>
        rw [List.filterMap_cons_none (by rw [hraw]; rfl), ih]
        simp [same]
      | some v =>
        rw [List.filterMap_cons_some (by rw [hraw]; rfl), List.lookup_cons, other]
        simpa [same] using ih

theorem inSections_assembled (raw : Source) :
    InSections (assembled raw) (column raw serviceSection serviceFields) (column raw pagingSection pagingFields) :=
  ⟨rfl, rfl⟩

theorem at?_assembled (raw : Source) : ∀ field ∈ fields, (assembled raw).at? field.1 field.2 = raw field.1 field.2 := by
  refine List.forall_mem_append.mpr ⟨?_, ?_⟩
  · intro field hfield
    obtain ⟨name, hname, rfl⟩ := List.mem_map.mp hfield
    exact (lookup_column raw serviceSection serviceFields name).trans (if_pos hname)
  · intro field hfield
    obtain ⟨name, hname, rfl⟩ := List.mem_map.mp hfield
    exact (lookup_column raw pagingSection pagingFields name).trans (if_pos hname)

theorem typed_congr {raw raw' : Source} (h : ∀ field ∈ fields, raw field.1 field.2 = raw' field.1 field.2)
    {s : Settings} (typed : Typed raw s) : Typed raw' s := by
  obtain ⟨hname, hlevel, hdefault, hmax, hpage, hsize, hsort, hsecret⟩ := typed
  exact ⟨h (serviceSection, "name") (by decide) ▸ hname, h (serviceSection, "log_level") (by decide) ▸ hlevel,
    h (pagingSection, "default_page_size") (by decide) ▸ hdefault, h (pagingSection, "max_page_size") (by decide) ▸ hmax,
    h (pagingSection, "page_parameter") (by decide) ▸ hpage, h (pagingSection, "size_parameter") (by decide) ▸ hsize,
    h (pagingSection, "sort_parameter") (by decide) ▸ hsort, h (pagingSection, "integrity_secret") (by decide) ▸ hsecret⟩

/-- Settings are read from the raw values of the fields alone: exactly when they are of the right types. -/
theorem read_assembled_eq_ok_iff {raw : Source} (complete : Complete raw) {s : Settings} :
    read (assembled raw) = .ok s ↔ Typed raw s := by
  have same := at?_assembled raw
  have complete' : Complete (assembled raw).at? := by
    intro field hfield other
    rw [same field hfield]
    exact complete field hfield other
  rw [read_eq_ok_iff (inSections_assembled raw) complete']
  exact ⟨typed_congr same, typed_congr fun field hfield => (same field hfield).symm⟩

end Pagemark.Settings
