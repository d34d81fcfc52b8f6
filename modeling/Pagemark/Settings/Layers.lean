/-
  Pagemark.Settings.Layers — settings put together from their sources.

  The sources are laid over one another: the defaults, the files from the most general to the
  nearest one, and the environment on top. Each may set any part of the settings. Only what
  lies on top is read, so a value of the wrong type does no harm when another one covers it.
  A section may be given as a table, or as a list of its fields in order.
-/

import Pagemark.Settings.Basic
import Pagemark.Settings.Disk
import Pagemark.Settings.Environment
import Pagemark.Toml.Document

namespace Pagemark

open Text Toml

/-- What is wrong with a value. -/
inductive ValueFault
  /-- A file is no TOML. -/
  | syntaxError
  | wrongType
  | outOfRange
  | missing
  | tooShort
  deriving DecidableEq, Repr

/-- Why there are no settings. -/
inductive LoadError
  /-- The value at a path cannot be read. -/
  | unreadable (fault : ValueFault) (path : List String)
  /-- The values do not go together. -/
  | unusable (fault : SettingsFault)
  deriving DecidableEq, Repr

namespace Settings

/-! ## Reading fields -/

def readSize (path : List String) : Value → Except LoadError UInt32
  | .integer n => if 0 ≤ n ∧ n.toNat < UInt32.size then .ok (.ofNat n.toNat) else .error (.unreadable .outOfRange path)
  | _ => .error (.unreadable .wrongType path)

def readText (path : List String) : Value → Except LoadError String
  | .text s => .ok s
  | _ => .error (.unreadable .wrongType path)

/-- A field of a section, or its standard value when the section does not set it. -/
def readField {α : Type} (part : String) (read : List String → Value → Except LoadError α) (standard : α)
    (label : String) : Option Value → Except LoadError α
  | some v => read [part, label] v
  | none => .ok standard

/-- A secret that is set. -/
def readSecret (path : List String) (v : Value) : Except LoadError (Option String) := (readText path v).map some

def pagingSection : String := "paging"

def serviceSection : String := "service"

/-- The fields of the paging section, where `field` tells the label and the value of the field
with a name and a position. They are read by position or in the order of their names; only the
place of the secret differs. -/
def readPagingFields (field : String → Nat → String × Option Value) (byPosition : Bool) :
    Except LoadError PagingSettings := do
  let standard : PagingSettings := {}
  let read {α : Type} (name : String) (position : Nat) (reader : List String → Value → Except LoadError α)
      (value : α) : Except LoadError α :=
    let (label, v) := field name position
    readField pagingSection reader value label v
  let readSecret := read "integrity_secret" 5 readSecret standard.secret
  let defaultSize ← read "default_page_size" 0 readSize standard.defaultSize
  unless byPosition do discard readSecret
  let maxSize ← read "max_page_size" 1 readSize standard.maxSize
  let page ← read "page_parameter" 2 readText standard.names.page
  let size ← read "size_parameter" 3 readText standard.names.size
  let sort ← read "sort_parameter" 4 readText standard.names.sort
  let secret ← readSecret
  return ⟨defaultSize, maxSize, ⟨page, size, sort⟩, secret⟩

def readPaging : Value → Except LoadError PagingSettings
  | .table entries => readPagingFields (fun name _ => (name, entries.lookup name)) false
  | .list items => readPagingFields (fun _ position => (decimal position, items[position]?)) true
  | _ => .error (.unreadable .wrongType [pagingSection])

def readService : Value → Except LoadError ServiceSettings
  | .table entries => do
    let level ← (entries.lookup "log_level").mapM (readText [serviceSection, "log_level"])
    match entries.lookup "name" with
    | none => .error (.unreadable .missing [serviceSection])
    | some v =>
      let name ← readText [serviceSection, "name"] v
      return ⟨name, level.getD ({ name } : ServiceSettings).logLevel⟩
  | .list [] => .error (.unreadable .tooShort [serviceSection])
  | .list (v :: more) => do
    let name ← readText [serviceSection, "0"] v
    let level ← more.head?.mapM (readText [serviceSection, "1"])
    return ⟨name, level.getD ({ name } : ServiceSettings).logLevel⟩
  | _ => .error (.unreadable .wrongType [serviceSection])

/-- The settings of the value on top of all layers. -/
def read (v : Value) : Except LoadError Settings := do
  let entries := match v with
    | .table entries => entries
    | _ => []
  let paging ← ((entries.lookup pagingSection).mapM readPaging)
  match entries.lookup serviceSection with
  | none => .error (.unreadable .missing [])
  | some v => return ⟨← readService v, paging.getD {}⟩

/-! ## Layers -/

/-- What holds where no source sets anything. -/
def defaults (service : String) : Value :=
  let s := standard service
  .table
    [(serviceSection, .table [("name", .text s.service.name), ("log_level", .text s.service.logLevel)]),
      (pagingSection, .table
        [("default_page_size", .integer s.paging.defaultSize.toNat), ("max_page_size", .integer s.paging.maxSize.toNat),
          ("page_parameter", .text s.paging.names.page), ("size_parameter", .text s.paging.names.size),
          ("sort_parameter", .text s.paging.names.sort)])]

/-- The table of a file; a file that is not there sets nothing. -/
def fileLayer : Option String → Except LoadError Value
  | none => .ok .empty
  | some text =>
    match Toml.parse text with
    | some v => .ok v
    | none => .error (.unreadable .syntaxError [])

/-- Settings that can be used. -/
def checked (s : Settings) : Except LoadError Settings :=
  match s.paging.fault? with
  | some fault => .error (.unusable fault)
  | none => .ok s

/-- The value on top of all layers, those of files with the most general one first. -/
def overlaid (service : String) (layers : List Value) (environment : List (String × String)) : Value :=
  (layers.foldl Value.merge (defaults service)).merge (Environment.layer environment)

/-- The settings of a service, from the texts of its files, the most general one first, and the
environment. -/
def load (service : String) (files : List (Option String)) (environment : List (String × String)) :
    Except LoadError Settings := do
  let layers ← files.mapM fileLayer
  checked (← read (overlaid service layers environment))

/-- The settings of a service, from the files where it looks for them and the environment. -/
def ofService (d : Disk) (userSettings service : String) (environment : List (String × String)) :
    Except LoadError Settings :=
  let sought := places d userSettings service
  load service (sought.2.map sought.1.loaded?).reverse environment

/-- The settings of a single file, which does not tell whose they are, and the environment. -/
def ofFile (d : Disk) (path : String) (environment : List (String × String)) : Except LoadError Settings :=
  load standardService [d.search? path] environment

end Settings

end Pagemark
