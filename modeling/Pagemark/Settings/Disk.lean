/-
  Pagemark.Settings.Disk — files and folders by their paths, as data.

  Files and folders are listed by the names on the way to them from the root; the folders between are
  implied, and so are those above the folder that the program works in. Paths are walked name by
  name, so that the different spellings of a path lead to the same file, two dots lead out of the
  working folder as out of any other, and a path through something that is no folder leads nowhere.

  A file that is loaded by a relative path is looked for in the working folder, and then in one
  folder above it after another (`search?`). Among the places of a service only those count at which
  something is (`loaded?`); on the way to the one among the settings of the user, folders are made
  first (`places`).
-/

import Pagemark.Text.Cut

namespace Pagemark.Settings

open Text

/-! ## Paths -/

/-- Joins two paths; an absolute one stands for itself. -/
def joinPath (base path : String) : String :=
  if path.toList.head? = some '/' || base.isEmpty then path
  else if base.toList.getLast? = some '/' then base ++ path
  else base ++ "/" ++ path

def isAbsolute (path : String) : Bool := path.toList.head? == some '/'

/-- The names of a path. An absolute one begins with an empty name. -/
def pathNames (path : String) : List String := (pieces (· == '/') path.toList).map .ofList

/-- Where a name leads from a folder. -/
def plainStep (place : List String) (name : String) : List String :=
  if name = "" ∨ name = "." then place else if name = ".." then place.dropLast else place ++ [name]

/-- The greatest length of a name in bytes. -/
def maxNameLength : Nat := 255

/-- Whether a file or a folder can have the name. -/
def fits (name : String) : Bool := name.utf8ByteSize ≤ maxNameLength && !name.toList.contains '\x00'

/-- A folder and those above it, the nearest one first. -/
def above (place : List String) : List (List String) :=
  (List.range (place.length + 1)).map fun n => place.take (place.length - n)

/-! ## Disks -/

structure Disk where
  /-- Files with their contents. -/
  files : List (List String × String)
  /-- Folders; not all of them need to be listed. -/
  folders : List (List String)
  /-- The folder that the program works in. -/
  working : List String
  deriving DecidableEq, Repr

namespace Disk

/-- Files by their paths in a working folder. -/
def ofFiles (working : List String) (files : List (String × String)) : Disk where
  files := files.map fun (path, content) =>
    ((pathNames path).foldl plainStep (if isAbsolute path then [] else working), content)
  folders := []
  working := working

/-- The folders that have all others above them. -/
def anchors (d : Disk) : List (List String) := d.working :: (d.folders ++ d.files.map (·.1.dropLast))

def isFolder (d : Disk) (place : List String) : Bool := d.anchors.any place.isPrefixOf

def isFile (d : Disk) (place : List String) : Bool := (d.files.lookup place).isSome

/-! ## Reading -/

/-- One step of a path: names only lead on from a folder. -/
def step? (d : Disk) (place : List String) (name : String) : Option (List String) :=
  if d.isFolder place then some (plainStep place name) else none

/-- Where a path begins. -/
def start (d : Disk) (path : String) : List String := if isAbsolute path then [] else d.working

/-- Where a path leads from a folder. -/
def walk? (d : Disk) (place : List String) (path : String) : Option (List String) :=
  (pathNames path).foldlM d.step? place

/-- The content of the file at a path from a folder. -/
def readFrom? (d : Disk) (place : List String) (path : String) : Option String :=
  (d.walk? place path).bind fun last => d.files.lookup last

/-- The content of the file at a path. -/
def read? (d : Disk) (path : String) : Option String := d.readFrom? (d.start path) path

/-- Whether a folder is at a path. -/
def hasFolder (d : Disk) (path : String) : Bool := (d.walk? (d.start path) path).any d.isFolder

/-- Whether anything is at a path. -/
def has (d : Disk) (path : String) : Bool := d.hasFolder path || (d.read? path).isSome

/-- The content of the file that is found for a path. -/
def search? (d : Disk) (path : String) : Option String :=
  if isAbsolute path then d.read? path else (above d.working).findSome? (d.readFrom? · path)

/-- The content of the file that is found for a path, if something is at the path at all. -/
def loaded? (d : Disk) (path : String) : Option String := if d.has path then d.search? path else none

/-! ## Making folders -/

/-- Makes folders from one to the next, and tells whether all of them could be made. -/
def make (d : Disk) (place : List String) : List String → Disk × Bool
  | [] => (d, true)
  | name :: names =>
    let next := plainStep place name
    if d.isFile next || !fits name then (d, false)
    else { d with folders := next :: d.folders }.make next names

/-- Makes the folders on the way to a file. None is made for a path with a null character in it. -/
def makeWay (d : Disk) (path : String) : Disk × Bool :=
  let names := (pathNames path).dropLast
  if names.any (·.toList.contains '\x00') then (d, false) else d.make (d.start path) names

end Disk

/-! ## Where settings are looked for -/

/-- The folder of this library's settings among all settings. -/
def folderName : String := "cursor-pagination"

def fileName : String := "config.toml"

/-- The file of a service below a folder of settings. -/
def placeOf (base service : String) : String := joinPath (joinPath base folderName) (joinPath service fileName)

/-- The files of a service, the nearest one first: in the working folder, among the settings of
the user, if the folders on the way there can be made, and among those of the system. With them
the disk, on which these folders are made. -/
def places (d : Disk) (userSettings service : String) : Disk × List String :=
  let own := placeOf userSettings service
  let way := d.makeWay own
  (way.1, fileName :: ((if way.2 then [own] else []) ++ [placeOf "/etc" service]))

end Pagemark.Settings
