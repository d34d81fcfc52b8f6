/-
  Pagemark.Toml.Document — TOML documents.

  A document is read line by line into a tree of tables, each of which knows how it came to be:
  by a header of its own, by a longer header that passes through it, or by dotted keys. That
  decides which later lines may still add to it, and makes a second definition an error.
  Arrays, inline tables and dotted keys nest less than eighty levels deep.
-/

import Pagemark.Toml.Scalar

namespace Pagemark.Toml

/-- How a table came to be. -/
inductive Origin
  | header
  /-- It was passed through by a header. -/
  | implied
  | dotted
  deriving DecidableEq, Repr

/-- A part of a document. -/
inductive Item
  | value (v : Value)
  | table (origin : Origin) (entries : List (String × Item))
  /-- An array of tables, the newest one first. -/
  | tables (all : List Item)

namespace Item

/-- Puts an item under a key, in place of the one that was there. -/
def put (key : String) (item : Item) (entries : List (String × Item)) : List (String × Item) :=
  update key (fun _ => item) entries

/-- Changes the table at the end of a path. Tables on the way are made as needed; of an array of
tables the newest one is on the way. A dotted path leads into no table that has a header. -/
def within (isDotted : Bool) (f : Item → Option Item) : List String → Item → Option Item
  | [], t => f t
  | key :: path, .table origin entries =>
    let changed? := match entries.lookup key with
      | none => within isDotted f path (.table (if isDotted then .dotted else .implied) [])
      | some (.table inner children) =>
        if isDotted && inner == Origin.header then none else within isDotted f path (.table inner children)
      | some (.tables (newest :: older)) =>
        (within isDotted f path newest).map fun newest => .tables (newest :: older)
      | some _ => none
    changed?.map fun item => .table origin (put key item entries)
  | _, _ => none

/-- Adds a value to a table. Dotted keys only add to tables that dotted keys have made. -/
def add (isDotted : Bool) (key : String) (v : Value) : Item → Option Item
  | .table origin entries =>
    if (origin == Origin.dotted) != isDotted || (entries.lookup key).isSome then none
    else some (.table origin (put key (.value v) entries))
  | _ => none

/-- Adds a value under a dotted key. -/
def insert (path : List String) (v : Value) (t : Item) : Option Item :=
  match path.getLast? with
  | some key => within true (add (1 < path.length) key v) path.dropLast t
  | none => none

/-- Begins the table of a header. -/
def beginTable (key : String) : Item → Option Item
  | .table origin entries =>
    match entries.lookup key with
    | none => some (.table origin (put key (.table .header []) entries))
    | some (.table .implied children) => some (.table origin (put key (.table .header children) entries))
    | some _ => none
  | _ => none

/-- Begins one more table of an array of tables. -/
def beginNext (key : String) : Item → Option Item
  | .table origin entries =>
    match entries.lookup key with
    | none => some (.table origin (put key (.tables [.table .header []]) entries))
    | some (.tables all) => some (.table origin (put key (.tables (.table .header [] :: all)) entries))
    | some _ => none
  | _ => none

mutual

/-- The item as a value. -/
def toValue : Item → Value
  | .value v => v
  | .table _ entries => .table (entryValues entries)
  | .tables all => .list (itemValues all).reverse

def itemValues : List Item → List Value
  | [] => []
  | item :: more => item.toValue :: itemValues more

def entryValues : List (String × Item) → List (String × Value)
  | [] => []
  | (key, item) :: more => (key, item.toValue) :: entryValues more

end

end Item

/-! ## Values -/

/-- How deep values and keys nest at most. -/
def maxDepth : Nat := 79

/-- The items of an array behind its opening bracket. -/
def arrayItems (item : Reader Value) : (fuel : Nat) → Reader (List Value)
  | 0, _ => none
  | fuel + 1, cs =>
    match skipGaps false cs with
    | ']' :: cs => some ([], cs)
    | cs => do
      let (v, cs) ← item cs
      match skipGaps false cs with
      | ',' :: cs =>
        let (vs, cs) ← arrayItems item fuel cs
        return (v :: vs, cs)
      | ']' :: cs => return ([v], cs)
      | _ => none

/-- A dotted key and its value. -/
def pair (item : Reader Value) (cs : List Char) : Option ((List String × Value) × List Char) := do
  let (path, cs) ← keyPath maxDepth cs
  match cs with
  | '=' :: cs =>
    let (v, cs) ← item (skipBlanks cs)
    return ((path, v), cs)
  | _ => none

/-- The pairs of an inline table that is not empty, up to its closing brace. -/
def inlinePairs (item : Reader Value) : (fuel : Nat) → Reader (List (List String × Value))
  | 0, _ => none
  | fuel + 1, cs => do
    let (p, cs) ← pair item (skipBlanks cs)
    match skipBlanks cs with
    | ',' :: cs =>
      let (ps, cs) ← inlinePairs item fuel cs
      return (p :: ps, cs)
    | '\x7d' :: cs => return ([p], cs)
    | _ => none

/-- The inline table behind an opening brace. -/
def inlineTable (item : Reader Value) (cs : List Char) : Option (Value × List Char) :=
  match skipBlanks cs with
  | '\x7d' :: cs => some (.empty, cs)
  | cs => do
    let (pairs, cs) ← inlinePairs item (cs.length + 1) cs
    let t ← pairs.foldlM (fun t (path, v) => Item.insert path v t) (.table .header [])
    return (t.toValue, cs)

/-- A value. -/
def value : (depth : Nat) → Reader Value
  | 0, cs =>
    match string? cs with
    | some read => read.map fun (s, cs) => (.text s, cs)
    | none => scalar cs
  | depth + 1, cs =>
    match cs with
    | '[' :: cs => (arrayItems (value depth) (cs.length + 1) cs).map fun (vs, cs) => (.list vs, cs)
    | '\x7b' :: cs => inlineTable (value depth) cs
    | cs =>
      match string? cs with
      | some read => read.map fun (s, cs) => (.text s, cs)
      | none => scalar cs

/-! ## Lines -/

/-- The tree read so far and the path of the table that keys are added to. -/
structure Document where
  root : Item
  path : List String

namespace Document

/-- A header behind its opening bracket. -/
def header (d : Document) (cs : List Char) : Option (Document × List Char) := do
  let (isNext, cs) := match cs with
    | '[' :: cs => (true, cs)
    | cs => (false, cs)
  let (path, cs) ← keyPath maxDepth (skipBlanks cs)
  let key ← path.getLast?
  let root ← d.root.within false (if isNext then Item.beginNext key else Item.beginTable key) path.dropLast
  match cs with
  | ']' :: cs =>
    if isNext then
      match cs with
      | ']' :: cs => return (⟨root, path⟩, cs)
      | _ => none
    else return (⟨root, path⟩, cs)
  | _ => none

/-- A key and its value. -/
def keyValue (d : Document) (cs : List Char) : Option (Document × List Char) := do
  let ((path, v), cs) ← pair (value maxDepth) cs
  let root ← d.root.within false (Item.insert path v) d.path
  return (⟨root, d.path⟩, cs)

/-- What stands in one line, or in several when a value goes on. -/
def entry (d : Document) (cs : List Char) : Option (Document × List Char) :=
  match cs with
  | '[' :: cs => d.header cs
  | cs => d.keyValue cs

/-- The lines of a text. -/
def lines : (fuel : Nat) → Document → List Char → Option Document
  | 0, _, _ => none
  | fuel + 1, d, cs =>
    match skipGaps false cs with
    | [] => some d
    | cs => do
      let (d, cs) ← d.entry cs
      lines fuel d (← nextLine? cs)

end Document

/-- The table that a text describes; none when the text is no TOML. -/
def parse (s : String) : Option Value :=
  let cs := match s.toList with
    | '\uFEFF' :: cs => cs
    | cs => cs
  ((Document.lines (cs.length + 1) ⟨.table .header [], []⟩ cs).map (·.root.toValue))

end Pagemark.Toml
