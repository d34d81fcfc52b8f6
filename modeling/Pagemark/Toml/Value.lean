/-
  Pagemark.Toml.Value — TOML values and their overlay.

  Tables keep their entries as a list with one entry for a key. `merge` lays one value over
  another: tables are joined key by key, at every depth, and anything else gives way to what
  is laid over it.
-/

namespace Pagemark.Toml

inductive Value
  | text (content : String)
  | integer (value : Int)
  /-- A number with a point or an exponent; which one does not matter to any setting. -/
  | real
  | flag (value : Bool)
  | list (items : List Value)
  | table (entries : List (String × Value))

/-- Changes the value of a key, which may be absent. -/
def update {α : Type} (key : String) (f : Option α → α) : List (String × α) → List (String × α)
  | [] => [(key, f none)]
  | (k, v) :: rest => if k = key then (k, f (some v)) :: rest else (k, v) :: update key f rest

namespace Value

mutual

/-- The second value laid over the first. -/
def merge (under : Value) : Value → Value
  | .table entries =>
    match under with
    | .table old => .table (mergeEntries old entries)
    | _ => .table entries
  | upper => upper

/-- Each entry of the second list laid over the first list. -/
def mergeEntries (under : List (String × Value)) : List (String × Value) → List (String × Value)
  | [] => under
  | (key, upper) :: rest =>
    mergeEntries
      (update key (fun old =>
        match old with
        | some old => merge old upper
        | none => upper) under)
      rest

end

/-- An empty table. -/
def empty : Value := .table []

/-- A value under nested keys. -/
def nested (path : List String) (v : Value) : Value := path.foldr (fun key inner => .table [(key, inner)]) v

end Value

end Pagemark.Toml
