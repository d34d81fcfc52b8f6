/-
  Pagemark.Sorting — the order in which a collection is listed.

  A `Sorting` is a list of keys, the first of which decides and the later ones break ties;
  the empty list leaves the collection unsorted. It travels in query values: each value lists
  properties and may end in one direction word, which then holds for all properties of that
  value. Blank segments are skipped, so the last segment that is not blank decides whether
  there is a direction. Writing gives one value per key and always names the direction.
-/

import Pagemark.Text.Blank
import Pagemark.Text.Cut

namespace Pagemark

open Text

inductive Direction
  | ascending
  | descending
  deriving DecidableEq, Repr

instance : Inhabited Direction := ⟨.ascending⟩

/-- A property and the direction to sort it in. -/
structure SortKey where
  property : String
  direction : Direction
  deriving DecidableEq, Repr

/-- Keys in order of precedence. -/
abbrev Sorting := List SortKey

/-- Why a text names no sorting. -/
inductive SortError
  /-- The value holds a direction and no property. -/
  | missingProperty (value : String)
  | unknownDirection (value : String)
  deriving DecidableEq, Repr

def SortError.message : SortError → String
  | .missingProperty value => "'" ++ value ++ "' does not name a property to sort by"
  | .unknownDirection value => "'" ++ value ++ "' is not a sort direction (expected asc or desc)"

namespace Direction

def word : Direction → String
  | .ascending => "asc"
  | .descending => "desc"

/-- The direction that a word names; the case of ASCII letters does not matter. -/
def ofWord? (cs : List Char) : Option Direction :=
  let lower := cs.map Char.toLower
  if lower = ['a', 's', 'c'] then some .ascending
  else if lower = ['d', 'e', 's', 'c'] then some .descending
  else none

/-- The direction that a text names, blanks around the word apart. -/
def parse (s : String) : Except SortError Direction :=
  match ofWord? (strip isBlank s.toList) with
  | some d => .ok d
  | none => .error (.unknownDirection s)

end Direction

/-- The property, a comma and the direction. -/
def SortKey.text (key : SortKey) : String := key.property ++ "," ++ key.direction.word

namespace Sorting

/-- The trimmed segments between commas that are not blank. -/
def segments (cs : List Char) : List (List Char) :=
  ((pieces (· == ',') cs).map (strip isBlank)).filter (!·.isEmpty)

/-- Properties and direction of one value: the last segment is taken off when it is a
direction word. -/
def takeDirection (segments : List (List Char)) : List (List Char) × Direction :=
  match segments.getLast?.bind Direction.ofWord? with
  | some d => (segments.dropLast, d)
  | none => (segments, .ascending)

/-- The keys of one query value. -/
def parseValue (value : String) : Except SortError Sorting :=
  match segments value.toList with
  | [] => .ok []
  | found =>
    match takeDirection found with
    | ([], _) => .error (.missingProperty value)
    | (properties, d) => .ok (properties.map fun p => ⟨.ofList p, d⟩)

/-- The keys of all values in the order given; the first value at fault is reported. -/
def parse : List String → Except SortError Sorting
  | [] => .ok []
  | value :: more =>
    match parseValue value with
    | .error e => .error e
    | .ok keys =>
      match parse more with
      | .error e => .error e
      | .ok rest => .ok (keys ++ rest)

/-- One value per key. -/
def values (s : Sorting) : List String := s.map SortKey.text

/-- All keys on one line. -/
def text : Sorting → String
  | [] => "unsorted"
  | keys => "; ".intercalate (values keys)

end Sorting

end Pagemark
