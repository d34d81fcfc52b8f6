/-
  Pagemark.Json.Record — records in JSON.

  A record is written as an object. It is read from an object, whose unknown members do not
  count and whose known ones may not be repeated, or from an array of its fields in order. What
  may be left out depends on the field and on the form: in an array only fields at the end, and
  only those that have a value of their own.
-/

import Pagemark.Json.Value

namespace Pagemark.Json

/-- What a field is when it is left out. -/
inductive Absence
  | error
  /-- Null; in an array it may not be left out. -/
  | null
  /-- A value of its own. -/
  | standard
  deriving DecidableEq, Repr

structure Field where
  name : String
  absence : Absence
  deriving DecidableEq, Repr

/-- A field that may not be left out. -/
def required (name : String) : Field := ⟨name, .error⟩

/-- A field that is null when an object leaves it out. -/
def nullable (name : String) : Field := ⟨name, .null⟩

/-- A field with a value of its own. -/
def optional (name : String) : Field := ⟨name, .standard⟩

namespace Field

/-- The value of a field among the members of an object; none inside when it has its own. -/
def find? (f : Field) (members : List (String × Value)) : Option (Option Value) :=
  match members.filter (·.1 == f.name), f.absence with
  | [(_, v)], _ => some (some v)
  | [], .null => some (some .null)
  | [], .standard => some none
  | _, _ => none

/-- The values of fields among the items of an array. -/
def zip? : List Field → List Value → Option (List (Option Value))
  | [], [] => some []
  | [], _ :: _ => none
  | f :: fs, [] => if f.absence = .standard then (zip? fs []).map (none :: ·) else none
  | _ :: fs, v :: vs => (zip? fs vs).map (some v :: ·)

end Field

/-- A member whose key is a text. -/
def member? (m : Option String × Value) : Option (String × Value) := m.1.map fun key => (key, m.2)

/-- The values of the fields in their order. -/
def Value.fields? (fields : List Field) : Value → Option (List (Option Value))
  | .object members =>
    match members.mapM member? with
    | some members => fields.mapM (·.find? members)
    | none => none
  | .array items => Field.zip? fields items
  | _ => none

/-- The value of a field that has one of its own when it is left out. -/
def orStandard {α : Type} (standard : α) (read : Value → Option α) : Option Value → Option α
  | some v => read v
  | none => some standard

end Pagemark.Json
