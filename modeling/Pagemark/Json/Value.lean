/-
  Pagemark.Json.Value — JSON values.

  A number keeps the digits it was written with, because a page index needs all 64 bits of its
  own. A text is absent when one of its escapes is half of a surrogate pair: such a value can be
  passed over, but it is no text. Objects keep their members in order, repeated keys included, so
  that a reader of records can refuse them.
-/

import Pagemark.Text.Numeral

namespace Pagemark.Json

inductive Value
  | null
  | flag (value : Bool)
  | number (numeral : String)
  | text (content : Option String)
  | array (items : List Value)
  | object (members : List (Option String × Value))

namespace Value

/-- A text value. -/
def ofText (s : String) : Value := .text (some s)

/-- A number value. -/
def ofNat (n : Nat) : Value := .number (Text.decimal n)

/-- The text, or null when there is none. -/
def ofTextOrNull : Option String → Value
  | some s => ofText s
  | none => .null

/-- An object with the members. -/
def ofMembers (members : List (String × Value)) : Value := .object (members.map fun (key, v) => (some key, v))

/-- The natural number of a numeral without sign, point and exponent, up to a limit. -/
def nat? (limit : Nat) : Value → Option Nat
  | .number numeral =>
    match numeral.toList with
    | c :: cs => if c.isDigit then (Text.readNat 10 limit (c :: cs)).toOption else none
    | [] => none
  | _ => none

def text? : Value → Option String
  | .text content => content
  | _ => none

/-- A text, or null for none. -/
def textOrNull? : Value → Option (Option String)
  | .null => some none
  | .text (some s) => some (some s)
  | _ => none

def items? : Value → Option (List Value)
  | .array items => some items
  | _ => none

end Value

end Pagemark.Json
