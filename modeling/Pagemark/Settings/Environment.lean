/-
  Pagemark.Settings.Environment — settings in environment variables.

  A variable whose name begins with `CURSOR_`, in letters of either case, sets the key that the
  rest of its name spells, with two underscores or a dot between nested keys. Its value is read
  as a number, a truth value, a quoted text, a list or a table where it has that form, and as
  plain text otherwise; so every value can be read.
-/

import Pagemark.Text.Blank
import Pagemark.Toml.Text
import Pagemark.Toml.Value

namespace Pagemark.Settings.Environment

open Text Toml

/-! ## Values -/

def isSpace (c : Char) : Bool := c == ' ' || c == '\t' || c == '\n' || c == '\r' || c == '\x0c'

def skipSpaces (cs : List Char) : List Char := cs.dropWhile isSpace

/-- Does not end a plain value. -/
def isPlain (c : Char) : Bool := !",\x7b\x7d[]".toList.contains c

/-- A value without quotes and brackets. -/
def plain (cs : List Char) : Value :=
  if cs.contains '.' && isReal cs then .real
  else
    match readNat 10 (UInt64.size - 1) cs with
    | .ok n => .integer n
    | .error _ =>
      match readInt 10 (UInt64.size / 2 - 1) cs with
      | .ok z => .integer z
      | .error _ => .text (.ofList cs)

/-- The items behind an opening bracket, up to `close`; a comma may follow the last one. -/
def items {α : Type} (close : Char) (item : Reader α) : (fuel : Nat) → Reader (List α)
  | 0, _ => none
  | fuel + 1, cs =>
    if cs.head? = some close then some ([], cs.drop 1)
    else do
      let (x, cs) ← item cs
      match cs with
      | c :: cs =>
        if c = ',' then
          let (xs, cs) ← items close item fuel cs
          return (x :: xs, cs)
        else if c = close then return ([x], cs)
        else none
      | [] => none

/-! ### Quoted texts -/

/-- What stands between quotation marks, behind the first of them; a mark behind a backslash is
part of it. -/
def quotedBody : Reader (List Char)
  | [] => none
  | '\x22' :: cs => some ([], cs)
  | '\\' :: c :: cs => (quotedBody cs).map fun (body, rest) => ('\\' :: c :: body, rest)
  | c :: cs => (quotedBody cs).map fun (body, rest) => (c :: body, rest)

/-- The text with each escape replaced; controls other than tabs are refused. -/
def unescape : (fuel : Nat) → List Char → Option (List Char)
  | 0, _ => none
  | _ + 1, [] => some []
  | fuel + 1, c :: cs =>
    if c = '\\' then do
      let (c, cs) ← escape cs
      return c :: (← unescape fuel cs)
    else if isPrintable c then (unescape fuel cs).map (c :: ·)
    else none

/-- The first characters of a text that fit into `room` bytes. -/
def fitting (room : Nat) : List Char → List Char
  | [] => []
  | c :: cs => if c.utf8Size ≤ room then c :: fitting (room - c.utf8Size) cs else []

/-- What stands before the first escape, of which only as many bytes are kept as it has
characters; without an escape everything. -/
def beforeEscapes (cs : List Char) : List Char :=
  let before := cs.takeWhile (· != '\\')
  if before.length = cs.length then cs else fitting before.length before

/-- A text behind its quotation mark. -/
def quotedText : Reader String := fun cs => do
  let (body, rest) ← quotedBody cs
  let escapes ← unescape (body.length + 1) (body.dropWhile (· != '\\'))
  if (body.takeWhile (· != '\\')).all isPrintable then
    return (.ofList (beforeEscapes body ++ escapes), rest)
  else none

/-! ### Tables and lists -/

/-- The key of a table's entry. -/
def key : Reader String
  | '\x22' :: cs => quotedText cs
  | cs =>
    let name := cs.takeWhile isBareKey
    if name.isEmpty then none else some (.ofList name, cs.dropWhile isBareKey)

/-- A key, an equals sign and a value. -/
def pair (value : Reader Value) (cs : List Char) : Option ((String × Value) × List Char) := do
  let (name, cs) ← key (skipSpaces cs)
  match skipSpaces cs with
  | '=' :: cs =>
    let (v, cs) ← value cs
    return ((name, v), cs)
  | _ => none

/-- Entries as a table; the last one of a key counts. -/
def tableOf (entries : List (String × Value)) : Value :=
  .table (entries.foldl (fun table (name, v) => update name (fun _ => v) table) [])

/-- A value of at most `depth` levels, with the spaces around it. -/
def value : (depth : Nat) → Reader Value
  | 0, _ => none
  | depth + 1, cs =>
    let read : Option (Value × List Char) := match skipSpaces cs with
      | 't' :: 'r' :: 'u' :: 'e' :: cs => some (.flag true, cs)
      | 'f' :: 'a' :: 'l' :: 's' :: 'e' :: cs => some (.flag false, cs)
      | '\x7b' :: cs =>
        (items '\x7d' (pair (value depth)) (cs.length + 1) cs).map fun (entries, cs) => (tableOf entries, cs)
      | '[' :: cs => (items ']' (value depth) (cs.length + 1) cs).map fun (vs, cs) => (.list vs, cs)
      | '\x22' :: cs => (quotedText cs).map fun (s, cs) => (.text s, cs)
      | '\x27' :: c :: '\x27' :: cs => some (.text (.ofList [c]), cs)
      | '\x27' :: _ => none
      | cs => some (plain (strip Text.isBlank (cs.takeWhile isPlain)), cs.dropWhile isPlain)
    read.map fun (v, cs) => (v, skipSpaces cs)

/-- The value of a variable. -/
def ofText (s : String) : Value :=
  match value (s.length + 1) s.toList with
  | some (v, []) => v
  | _ => .text s

/-! ## Names -/

/-- What the names of the variables begin with. -/
def marker : List Char := ['c', 'u', 'r', 's', 'o', 'r', '_']

/-- The nested keys that the name of a variable spells. Blanks around the name do not count,
nor do blanks around what follows the marker. -/
def path? (name : String) : Option (List String) :=
  let lower := (strip Text.isBlank name.toList).map Char.toLower
  match after? marker lower with
  | none => none
  | some rest =>
    let keys := pieces (· == '.') (replaceAll ['_', '_'] ['.'] (strip Text.isBlank rest))
    if keys.any (·.isEmpty) then none else some (keys.map .ofList)

/-- What one variable sets. -/
def entry? (setting : String × String) : Option Value :=
  (path? setting.1).map fun path => .nested path (ofText setting.2)

/-- What the variables set; of two for one key, the later one counts. -/
def layer (settings : List (String × String)) : Value := (settings.filterMap entry?).foldl .merge .empty

end Pagemark.Settings.Environment
