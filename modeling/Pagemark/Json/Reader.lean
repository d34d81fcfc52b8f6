/-
  Pagemark.Json.Reader — values of lexemes.

  The reader is a machine with a stack: a frame for each array or object that is open, holding
  what has been read of it. Values may nest to any depth, and the machine reads every lexeme
  once.
-/

import Pagemark.Json.Lexeme

namespace Pagemark.Json

/-- An open array, or an open object with the key whose value is read. What they hold so far
stands newest first. -/
inductive Frame
  | array (items : List Value)
  | object (members : List (Option String × Value)) (key : Option String)

/-- What has been read, and so what may follow. -/
inductive Reader
  | beforeValue (stack : List Frame)
  /-- Behind the opening bracket of an array. -/
  | inArray (stack : List Frame)
  | afterItem (items : List Value) (stack : List Frame)
  /-- Where a key has to stand; an object that was just opened may end instead. -/
  | beforeKey (members : List (Option String × Value)) (canEnd : Bool) (stack : List Frame)
  | afterKey (members : List (Option String × Value)) (key : Option String) (stack : List Frame)
  | afterMember (members : List (Option String × Value)) (stack : List Frame)
  | complete (value : Value)

namespace Reader

/-- Puts a complete value into the frame that it stands in. -/
def place (v : Value) : List Frame → Reader
  | [] => .complete v
  | .array items :: stack => .afterItem (v :: items) stack
  | .object members key :: stack => .afterMember ((key, v) :: members) stack

/-- A lexeme that begins a value. -/
def open? (stack : List Frame) : Lexeme → Option Reader
  | .openArray => some (.inArray stack)
  | .openObject => some (.beforeKey [] true stack)
  | .text content => some (place (.text content) stack)
  | .word v => some (place v stack)
  | _ => none

def step : Reader → Lexeme → Option Reader
  | .beforeValue stack, l => open? stack l
  | .inArray stack, .closeArray => some (place (.array []) stack)
  | .inArray stack, l => open? (.array [] :: stack) l
  | .afterItem items stack, .comma => some (.beforeValue (.array items :: stack))
  | .afterItem items stack, .closeArray => some (place (.array items.reverse) stack)
  | .beforeKey members _ stack, .text key => some (.afterKey members key stack)
  | .beforeKey _ true stack, .closeObject => some (place (.object []) stack)
  | .afterKey members key stack, .colon => some (.beforeValue (.object members key :: stack))
  | .afterMember members stack, .comma => some (.beforeKey members false stack)
  | .afterMember members stack, .closeObject => some (place (.object members.reverse) stack)
  | _, _ => none

def run (r : Reader) (ls : List Lexeme) : Option Reader := ls.foldlM step r

end Reader

/-- The value that a text is. -/
def Value.parse? (s : String) : Option Value := do
  let lexemes ← lexemes? s.toList
  match ← (Reader.beforeValue []).run lexemes with
  | .complete v => some v
  | _ => none

end Pagemark.Json
