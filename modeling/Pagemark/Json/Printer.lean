/-
  Pagemark.Json.Printer — JSON values as text.

  `print` writes no blanks, `printLines` one item or member to a line. In a text the quotation
  mark, the backslash and the controls are escaped and every other character stands as it is.
-/

import Pagemark.Json.Value

namespace Pagemark.Json

open Text

/-- A control character without a letter of its own. -/
def escapeUnit (n : Nat) : List Char := ['\\', 'u', '0', '0', Nat.digitChar (n / 16), Nat.digitChar (n % 16)]

/-- One character of a text. -/
def escapeChar (c : Char) : List Char :=
  match c with
  | '\x22' => ['\\', '\x22']
  | '\\' => ['\\', '\\']
  | '\x08' => ['\\', 'b']
  | '\x0c' => ['\\', 'f']
  | '\n' => ['\\', 'n']
  | '\r' => ['\\', 'r']
  | '\t' => ['\\', 't']
  | c => if c.toNat < 0x20 then escapeUnit c.toNat else [c]

/-- A text between quotation marks. Where there is none, U+FFFD stands for it. -/
def printText (content : Option String) : List Char :=
  '\x22' :: ((content.getD "\uFFFD").toList.flatMap escapeChar ++ ['\x22'])

namespace Value

mutual

/-- The value as text without blanks. -/
def chars : Value → List Char
  | .null => ['n', 'u', 'l', 'l']
  | .flag true => ['t', 'r', 'u', 'e']
  | .flag false => ['f', 'a', 'l', 's', 'e']
  | .number numeral => numeral.toList
  | .text content => printText content
  | .array items => '[' :: (itemChars items ++ [']'])
  | .object members => '\x7b' :: (memberChars members ++ ['\x7d'])

/-- Items with commas between them. -/
def itemChars : List Value → List Char
  | [] => []
  | [v] => v.chars
  | v :: w :: more => v.chars ++ ',' :: itemChars (w :: more)

/-- Members with commas between them. -/
def memberChars : List (Option String × Value) → List Char
  | [] => []
  | [(key, v)] => printText key ++ ':' :: v.chars
  | (key, v) :: m :: more => printText key ++ ':' :: (v.chars ++ ',' :: memberChars (m :: more))

end

def print (v : Value) : String := .ofList v.chars

/-! ## On several lines -/

/-- A new line, `depth` levels in. -/
def newLine (depth : Nat) : List Char := '\n' :: List.replicate (2 * depth) ' '

mutual

/-- The value, `depth` levels in. -/
def lineChars (depth : Nat) : Value → List Char
  | .array [] => ['[', ']']
  | .array (v :: items) => '[' :: (itemLines (depth + 1) (v :: items) ++ newLine depth ++ [']'])
  | .object [] => ['\x7b', '\x7d']
  | .object (m :: members) => '\x7b' :: (memberLines (depth + 1) (m :: members) ++ newLine depth ++ ['\x7d'])
  | v => v.chars

def itemLines (depth : Nat) : List Value → List Char
  | [] => []
  | [v] => newLine depth ++ v.lineChars depth
  | v :: w :: more => newLine depth ++ v.lineChars depth ++ ',' :: itemLines depth (w :: more)

def memberLines (depth : Nat) : List (Option String × Value) → List Char
  | [] => []
  | [(key, v)] => newLine depth ++ printText key ++ ':' :: ' ' :: v.lineChars depth
  | (key, v) :: m :: more =>
    newLine depth ++ printText key ++ ':' :: ' ' :: (v.lineChars depth ++ ',' :: memberLines depth (m :: more))

end

def printLines (v : Value) : String := .ofList (v.lineChars 0)

end Value

end Pagemark.Json
