/-
  Pagemark.Toml.Text — the texts of TOML: blanks, comments, strings and keys.

  Every reader takes the characters that are left and gives back what follows the thing read;
  none means that the text is no TOML.
-/

import Pagemark.Text.Cut
import Pagemark.Text.Numeral

namespace Pagemark.Toml

open Pagemark.Text

/-- A reader of `α` at the front of a text. -/
abbrev Reader (α : Type) := List Char → Option (α × List Char)

/-! ## Lines -/

def isBlank (c : Char) : Bool := c == ' ' || c == '\t'

def skipBlanks (cs : List Char) : List Char := cs.dropWhile isBlank

/-- May stand in a comment or a string. -/
def isPrintable (c : Char) : Bool := c == '\t' || (0x20 ≤ c.toNat && c.toNat != 0x7F)

def afterNewline? : List Char → Option (List Char)
  | '\n' :: cs => some cs
  | '\r' :: '\n' :: cs => some cs
  | _ => none

/-- The next line, when nothing but blanks and a comment is left of this one. -/
def nextLine? (cs : List Char) : Option (List Char) :=
  let rest := match skipBlanks cs with
    | '#' :: comment => comment.dropWhile isPrintable
    | cs => cs
  if rest.isEmpty then some [] else afterNewline? rest

/-- Skips blanks, line ends and comments. -/
def skipGaps (inComment : Bool) : List Char → List Char
  | [] => []
  | '\r' :: '\n' :: cs => skipGaps false cs
  | c :: cs =>
    if c == '\n' then skipGaps false cs
    else if inComment then (if isPrintable c then skipGaps true cs else c :: cs)
    else if isBlank c then skipGaps false cs
    else if c == '#' then skipGaps true cs
    else c :: cs

/-- Skips blanks and line ends. -/
def skipBlankLines : List Char → List Char
  | [] => []
  | '\r' :: '\n' :: cs => skipBlankLines cs
  | c :: cs => if c == '\n' || isBlank c then skipBlankLines cs else c :: cs

/-! ## Strings -/

/-- What follows a backslash. -/
def escape : Reader Char
  | 'b' :: cs => some ('\x08', cs)
  | 't' :: cs => some ('\t', cs)
  | 'n' :: cs => some ('\n', cs)
  | 'f' :: cs => some ('\x0c', cs)
  | 'r' :: cs => some ('\r', cs)
  | '\x22' :: cs => some ('\x22', cs)
  | '\\' :: cs => some ('\\', cs)
  | 'u' :: cs => hexCharacter? 4 cs
  | 'U' :: cs => hexCharacter? 8 cs
  | _ => none

/-- A basic string on one line, behind its opening mark. -/
def basicBody : (fuel : Nat) → Reader (List Char)
  | 0, _ => none
  | _ + 1, [] => none
  | fuel + 1, c :: cs =>
    if c = '\x22' then some ([], cs)
    else if c = '\\' then do
      let (c, cs) ← escape cs
      let (body, cs) ← basicBody fuel cs
      return (c :: body, cs)
    else if isPrintable c then do
      let (body, cs) ← basicBody fuel cs
      return (c :: body, cs)
    else none

/-- A literal string on one line, behind its opening mark. -/
def literalBody (cs : List Char) : Option (List Char × List Char) :=
  match cs.dropWhile fun c => c != '\x27' && isPrintable c with
  | '\x27' :: rest => some (cs.takeWhile fun c => c != '\x27' && isPrintable c, rest)
  | _ => none

/-- A string of several lines, behind its three opening marks. Up to two marks in a row, also
in front of the three that end it, belong to the string. Only basic strings, whose mark is the
quotation mark, have escapes; a backslash at the end of a line skips the blanks after it. -/
def longBody (mark : Char) : (fuel : Nat) → Reader (List Char)
  | 0, _ => none
  | _ + 1, [] => none
  | fuel + 1, c :: cs =>
    if c = mark then
      let marks := ((c :: cs).takeWhile (· == mark)).length
      if 3 ≤ marks then
        let taken := min marks 5
        some (List.replicate (taken - 3) mark, (c :: cs).drop taken)
      else (longBody mark fuel cs).map fun (body, cs) => (c :: body, cs)
    else if c = '\\' ∧ mark = '\x22' then
      match afterNewline? (skipBlanks cs) with
      | some cs => longBody mark fuel (skipBlankLines cs)
      | none => do
        let (c, cs) ← escape cs
        let (body, cs) ← longBody mark fuel cs
        return (c :: body, cs)
    else
      match afterNewline? (c :: cs) with
      | some cs => (longBody mark fuel cs).map fun (body, cs) => ('\n' :: body, cs)
      | none =>
        if isPrintable c then (longBody mark fuel cs).map fun (body, cs) => (c :: body, cs) else none

/-- A string of several lines; a line end right behind the opening marks does not count. -/
def longString (mark : Char) (cs : List Char) : Option (String × List Char) :=
  let cs := (afterNewline? cs).getD cs
  (longBody mark (cs.length + 1) cs).map fun (body, rest) => (.ofList body, rest)

/-- A basic string behind its opening mark. -/
def basicString (cs : List Char) : Option (String × List Char) :=
  (basicBody (cs.length + 1) cs).map fun (body, rest) => (.ofList body, rest)

def literalString (cs : List Char) : Option (String × List Char) :=
  (literalBody cs).map fun (body, rest) => (.ofList body, rest)

/-- A string of any of the four kinds. -/
def string? : List Char → Option (Option (String × List Char))
  | '\x22' :: '\x22' :: '\x22' :: cs => some (longString '\x22' cs)
  | '\x27' :: '\x27' :: '\x27' :: cs => some (longString '\x27' cs)
  | '\x22' :: cs => some (basicString cs)
  | '\x27' :: cs => some (literalString cs)
  | _ => none

/-! ## Keys -/

def isBareKey (c : Char) : Bool := c.isAlphanum || c == '-' || c == '_'

def key : Reader String
  | '\x22' :: cs => basicString cs
  | '\x27' :: cs => literalString cs
  | cs =>
    let name := cs.takeWhile isBareKey
    if name.isEmpty then none else some (.ofList name, cs.dropWhile isBareKey)

/-- Keys between dots, at most `limit` of them, and the blanks behind them. -/
def keyPath : (limit : Nat) → Reader (List String)
  | 0, _ => none
  | limit + 1, cs => do
    let (name, cs) ← key cs
    match skipBlanks cs with
    | '.' :: cs =>
      let (names, cs) ← keyPath limit (skipBlanks cs)
      return (name :: names, cs)
    | cs => return ([name], cs)

end Pagemark.Toml
