/-
  Pagemark.Log.Pattern — patterns for the values of fields.

  A pattern is a regular expression. No event of this library is held against one, but a log
  setting that holds a broken one is no setting. `isWellFormed` reads a pattern from left to
  right and keeps in mind how many groups are open and whether there is something to repeat.

  A directive ends its pattern at a closing brace, so that no counted repetition is complete.
  Classes of characters that need the Unicode tables, and the edges of words, are not known.
-/

import Pagemark.Text.Numeral

namespace Pagemark.Log.Pattern

open Text

/-- The character that an escape stands for, behind its backslash. -/
def escaped? : List Char → Option (Char × List Char)
  | 'a' :: cs => some ('\x07', cs)
  | 'f' :: cs => some ('\x0c', cs)
  | 'n' :: cs => some ('\n', cs)
  | 'r' :: cs => some ('\r', cs)
  | 't' :: cs => some ('\t', cs)
  | 'v' :: cs => some ('\x0b', cs)
  | 'x' :: cs => hexCharacter? 2 cs
  | 'u' :: cs => hexCharacter? 4 cs
  | 'U' :: cs => hexCharacter? 8 cs
  | c :: cs => if c.isAlphanum || c == '<' || c == '>' || 0x7F < c.toNat then none else some (c, cs)
  | [] => none

/-! ## Classes -/

/-- A character of a class. -/
def member? : List Char → Option (Char × List Char)
  | '\\' :: cs => escaped? cs
  | c :: cs => some (c, cs)
  | [] => none

/-- What follows the start of a class: a caret, and then hyphens, or a bracket that does not
close it. -/
def afterOpening (cs : List Char) : List Char :=
  let cs := match cs with
    | '^' :: cs => cs
    | cs => cs
  match cs with
  | ']' :: cs => cs
  | cs => cs.dropWhile (· == '-')

/-- What follows a class that has `outer` classes around it; the ends of a range are in order. -/
def afterClass? : (fuel : Nat) → (outer : Nat) → List Char → Option (List Char)
  | 0, _, _ => none
  | fuel + 1, outer, '[' :: cs => afterClass? fuel (outer + 1) (afterOpening cs)
  | fuel + 1, outer, ']' :: cs =>
    match outer with
    | 0 => some cs
    | outer + 1 => afterClass? fuel outer cs
  | fuel + 1, outer, '-' :: '-' :: cs => afterClass? fuel outer cs
  | fuel + 1, outer, cs => do
    let (low, rest) ← member? cs
    match rest with
    | '-' :: c :: more =>
      if c = ']' ∨ c = '-' then afterClass? fuel outer rest
      else
        let (high, rest) ← member? (c :: more)
        if low ≤ high then afterClass? fuel outer rest else none
    | rest => afterClass? fuel outer rest

/-! ## Groups -/

/-- What follows the name of a group. -/
def afterName? (cs : List Char) : Option (List Char) :=
  let isInner (c : Char) : Bool := c.isAlphanum || "_.[]".toList.contains c
  match cs.takeWhile isInner, cs.dropWhile isInner with
  | c :: _, '>' :: rest => if c.isAlpha || c == '_' then some rest else none
  | _, _ => none

/-- What follows the start of a group, and whether the group is still open; flags alone are
closed at once. -/
def afterGroupOpening? : List Char → Option (Bool × List Char)
  | '?' :: 'P' :: '<' :: cs => (afterName? cs).map (true, ·)
  | '?' :: '<' :: cs => (afterName? cs).map (true, ·)
  | '?' :: cs =>
    let isFlag (c : Char) : Bool := "imsUuxR-".toList.contains c
    let flags := cs.takeWhile isFlag
    if !decide flags.Nodup || flags.getLast? == some '-' then none
    else
      match cs.dropWhile isFlag with
      | ':' :: rest => some (true, rest)
      | ')' :: rest => if flags.isEmpty then none else some (false, rest)
      | _ => none
  | cs => some (true, cs)

/-! ## Patterns -/

/-- Reads on with `groups` open, and something in front that can be repeated or not. -/
def readsOn : (fuel : Nat) → (groups : Nat) → (repeatable : Bool) → List Char → Bool
  | 0, _, _, _ => false
  | _ + 1, groups, _, [] => groups == 0
  | fuel + 1, groups, repeatable, c :: cs =>
    if c = '(' then
      match afterGroupOpening? cs with
      | some (isOpen, rest) => readsOn fuel (if isOpen then groups + 1 else groups) false rest
      | none => false
    else if c = ')' then 0 < groups && readsOn fuel (groups - 1) true cs
    else if c = '|' then readsOn fuel groups false cs
    else if c = '*' ∨ c = '+' ∨ c = '?' then repeatable && readsOn fuel groups true cs
    else if c = '\x7b' then false
    else if c = '[' then
      match afterClass? fuel 0 (afterOpening cs) with
      | some rest => readsOn fuel groups true rest
      | none => false
    else if c = '\\' then
      match cs with
      | 'A' :: rest => readsOn fuel groups true rest
      | 'z' :: rest => readsOn fuel groups true rest
      | _ =>
        match escaped? cs with
        | some (_, rest) => readsOn fuel groups true rest
        | none => false
    else readsOn fuel groups true cs

def isWellFormed (cs : List Char) : Bool := readsOn (cs.length + 1) 0 false cs

end Pagemark.Log.Pattern
