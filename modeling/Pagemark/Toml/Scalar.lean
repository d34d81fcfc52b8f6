/-
  Pagemark.Toml.Scalar — numbers, truth values and dates in TOML.

  Such a value is one word, which ends at a blank, a line end, a comment or the mark behind it.
  A date may be followed by a single space and a time. Dates and times are checked and read
  as tables with one entry, so that they are of no use where a text or a number is expected.
-/

import Pagemark.Toml.Text
import Pagemark.Toml.Value

namespace Pagemark.Toml

open Pagemark.Text

/-! ## Digits -/

/-- Digits, with single underscores between them, and what follows. -/
def groupedDigits (isDigit : Char → Bool) : List Char → List Char × List Char
  | [] => ([], [])
  | [c] => if isDigit c then ([c], []) else ([], [c])
  | c :: d :: cs =>
    if isDigit c then
      let (digits, rest) := groupedDigits isDigit (d :: cs)
      (c :: digits, rest)
    else if c == '_' && isDigit d then groupedDigits isDigit (d :: cs)
    else ([], c :: d :: cs)

/-- One or more digits; none of them is in front of the first underscore. -/
def digitRun (isDigit : Char → Bool) : Reader (List Char)
  | [] => none
  | c :: cs => if isDigit c then some (groupedDigits isDigit (c :: cs)) else none

/-- The number of the digits. -/
def valueOf (base : Nat) (digits : List Char) : Nat :=
  digits.foldl (fun n c => n * base + (digit? base c).getD 0) 0

/-- The digits of an integer part, which does not begin with a zero unless it is zero. -/
def integerPart : Reader (List Char)
  | '0' :: cs => some (['0'], cs)
  | cs => digitRun Char.isDigit cs

/-! ## Numbers -/

/-- A number in base 16, 8 or 2. -/
def based? (base : Nat) (cs : List Char) : Option Value :=
  match digitRun (fun c => (digit? base c).isSome) cs with
  | some (digits, []) => if valueOf base digits < UInt64.size / 2 then some (.integer (valueOf base digits)) else none
  | _ => none

/-- An exponent, if there is one. -/
def exponent? : List Char → Option Int
  | [] => some 0
  | e :: cs =>
    if e == 'e' || e == 'E' then
      let (negative, cs) := match cs with
        | '+' :: cs => (false, cs)
        | '-' :: cs => (true, cs)
        | cs => (false, cs)
      match digitRun Char.isDigit cs with
      | some (digits, []) => some (if negative then -valueOf 10 digits else valueOf 10 digits)
      | _ => none
    else none

/-- The least number that is too great for a double. -/
def doubleLimit : Nat := Nat.pow 2 1024 - Nat.pow 2 970

/-- Whether `m * 10 ^ e` is too great for a double. -/
def isTooGreat (m : Nat) (e : Int) : Bool :=
  let magnitude := (Nat.toDigits 10 m).length + e
  if m = 0 || magnitude < 309 then false
  else if 309 < magnitude then true
  else if 0 ≤ e then doubleLimit ≤ m * Nat.pow 10 e.toNat
  else doubleLimit * Nat.pow 10 (-e).toNat ≤ m

/-- A number of the digits in front of the point, the digits behind it and the exponent. Only
a positive one can be too great. -/
def real? (negative : Bool) (whole fraction : List Char) (exponent : List Char) : Option Value := do
  let e ← exponent? exponent
  if !negative && isTooGreat (valueOf 10 (whole ++ fraction)) (e - fraction.length) then none
  else some .real

/-- A decimal number without its sign. -/
def decimal? (negative : Bool) (cs : List Char) : Option Value := do
  let (whole, rest) ← integerPart cs
  match rest with
  | [] =>
    let n := valueOf 10 whole
    if negative then (if n ≤ UInt64.size / 2 then some (.integer (-n)) else none)
    else if n < UInt64.size / 2 then some (.integer n)
    else none
  | '.' :: cs =>
    let (fraction, rest) ← digitRun Char.isDigit cs
    real? negative whole fraction rest
  | rest => real? negative whole [] rest

/-- A decimal number, or one of the two words for what is none. -/
def signed? (negative : Bool) (cs : List Char) : Option Value :=
  if cs = ['i', 'n', 'f'] ∨ cs = ['n', 'a', 'n'] then some .real else decimal? negative cs

def number? : List Char → Option Value
  | '0' :: 'x' :: cs => based? 16 cs
  | '0' :: 'o' :: cs => based? 8 cs
  | '0' :: 'b' :: cs => based? 2 cs
  | '+' :: cs => signed? false cs
  | '-' :: cs => signed? true cs
  | cs => signed? false cs

/-! ## Dates -/

/-- A number of exactly `count` digits. -/
def fixed? (count : Nat) (cs : List Char) : Option Nat :=
  if cs.length = count && cs.all Char.isDigit then some (valueOf 10 cs) else none

/-- A number of exactly `count` digits in a range. -/
def isFixed (count low high : Nat) (cs : List Char) : Bool :=
  match fixed? count cs with
  | some n => low ≤ n && n ≤ high
  | none => false

def daysIn (year month : Nat) : Nat :=
  if month = 2 then (if year % 4 = 0 ∧ (year % 100 ≠ 0 ∨ year % 400 = 0) then 29 else 28)
  else if month = 4 ∨ month = 6 ∨ month = 9 ∨ month = 11 then 30
  else 31

def isDate (cs : List Char) : Bool :=
  match pieces (· == '-') cs with
  | [year, month, day] =>
    match fixed? 4 year, fixed? 2 month with
    | some y, some m => 1 ≤ m && m ≤ 12 && isFixed 2 1 (daysIn y m) day
    | _, _ => false
  | _ => false

/-- Hours and minutes. -/
def isClock : List (List Char) → Bool
  | [hour, minute] => isFixed 2 0 23 hour && isFixed 2 0 59 minute
  | _ => false

def isSecond (cs : List Char) : Bool :=
  match cut '.' cs with
  | (second, none) => isFixed 2 0 60 second
  | (second, some fraction) => isFixed 2 0 60 second && !fraction.isEmpty && fraction.all Char.isDigit

def isTime (cs : List Char) : Bool :=
  match pieces (· == ':') cs with
  | [hour, minute, second] => isClock [hour, minute] && isSecond second
  | _ => false

def isOffset : List Char → Bool
  | ['Z'] => true
  | ['z'] => true
  | '+' :: cs => isClock (pieces (· == ':') cs)
  | '-' :: cs => isClock (pieces (· == ':') cs)
  | _ => false

/-- A time that may have an offset. -/
def isOffsetTime (cs : List Char) : Bool :=
  let inTime (c : Char) : Bool := c.isDigit || c == ':' || c == '.'
  let offset := cs.dropWhile inTime
  isTime (cs.takeWhile inTime) && (offset.isEmpty || isOffset offset)

def isDateTime (cs : List Char) : Bool :=
  isDate cs || isTime cs ||
    match cs.drop 10 with
    | t :: time => (t == 'T' || t == 't') && isDate (cs.take 10) && isOffsetTime time
    | [] => false

def moment (cs : List Char) : Value := .table [("date-time", .text (.ofList cs))]

/-! ## Words -/

def endsWord (c : Char) : Bool := isBlank c || "\r\n#,]\x7d".toList.contains c

/-- The value of a word. -/
def word? (cs : List Char) : Option Value :=
  if cs = ['t', 'r', 'u', 'e'] then some (.flag true)
  else if cs = ['f', 'a', 'l', 's', 'e'] then some (.flag false)
  else if isDateTime cs then some (moment cs)
  else number? cs

/-- A value that is neither a string nor in brackets. -/
def scalar (cs : List Char) : Option (Value × List Char) :=
  let head := cs.takeWhile (!endsWord ·)
  let rest := cs.dropWhile (!endsWord ·)
  match rest with
  | ' ' :: more =>
    let time := more.takeWhile (!endsWord ·)
    if isDate head && isOffsetTime time then some (moment (head ++ ' ' :: time), more.dropWhile (!endsWord ·))
    else (word? head).map fun v => (v, rest)
  | _ => (word? head).map fun v => (v, rest)

end Pagemark.Toml
