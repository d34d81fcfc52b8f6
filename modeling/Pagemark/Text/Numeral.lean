/-
  Pagemark.Text.Numeral — decimal and hexadecimal numerals.

  Writing gives the digits of a natural number without leading zeros. Reading takes an
  optional sign and one or more digits, from left to right, and stops at the first digit
  that carries the value past its limit or at the first character that is no digit,
  whichever comes first; the kinds of failure are told apart because they reach the client.
-/

import Pagemark.Text.Cut

namespace Pagemark.Text

/-- Why a text is no integer of the asked range. -/
inductive NumeralError
  | empty
  | invalidDigit
  | tooLarge
  | tooSmall
  deriving DecidableEq, Repr

def NumeralError.message : NumeralError → String
  | .empty => "cannot parse integer from empty string"
  | .invalidDigit => "invalid digit found in string"
  | .tooLarge => "number too large to fit in target type"
  | .tooSmall => "number too small to fit in target type"

/-- The value of a digit in a base of at most sixteen. -/
def digit? (base : Nat) (c : Char) : Option Nat :=
  let n := c.toNat
  let value? :=
    if 48 ≤ n && n ≤ 57 then some (n - 48)
    else if 97 ≤ n && n ≤ 102 then some (n - 87)
    else if 65 ≤ n && n ≤ 70 then some (n - 55)
    else none
  value?.filter (· < base)

/-- Reads digits after the value `acc`, refusing with `excess` to pass `limit`. -/
def readDigits (base limit : Nat) (excess : NumeralError) : Nat → List Char → Except NumeralError Nat
  | acc, [] => .ok acc
  | acc, c :: cs =>
    match digit? base c with
    | none => .error .invalidDigit
    | some d =>
      let value := acc * base + d
      if value ≤ limit then readDigits base limit excess value cs else .error excess

/-- Reads a natural number of at most `limit`, with an optional plus sign. -/
def readNat (base limit : Nat) : List Char → Except NumeralError Nat
  | [] => .error .empty
  | ['+'] => .error .invalidDigit
  | '+' :: cs => readDigits base limit .tooLarge 0 cs
  | cs => readDigits base limit .tooLarge 0 cs

/-- Reads an integer between `-(limit + 1)` and `limit`, with an optional sign. -/
def readInt (base limit : Nat) : List Char → Except NumeralError Int
  | [] => .error .empty
  | ['+'] => .error .invalidDigit
  | ['-'] => .error .invalidDigit
  | '+' :: cs => (readDigits base limit .tooLarge 0 cs).map Int.ofNat
  | '-' :: cs => (readDigits base (limit + 1) .tooSmall 0 cs).map fun n => -Int.ofNat n
  | cs => (readDigits base limit .tooLarge 0 cs).map Int.ofNat

/-- Whether a text is a decimal fraction: an optional sign, digits, perhaps with a point among them,
and perhaps an exponent. -/
def isReal (cs : List Char) : Bool :=
  let unsigned := match cs with
    | '+' :: cs => cs
    | '-' :: cs => cs
    | cs => cs
  let (whole, fraction) := cut '.' (unsigned.takeWhile fun c => c != 'e' && c != 'E')
  let digits := whole ++ fraction.getD []
  let exponent := match unsigned.dropWhile fun c => c != 'e' && c != 'E' with
    | [] => ['0']
    | _ :: '+' :: cs => cs
    | _ :: '-' :: cs => cs
    | _ :: cs => cs
  !digits.isEmpty && digits.all Char.isDigit && !exponent.isEmpty && exponent.all Char.isDigit

/-- The character whose code the first `count` characters give in hexadecimal, and the rest. -/
def hexCharacter? (count : Nat) (cs : List Char) : Option (Char × List Char) :=
  let digits := cs.take count
  if digits.length < count then none
  else
    match digits.foldlM (fun n c => (digit? 16 c).map (n * 16 + ·)) 0 with
    | some n => if n.isValidChar then some (Char.ofNat n, cs.drop count) else none
    | none => none

/-- The decimal digits of `n`. -/
def decimal (n : Nat) : String := .ofList (Nat.toDigits 10 n)

/-- The decimal digits of `z`, with a minus sign when it is negative. -/
def signedDecimal : Int → String
  | .ofNat n => decimal n
  | .negSucc n => "-" ++ decimal (n + 1)

/-- The lower-case hexadecimal digits of `n`. -/
def hexadecimal (n : Nat) : String := .ofList (Nat.toDigits 16 n)

end Pagemark.Text
