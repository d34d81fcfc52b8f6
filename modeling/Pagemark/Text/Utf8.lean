/-
  Pagemark.Text.Utf8 — UTF-8 as a list of bytes.

  Decoding never fails: each maximal part of the input that cannot begin a character is read
  as one U+FFFD. It is an automaton over single bytes (`step`), whose state says which bytes
  may follow, so that reading and writing meet character by character.
-/

namespace Pagemark.Text.Utf8

/-- The bytes of a text. -/
def encode (cs : List Char) : List UInt8 := cs.flatMap String.utf8EncodeChar

/-- Between two characters, or inside one: the value so far, how many bytes are missing, and
the range in which the next of them must lie. -/
inductive State
  | start
  | within (value missing low high : Nat)
  deriving DecidableEq, Repr

/-- What stands for bytes that form no character. -/
def replacement : Char := '\uFFFD'

/-- The first byte of a character. The narrowed ranges keep out overlong forms, surrogates and
values above U+10FFFF. -/
def first (b : Nat) : List Char × State :=
  if b < 0x80 then ([Char.ofNat b], .start)
  else if b < 0xC2 then ([replacement], .start)
  else if b < 0xE0 then ([], .within (b - 0xC0) 1 0x80 0xBF)
  else if b = 0xE0 then ([], .within 0 2 0xA0 0xBF)
  else if b = 0xED then ([], .within 13 2 0x80 0x9F)
  else if b < 0xF0 then ([], .within (b - 0xE0) 2 0x80 0xBF)
  else if b = 0xF0 then ([], .within 0 3 0x90 0xBF)
  else if b < 0xF4 then ([], .within (b - 0xF0) 3 0x80 0xBF)
  else if b = 0xF4 then ([], .within 4 3 0x80 0x8F)
  else ([replacement], .start)

/-- One byte: the characters that it completes and the state after it. A byte out of range
ends the character before it and is read again as a first byte. -/
def step : State → UInt8 → List Char × State
  | .start, b => first b.toNat
  | .within value missing low high, b =>
    let n := b.toNat
    if low ≤ n && n ≤ high then
      let value := value * 64 + (n - 0x80)
      if missing ≤ 1 then ([Char.ofNat value], .start) else ([], .within value (missing - 1) 0x80 0xBF)
    else
      let (out, next) := first n
      (replacement :: out, next)

def decodeFrom : State → List UInt8 → List Char
  | .start, [] => []
  | .within .., [] => [replacement]
  | s, b :: bs =>
    let r := step s b
    r.1 ++ decodeFrom r.2 bs

/-- The text of the bytes, with U+FFFD for what is no UTF-8. -/
def decode (bs : List UInt8) : List Char := decodeFrom .start bs

end Pagemark.Text.Utf8
