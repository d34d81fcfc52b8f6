/-
  Pagemark.Text.Percent — percent-encoding of characters and its decoding on bytes.

  `encode keep` leaves the ASCII characters that `keep` names and writes every other
  character as the percent-encoded bytes of its UTF-8 form. Decoding works on bytes, because
  the escapes of one character need not form a character.
-/

import Pagemark.Text.Numeral
import Pagemark.Text.Utf8

namespace Pagemark.Text.Percent

/-- An upper-case hexadecimal digit. -/
def hexDigit (n : Nat) : Char :=
  if n < 10 then Char.ofNat (48 + n) else Char.ofNat (55 + n)

/-- A byte as a percent sign and two digits. -/
def escape (b : UInt8) : List Char := ['%', hexDigit (b.toNat / 16), hexDigit (b.toNat % 16)]

/-- One character, kept or escaped. -/
def encodeChar (keep : Char → Bool) (c : Char) : List Char :=
  if c.toNat < 0x80 && keep c then [c] else (String.utf8EncodeChar c).flatMap escape

def encode (keep : Char → Bool) (cs : List Char) : List Char := cs.flatMap (encodeChar keep)

/-- The value of a byte that is a hexadecimal digit. -/
def hexValue? (b : UInt8) : Option Nat := digit? 16 (Char.ofNat b.toNat)

/-- Replaces each percent sign and two digits by the byte they name; a percent sign without
two digits stays as it is. -/
def decode : List UInt8 → List UInt8
  | [] => []
  | [a] => [a]
  | [a, b] => [a, b]
  | b :: h :: l :: rest =>
    if b = 0x25 then
      match hexValue? h, hexValue? l with
      | some x, some y => UInt8.ofNat (16 * x + y) :: decode rest
      | _, _ => b :: decode (h :: l :: rest)
    else b :: decode (h :: l :: rest)

end Pagemark.Text.Percent
