/-
  Pagemark.Text.Quoted — texts written between quotation marks for diagnostics.

  A reader of a log must see every character, so all that is not plainly visible is escaped:
  quotation marks and backslashes, the named controls, characters without a visible form, and
  combining characters, which would otherwise change the look of the mark before them.
-/

import Pagemark.Text.Combining
import Pagemark.Text.Numeral
import Pagemark.Text.Unprintable

namespace Pagemark.Text

/-- Whether one of the ranges, ends included, holds `n`. -/
def inRanges (ranges : List (Nat × Nat)) (n : Nat) : Bool :=
  ranges.any fun (low, high) => low ≤ n && n ≤ high

/-- Shown as it is: neither invisible nor combining. -/
def isVisible (c : Char) : Bool :=
  if c.toNat < 0x7F then 0x20 ≤ c.toNat
  else !inRanges unprintableRanges c.toNat && !inRanges combiningRanges c.toNat

/-- One character between quotation marks. -/
def quotedChar (c : Char) : List Char :=
  match c with
  | '\x22' => ['\\', '\x22']
  | '\\' => ['\\', '\\']
  | '\n' => ['\\', 'n']
  | '\r' => ['\\', 'r']
  | '\t' => ['\\', 't']
  | '\x00' => ['\\', '0']
  | c => if isVisible c then [c] else '\\' :: 'u' :: '\x7b' :: (Nat.toDigits 16 c.toNat ++ ['\x7d'])

/-- The text between quotation marks. -/
def quoted (s : String) : String :=
  .ofList ('\x22' :: (s.toList.flatMap quotedChar ++ ['\x22']))

end Pagemark.Text
