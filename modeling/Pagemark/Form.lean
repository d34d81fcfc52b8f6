/-
  Pagemark.Form — name and value pairs in form-urlencoded text.

  Pairs are separated by ampersands, a name ends at its first equals sign, a plus sign stands
  for a space, and everything else outside a small alphabet is percent-encoded. Reading
  accepts any text: empty pieces are no pairs, a piece without an equals sign is a name with
  the empty value, and bytes that are no UTF-8 become U+FFFD.
-/

import Pagemark.Text.Cut
import Pagemark.Text.Percent

namespace Pagemark.Form

open Text

/-- Written as itself. -/
def isPlain (c : Char) : Bool := c.isAlphanum || c == '*' || c == '-' || c == '.' || c == '_'

def encodeChar (c : Char) : List Char := if c = ' ' then ['+'] else Percent.encodeChar isPlain c

def encode (s : String) : List Char := s.toList.flatMap encodeChar

def decode (cs : List Char) : String :=
  let bytes := Utf8.encode (cs.map fun c => if c = '+' then ' ' else c)
  .ofList (Utf8.decode (Percent.decode bytes))

def pairText (pair : String × String) : List Char := encode pair.1 ++ '=' :: encode pair.2

/-- The pairs as text. -/
def print (pairs : List (String × String)) : List Char := joined '&' (pairs.map pairText)

def readPair (piece : List Char) : String × String :=
  let (name, value) := cut '=' piece
  (decode name, decode (value.getD []))

/-- The pairs of a text. -/
def parse (cs : List Char) : List (String × String) :=
  ((pieces (· == '&') cs).filter (!·.isEmpty)).map readPair

end Pagemark.Form
