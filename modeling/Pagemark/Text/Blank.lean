/-
  Pagemark.Text.Blank — white space and its removal from the ends of a text.

  `isBlank` is the Unicode property White_Space, not ASCII white space alone: a sort
  property typed with a no-break space around it is the same property. `strip` removes
  from both ends whatever a predicate names, so that the blanks of a text and the
  controls around a URL go by one rule.
-/

namespace Pagemark.Text

/-- The characters with the Unicode property White_Space. -/
def isBlank (c : Char) : Bool :=
  let n := c.toNat
  (9 ≤ n && n ≤ 13) || n == 0x20 || n == 0x85 || n == 0xA0 || n == 0x1680 || (0x2000 ≤ n && n ≤ 0x200A)
    || n == 0x2028 || n == 0x2029 || n == 0x202F || n == 0x205F || n == 0x3000

/-- Without the leading and the trailing characters that satisfy `p`. -/
def strip (p : Char → Bool) (cs : List Char) : List Char :=
  ((cs.dropWhile p).reverse.dropWhile p).reverse

/-- Nothing is left when the blanks at the ends are gone. -/
def isAllBlank (s : String) : Bool := s.toList.all isBlank

end Pagemark.Text
