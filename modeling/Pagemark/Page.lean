/-
  Pagemark.Page — pages and the bookmarks that clients hold of them.

  A `Page` is what a query needs: a zero-based index, a size and a sorting. A `Bookmark` is
  what a client sends: a token that only a codec can read, with the size and the sorting that
  travel next to it. Indices and offsets are 64-bit words that stop at their greatest value,
  so a step forward never wraps to the first page.
-/

import Pagemark.Sorting

namespace Pagemark

/-- The greatest 64-bit word. -/
def maxWord : UInt64 := .ofNat (UInt64.size - 1)

/-- A page of a collection. -/
structure Page where
  index : UInt64
  size : UInt32
  sorting : Sorting
  deriving DecidableEq, Repr

namespace Page

/-- Page 0 of the size and sorting. -/
def initial (size : UInt32) (sorting : Sorting) : Page := ⟨0, size, sorting⟩

/-- How many items stand before the page, stopping at the greatest word. -/
def offset (p : Page) : UInt64 := .ofNat (min (p.index.toNat * p.size.toNat) (UInt64.size - 1))

/-- The page after this one; the last index has no page after it and stays. -/
def next (p : Page) : Page := { p with index := if p.index = maxWord then maxWord else p.index + 1 }

/-- The page before this one. -/
def previous (p : Page) : Option Page :=
  if p.index = 0 then none else some { p with index := p.index - 1 }

/-- Page 0 of the same size and sorting. -/
def first (p : Page) : Page := { p with index := 0 }

def isFirst (p : Page) : Bool := p.index == 0

end Page

/-- A token, or none for the first page, with the size and sorting supplied beside it. -/
structure Bookmark where
  token : Option String
  size : UInt32
  sorting : Sorting
  deriving DecidableEq, Repr

end Pagemark
