/-
  Pagemark.Pager.Links — the links of a page to itself and its neighbours.
-/

import Pagemark.Pager.Basic

namespace Pagemark

/-- Link texts. There is no link before page 0, and none after the last page. -/
structure Links where
  self : String
  first : String
  prev : Option String
  next : Option String
  deriving DecidableEq, Repr

namespace Links

/-- The links of a page of the target. Whether another page follows, only the caller knows. -/
def ofPage (p : Pager) (page : Page) (t : Target) (hasNext : Bool) : Links :=
  let link (page : Page) : String := (p.link page t).text
  { self := link page
    first := link page.first
    prev := page.previous.map link
    next := if hasNext then some (link page.next) else none }

variable [Url.Idna]

/-- Joins an optional link to the base. -/
def joinOption (base : Url) : Option String → Except Url.ParseError (Option String)
  | none => .ok none
  | some link => (base.join link).map fun url => some url.text

/-- The links as URLs on a base. -/
def absolute (l : Links) (base : Url) : Except Url.ParseError Links := do
  let self ← base.join l.self
  let first ← base.join l.first
  let prev ← joinOption base l.prev
  let next ← joinOption base l.next
  return ⟨self.text, first.text, prev, next⟩

end Links

end Pagemark
