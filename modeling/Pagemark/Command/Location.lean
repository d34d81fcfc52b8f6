/-
  Pagemark.Command.Location — the URL that is given to the command.

  A URL with a host keeps its scheme and authority in the answer; anything else is taken as a
  path with a query.
-/

import Pagemark.Pager.Basic

namespace Pagemark.Command

inductive Location
  | absolute (url : Url)
  | relative (target : Target)
  deriving DecidableEq, Repr

namespace Location

def parse [Url.Idna] (s : String) : Location :=
  match Url.parse s with
  | .ok url => if url.hasHost then .absolute url else .relative (.parse s)
  | .error _ => .relative (.parse s)

def target : Location → Target
  | .absolute url => .ofUrl url
  | .relative target => target

/-- The location with a page written into it, as text. -/
def link (p : Pager) (page : Page) : Location → String
  | .absolute url => (p.linkUrl page url).text
  | .relative target => (p.link page target).text

end Location

end Pagemark.Command
