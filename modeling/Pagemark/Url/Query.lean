/-
  Pagemark.Url.Query — the query of a URL as a list of pairs.

  Replacing the query leaves every other component as it is, except that an opaque path gives
  up the spaces at its end when there is no fragment to keep them: the old query goes first.
-/

import Pagemark.Form
import Pagemark.Url.Basic

namespace Pagemark.Url

/-- The pairs of the query; a URL without a query has none. -/
def pairs (u : Url) : List (String × String) := Form.parse ((u.query.getD "").toList)

/-- The path without the spaces that end an opaque one; they are only kept in front of a query
or a fragment. -/
def unpaddedPath (u : Url) : String :=
  if u.isOpaque && u.fragment.isNone then .ofList (u.path.toList.reverse.dropWhile (· == ' ')).reverse else u.path

/-- The URL with these pairs in place of its query. -/
def withPairs (u : Url) (pairs : List (String × String)) : Url :=
  { u with
    path := u.unpaddedPath
    query := if pairs.isEmpty then none else some (.ofList (Form.print pairs)) }

end Pagemark.Url
