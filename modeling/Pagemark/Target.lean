/-
  Pagemark.Target — the target of a request: its path and its query.

  However a target is given (as `path?query` text, as the URI of a request, or as a URL whose
  scheme and authority are dropped), its path is resolved the same way: an absolute path loses
  its dot segments and gets the escapes of a web URL, any other path is kept. So the identity
  of a request does not depend on where its target came from.
-/

import Pagemark.Identity
import Pagemark.Uri
import Pagemark.Url.Query
import Pagemark.Url.Reference

namespace Pagemark

open Text

/-- Path and pairs in the order of the request. -/
structure Target where
  path : String
  query : List (String × String)
  deriving DecidableEq, Repr

namespace Target

/-- The path as a web URL would have it. The empty path is the root; a path that does not begin
with a slash, or that holds a query or fragment mark, is none of a URL and stays. -/
def normalPath (path : String) : String :=
  match path.toList with
  | [] => "/"
  | c :: cs =>
    if c = '/' ∧ !(cs.any Url.isTailMark) then Url.Path.parse .web (Url.cleaned (c :: cs)) else path

/-- A path without a query. -/
def ofPath (path : String) : Target := ⟨normalPath path, []⟩

/-- One more pair, after those there are. -/
def add (t : Target) (name value : String) : Target := { t with query := t.query ++ [(name, value)] }

/-- Reads a path and a query, without regard to a fragment. -/
def parse (s : String) : Target :=
  let (text, _) := cut '#' s.toList
  let (path, query) := cut '?' text
  ⟨normalPath (.ofList path), (query.map Form.parse).getD []⟩

def ofUri (uri : Uri) : Target :=
  ⟨normalPath uri.path, (uri.query.map fun q => Form.parse q.toList).getD []⟩

def ofUrl (url : Url) : Target := ⟨normalPath url.path, url.pairs⟩

/-- The path and the pairs as text. -/
def text (t : Target) : String :=
  if t.query.isEmpty then t.path else t.path ++ "?" ++ .ofList (Form.print t.query)

/-- The values of a name in their order. -/
def values (t : Target) (name : String) : List String :=
  (t.query.filter fun pair => pair.1 == name).map (·.2)

/-- The first value of a name. -/
def first (t : Target) (name : String) : Option String := (t.values name).head?

/-- The target without the pairs of some names. -/
def without (t : Target) (names : List String) : Target :=
  { t with query := t.query.filter fun pair => !names.contains pair.1 }

/-- What the target asks for, some names left out of account. -/
def identity (t : Target) (excluded : List String) : Identity :=
  ⟨normalPath t.path, .ofPairs (t.without excluded).query⟩

end Target

namespace Identity

/-- The identity of a path without parameters. -/
def ofPath (path : String) : Identity := ⟨Target.normalPath path, .empty⟩

/-- One more value for a name. -/
def add (i : Identity) (name value : String) : Identity := { i with parameters := i.parameters.add name value }

end Identity

end Pagemark
