/-
  Pagemark.Pager.Admission — HTTP requests admitted with the page they ask for, or rejected.

  A router that strips a part of the path keeps the URI that the client sent; links have to
  point there, so that URI is the one that counts when there is one. A request whose paging
  parameters cannot be read is answered with status 400 and a report of the fault.
-/

import Pagemark.Pager.Links

namespace Pagemark

/-- An admitted request. -/
structure Admission where
  page : Page
  target : Target
  pager : Pager

namespace Admission

/-- Admits a request by its URI, or by the URI that the client sent. -/
def ofUri (pager : Pager) (uri : Uri) (asSent : Option Uri) : Log.Traced (Except PageError Admission) :=
  let target := Target.ofUri (asSent.getD uri)
  let resolved := pager.resolve target
  ⟨resolved.value.map fun page => ⟨page, target, pager⟩, resolved.events⟩

def links (a : Admission) (hasNext : Bool) : Links := .ofPage a.pager a.page a.target hasNext

end Admission

/-- What the client is told about a request that is not admitted. -/
structure ErrorReport where
  error : String
  code : String
  parameter : Option String
  status : UInt16
  deriving DecidableEq, Repr

def ErrorReport.ofError (e : PageError) : ErrorReport := ⟨e.message, e.code, some e.parameter, 400⟩

end Pagemark
