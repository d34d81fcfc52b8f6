/-
  Pagemark.Settings.Basic — the settings of a service that pages its answers.
-/

import Pagemark.Settings.Paging

namespace Pagemark

structure ServiceSettings where
  name : String
  /-- A level, or a list of log directives. -/
  logLevel : String := "info"
  deriving DecidableEq, Repr

structure Settings where
  service : ServiceSettings
  paging : PagingSettings := {}
  deriving DecidableEq, Repr

namespace Settings

/-- The name of a service that was not given one. -/
def standardService : String := "cursor-pagination"

/-- The settings of a service that sets nothing itself. -/
def standard (service : String) : Settings := ⟨{ name := service }, {}⟩

end Settings

end Pagemark
