/-
  Pagemark.Log.Session — the log of a running program.

  A log is started once, with the filter that the settings name. Its first event says for which
  service it runs and whether tokens are keyed, never with which secret.
-/

import Pagemark.Json.Value
import Pagemark.Log.Filter
import Pagemark.Settings.Basic

namespace Pagemark.Log

/-- A log can be started only once. -/
inductive StartError
  | alreadyStarted
  deriving DecidableEq, Repr

def StartError.message : StartError → String
  | .alreadyStarted => "Tracing initialization failed: a global default trace dispatcher has already been set"

def startedEvent (s : Settings) : Event :=
  ⟨.info, "cursor_pagination::observability", "Tracing initialized",
    [("service", .text s.service.name), ("keyed_cursors", .flag s.paging.secret.isSome)]⟩

/-- A log that lets the events of its filter through and keeps them, the newest last. -/
structure Session where
  filter : Filter
  events : List Event

/-- Adds the events that the filter lets through. -/
def Session.record (s : Session) (events : List Event) : Session :=
  { s with events := s.events ++ events.filter s.filter.admits }

/-- Starts a log where none is running. -/
def start (running : Option Session) (settings : Settings) : Except StartError Session :=
  match running with
  | some _ => .error .alreadyStarted
  | none => .ok (Session.record ⟨.ofSetting settings.service.logLevel, []⟩ [startedEvent settings])

/-! ## Log lines -/

open Json

def FieldValue.json : FieldValue → Value
  | .text s => .ofText s
  | .number n => .ofNat n
  | .flag b => .flag b

/-- The event as an object; its message is one of the fields. -/
def Event.json (e : Event) : Value :=
  .ofMembers
    [("level", .ofText e.level.name),
      ("fields", .ofMembers (("message", .ofText e.message) :: e.fields.map fun (name, v) => (name, v.json))),
      ("target", .ofText e.source)]

end Pagemark.Log
