/-
  Pagemark.Log.Event — log events as data.

  Whatever is worth a log line is returned beside the result: a `Traced` value carries the
  events of its computation in the order in which they happened, and nothing is written here.
  The outer layer filters and prints them.
-/

namespace Pagemark.Log

inductive Level
  | error
  | warn
  | info
  | debug
  | trace
  deriving DecidableEq, Repr

/-- How much detail a level stands for. -/
def Level.detail : Level → Nat
  | .error => 1
  | .warn => 2
  | .info => 3
  | .debug => 4
  | .trace => 5

def Level.name : Level → String
  | .error => "ERROR"
  | .warn => "WARN"
  | .info => "INFO"
  | .debug => "DEBUG"
  | .trace => "TRACE"

inductive FieldValue
  | text (value : String)
  | number (value : Nat)
  | flag (value : Bool)
  deriving DecidableEq, Repr

/-- One log line: its level, the part of the library it comes from, and what it says. -/
structure Event where
  level : Level
  source : String
  message : String
  fields : List (String × FieldValue)
  deriving DecidableEq, Repr

/-- A result and the events on the way to it. -/
structure Traced (α : Type) where
  value : α
  events : List Event
  deriving DecidableEq

/-- A result without events. -/
def Traced.quiet {α : Type} (value : α) : Traced α := ⟨value, []⟩

end Pagemark.Log
