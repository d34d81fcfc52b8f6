/-
  Pagemark.Command.Basic — what the command does.

  `encode` prints the link to a page of a URL, `decode` tells which page a URL asks for. Both
  are functions of the settings and the options; `run` finds the settings and turns the result
  into an exit code, the text on standard output and the lines on standard error.
-/

import Pagemark.Command.Arguments
import Pagemark.Command.Location
import Pagemark.Json.Printer
import Pagemark.Log.Session
import Pagemark.Settings.Layers

namespace Pagemark.Command

open Text

/-- Why an action fails. -/
inductive Failure
  | load (e : LoadError)
  /-- The URL to encode carries paging parameters that cannot be read. -/
  | carried (e : PageError)
  | sort (e : SortError)
  | resolve (e : PageError)
  deriving DecidableEq, Repr

namespace Failure

def message : Failure → String
  | .load (.unusable fault) => fault.message
  | .load (.unreadable ..) => "Configuration error"
  | .carried _ => "URL carries invalid paging parameters"
  | .sort _ => "Invalid --sort"
  | .resolve e => e.message

/-- The messages of the causes, nearest first. -/
def causes : Failure → List String
  | .load _ => []
  | .carried e => e.message :: e.causes
  | .sort e => [e.message]
  | .resolve e => e.causes

def lines (f : Failure) : List String := ("Error: " ++ f.message) :: f.causes.map ("Caused by: " ++ ·)

end Failure

/-! ## Actions -/

/-- The size to encode: the one asked for, lowered to the greatest size, or the one that the URL
carries. -/
def chosenSize (p : Pager) (carried : Bookmark) : Option UInt32 → UInt32
  | some size => min size p.maxSize
  | none => carried.size

/-- A remark when the size asked for is lowered. -/
def sizeWarning (p : Pager) : Option UInt32 → List String
  | some size =>
    if p.maxSize < size then
      ["Warning: size " ++ decimal size.toNat ++ " exceeds the maximum; using " ++ decimal p.maxSize.toNat]
    else []
  | none => []

/-- The sorting to encode: of the values given, or the one that the URL carries. -/
def chosenSorting (carried : Bookmark) : List String → Except SortError Sorting
  | [] => .ok carried.sorting
  | values => Sorting.parse values

variable [Url.Idna]

/-- The link to a page, with the remarks made on the way. -/
def encode (p : Pager) (o : EncodeOptions) : List String × Except Failure String :=
  let location := Location.parse o.url
  match p.bookmark location.target with
  | .error e => ([], .error (.carried e))
  | .ok carried =>
    let link := (chosenSorting carried o.sort).map fun sorting =>
      location.link p ⟨o.page, chosenSize p carried o.size, sorting⟩
    (sizeWarning p o.size, link.mapError .sort)

/-- The page that a URL asks for. -/
def decode (p : Pager) (url : String) : Log.Traced (Except Failure Page) :=
  let resolved := p.resolve (Location.parse url).target
  ⟨resolved.value.mapError .resolve, resolved.events⟩

/-- All sort values on one line. -/
def sortText : Sorting → String
  | [] => "unsorted"
  | keys => " ".intercalate (Sorting.values keys)

def reportLine (label content : String) : String := label ++ content ++ "\n"

/-- The page on four lines. -/
def report (page : Page) : String :=
  reportLine "page       " (decimal page.index.toNat) ++ reportLine "size       " (decimal page.size.toNat)
    ++ reportLine "offset     " (decimal page.offset.toNat) ++ reportLine "sort       " (sortText page.sorting)

/-- The page as a JSON record. -/
def reportJson (page : Page) : Json.Value :=
  .ofMembers
    [("page_index", .ofNat page.index.toNat), ("page_size", .ofNat page.size.toNat),
      ("offset", .ofNat page.offset.toNat),
      ("sort", .array ((Sorting.values page.sorting).map .ofText))]

/-! ## Running -/

/-- What a run leaves behind. -/
structure Outcome where
  exitCode : UInt8
  output : String
  messages : List String
  /-- The log, when one is asked for. -/
  log : List Log.Event

def succeeded (output : String) (messages : List String) (events : List Log.Event) : Outcome :=
  ⟨0, output, messages, events⟩

def failed (f : Failure) (messages : List String) (events : List Log.Event) : Outcome :=
  ⟨1, "", messages ++ f.lines, events⟩

/-- The arguments cannot be understood. -/
def misused : Outcome := ⟨2, "", ["Usage: cursor [OPTIONS] <encode|decode> <URL>"], []⟩

/-- Does what is asked under the settings. -/
def perform (s : Settings) (action : Action) : Outcome :=
  let made := Pager.ofSettings s.paging
  match made.value with
  | .error fault => failed (.load (.unusable fault)) [] made.events
  | .ok p =>
    match action with
    | .encode o =>
      match encode p o with
      | (remarks, .ok link) => succeeded (link ++ "\n") remarks made.events
      | (remarks, .error f) => failed f remarks made.events
    | .decode o =>
      let decoded := decode p o.url
      let events := made.events ++ decoded.events
      match decoded.value with
      | .ok page => succeeded (if o.json then (reportJson page).printLines ++ "\n" else report page) [] events
      | .error f => failed f [] events

/-- The service that the command is. -/
def serviceName : String := "cursor"

/-- The variable that names a settings file. -/
def settingsVariable : String := "CURSOR_CONFIG"

/-- The settings of an invocation. -/
def settings (d : Settings.Disk) (userSettings : String) (environment : List (String × String)) (i : Invocation) :
    Except LoadError Settings :=
  match i.settingsFile with
  | some path => Settings.ofFile d path environment
  | none => Settings.ofService d userSettings serviceName environment

/-- The log of some events in every detail that matters to a developer. -/
def verboseLog (s : Settings) (events : List Log.Event) : List Log.Event :=
  let session : Log.Session := ⟨.ofSetting "debug", []⟩
  (session.record (Log.startedEvent s :: events)).events

/-- Runs the command on its arguments, on a disk and in an environment. -/
def run (d : Settings.Disk) (userSettings : String) (environment : List (String × String)) (args : List String) :
    Outcome :=
  match Invocation.parse (environment.lookup settingsVariable) args with
  | none => misused
  | some i =>
    match settings d userSettings environment i with
    | .error e => failed (.load e) [] []
    | .ok s =>
      let outcome := perform s i.action
      { outcome with log := if i.isVerbose then verboseLog s outcome.log else [] }

end Pagemark.Command
