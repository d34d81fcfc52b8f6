/-
  Pagemark.Main — the command `cursor`.

  Reads the environment and the settings files, runs the command and writes what it leaves
  behind.
-/

import Pagemark.Command.Basic

namespace Pagemark.Main

open Command

/-- The variables of this process. -/
def environment : IO (List (String × String)) := do
  let block ← try IO.FS.readBinFile "/proc/self/environ" catch _ => pure .empty
  let names := Text.pieces (· == '\x00') (Text.Utf8.decode block.toList)
  return names.map fun cs =>
    let (name, value) := Text.cut '=' cs
    (.ofList name, .ofList (value.getD []))

/-- Where the settings of the user are. -/
def userSettings (environment : List (String × String)) : String :=
  match environment.lookup "XDG_CONFIG_HOME" with
  | some path => if path.startsWith "/" then path else Settings.joinPath ((environment.lookup "HOME").getD "") ".config"
  | none => Settings.joinPath ((environment.lookup "HOME").getD "") ".config"

def isFolder (place : List String) : IO Bool := do
  try (← IO.FS.realPath ("/" ++ "/".intercalate place)).isDir catch _ => return false

/-- The folders on the way of a path from a folder, and the file that it leads to. -/
def explore (place : List String) (path : String) : IO Settings.Disk := do
  let mut folders : List (List String) := []
  let mut place := place
  for name in Settings.pathNames path do
    place := Settings.plainStep place name
    if ← isFolder place then folders := place :: folders
  let content? ← try some <$> IO.FS.readFile ("/" ++ "/".intercalate place) catch _ => pure none
  return ⟨(content?.map fun content => (place, content)).toList, folders, []⟩

/-- As much of the disk as the paths of settings files lead to. -/
def disk (paths : List String) : IO Settings.Disk := do
  let working := ((Settings.pathNames (← IO.currentDir).toString).filter (!·.isEmpty))
  let mut disk : Settings.Disk := ⟨[], [], working⟩
  for path in paths do
    for place in if Settings.isAbsolute path then [[]] else Settings.above working do
      let part ← explore place path
      disk := { disk with files := disk.files ++ part.files, folders := disk.folders ++ part.folders }
  return disk

/-- The paths of the settings files that the arguments make necessary. -/
def neededPaths (environment : List (String × String)) (args : List String) : List String :=
  match Invocation.parse (environment.lookup settingsVariable) args with
  | none => []
  | some i =>
    match i.settingsFile with
    | some path => [path]
    | none => [Settings.fileName, Settings.placeOf (userSettings environment) serviceName,
        Settings.placeOf "/etc" serviceName]

end Pagemark.Main

open Pagemark

def main (args : List String) : IO UInt32 := do
  let environment ← Main.environment
  let disk ← Main.disk (Main.neededPaths environment args)
  let outcome := Command.run disk (Main.userSettings environment) environment args
  for event in outcome.log do
    IO.eprintln event.json.print
  for line in outcome.messages do
    IO.eprintln line
  IO.print outcome.output
  return outcome.exitCode.toUInt32
