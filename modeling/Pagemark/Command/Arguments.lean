/-
  Pagemark.Command.Arguments — the arguments of the command line.

  The command has two levels: options of its own, and behind the name of an action the options
  and the operand of that action. Options for both levels may stand on either. An option with a
  value takes it from behind an equals sign or from the next argument, unless that one begins
  with a dash; two dashes alone end the options.
-/

import Pagemark.Text.Cut
import Pagemark.Text.Numeral

namespace Pagemark.Command

open Text

/-- What a level accepts. -/
structure Level where
  /-- Options without a value. -/
  flags : List String
  /-- Options with a value. -/
  options : List String

/-- An argument that has been understood. -/
inductive Word
  | flag (name : String)
  | option (name value : String)
  | operand (text : String)
  deriving DecidableEq, Repr

/-- Options for both levels. -/
def commonLevel : Level := ⟨["verbose"], ["config"]⟩

def encodeLevel : Level := ⟨["verbose"], ["config", "page", "size", "sort"]⟩

def decodeLevel : Level := ⟨["verbose", "json"], ["config"]⟩

/-- The flag of a letter behind a single dash. -/
def letterFlag? (letter : Char) : Option String := if letter = 'v' then some "verbose" else none

/-- Whether an argument may be a value or an operand: a dash begins an option, unless it stands
alone. -/
def isPlain (arg : List Char) : Bool := arg.head? != some '-' || arg == ['-']

/-- A word, or an option whose value has to follow. -/
inductive Reading
  | words (ws : List Word)
  | pending (name : String)

/-- Understands an option, which begins with a dash. -/
def Level.readOption (l : Level) : List Char → Option Reading
  | '-' :: '-' :: cs =>
    let (name, value) := cut '=' cs
    let name := String.ofList name
    match value with
    | some v => if l.options.contains name then some (.words [.option name (.ofList v)]) else none
    | none =>
      if l.flags.contains name then some (.words [.flag name])
      else if l.options.contains name then some (.pending name)
      else none
  | '-' :: letters => (letters.mapM letterFlag?).map fun names => .words (names.map .flag)
  | _ => none

/-- Understands arguments, up to the first operand if `untilOperand`; gives back what follows
it. `pending` is the option whose value has to come next. -/
def Level.scan (l : Level) (untilOperand : Bool) : (pending : Option String) → List String →
    Option (List Word × List String)
  | some _, [] => none
  | none, [] => some ([], [])
  | some name, arg :: args =>
    if isPlain arg.toList then
      (l.scan untilOperand none args).map fun (ws, rest) => (.option name arg :: ws, rest)
    else none
  | none, arg :: args =>
    if isPlain arg.toList then
      if untilOperand then some ([.operand arg], args)
      else (l.scan untilOperand none args).map fun (ws, rest) => (.operand arg :: ws, rest)
    else if arg = "--" then
      if untilOperand then none else some (args.map .operand, [])
    else
      match l.readOption arg.toList with
      | some (.words ws) => (l.scan untilOperand none args).map fun (more, rest) => (ws ++ more, rest)
      | some (.pending name) => l.scan untilOperand (some name) args
      | none => none

/-! ## What words say -/

/-- The values of an option. -/
def valuesOf (name : String) (ws : List Word) : List String :=
  ws.filterMap fun w =>
    match w with
    | .option n v => if n = name then some v else none
    | _ => none

/-- The value of an option that may be given once. -/
def value? (name : String) (ws : List Word) : Option (Option String) :=
  match valuesOf name ws with
  | [] => some none
  | [v] => some (some v)
  | _ => none

/-- Whether a flag that may be given once is given. -/
def flag? (name : String) (ws : List Word) : Option Bool :=
  match ws.filter (· == .flag name) with
  | [] => some false
  | [_] => some true
  | _ => none

/-- The only operand. -/
def operand? (ws : List Word) : Option String :=
  match ws.filterMap (fun w => match w with
    | .operand s => some s
    | _ => none) with
  | [s] => some s
  | _ => none

/-! ## Invocations -/

structure EncodeOptions where
  url : String
  page : UInt64
  size : Option UInt32
  /-- Sort values; none keeps the sorting of the URL. -/
  sort : List String
  deriving DecidableEq, Repr

structure DecodeOptions where
  url : String
  json : Bool
  deriving DecidableEq, Repr

inductive Action
  | encode (options : EncodeOptions)
  | decode (options : DecodeOptions)
  deriving DecidableEq, Repr

structure Invocation where
  settingsFile : Option String
  isVerbose : Bool
  action : Action
  deriving DecidableEq, Repr

def readPage (s : String) : Option UInt64 := ((readNat 10 (UInt64.size - 1) s.toList).toOption).map .ofNat

/-- A size of at least one. -/
def readSize (s : String) : Option UInt32 :=
  match readInt 10 (UInt64.size / 2 - 1) s.toList with
  | .ok n => if 1 ≤ n ∧ n.toNat < UInt32.size then some (.ofNat n.toNat) else none
  | .error _ => none

def readEncode (ws : List Word) : Option Action := do
  let url ← operand? ws
  let page ← readPage (← ← value? "page" ws)
  let size ← (← value? "size" ws).mapM readSize
  return .encode ⟨url, page, size, valuesOf "sort" ws⟩

def readDecode (ws : List Word) : Option Action := do
  return .decode ⟨← operand? ws, ← flag? "json" ws⟩

/-- The settings file: as given behind the action, before it, or by the environment. It cannot
be empty, also where another one is preferred. -/
def readSettingsFile (inherited : Option String) (outer inner : List Word) : Option (Option String) := do
  let outer ← value? "config" outer
  let inner ← value? "config" inner
  let checkedOuter := outer <|> inherited
  let checkedInner := inner <|> inherited
  if checkedOuter = some "" ∨ checkedInner = some "" then none
  else return inner <|> checkedOuter

/-- Understands the arguments; none when they cannot be understood. `inherited` is the settings
file that the environment names. -/
def Invocation.parse (inherited : Option String) (args : List String) : Option Invocation := do
  let (outer, rest) ← commonLevel.scan true none args
  let name ← operand? outer
  let (level, read) ← if name = "encode" then some (encodeLevel, readEncode)
    else if name = "decode" then some (decodeLevel, readDecode)
    else none
  let (inner, _) ← level.scan false none rest
  let isVerbose := (← flag? "verbose" outer) || (← flag? "verbose" inner)
  return ⟨← readSettingsFile inherited outer inner, isVerbose, ← read inner⟩

end Pagemark.Command
