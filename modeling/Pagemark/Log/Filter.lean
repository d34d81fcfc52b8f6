/-
  Pagemark.Log.Filter — which events a setting lets through.

  A setting lists directives between commas: a level for everything, `source=level` for the
  events whose source begins with that text, or a source alone, which lets all its events
  through. A directive may also ask in brackets for a span, which no event of this library is
  in, or for a field that an event must have. The directive with the longest source that fits an
  event decides; an event that none fits is dropped. A setting that cannot be read counts as
  `info`.
-/

import Pagemark.Log.Event
import Pagemark.Log.Pattern
import Pagemark.Text.Alphanumeric
import Pagemark.Text.Blank
import Pagemark.Text.Cut
import Pagemark.Text.Numeral
import Pagemark.Text.Quoted

namespace Pagemark.Log

open Text

/-- The greatest detail that a directive lets through; zero lets nothing through. -/
abbrev Detail := Nat

/-- A level by name or number; the empty word is `error`. -/
def detail? (cs : List Char) : Option Detail :=
  match readNat 10 (UInt64.size - 1) cs with
  | .ok n => if n ≤ 5 then some n else none
  | .error _ =>
    match String.ofList (cs.map Char.toLower) with
    | "" | "error" => some 1
    | "warn" => some 2
    | "info" => some 3
    | "debug" => some 4
    | "trace" => some 5
    | "off" => some 0
    | _ => none

structure Directive where
  source : Option String
  /-- The span that an event has to be in. -/
  span : Option String
  /-- The field that an event has to have, perhaps with a value. -/
  field : Option (String × Option String)
  detail : Detail
  deriving DecidableEq, Repr

namespace Directive

/-- What may begin a directive. -/
def canBegin (c : Char) : Bool :=
  c == '-' || c == ':' || c == '_' || inRanges alphanumericRanges c.toNat

/-- The level behind an equals sign; none written means all. -/
def levelAfter? (cs : List Char) : Option Detail := if cs.isEmpty then some 5 else detail? cs

/-- Whether a text is the value of a field: a number with a sign, or a pattern. -/
def isFieldValue (cs : List Char) : Bool :=
  match cs with
  | '+' :: word => isReal cs || ["inf", "infinity", "nan"].contains (String.ofList (word.map Char.toLower))
  | _ => Pattern.isWellFormed cs

/-- A field, with the value that stands behind an equals sign. -/
def field? (cs : List Char) : Option (String × Option String) :=
  if cs.isEmpty then none
  else
    let (name, rest) := cut '=' cs
    let value := rest.map fun cs => (cut '=' cs).1
    if value.all isFieldValue then some (.ofList name, value.map .ofList) else none

/-- What follows the closing bracket; blanks at the end do not count. -/
def afterBracket? (cs : List Char) : Option Detail :=
  match cs with
  | '=' :: level => levelAfter? level
  | cs => if cs.all isBlank then some 5 else none

/-- The span, the field and the level of a directive after its opening bracket. -/
def bracket? (source : Option String) (cs : List Char) : Option Directive := do
  let isSpan (c : Char) : Bool := c != ']' && c != '\x7b'
  let name := cs.takeWhile isSpan
  match cs.dropWhile isSpan with
  | ']' :: rest => return ⟨source, some (.ofList name), none, ← afterBracket? rest⟩
  | '\x7b' :: rest =>
    match cut '\x7d' rest with
    | (inner, some (']' :: rest)) =>
      let field ← field? inner
      return ⟨source, if name.isEmpty then none else some (.ofList name), some field, ← afterBracket? rest⟩
    | _ => none
  | _ => none

/-- A directive that no blank stands before. -/
def ofTrimmed? (cs : List Char) : Option Directive :=
  match cs with
  | '[' :: rest => bracket? none rest
  | c :: _ =>
    if !canBegin c then none
    else
      let isHead (c : Char) : Bool := c != '=' && c != '['
      let head := cs.takeWhile isHead
      match cs.dropWhile isHead with
      | '=' :: level => (levelAfter? level).map fun d => ⟨some (.ofList head), none, none, d⟩
      | '[' :: rest => bracket? (some (.ofList head)) rest
      | _ =>
        match detail? head with
        | some d => some ⟨none, none, none, d⟩
        | none => some ⟨some (.ofList head), none, none, 5⟩
  | [] => none

/-- Whether a directive ends in an equals sign and a level. -/
def hasLevel (cs : List Char) : Bool := (cs.reverse.takeWhile (· != ']')).contains '='

/-- A directive. Blanks in front of it become part of its source, so that it fits no event, and
leave no place for a level. -/
def parse? (cs : List Char) : Option Directive :=
  match cs with
  | [] => none
  | c :: _ =>
    if !isBlank c then ofTrimmed? cs
    else
      let inner := cs.dropWhile isBlank
      if hasLevel inner then none
      else (ofTrimmed? inner).map fun _ => ⟨some (.ofList cs), none, none, 5⟩

/-- Whether a directive can decide on events outside all spans. -/
def isStatic (d : Directive) : Bool := d.span.isNone && d.field.all (·.2.isNone)

/-- Whether a directive speaks of an event. -/
def fits (d : Directive) (e : Event) : Bool :=
  (match d.source with
    | some s => (after? s.toList e.source.toList).isSome
    | none => true)
  && d.field.all fun (name, _) => name == "message" || e.fields.any (·.1 == name)

/-- How long the source is; no source is shorter than the empty one. -/
def sourceRank (d : Directive) : Nat :=
  match d.source with
  | some s => s.utf8ByteSize + 1
  | none => 0

/-- Whether a field is asked for before another one: any before none, and the later name first. -/
def asksFieldBefore (a b : Directive) : Bool :=
  match a.field, b.field with
  | some (x, _), some (y, _) => decide (y < x)
  | some _, none => true
  | none, _ => false

/-- The first one is asked before the second one: it has a longer source or a field. -/
def isMoreSpecific (a b : Directive) : Bool :=
  b.sourceRank < a.sourceRank || (b.sourceRank == a.sourceRank && a.asksFieldBefore b)

/-- Both are asked in the same place, so the later one replaces the earlier one. -/
def isSamePlace (a b : Directive) : Bool := a.source == b.source && a.field == b.field

end Directive

/-- Directives, the most specific first. -/
abbrev Filter := List Directive

namespace Filter

/-- Puts a directive before the first one that is less specific. -/
def insert (d : Directive) : Filter → Filter
  | [] => [d]
  | e :: rest =>
    if d.isSamePlace e then d :: rest
    else if d.isMoreSpecific e then d :: e :: rest
    else e :: insert d rest

/-- The filter of a setting that can be read. -/
def parse? (setting : String) : Option Filter := do
  let texts := (pieces (· == ',') setting.toList).filter (!·.isEmpty)
  let directives ← texts.mapM Directive.parse?
  return (directives.filter (·.isStatic)).foldl (fun f d => insert d f) []

/-- Everything up to `info`. -/
def standard : Filter := [⟨none, none, none, 3⟩]

def ofSetting (setting : String) : Filter := (parse? setting).getD standard

/-- Whether the filter lets an event through. -/
def admits (f : Filter) (e : Event) : Bool :=
  match f.find? (·.fits e) with
  | some d => e.level.detail ≤ d.detail
  | none => false

end Filter

end Pagemark.Log
