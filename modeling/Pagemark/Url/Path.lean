/-
  Pagemark.Url.Path — resolving the segments of a path.

  A path is read from left to right onto a stack of segments: a single dot adds nothing, a
  double dot takes the last segment away, and either of them at the end leaves the path ending
  in a slash. Dots count in their percent-encoded spelling too. A segment that looks like a
  drive letter, alone or in front of a backslash, is never taken away.
-/

import Pagemark.Url.Alphabet

namespace Pagemark.Url.Path

open Text

abbrev Segment := List Char

/-- The text with each percent-encoded dot decoded. -/
def undot : List Char → List Char
  | [] => []
  | [a] => [a]
  | [a, b] => [a, b]
  | a :: b :: c :: rest =>
    if a = '%' ∧ b = '2' ∧ (c = 'e' ∨ c = 'E') then '.' :: undot rest else a :: undot (b :: c :: rest)

def isSingleDot (s : Segment) : Bool := undot s == ['.']

def isDoubleDot (s : Segment) : Bool := undot s == ['.', '.']

/-- A letter, and a colon or a bar. -/
def isDriveLetter : Segment → Bool
  | [letter, mark] => letter.isAlpha && (mark == ':' || mark == '|')
  | _ => false

/-- Whether a double dot leaves the segment where it is. -/
def isAnchored (s : Segment) : Bool := isDriveLetter (s.takeWhile (· != '\\'))

/-- Takes the last segment away unless it is anchored. The stack is newest first. -/
def pop : List Segment → List Segment
  | [] => []
  | s :: stack => if isAnchored s then s :: stack else stack

/-- A segment that a slash ends. -/
def push (stack : List Segment) (s : Segment) : List Segment :=
  if isDoubleDot s then pop stack
  else if isSingleDot s then stack
  else s :: stack

/-- The last segment, which no slash ends. -/
def close (stack : List Segment) (s : Segment) : List Segment :=
  if isDoubleDot s then [] :: pop stack
  else if isSingleDot s then [] :: stack
  else s :: stack

/-- All segments in turn. -/
def walk (stack : List Segment) : List Segment → List Segment
  | [] => stack
  | [last] => close stack last
  | s :: more => walk (push stack s) more

/-- The segments as a path. -/
def print (segments : List Segment) : List Char := '/' :: joined '/' segments

/-- A segment in its written form. -/
def written (cs : List Char) : Segment := Percent.encode pathKeeps cs

/-- The written segments of a text. -/
def segments (kind : Kind) (cs : List Char) : List Segment := (pieces kind.isSlash cs).map written

/-- The path that follows the segments of `stack`. -/
def resolve (kind : Kind) (stack : List Segment) (cs : List Char) : String :=
  .ofList (print (walk stack (segments kind cs)).reverse)

/-- The text behind the slash that a path may begin with. -/
def afterSlash (kind : Kind) : List Char → List Char
  | [] => []
  | c :: cs => if kind.isSlash c then cs else c :: cs

/-- The path of a text that may begin with a slash. Only the other schemes have empty paths. -/
def parse (kind : Kind) (cs : List Char) : String :=
  if cs.isEmpty && kind == .other then "" else resolve kind [] (afterSlash kind cs)

/-- The segments of a written path, newest first. -/
def stackOf (path : String) : List Segment := (pieces (· == '/') (path.toList.drop 1)).reverse

/-- The segments of a path that a relative one continues: all but the last, newest first. -/
def directory (path : String) : List Segment := (stackOf path).drop 1

end Pagemark.Url.Path
