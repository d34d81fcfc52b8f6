/-
  Pagemark.Url.FilePath — the paths of `file` URLs.

  They are resolved as other paths are, with rules of their own for drive letters. A drive
  letter as the first segment is written with a colon and stands in place of a host. A tab or
  line break does not count, but behind a drive letter and its colon it ends the first segment:
  what follows on the same side of the next slash is a segment of its own, whatever it spells.
  Slashes at the start of the path become one.

  The texts here still hold their tabs and line breaks.
-/

import Pagemark.Url.Path

namespace Pagemark.Url.FilePath

open Text Url.Path

/-- The segments so far, newest first, and whether a drive letter has been read as the first. -/
structure Walk where
  stack : List Segment
  isDrive : Bool

/-- A drive letter with a colon, and the text that a tab or line break parts from it. -/
def broken? (cs : List Char) : Option (Segment × Segment) :=
  match cs.dropWhile isIgnored with
  | letter :: cs =>
    match cs.dropWhile isIgnored with
    | ':' :: c :: cs =>
      let rest := counted cs
      if letter.isAlpha && isIgnored c && !rest.isEmpty then some ([letter, ':'], written rest) else none
    | _ => none
  | [] => none

/-- A drive letter with its colon. -/
def spelled (s : Segment) : Segment := s.take 1 ++ [':']

/-- The first segment, which `put` adds unless it holds a drive letter. -/
def placeFirst (put : List Segment → Segment → List Segment) (isDrive : Bool) (cs : List Char) : Walk :=
  let s := written (counted cs)
  match broken? cs with
  | some (drive, rest) => ⟨[rest, drive], isDrive⟩
  | none => if isDriveLetter s then ⟨[spelled s], true⟩ else ⟨put [] s, isDrive⟩

/-- A segment more, which `put` adds. -/
def Walk.place (put : List Segment → Segment → List Segment) (w : Walk) (cs : List Char) : Walk :=
  if w.stack.isEmpty then placeFirst put w.isDrive cs else { w with stack := put w.stack (written (counted cs)) }

/-- All segments in turn. -/
def Walk.follow (w : Walk) : List (List Char) → Walk
  | [] => w
  | [last] => w.place close last
  | cs :: more => (w.place push cs).follow more

/-- What the path of a text leads to from the segments of `stack`. -/
def walk (stack : List Segment) (cs : List Char) : Walk := Walk.follow ⟨stack, false⟩ (pieces Kind.file.isSlash cs)

/-- The segments as a path. -/
def print (stack : List Segment) : String := .ofList ('/' :: (joined '/' stack.reverse).dropWhile (· == '/'))

/-- The path that follows the segments of `stack`. -/
def resolve (stack : List Segment) (cs : List Char) : String := print (walk stack cs).stack

/-- A drive letter with a colon. -/
def isSpelled (s : Segment) : Bool := isDriveLetter s && s.getLast? == some ':'

/-- The path that continues the segment `last`, which dots leave as it is. -/
def continueSegment (last : Segment) (stack : List Segment) (cs : List Char) : String :=
  match pieces Kind.file.isSlash cs with
  | [] => print (last :: stack)
  | first :: more =>
    let s := written (counted first)
    let w : Walk :=
      if isDoubleDot s then ⟨last :: stack, false⟩
      else if isSingleDot s then ⟨if more.isEmpty then [] :: last :: stack else last :: stack, false⟩
      else ⟨(last ++ s) :: stack, false⟩
    print (w.follow more).stack

/-- The path of a relative text. It takes the place of the last segment; but a drive letter in
the last place is kept as a folder when it is the only segment, and else is continued. -/
def join (path : String) (cs : List Char) : String :=
  match stackOf path with
  | [] => resolve [] cs
  | last :: stack =>
    if !isSpelled last then resolve stack cs
    else if stack.isEmpty then resolve [last] cs
    else continueSegment last stack cs

/-- The first segment of a path, if it is a drive letter with a colon. -/
def drive? (path : String) : Option Segment := (stackOf path).getLast?.filter isSpelled

end Pagemark.Url.FilePath
