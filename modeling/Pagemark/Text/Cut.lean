/-
  Pagemark.Text.Cut — taking texts apart at separators.

  `cut` splits at the first occurrence of one character and keeps apart "nothing follows"
  (`some []`) from "no separator" (`none`). `pieces` splits at every character of a class;
  there is always at least one piece, so it yields the first piece and the list of the others.

  Proved: `cut_fst_not_mem` — the part before the cut never holds the separator.
-/

namespace Pagemark.Text

/-- What stands before the first `c`, and what follows it when there is one. -/
def cut (c : Char) : List Char → List Char × Option (List Char)
  | [] => ([], none)
  | x :: xs => if x = c then ([], some xs) else (x :: (cut c xs).1, (cut c xs).2)

theorem cut_fst_not_mem (c : Char) (cs : List Char) : c ∉ (cut c cs).1 := by
  induction cs with
  | nil => simp [cut]
  | cons x xs ih =>
    by_cases h : x = c
    · simp [cut, h]
    · simpa [cut, h, Ne.symm h] using ih

/-- The pieces between the characters that satisfy `p`: the first one and the others. -/
def piecesFrom (p : Char → Bool) : List Char → List Char × List (List Char)
  | [] => ([], [])
  | x :: xs =>
    let (head, more) := piecesFrom p xs
    if p x then ([], head :: more) else (x :: head, more)

/-- The pieces between the characters that satisfy `p`; at least one. -/
def pieces (p : Char → Bool) (cs : List Char) : List (List Char) :=
  (piecesFrom p cs).1 :: (piecesFrom p cs).2

/-- The pieces with one separator character between each two. -/
def joined (c : Char) : List (List Char) → List Char
  | [] => []
  | [piece] => piece
  | piece :: more => piece ++ c :: joined c more

/-- Drops `start` from the front of a text that begins with it. -/
def after? : (start : List Char) → List Char → Option (List Char)
  | [], cs => some cs
  | _ :: _, [] => none
  | p :: ps, c :: cs => if p = c then after? ps cs else none

/-- Every occurrence of `old`, found from the left and without overlap, replaced by `new`.
An empty `old` is never found. -/
def replaceAll (old new : List Char) (cs : List Char) : List Char :=
  if old = [] then cs else go cs 0
where
  /-- `skip` characters still belong to the occurrence found last. -/
  go : List Char → Nat → List Char
    | [], _ => []
    | _ :: cs, skip + 1 => go cs skip
    | c :: cs, 0 => if old.isPrefixOf (c :: cs) then new ++ go cs (old.length - 1) else c :: go cs 0

/-- The first occurrence of `old` replaced by `new`; an empty `old` is found at the start. -/
def replaceFirst (old new : List Char) : List Char → List Char
  | [] => if old = [] then new else []
  | c :: cs =>
    match after? old (c :: cs) with
    | some rest => new ++ rest
    | none => c :: replaceFirst old new cs

end Pagemark.Text
