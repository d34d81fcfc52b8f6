/-
  Pagemark.Url.Idna — domain names in ASCII.

  A name may hold characters outside ASCII, and has a form in ASCII in which the labels that hold some
  are marked. Which names there are, and how they are mapped, the tables of Unicode tell; they are no
  part of this library. What reads a host takes the mapping as given (`Idna`), with two of its laws: a
  name without such characters and marks is only put in lower case, and a name in its ASCII form stays
  as it is.

  `Idna.ascii` maps the names that need no tables and refuses all others; `Idna.withName` knows the form of
  one name more.
-/

import Pagemark.Url.Alphabet

namespace Pagemark.Url

open Text

/-- A character that no domain name holds. -/
def isForbidden (c : Char) : Bool := !isShown c || " %#/:<>?@[\\]^|".toList.contains c

/-- Whether a label is marked as one that holds characters outside ASCII. -/
def isMarked : List Char → Bool
  | 'x' :: 'n' :: '-' :: '-' :: _ => true
  | _ => false

/-- A name in ASCII without marked labels. -/
def isPlainName (cs : List Char) : Bool := cs.all (!isForbidden ·) && (pieces (· == '.') cs).all (!isMarked ·)

/-- The mapping of domain names to ASCII, as it is used for URLs: any hyphens, lengths and empty labels
are let through. -/
class Idna where
  /-- The ASCII form of what stands for a name; none when it is no name. -/
  toAscii : List Char → Option (List Char)
  toAscii_plain : ∀ cs, isPlainName (cs.map Char.toLower) = true → toAscii cs = some (cs.map Char.toLower)
  toAscii_idem : ∀ cs name, toAscii cs = some name → toAscii name = some name

theorem toLower_toLower (c : Char) : c.toLower.toLower = c.toLower := by
  unfold Char.toLower
  split <;> grind

namespace Idna

/-- The ASCII form of a name that needs no tables. -/
def plainForm? (cs : List Char) : Option (List Char) :=
  if isPlainName (cs.map Char.toLower) then some (cs.map Char.toLower) else none

theorem plainForm?_idem {cs name : List Char} (h : plainForm? cs = some name) : plainForm? name = some name := by
  have lower : (cs.map Char.toLower).map Char.toLower = cs.map Char.toLower := by
    rw [List.map_map]
    exact List.map_congr_left fun c _ => toLower_toLower c
  unfold plainForm? at h ⊢
  split at h
  · rename_i plain
    obtain rfl := Option.some.inj h
    rw [lower, if_pos plain]
  · cases h

/-- The mapping of a program that brings no tables with it. -/
instance (priority := low) ascii : Idna where
  toAscii := plainForm?
  toAscii_plain := fun _ plain => if_pos plain
  toAscii_idem := fun _ _ => plainForm?_idem

/-- The form of one name that is known, and is none of those that need no tables. -/
def knownForm? (known form cs : List Char) : Option (List Char) :=
  if (cs = known ∨ cs = form) ∧ plainForm? form = none then some form else none

/-- The mapping of a program that knows the form of one name. -/
@[reducible]
def withName (known form : List Char) : Idna where
  toAscii := fun cs => (plainForm? cs).or (knownForm? known form cs)
  toAscii_plain := by
    intro cs plain
    rw [plainForm?, if_pos plain, Option.some_or]
  toAscii_idem := by
    intro cs name h
    rcases Option.or_eq_some_iff.mp h with h | ⟨-, h⟩
    · rw [plainForm?_idem h, Option.some_or]
    · unfold knownForm? at h ⊢
      split at h
      · rename_i unplain
        obtain rfl := Option.some.inj h
        rw [unplain.2, Option.none_or, if_pos ⟨.inr rfl, rfl⟩]
      · cases h

end Idna

end Pagemark.Url
