/-
  Pagemark.Proofs.Url.Query — URLs with another query.

  The pairs that are put into a URL are the pairs that are read out of it, whatever they are. All
  other components stay, with one exception: an opaque path may lose spaces at its end. A URL
  with an authority, or with a path that begins with a slash, is not opaque.

  Proved: `pairs_withPairs` — the pairs are read back; `withPairs_of_hierarchical` — nothing else
  has changed.
-/

import Pagemark.Proofs.Form
import Pagemark.Url.Query

namespace Pagemark.Url

/-- The pairs of a URL are the ones it was given. -/
theorem pairs_withPairs (u : Url) (pairs : List (String × String)) : (u.withPairs pairs).pairs = pairs := by
  unfold Url.pairs withPairs
  cases pairs with
  | nil => rfl
  | cons pair more =>
    show Form.parse (String.ofList (Form.print (pair :: more))).toList = _
    rw [String.toList_ofList, Form.parse_print]

/-- Only the end of a path is ever given up. -/
theorem prefix_unpaddedPath (u : Url) : u.unpaddedPath.toList <+: u.path.toList := by
  unfold unpaddedPath
  split
  · rw [String.toList_ofList]
    simpa using List.reverse_prefix.mpr (List.dropWhile_suffix (l := u.path.toList.reverse) (· == ' '))
  · exact List.prefix_rfl

section Hierarchical

variable {u : Url}

theorem isOpaque_of_authority {a : Authority} (h : u.authority = some a) : u.isOpaque = false := by
  simp [isOpaque, h]

theorem isOpaque_of_hasHost (h : u.hasHost = true) : u.isOpaque = false := by
  cases ha : u.authority with
  | none =>
    rw [hasHost, host, ha] at h
    exact absurd h (by decide)
  | some a => exact isOpaque_of_authority ha

/-- A path without an authority in front of it is opaque when it does not begin with a slash. -/
theorem head_of_isOpaque (h : u.isOpaque = true) : u.path.toList.head? ≠ some '/' := by
  simp only [isOpaque, Bool.and_eq_true, Bool.not_eq_true'] at h
  simpa using h.2

theorem unpaddedPath_of_hierarchical (h : u.isOpaque = false) : u.unpaddedPath = u.path := by
  simp [unpaddedPath, h]

/-- Where there are pairs to write, the query that they are written as is all that is new. -/
theorem withPairs_of_hierarchical (h : u.isOpaque = false) {pairs : List (String × String)} (hpairs : pairs ≠ []) :
    u.withPairs pairs = { u with query := some (.ofList (Form.print pairs)) } := by
  have written : pairs.isEmpty = false := by simpa using hpairs
  rw [withPairs, unpaddedPath_of_hierarchical h, written]
  rfl

end Hierarchical

end Pagemark.Url
