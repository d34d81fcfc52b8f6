/-
  Pagemark.Proofs.Target — targets read back from their text.

  A target is `Settled` when its path is resolved and holds no mark, so that its text ends the
  path where the target does. Whatever way a target is received, it is settled; and the text of
  a settled target, whatever its pairs are, is read as the target.

  Proved: `normalPath_idem` — a path is resolved once for all; `settled_of_received`, `parse_text`.
-/

import Pagemark.Proofs.Form
import Pagemark.Proofs.Url.Reference
import Pagemark.Target

namespace Pagemark

open Text

/-! ## URIs -/

namespace Uri

/-- The path holds no query and no fragment. -/
def Bounded (u : Uri) : Prop := Url.Unmarked u.path.toList

instance (u : Uri) : Decidable u.Bounded := inferInstanceAs (Decidable (Url.Unmarked u.path.toList))

theorem bounded_of_readTarget {cs : List Char} {u : Uri} (h : readTarget cs = .ok u) : u.Bounded := by
  have hpath : Url.Unmarked (cs.takeWhile fun c => c != '?' && c != '#') := by
    intro c hc
    have := List.all_eq_true.mp List.all_takeWhile c hc
    simp only [Bool.and_eq_true, bne_iff_ne] at this
    simp [Url.isTailMark, this]
  unfold readTarget at h
  extract_lets path query? at h
  split at h
  · cases h
  split at h
  · cases h
  cases h
  show Url.Unmarked (String.toList (if path.isEmpty then "/" else .ofList path))
  split
  · decide
  · rw [String.toList_ofList]
    exact hpath

theorem bounded_of_readAbsolute {cs : List Char} {u : Uri} (h : readAbsolute cs = .ok u) : u.Bounded := by
  unfold readAbsolute at h
  obtain ⟨length?, -, h⟩ := ok_of_bind h
  cases length? with
  | none =>
    obtain ⟨_, -, h⟩ := ok_of_bind h
    split at h
    · cases h; decide
    · cases h
  | some n =>
    simp only at h
    obtain ⟨-, h⟩ := ok_of_guard h
    obtain ⟨_, -, h⟩ := ok_of_bind h
    obtain ⟨-, h⟩ := ok_of_guard h
    exact bounded_of_readTarget h

/-- A URI that is read has a path without a query and a fragment. -/
theorem bounded_of_parse {s : String} {u : Uri} (h : parse s = .ok u) : u.Bounded := by
  unfold parse at h
  split at h
  · cases h
  split at h
  · cases h
  · cases h; decide
  · exact bounded_of_readTarget h
  · obtain ⟨_, -, h⟩ := ok_of_bind h
    obtain ⟨-, h⟩ := ok_of_guard h
    cases h
    decide
  · exact bounded_of_readAbsolute h

end Uri

/-! ## Settled targets -/

namespace Target

/-- The path is resolved, and ends where its text ends. -/
structure Settled (t : Target) : Prop where
  path : normalPath t.path = t.path
  unmarked : Url.Unmarked t.path.toList

/-- How targets come in: as the text of a path and a query, or with a URI or a URL. All URIs and URLs
that are read are bounded (`Uri.bounded_of_parse`, `Url.bounded_of_read`). -/
inductive Received : Target → Prop
  | parse (s : String) : Received (.parse s)
  | ofUri {uri : Uri} (h : uri.Bounded) : Received (.ofUri uri)
  | ofUrl {url : Url} (h : url.Bounded) : Received (.ofUrl url)

theorem normalPath_of_slash {path : String} {cs : List Char} (hcs : path.toList = '/' :: cs)
    (h : Url.Unmarked path.toList) : normalPath path = Url.Path.parse .web (Url.cleaned path.toList) := by
  have hmarks : cs.any Url.isTailMark = false := by
    rw [hcs] at h
    exact List.any_eq_false.mpr fun c hc => by simp [h c (List.mem_cons_of_mem _ hc)]
  unfold normalPath
  rw [hcs]
  simp [hmarks]

/-- A path that begins with anything but a slash stays. -/
theorem normalPath_of_ne_slash {path : String} {c : Char} {cs : List Char} (hcs : path.toList = c :: cs) (hc : c ≠ '/') :
    normalPath path = path := by
  unfold normalPath
  rw [hcs]
  simp [hc]

theorem normalPath_of_resolved {path : String} (h : Url.Path.Resolved path) : normalPath path = path := by
  obtain ⟨cs, hcs⟩ := Url.Path.rooted_of_resolved h
  rw [normalPath_of_slash hcs (Url.Path.unmarked_of_resolved h),
    Url.cleaned_of_shown (Url.Path.shown_of_resolved h), Url.Path.parse_of_resolved h]

/-- A path is kept as it is, or what comes of it is resolved. -/
theorem normalPath_kept_or_resolved (path : String) : normalPath path = path ∨ Url.Path.Resolved (normalPath path) := by
  unfold normalPath
  split
  · exact .inr (Url.Path.resolved_parse [])
  · split
    · exact .inr (Url.Path.resolved_parse _)
    · exact .inl rfl

/-- Resolving twice is resolving once, also for paths that hold a mark, which stay. -/
theorem normalPath_idem (path : String) : normalPath (normalPath path) = normalPath path := by
  rcases normalPath_kept_or_resolved path with kept | resolved
  · rw [kept, kept]
  · exact normalPath_of_resolved resolved

/-- Resolving brings no mark in. -/
theorem unmarked_normalPath {path : String} (h : Url.Unmarked path.toList) : Url.Unmarked (normalPath path).toList := by
  rcases normalPath_kept_or_resolved path with kept | resolved
  · rwa [kept]
  · exact Url.Path.unmarked_of_resolved resolved

/-- A path that begins with a slash still does when it is resolved. -/
theorem rooted_normalPath {path : String} (h : Url.Unmarked path.toList) (rooted : ['/'] <+: path.toList) :
    ['/'] <+: (normalPath path).toList := by
  obtain ⟨cs, hcs⟩ := rooted
  obtain ⟨more, hmore⟩ := Url.Path.rooted_of_resolved (Url.Path.resolved_parse (Url.cleaned path.toList))
  rw [normalPath_of_slash hcs.symm h, hmore]
  exact List.prefix_append _ _

theorem settled_of_normalPath {path : String} (h : Url.Unmarked path.toList) (query : List (String × String)) :
    Settled ⟨normalPath path, query⟩ :=
  ⟨normalPath_idem path, unmarked_normalPath h⟩

/-- However a target is received, its path is resolved. -/
theorem settled_of_received {t : Target} (h : Received t) : t.Settled := by
  cases h with
  | parse s =>
    refine settled_of_normalPath ?_ _
    rw [String.toList_ofList]
    intro c hc
    have hquery : c ≠ '?' := by
      rintro rfl
      exact cut_fst_not_mem '?' _ hc
    have hfragment : c ≠ '#' := by
      rintro rfl
      exact cut_fst_not_mem '#' _ (mem_of_mem_cut_fst hc)
    simp [Url.isTailMark, hquery, hfragment]
  | ofUri h => exact settled_of_normalPath h _
  | ofUrl h => exact settled_of_normalPath h _

/-- The rooted path of a settled target is a path of the web. -/
theorem resolved_of_settled {t : Target} (h : t.Settled) (rooted : ['/'] <+: t.path.toList) :
    Url.Path.Resolved t.path := by
  obtain ⟨cs, hcs⟩ := rooted
  have hpath := h.path
  rw [normalPath_of_slash hcs.symm h.unmarked] at hpath
  rw [← hpath]
  exact Url.Path.resolved_parse _

/-- The text of a settled target comes apart into its path and its pairs, and has no fragment. -/
theorem cut_text {t : Target} (h : t.Settled) :
    cut '?' (cut '#' t.text.toList).1 = (t.path.toList, if t.query.isEmpty then none else some (Form.print t.query)) := by
  have hquery : '?' ∉ t.path.toList := fun hc => absurd (h.unmarked _ hc) (by decide)
  have hfragment : '#' ∉ t.path.toList := fun hc => absurd (h.unmarked _ hc) (by decide)
  unfold text
  split
  · rw [cut_of_not_mem hfragment, cut_of_not_mem hquery]
  · have htext : (t.path ++ "?" ++ .ofList (Form.print t.query)).toList = t.path.toList ++ '?' :: Form.print t.query := by
      simp
    have hwhole : '#' ∉ t.path.toList ++ '?' :: Form.print t.query := by
      rw [List.mem_append, List.mem_cons]
      rintro (hc | hc | hc)
      · exact hfragment hc
      · exact absurd hc (by decide)
      · rcases Form.mem_print hc with hc | hc | hc
        · exact absurd hc (by decide)
        · exact absurd hc (by decide)
        · exact absurd hc (by decide)
    rw [htext, cut_of_not_mem hwhole]
    exact cut_append hquery _

/-- The text of a settled target is read as the target, whatever its pairs. -/
theorem parse_text {t : Target} (h : t.Settled) : parse t.text = t := by
  have hpairs : ((if t.query.isEmpty then none else some (Form.print t.query)).map Form.parse).getD [] = t.query := by
    split
    · rename_i hempty
      exact (List.isEmpty_iff.mp hempty).symm
    · exact Form.parse_print t.query
  simp only [parse, cut_text h, String.ofList_toList, h.path, hpairs]

end Target

end Pagemark
