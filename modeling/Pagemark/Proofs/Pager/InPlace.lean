/-
  Pagemark.Proofs.Pager.InPlace — a page that is written into a URL is written into its target.

  The token of a URL's link is bound to the target of the URL, whose path is resolved as one of the
  web, while the URL keeps the path that it has. Nothing is lost between the two: the pairs of the
  link are read back out of the new query, and the path leads to the same target as before. So
  the URL resolves as the link does, whatever its scheme is, with or without an authority, a query
  or a fragment, and so it goes on for pages that are written one after another.

  An opaque URL without a fragment loses the spaces at the end of its path along with the old query,
  and if there were any, the token is bound to a path that the URL has no longer.

  Proved: `ofUrl_linkUrl_iff` — for which URLs the two links agree; `ofUrl_foldl_linkUrl` — they
  agree after any number of pages; `linkUrl_agrees` — and resolve alike, and all but the query
  stays.
-/

import Pagemark.Proofs.Pager.Overwrite
import Pagemark.Proofs.Target

namespace Pagemark

open Text

/-- What an opaque path loses at its end is part of its target. -/
theorem Target.normalPath_unpaddedPath_iff (u : Url) :
    normalPath u.unpaddedPath = normalPath u.path ↔ u.unpaddedPath = u.path := by
  refine ⟨fun same => ?_, congrArg normalPath⟩
  cases hopaque : u.isOpaque with
  | false => exact Url.unpaddedPath_of_hierarchical hopaque
  | true =>
    have unrooted := Url.head_of_isOpaque hopaque
    have begins := u.prefix_unpaddedPath
    cases hpath : u.path.toList with
    | nil =>
      rw [hpath] at begins
      exact String.toList_inj.mp ((List.prefix_nil.mp begins).trans hpath.symm)
    | cons c cs =>
      rw [hpath] at unrooted begins
      have hc : c ≠ '/' := fun h => unrooted (congrArg some h)
      rw [normalPath_of_ne_slash hpath hc] at same
      cases hleft : u.unpaddedPath.toList with
      | nil =>
        -- A path of spaces alone would become the root.
        have root : normalPath u.unpaddedPath = "/" := by
          unfold normalPath
          rw [hleft]
        rw [← same, root] at hpath
        cases hpath
        exact absurd rfl hc
      | cons d ds =>
        rw [hleft] at begins
        obtain ⟨rfl, -⟩ := List.cons_prefix_cons.mp begins
        rwa [normalPath_of_ne_slash hleft hc] at same

namespace Pager

variable (p : Pager) (page : Page)

/-- A link has at least the pair of the size. -/
theorem query_link_ne_nil (t : Target) : (p.link page t).query ≠ [] := by
  rw [query_link]
  simp

/-- The target of a URL's link has the query of the link that is made for its target. -/
theorem ofUrl_linkUrl (u : Url) :
    Target.ofUrl (p.linkUrl page u) = { p.link page (.ofUrl u) with path := Target.normalPath u.unpaddedPath } := by
  show Target.mk (Target.normalPath u.unpaddedPath) (u.withPairs _).pairs = _
  rw [Url.pairs_withPairs]

/-- A page that is written into a URL is written into its target, unless the path ends in spaces that go
with the old query. -/
theorem ofUrl_linkUrl_iff (u : Url) :
    Target.ofUrl (p.linkUrl page u) = p.link page (.ofUrl u) ↔ u.unpaddedPath = u.path := by
  rw [ofUrl_linkUrl, ← Target.normalPath_unpaddedPath_iff]
  refine ⟨congrArg Target.path, fun same => ?_⟩
  rw [same]
  rfl

/-- Such spaces, kept by nothing but the old query. -/
example : let u : Url := ⟨"data", none, "a  ", some "q=1", none⟩
    Url.parse u.text = .ok u ∧ u.isOpaque = true ∧ (p.linkUrl page u).path = "a" ∧
      (p.link page (.ofUrl u)).path = "a  " := ⟨rfl, rfl, rfl, rfl⟩

section Hierarchical

variable {u : Url} (hierarchical : u.isOpaque = false)

include hierarchical

theorem ofUrl_linkUrl_of_hierarchical : Target.ofUrl (p.linkUrl page u) = p.link page (.ofUrl u) :=
  (p.ofUrl_linkUrl_iff page u).mpr (Url.unpaddedPath_of_hierarchical hierarchical)

/-- The query is all that a page changes. -/
theorem linkUrl_eq :
    p.linkUrl page u = { u with query := some (.ofList (Form.print (p.link page (.ofUrl u)).query)) } :=
  Url.withPairs_of_hierarchical hierarchical (p.query_link_ne_nil page _)

/-- Pages written one after another into a URL are written into its target. Only its query ever changes,
so that none of the URLs on the way is opaque. -/
theorem ofUrl_foldl_linkUrl (pages : List Page) :
    let url := pages.foldl (fun url next => p.linkUrl next url) u
    (∃ query, url = { u with query := query }) ∧
      Target.ofUrl url = pages.foldl (fun target next => p.link next target) (.ofUrl u) := by
  induction pages generalizing u with
  | nil => exact ⟨⟨u.query, rfl⟩, rfl⟩
  | cons next pages ih =>
    have written := p.linkUrl_eq next hierarchical
    have still : (p.linkUrl next u).isOpaque = false := by
      rw [written]
      exact hierarchical
    obtain ⟨⟨query, hquery⟩, htarget⟩ := ih still
    rw [List.foldl_cons, List.foldl_cons, ← p.ofUrl_linkUrl_of_hierarchical next hierarchical]
    refine ⟨⟨query, ?_⟩, htarget⟩
    rw [hquery, written]

end Hierarchical

/-- A page that is written into a URL with an authority or with a path that begins with a slash is written
into its target, and all but the query of the URL stays: its scheme, credentials, host, port, path and
fragment. So the URL resolves as the link of its target does. Pages that are written into the URL before
are written into its target too, and do not show. -/
theorem linkUrl_agrees {u : Url} (hierarchical : u.isOpaque = false) :
    let link := p.link page (.ofUrl u)
    Target.ofUrl (p.linkUrl page u) = link ∧
      p.linkUrl page u = { u with query := some (.ofList (Form.print link.query)) } ∧
      p.resolve (.ofUrl (p.linkUrl page u)) = p.resolve link ∧
      ∀ pages : List Page,
        let url := pages.foldl (fun url earlier => p.linkUrl earlier url) u
        Target.ofUrl url = pages.foldl (fun target earlier => p.link earlier target) (.ofUrl u) ∧
          p.linkUrl page url = p.linkUrl page u := by
  intro link
  have agrees : Target.ofUrl (p.linkUrl page u) = link := p.ofUrl_linkUrl_of_hierarchical page hierarchical
  refine ⟨agrees, p.linkUrl_eq page hierarchical, congrArg p.resolve agrees, fun pages => ?_⟩
  intro url
  obtain ⟨⟨query, hquery : url = _⟩, htarget : Target.ofUrl url = _⟩ := p.ofUrl_foldl_linkUrl hierarchical pages
  refine ⟨htarget, ?_⟩
  have still : url.isOpaque = false := by
    rw [hquery]
    exact hierarchical
  rw [p.linkUrl_eq page still, p.linkUrl_eq page hierarchical, htarget, p.link_foldl_link, hquery]

/-- A URL without an authority, with a fragment and stale parameters, whose path is not the one that the
token is bound to: the backslashes are part of a name in the URL and part the names in its target. -/
theorem linkUrl_agrees_without_authority :
    let p := standard.withNames ⟨"p", "n", "by"⟩
    let page : Page := ⟨3, 10, [⟨"id", .descending⟩]⟩
    let u : Url := ⟨"app", none, "/a\\..\\b", some "p=x.y&q=%2B+&n=7&p=old&q", some "top"⟩
    Url.parse "App:/a\\..\\b?p=x.y&q=%2B+&n=7&p=old&q#top" = .ok u ∧ u.isOpaque = false ∧
      (Target.ofUrl u).path = "/b" ∧ (p.linkUrl page u).path = "/a\\..\\b" ∧
      Target.ofUrl (p.linkUrl page u) = p.link page (.ofUrl u) ∧
      p.resolve (.ofUrl (p.linkUrl page u)) = p.resolve (p.link page (.ofUrl u)) := by
  intro p page u
  have hierarchical : u.isOpaque = false := by decide
  obtain ⟨agrees, written, resolves, -⟩ := linkUrl_agrees p page hierarchical
  have kept : (p.linkUrl page u).path = u.path := by rw [written]
  have bound : (Target.ofUrl u).path = "/b" := by
    simp only [u]
    rfl
  exact ⟨rfl, hierarchical, bound, kept, agrees, resolves⟩

end Pager

end Pagemark
