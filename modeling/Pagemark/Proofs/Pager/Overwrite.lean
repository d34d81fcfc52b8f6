/-
  Pagemark.Proofs.Pager.Overwrite — a page is written over the one before it, and over nothing else.

  A target may carry stale paging parameters, many of them and anywhere among its own. Writing a
  page takes all of them out and puts the new ones behind what is left: a token if the codec gives
  one, one size, and a value for each key of the sorting. What is left is in the order and as often
  as it was, and it is what the token is bound to, so a link is bound to what its target is bound
  to. Of the pages written one after another only the last one shows. None of this needs the three
  names to differ, or anything of the codec.

  Proved: `query_link` — the query of a link, pair by pair; `link_foldl_link` — pages that were
  written before do not show; `Links.ofPage_congr` — so they do not show in the links of a page;
  `link_overwrites` — together.
-/

import Pagemark.Pager.Links
import Pagemark.Proofs.Pager.Link

namespace Pagemark

open Text

/-- The links of a page depend on the target only by what is no paging parameter. -/
theorem Links.ofPage_congr {p : Pager} {t t' : Target} (h : t.without p.names.toList = t'.without p.names.toList)
    (page : Page) (hasNext : Bool) : Links.ofPage p page t hasNext = Links.ofPage p page t' hasNext := by
  have same (page : Page) : p.link page t = p.link page t' := Pager.link_congr h page
  simp only [Links.ofPage, same]

namespace Pager

variable (p : Pager) (page : Page) (t : Target)

/-- The pairs that are not the pager's, and behind them what the codec writes: the token if there is
one, the size, and the keys of the sorting in their order. -/
theorem query_link :
    let bookmark := p.codec.encode page (p.identity t)
    (p.link page t).query
      = (t.query.filter fun pair => pair.1 ∉ [p.names.page, p.names.size, p.names.sort])
        ++ ((match bookmark.token with
            | none => []
            | some token => [(p.names.page, token)])
          ++ (p.names.size, decimal bookmark.size.toNat) :: bookmark.sorting.map fun key => (p.names.sort, key.text)) := by
  intro bookmark
  have kept : (t.without p.names.toList).query
      = t.query.filter fun pair => pair.1 ∉ [p.names.page, p.names.size, p.names.sort] := by
    simp [Target.without, ParameterNames.toList]
  have written : p.pairs bookmark
      = (match bookmark.token with
          | none => []
          | some token => [(p.names.page, token)])
        ++ (p.names.size, decimal bookmark.size.toNat) :: bookmark.sorting.map fun key => (p.names.sort, key.text) := by
    rw [pairs, Sorting.values, List.map_map]
    cases bookmark.token with
    | none => rfl
    | some token => rfl
  rw [link_eq]
  show (t.without p.names.toList).query ++ p.pairs bookmark = _
  rw [kept, written]

/-- Of all the pages that are written one after another the last one shows. -/
theorem link_foldl_link (pages : List Page) :
    p.link page (pages.foldl (fun target earlier => p.link earlier target) t) = p.link page t := by
  induction pages generalizing t with
  | nil => rfl
  | cons earlier pages ih => rw [List.foldl_cons, ih, link_link]

/-- A link is the target with its paging parameters taken out and those of the page behind the rest. So it
has the path of the target and is bound to what the target is bound to, and neither it nor the links of
a page show which pages were written into the target before. -/
theorem link_overwrites (page' : Page) :
    let bookmark := p.codec.encode page (p.identity t)
    (p.link page t).path = t.path ∧
      (p.link page t).query
        = (t.query.filter fun pair => pair.1 ∉ [p.names.page, p.names.size, p.names.sort])
          ++ ((match bookmark.token with
              | none => []
              | some token => [(p.names.page, token)])
            ++ (p.names.size, decimal bookmark.size.toNat)
              :: bookmark.sorting.map fun key => (p.names.sort, key.text)) ∧
      p.identity (p.link page t) = p.identity t ∧
      p.link page (p.link page' t) = p.link page t ∧
      (∀ pages : List Page, p.link page (pages.foldl (fun target earlier => p.link earlier target) t) = p.link page t) ∧
      ∀ hasNext, Links.ofPage p page (p.link page' t) hasNext = Links.ofPage p page t hasNext := by
  intro bookmark
  exact ⟨p.path_link page t, p.query_link page t, p.identity_link page t, p.link_link page' t page,
    p.link_foldl_link page t, Links.ofPage_congr (p.without_link page' t) page⟩

end Pager

end Pagemark
