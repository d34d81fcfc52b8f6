/-
  Pagemark.Proofs.Pager.Walk — walks along links stay among the pages of their target.

  A client that has read a page follows the text of one of its links, reads the target out of
  the text and the page out of the target, and goes on from there. Nothing but the text of the
  link is handed on from one page to the next. The state is the target and the page that was
  read from it; the invariant says that the target is settled, that the page can be linked to,
  and that the parameters other than the paging ones are those of the start.

  Proved: `visit_link` — a link is read as the page that it was made for; `follow_along`,
  `walk_along` — the invariant holds along every walk, and the index follows the moves;
  `walk_closed` — no walk fails, nothing but the index changes, and the first page keeps its link.
-/

import Mathlib.Algebra.Group.Nat.Defs
import Pagemark.Pager.Links
import Pagemark.Proofs.Page
import Pagemark.Proofs.Pager.Built
import Pagemark.Proofs.Pager.Carried
import Pagemark.Proofs.Target

namespace Pagemark

/-! ## Links to follow -/

/-- The text of the link to follow, if there is one. -/
def Links.text (l : Links) : Move → Option String
  | .self => some l.self
  | .first => some l.first
  | .prev => l.prev
  | .next => l.next

theorem Links.text_ofPage (p : Pager) (page : Page) (t : Target) (m : Move) :
    (Links.ofPage p page t true).text m = (m.page page).map fun page => (p.link page t).text := by
  cases m with
  | self => rfl
  | first => rfl
  | prev => rfl
  | next => rfl

/-- A link that there is leads to the page of its move. -/
theorem Links.page_of_text {p : Pager} {page : Page} {t : Target} {hasNext : Bool} {m : Move} {text : String}
    (h : (Links.ofPage p page t hasNext).text m = some text) :
    ∃ page', m.page page = some page' ∧ (p.link page' t).text = text := by
  cases m with
  | self => exact ⟨page, rfl, Option.some_inj.mp h⟩
  | first => exact ⟨page.first, rfl, Option.some_inj.mp h⟩
  | prev => exact Option.map_eq_some_iff.mp h
  | next =>
    cases hasNext with
    | false => cases h
    | true => exact ⟨page.next, rfl, Option.some_inj.mp h⟩

/-! ## Walks -/

/-- A page and the target that it was read from. -/
structure Visit where
  target : Target
  page : Page

namespace Pager

/-- The links of a visit, when more pages follow. -/
def links (p : Pager) (v : Visit) : Links := .ofPage p v.page v.target true

/-- Reads the text of a link as a target and a page. -/
def visit (p : Pager) (text : String) : Except PageError Visit :=
  (p.resolve (.parse text)).value.map fun page => ⟨.parse text, page⟩

/-- Follows links one after another: none when a link is absent, and an error when one cannot be
read. -/
def walk (p : Pager) : Visit → List Move → Option (Except PageError Visit)
  | v, [] => some (.ok v)
  | v, m :: more =>
    match (p.links v).text m with
    | none => none
    | some text =>
      match p.visit text with
      | .error e => some (.error e)
      | .ok v => p.walk v more

/-- What all visits of a walk have in common with its start: the target up to the paging parameters,
and the page up to the index. -/
structure Along (p : Pager) (start v : Visit) : Prop where
  settled : v.target.Settled
  carries : p.Carries v.page
  without : v.target.without p.names.toList = start.target.without p.names.toList
  size : v.page.size = start.page.size
  sorting : v.page.sorting = start.page.sorting

variable {p : Pager}

theorem settled_link {t : Target} (h : t.Settled) (page : Page) : (p.link page t).Settled := ⟨h.path, h.unmarked⟩

theorem carries_page {m : Move} {page page' : Page} (h : p.Carries page) (hm : m.page page = some page') :
    p.Carries page' := by
  obtain ⟨hsize, hsorting⟩ := m.page_frame hm
  refine ⟨?_, ?_, ?_⟩
  · rw [hsize]; exact h.pos
  · rw [hsize]; exact h.atMost
  · rw [hsorting]; exact h.named

section Stack

variable {stack : Codec.Stack} (hcodec : p.codec = stack.codec) (distinct : p.names.toList.Nodup)

include hcodec distinct

/-- The text of a link leads to the target and the page that it was written for. -/
theorem visit_link {t : Target} (ht : t.Settled) {page : Page} (hpage : p.Carries page) :
    p.visit (p.link page t).text = .ok ⟨p.link page t, page⟩ := by
  have hresolve : (p.resolve (p.link page t)).value = .ok page := resolve_link_of_carries hcodec distinct hpage
  rw [visit, Target.parse_text (settled_link ht page), hresolve]
  rfl

/-- One link leads from a visit to another one along the walk, at the index that the move says. -/
theorem follow_along {start v : Visit} (hv : p.Along start v) (m : Move) :
    match m.index v.page.index.toNat with
    | none => (p.links v).text m = none
    | some index => ∃ text v', (p.links v).text m = some text ∧ p.visit text = .ok v' ∧ p.Along start v' ∧
        v'.page.index.toNat = index := by
  have hindex := m.index_page v.page
  have htext : (p.links v).text m = (m.page v.page).map fun page => (p.link page v.target).text :=
    Links.text_ofPage p v.page v.target m
  cases hpage : m.page v.page with
  | none =>
    rw [hpage] at hindex htext
    rw [← hindex]
    exact htext
  | some page =>
    rw [hpage] at hindex htext
    rw [← hindex]
    obtain ⟨hsize, hsorting⟩ := m.page_frame hpage
    have hcarries := carries_page hv.carries hpage
    refine ⟨_, ⟨p.link page v.target, page⟩, htext, visit_link hcodec distinct hv.settled hcarries, ?_, rfl⟩
    exact {
      settled := settled_link hv.settled page
      carries := hcarries
      without := (p.without_link page v.target).trans hv.without
      size := hsize.trans hv.size
      sorting := hsorting.trans hv.sorting }

/-- Many links do the same. -/
theorem walk_along {start v : Visit} (hv : p.Along start v) (moves : List Move) :
    match Move.run moves v.page.index.toNat with
    | none => p.walk v moves = none
    | some index => ∃ v', p.walk v moves = some (.ok v') ∧ p.Along start v' ∧ v'.page.index.toNat = index := by
  -- On the moves, for all visits at once: the rest of the walk begins at the page that one link led to.
  induction moves generalizing v with
  | nil => exact ⟨v, rfl, hv, rfl⟩
  | cons m more ih =>
    have hstep := follow_along hcodec distinct hv m
    rw [Move.run, walk]
    cases hindex : m.index v.page.index.toNat with
    | none =>
      rw [hindex] at hstep
      simp only at hstep
      rw [hstep]
      rfl
    | some index =>
      rw [hindex] at hstep
      obtain ⟨text, v', htext, hvisit, hv', rfl⟩ := hstep
      have hmore := ih hv'
      simp only [htext, hvisit]
      exact hmore

end Stack

/-! ## What a client sees -/

/-- A visit with the index given, on a walk from `start`: the same size and sorting, the same path and
the same parameters apart from the paging ones, in their order, and the same first link. There is
a link back except on page 0, and each link is the own link of what it leads to. -/
structure Reached (p : Pager) (start : Visit) (index : Nat) (v : Visit) : Prop where
  index : v.page.index.toNat = index
  size : v.page.size = start.page.size
  sorting : v.page.sorting = start.page.sorting
  path : v.target.path = start.target.path
  query : (v.target.without p.names.toList).query = (start.target.without p.names.toList).query
  first : (p.links v).first = (p.links start).first
  prev : (p.links v).prev = none ↔ v.page.index = 0
  own : ∀ m text, (p.links v).text m = some text → ∃ v', p.visit text = .ok v' ∧ (p.links v').self = text

theorem prev_eq_none_iff (v : Visit) : (p.links v).prev = none ↔ v.page.index = 0 := by
  show v.page.previous.map _ = none ↔ _
  rw [Option.map_eq_none_iff]
  unfold Page.previous
  split
  · rename_i h
    exact iff_of_true rfl h
  · rename_i h
    exact iff_of_false (by simp) h

/-- The first links of two visits along one walk are the same. -/
theorem first_of_along {start v : Visit} (hv : p.Along start v) : (p.links v).first = (p.links start).first := by
  have hfirst : v.page.first = start.page.first := by
    rw [Page.first, Page.first, hv.size, hv.sorting]
  show (p.link v.page.first v.target).text = (p.link start.page.first start.target).text
  rw [hfirst, link_congr hv.without]

section Stack

variable {stack : Codec.Stack} (hcodec : p.codec = stack.codec) (distinct : p.names.toList.Nodup)

include hcodec distinct

theorem own_of_along {start v : Visit} (hv : p.Along start v) {m : Move} {text : String}
    (h : (p.links v).text m = some text) : ∃ v', p.visit text = .ok v' ∧ (p.links v').self = text := by
  obtain ⟨page, hpage, rfl⟩ := Links.page_of_text h
  refine ⟨_, visit_link hcodec distinct hv.settled (carries_page hv.carries hpage), ?_⟩
  show (p.link page (p.link page v.target)).text = _
  rw [link_link]

theorem reached_of_along {start v : Visit} (hv : p.Along start v) : p.Reached start v.page.index.toNat v where
  index := rfl
  size := hv.size
  sorting := hv.sorting
  path := by
    show (v.target.without p.names.toList).path = (start.target.without p.names.toList).path
    rw [hv.without]
  query := congrArg Target.query hv.without
  first := first_of_along hv
  prev := prev_eq_none_iff v
  own := fun _ _ h => own_of_along hcodec distinct hv h

end Stack

/-- Walks along links never fail and never leave the pages of their target. Whatever links are
followed from a page that was read, the walk only ends early where a link back is followed from
page 0, and else reaches the page at the index that the moves lead to. -/
theorem walk_closed {stack : Codec.Stack} {p : Pager} (built : Built stack.codec p)
    (distinct : p.names.toList.Nodup) {t : Target} (received : t.Received) {r : Page}
    (resolved : (p.resolve t).value = .ok r) (moves : List Move) :
    match Move.run moves r.index.toNat with
    | none => p.walk ⟨t, r⟩ moves = none
    | some index => ∃ v, p.walk ⟨t, r⟩ moves = some (.ok v) ∧ p.Reached ⟨t, r⟩ index v := by
  have hcodec := codec_of_built built
  have hstart : p.Along ⟨t, r⟩ ⟨t, r⟩ := {
    settled := Target.settled_of_received received
    carries := carries_of_resolve (sized_of_built built) hcodec resolved
    without := rfl
    size := rfl
    sorting := rfl }
  have hwalk := walk_along hcodec distinct hstart moves
  cases hrun : Move.run moves r.index.toNat with
  | none =>
    rw [hrun] at hwalk
    exact hwalk
  | some index =>
    rw [hrun] at hwalk
    obtain ⟨v, hv, halong, rfl⟩ := hwalk
    exact ⟨v, hv, reached_of_along hcodec distinct halong⟩

/-- Four links under two seals, from a URL whose path and paging parameters are written oddly. -/
theorem walk_closed_under_two_seals :
    let stack : Codec.Stack := .sealed (Seal.lockOf "secret") (.shared (.sealed Seal.unlocked .pageNumber))
    let p := ((ofCodec stack.codec).withMaxSize 5).withNames ⟨"p", "n", "by"⟩
    let url : Url := ⟨"http", some ⟨"u", none, .name "example.com", none⟩, "/a/c%20d",
      some "tag=x%26y&n=%2B9&tag=&by=name,%20,DESC", some "top"⟩
    let r : Page := ⟨0, 5, [⟨"name", .descending⟩]⟩
    Url.parse "HTTP://u@Example.com:80/a/./b/../c d?tag=x%26y&n=%2B9&tag=&by=name, ,DESC#top" = .ok url ∧
      Built stack.codec p ∧ p.names.toList.Nodup ∧ (Target.ofUrl url).Received ∧
      (p.resolve (.ofUrl url)).value = .ok r ∧
      ∃ v, p.walk ⟨.ofUrl url, r⟩ [.next, .self, .next, .prev] = some (.ok v) ∧
        p.Reached ⟨.ofUrl url, r⟩ 1 v := by
  intro stack p url r
  have read : Url.parse "HTTP://u@Example.com:80/a/./b/../c d?tag=x%26y&n=%2B9&tag=&by=name, ,DESC#top" = .ok url := rfl
  have built : Built stack.codec p := .withNames _ (.withMaxSize _ .ofCodec)
  have distinct : p.names.toList.Nodup := by decide
  have received : (Target.ofUrl url).Received := .ofUrl (Url.bounded_of_read (.parse read))
  have resolved : (p.resolve (.ofUrl url)).value = .ok r := by
    simp only [p, stack, url, r]
    rfl
  refine ⟨read, built, distinct, received, resolved, ?_⟩
  exact walk_closed built distinct received resolved [.next, .self, .next, .prev]

end Pager

end Pagemark
