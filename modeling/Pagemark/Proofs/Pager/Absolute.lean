/-
  Pagemark.Proofs.Pager.Absolute — links of a page as URLs on a base.

  A client may put any path into its target, and the links of a page begin with that path. Joined
  to a base, a link whose path begins with one slash stays in the place of the base and asks for
  the same page as the relative link does (`OnBase`). A path that begins with two slashes is read
  as a place of its own, so that the links leave the base or cannot be joined to it.

  Proved: `onBase_link` — one link; `absolute_on_base_iff` — all links of a page stay on the base
  exactly when the path does not begin with two slashes.
-/

import Pagemark.Pager.Links
import Pagemark.Proofs.Pager.Walk
import Pagemark.Proofs.Url.Join

namespace Pagemark

open Text

/-- The absolute text is a URL in the place of the base, and what is asked there is what the relative
text asks. -/
def OnBase [Url.Idna] (base : Url) (relative absolute : String) : Prop :=
  ∃ url : Url, Url.parse absolute = .ok url ∧ url.scheme = base.scheme ∧ url.authority = base.authority ∧
    Target.ofUrl url = .parse relative ∧ ∀ p : Pager, p.resolve (.ofUrl url) = p.resolve (.parse relative)

/-- The same links are there, each of them on the base. -/
def Links.OnBase [Url.Idna] (base : Url) (relative absolute : Links) : Prop :=
  ∀ m, Option.Rel (Pagemark.OnBase base) (relative.text m) (absolute.text m)

namespace Pager

/-- The query of a link. -/
def linkQuery (p : Pager) (page : Page) (t : Target) : String := .ofList (Form.print (p.link page t).query)

theorem text_link (p : Pager) (page : Page) (t : Target) :
    (p.link page t).text = Url.linkText t.path (p.linkQuery page t) := by
  have filled : (p.link page t).query.isEmpty = false := by
    simp [link, pairs]
  unfold Target.text
  rw [filled]
  rfl

section Idna

variable [Url.Idna]

section Link

variable {base : Url} (written : base.Written) (p : Pager) (page : Page) {t : Target} (settled : t.Settled)
  (rooted : ['/'] <+: t.path.toList)

include written settled rooted

/-- A link with one slash stays on the base. -/
theorem onBase_link (hone : ¬ ['/', '/'] <+: t.path.toList) :
    ∃ url, base.join (p.link page t).text = .ok url ∧ OnBase base (p.link page t).text url.text := by
  have resolved := Target.resolved_of_settled settled rooted
  have kept : Url.Kept (Url.queryKeeps .web) (p.linkQuery page t) := Url.kept_print _ _
  have hjoin := Url.join_of_one_slash written resolved kept hone
  have hparse := Url.parse_text (Url.written_of_join written resolved kept hjoin).toHosted
  have htarget : Target.ofUrl ⟨base.scheme, base.authority, t.path, some (p.linkQuery page t), none⟩
      = p.link page t := by
    have hpairs : Form.parse (p.linkQuery page t).toList = (p.link page t).query := by
      rw [linkQuery, String.toList_ofList, Form.parse_print]
    show Target.mk (Target.normalPath t.path) (Form.parse (p.linkQuery page t).toList) = _
    rw [settled.path, hpairs]
    rfl
  have hsame := htarget.trans (Target.parse_text (settled_link settled page)).symm
  rw [← text_link] at hjoin
  exact ⟨_, hjoin, _, hparse, rfl, rfl, hsame, fun p => congrArg p.resolve hsame⟩

/-- A link with two slashes does not. -/
theorem not_onBase_link (htwo : ['/', '/'] <+: t.path.toList) {url : Url}
    (h : base.join (p.link page t).text = .ok url) : ¬ OnBase base (p.link page t).text url.text := by
  have resolved := Target.resolved_of_settled settled rooted
  have kept : Url.Kept (Url.queryKeeps .web) (p.linkQuery page t) := Url.kept_print _ _
  rw [text_link] at h
  have hwritten := Url.written_of_join written resolved kept h
  rintro ⟨read, hread, -, -, htarget, -⟩
  obtain rfl : url = read := Except.ok.inj ((Url.parse_text hwritten.toHosted).symm.trans hread)
  rw [Target.parse_text (settled_link settled page)] at htarget
  have hpath : Target.normalPath url.path = t.path := congrArg Target.path htarget
  rw [Target.normalPath_of_resolved hwritten.resolved] at hpath
  exact Url.path_ne_of_two_slashes written resolved kept htwo h hpath

end Link

section All

variable {base : Url} {p : Pager} {t : Target}
  (joined : ∀ page, ∃ url, base.join (p.link page t).text = .ok url ∧ OnBase base (p.link page t).text url.text)

include joined

theorem joinOption_link (page : Option Page) :
    ∃ link, Links.joinOption base (page.map fun page => (p.link page t).text) = .ok link ∧
      Option.Rel (OnBase base) (page.map fun page => (p.link page t).text) link := by
  cases page with
  | none => exact ⟨none, rfl, .none⟩
  | some page =>
    obtain ⟨url, hjoin, hon⟩ := joined page
    refine ⟨some url.text, ?_, .some hon⟩
    simp only [Option.map_some, Links.joinOption, hjoin]
    rfl

/-- When every link of a target can be joined, so can the links of a page. -/
theorem exists_absolute (page : Page) (hasNext : Bool) :
    ∃ l, (Links.ofPage p page t hasNext).absolute base = .ok l ∧ (Links.ofPage p page t hasNext).OnBase base l := by
  have hlinks : Links.ofPage p page t hasNext
      = ⟨(p.link page t).text, (p.link page.first t).text, page.previous.map fun page => (p.link page t).text,
          (if hasNext then some page.next else none).map fun page => (p.link page t).text⟩ := by
    cases hasNext with
    | false => rfl
    | true => rfl
  obtain ⟨self, hself, onSelf⟩ := joined page
  obtain ⟨first, hfirst, onFirst⟩ := joined page.first
  obtain ⟨prev, hprev, onPrev⟩ := joinOption_link joined page.previous
  obtain ⟨next, hnext, onNext⟩ := joinOption_link joined (if hasNext then some page.next else none)
  rw [hlinks]
  refine ⟨⟨self.text, first.text, prev, next⟩, ?_, fun m => ?_⟩
  · simp only [Links.absolute, hself, hfirst, hprev, hnext]
    rfl
  · cases m with
    | self => exact .some onSelf
    | first => exact .some onFirst
    | prev => exact onPrev
    | next => exact onNext

end All

theorem self_of_absolute {base : Url} {relative l : Links} (h : relative.absolute base = .ok l) :
    ∃ url, base.join relative.self = .ok url ∧ l.self = url.text := by
  obtain ⟨self, hself, h⟩ := ok_of_bind h
  obtain ⟨first, -, h⟩ := ok_of_bind h
  obtain ⟨prev, -, h⟩ := ok_of_bind h
  obtain ⟨next, -, h⟩ := ok_of_bind h
  cases h
  exact ⟨self, hself, rfl⟩

/-- All links of a page can be joined to a base of the web and stay in its place (the scheme, the
credentials, the host and the port of the base), asking there for what they asked for on their own,
exactly when the path of the target does not begin with two slashes. -/
theorem absolute_on_base_iff {base : Url} (read : base.Read) (web : base.kind = .web) (p : Pager) (page : Page)
    {t : Target} (received : t.Received) (rooted : ['/'] <+: t.path.toList) (hasNext : Bool) :
    (∃ l, (Links.ofPage p page t hasNext).absolute base = .ok l ∧ (Links.ofPage p page t hasNext).OnBase base l)
      ↔ ¬ ['/', '/'] <+: t.path.toList := by
  have written := Url.written_of_read read web
  have settled := Target.settled_of_received received
  constructor
  · rintro ⟨l, habsolute, hon⟩ htwo
    obtain ⟨url, hjoin, hself⟩ := self_of_absolute habsolute
    cases hon .self with
    | some hon =>
      rw [hself] at hon
      exact not_onBase_link written p page settled rooted htwo hjoin hon
  · intro hone
    exact exists_absolute (fun page => onBase_link written p page settled rooted hone) page hasNext

end Idna

/-- A base with credentials and a port, and a path that is written with dots and a backslash. -/
theorem absolute_on_base_backslash :
    let base : Url := ⟨"https", some ⟨"u", some "p", .name "api.example.com", some 8443⟩, "/v1/", some "x", some "y"⟩
    let t : Target := .parse "/a/..\\it%20ems/.?q=rust&page=9"
    base.Read ∧ base.kind = .web ∧ t.Received ∧ ['/'] <+: t.path.toList ∧
      ∃ l, (Links.ofPage standard ⟨1, 20, []⟩ t true).absolute base = .ok l ∧
        (Links.ofPage standard ⟨1, 20, []⟩ t true).OnBase base l := by
  intro base t
  have parsed : Url.parse "https://u:p@API.example.com:8443/v1/?x#y" = .ok base := rfl
  have path : t.path = "/it%20ems/" := rfl
  have rooted : ['/'] <+: t.path.toList := by
    rw [path]
    decide
  have single : ¬ ['/', '/'] <+: t.path.toList := by
    rw [path]
    decide
  refine ⟨.parse parsed, rfl, .parse _, rooted, ?_⟩
  exact (absolute_on_base_iff (.parse parsed) rfl standard ⟨1, 20, []⟩ (.parse _) rooted true).mpr single

/-- A path with two slashes takes the links of a page to the place that it names. -/
theorem absolute_leaves_base :
    let base : Url := ⟨"https", some ⟨"", none, .name "api.example.com", none⟩, "/", none, none⟩
    let relative := Links.ofPage (ofCodec (Codec.Stack.pageNumber).codec) ⟨1, 20, []⟩ (.parse "//evil.example/x") true
    let absolute : Links := ⟨"https://evil.example/x?page=1&size=20", "https://evil.example/x?page=0&size=20",
      some "https://evil.example/x?page=0&size=20", some "https://evil.example/x?page=2&size=20"⟩
    Url.parse "https://api.example.com/" = .ok base ∧ relative.absolute base = .ok absolute ∧
      ¬ relative.OnBase base absolute := by
  intro base relative absolute
  have parsed : Url.parse "https://evil.example/x?page=1&size=20"
      = .ok ⟨"https", some ⟨"", none, .name "evil.example", none⟩, "/x", some "page=1&size=20", none⟩ := rfl
  have texts : relative = ⟨"//evil.example/x?page=1&size=20", "//evil.example/x?page=0&size=20",
      some "//evil.example/x?page=0&size=20", some "//evil.example/x?page=2&size=20"⟩ := rfl
  have joined : relative.absolute base = .ok absolute := by
    rw [texts]
    simp only [base, absolute]
    rfl
  refine ⟨rfl, joined, fun h => ?_⟩
  cases h .self with
  | some hself =>
    obtain ⟨url, hparse, -, hauthority, -⟩ := hself
    cases parsed.symm.trans hparse
    exact absurd hauthority (by decide)

end Pager

end Pagemark
