/-
  Pagemark.Proofs.Pager.Admission — the links of an admitted request are admitted.

  URIs may hold quotes, braces, dots and characters outside ASCII, so what is let in is not what
  goes out. What goes out holds less: resolving a path and printing pairs escape all that a URI may
  not hold, and much that it may. So the text of a target is a URI however odd the one was that the
  target came with, and it has the target again, since a URI keeps path and query as they are written.

  Proved: `readTarget_text` — the text of a target is read as a URI, part by part; `uri_text` —
  which has the target; `ofUri_eq_ok_iff` — what a request is admitted with; `links_admitted` —
  all links of an admitted request are admitted, with the pages that they are made for.
-/

import Pagemark.Pager.Admission
import Pagemark.Proofs.Pager.Entry

namespace Pagemark

open Text

/-! ## The text of a target as a URI -/

namespace Uri

theorem isPathCharacter_of_pathKeeps {c : Char} (h : Url.pathKeeps c = true) : isPathCharacter c = true :=
  ascii_forall (P := fun c => Url.pathKeeps c = true → isPathCharacter c = true) (by decide)
    (Url.pathKeeps_spec h).1 h

/-- The characters that pairs are printed with may stand in a query. -/
theorem isQueryCharacter_of_mem_print {pairs : List (String × String)} {c : Char} (h : c ∈ Form.print pairs) :
    isQueryCharacter c = true := by
  have hkept := Url.kept_print .web pairs c (by rwa [String.toList_ofList])
  exact ascii_forall (P := fun c => Url.queryKeeps .web c = true → isQueryCharacter c = true) (by decide)
    ((Url.keeps_query .web).shown c hkept).1 hkept

end Uri

namespace Target

section Settled

variable {t : Target} (settled : t.Settled) (rooted : ['/'] <+: t.path.toList)

include settled rooted

/-- All characters that the text of a target holds are let in where they stand. -/
theorem readTarget_text :
    Uri.readTarget t.text.toList
      = .ok ⟨t.path, if t.query.isEmpty then none else some (.ofList (Form.print t.query))⟩ := by
  have resolved := resolved_of_settled settled rooted
  have hpath : t.path.toList.all Uri.isPathCharacter = true := by
    rw [List.all_eq_true]
    intro c hc
    rcases Url.Path.mem_of_resolved resolved hc with rfl | ⟨hkeep, -⟩
    · decide
    · exact Uri.isPathCharacter_of_pathKeeps hkeep
  have hquery : ((if t.query.isEmpty then none else some (Form.print t.query)).getD []).all Uri.isQueryCharacter = true := by
    rw [List.all_eq_true]
    intro c hc
    split at hc
    · cases hc
    · exact Uri.isQueryCharacter_of_mem_print hc
  have hfilled : t.path.toList.isEmpty = false := by
    obtain ⟨cs, hcs⟩ := rooted
    rw [← hcs]
    rfl
  obtain ⟨hbefore, hbehind⟩ := Prod.mk.inj ((Url.cut_tail t.text.toList).symm.trans (cut_text settled))
  rw [Uri.readTarget_eq, hbefore, hbehind, hpath, hquery, hfilled, String.ofList_toList]
  by_cases hempty : t.query.isEmpty = true
  · simp [hempty]
  · simp [hempty]

/-- The text of a target is a URI that has the target, unless it is too long for one. -/
theorem uri_text (short : t.text.utf8ByteSize ≤ Uri.maxLength) : ∃ uri, Uri.parse t.text = .ok uri ∧ ofUri uri = t := by
  have requested := requestText_text settled rooted
  have read := readTarget_text settled rooted
  have hparse : Uri.parse t.text = Uri.readTarget t.text.toList := by
    rw [Uri.parse_of_rooted requested.rooted, if_neg (Nat.not_lt.mpr short)]
  have htarget := Uri.ofUri_of_readTarget requested.rooted read
  rw [← parse_eq, parse_text settled] at htarget
  exact ⟨_, hparse.trans read, htarget⟩

end Settled

end Target

/-! ## Admissions -/

namespace Admission

variable {p : Pager} {uri : Uri} {asSent : Option Uri} {a : Admission}

/-- A request is admitted with the page that its URI asks for; the URI that the client sent goes first. -/
theorem ofUri_eq_ok_iff :
    (ofUri p uri asSent).value = .ok a ↔
      (p.resolve (.ofUri (asSent.getD uri))).value = .ok a.page ∧ a.target = .ofUri (asSent.getD uri) ∧ a.pager = p := by
  show (p.resolve (.ofUri (asSent.getD uri))).value.map _ = .ok a ↔ _
  cases (p.resolve (.ofUri (asSent.getD uri))).value with
  | error e => simp [Except.map]
  | ok page =>
    constructor
    · intro h
      cases h
      exact ⟨rfl, rfl, rfl⟩
    · intro h
      obtain ⟨hpage, htarget, hpager⟩ := h
      cases a
      simp only at hpage htarget hpager
      cases hpage
      rw [htarget, hpager]
      rfl

/-- Whoever is admitted is admitted by every link that is handed out, as long as it is not too long for a
URI: with the page that the link is for, whether the link is the URI of the request or the one that
the client sent. -/
theorem links_admitted {stack : Codec.Stack} (built : Pager.Built stack.codec p) (distinct : p.names.toList.Nodup)
    (bounded : (asSent.getD uri).Bounded) (rooted : ['/'] <+: (asSent.getD uri).path.toList)
    (admitted : (ofUri p uri asSent).value = .ok a) (hasNext : Bool) {m : Move} {text : String}
    (handedOut : (a.links hasNext).text m = some text) (short : text.utf8ByteSize ≤ Uri.maxLength) :
    ∃ link page, Uri.parse text = .ok link ∧ m.page a.page = some page ∧
      (ofUri p link none).value = .ok ⟨page, p.link page a.target, p⟩ ∧
      ∀ other, (ofUri p other (some link)).value = .ok ⟨page, p.link page a.target, p⟩ := by
  have hcodec := Pager.codec_of_built built
  obtain ⟨resolved, htarget, hpager⟩ := ofUri_eq_ok_iff.mp admitted
  have settled : a.target.Settled := by
    rw [htarget]
    exact Target.settled_of_received (.ofUri bounded)
  have carried : p.Carries a.page := Pager.carries_of_resolve (Pager.sized_of_built built) hcodec resolved
  obtain ⟨page, hpage, rfl⟩ := Links.page_of_text handedOut
  rw [hpager] at short ⊢
  have linked := Pager.settled_link (p := p) settled page
  have linkedRooted : ['/'] <+: (p.link page a.target).path.toList := by
    rw [Pager.path_link, htarget]
    exact Target.rooted_normalPath bounded rooted
  obtain ⟨link, hlink, hlinkTarget⟩ := Target.uri_text linked linkedRooted short
  have hresolve : (p.resolve (p.link page a.target)).value = .ok page :=
    Pager.resolve_link_of_carries hcodec distinct (Pager.carries_page carried hpage)
  have again : ∀ uri asSent, asSent.getD uri = link →
      (ofUri p uri asSent).value = .ok ⟨page, p.link page a.target, p⟩ := by
    intro uri asSent hsent
    rw [ofUri_eq_ok_iff, hsent, hlinkTarget]
    exact ⟨hresolve, rfl, rfl⟩
  exact ⟨link, page, hlink, hpage, again link none rfl, fun other => again other (some link) rfl⟩

/-- Behind a router that strips a part of the path, from a URI with quotes, braces, dots and letters
outside ASCII. -/
theorem links_admitted_behind_router :
    let p := Pager.standard
    let sent : Uri := ⟨"/api/./b\"\x7b\u00e9\x7d/", some "q='\u00e9|\x7b&size=5"⟩
    let a : Admission := ⟨⟨0, 5, []⟩, .ofUri sent, p⟩
    Uri.parse "/api/./b\"\x7b\u00e9\x7d/?q='\u00e9|\x7b&size=5" = .ok sent ∧
      (ofUri p ⟨"/items", none⟩ (some sent)).value = .ok a ∧
      ∃ text link, (a.links true).next = some text ∧ Uri.parse text = .ok link ∧
        (ofUri p ⟨"/items", none⟩ (some link)).value = .ok ⟨⟨1, 5, []⟩, p.link ⟨1, 5, []⟩ a.target, p⟩ := by
  intro p sent a
  have read : Uri.parse "/api/./b\"\x7b\u00e9\x7d/?q='\u00e9|\x7b&size=5" = .ok sent := by
    simp only [sent]
    rfl
  have built : Pager.Built (Codec.Stack.standard none).codec p := .ofCodec
  have distinct : p.names.toList.Nodup := by decide
  have admitted : (ofUri p ⟨"/items", none⟩ (some sent)).value = .ok a := by
    rw [ofUri_eq_ok_iff]
    exact ⟨rfl, rfl, rfl⟩
  have short : (p.link a.page.next a.target).text.utf8ByteSize ≤ Uri.maxLength := by decide +kernel
  obtain ⟨link, page, hlink, hpage, -, asSent⟩ :=
    links_admitted built distinct (Uri.bounded_of_parse read) (by decide) admitted true
      (m := .next) rfl short
  cases hpage
  exact ⟨read, admitted, _, link, rfl, hlink, asSent _⟩

end Admission

end Pagemark
