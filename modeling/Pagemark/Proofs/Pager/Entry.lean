/-
  Pagemark.Proofs.Pager.Entry — the same request at every entry.

  A request that begins with a slash may be read as text, with the URI that a server was sent,
  with the URI that a proxy was sent, which begins with a place, or with a URL, which has a place
  too. What a place spells is checked and then left: it ends at the slash of the request, so that
  the authority in it is read as it is on its own. Its host may have any name that is mapped
  (`Url.Idna`). What stands behind it means the same in every reading.

  Proved: `parse_behind_place` — a place in front of a request makes a URL, and the URL has the
  target of the request; `target_of_entry` — so has every other entry; `same_at_every_entry` —
  all entries agree on the target, on its path and on what a link of it asks for.
-/

import Pagemark.Proofs.Pager.Walk
import Pagemark.Proofs.Uri
import Pagemark.Proofs.Url.Text

namespace Pagemark

open Text

/-- How many characters of a scheme stand in front of two slashes. -/
theorem Uri.schemeLength?_append {cs : List Char} (h : ∀ c ∈ cs, Url.isSchemeChar c = true) (rest : List Char) :
    schemeLength? (cs ++ ':' :: '/' :: '/' :: rest) = some cs.length := by
  induction cs with
  | nil => rfl
  | cons c cs ih =>
    obtain ⟨hc, hcs⟩ := List.forall_mem_cons.mp h
    have hcolon : c ≠ ':' := (Url.isSchemeChar_spec hc).1
    have hchar : isSchemeCharacter c = true := by
      simp only [Url.isSchemeChar] at hc
      rw [isSchemeCharacter, hc, Bool.true_or]
    rw [List.cons_append, schemeLength?, ih hcs, if_pos hchar]
    · rfl
    · exact hcolon

/-! ## Places -/

/-- A scheme and an authority, as they are written in front of a request. -/
structure Place where
  scheme : String
  authority : String
  deriving DecidableEq, Repr

namespace Place

def text (o : Place) : String := o.scheme ++ "://" ++ o.authority

/-- The scheme as it is read. -/
def readScheme (o : Place) : String := .ofList (o.scheme.toList.map Char.toLower)

/-- The place is one of the web, has nothing but an authority behind its scheme, does not end in a
space or a control character, and is read as a URL on its own. -/
structure Accepted [Url.Idna] (o : Place) : Prop where
  web : Url.Kind.ofScheme o.readScheme = .web
  inside : ∀ c ∈ o.authority.toList, Url.Inside c
  last : ∀ c ∈ o.authority.toList.getLast?, Url.isEdge c = false
  read : ∃ url, Url.parse o.text = .ok url

theorem toList_text (o : Place) : o.text.toList = o.scheme.toList ++ ':' :: '/' :: '/' :: o.authority.toList := by
  simp [text]

theorem isAlpha_of_toLower {c : Char} (h : c.toLower.isAlpha = true) : c.isAlpha = true := by
  by_cases hc : c.toNat < 128
  · exact ascii_forall (P := fun c => c.toLower.isAlpha = true → c.isAlpha = true) (by decide) hc h
  · rwa [Url.toLower_of_not_ascii hc] at h

section Web

variable {o : Place} (web : Url.Kind.ofScheme o.readScheme = .web)

include web

/-- The schemes of the web consist of letters. -/
theorem scheme_spec : o.scheme.toList ≠ [] ∧ ∀ c ∈ o.scheme.toList, c.isAlpha = true := by
  have table : ∀ scheme ∈ ["http", "https", "ws", "wss", "ftp"],
      scheme.toList ≠ [] ∧ scheme.toList.all Char.isAlpha = true := by decide
  obtain ⟨hne, hletters⟩ := table _ (Url.mem_of_web web)
  rw [readScheme, String.toList_ofList] at hne hletters
  refine ⟨fun e => hne (by rw [e]; rfl), fun c hc => ?_⟩
  exact isAlpha_of_toLower (List.all_eq_true.mp hletters _ (List.mem_map_of_mem hc))

theorem isSchemeChar_of_mem {c : Char} (hc : c ∈ o.scheme.toList) : Url.isSchemeChar c = true := by
  simp [Url.isSchemeChar, Url.isAlphanum_of_isAlpha ((scheme_spec web).2 c hc)]

/-- A text behind a place is read behind the slashes of the place. -/
theorem parse_eq [Url.Idna] (rest : List Char) (last : ∀ c ∈ (o.authority.toList ++ rest).getLast?, Url.isEdge c = false) :
    Url.parse (.ofList (o.text.toList ++ rest))
      = Url.withAuthority o.readScheme ((Url.counted (o.authority.toList ++ rest)).dropWhile Url.Kind.web.isSlash) := by
  obtain ⟨hne, hletters⟩ := scheme_spec web
  obtain ⟨c, cs, hcs⟩ := List.exists_cons_of_ne_nil hne
  have hchars : ∀ x ∈ c :: cs, Url.isSchemeChar x = true := by
    intro x hx
    exact isSchemeChar_of_mem web (by rwa [hcs])
  have htext : o.text.toList ++ rest = c :: cs ++ ':' :: '/' :: '/' :: (o.authority.toList ++ rest) := by
    rw [toList_text, hcs]
    simp
  have hends : Stripped Url.isEdge (c :: cs ++ ':' :: '/' :: '/' :: (o.authority.toList ++ rest)) := by
    refine ⟨?_, ?_⟩
    · intro x hx
      cases hx
      exact (Url.isSchemeChar_spec (hchars c List.mem_cons_self)).2.1
    · intro x hx
      rw [List.getLast?_append, List.getLast?_cons_cons, List.getLast?_cons_cons, List.getLast?_cons] at hx
      cases hbehind : (o.authority.toList ++ rest).getLast? with
      | none =>
        rw [hbehind] at hx
        cases hx
        decide
      | some y =>
        rw [hbehind] at hx
        cases hx
        exact last _ hbehind
  have hcounted : Url.counted (c :: cs ++ ':' :: '/' :: '/' :: (o.authority.toList ++ rest))
      = c :: cs ++ ':' :: '/' :: '/' :: Url.counted (o.authority.toList ++ rest) := by
    have hfront : Url.counted (c :: cs) = c :: cs :=
      Url.counted_of_shown fun x hx => (Url.isSchemeChar_spec (hchars x hx)).2.1
    unfold Url.counted at hfront ⊢
    rw [List.filter_append, hfront]
    rfl
  have hscheme : Url.scheme? (c :: cs ++ ':' :: '/' :: '/' :: Url.counted (o.authority.toList ++ rest))
      = some (o.readScheme, '/' :: '/' :: Url.counted (o.authority.toList ++ rest)) := by
    rw [Url.scheme?_append (hletters c (by rw [hcs]; exact List.mem_cons_self)) hchars, readScheme, hcs]
  unfold Url.parse Url.parse? Url.readTrimmed Url.trimmed
  rw [String.toList_ofList, htext, strip_of_stripped hends, hcounted]
  simp only [hscheme, web, Option.filter_none]
  rfl

end Web

section Accepted

variable [Url.Idna] {o : Place} (h : o.Accepted)

include h

/-- The authority of a place is read on its own, without its tabs and line breaks. -/
theorem readAuthority_of_accepted :
    (∀ c ∈ Url.counted o.authority.toList, Url.Inside c) ∧ Url.counted o.authority.toList ≠ [] ∧
      ∃ a behind, Url.readAuthority o.readScheme (Url.counted o.authority.toList) = .ok (a, behind) := by
  have hinside : ∀ c ∈ Url.counted o.authority.toList, Url.Inside c := fun c hc =>
    h.inside c (List.mem_filter.mp hc).1
  have hhead : (Url.counted o.authority.toList).dropWhile Url.Kind.web.isSlash = Url.counted o.authority.toList :=
    dropWhile_of_head fun c hc => (hinside c (List.mem_of_mem_head? hc)).1
  obtain ⟨url, hread⟩ := h.read
  have heq := parse_eq h.web [] (by rw [List.append_nil]; exact h.last)
  rw [List.append_nil, List.append_nil, String.ofList_toList, hhead, hread] at heq
  unfold Url.withAuthority at heq
  obtain ⟨⟨a, behind⟩, hauthority, -⟩ := ok_of_bind heq.symm
  refine ⟨hinside, ?_, a, behind, hauthority⟩
  intro e
  obtain ⟨hostPort, given, parts, hfilled⟩ := Url.parts_of_readAuthority hauthority
  have huser := parts.user
  rw [e] at huser
  have hnil : [] = hostPort := (Prod.mk.inj (Except.ok.inj huser)).2
  rw [← hnil] at hfilled
  exact hfilled h.web rfl

/-- A request behind a place makes a URL, and the URL has the target of the request. -/
theorem parse_behind_place {s : String} (rooted : ['/'] <+: s.toList) (shown : ∀ c ∈ s.toList, Url.isEdge c = false) :
    ∃ url, Url.parse (o.text ++ s) = .ok url ∧ Target.ofUrl url = .parse s := by
  obtain ⟨hinside, hne, a, behind, hauthority⟩ := readAuthority_of_accepted h
  obtain ⟨cs, hcs⟩ := rooted
  have hends : Url.EndsAuthority s.toList := by
    intro c hc
    rw [← hcs] at hc
    cases hc
    exact Or.inl rfl
  have hread : Url.readAuthority o.readScheme (Url.counted o.authority.toList ++ s.toList) = .ok (a, s.toList) :=
    Url.readAuthority_append hinside hends hauthority (Url.host_ne_empty_of_web h.web hauthority)
  have hlast : ∀ c ∈ (o.authority.toList ++ s.toList).getLast?, Url.isEdge c = false := by
    intro c hc
    cases hs : s.toList.getLast? with
    | none =>
      rw [List.getLast?_eq_none_iff.mp hs] at hcs
      cases hcs
    | some x =>
      rw [List.getLast?_append, hs] at hc
      cases hc
      exact shown _ (List.mem_of_getLast? hs)
  have hcounted : (Url.counted (o.authority.toList ++ s.toList)).dropWhile Url.Kind.web.isSlash
      = Url.counted o.authority.toList ++ s.toList := by
    have hsplit : Url.counted (o.authority.toList ++ s.toList) = Url.counted o.authority.toList ++ s.toList := by
      rw [← Url.counted_of_shown shown]
      simp [Url.counted]
    obtain ⟨c, more, hmore⟩ := List.exists_cons_of_ne_nil hne
    have hc := hinside c (by rw [hmore]; exact List.mem_cons_self)
    rw [hsplit, hmore, List.cons_append, List.dropWhile_cons_of_neg (by simp [hc.1])]
  refine ⟨Url.finish o.readScheme (some a) (Url.Path.parse .web (Url.beforeTail s.toList)) s.toList, ?_, ?_⟩
  · have hparse := parse_eq h.web _ hlast
    rw [hcounted] at hparse
    rw [← String.ofList_toList (s := o.text ++ s), String.toList_append, hparse]
    unfold Url.withAuthority
    rw [hread, h.web]
    rfl
  · rw [Target.ofUrl_finish _ _ h.web ⟨cs, hcs⟩ shown, Target.parse_eq]

/-- A request behind a place makes a URI only if it makes one on its own, and then the same. -/
theorem readTarget_behind_place {s : String} (rooted : ['/'] <+: s.toList) {uri : Uri}
    (huri : Uri.parse (o.text ++ s) = .ok uri) : Uri.readTarget s.toList = .ok uri := by
  obtain ⟨hne, hletters⟩ := scheme_spec h.web
  have htext : (o.text ++ s).toList = o.scheme.toList ++ ':' :: '/' :: '/' :: (o.authority.toList ++ s.toList) := by
    rw [String.toList_append, toList_text]
    simp
  have hlength := Uri.schemeLength?_append (fun c hc => isSchemeChar_of_mem h.web hc) (o.authority.toList ++ s.toList)
  have hdrop : (o.scheme.toList ++ ':' :: '/' :: '/' :: (o.authority.toList ++ s.toList)).drop (o.scheme.toList.length + 3)
      = o.authority.toList ++ s.toList := by
    rw [← List.drop_drop, List.drop_left]
    rfl
  have htake : (o.authority.toList ++ s.toList).takeWhile (fun c => !Uri.endsAuthority c) = o.authority.toList := by
    obtain ⟨cs, hcs⟩ := rooted
    rw [List.takeWhile_append_of_pos, ← hcs, List.singleton_append, List.takeWhile_cons_of_neg (by decide),
      List.append_nil]
    intro c hc
    obtain ⟨hslash, hmark⟩ := h.inside c hc
    simp only [Url.Kind.isSlash, Url.isTailMark, Bool.or_eq_false_iff, beq_eq_false_iff_ne] at hslash hmark
    simp [Uri.endsAuthority, hslash, hmark]
  have habsolute : Uri.readAbsolute (o.text ++ s).toList = .ok uri := by
    obtain ⟨c, cs, hcs⟩ := List.exists_cons_of_ne_nil hne
    have hc : c.isAlpha = true := hletters c (by rw [hcs]; exact List.mem_cons_self)
    have hcons : (o.text ++ s).toList = c :: (cs ++ ':' :: '/' :: '/' :: (o.authority.toList ++ s.toList)) := by
      rw [htext, hcs]
      rfl
    unfold Uri.parse at huri
    rw [hcons] at huri ⊢
    split at huri
    · cases huri
    split at huri
    · rename_i e
      cases e
    · rename_i e
      rw [(List.cons.inj e).1] at hc
      exact absurd hc (by decide)
    · rename_i e
      rw [(List.cons.inj e).1] at hc
      exact absurd hc (by decide)
    · rename_i e
      have hnil := (List.cons.inj e).2
      simp at hnil
    · exact huri
  rw [htext] at habsolute
  unfold Uri.readAbsolute at habsolute
  obtain ⟨length?, hfind, habsolute⟩ := ok_of_bind habsolute
  have hscheme : length? = some o.scheme.toList.length := by
    unfold Uri.findScheme at hfind
    rw [hlength] at hfind
    simp only at hfind
    split at hfind
    · rename_i hshort
      have hpos := List.length_pos_iff.mpr hne
      simp at hshort
      omega
    split at hfind
    · cases hfind
    · cases hfind
      rfl
  subst hscheme
  simp only [hdrop, htake] at habsolute
  obtain ⟨-, habsolute⟩ := ok_of_guard habsolute
  obtain ⟨_, -, habsolute⟩ := ok_of_bind habsolute
  obtain ⟨-, habsolute⟩ := ok_of_guard habsolute
  rwa [List.drop_left] at habsolute

end Accepted

end Place

/-! ## Entries -/

theorem Target.path_ofPath (path : String) : (Target.ofPath path).path = normalPath path := rfl

theorem Target.path_identity (t : Target) (names : List String) : (t.identity names).path = normalPath t.path := rfl

theorem Identity.path_ofPath (path : String) : (Identity.ofPath path).path = Target.normalPath path := rfl

/-- A text that is requested: it begins with a slash, and holds neither spaces nor control characters. -/
structure RequestText (s : String) : Prop where
  rooted : ['/'] <+: s.toList
  shown : ∀ c ∈ s.toList, Url.isEdge c = false

/-- The ways in which a request for a text comes in, and the target that is read there. -/
inductive Entry [Url.Idna] (s : String) : Target → Prop
  | text : Entry s (.parse s)
  | uri {uri : Uri} (h : Uri.parse s = .ok uri) : Entry s (.ofUri uri)
  | placedUri {o : Place} (ho : o.Accepted) {uri : Uri} (h : Uri.parse (o.text ++ s) = .ok uri) : Entry s (.ofUri uri)
  | url {o : Place} (ho : o.Accepted) {url : Url} (h : Url.parse (o.text ++ s) = .ok url) : Entry s (.ofUrl url)

/-- Every entry reads the same target. -/
theorem target_of_entry [Url.Idna] {s : String} (hs : RequestText s) {t : Target} (h : Entry s t) : t = .parse s := by
  have hread : ∀ {uri : Uri}, Uri.readTarget s.toList = .ok uri → Target.ofUri uri = .parse s := by
    intro uri huri
    rw [Uri.ofUri_of_readTarget hs.rooted huri, Target.parse_eq]
  cases h with
  | text => rfl
  | uri h =>
    rw [Uri.parse_of_rooted hs.rooted] at h
    split at h
    · cases h
    · exact hread h
  | placedUri ho h => exact hread (Place.readTarget_behind_place ho hs.rooted h)
  | url ho h =>
    obtain ⟨url, hparse, htarget⟩ := Place.parse_behind_place ho hs.rooted hs.shown
    cases hparse.symm.trans h
    exact htarget

/-- The text of a target with a rooted path can be requested. -/
theorem requestText_text {t : Target} (settled : t.Settled) (rooted : ['/'] <+: t.path.toList) : RequestText t.text := by
  have hpath := Url.Path.shown_of_resolved (Target.resolved_of_settled settled rooted)
  have hquery : ∀ c ∈ Form.print t.query, Url.isEdge c = false := by
    intro c hc
    have hkept := Url.kept_print .web t.query c (by rwa [String.toList_ofList])
    exact ((Url.keeps_query .web).shown c hkept).2
  unfold Target.text
  split
  · exact ⟨rooted, hpath⟩
  · refine ⟨?_, ?_⟩
    · simp only [String.toList_append, List.append_assoc]
      exact rooted.trans (List.prefix_append _ _)
    · intro c hc
      simp only [String.toList_append, String.toList_ofList, List.mem_append] at hc
      rcases hc with (hc | hc) | hc
      · exact hpath c hc
      · rw [List.mem_singleton.mp hc]
        decide
      · exact hquery c hc

/-- A request means the same at every entry: behind any place, as a URI wherever it makes one, or as
text. Each reads the same target; a path given on its own, and every identity, has the path of it;
and a link that is made at one entry can be requested and asks for the same at any other. -/
theorem same_at_every_entry [Url.Idna] {s : String} (hs : RequestText s) :
    (∀ o : Place, o.Accepted → ∃ url, Url.parse (o.text ++ s) = .ok url) ∧
    (∀ t, Entry s t → t = .parse s ∧ ∀ names, (t.identity names).path = (Target.parse s).path) ∧
    (Target.ofPath (.ofList (Url.beforeTail s.toList))).path = (Target.parse s).path ∧
    (Identity.ofPath (.ofList (Url.beforeTail s.toList))).path = (Target.parse s).path ∧
    ∀ (p : Pager) (page : Page) t, Entry s t → RequestText (p.link page t).text ∧
      ∀ t', Entry (p.link page t).text t' → p.resolve t' = p.resolve (p.link page t) := by
  have settled := Target.settled_of_received (.parse s)
  have hpath : Target.normalPath (.ofList (Url.beforeTail s.toList)) = (Target.parse s).path := by
    rw [Target.parse_eq, Target.path_ofParts]
  refine ⟨?_, ?_, (Target.path_ofPath _).trans hpath, (Identity.path_ofPath _).trans hpath, ?_⟩
  · intro o ho
    obtain ⟨url, hparse, -⟩ := Place.parse_behind_place ho hs.rooted hs.shown
    exact ⟨url, hparse⟩
  · intro t ht
    obtain rfl := target_of_entry hs ht
    refine ⟨rfl, ?_⟩
    intro names
    rw [Target.path_identity, settled.path]
  · intro p page t ht
    obtain rfl := target_of_entry hs ht
    have linked := Pager.settled_link (p := p) settled page
    have rooted : ['/'] <+: (p.link page (.parse s)).path.toList := by
      rw [Pager.path_link]
      exact Target.rooted_parse hs.rooted
    have requested := requestText_text linked rooted
    refine ⟨requested, ?_⟩
    intro t' ht'
    rw [target_of_entry requested ht', Target.parse_text linked]

/-- A request with dots, quotes, a broken escape, letters outside ASCII and a fragment, behind a place
with credentials, a name outside ASCII and a port. -/
theorem same_behind_credentials :
    let _ : Url.Idna := .withName "b\u00fccher.example".toList "xn--bcher-kva.example".toList
    let o : Place := ⟨"HTTPS", "u:p@b\u00fccher.example:8443"⟩
    let s := "/a/../b\"\u00e9%2e%zz/.?q='\u00e9%E9&&x=+1#f?g"
    let uri : Uri := ⟨"/a/../b\"\u00e9%2e%zz/.", some "q='\u00e9%E9&&x=+1"⟩
    let t : Target := ⟨"/b%22%C3%A9%2e%zz/", [("q", "'\u00e9\ufffd"), ("x", " 1")]⟩
    RequestText s ∧ o.Accepted ∧ Uri.parse s = .ok uri ∧ Target.ofUri uri = t ∧
      ∃ url, Url.parse (o.text ++ s) = .ok url ∧ Target.ofUrl url = t := by
  intro _ o s uri t
  have shown : s.toList.all (!Url.isEdge ·) = true := by decide
  have requested : RequestText s := ⟨by decide, fun c hc => by simpa using List.all_eq_true.mp shown c hc⟩
  have text : o.text = "HTTPS://u:p@b\u00fccher.example:8443" := by
    apply String.toList_injective
    rw [Place.toList_text]
    simp only [o]
    rfl
  have read : Url.parse "HTTPS://u:p@b\u00fccher.example:8443"
      = .ok ⟨"https", some ⟨"u", some "p", .name "xn--bcher-kva.example", some 8443⟩, "/", none, none⟩ := by
    decide +kernel
  have inside : o.authority.toList.all (fun c => decide (Url.Inside c)) = true := by decide
  have last : o.authority.toList.getLast?.all (!Url.isEdge ·) = true := by decide
  have accepted : o.Accepted := {
    web := by decide
    inside := fun c hc => of_decide_eq_true (List.all_eq_true.mp inside c hc)
    last := by simpa [Option.all_eq_true] using last
    read := ⟨_, by rw [text]; exact read⟩ }
  have readUri : Uri.parse s = .ok uri := by
    simp only [s, uri]
    rfl
  have target : Target.parse s = t := by
    simp only [s, t]
    rfl
  obtain ⟨placed, entries, -⟩ := same_at_every_entry requested
  obtain ⟨url, hurl⟩ := placed o accepted
  have uriTarget : Target.ofUri uri = t := (entries _ (.uri readUri)).1.trans target
  have urlTarget : Target.ofUrl url = t := (entries _ (.url accepted hurl)).1.trans target
  exact ⟨requested, accepted, readUri, uriTarget, url, hurl, urlTarget⟩

end Pagemark
