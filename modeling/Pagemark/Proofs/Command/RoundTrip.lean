/-
  Pagemark.Proofs.Command.RoundTrip — the command decodes what it encodes.

  A text that begins with a slash is no URL, so its link, which begins with a slash too, is taken
  as a path with a query again. A URL with a host is edited in place, and its link is read as the
  URL that was printed: for the web and for schemes without rules of their own that is proved, for
  `file` it is assumed (`Rereads`), since a drive letter behind several slashes takes the host
  away when the text is read again. The host may have any name that is mapped (`Url.Idna`); its ASCII
  form is printed, and read again as it is. Either way the link has the target that the page was
  written into, and the page that is written is one that a link can carry.

  Proved: `target_link` — the link of a location has the target of a link; `carries_chosen` — what
  the options and the URL ask for can be carried; `encode_ok_iff` and `encode_error_iff` — when there
  is a link; `decode_reads_encode` — and then decoding it gives what was asked for, and prints it.
-/

import Pagemark.Proofs.Command.Report
import Pagemark.Proofs.Pager.Entry
import Pagemark.Proofs.Pager.InPlace
import Pagemark.Proofs.Settings.Paging

namespace Pagemark

open Text

/-! ## URLs whose query is replaced -/

namespace Url

/-- Whatever its query is, the URL is read back from its text. -/
def Rereads [Idna] (u : Url) : Prop := ∀ pairs, parse (u.withPairs pairs).text = .ok (u.withPairs pairs)

/-- URLs with a host are, unless they are files. -/
theorem rereads_of_parse [Idna] {s : String} {u : Url} (h : parse s = .ok u) (hhost : u.hasHost = true)
    (hfile : u.kind ≠ .file) : u.Rereads := by
  intro pairs
  exact parse_text (hosted_withPairs (hosted_of_parse h hhost hfile) pairs)

/-- A file is not when a drive letter comes to stand where the host is looked for. -/
example :
    let u : Url := ⟨"file", some ⟨"", none, .name "h", none⟩, "/C:/x", none, none⟩
    parse "file://h//C:/x" = .ok u ∧ parse u.text = .ok { u with authority := some noAuthority } :=
  ⟨rfl, rfl⟩

end Url

namespace Command

/-! ## Locations -/

namespace Location

theorem parse_of_rooted [Url.Idna] {s : String} (rooted : ['/'] <+: s.toList) : parse s = .relative (.parse s) := by
  rw [parse, Url.parse_of_rooted rooted]

theorem parse_of_host [Url.Idna] {s : String} {url : Url} (h : Url.parse s = .ok url) (hhost : url.hasHost = true) :
    parse s = .absolute url := by
  rw [parse, h]
  exact if_pos hhost

end Location

/-- What the command is given: a text that begins with a slash, or a URL with a host. -/
inductive Addressed [Url.Idna] (s : String) : Prop
  | rooted (h : ['/'] <+: s.toList)
  | hosted {url : Url} (h : Url.parse s = .ok url) (hhost : url.hasHost = true)

/-- The link of a location leads to the link of its target. -/
theorem target_link [Url.Idna] {s : String} (addressed : Addressed s)
    (files : ∀ url, Url.parse s = .ok url → url.kind = .file → url.Rereads) (p : Pager) (page : Page) :
    (Location.parse ((Location.parse s).link p page)).target = p.link page (Location.parse s).target := by
  cases addressed with
  | rooted h =>
    have settled := Pager.settled_link (p := p) (Target.settled_of_received (.parse s)) page
    have rooted : ['/'] <+: (p.link page (.parse s)).path.toList := by
      rw [Pager.path_link]
      exact Target.rooted_parse h
    have linked := (requestText_text settled rooted).rooted
    rw [Location.parse_of_rooted h, Location.link, Location.parse_of_rooted linked]
    exact Target.parse_text settled
  | @hosted url h hhost =>
    have rereads : url.Rereads := by
      by_cases hkind : url.kind = .file
      · exact files url h hkind
      · exact Url.rereads_of_parse h hhost hkind
    have linked : Url.parse (p.linkUrl page url).text = .ok (p.linkUrl page url) := rereads _
    rw [Location.parse_of_host h hhost, Location.link, Location.parse_of_host linked hhost]
    exact p.ofUrl_linkUrl_of_hierarchical page (Url.isOpaque_of_hasHost hhost)

/-! ## What is encoded -/

section Encode

variable {p : Pager} {o : EncodeOptions}

theorem chosenSorting_ok_iff {carried : Bookmark} {values : List String} {sorting : Sorting} :
    chosenSorting carried values = .ok sorting ↔
      (values = [] ∧ carried.sorting = sorting) ∨ (values ≠ [] ∧ Sorting.parse values = .ok sorting) := by
  cases values with
  | nil => simp [chosenSorting]
  | cons value values => simp [chosenSorting]

theorem chosenSorting_error_iff {carried : Bookmark} {values : List String} {e : SortError} :
    chosenSorting carried values = .error e ↔ values ≠ [] ∧ Sorting.parse values = .error e := by
  cases values with
  | nil => simp [chosenSorting]
  | cons value values => simp [chosenSorting]

/-- What is asked for, with what the URL carries in place of what is not, can be carried by a link. -/
theorem carries_chosen (sized : p.Sized) (positive : ∀ n ∈ o.size, 0 < n) {t : Target} {carried : Bookmark}
    (hcarried : p.bookmark t = .ok carried) {sorting : Sorting} (hsorting : chosenSorting carried o.sort = .ok sorting) :
    p.Carries ⟨o.page, chosenSize p carried o.size, sorting⟩ := by
  obtain ⟨-, hsize, hparse⟩ := p.bookmark_ok t hcarried
  have range : 0 < chosenSize p carried o.size ∧ chosenSize p carried o.size ≤ p.maxSize := by
    cases hn : o.size with
    | none => exact Pager.readSize_range sized hsize
    | some n =>
      obtain ⟨hpos, hmax⟩ := Pager.sized_iff.mp sized
      have hn : 0 < n.toNat := positive n hn
      have hleast : (chosenSize p carried (some n)).toNat = min n.toNat p.maxSize.toNat := Pager.toNat_min n p.maxSize
      refine ⟨?_, ?_⟩
      · show 0 < (chosenSize p carried (some n)).toNat
        omega
      · show (chosenSize p carried (some n)).toNat ≤ p.maxSize.toNat
        omega
  have named : ∀ key ∈ sorting, key.Named := by
    rcases chosenSorting_ok_iff.mp hsorting with ⟨-, rfl⟩ | ⟨-, hvalues⟩
    · exact Sorting.named_of_parse hparse
    · exact Sorting.named_of_parse hvalues
  exact ⟨range.1, range.2, named⟩

/-- There is a link when the URL carries what can be read and the values given, if any, are sort values. -/
theorem encode_ok_iff [Url.Idna] {link : String} :
    (encode p o).2 = .ok link ↔ ∃ carried sorting, p.bookmark (Location.parse o.url).target = .ok carried ∧
      chosenSorting carried o.sort = .ok sorting ∧
      (Location.parse o.url).link p ⟨o.page, chosenSize p carried o.size, sorting⟩ = link := by
  unfold encode
  cases hcarried : p.bookmark (Location.parse o.url).target with
  | error e =>
    simp only [hcarried]
    simp
  | ok carried =>
    simp only [hcarried]
    cases hsorting : chosenSorting carried o.sort with
    | error e =>
      show Except.error (Failure.sort e) = .ok link ↔ _
      simp [hsorting]
    | ok sorting =>
      show Except.ok ((Location.parse o.url).link p ⟨o.page, chosenSize p carried o.size, sorting⟩) = .ok link ↔ _
      simp [hsorting]

/-- There is none otherwise. -/
theorem encode_error_iff [Url.Idna] :
    (∃ f, (encode p o).2 = .error f) ↔ (∃ e, p.bookmark (Location.parse o.url).target = .error e) ∨
      o.sort ≠ [] ∧ ∃ e, Sorting.parse o.sort = .error e := by
  unfold encode
  cases hcarried : p.bookmark (Location.parse o.url).target with
  | error e =>
    simp only [hcarried]
    simp
  | ok carried =>
    have hsort : (o.sort ≠ [] ∧ ∃ e, Sorting.parse o.sort = .error e) ↔ ∃ e, chosenSorting carried o.sort = .error e := by
      simp [chosenSorting_error_iff]
    simp only [hcarried, hsort]
    cases hsorting : chosenSorting carried o.sort with
    | error e => exact iff_of_true ⟨.sort e, rfl⟩ (Or.inr ⟨e, rfl⟩)
    | ok sorting =>
      refine iff_of_false ?_ (by simp)
      intro ⟨f, hf⟩
      cases hf

/-- A link that is encoded is decoded to the page that it was made for. -/
theorem decode_link [Url.Idna] {stack : Codec.Stack} (hcodec : p.codec = stack.codec) (distinct : p.names.toList.Nodup)
    (addressed : Addressed o.url) (files : ∀ url, Url.parse o.url = .ok url → url.kind = .file → url.Rereads)
    {page : Page} (carries : p.Carries page) :
    (decode p ((Location.parse o.url).link p page)).value = .ok page := by
  have resolved : (p.resolve (p.link page (Location.parse o.url).target)).value = .ok page :=
    Pager.resolve_link_of_carries hcodec distinct carries
  unfold decode
  simp only [target_link addressed files]
  rw [resolved]
  rfl

end Encode

/-! ## What a run leaves -/

section Perform

variable [Url.Idna] {s : Settings} {p : Pager} (made : (Pager.ofSettings s.paging).value = .ok p)

include made

/-- Encoding leaves the link on a line of its own, or a code that is not zero. -/
theorem perform_encode (o : EncodeOptions) :
    ((perform s (.encode o)).exitCode ≠ 0 ↔ ∃ f, (encode p o).2 = .error f) ∧
      ∀ link, (encode p o).2 = .ok link → (perform s (.encode o)).output = link ++ "\n" := by
  unfold perform
  simp only [made]
  obtain ⟨remarks, result⟩ := encode p o
  cases result with
  | error f => simp [failed]
  | ok link => simp [succeeded]

/-- Decoding leaves a report of the page. -/
theorem perform_decode {link : String} {page : Page} (h : (decode p link).value = .ok page) (json : Bool) :
    (perform s (.decode ⟨link, json⟩)).exitCode = 0 ∧
      (perform s (.decode ⟨link, json⟩)).output
        = if json then (reportJson page).printLines ++ "\n" else report page := by
  unfold perform
  simp only [made, h]
  exact ⟨rfl, rfl⟩

end Perform

/-- The page that is asked for: the index is given, and size and sorting are given or those that the URL
carries. No more than the greatest size is given, and no more than the greatest word is skipped. -/
structure Asked (s : Settings) (o : EncodeOptions) (carried : Bookmark) (page : Page) : Prop where
  index : page.index = o.page
  size : ∀ n ∈ o.size, page.size = min n s.paging.maxSize
  sizeCarried : o.size = none → page.size = carried.size
  offset : page.offset.toNat = min (o.page.toNat * page.size.toNat) (2 ^ 64 - 1)
  sorting : o.sort ≠ [] → Sorting.parse o.sort = .ok page.sorting
  sortingCarried : o.sort = [] → page.sorting = carried.sorting

theorem asked_chosen {s : Settings} {p : Pager} (made : (Pager.ofSettings s.paging).value = .ok p) {o : EncodeOptions}
    {carried : Bookmark} {sorting : Sorting} (hsorting : chosenSorting carried o.sort = .ok sorting) :
    Asked s o carried ⟨o.page, chosenSize p carried o.size, sorting⟩ := by
  obtain ⟨-, rfl⟩ := Pager.ofSettings_eq_ok_iff.mp made
  exact {
    index := rfl
    size := by
      intro n hn
      rw [hn]
      rfl
    sizeCarried := by
      intro hnone
      rw [hnone]
      rfl
    offset := UInt64.toNat_ofNat_of_lt' (Nat.lt_of_le_of_lt (Nat.min_le_right _ _) (by decide))
    sorting := by
      intro hne
      rcases chosenSorting_ok_iff.mp hsorting with ⟨hnil, -⟩ | ⟨-, hvalues⟩
      · exact absurd hnil hne
      · exact hvalues
    sortingCarried := by
      intro hnil
      rcases chosenSorting_ok_iff.mp hsorting with ⟨-, hcarried⟩ | ⟨hne, -⟩
      · exact hcarried.symm
      · exact absurd hnil hne }

/-- What is encoded under some settings is decoded under them, to the page that was asked for: its fields
are printed, and no other page is printed alike. Encoding fails exactly when the URL carries paging
parameters that cannot be read or when the sort values that are given cannot. Of a file it is taken for
granted that its URL is read back from its text. -/
theorem decode_reads_encode [Url.Idna] {s : Settings} (accepted : s.paging.fault? = none) {o : EncodeOptions}
    (addressed : Addressed o.url) (positive : ∀ n ∈ o.size, 0 < n)
    (files : ∀ url, Url.parse o.url = .ok url → url.kind = .file → url.Rereads) :
    ∃ p, (Pager.ofSettings s.paging).value = .ok p ∧
      ((perform s (.encode o)).exitCode ≠ 0 ↔ (∃ e, p.bookmark (Location.parse o.url).target = .error e) ∨
        o.sort ≠ [] ∧ ∃ e, Sorting.parse o.sort = .error e) ∧
      ((perform s (.encode o)).exitCode = 0 → ∃ link carried page, (perform s (.encode o)).output = link ++ "\n" ∧
        p.bookmark (Location.parse o.url).target = .ok carried ∧ Asked s o carried page ∧
        (decode p link).value = .ok page ∧
        (∀ json, (perform s (.decode ⟨link, json⟩)).exitCode = 0 ∧
          (perform s (.decode ⟨link, json⟩)).output
            = if json then (reportJson page).printLines ++ "\n" else report page) ∧
        Tells (perform s (.decode ⟨link, true⟩)).output page ∧
        ∀ other : Page, (∀ key ∈ other.sorting, key.Named) →
          (perform s (.decode ⟨link, false⟩)).output = report other → other = page) := by
  have usable := PagingSettings.fault?_eq_none_iff.mp accepted
  obtain ⟨p, made⟩ : ∃ p, (Pager.ofSettings s.paging).value = .ok p := ⟨_, Pager.ofSettings_eq_ok_iff.mpr ⟨usable, rfl⟩⟩
  have hcodec : p.codec = (Codec.Stack.standard s.paging.secret).codec := by
    obtain ⟨-, rfl⟩ := Pager.ofSettings_eq_ok_iff.mp made
    rfl
  have distinct : p.names.toList.Nodup := by
    obtain ⟨-, rfl⟩ := Pager.ofSettings_eq_ok_iff.mp made
    exact usable.distinct
  obtain ⟨hexit, houtput⟩ := perform_encode made o
  refine ⟨p, made, hexit.trans encode_error_iff, fun hzero => ?_⟩
  cases hencode : (encode p o).2 with
  | error f => exact absurd hzero (hexit.mpr ⟨f, hencode⟩)
  | ok link =>
    obtain ⟨carried, sorting, hcarried, hsorting, rfl⟩ := encode_ok_iff.mp hencode
    have carries := carries_chosen (Pager.sized_ofSettings made) positive hcarried hsorting
    have decoded := decode_link hcodec distinct addressed files carries
    have performed := perform_decode made decoded
    refine ⟨_, carried, _, houtput _ hencode, hcarried, asked_chosen made hsorting, decoded, performed, ?_,
      fun other named printed => ?_⟩
    · rw [(performed true).2]
      exact tells_reportJson _
    · rw [(performed false).2] at printed
      exact (report_injective carries.named named printed).symm

/-- A URL of the web with credentials, a name outside ASCII, a fragment and stale parameters, asked for the last of all pages in
a size that is too great. -/
theorem decode_reads_encode_last_page :
    let _ : Url.Idna := .withName "b\u00fccher.example".toList "xn--bcher-kva.example".toList
    let s : Settings := ⟨{ name := "cursor" }, { maxSize := 50, secret := some "s" }⟩
    let o : EncodeOptions :=
      ⟨"HTTPS://u@b\u00fccher.example:443/a/../b c?page=x.y&size=7&q=1&sort=id#top", 18446744073709551615, some 200, []⟩
    s.paging.fault? = none ∧ Addressed o.url ∧ (∀ n ∈ o.size, 0 < n) ∧
      ∃ p link page, (Pager.ofSettings s.paging).value = .ok p ∧ (perform s (.encode o)).exitCode = 0 ∧
        (perform s (.encode o)).output = link ++ "\n" ∧ (decode p link).value = .ok page ∧
        page = ⟨18446744073709551615, 50, [⟨"id", .ascending⟩]⟩ ∧ page.offset = 18446744073709551615 := by
  intro _ s o
  have accepted : s.paging.fault? = none := by decide
  have read : Url.parse "HTTPS://u@b\u00fccher.example:443/a/../b c?page=x.y&size=7&q=1&sort=id#top"
      = .ok ⟨"https", some ⟨"u", none, .name "xn--bcher-kva.example", none⟩, "/b%20c", some "page=x.y&size=7&q=1&sort=id",
        some "top"⟩ := by decide +kernel
  have addressed : Addressed o.url := .hosted read (by decide)
  have positive : ∀ n ∈ o.size, 0 < n := by
    intro n hn
    cases hn
    decide
  have files : ∀ url, Url.parse o.url = .ok url → url.kind = .file → url.Rereads := by
    intro url hurl hkind
    cases read.symm.trans hurl
    exact absurd hkind (by decide)
  obtain ⟨p, made, fails, succeeds⟩ := decode_reads_encode accepted addressed positive files
  have carries : p.bookmark (Location.parse o.url).target = .ok ⟨some "x.y", 7, [⟨"id", .ascending⟩]⟩ := by
    obtain ⟨-, rfl⟩ := Pager.ofSettings_eq_ok_iff.mp made
    rw [Location.parse_of_host read (by decide)]
    rfl
  have zero : (perform s (.encode o)).exitCode = 0 := by
    by_cases hcode : (perform s (.encode o)).exitCode = 0
    · exact hcode
    · rcases fails.mp hcode with ⟨e, he⟩ | ⟨hsort, -⟩
      · cases carries.symm.trans he
      · exact absurd rfl hsort
  obtain ⟨link, carried, page, output, hcarried, asked, decoded, -⟩ := succeeds zero
  cases carries.symm.trans hcarried
  have hpage : page = ⟨18446744073709551615, 50, [⟨"id", .ascending⟩]⟩ := by
    cases page
    have hindex := asked.index
    have hsize := asked.size 200 rfl
    have hsorting := asked.sortingCarried rfl
    simp only at hindex hsize hsorting
    rw [hindex, hsize, hsorting]
    rfl
  refine ⟨accepted, addressed, positive, p, link, page, made, zero, output, decoded, hpage, ?_⟩
  rw [hpage]
  rfl

end Command

end Pagemark
