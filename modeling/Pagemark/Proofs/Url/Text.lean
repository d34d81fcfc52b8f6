/-
  Pagemark.Proofs.Url.Text — URLs with a host read back from their text.

  A URL with a host, unless it is a file, has an authority, a resolved path, and a query and a
  fragment in which all that would end them is escaped (`Hosted`). Its text begins with its
  scheme and two slashes, and each component ends at the mark that begins the next one. All URLs
  of the web have a host (`Written`).

  Proved: `written_of_read` — however a URL of the web comes about, it is written so;
  `hosted_of_parse` — and so is any other URL with a host that is read on its own, but for files;
  `parse_text` — the text is read as the URL.
-/

import Pagemark.Proofs.Form
import Pagemark.Proofs.Url.Authority

namespace Pagemark.Url

open Text

/-! ## Schemes -/

/-- A character of a scheme. -/
def isSchemeChar (c : Char) : Bool := c.isAlphanum || c == '+' || c == '-' || c == '.'

/-- A scheme begins with a letter, and is in lower case. -/
structure SchemeWritten (scheme : String) : Prop where
  letter : ∃ c ∈ scheme.toList.head?, c.isAlpha = true
  chars : ∀ c ∈ scheme.toList, isSchemeChar c = true ∧ c.toLower = c

theorem isSchemeChar_spec {c : Char} (h : isSchemeChar c = true) :
    c ≠ ':' ∧ isEdge c = false ∧ (isSchemeChar c.toLower = true ∧ c.toLower.toLower = c.toLower) ∧
      (c.isAlpha = true → c.toLower.isAlpha = true) := by
  have hascii : c.toNat < 128 := by
    simp only [isSchemeChar, Bool.or_eq_true, beq_iff_eq] at h
    rcases h with ((h | rfl) | rfl) | rfl
    · exact toNat_lt_of_isAlphanum h
    all_goals decide
  exact ascii_forall
    (P := fun c => isSchemeChar c = true → c ≠ ':' ∧ isEdge c = false ∧
      (isSchemeChar c.toLower = true ∧ c.toLower.toLower = c.toLower) ∧ (c.isAlpha = true → c.toLower.isAlpha = true))
    (by decide) hascii h

theorem isAlphanum_of_isAlpha {c : Char} (h : c.isAlpha = true) : c.isAlphanum = true := by
  rw [Char.isAlphanum, h, Bool.true_or]

/-- A scheme is read in lower case. -/
theorem schemeTail?_append {cs : List Char} (h : ∀ c ∈ cs, isSchemeChar c = true) (rest : List Char) :
    schemeTail? (cs ++ ':' :: rest) = some (cs.map Char.toLower, rest) := by
  induction cs with
  | nil => rfl
  | cons c cs ih =>
    obtain ⟨hc, hcs⟩ := List.forall_mem_cons.mp h
    have hcolon : (c == ':') = false := by simpa using (isSchemeChar_spec hc).1
    rw [List.cons_append, schemeTail?, hcolon, ih hcs]
    exact if_pos hc

theorem scheme?_append {c : Char} {cs : List Char} (hletter : c.isAlpha = true)
    (h : ∀ x ∈ c :: cs, isSchemeChar x = true) (rest : List Char) :
    scheme? (c :: cs ++ ':' :: rest) = some (.ofList ((c :: cs).map Char.toLower), rest) := by
  have htail := schemeTail?_append h rest
  show (if c.isAlpha then (schemeTail? (c :: cs ++ ':' :: rest)).map _ else none) = _
  rw [if_pos hletter, htail]
  rfl

/-- A written scheme is read as it is. -/
theorem scheme?_text {scheme : String} (h : SchemeWritten scheme) (rest : List Char) :
    scheme? (scheme.toList ++ ':' :: rest) = some (scheme, rest) := by
  obtain ⟨⟨c, hc, hletter⟩, hchars⟩ := h
  obtain ⟨cs, hcs⟩ := List.head?_eq_some_iff.mp hc
  have hlower : scheme.toList.map Char.toLower = scheme.toList := by
    conv => rhs; rw [← List.map_id scheme.toList]
    exact List.map_congr_left fun x hx => (hchars x hx).2
  rw [hcs] at hchars hlower ⊢
  rw [scheme?_append hletter (fun x hx => (hchars x hx).1), hlower, ← hcs, String.ofList_toList]

theorem chars_of_schemeTail? {cs scheme rest : List Char} (h : schemeTail? cs = some (scheme, rest)) :
    ∀ c ∈ scheme, isSchemeChar c = true ∧ c.toLower = c := by
  induction cs generalizing scheme with
  | nil => cases h
  | cons c cs ih =>
    unfold schemeTail? at h
    split at h
    · cases h
      exact fun x hx => absurd hx List.not_mem_nil
    split at h
    · rename_i hc
      obtain ⟨⟨tail, behind⟩, htail, h⟩ := Option.map_eq_some_iff.mp h
      cases h
      exact List.forall_mem_cons.mpr ⟨(isSchemeChar_spec hc).2.2.1, ih htail⟩
    · cases h

/-- A scheme that is read is written so. -/
theorem schemeWritten_of_scheme? {cs rest : List Char} {scheme : String} (h : scheme? cs = some (scheme, rest)) :
    SchemeWritten scheme := by
  unfold scheme? at h
  split at h
  · rename_i c cs
    split at h
    · rename_i hletter
      obtain ⟨⟨tail, behind⟩, htail, h⟩ := Option.map_eq_some_iff.mp h
      cases h
      have hc : isSchemeChar c = true := by
        simp [isSchemeChar, isAlphanum_of_isAlpha hletter]
      have hchars := chars_of_schemeTail? htail
      refine ⟨?_, by rwa [String.toList_ofList]⟩
      rw [String.toList_ofList]
      unfold schemeTail? at htail
      rw [if_neg (by simpa using (isSchemeChar_spec hc).1)] at htail
      split at htail
      · obtain ⟨⟨more, behind⟩, -, htail⟩ := Option.map_eq_some_iff.mp htail
        cases htail
        exact ⟨c.toLower, rfl, (isSchemeChar_spec hc).2.2.2 hletter⟩
      · cases htail
    · cases h
  · cases h

theorem mem_of_web {scheme : String} (h : Kind.ofScheme scheme = .web) :
    scheme ∈ ["http", "https", "ws", "wss", "ftp"] := by
  unfold Kind.ofScheme at h
  split at h
  · cases h
  split at h
  · rename_i hmem
    simpa using hmem
  · cases h

theorem schemeWritten_of_web {scheme : String} (h : Kind.ofScheme scheme = .web) : SchemeWritten scheme := by
  have hmem := mem_of_web h
  simp only [List.mem_cons, List.not_mem_nil, or_false] at hmem
  have chars : scheme.toList.all (fun c => isSchemeChar c && c.toLower == c) = true := by
    rcases hmem with rfl | rfl | rfl | rfl | rfl
    all_goals decide
  have letter : ∃ c ∈ scheme.toList.head?, c.isAlpha = true := by
    rcases hmem with rfl | rfl | rfl | rfl | rfl
    all_goals exact ⟨_, rfl, rfl⟩
  refine ⟨letter, ?_⟩
  intro c hc
  simpa using List.all_eq_true.mp chars c hc

/-! ## Written URLs -/

/-- A URL with a host that is no file, as it is written. -/
structure Hosted [Idna] (u : Url) : Prop where
  scheme : SchemeWritten u.scheme
  noFile : Kind.ofScheme u.scheme ≠ .file
  authority : ∃ a, u.authority = some a ∧ a.Written u.scheme
  path : Path.WrittenIn (.ofScheme u.scheme) u.path
  query : ∀ q ∈ u.query, Kept (queryKeeps (.ofScheme u.scheme)) q
  fragment : ∀ f ∈ u.fragment, Kept fragmentKeeps f

/-- A URL of the web, as it is written. -/
structure Written [Idna] (u : Url) : Prop extends Hosted u where
  web : Kind.ofScheme u.scheme = .web

theorem Written.resolved [Idna] {u : Url} (h : u.Written) : Path.Resolved u.path := by
  have hpath := h.path
  rw [h.web] at hpath
  exact hpath.resolve_left fun e => absurd e.1 (by decide)

/-- Query and fragment as they stand behind a path. -/
def tailText (query fragment : Option String) : List Char :=
  let behind := match fragment with
    | none => []
    | some f => '#' :: f.toList
  match query with
  | none => behind
  | some q => '?' :: (q.toList ++ behind)

theorem toList_text_of_authority {u : Url} {a : Authority} (h : u.authority = some a) :
    u.text.toList
      = u.scheme.toList ++ ':' :: '/' :: '/' :: (a.text.toList ++ (u.path.toList ++ tailText u.query u.fragment)) := by
  unfold text authorityText tailText
  rw [h]
  cases u.query with
  | none =>
    cases u.fragment with
    | none => simp
    | some f => simp
  | some q =>
    cases u.fragment with
    | none => simp
    | some f => simp

/-! ## Query and fragment -/

theorem hash_not_mem_query {kind : Kind} {q : String} (h : Kept (queryKeeps kind) q) : '#' ∉ q.toList := by
  intro hc
  have hkept := h '#' hc
  cases kind with
  | web => exact absurd hkept (by decide)
  | file => exact absurd hkept (by decide)
  | other => exact absurd hkept (by decide)

theorem readTail_tailText {kind : Kind} {query fragment : Option String}
    (hquery : ∀ q ∈ query, Kept (queryKeeps kind) q) (hfragment : ∀ f ∈ fragment, Kept fragmentKeeps f) :
    readTail kind (tailText query fragment) = (query, fragment) := by
  unfold tailText
  cases query with
  | none =>
    cases fragment with
    | none => rfl
    | some f => simp only [readTail, escaped_of_kept keeps_fragment (hfragment f rfl)]
  | some q =>
    have hq := hquery q rfl
    have hhash := hash_not_mem_query hq
    cases fragment with
    | none =>
      simp only [readTail, List.append_nil, cut_of_not_mem hhash, escaped_of_kept (keeps_query kind) hq,
        Option.map_none]
    | some f =>
      simp only [readTail, cut_append hhash, escaped_of_kept (keeps_query kind) hq, Option.map_some,
        escaped_of_kept keeps_fragment (hfragment f rfl)]

theorem isTailMark_of_head_tailText {query fragment : Option String} :
    ∀ c ∈ (tailText query fragment).head?, isTailMark c = true := by
  unfold tailText
  cases query with
  | none =>
    cases fragment with
    | none => simp
    | some f => simp [isTailMark]
  | some q => simp [isTailMark]

/-- A path ends where the tail begins. -/
theorem span_tailText {path : List Char} (h : Unmarked path) (query fragment : Option String) :
    beforeTail (path ++ tailText query fragment) = path ∧
      tailOf (path ++ tailText query fragment) = tailText query fragment := by
  have hpath : ∀ c ∈ path, (!isTailMark c) = true := fun c hc => by simp [h c hc]
  have hmark : ∀ c ∈ (tailText query fragment).head?, (!isTailMark c) = false := fun c hc => by
    simp [isTailMark_of_head_tailText c hc]
  unfold beforeTail tailOf
  rw [List.takeWhile_append_of_pos hpath, List.dropWhile_append_of_pos hpath, dropWhile_of_head hmark]
  refine ⟨?_, rfl⟩
  cases htail : tailText query fragment with
  | nil => simp
  | cons c cs =>
    rw [htail] at hmark
    rw [List.takeWhile_cons_of_neg (by simp [hmark c rfl]), List.append_nil]

theorem kept_of_readTail (kind : Kind) (cs : List Char) :
    (∀ q ∈ (readTail kind cs).1, Kept (queryKeeps kind) q) ∧ ∀ f ∈ (readTail kind cs).2, Kept fragmentKeeps f := by
  have nothing : ∀ {keep}, ∀ x ∈ (none : Option String), Kept keep x := fun _ hx => by cases hx
  unfold readTail
  split
  · refine ⟨fun q hq => ?_, fun f hf => ?_⟩
    · cases hq
      exact kept_escaped (keeps_query kind) _
    · obtain ⟨cs, -, rfl⟩ := Option.map_eq_some_iff.mp hf
      exact kept_escaped keeps_fragment _
  · refine ⟨nothing, fun f hf => ?_⟩
    cases hf
    exact kept_escaped keeps_fragment _
  · exact ⟨nothing, nothing⟩

/-- Written pairs stand in a query as they are. -/
theorem kept_print (kind : Kind) (pairs : List (String × String)) :
    Kept (queryKeeps kind) (.ofList (Form.print pairs)) := by
  -- What no kind escapes.
  have kept : ∀ c : Char, queryKeeps .web c = true → queryKeeps kind c = true := by
    intro c hc
    simp only [queryKeeps, Bool.and_eq_true, Bool.or_eq_true] at hc ⊢
    exact ⟨hc.1, hc.2.elim (fun e => absurd e (by decide)) Or.inr⟩
  intro c hc
  rw [String.toList_ofList] at hc
  apply kept
  rcases Form.mem_print hc with hc | rfl | rfl
  · simp only [Form.isWritten, Form.isPlain, Bool.or_eq_true, beq_iff_eq] at hc
    rcases hc with (((((hc | rfl) | rfl) | rfl) | rfl) | rfl) | rfl
    · exact (keeps_query .web).alphanum c hc
    all_goals decide
  · decide
  · decide

theorem kind_readFileRoot (base : Option Url) (cs : List Char) : (readFileRoot base cs).kind = .file := by
  unfold readFileRoot
  simp only
  split
  · rfl
  · split
    · rfl
    · rfl

theorem kind_readFileRelative {base : Option Url} (hbase : ∀ b ∈ base, b.kind = .file) (cs : List Char) :
    (readFileRelative base cs).kind = .file := by
  unfold readFileRelative
  cases base with
  | none => rfl
  | some b =>
    have hb : b.kind = .file := hbase b rfl
    simp only
    split
    · exact hb
    · rfl
    · exact hb
    split
    · rfl
    · rfl

/-! ## What is read -/

section

variable [Idna]

theorem scheme_withAuthority {scheme : String} {cs : List Char} {u : Url} (h : withAuthority scheme cs = .ok u) :
    u.scheme = scheme := by
  unfold withAuthority at h
  obtain ⟨found, -, h⟩ := ok_of_bind h
  cases h
  rfl

theorem hosted_finish {scheme : String} (hscheme : SchemeWritten scheme) (hfile : Kind.ofScheme scheme ≠ .file)
    {a : Authority} (ha : a.Written scheme) {path : String} (hpath : Path.WrittenIn (.ofScheme scheme) path)
    (cs : List Char) : (finish scheme (some a) path cs).Hosted where
  scheme := hscheme
  noFile := hfile
  authority := ⟨a, rfl, ha⟩
  path := hpath
  query := (kept_of_readTail _ _).1
  fragment := (kept_of_readTail _ _).2

theorem hosted_withAuthority {scheme : String} (hscheme : SchemeWritten scheme) (hfile : Kind.ofScheme scheme ≠ .file)
    {cs : List Char} {u : Url} (h : withAuthority scheme cs = .ok u) (hhost : u.host ≠ .empty) : u.Hosted := by
  unfold withAuthority at h
  obtain ⟨⟨a, rest⟩, hread, h⟩ := ok_of_bind h
  cases h
  exact hosted_finish hscheme hfile (written_of_readAuthority hread hhost) (Path.writtenIn_parse _ _) _

theorem written_finish {scheme : String} (hkind : Kind.ofScheme scheme = .web) {a : Authority} (ha : a.Written scheme)
    {path : String} (hpath : Path.Resolved path) (cs : List Char) : (finish scheme (some a) path cs).Written where
  toHosted := hosted_finish (schemeWritten_of_web hkind) (by rw [hkind]; decide) ha (Or.inr (by rwa [hkind])) cs
  web := hkind

theorem written_withAuthority {scheme : String} (hkind : Kind.ofScheme scheme = .web) {cs : List Char} {u : Url}
    (h : withAuthority scheme cs = .ok u) : u.Written := by
  have hscheme := scheme_withAuthority h
  refine ⟨hosted_withAuthority (schemeWritten_of_web hkind) (by rw [hkind]; decide) h ?_, by rw [hscheme, hkind]⟩
  unfold withAuthority at h
  obtain ⟨⟨a, rest⟩, hread, h⟩ := ok_of_bind h
  cases h
  exact host_ne_empty_of_web hkind hread

theorem written_withFragment {u : Url} (h : u.Written) {fragment : Option String}
    (hfragment : ∀ f ∈ fragment, Kept fragmentKeeps f) : ({ u with fragment := fragment } : Url).Written :=
  ⟨⟨h.scheme, h.noFile, h.authority, h.path, h.query, hfragment⟩, h.web⟩

theorem scheme_continueBase {base : Url} {cs : List Char} {u : Url} (h : continueBase base cs = .ok u) :
    u.scheme = base.scheme := by
  unfold continueBase at h
  simp only at h
  split at h
  · cases h; rfl
  · cases h; rfl
  · cases h; rfl
  split at h
  · split at h
    · split at h
      · exact scheme_withAuthority h
      · cases h; rfl
    · cases h; rfl
  · cases h; rfl

theorem written_continueBase {base : Url} (hbase : base.Written) {cs : List Char} {u : Url}
    (h : continueBase base cs = .ok u) : u.Written := by
  obtain ⟨a, ha, hauthority⟩ := hbase.authority
  have finished : ∀ {path}, Path.Resolved path → ∀ cs, (finish base.scheme base.authority path cs).Written := by
    intro path hpath cs
    rw [ha]
    exact written_finish hbase.web hauthority hpath cs
  have resolved : ∀ {stack}, (∀ s ∈ stack, Path.Plain s) → ∀ cs, Path.Resolved (Path.resolve base.kind stack cs) := by
    intro stack hstack cs
    rw [show base.kind = .web from hbase.web]
    exact Path.resolved_resolve hstack cs
  unfold continueBase at h
  simp only at h
  split at h
  · cases h
    exact written_withFragment hbase fun _ hf => by cases hf
  · cases h
    exact finished hbase.resolved _
  · cases h
    refine written_withFragment hbase fun f hf => ?_
    cases hf
    exact kept_escaped keeps_fragment _
  split at h
  · split at h
    · split at h
      · exact written_withAuthority hbase.web h
      · cases h
        exact finished (resolved (by simp) _) _
    · cases h
      have root : Path.Resolved "/" := Path.resolved_parse []
      exact finished root _
  · cases h
    refine finished (resolved (fun s hs => ?_) _) _
    exact Path.plain_of_mem_stackOf hbase.resolved s (List.mem_of_mem_drop hs)

theorem scheme_readOther {scheme : String} {cs : List Char} {u : Url} (h : readOther scheme cs = .ok u) :
    u.scheme = scheme := by
  unfold readOther at h
  split at h
  · exact scheme_withAuthority h
  · cases h; rfl
  · cases h; rfl

theorem kind_readFileAuthority {cs : List Char} {u : Url} (h : readFileAuthority cs = .ok u) : u.kind = .file := by
  unfold readFileAuthority at h
  obtain ⟨⟨host, rest⟩, -, h⟩ := ok_of_bind h
  simp only at h
  split at h
  · cases h; rfl
  · cases h; rfl

theorem kind_readFile {base : Option Url} (hbase : ∀ b ∈ base, b.kind = .file) {cs : List Char} {u : Url}
    (h : readFile base cs = .ok u) : u.kind = .file := by
  unfold readFile at h
  split at h
  · cases h; exact kind_readFileRelative hbase _
  split at h
  · cases h; exact kind_readFileRelative hbase _
  split at h
  · cases h; exact kind_readFileRoot _ _
  split at h
  · exact kind_readFileAuthority h
  · cases h; exact kind_readFileRoot _ _

/-- A URL of the web is written when it is read, if its base is or is none of the web. -/
theorem written_of_parse? {base : Option Url} (hbase : ∀ b ∈ base, b.kind = .web → b.Written) {s : String} {u : Url}
    (h : parse? base s = .ok u) (hweb : u.kind = .web) : u.Written := by
  unfold parse? readTrimmed at h
  split at h
  · rename_i scheme rest _
    split at h
    · -- A file
      have hkind := kind_readFile (fun b hb => by simpa using (Option.filter_eq_some_iff.mp hb).2) h
      rw [hweb] at hkind
      cases hkind
    · rename_i hkind
      rw [kind, scheme_readOther h, hkind] at hweb
      cases hweb
    · rename_i hkind
      simp only at h
      split at h
      · rename_i b hb
        obtain ⟨hb, hscheme⟩ := Option.filter_eq_some_iff.mp hb
        have hscheme : b.scheme = scheme := by
          simp only [Bool.and_eq_true, beq_iff_eq] at hscheme
          exact hscheme.2
        exact written_continueBase (hbase b hb (by rw [kind, hscheme, hkind])) h
      · exact written_withAuthority hkind h
  · split at h
    · cases h
    rename_i b
    split at h
    · cases h
      refine written_withFragment (hbase b rfl hweb) fun f hf => ?_
      cases hf
      exact kept_escaped keeps_fragment _
    split at h
    · cases h
    split at h
    · rename_i hfile
      have hkind := kind_readFile (fun x hx => by cases hx; exact hfile) h
      rw [hweb] at hkind
      cases hkind
    · have hkind : b.kind = .web := by
        rw [← hweb, kind, kind, scheme_continueBase h]
      exact written_continueBase (hbase b rfl hkind) h

theorem hosted_withPairs {u : Url} (h : u.Hosted) (pairs : List (String × String)) : (u.withPairs pairs).Hosted := by
  obtain ⟨a, ha, -⟩ := h.authority
  refine ⟨h.scheme, h.noFile, h.authority, ?_, fun q hq => ?_, h.fragment⟩
  · show Path.WrittenIn _ u.unpaddedPath
    rw [unpaddedPath_of_hierarchical (isOpaque_of_authority ha)]
    exact h.path
  · replace hq : (if pairs.isEmpty then none else some (String.ofList (Form.print pairs))) = some q := hq
    split at hq
    · cases hq
    · cases hq
      exact kept_print _ pairs

/-- However a URL of the web comes about, it is written as such. -/
theorem written_of_read {u : Url} (h : Read u) (hweb : u.kind = .web) : u.Written := by
  induction h with
  | parse h => exact written_of_parse? (fun _ hb => by cases hb) h hweb
  | join _ h ih => exact written_of_parse? (fun _ hb => by cases hb; exact ih) h hweb
  | withPairs _ pairs ih => exact ⟨hosted_withPairs (ih hweb).toHosted pairs, hweb⟩

/-- A URL with a host that is read on its own is written as such, unless it is a file. -/
theorem hosted_of_parse {s : String} {u : Url} (h : parse s = .ok u) (hhost : u.hasHost = true) (hfile : u.kind ≠ .file) :
    u.Hosted := by
  have hhost : u.host ≠ .empty := by simpa [hasHost] using hhost
  cases hkind : u.kind with
  | file => exact absurd hkind hfile
  | web => exact (written_of_parse? (fun _ hb => by cases hb) h hkind).toHosted
  | other =>
    unfold parse parse? readTrimmed at h
    split at h
    · rename_i scheme rest hscheme
      have written := schemeWritten_of_scheme? hscheme
      split at h
      · -- A file
        have := kind_readFile (fun _ hb => by cases hb) h
        exact absurd this hfile
      · rename_i hother
        unfold readOther at h
        split at h
        · exact hosted_withAuthority written (by rw [hother]; decide) h hhost
        · cases h
          exact absurd rfl hhost
        · cases h
          exact absurd rfl hhost
      · rename_i hweb
        have hweb : u.kind = .web := by
          rw [kind, scheme_withAuthority h, hweb]
        exact absurd (hkind.symm.trans hweb) (by decide)
    · cases h

end

/-! ## Reading the text -/

theorem shown_of_tailText {kind : Kind} {query fragment : Option String}
    (hquery : ∀ q ∈ query, Kept (queryKeeps kind) q) (hfragment : ∀ f ∈ fragment, Kept fragmentKeeps f) :
    ∀ c ∈ tailText query fragment, isEdge c = false := by
  have hbehind : ∀ f ∈ fragment, ∀ c ∈ '#' :: f.toList, isEdge c = false := by
    intro f hf c hc
    rcases List.mem_cons.mp hc with rfl | hc
    · decide
    · exact (keeps_fragment.shown c (hfragment f hf c hc)).2
  intro c hc
  unfold tailText at hc
  cases query with
  | none =>
    cases fragment with
    | none => cases hc
    | some f => exact hbehind f rfl c hc
  | some q =>
    rcases List.mem_cons.mp hc with rfl | hc
    · decide
    rcases List.mem_append.mp hc with hc | hc
    · exact ((keeps_query kind).shown c (hquery q rfl c hc)).2
    · cases fragment with
      | none => cases hc
      | some f => exact hbehind f rfl c hc

section Reading

variable [Idna] {u : Url} (h : u.Hosted)

include h

theorem cleaned_text : cleaned u.text.toList = u.text.toList := by
  obtain ⟨a, ha, hwritten⟩ := h.authority
  have hedge : ∀ c ∈ u.text.toList, isEdge c = false := by
    rw [toList_text_of_authority ha]
    intro c hc
    simp only [List.mem_append, List.mem_cons] at hc
    rcases hc with hc | rfl | rfl | rfl | hc | hc | hc
    · exact (isSchemeChar_spec (h.scheme.chars c hc).1).2.1
    · decide
    · decide
    · decide
    · exact (Authority.inAuthority_of_mem_text hwritten c hc).1
    · exact Path.shown_of_writtenIn h.path c hc
    · exact shown_of_tailText h.query h.fragment c hc
  exact cleaned_of_shown hedge

/-- The path and the tail end the authority. -/
theorem endsAuthority_path : EndsAuthority (u.path.toList ++ tailText u.query u.fragment) := by
  intro c hc
  cases hpath : u.path.toList with
  | nil =>
    rw [hpath] at hc
    exact Or.inr (isTailMark_of_head_tailText c hc)
  | cons x xs =>
    rw [hpath] at hc
    cases hc
    exact Or.inl (Path.head_of_writtenIn h.path c (by rw [hpath]; rfl))

theorem withAuthority_text {a : Authority} (ha : u.authority = some a) (hwritten : a.Written u.scheme) :
    withAuthority u.scheme (a.text.toList ++ (u.path.toList ++ tailText u.query u.fragment)) = .ok u := by
  obtain ⟨hbefore, htail⟩ := span_tailText (Path.unmarked_of_writtenIn h.path) u.query u.fragment
  have hread := readAuthority_text hwritten (endsAuthority_path h)
  have hfinish : finish u.scheme (some a) u.path (u.path.toList ++ tailText u.query u.fragment) = u := by
    unfold finish
    rw [htail, readTail_tailText h.query h.fragment, ← ha]
  have hpath : Path.parse (.ofScheme u.scheme) (beforeTail (u.path.toList ++ tailText u.query u.fragment)) = u.path := by
    rw [hbefore]
    exact Path.parse_of_writtenIn h.path
  unfold withAuthority
  rw [hread]
  show Except.ok (finish u.scheme (some a) (Path.parse (.ofScheme u.scheme) _) _) = _
  rw [hpath, hfinish]

/-- The text of a URL with a host is read as the URL. -/
theorem parse_text : parse u.text = .ok u := by
  obtain ⟨a, ha, hwritten⟩ := h.authority
  have htext := toList_text_of_authority ha
  have hread := withAuthority_text h ha hwritten
  -- No slash stands behind the first two: an authority is not empty, and holds none.
  have hslashes : ('/' :: '/' :: (a.text.toList ++ (u.path.toList ++ tailText u.query u.fragment))).dropWhile
      Kind.web.isSlash = a.text.toList ++ (u.path.toList ++ tailText u.query u.fragment) := by
    obtain ⟨c, cs, hcs⟩ := List.exists_cons_of_ne_nil (Authority.text_ne_nil hwritten)
    have hc := Authority.inAuthority_of_mem_text hwritten c (by rw [hcs]; exact List.mem_cons_self)
    rw [List.dropWhile_cons_of_pos rfl, List.dropWhile_cons_of_pos rfl, hcs, List.cons_append,
      List.dropWhile_cons_of_neg (by simp [hc.2.1])]
  have hscheme : scheme? (counted (trimmed u.text.toList))
      = some (u.scheme, '/' :: '/' :: (a.text.toList ++ (u.path.toList ++ tailText u.query u.fragment))) := by
    show scheme? (cleaned u.text.toList) = _
    rw [cleaned_text h, htext]
    exact scheme?_text h.scheme _
  unfold parse parse? readTrimmed
  simp only [hscheme]
  cases hkind : Kind.ofScheme u.scheme with
  | file => exact absurd hkind h.noFile
  | other => exact hread
  | web =>
    simp only [Option.filter_none]
    rw [hslashes]
    exact hread

end Reading

end Pagemark.Url
