/-
  Pagemark.Proofs.Url.Host — hosts read back from their written form.

  A host of the web is a name in its ASCII form that does not end in a number, an IPv4 address, or
  an IPv6 address (`Written`); nothing else is read. A host of the other schemes is a name of
  shown characters, which stays as it is, or an IPv6 address (`WrittenOpaque`). In either way no
  character of a host has a meaning in an authority (`text_spec`).

  Proved: `writtenIn_of_read` — what is read is a host of the kind; `read_text` — its text is read
  as the host.
-/

import Mathlib.Algebra.Group.Nat.Defs
import Pagemark.Proofs.Url.Address
import Pagemark.Proofs.Url.Path

namespace Pagemark.Url

open Text

/-- A character that does not end an authority. -/
def Inside (c : Char) : Prop := Kind.web.isSlash c = false ∧ isTailMark c = false

instance (c : Char) : Decidable (Inside c) := inferInstanceAs (Decidable (_ ∧ _))

/-- A character that ends neither an authority nor a text. -/
def InAuthority (c : Char) : Prop := isEdge c = false ∧ Kind.web.isSlash c = false ∧ isTailMark c = false

instance (c : Char) : Decidable (InAuthority c) := inferInstanceAs (Decidable (_ ∧ _ ∧ _))

theorem inAuthority_of_isAlphanum {c : Char} (h : c.isAlphanum = true) : InAuthority c :=
  ascii_forall (P := fun c => c.isAlphanum = true → InAuthority c) (by decide) (toNat_lt_of_isAlphanum h) h

/-- Only letters of ASCII have a lower case. -/
theorem toLower_of_not_ascii {c : Char} (h : ¬ c.toNat < 128) : c.toLower = c := by
  refine dif_neg ?_
  intro hupper
  have hle : c.val.toNat ≤ 90 := hupper.2
  have hlarge : ¬ c.val.toNat < 128 := h
  omega

namespace Host

/-! ## Names -/

/-- A character of a domain name. -/
def IsNameChar (c : Char) : Prop := isForbidden c = false

instance (c : Char) : Decidable (IsNameChar c) := inferInstanceAs (Decidable (_ = _))

/-- No character of a name has a meaning in an authority or in an escape. -/
theorem isNameChar_spec {c : Char} (h : IsNameChar c) :
    c.toNat < 0x80 ∧ InAuthority c ∧ c ≠ '%' ∧ c ≠ ':' ∧ c ≠ '[' ∧ c ≠ ']' ∧ c ≠ '@' := by
  have hshown : isShown c = true := by
    have hallowed : isForbidden c = false := h
    simp only [isForbidden, Bool.or_eq_false_iff, Bool.not_eq_false'] at hallowed
    exact hallowed.1
  exact ascii_forall
    (P := fun c => IsNameChar c → c.toNat < 0x80 ∧ InAuthority c ∧ c ≠ '%' ∧ c ≠ ':' ∧ c ≠ '[' ∧ c ≠ ']' ∧ c ≠ '@')
    (by decide) (toNat_lt_of_isShown hshown) h

/-- A character of an IPv4 address. -/
def IsDotted (c : Char) : Prop := c.isDigit = true ∨ c = '.'

theorem isDotted_spec {c : Char} (h : IsDotted c) : IsNameChar c ∧ c.toLower = c ∧ c ≠ 'x' := by
  rcases h with hdigit | rfl
  · exact ascii_forall (P := fun c => c.isDigit = true → IsNameChar c ∧ c.toLower = c ∧ c ≠ 'x') (by decide)
      (toNat_lt_of_isAlphanum (isAlphanum_of_isDigit hdigit)) hdigit
  · decide

/-- Digits and dots need no mapping. -/
theorem toAscii_dotted [Idna] {cs : List Char} (h : ∀ c ∈ cs, IsDotted c) : Idna.toAscii cs = some cs := by
  have lower : cs.map Char.toLower = cs := by
    conv => rhs; rw [← List.map_id cs]
    exact List.map_congr_left fun c hc => (isDotted_spec (h c hc)).2.1
  have unmarked : ∀ label ∈ pieces (· == '.') cs, isMarked label = false := by
    intro label hlabel
    cases label with
    | nil => rfl
    | cons c label =>
      have hc : c ≠ 'x' := (isDotted_spec (h c (of_mem_pieces hlabel List.mem_cons_self).1)).2.2
      unfold isMarked
      split
      · rename_i e
        exact absurd (List.cons.inj e).1 hc
      · rfl
  have plain : isPlainName cs = true := by
    simp only [isPlainName, Bool.and_eq_true, List.all_eq_true, Bool.not_eq_true']
    exact ⟨fun c hc => (isDotted_spec (h c hc)).1, unmarked⟩
  have mapped := Idna.toAscii_plain cs (by rw [lower]; exact plain)
  rwa [lower] at mapped

section Domain

variable [Idna]

/-- A name in its ASCII form stands for itself, unless it has to be an IPv4 address. -/
theorem domain_of_ascii {cs : List Char} (h : ∀ c ∈ cs, IsNameChar c) (ascii : Idna.toAscii cs = some cs) (hne : cs ≠ []) :
    domain cs = if endsInNumber cs then
      match ipv4? cs with
      | some address => .ok (.ipv4 address)
      | none => .error .invalidIpv4
    else .ok (.name (.ofList cs)) := by
  have bytes : Percent.decode (Utf8.encode cs) = Utf8.encode cs := by
    refine Percent.decode_of_no_percent fun c hc => ?_
    obtain ⟨hascii, -, hpercent, -⟩ := isNameChar_spec (h c hc)
    exact ⟨hascii, hpercent⟩
  have allowed : cs.any isForbidden = false := List.any_eq_false.mpr fun c hc => by simp [show isForbidden c = false from h c hc]
  have filled : cs.isEmpty = false := List.isEmpty_eq_false_iff.mpr hne
  simp only [domain, bytes, Utf8.decode_encode, ascii, allowed, filled]
  rfl

theorem domain_nil : domain [] = .error .emptyHost := by
  have ascii : Idna.toAscii [] = some [] := toAscii_dotted (by simp)
  have bytes : Utf8.decode (Percent.decode (Utf8.encode [])) = [] := rfl
  simp only [domain, bytes, ascii]
  rfl

theorem parse_of_isNameChar {cs : List Char} (h : ∀ c ∈ cs, IsNameChar c) : parse cs = domain cs := by
  unfold parse
  split
  · exact absurd (h '[' List.mem_cons_self) (by decide)
  · rfl

end Domain

/-! ## Hosts -/

/-- A host of the web. -/
def Written [Idna] : Host → Prop
  | .empty => False
  | .name text => text.toList ≠ [] ∧ (∀ c ∈ text.toList, IsNameChar c) ∧ Idna.toAscii text.toList = some text.toList ∧
      endsInNumber text.toList = false
  | .ipv4 address => address < 256 ^ 4
  | .ipv6 groups => Ipv6Address groups

theorem written_of_domain [Idna] {cs : List Char} {host : Host} (h : domain cs = .ok host) : host.Written := by
  unfold domain at h
  split at h
  · cases h
  rename_i name hname
  split at h
  · cases h
  rename_i hallowed
  split at h
  · cases h
  rename_i hfilled
  split at h
  · split at h
    · rename_i address haddress
      cases h
      exact ipv4?_lt haddress
    · cases h
  · rename_i hnumber
    cases h
    have hchars : ∀ c ∈ name, IsNameChar c := by simpa [IsNameChar] using hallowed
    simp only [Written, String.toList_ofList]
    exact ⟨by simpa using hfilled, hchars, Idna.toAscii_idem _ _ hname, by simpa using hnumber⟩

theorem ipv6_of_bracketed {cs : List Char} {host : Host} (h : bracketed cs = .ok host) :
    ∃ groups, ipv6? cs.dropLast = some groups ∧ host = .ipv6 groups := by
  unfold bracketed at h
  split at h
  · split at h
    · rename_i groups hgroups
      cases h
      exact ⟨groups, hgroups, rfl⟩
    · cases h
  · cases h

/-- What is read is a host of the web. -/
theorem written_of_parse [Idna] {cs : List Char} {host : Host} (h : parse cs = .ok host) : host.Written := by
  unfold parse at h
  split at h
  · obtain ⟨groups, hgroups, rfl⟩ := ipv6_of_bracketed h
    exact ipv6Address_of_ipv6? hgroups
  · exact written_of_domain h

theorem isDotted_of_mem_ipv4Text {address : Nat} {c : Char} (h : c ∈ (ipv4Text address).toList) : IsDotted c := by
  rw [toList_ipv4Text] at h
  rcases mem_joined h with rfl | ⟨piece, hpiece, hc⟩
  · exact .inr rfl
  · obtain ⟨n, -, rfl⟩ := List.mem_map.mp hpiece
    exact .inl (isDigit_of_mem_decimal hc)

theorem isNameChar_of_mem_ipv4Text {address : Nat} {c : Char} (h : c ∈ (ipv4Text address).toList) : IsNameChar c :=
  (isDotted_spec (isDotted_of_mem_ipv4Text h)).1

theorem toList_text_ipv6 (groups : List Nat) :
    (Host.ipv6 groups).text.toList = '[' :: ((ipv6Text groups).toList ++ [']']) := by
  simp [text]

/-- The text of a host is read as the host. -/
theorem parse_text [Idna] {host : Host} (h : host.Written) : parse host.text.toList = .ok host := by
  cases host with
  | empty => exact absurd h id
  | name text =>
    obtain ⟨hne, hchars, ascii, hnumber⟩ := h
    show parse text.toList = _
    rw [parse_of_isNameChar hchars, domain_of_ascii hchars ascii hne, hnumber, String.ofList_toList]
    rfl
  | ipv4 address =>
    have hchars : ∀ c ∈ (ipv4Text address).toList, IsNameChar c := fun c hc => isNameChar_of_mem_ipv4Text hc
    have hnumber : endsInNumber (ipv4Text address).toList = true := by
      rw [toList_ipv4Text]
      exact endsInNumber_dotted (List.cons_ne_nil _ _)
    have ascii := toAscii_dotted fun c (hc : c ∈ (ipv4Text address).toList) => isDotted_of_mem_ipv4Text hc
    have hne := ipv4Text_ne_nil address
    show parse (ipv4Text address).toList = _
    rw [parse_of_isNameChar hchars, domain_of_ascii hchars ascii hne, hnumber, ipv4?_text h]
    rfl
  | ipv6 groups =>
    rw [toList_text_ipv6, parse, bracketed, List.getLast?_concat, List.dropLast_concat]
    simp only [ipv6?_text h]

/-! ## Hosts of either kind -/

/-- A character of a host of another scheme, as it is written. -/
def IsOpaqueChar (c : Char) : Prop := isShown c = true ∧ isForbiddenOpaque c = false

instance (c : Char) : Decidable (IsOpaqueChar c) := inferInstanceAs (Decidable (_ ∧ _))

theorem isOpaqueChar_spec {c : Char} (h : IsOpaqueChar c) :
    c.toNat < 0x80 ∧ InAuthority c ∧ c ≠ ':' ∧ c ≠ '[' ∧ c ≠ ']' ∧ c ≠ '@' :=
  ascii_forall (P := fun c => IsOpaqueChar c → c.toNat < 0x80 ∧ InAuthority c ∧ c ≠ ':' ∧ c ≠ '[' ∧ c ≠ ']' ∧ c ≠ '@')
    (by decide) (toNat_lt_of_isShown h.1) h

theorem isOpaqueChar_of_isAlphanum {c : Char} (h : c.isAlphanum = true) : IsOpaqueChar c :=
  ascii_forall (P := fun c => c.isAlphanum = true → IsOpaqueChar c) (by decide) (toNat_lt_of_isAlphanum h) h

/-- A host of another scheme; the empty one is left out. -/
def WrittenOpaque : Host → Prop
  | .empty => False
  | .name text => text.toList ≠ [] ∧ ∀ c ∈ text.toList, IsOpaqueChar c
  | .ipv4 _ => False
  | .ipv6 groups => Ipv6Address groups

theorem writtenOpaque_of_parseOpaque {cs : List Char} {host : Host} (h : parseOpaque cs = .ok host)
    (hne : host ≠ .empty) : host.WrittenOpaque := by
  unfold parseOpaque at h
  split at h
  · cases h
    exact absurd rfl hne
  · obtain ⟨groups, hgroups, rfl⟩ := ipv6_of_bracketed h
    exact ipv6Address_of_ipv6? hgroups
  · rename_i hfilled _
    split at h
    · cases h
    rename_i hallowed
    cases h
    refine ⟨?_, fun c hc => ?_⟩
    · rw [escaped, String.toList_ofList]
      exact Percent.encode_ne_nil hfilled
    · rw [escaped, String.toList_ofList] at hc
      rcases Percent.mem_encode hc with ⟨hc, hshown, -⟩ | rfl | hc
      · exact ⟨hshown, by simpa using List.any_eq_false.mp (by simpa using hallowed) c hc⟩
      · decide
      · exact isOpaqueChar_of_isAlphanum hc

theorem parseOpaque_text {host : Host} (h : host.WrittenOpaque) : parseOpaque host.text.toList = .ok host := by
  cases host with
  | empty => exact absurd h id
  | ipv4 address => exact absurd h id
  | name text =>
    obtain ⟨hne, hchars⟩ := h
    have allowed : text.toList.any isForbiddenOpaque = false := List.any_eq_false.mpr fun c hc => by simp [(hchars c hc).2]
    have kept : Percent.encode isShown text.toList = text.toList :=
      Percent.encode_of_kept fun c hc => ⟨(isOpaqueChar_spec (hchars c hc)).1, (hchars c hc).1⟩
    show parseOpaque text.toList = _
    unfold parseOpaque
    split
    · rename_i hnil
      exact absurd hnil hne
    · rename_i rest hopen
      rw [hopen] at hchars
      exact absurd (hchars '[' List.mem_cons_self) (by decide)
    · simp only [allowed, escaped, kept, String.ofList_toList]
      rfl
  | ipv6 groups =>
    rw [toList_text_ipv6, parseOpaque, bracketed, List.getLast?_concat, List.dropLast_concat]
    simp only [ipv6?_text h]

section Kinds

variable [Idna]

/-- The host of a URL of the kind. -/
def read (kind : Kind) (cs : List Char) : Except ParseError Host :=
  if kind = .other then parseOpaque cs else parse cs

def WrittenIn (kind : Kind) (host : Host) : Prop := if kind = .other then host.WrittenOpaque else host.Written

/-- What is read is a host of the kind. -/
theorem writtenIn_of_read {kind : Kind} {cs : List Char} {host : Host} (h : read kind cs = .ok host)
    (hne : host ≠ .empty) : host.WrittenIn kind := by
  unfold read at h
  unfold WrittenIn
  split at h
  · rename_i hother
    rw [if_pos hother]
    exact writtenOpaque_of_parseOpaque h hne
  · rename_i hother
    rw [if_neg hother]
    exact written_of_parse h

/-- The text of a host is read as the host. -/
theorem read_text {kind : Kind} {host : Host} (h : host.WrittenIn kind) : read kind host.text.toList = .ok host := by
  unfold WrittenIn at h
  unfold read
  split at h
  · rename_i hother
    rw [if_pos hother]
    exact parseOpaque_text h
  · rename_i hother
    rw [if_neg hother]
    exact parse_text h

/-- An empty text is read as the empty host, or not at all. -/
theorem ne_nil_of_read {kind : Kind} {cs : List Char} {host : Host} (h : read kind cs = .ok host) (hne : host ≠ .empty) :
    cs ≠ [] := by
  rintro rfl
  unfold read at h
  split at h
  · cases h
    exact hne rfl
  · have empty : parse [] = .error .emptyHost := domain_nil
    cases empty.symm.trans h

end Kinds

/-! ## The text of a host -/

/-- A text in brackets, or a text that has no character with a meaning in an authority. -/
inductive Spelled : Host → Prop
  | ipv6 (groups : List Nat) : Spelled (.ipv6 groups)
  | plain {host : Host} (hne : host.text.toList ≠ [])
      (h : ∀ c ∈ host.text.toList, InAuthority c ∧ c ≠ ':' ∧ c ≠ '[' ∧ c ≠ ']' ∧ c ≠ '@') : Spelled host

theorem spelled_of_writtenIn [Idna] {kind : Kind} {host : Host} (h : host.WrittenIn kind) : host.Spelled := by
  have named : ∀ c, IsNameChar c → InAuthority c ∧ c ≠ ':' ∧ c ≠ '[' ∧ c ≠ ']' ∧ c ≠ '@' := by
    intro c hc
    obtain ⟨-, hin, -, hmarks⟩ := isNameChar_spec hc
    exact ⟨hin, hmarks⟩
  unfold WrittenIn at h
  cases host with
  | empty =>
    split at h
    · exact absurd h id
    · exact absurd h id
  | name text =>
    split at h
    · exact .plain h.1 fun c hc => (isOpaqueChar_spec (h.2 c hc)).2
    · exact .plain h.1 fun c hc => named c (h.2.1 c hc)
  | ipv4 address => exact .plain (ipv4Text_ne_nil address) fun c hc => named c (isNameChar_of_mem_ipv4Text hc)
  | ipv6 groups => exact .ipv6 groups

/-- The characters of a host end no authority, and at least one stands there. -/
theorem text_spec {host : Host} (h : host.Spelled) :
    host.text.toList ≠ [] ∧ ∀ c ∈ host.text.toList, InAuthority c ∧ c ≠ '@' := by
  cases h with
  | plain hne h => exact ⟨hne, fun c hc => ⟨(h c hc).1, (h c hc).2.2.2.2⟩⟩
  | ipv6 groups =>
    rw [toList_text_ipv6]
    refine ⟨List.cons_ne_nil _ _, fun c hc => ?_⟩
    simp only [List.mem_cons, List.mem_append, List.not_mem_nil, or_false] at hc
    rcases hc with rfl | hc | rfl
    · decide
    · rcases mem_ipv6Text hc with rfl | hc
      · decide
      · exact ⟨inAuthority_of_isAlphanum hc, ne_of_isAlphanum hc (by decide)⟩
    · decide

end Host

end Pagemark.Url
