/-
  Pagemark.Proofs.Pager.Secret — a secret shows in checksums and nowhere else.

  Two pagers with the same sizes and names that are told apart by their secrets alone, one of which
  may have none, write the same links up to the checksum in front of the token. They also answer
  alike as long as no checksum is compared: a fault of the size or of the sorting is found before
  the token is looked at, without a token there is nothing to compare, and what does not have the
  form of a checksum is refused before the right one is computed. So nothing that a client can learn
  without a checksum of its own depends on the secret, the log included.

  Diagnostics tell whether there is a secret, never which one; those of a pager do not tell even that.

  Proved: `query_link_withSecret` — the two links; `resolve_withSecret_of_unchecked` — the two answers;
  `secret_shows_in_checksums_only` — together, with the diagnostics.
-/

import Pagemark.Pager.Basic
import Pagemark.Proofs.Pager.Link
import Pagemark.Proofs.Seal.Checksum
import Pagemark.Settings.Paging

namespace Pagemark

open Text

namespace Seal

/-- A token that begins with eleven characters of the alphabet of checksums, and ends behind them or
goes on with a dot. -/
def Opens (token : String) : Prop :=
  ∃ checksum rest : List Char, token.toList = checksum ++ rest ∧ checksum.length = 11 ∧
    (∀ c ∈ checksum, Base64Url.isSymbol c = true) ∧ (rest = [] ∨ ∃ inner, rest = '.' :: inner)

/-- A token opens with a checksum exactly when what stands in front of its first dot has the form of one. -/
theorem opens_iff {token : String} : Opens token ↔ isWellFormed (parted token).1 = true := by
  simp only [isWellFormed, Bool.and_eq_true, beq_iff_eq, List.all_eq_true]
  constructor
  · rintro ⟨checksum, rest, whole, hlength, hsymbols, hrest⟩
    have undotted : '.' ∉ checksum := fun h => absurd (hsymbols '.' h) (by decide)
    have front : (parted token).1 = checksum := by
      rcases hrest with rfl | ⟨inner, rfl⟩
      · rw [parted, whole, List.append_nil, cut_of_not_mem undotted]
      · rw [parted, whole, cut_append undotted]
    rw [front]
    exact ⟨hlength, hsymbols⟩
  · rintro ⟨hlength, hsymbols⟩
    have whole := congrArg String.toList (sealed_parted token)
    cases hinner : (parted token).2 with
    | none =>
      rw [hinner, sealed, String.toList_ofList] at whole
      exact ⟨(parted token).1, [], by rw [whole, List.append_nil], hlength, hsymbols, Or.inl rfl⟩
    | some inner =>
      rw [hinner, sealed, String.toList_ofList] at whole
      exact ⟨(parted token).1, '.' :: inner.toList, whole.symm, hlength, hsymbols, Or.inr ⟨_, rfl⟩⟩

/-- A token that does not open with a checksum is refused under every lock, with the same event. -/
theorem decode_of_not_opens (lock : Lock) (codec : Codec) (bookmark : Bookmark) (identity : Identity) {token : String}
    (ht : bookmark.token = some token) (h : ¬ Opens token) :
    (codec.underSeal lock).decode bookmark identity = ⟨.error (.integrity .malformed), [malformedEvent identity]⟩ := by
  have unformed : isWellFormed (parted token).1 = false := by rwa [← Bool.not_eq_true, ← opens_iff]
  simp only [Codec.underSeal, ht, unformed, Bool.not_false, if_true]

end Seal

namespace Pager

variable (p : Pager) (a b : Option String)

/-- The pager with the standard codec under a secret, or under none. -/
def withSecret (secret : Option String) : Pager := { p with codec := (Codec.Stack.standard secret).codec }

/-! ## Links -/

/-- Two targets that differ in nothing but a checksum in front of the value of one pair. -/
structure DifferInChecksum (name : String) (t t' : Target) : Prop where
  path : t.path = t'.path
  query : ∃ (before after : List (String × String)) (checksum checksum' rest : List Char),
    t.query = before ++ (name, .ofList (checksum ++ rest)) :: after ∧
    t'.query = before ++ (name, .ofList (checksum' ++ rest)) :: after ∧
    Seal.isWellFormed checksum = true ∧ Seal.isWellFormed checksum' = true

/-- The pairs of a link under a secret: the token is the only one that the secret can show in. -/
theorem query_link_withSecret (page : Page) (t : Target) :
    ∃ checksum, Seal.isWellFormed checksum = true ∧
      ((p.withSecret a).link page t).query = (t.without p.names.toList).query
        ++ (p.names.page, .ofList (checksum ++ '.' :: (decimal page.index.toNat).toList))
        :: (p.names.size, decimal page.size.toNat) :: (Sorting.values page.sorting).map fun value => (p.names.sort, value) :=
  ⟨_, Seal.isWellFormed_checksumOf _ _, rfl⟩

theorem differInChecksum_link (page : Page) (t : Target) :
    DifferInChecksum p.names.page ((p.withSecret a).link page t) ((p.withSecret b).link page t) := by
  obtain ⟨checksum, formed, hquery⟩ := p.query_link_withSecret a page t
  obtain ⟨checksum', formed', hquery'⟩ := p.query_link_withSecret b page t
  have hpath : ((p.withSecret a).link page t).path = ((p.withSecret b).link page t).path :=
    ((p.withSecret a).path_link page t).trans ((p.withSecret b).path_link page t).symm
  exact ⟨hpath, _, _, checksum, checksum', _, hquery, hquery', formed, formed'⟩

/-! ## Answers -/

/-- A target that is answered without a look at a checksum. -/
inductive Unchecked (t : Target) : Prop
  | size {cause : SizeError} (h : p.readSize (t.first p.names.size) = .error cause)
  | sorting {cause : SortError} (h : Sorting.parse (t.values p.names.sort) = .error cause)
  | absent (h : t.first p.names.page = none)
  | unformed {token : String} (h : t.first p.names.page = some token) (unopened : ¬ Seal.Opens token)

variable {p} {t : Target}

/-- Only the codec knows the secret, so answers are told apart by what it makes of the bookmark. -/
theorem resolve_withSecret_congr
    (h : ∀ bookmark, p.bookmark t = .ok bookmark →
      (p.withSecret a).codec.decode bookmark (p.identity t) = (p.withSecret b).codec.decode bookmark (p.identity t)) :
    (p.withSecret a).resolve t = (p.withSecret b).resolve t := by
  have read (secret : Option String) : (p.withSecret secret).bookmark t = p.bookmark t := rfl
  have bound (secret : Option String) : (p.withSecret secret).identity t = p.identity t := rfl
  unfold resolve
  rw [read a, read b]
  cases hbookmark : p.bookmark t with
  | error e => rfl
  | ok bookmark =>
    simp only [bound, h bookmark hbookmark]
    rfl

/-- Whatever a target is answered with before a checksum is compared, it is answered with under every
secret. -/
theorem resolve_withSecret_of_unchecked (h : p.Unchecked t) :
    (p.withSecret a).resolve t = (p.withSecret b).resolve t := by
  apply resolve_withSecret_congr
  intro bookmark hbookmark
  obtain ⟨htoken, hsize, hsorting⟩ := p.bookmark_ok t hbookmark
  cases h with
  | size h =>
    rw [h] at hsize
    cases hsize
  | sorting h =>
    rw [h] at hsorting
    cases hsorting
  | absent h =>
    rw [h] at htoken
    have undecoded (secret : Option String) : (p.withSecret secret).codec.decode bookmark (p.identity t)
        = Codec.pageNumber.decode bookmark (p.identity t) := by
      show (Codec.pageNumber.underSeal _).decode bookmark _ = _
      simp only [Codec.underSeal, htoken]
    rw [undecoded a, undecoded b]
  | unformed h unopened =>
    rw [h] at htoken
    have refused (secret : Option String) : (p.withSecret secret).codec.decode bookmark (p.identity t)
        = ⟨.error (.integrity .malformed), [Seal.malformedEvent (p.identity t)]⟩ :=
      Seal.decode_of_not_opens _ .pageNumber bookmark _ htoken unopened
    rw [refused a, refused b]

/-! ## Diagnostics -/

/-- A value that must not be shown is shown as there, whatever it is. -/
theorem redactedText_some {α : Type} (x : α) : Codec.Stack.redactedText (some x) = "Some(\"<redacted>\")" := by
  show "Some(" ++ quoted Codec.Stack.redacted ++ ")" = _
  decide

theorem describe_withSecret : (p.withSecret a).describe = (p.withSecret b).describe := by
  unfold describe withSecret
  rfl

theorem describe_settings (s : PagingSettings) (x y : String) :
    { s with secret := some x }.describe = { s with secret := some y }.describe := by
  unfold PagingSettings.describe
  rw [redactedText_some, redactedText_some]

theorem sealText_lockOf (x y below : String) :
    Codec.Stack.sealText (Seal.lockOf x) below = Codec.Stack.sealText (Seal.lockOf y) below := by
  unfold Codec.Stack.sealText Seal.lockOf
  rw [redactedText_some, redactedText_some]

/-- Under two secrets, or under one and none, the links of a page differ in the checksum of the token
only, and targets that are answered without a look at a checksum are answered alike, events included.
Diagnostics of pagers are the same; those of settings, and of a seal over any codec, are the same for
any two secrets. -/
theorem secret_shows_in_checksums_only (p : Pager) (a b : Option String) :
    (∀ page t, DifferInChecksum p.names.page ((p.withSecret a).link page t) ((p.withSecret b).link page t)) ∧
    (∀ t, p.Unchecked t → (p.withSecret a).resolve t = (p.withSecret b).resolve t) ∧
    (p.withSecret a).describe = (p.withSecret b).describe ∧
    (∀ (s : PagingSettings) (x y : String), { s with secret := some x }.describe = { s with secret := some y }.describe) ∧
    ∀ (x y below : String),
      Codec.Stack.sealText (Seal.lockOf x) below = Codec.Stack.sealText (Seal.lockOf y) below := by
  refine ⟨p.differInChecksum_link a b, fun t => ?_, describe_withSecret a b, describe_settings, sealText_lockOf⟩
  exact resolve_withSecret_of_unchecked a b

/-- Eleven characters one of which is none of the alphabet, in front of a number. -/
theorem secret_does_not_show_in_padded :
    let t : Target := ⟨"/items", [("page", "0123456789=.1")]⟩
    standard.Unchecked t ∧
      (standard.withSecret (some "one")).resolve t = (standard.withSecret none).resolve t := by
  intro t
  have unopened : ¬ Seal.Opens "0123456789=.1" := by
    rw [Seal.opens_iff]
    decide
  have unchecked : standard.Unchecked t := .unformed rfl unopened
  exact ⟨unchecked, (secret_shows_in_checksums_only standard (some "one") none).2.1 t unchecked⟩

end Pager

end Pagemark
