/-
  Pagemark.Proofs.Codec.RoundTrip — codecs read back what they write.

  A seal takes its checksum of exactly what it finds again when it reads: the size and the
  sorting are those of the bookmark below, and the first dot of a sealed token is the one behind
  the checksum, whatever dots the token below has. So a seal reads its own bookmark as the codec
  below reads the one below, and a stack reads back every page, by induction on the stack.

  Proved: `underSeal_decode_encode` — a seal is transparent to its own bookmarks;
  `underSeal_encode_sealsOver` — the form of a sealed bookmark;
  `stack_reads_back` — both for every codec below, and the round trip of every stack.
-/

import Pagemark.Codec.Stack
import Pagemark.Proofs.Seal.Checksum
import Pagemark.Proofs.Text.Numeral

namespace Pagemark.Codec

/-- The codec reads the bookmark that it writes for the page as the page. -/
def ReadsBack (codec : Codec) (page : Page) (identity : Identity) : Prop :=
  (codec.decode (codec.encode page identity) identity).value = .ok page

/-- The form of a sealed bookmark: size and sorting are those of the bookmark below, and the token is
a checksum, with a dot and the token below behind it exactly when there is one. -/
structure SealsOver (below sealed : Bookmark) : Prop where
  size : sealed.size = below.size
  sorting : sealed.sorting = below.sorting
  token : ∃ checksum : List Char, checksum.length = 11 ∧ (∀ c ∈ checksum, Text.Base64Url.isSymbol c = true) ∧
    sealed.token = some (.ofList (checksum ++
      match below.token with
      | none => []
      | some token => '.' :: token.toList))

variable (lock : Seal.Lock) (codec : Codec) (page : Page) (identity : Identity)

/-! ## Seals -/

/-- A seal finds the checksum that it wrote, and hands the bookmark below on as it was. -/
theorem underSeal_decode_encode :
    (underSeal lock codec).decode ((underSeal lock codec).encode page identity) identity
      = codec.decode (codec.encode page identity) identity :=
  underSeal_decode_issued lock codec ((underSeal lock codec).encode page identity) identity rfl

theorem underSeal_readsBack_iff : ReadsBack (underSeal lock codec) page identity ↔ ReadsBack codec page identity := by
  unfold ReadsBack
  rw [underSeal_decode_encode]

theorem underSeal_encode_sealsOver :
    SealsOver (codec.encode page identity) ((underSeal lock codec).encode page identity) := by
  refine ⟨rfl, rfl, Seal.checksum lock identity (codec.encode page identity).size
    (codec.encode page identity).sorting (codec.encode page identity).token,
    Seal.length_checksumOf lock _, Seal.isSymbol_of_mem_checksumOf, ?_⟩
  show some (Seal.sealed _ (codec.encode page identity).token) = _
  cases (codec.encode page identity).token with
  | none => simp [Seal.sealed]
  | some token => rfl

/-! ## Stacks -/

theorem readNumber_decimal (index : UInt64) : readNumber (some (Text.decimal index.toNat)) = .ok index := by
  have small : index.toNat ≤ maxIndex := Nat.le_of_lt_succ index.toNat_lt
  rw [readNumber, Text.readNat_decimal small]
  exact congrArg Except.ok UInt64.ofNat_toNat

theorem pageNumber_readsBack : ReadsBack pageNumber page identity := by
  show (readNumber (some (Text.decimal page.index.toNat))).map _ = _
  rw [readNumber_decimal]
  rfl

/-- What a stack writes: always a token, beside the size and the sorting of the page. -/
theorem stack_encode (stack : Stack) :
    ∃ token, stack.codec.encode page identity = ⟨some token, page.size, page.sorting⟩ := by
  induction stack with
  | pageNumber => exact ⟨_, rfl⟩
  | sealed lock below ih =>
    obtain ⟨token, h⟩ := ih
    refine ⟨Seal.sealed (Seal.checksum lock identity page.size page.sorting (some token)) (some token), ?_⟩
    show (underSeal lock below.codec).encode page identity = _
    simp only [underSeal, h]
  | shared below ih => exact ih

/-- A page that a stack reads has the size and the sorting of the bookmark. -/
theorem stack_decode (stack : Stack) {bookmark : Bookmark} {page : Page}
    (h : (stack.codec.decode bookmark identity).value = .ok page) :
    page.size = bookmark.size ∧ page.sorting = bookmark.sorting := by
  induction stack generalizing bookmark with
  | pageNumber =>
    replace h : (readNumber bookmark.token).map (fun index => Page.mk index bookmark.size bookmark.sorting)
      = .ok page := h
    cases hread : readNumber bookmark.token with
    | error e => rw [hread] at h; cases h
    | ok index => rw [hread] at h; cases h; exact ⟨rfl, rfl⟩
  | sealed lock below ih =>
    replace h : ((underSeal lock below.codec).decode bookmark identity).value = .ok page := h
    cases ht : bookmark.token with
    | none =>
      simp only [underSeal, ht] at h
      exact ih h
    | some token =>
      rw [underSeal_decode_of_token lock below.codec bookmark identity ht rfl] at h
      split at h
      · have below := ih h
        exact below
      split at h
      · cases h
      · cases h
  | shared below ih => exact ih h

/-- Page numbers under any number of seals and pointers read back every page. -/
theorem stack_readsBack (stack : Stack) : ReadsBack stack.codec page identity := by
  induction stack with
  | pageNumber => exact pageNumber_readsBack page identity
  | sealed lock below ih => exact (underSeal_readsBack_iff lock below.codec page identity).mpr ih
  | shared below ih => exact ih

/-- A seal over any codec reads back the pages that the codec below reads back, and writes a
checksum in front of the token below, if there is one, and changes nothing else. So page numbers under
any number of seals and pointers read back every page of every request. -/
theorem stack_reads_back :
    (∀ (lock : Seal.Lock) (codec : Codec) (page : Page) (identity : Identity),
      (ReadsBack (underSeal lock codec) page identity ↔ ReadsBack codec page identity) ∧
      SealsOver (codec.encode page identity) ((underSeal lock codec).encode page identity)) ∧
    ∀ (stack : Stack) (page : Page) (identity : Identity), ReadsBack stack.codec page identity := by
  refine ⟨fun lock codec page identity => ⟨?_, ?_⟩, fun stack page identity => ?_⟩
  · exact underSeal_readsBack_iff lock codec page identity
  · exact underSeal_encode_sealsOver lock codec page identity
  · exact stack_readsBack page identity stack

end Pagemark.Codec
