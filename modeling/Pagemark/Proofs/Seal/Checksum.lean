/-
  Pagemark.Proofs.Seal.Checksum — checksums and the tokens that carry them.

  A checksum is eleven characters of the base64url alphabet whatever was hashed, so it passes
  the check of its form, and the first dot of a token is the one behind the checksum. Eight
  bytes can be told from their eleven characters; two equal checksums are therefore two digests
  that agree on their first eight bytes.

  Proved: `parted_sealed` — a sealed token comes apart as it was put together;
  `underSeal_decode_of_token` — a seal hands on exactly the tokens whose checksum is the one it
  would give, and refuses the others as malformed or mismatched (`underSeal_decode_issued`,
  `underSeal_decode_of_wrong`);
  `digest_agrees_of_checksum_eq` — equal checksums agree on eight bytes of the digest.
-/

import Pagemark.Codec.Seal
import Pagemark.Proofs.Text.Cut
import Pagemark.Proofs.Text.Utf8

namespace Pagemark

open Text

/-! ## The alphabet -/

namespace Text.Base64Url

theorem toNat_symbol :
    ∀ n : Fin 64, (symbol n).toNat
      = if n.val < 26 then 65 + n.val else if n.val < 52 then 71 + n.val else if n.val < 62 then n.val - 4
        else if n.val = 62 then 45 else 95 := by
  decide

theorem isSymbol_symbol (n : Nat) : isSymbol (symbol n) = true := by
  by_cases h : n < 64
  · exact (by decide : ∀ k : Fin 64, isSymbol (symbol k) = true) ⟨n, h⟩
  · have hs : symbol n = '_' := by
      unfold symbol
      rw [if_neg (by omega), if_neg (by omega), if_neg (by omega), if_neg (by omega)]
    rw [hs]; rfl

theorem symbol_injective {m n : Nat} (hm : m < 64) (hn : n < 64) (h : symbol m = symbol n) : m = n := by
  have h := congrArg Char.toNat h
  rw [toNat_symbol ⟨m, hm⟩, toNat_symbol ⟨n, hn⟩] at h
  simp only at h
  repeat' split at h
  all_goals omega

theorem isSymbol_of_mem_encode (bs : List UInt8) : ∀ c ∈ encode bs, isSymbol c = true := by
  fun_induction encode bs with
  | case1 => intro c hc; cases hc
  | case2 a x => simp [isSymbol_symbol]
  | case3 a b x y => simp [isSymbol_symbol]
  | case4 a b c rest x y z ih =>
    intro d hd
    simp only [List.mem_cons] at hd
    rcases hd with rfl | rfl | rfl | rfl | hd
    iterate 4 exact isSymbol_symbol _
    exact ih d hd

theorem length_encode (bs : List UInt8) : (encode bs).length = (4 * bs.length + 2) / 3 := by
  fun_induction encode bs with
  | case1 => simp
  | case2 => simp
  | case3 => simp
  | case4 a b c rest x y z ih => simp only [List.length_cons, ih]; omega

theorem length_eq_of_encode_eq {as bs : List UInt8} (h : encode as = encode bs) : as.length = bs.length := by
  have h := congrArg List.length h
  rw [length_encode, length_encode] at h
  omega

/-- Six bits of one byte and two of the next: the first byte of a group. -/
theorem first_of_symbols {a b : UInt8} {x y : Nat} (hx : x < 16) (hy : y < 16)
    (h1 : symbol (a.toNat / 4) = symbol (b.toNat / 4))
    (h2 : symbol (a.toNat % 4 * 16 + x) = symbol (b.toNat % 4 * 16 + y)) : a = b ∧ x = y := by
  have ha := a.toNat_lt
  have hb := b.toNat_lt
  have e1 := symbol_injective (by omega) (by omega) h1
  have e2 := symbol_injective (by omega) (by omega) h2
  exact ⟨UInt8.toNat_inj.mp (by omega), by omega⟩

/-- Four bits of one byte and four of the next: the second byte of a group. -/
theorem second_of_symbols {a b : UInt8} {x y : Nat} (hx : x < 4) (hy : y < 4) (h1 : a.toNat / 16 = b.toNat / 16)
    (h2 : symbol (a.toNat % 16 * 4 + x) = symbol (b.toNat % 16 * 4 + y)) : a = b ∧ x = y := by
  have ha := a.toNat_lt
  have hb := b.toNat_lt
  have e2 := symbol_injective (by omega) (by omega) h2
  exact ⟨UInt8.toNat_inj.mp (by omega), by omega⟩

theorem encode_injective : ∀ {as bs : List UInt8}, encode as = encode bs → as = bs
  | [], [], _ => rfl
  | [a], [b], h => by
    simp only [encode, List.cons.injEq, and_true] at h
    rw [(first_of_symbols (by omega) (by omega) h.1 (x := 0) (y := 0) h.2).1]
  | [a, a'], [b, b'], h => by
    have ha := a'.toNat_lt
    have hb := b'.toNat_lt
    simp only [encode, List.cons.injEq, and_true] at h
    obtain ⟨e1, e⟩ := first_of_symbols (by omega) (by omega) h.1 h.2.1
    obtain ⟨e2, -⟩ := second_of_symbols (x := 0) (y := 0) (by omega) (by omega) e h.2.2
    rw [e1, e2]
  | a :: a' :: a'' :: as, b :: b' :: b'' :: bs, h => by
    have ha := a'.toNat_lt
    have hb := b'.toNat_lt
    have ha' := a''.toNat_lt
    have hb' := b''.toNat_lt
    simp only [encode, List.cons.injEq] at h
    obtain ⟨h1, h2, h3, h4, h⟩ := h
    obtain ⟨e1, e⟩ := first_of_symbols (by omega) (by omega) h1 h2
    obtain ⟨e2, e⟩ := second_of_symbols (by omega) (by omega) e h3
    have e3 := symbol_injective (by omega) (by omega) h4
    rw [e1, e2, UInt8.toNat_inj.mp (show a''.toNat = b''.toNat by omega), encode_injective h]
  | [], _ :: _, h => by simpa using length_eq_of_encode_eq h
  | _ :: _, [], h => by simpa using length_eq_of_encode_eq h
  | [_], _ :: _ :: _, h => by simpa using length_eq_of_encode_eq h
  | _ :: _ :: _, [_], h => by simpa using length_eq_of_encode_eq h
  | [_, _], _ :: _ :: _ :: _, h => by simpa using length_eq_of_encode_eq h
  | _ :: _ :: _ :: _, [_, _], h => by simpa using length_eq_of_encode_eq h

end Text.Base64Url

/-! ## Checksums -/

namespace Digest

theorem Words.length_bytes (w : Words) : w.bytes.length = 32 := by
  have width : ∀ x : UInt32, (littleEndian 4 x.toNat).length = 4 := fun x => length_littleEndian 4 x.toNat
  simp [Words.bytes, List.length_flatMap, width, List.map_const']

end Digest

namespace Seal

open Digest

theorem length_checksumOf (lock : Lock) (bytes : List UInt8) : (checksumOf lock bytes).length = 11 := by
  simp [checksumOf, Base64Url.length_encode, Words.length_bytes, digestBytes]

theorem isSymbol_of_mem_checksumOf {lock : Lock} {bytes : List UInt8} :
    ∀ c ∈ checksumOf lock bytes, Base64Url.isSymbol c = true :=
  Base64Url.isSymbol_of_mem_encode _

theorem isWellFormed_checksumOf (lock : Lock) (bytes : List UInt8) : isWellFormed (checksumOf lock bytes) = true := by
  simp only [isWellFormed, Bool.and_eq_true, beq_iff_eq, List.all_eq_true]
  exact ⟨length_checksumOf lock bytes, isSymbol_of_mem_checksumOf⟩

theorem dot_not_mem_checksumOf (lock : Lock) (bytes : List UInt8) : '.' ∉ checksumOf lock bytes := by
  intro h
  exact absurd (isSymbol_of_mem_checksumOf _ h) (by decide)

/-- Equal checksums are digests that agree on their first eight bytes. -/
theorem digest_agrees_of_checksum_eq {lock : Lock} {a b : List UInt8} (h : checksumOf lock a = checksumOf lock b) :
    (digest lock a).bytes.take 8 = (digest lock b).bytes.take 8 :=
  Base64Url.encode_injective h

/-! ## Comparison -/

/-- The differences are folded with `or`, so the fold is zero only if it was and all bytes agree. -/
theorem foldl_difference_eq_zero (pairs : List (UInt8 × UInt8)) (acc : UInt8) :
    pairs.foldl (fun acc (x, y) => acc ||| (x ^^^ y)) acc = 0 ↔ acc = 0 ∧ ∀ pair ∈ pairs, pair.1 = pair.2 := by
  induction pairs generalizing acc with
  | nil => simp
  | cons pair pairs ih =>
    rw [List.foldl_cons, ih, UInt8.or_eq_zero_iff, UInt8.xor_eq_zero_iff, List.forall_mem_cons, and_assoc]

theorem forall_zip_iff {as bs : List UInt8} (hl : as.length = bs.length) :
    (∀ pair ∈ as.zip bs, pair.1 = pair.2) ↔ as = bs := by
  induction as generalizing bs with
  | nil => simp [List.eq_nil_of_length_eq_zero hl.symm]
  | cons a as ih =>
    cases bs with
    | nil => simp at hl
    | cons b bs => rw [List.zip_cons_cons, List.forall_mem_cons, ih (by simpa using hl), List.cons.injEq]

theorem agrees_iff {a b : List UInt8} : agrees a b = true ↔ a = b := by
  simp only [agrees, Bool.and_eq_true, beq_iff_eq, foldl_difference_eq_zero]
  constructor
  · rintro ⟨hl, -, h⟩
    exact (forall_zip_iff hl).mp h
  · rintro rfl
    exact ⟨rfl, trivial, (forall_zip_iff rfl).mpr rfl⟩

/-! ## Tokens -/

/-- The token that a seal gives for a request. -/
def issued (lock : Lock) (identity : Identity) (size : UInt32) (sorting : Sorting) (inner : Option String) : String :=
  sealed (checksum lock identity size sorting inner) inner

/-- Why a checksum that is not the expected one is refused. -/
def faultOf (checksum : List Char) : SealFault := if isWellFormed checksum then .mismatch else .malformed

theorem parted_sealed {checksum : List Char} (h : '.' ∉ checksum) (inner : Option String) :
    parted (sealed checksum inner) = (checksum, inner) := by
  cases inner with
  | none => simp [parted, sealed, cut_of_not_mem h]
  | some token => simp [parted, sealed, cut_append h]

/-- A token is its parts sealed together again. -/
theorem sealed_parted (token : String) : sealed (parted token).1 (parted token).2 = token := by
  have whole := uncut_cut '.' token.toList
  apply String.toList_injective
  rcases hcut : cut '.' token.toList with ⟨before, _ | behind⟩
  · rw [hcut] at whole
    simpa [parted, hcut, sealed, uncut] using whole
  · rw [hcut] at whole
    simpa [parted, hcut, sealed, uncut] using whole

end Seal

namespace Codec

variable (lock : Seal.Lock) (codec : Codec)

/-- A seal hands a token on when its checksum is the one that the seal would give, and else says
whether it is a checksum at all. -/
theorem underSeal_decode_of_token (bookmark : Bookmark) (identity : Identity) {token : String}
    {checksum : List Char} {inner : Option String} (ht : bookmark.token = some token)
    (hp : Seal.parted token = (checksum, inner)) :
    (underSeal lock codec).decode bookmark identity =
      if checksum = Seal.checksum lock identity bookmark.size bookmark.sorting inner then
        codec.decode { bookmark with token := inner } identity
      else if Seal.isWellFormed checksum then
        ⟨.error (.integrity .mismatch), [Seal.mismatchEvent identity bookmark.size]⟩
      else ⟨.error (.integrity .malformed), [Seal.malformedEvent identity]⟩ := by
  simp only [underSeal, ht, hp]
  by_cases hc : checksum = Seal.checksum lock identity bookmark.size bookmark.sorting inner
  · have formed : Seal.isWellFormed checksum = true := by rw [hc]; exact Seal.isWellFormed_checksumOf _ _
    have same := Seal.agrees_iff.mpr (congrArg Utf8.encode hc.symm)
    rw [if_pos hc, formed, same]
    rfl
  rw [if_neg hc]
  by_cases formed : Seal.isWellFormed checksum = true
  · have differ : Seal.agrees (Utf8.encode (Seal.checksum lock identity bookmark.size bookmark.sorting inner))
        (Utf8.encode checksum) = false := by
      rw [← Bool.not_eq_true, Seal.agrees_iff]
      exact fun h => hc (Utf8.encode_injective h).symm
    rw [formed, differ]
    rfl
  · simp [formed]

/-- What the seal issued, it hands on. -/
theorem underSeal_decode_issued (bookmark : Bookmark) (identity : Identity) {inner : Option String}
    (ht : bookmark.token = some (Seal.issued lock identity bookmark.size bookmark.sorting inner)) :
    (underSeal lock codec).decode bookmark identity = codec.decode { bookmark with token := inner } identity := by
  have parts : Seal.parted (Seal.issued lock identity bookmark.size bookmark.sorting inner)
      = (Seal.checksum lock identity bookmark.size bookmark.sorting inner, inner) :=
    Seal.parted_sealed (Seal.dot_not_mem_checksumOf _ _) inner
  rw [underSeal_decode_of_token lock codec bookmark identity ht parts]
  exact if_pos rfl

/-- What has another checksum, it refuses, whatever the codec below would say. -/
theorem underSeal_decode_of_wrong (bookmark : Bookmark) (identity : Identity) {token : String}
    {checksum : List Char} {inner : Option String} (ht : bookmark.token = some token)
    (hp : Seal.parted token = (checksum, inner))
    (wrong : checksum ≠ Seal.checksum lock identity bookmark.size bookmark.sorting inner) :
    ((underSeal lock codec).decode bookmark identity).value = .error (.integrity (Seal.faultOf checksum)) := by
  rw [underSeal_decode_of_token lock codec bookmark identity ht hp, if_neg wrong]
  unfold Seal.faultOf
  split
  · rfl
  · rfl

end Codec

end Pagemark
