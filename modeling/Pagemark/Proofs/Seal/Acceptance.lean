/-
  Pagemark.Proofs.Seal.Acceptance — a seal accepts what it issues, and nothing else.

  A token is cut at its first dot into a checksum and, if there is a dot, a token below. The seal
  hands the token below on, to whatever codec is there, when the checksum is the one that it would
  write itself; any other token it refuses, as malformed when what stands for the checksum does not
  have the form of one, and else as mismatched. The form is told on bytes (`Shaped`): a text of
  eleven characters that are more bytes has it as little as one of eleven bytes that are fewer
  characters. No quick test stands in the way: every checksum has the form, and the comparison
  that does not tell where two byte strings differ still tells whether they do.

  Proved: `isWellFormed_iff_shaped` — the form; `judged_of_partedAs` — what a seal makes of a token;
  `admits_iff` — the one token that is admitted as a given token below is the one that is issued
  for it; `seal_accepts_what_it_issues` — together, with the encoder's side.
-/

import Mathlib.Logic.ExistsUnique
import Pagemark.Proofs.Seal.Checksum
import Pagemark.Proofs.Text.Percent

namespace Pagemark

open Text

namespace Seal

/-! ## The form of a checksum -/

/-- A letter or a digit of ASCII, a hyphen or an underscore. -/
def SymbolByte (b : UInt8) : Prop :=
  (0x41 ≤ b ∧ b ≤ 0x5A) ∨ (0x61 ≤ b ∧ b ≤ 0x7A) ∨ (0x30 ≤ b ∧ b ≤ 0x39) ∨ b = 0x2D ∨ b = 0x5F

instance : DecidablePred SymbolByte := fun b =>
  inferInstanceAs (Decidable ((0x41 ≤ b ∧ b ≤ 0x5A) ∨ (0x61 ≤ b ∧ b ≤ 0x7A) ∨ (0x30 ≤ b ∧ b ≤ 0x39) ∨ b = 0x2D ∨ b = 0x5F))

/-- Eleven bytes of the alphabet of checksums. -/
structure Shaped (bytes : List UInt8) : Prop where
  length : bytes.length = 11
  symbols : ∀ b ∈ bytes, SymbolByte b

theorem toNat_lt_of_symbolByte {b : UInt8} (h : SymbolByte b) : b.toNat < 0x80 := by
  rcases h with ⟨-, h⟩ | ⟨-, h⟩ | ⟨-, h⟩ | rfl | rfl
  · exact Nat.lt_of_le_of_lt h (by decide)
  · exact Nat.lt_of_le_of_lt h (by decide)
  · exact Nat.lt_of_le_of_lt h (by decide)
  · decide
  · decide

theorem toNat_lt_of_isSymbol {c : Char} (h : Base64Url.isSymbol c = true) : c.toNat < 0x80 := by
  simp only [Base64Url.isSymbol, Bool.or_eq_true, beq_iff_eq] at h
  rcases h with (h | rfl) | rfl
  · exact toNat_lt_of_isAlphanum h
  · decide
  · decide

theorem symbolByte_iff_of_ascii {c : Char} (h : c.toNat < 0x80) :
    SymbolByte (UInt8.ofNat c.toNat) ↔ Base64Url.isSymbol c = true :=
  ascii_forall (P := fun c => SymbolByte (UInt8.ofNat c.toNat) ↔ Base64Url.isSymbol c = true) (by decide) h

/-- The bytes of a character are symbols exactly when it is one; every other character has a byte of
the upper half. -/
theorem symbolBytes_char_iff (c : Char) :
    (∀ b ∈ String.utf8EncodeChar c, SymbolByte b) ↔ Base64Url.isSymbol c = true := by
  by_cases hascii : c.toNat < 0x80
  · rw [Percent.encode_ascii hascii, List.forall_mem_singleton, symbolByte_iff_of_ascii hascii]
  · refine iff_of_false (fun h => ?_) fun h => hascii (toNat_lt_of_isSymbol h)
    obtain ⟨b, hb⟩ := List.exists_mem_of_ne_nil _ (String.utf8EncodeChar_ne_nil (c := c))
    have high := Utf8.le_of_mem_char (Nat.not_lt.mp hascii) b hb
    have low := toNat_lt_of_symbolByte (h b hb)
    omega

theorem symbolBytes_iff (cs : List Char) :
    (∀ b ∈ Utf8.encode cs, SymbolByte b) ↔ ∀ c ∈ cs, Base64Url.isSymbol c = true := by
  rw [Utf8.encode, List.forall_mem_flatMap]
  exact forall₂_congr fun c _ => symbolBytes_char_iff c

/-- A text of symbols has as many bytes as characters. -/
theorem length_encode_of_symbols {cs : List Char} (h : ∀ c ∈ cs, Base64Url.isSymbol c = true) :
    (Utf8.encode cs).length = cs.length := by
  induction cs with
  | nil => rfl
  | cons c cs ih =>
    obtain ⟨hc, hcs⟩ := List.forall_mem_cons.mp h
    rw [Percent.utf8_cons_ascii (toNat_lt_of_isSymbol hc), List.length_cons, List.length_cons, ih hcs]

theorem isWellFormed_iff_shaped (cs : List Char) : isWellFormed cs = true ↔ Shaped (Utf8.encode cs) := by
  simp only [isWellFormed, Bool.and_eq_true, beq_iff_eq, List.all_eq_true]
  constructor
  · rintro ⟨hlength, hsymbols⟩
    exact ⟨(length_encode_of_symbols hsymbols).trans hlength, (symbolBytes_iff cs).mpr hsymbols⟩
  · rintro ⟨hlength, hsymbols⟩
    have hsymbols := (symbolBytes_iff cs).mp hsymbols
    exact ⟨(length_encode_of_symbols hsymbols).symm.trans hlength, hsymbols⟩

/-! ## Parts -/

/-- The token is the checksum with the token below, if there is one, behind its first dot. -/
structure PartedAs (token : String) (checksum : List Char) (inner : Option String) : Prop where
  undotted : '.' ∉ checksum
  whole : token = sealed checksum inner

theorem partedAs_iff {token : String} {checksum : List Char} {inner : Option String} :
    PartedAs token checksum inner ↔ parted token = (checksum, inner) := by
  constructor
  · rintro ⟨undotted, rfl⟩
    exact parted_sealed undotted inner
  · intro h
    have undotted : '.' ∉ (parted token).1 := cut_fst_not_mem '.' token.toList
    have whole := sealed_parted token
    rw [h] at undotted whole
    exact ⟨undotted, whole.symm⟩

/-- Every token comes apart in one way. -/
theorem existsUnique_partedAs (token : String) : ∃! parts : List Char × Option String, PartedAs token parts.1 parts.2 := by
  refine ⟨parted token, partedAs_iff.mpr rfl, ?_⟩
  intro parts h
  exact (partedAs_iff.mp h).symm

theorem partedAs_issued (lock : Lock) (identity : Identity) (size : UInt32) (sorting : Sorting) (inner : Option String) :
    PartedAs (issued lock identity size sorting inner) (checksum lock identity size sorting inner) inner :=
  ⟨dot_not_mem_checksumOf _ _, rfl⟩

/-! ## Admission -/

variable (lock : Lock) (identity : Identity) (size : UInt32) (sorting : Sorting)

/-- Whatever codec is below, it gets the token as this one. -/
def Admits (token : String) (inner : Option String) : Prop :=
  ∀ codec : Codec, (codec.underSeal lock).decode ⟨some token, size, sorting⟩ identity
    = codec.decode ⟨inner, size, sorting⟩ identity

/-- A codec that reads this token only. -/
def only (inner : Option String) : Codec where
  decode bookmark _ :=
    .quiet (if bookmark.token = inner then .ok ⟨0, bookmark.size, bookmark.sorting⟩ else .error (.malformed "" []))
  encode page _ := ⟨inner, page.size, page.sorting⟩

theorem only_reads_iff (inner below : Option String) :
    ((only inner).decode ⟨below, size, sorting⟩ identity).value = .ok ⟨0, size, sorting⟩ ↔ below = inner := by
  show (if below = inner then Except.ok (Page.mk 0 size sorting) else .error (TokenError.malformed "" [])) = _ ↔ _
  by_cases h : below = inner
  · simp [h]
  · simp [h]

/-- What a seal over the codec makes of a token with these parts. -/
structure Judged (codec : Codec) (token : String) (checksum : List Char) (inner : Option String) : Prop where
  /-- With the right checksum the codec below gets the token below, and its answer comes back as it is. -/
  accepted : checksum = Seal.checksum lock identity size sorting inner →
    (codec.underSeal lock).decode ⟨some token, size, sorting⟩ identity = codec.decode ⟨inner, size, sorting⟩ identity
  mismatched : checksum ≠ Seal.checksum lock identity size sorting inner → Shaped (Utf8.encode checksum) →
    ((codec.underSeal lock).decode ⟨some token, size, sorting⟩ identity).value = .error (.integrity .mismatch)
  malformed : checksum ≠ Seal.checksum lock identity size sorting inner → ¬ Shaped (Utf8.encode checksum) →
    ((codec.underSeal lock).decode ⟨some token, size, sorting⟩ identity).value = .error (.integrity .malformed)

variable {lock identity size sorting} {token : String} {checksum : List Char} {inner : Option String}

/-- A wrong checksum is refused before the codec below is asked. -/
theorem refused_of_partedAs (h : PartedAs token checksum inner) (codec : Codec)
    (wrong : checksum ≠ Seal.checksum lock identity size sorting inner) :
    ((codec.underSeal lock).decode ⟨some token, size, sorting⟩ identity).value
      = .error (.integrity (faultOf checksum)) :=
  Codec.underSeal_decode_of_wrong lock codec ⟨some token, size, sorting⟩ identity rfl (partedAs_iff.mp h) wrong

theorem judged_of_partedAs (h : PartedAs token checksum inner) (codec : Codec) :
    Judged lock identity size sorting codec token checksum inner := by
  refine ⟨?_, ?_, ?_⟩
  · rintro rfl
    exact Codec.underSeal_decode_issued lock codec ⟨some token, size, sorting⟩ identity (congrArg some h.whole)
  · intro wrong shaped
    rw [refused_of_partedAs h codec wrong, faultOf, if_pos ((isWellFormed_iff_shaped _).mpr shaped)]
  · intro wrong unshaped
    rw [refused_of_partedAs h codec wrong, faultOf, if_neg fun formed => unshaped ((isWellFormed_iff_shaped _).mp formed)]

/-- What is admitted as a token below is what was issued for it. -/
theorem admits_iff :
    Admits lock identity size sorting token inner ↔ token = issued lock identity size sorting inner := by
  constructor
  · -- The codec that reads one token only tells which one it was given.
    intro admits
    obtain ⟨⟨checksum, below⟩, parts, -⟩ := existsUnique_partedAs token
    have read := (only_reads_iff identity size sorting inner inner).mpr rfl
    rw [← admits (only inner)] at read
    by_cases hsum : checksum = Seal.checksum lock identity size sorting below
    · rw [(judged_of_partedAs parts (only inner)).accepted hsum, only_reads_iff] at read
      obtain rfl : below = inner := read
      rw [parts.whole, hsum, issued]
    · rw [refused_of_partedAs parts (only inner) hsum] at read
      cases read
  · rintro rfl codec
    exact (judged_of_partedAs (partedAs_issued lock identity size sorting inner) codec).accepted rfl

/-- A seal accepts what it issues. A token comes apart in one way, and is judged by its parts; without a
token the codec below decides. Every checksum has the form of one, the comparison tells equal byte
strings from others, and the token that is written for a token below is the only one that is admitted
as it. -/
theorem seal_accepts_what_it_issues (lock : Lock) (identity : Identity) (size : UInt32) (sorting : Sorting) :
    (∀ token, ∃! parts : List Char × Option String, PartedAs token parts.1 parts.2) ∧
    (∀ codec token checksum inner, PartedAs token checksum inner →
      Judged lock identity size sorting codec token checksum inner) ∧
    (∀ codec : Codec,
      (codec.underSeal lock).decode ⟨none, size, sorting⟩ identity = codec.decode ⟨none, size, sorting⟩ identity) ∧
    (∀ inner, isWellFormed (Seal.checksum lock identity size sorting inner) = true) ∧
    (∀ a b, agrees a b = true ↔ a = b) ∧
    (∀ token inner, Admits lock identity size sorting token inner ↔ token = issued lock identity size sorting inner) ∧
    (∀ inner, ∃! token, Admits lock identity size sorting token inner) ∧
    ∀ (codec : Codec) (page : Page), ((codec.underSeal lock).encode page identity).token
      = some (issued lock identity (codec.encode page identity).size (codec.encode page identity).sorting
          (codec.encode page identity).token) := by
  refine ⟨existsUnique_partedAs, fun codec token checksum inner h => judged_of_partedAs h codec, fun codec => rfl,
    fun inner => isWellFormed_checksumOf _ _, fun a b => agrees_iff, fun token inner => admits_iff, fun inner => ?_,
    fun codec page => rfl⟩
  exact ⟨issued lock identity size sorting inner, admits_iff.mpr rfl, fun token => admits_iff.mp⟩

/-- The right checksum in front of a token below that has a dot and is no number, and eleven bytes that
are six characters in place of a checksum. -/
theorem seal_accepts_what_it_issues_dotted :
    let identity : Identity := ⟨"/items", Parameters.empty⟩
    let read (token : String) : Except TokenError Page :=
      ((Codec.pageNumber.underSeal none).decode ⟨some token, 7, []⟩ identity).value
    read (issued none identity 7 [] (some "1.2")) = .error (.pageNumber "1.2" .invalidDigit) ∧
      read "ααααα1.7" = .error (.integrity .malformed) := by
  intro identity read
  obtain ⟨-, judged, -⟩ := seal_accepts_what_it_issues none identity 7 []
  constructor
  · have accepted := (judged .pageNumber _ _ (some "1.2") (partedAs_issued none identity 7 [] _)).accepted rfl
    exact congrArg Log.Traced.value accepted
  · have parts : PartedAs "ααααα1.7" "ααααα1".toList (some "7") := ⟨by decide, rfl⟩
    have wrong : "ααααα1".toList ≠ Seal.checksum none identity 7 [] (some "7") := by
      intro h
      have within : 'α' ∈ Seal.checksum none identity 7 [] (some "7") := by
        rw [← h]
        decide
      exact absurd (isSymbol_of_mem_checksumOf 'α' within) (by decide)
    refine (judged .pageNumber _ _ _ parts).malformed wrong fun shaped => ?_
    exact absurd ((symbolBytes_iff _).mp shaped.symbols 'α' (by decide)) (by decide)

end Seal

end Pagemark
