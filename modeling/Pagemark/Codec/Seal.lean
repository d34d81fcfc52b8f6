/-
  Pagemark.Codec.Seal — tokens bound to the request they were issued for.

  A sealed token is a checksum, and behind a dot the token of the codec below, if that codec
  gave one. The checksum is taken of the identity of the request, the page size, the sorting
  and the token below; if any of them differs, the token is refused before the codec below sees
  it. The bytes that are hashed give every text and every list with its length in front, so
  that two different requests never have the same bytes; whether there is a token below is
  marked too, so that an absent token and an empty one differ.

  Without a key the checksum shows accidents and idle tampering only: whoever knows the format
  can make one. Under a secret it is a keyed hash.
-/

import Pagemark.Codec.Basic
import Pagemark.Digest.Blake3
import Pagemark.Text.Base64Url
import Pagemark.Text.Utf8

namespace Pagemark.Seal

open Digest Text

/-- The key of a seal, if it has one. -/
abbrev Lock := Option Words

/-- The bytes of a text. -/
def textBytes (s : String) : List UInt8 := Utf8.encode s.toList

/-- Sets the keys of this use of the hash apart from all others. -/
def keyPurpose : String := "cursor-pagination integrity v1"

/-- Sets the digests of this use of the hash apart from all others. -/
def domain : String := "cursor-pagination/integrity/v1"

/-- No key. -/
def unlocked : Lock := none

/-- The key made of a secret of any length. -/
def lockOf (secret : String) : Lock := some (Blake3.deriveKey (textBytes keyPurpose) (textBytes secret))

/-! ## What is hashed -/

/-- A length as eight bytes. -/
def lengthBytes (n : Nat) : List UInt8 := littleEndian 8 n

/-- A text after its length in bytes. -/
def sizedText (s : String) : List UInt8 :=
  let bytes := textBytes s
  lengthBytes bytes.length ++ bytes

/-- A list after its length. -/
def sizedList {α : Type} (item : α → List UInt8) (items : List α) : List UInt8 :=
  lengthBytes items.length ++ items.flatMap item

def parameterBytes (entry : String × List String) : List UInt8 :=
  sizedText entry.1 ++ sizedList sizedText entry.2

def directionByte : Direction → UInt8
  | .ascending => 0x61
  | .descending => 0x64

def keyBytes (key : SortKey) : List UInt8 := sizedText key.property ++ [directionByte key.direction]

/-- An absent token is marked by 0, one that is there by 1. -/
def tokenBytes : Option String → List UInt8
  | none => [0]
  | some token => 1 :: sizedText token

/-- Everything that a token is bound to, as bytes. -/
def message (identity : Identity) (size : UInt32) (sorting : Sorting) (token : Option String) : List UInt8 :=
  textBytes domain ++ (sizedText identity.path ++ (sizedList parameterBytes identity.parameters.entries
    ++ (littleEndian 8 size.toNat ++ (sizedList keyBytes sorting ++ tokenBytes token))))

/-! ## Checksums -/

/-- How many bytes of a digest are in a checksum. -/
def digestBytes : Nat := 8

/-- The characters of a checksum. -/
def checksumLength : Nat := 11

def digest (lock : Lock) (bytes : List UInt8) : Words :=
  match lock with
  | none => Blake3.hash bytes
  | some key => Blake3.keyed key bytes

/-- The start of a digest in URL-safe characters. -/
def checksumOf (lock : Lock) (bytes : List UInt8) : List Char :=
  Base64Url.encode ((digest lock bytes).bytes.take digestBytes)

def checksum (lock : Lock) (identity : Identity) (size : UInt32) (sorting : Sorting) (token : Option String) :
    List Char :=
  checksumOf lock (message identity size sorting token)

/-- The checksums of one page of a search, without a key and under a secret. -/
example :
    let identity : Identity := ⟨"/api/items", .ofPairs [("q", "rust"), ("tag", "a"), ("tag", "b")]⟩
    let sorting : Sorting := [⟨"abc", .ascending⟩, ⟨"xyz", .descending⟩]
    checksum unlocked identity 13 sorting (some "42") = "PH-OyMae9c0".toList ∧
      checksum (lockOf "s3cret") identity 13 sorting (some "42") = "sbHa2BM-WlE".toList := by
  decide +kernel

/-- Eleven characters of the alphabet that checksums are written in. -/
def isWellFormed (cs : List Char) : Bool := cs.length == checksumLength && cs.all Base64Url.isSymbol

/-- Whether two byte strings are the same, found by folding the differences of all bytes, so that
the time taken does not tell where the first one is. -/
def agrees (a b : List UInt8) : Bool :=
  a.length == b.length && (a.zip b).foldl (fun acc (x, y) => acc ||| (x ^^^ y)) 0 == 0

/-- Parts a checksum from the token behind the first dot. -/
def parted (token : String) : List Char × Option String :=
  let (checksum, inner) := cut '.' token.toList
  (checksum, inner.map .ofList)

/-- A checksum with the token below. -/
def sealed (checksum : List Char) : Option String → String
  | none => .ofList checksum
  | some token => .ofList (checksum ++ '.' :: token.toList)

/-! ## The layer -/

def source : String := "cursor_pagination::codec::integrity"

def malformedEvent (identity : Identity) : Log.Event :=
  ⟨.warn, source, "Rejected pagination cursor with malformed checksum", [("path", .text identity.path)]⟩

def mismatchEvent (identity : Identity) (size : UInt32) : Log.Event :=
  ⟨.warn, source, "Rejected pagination cursor issued for a different request",
    [("path", .text identity.path), ("page_size", .number size.toNat)]⟩

end Seal

namespace Codec

/-- The codec under a seal. -/
def underSeal (lock : Seal.Lock) (codec : Codec) : Codec where
  decode bookmark identity :=
    match bookmark.token with
    | none => codec.decode bookmark identity
    | some token =>
      let (checksum, inner) := Seal.parted token
      if !Seal.isWellFormed checksum then
        ⟨.error (.integrity .malformed), [Seal.malformedEvent identity]⟩
      else
        let expected := Seal.checksum lock identity bookmark.size bookmark.sorting inner
        if !Seal.agrees (Text.Utf8.encode expected) (Text.Utf8.encode checksum) then
          ⟨.error (.integrity .mismatch), [Seal.mismatchEvent identity bookmark.size]⟩
        else codec.decode { bookmark with token := inner } identity
  encode page identity :=
    let inner := codec.encode page identity
    { inner with
      token := some (Seal.sealed (Seal.checksum lock identity inner.size inner.sorting inner.token) inner.token) }

end Codec

end Pagemark
