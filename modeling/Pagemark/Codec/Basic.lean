/-
  Pagemark.Codec.Basic — codecs between bookmarks and pages.

  A codec reads a bookmark, for the request that the identity names, as a page, and writes a
  page as a bookmark. Reading may leave events behind. Codecs are values, so that an application
  can supply its own and the library can put layers around it.
-/

import Pagemark.Identity
import Pagemark.Log.Event
import Pagemark.Page
import Pagemark.Text.Numeral

namespace Pagemark

/-- What is wrong with the checksum of a token. -/
inductive SealFault
  /-- The token does not begin with a checksum. -/
  | malformed
  /-- The checksum is one of another request or of another token. -/
  | mismatch
  deriving DecidableEq, Repr

def SealFault.message : SealFault → String
  | .malformed => "malformed checksum"
  | .mismatch => "cursor does not belong to this request"

/-- Why a token cannot be read. -/
inductive TokenError
  | integrity (fault : SealFault)
  | pageNumber (token : String) (cause : Text.NumeralError)
  /-- A failure of a codec that the application supplies, with the messages of its causes. -/
  | malformed (message : String) (causes : List String)
  deriving DecidableEq, Repr

namespace TokenError

def message : TokenError → String
  | .integrity fault => "cursor integrity check failed: " ++ fault.message
  | .pageNumber token cause => "cursor '" ++ token ++ "' is not a valid page number: " ++ cause.message
  | .malformed message _ => message

/-- The messages of the causes, nearest first. -/
def causes : TokenError → List String
  | .integrity _ => []
  | .pageNumber _ cause => [cause.message]
  | .malformed _ causes => causes

def isIntegrity : TokenError → Bool
  | .integrity _ => true
  | _ => false

end TokenError

structure Codec where
  decode : Bookmark → Identity → Log.Traced (Except TokenError Page)
  encode : Page → Identity → Bookmark

namespace Codec

/-- The greatest page index. -/
def maxIndex : Nat := UInt64.size - 1

/-- The page that a token numbers; without a token, page 0. -/
def readNumber : Option String → Except TokenError UInt64
  | none => .ok 0
  | some token =>
    match Text.readNat 10 maxIndex token.toList with
    | .ok n => .ok (.ofNat n)
    | .error cause => .error (.pageNumber token cause)

/-- Tokens that are page numbers in decimal. Writing always gives a token, also for page 0. -/
def pageNumber : Codec where
  decode bookmark _ := .quiet ((readNumber bookmark.token).map fun index => ⟨index, bookmark.size, bookmark.sorting⟩)
  encode page _ := ⟨some (Text.decimal page.index.toNat), page.size, page.sorting⟩

/-- A codec behind a pointer that others may hold too; both directions are those of the codec. -/
def shared (codec : Codec) : Codec where
  decode bookmark identity := codec.decode bookmark identity
  encode page identity := codec.encode page identity

end Codec

end Pagemark
