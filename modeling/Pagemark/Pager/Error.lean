/-
  Pagemark.Pager.Error — what can be wrong with the paging parameters of a request.

  Every error is one of the client's input. It names the parameter at fault and keeps its
  cause, whose own causes follow in `causes`.
-/

import Pagemark.Codec.Basic

namespace Pagemark

open Text

inductive SizeError
  /-- The value, or the least 64-bit integer when it lies below that. -/
  | notPositive (value : Int)
  | notANumber (value : String) (cause : NumeralError)
  deriving DecidableEq, Repr

namespace SizeError

def message : SizeError → String
  | .notPositive value => "must be positive, got " ++ signedDecimal value
  | .notANumber value cause => "'" ++ value ++ "' is not a number: " ++ cause.message

def causes : SizeError → List String
  | .notPositive _ => []
  | .notANumber _ cause => [cause.message]

end SizeError

inductive PageError
  | size (parameter : String) (cause : SizeError)
  | token (parameter : String) (cause : TokenError)
  | sorting (parameter : String) (cause : SortError)
  deriving DecidableEq, Repr

namespace PageError

/-- The query parameter at fault. -/
def parameter : PageError → String
  | .size parameter _ => parameter
  | .token parameter _ => parameter
  | .sorting parameter _ => parameter

def code : PageError → String
  | .size .. => "INVALID_PAGE_SIZE"
  | .token .. => "INVALID_PAGINATION"
  | .sorting .. => "INVALID_SORT"

/-- The messages of the causes, nearest first. -/
def causes : PageError → List String
  | .size _ cause => cause.message :: cause.causes
  | .token _ cause => cause.message :: cause.causes
  | .sorting _ cause => [cause.message]

def message (e : PageError) : String :=
  "Invalid parameter '" ++ e.parameter ++ "': " ++ e.causes.headD ""

/-- Whether the token was refused because of its checksum. -/
def isIntegrity : PageError → Bool
  | .token _ cause => cause.isIntegrity
  | _ => false

end PageError

end Pagemark
