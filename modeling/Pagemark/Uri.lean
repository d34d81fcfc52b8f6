/-
  Pagemark.Uri — the URI of an HTTP request.

  A request names its target as a path with a query, as a whole URI, as an authority alone, or
  as an asterisk. Reading checks the characters of each part and keeps the path and the query
  as they are written, without decoding; a fragment is dropped.
-/

import Pagemark.Text.Cut

namespace Pagemark

open Text

structure Uri where
  path : String
  query : Option String
  deriving DecidableEq, Repr

namespace Uri

inductive ParseError
  | empty
  | tooLong
  | schemeTooLong
  | invalidCharacter
  | invalidAuthority
  | invalidFormat
  deriving DecidableEq, Repr

def ParseError.message : ParseError → String
  | .empty => "empty string"
  | .tooLong => "uri too long"
  | .schemeTooLong => "scheme too long"
  | .invalidCharacter => "invalid uri character"
  | .invalidAuthority => "invalid authority"
  | .invalidFormat => "invalid format"

/-- The greatest length of a URI in bytes. -/
def maxLength : Nat := 65534

def maxSchemeLength : Nat := 64

def isPathCharacter (c : Char) : Bool :=
  let n := c.toNat
  n == 0x21 || n == 0x22 || (0x24 ≤ n && n ≤ 0x3B) || n == 0x3D || (0x40 ≤ n && n ≤ 0x5F)
    || (0x61 ≤ n && n != 0x7F)

def isQueryCharacter (c : Char) : Bool :=
  let n := c.toNat
  n == 0x21 || (0x24 ≤ n && n ≤ 0x3B) || n == 0x3D || (0x3F ≤ n && n != 0x7F)

def isSchemeCharacter (c : Char) : Bool := c.isAlphanum || c == '+' || c == '-' || c == '.' || c == '~'

/-- A character of an authority, apart from the percent sign. -/
def isAuthorityCharacter (c : Char) : Bool :=
  c.isAlphanum || "!$&\x27()*+,-.:;=@[]_~".toList.contains c

def endsAuthority (c : Char) : Bool := c == '/' || c == '?' || c == '#'

/-- Path and query of what follows the authority. -/
def readTarget (cs : List Char) : Except ParseError Uri :=
  let path := cs.takeWhile fun c => c != '?' && c != '#'
  let query? := match cs.dropWhile fun c => c != '?' && c != '#' with
    | '?' :: rest => some (rest.takeWhile (· != '#'))
    | _ => none
  if !path.all isPathCharacter then .error .invalidCharacter
  else if !(query?.getD []).all isQueryCharacter then .error .invalidCharacter
  else .ok ⟨if path.isEmpty then "/" else .ofList path, query?.map .ofList⟩

/-- What has been seen of an authority. Colons and percent signs in front of an at sign or of a
closing bracket do not count. -/
structure AuthorityScan where
  colons : Nat
  opened : Bool
  closed : Bool
  percent : Bool
  afterAt : Bool

/-- One character of an authority. -/
def AuthorityScan.step (s : AuthorityScan) (c : Char) : Except ParseError AuthorityScan :=
  let s' := { s with afterAt := false }
  if c = ':' then
    if 8 ≤ s.colons then .error .invalidAuthority else .ok { s' with colons := s.colons + 1 }
  else if c = '[' then
    if s.percent || s.opened then .error .invalidAuthority else .ok { s' with opened := true }
  else if c = ']' then
    if !s.opened || s.closed then .error .invalidAuthority
    else .ok { s' with closed := true, colons := 0, percent := false }
  else if c = '@' then .ok { s' with colons := 0, percent := false, afterAt := true }
  else if c = '%' then .ok { s' with percent := true }
  else if isAuthorityCharacter c then .ok s'
  else .error .invalidCharacter

/-- Checks an authority: brackets in pairs, at most one colon for the port, no percent sign in
the host, and something after an at sign. -/
def checkAuthority (cs : List Char) : Except ParseError Unit := do
  let s ← cs.foldlM AuthorityScan.step ⟨0, false, false, false, false⟩
  if s.opened != s.closed || 1 < s.colons || s.afterAt || s.percent then throw .invalidAuthority

/-- How many characters stand before the `://` that ends a scheme. -/
def schemeLength? : List Char → Option Nat
  | ':' :: rest => if (after? ['/', '/'] rest).isSome then some 0 else none
  | c :: cs => if isSchemeCharacter c then (schemeLength? cs).map (· + 1) else none
  | [] => none

/-- The length of the scheme that a text begins with. The two schemes of HTTP need nothing
behind them; any other scheme is only looked for in more than three characters. -/
def findScheme (cs : List Char) : Except ParseError (Option Nat) :=
  match schemeLength? cs with
  | none => .ok none
  | some n =>
    if cs.length ≤ 3 then .ok none
    else if maxSchemeLength < n then .error .schemeTooLong
    else .ok (some n)

/-- An authority alone, which has neither path nor query. -/
def authorityOnly : Uri := ⟨"", none⟩

def readAbsolute (cs : List Char) : Except ParseError Uri := do
  match ← findScheme cs with
  | none =>
    let authority := cs.takeWhile (!endsAuthority ·)
    checkAuthority authority
    if authority.length = cs.length then return authorityOnly else throw .invalidFormat
  | some n =>
    let rest := cs.drop (n + 3)
    if rest.isEmpty then throw .empty
    let authority := rest.takeWhile (!endsAuthority ·)
    checkAuthority authority
    if authority.isEmpty then throw .invalidFormat
    readTarget (rest.drop authority.length)

/-- Reads the URI of a request. -/
def parse (s : String) : Except ParseError Uri :=
  if maxLength < s.utf8ByteSize then .error .tooLong
  else
    match s.toList with
    | [] => .error .empty
    | ['*'] => .ok ⟨"*", none⟩
    | '/' :: cs => readTarget ('/' :: cs)
    | [c] => do
      checkAuthority ([c].takeWhile (!endsAuthority ·))
      if endsAuthority c then throw .invalidCharacter
      return authorityOnly
    | cs => readAbsolute cs

end Uri

end Pagemark
