/-
  Pagemark.Url.Basic — URLs as records of their components.

  A URL has a scheme, an authority when two slashes follow the scheme, a path, and perhaps a
  query and a fragment, all in their written form. The schemes of the web have rules of their
  own for separators, hosts and ports, and so has `file`; `Kind` tells the three groups apart.
  Without an authority and with a path that does not begin with a slash, a URL is opaque and
  nothing can be resolved against it.
-/

import Pagemark.Text.Cut
import Pagemark.Text.Numeral

namespace Pagemark.Url

open Text

/-- Why a text is no URL. -/
inductive ParseError
  | emptyHost
  | invalidName
  | invalidPort
  | invalidIpv4
  | invalidIpv6
  | invalidHostCharacter
  | noBase
  | opaqueBase
  deriving DecidableEq, Repr

def ParseError.message : ParseError → String
  | .emptyHost => "empty host"
  | .invalidName => "invalid international domain name"
  | .invalidPort => "invalid port number"
  | .invalidIpv4 => "invalid IPv4 address"
  | .invalidIpv6 => "invalid IPv6 address"
  | .invalidHostCharacter => "invalid domain character"
  | .noBase => "relative URL without a base"
  | .opaqueBase => "relative URL with a cannot-be-a-base base"

/-- The group of schemes whose rules a URL follows. -/
inductive Kind
  | web
  | file
  | other
  deriving DecidableEq, Repr

def Kind.ofScheme (scheme : String) : Kind :=
  if scheme = "file" then .file
  else if ["http", "https", "ws", "wss", "ftp"].contains scheme then .web
  else .other

/-- Whether a character ends a path segment or an authority: a slash, and outside of the other
schemes a backslash too. -/
def Kind.isSlash : Kind → Char → Bool
  | .other, c => c == '/'
  | _, c => c == '/' || c == '\\'

/-- The port that a scheme implies; it is never written. -/
def defaultPort (scheme : String) : Option Nat :=
  if scheme = "http" ∨ scheme = "ws" then some 80
  else if scheme = "https" ∨ scheme = "wss" then some 443
  else if scheme = "ftp" then some 21
  else none

inductive Host
  | empty
  | name (text : String)
  | ipv4 (address : Nat)
  | ipv6 (groups : List Nat)
  deriving DecidableEq, Repr

/-- Credentials, host and port. -/
structure Authority where
  username : String
  password : Option String
  host : Host
  port : Option Nat
  deriving DecidableEq, Repr

end Url

structure Url where
  scheme : String
  authority : Option Url.Authority
  path : String
  query : Option String
  fragment : Option String
  deriving DecidableEq, Repr

namespace Url

open Text

def kind (u : Url) : Kind := .ofScheme u.scheme

def host (u : Url) : Host := (u.authority.map (·.host)).getD .empty

def hasHost (u : Url) : Bool := u.host != .empty

/-- Nothing can be resolved against the URL. -/
def isOpaque (u : Url) : Bool := u.authority.isNone && !(u.path.toList.head? == some '/')

/-! ## Written form -/

/-- How many groups in a row are zero at the front. -/
def leadingZeros (groups : List Nat) : Nat := (groups.takeWhile (· == 0)).length

/-- The length of the longest run of zeros. -/
def longestZeros : List Nat → Nat
  | [] => 0
  | g :: gs => max (leadingZeros (g :: gs)) (longestZeros gs)

/-- How many groups stand before the first run of `n` zeros. -/
def beforeZeros (n : Nat) : List Nat → Nat
  | [] => 0
  | g :: gs => if n ≤ leadingZeros (g :: gs) then 0 else beforeZeros n gs + 1

def groupsText (groups : List Nat) : String := ":".intercalate (groups.map hexadecimal)

/-- The groups, the first of the longest runs of two or more zeros left out. -/
def ipv6Text (groups : List Nat) : String :=
  let longest := longestZeros groups
  if longest < 2 then groupsText groups
  else
    let start := beforeZeros longest groups
    groupsText (groups.take start) ++ "::" ++ groupsText (groups.drop (start + longest))

def ipv4Text (address : Nat) : String :=
  ".".intercalate ([16777216, 65536, 256, 1].map fun place => decimal (address / place % 256))

def Host.text : Host → String
  | .empty => ""
  | .name text => text
  | .ipv4 address => ipv4Text address
  | .ipv6 groups => "[" ++ ipv6Text groups ++ "]"

def Authority.hasCredentials (a : Authority) : Bool := a.username != "" || a.password.isSome

def Authority.text (a : Authority) : String :=
  let password := match a.password with
    | some p => ":" ++ p
    | none => ""
  let credentials := if a.hasCredentials then a.username ++ password ++ "@" else ""
  let port := match a.port with
    | some n => ":" ++ decimal n
    | none => ""
  credentials ++ a.host.text ++ port

/-- What stands between the scheme and the path. Without an authority, a path that begins with
two slashes is kept from looking like one. -/
def authorityText (u : Url) : String :=
  match u.authority with
  | some a => "//" ++ a.text
  | none => if (after? ['/', '/'] u.path.toList).isSome then "/." else ""

def text (u : Url) : String :=
  let query := match u.query with
    | some q => "?" ++ q
    | none => ""
  let fragment := match u.fragment with
    | some f => "#" ++ f
    | none => ""
  u.scheme ++ ":" ++ u.authorityText ++ u.path ++ query ++ fragment

end Url

end Pagemark
