/-
  Pagemark.Url.Host — reading the host of a URL.

  In brackets stands an IPv6 address. A host of a web scheme or of `file` is a domain name:
  percent-decoded, in its ASCII form, free of the characters that a name cannot hold; one that ends
  in a number has to be an IPv4 address, whose parts may be decimal, octal or hexadecimal. The
  host of any other scheme is kept as it is.
-/

import Pagemark.Url.Idna

namespace Pagemark.Url.Host

open Text

/-! ## IPv4 -/

/-- A part of an IPv4 address in one of the three bases; an empty rest after `0x` is zero. -/
def ipv4Part? (cs : List Char) : Option Nat :=
  let (base, digits) := match cs with
    | '0' :: 'x' :: rest => (16, rest)
    | '0' :: 'X' :: rest => (16, rest)
    | '0' :: d :: rest => (8, d :: rest)
    | cs => (10, cs)
  if cs.isEmpty then none
  else digits.foldlM (fun n c => (digit? base c).map (n * base + ·)) 0

/-- The labels between dots, an empty last one left out. -/
def labels (cs : List Char) : List (List Char) :=
  let all := pieces (· == '.') cs
  if all.length > 1 && all.getLast? == some [] then all.dropLast else all

/-- Whether the last label is a number, so that the name has to be an IPv4 address. -/
def endsInNumber (cs : List Char) : Bool :=
  match (labels cs).getLast? with
  | some last => (!last.isEmpty && last.all Char.isDigit) || (ipv4Part? last).isSome
  | none => false

/-- The value of the parts: the last one fills all places that are left. -/
def ipv4Value? : (places : Nat) → List Nat → Option Nat
  | _, [] => none
  | places, [last] => if last < Nat.pow 256 places then some last else none
  | 0, _ => none
  | places + 1, part :: more =>
    if part < 256 then (ipv4Value? places more).map (part * Nat.pow 256 places + ·) else none

def ipv4? (cs : List Char) : Option Nat := do
  let parts ← (labels cs).mapM ipv4Part?
  if parts.length ≤ 4 then ipv4Value? 4 parts else none

/-! ## IPv6 -/

/-- One to four hexadecimal digits. -/
def ipv6Group? (cs : List Char) : Option Nat :=
  if cs.isEmpty || 4 < cs.length then none
  else cs.foldlM (fun n c => (digit? 16 c).map (n * 16 + ·)) 0

/-- One byte in decimal without a leading zero. -/
def byte? (cs : List Char) : Option Nat :=
  match cs with
  | [] => none
  | '0' :: _ :: _ => none
  | cs => (readDigits 10 255 .tooLarge 0 cs).toOption

/-- Four decimal bytes as two groups. -/
def dottedGroups? (cs : List Char) : Option (List Nat) :=
  match (pieces (· == '.') cs).mapM byte? with
  | some [a, b, c, d] => some [a * 256 + b, c * 256 + d]
  | _ => none

/-- The groups between colons. With `dotted`, the last piece may be four decimal bytes. -/
def ipv6Groups? (dotted : Bool) : List (List Char) → Option (List Nat)
  | [] => some []
  | [last] =>
    if dotted && last.contains '.' then dottedGroups? last else (ipv6Group? last).map fun g => [g]
  | piece :: more => do
    let g ← ipv6Group? piece
    let gs ← ipv6Groups? dotted more
    return g :: gs

/-- What stands before the first double colon, and what follows it. -/
def cutDoubleColon : List Char → List Char × Option (List Char)
  | [] => ([], none)
  | ':' :: ':' :: rest => ([], some rest)
  | c :: cs => (c :: (cutDoubleColon cs).1, (cutDoubleColon cs).2)

/-- No pieces in an empty text. -/
def colonPieces (cs : List Char) : List (List Char) := if cs.isEmpty then [] else pieces (· == ':') cs

/-- Eight groups; a double colon stands for one or more groups of zeros. -/
def ipv6? (cs : List Char) : Option (List Nat) := do
  match cutDoubleColon cs with
  | (all, none) =>
    let groups ← ipv6Groups? true (colonPieces all)
    if groups.length = 8 then return groups else none
  | (before, some behind) =>
    let left ← ipv6Groups? false (colonPieces before)
    let right ← ipv6Groups? true (colonPieces behind)
    let missing := 8 - (left.length + right.length)
    if 0 < missing then return left ++ List.replicate missing 0 ++ right else none

/-! ## Hosts -/

/-- A character that no host of another scheme holds. -/
def isForbiddenOpaque (c : Char) : Bool := "\x00\t\n\r #/:<>?@[\\]^|".toList.contains c

def bracketed (cs : List Char) : Except ParseError Host :=
  match cs.getLast? with
  | some ']' =>
    match ipv6? cs.dropLast with
    | some groups => .ok (.ipv6 groups)
    | none => .error .invalidIpv6
  | _ => .error .invalidIpv6

section Domain

variable [Idna]

/-- A domain name or an IPv4 address. -/
def domain (cs : List Char) : Except ParseError Host :=
  match Idna.toAscii (Utf8.decode (Percent.decode (Utf8.encode cs))) with
  | none => .error .invalidName
  | some cs =>
    if cs.any isForbidden then .error .invalidName
    else if cs.isEmpty then .error .emptyHost
    else if endsInNumber cs then
      match ipv4? cs with
      | some address => .ok (.ipv4 address)
      | none => .error .invalidIpv4
    else .ok (.name (.ofList cs))

/-- The host of a web scheme or of `file`. -/
def parse : List Char → Except ParseError Host
  | '[' :: rest => bracketed rest
  | cs => domain cs

end Domain

/-- The host of any other scheme. -/
def parseOpaque : List Char → Except ParseError Host
  | [] => .ok .empty
  | '[' :: rest => bracketed rest
  | cs =>
    if cs.any isForbiddenOpaque then .error .invalidHostCharacter else .ok (.name (escaped isShown cs))

end Pagemark.Url.Host
