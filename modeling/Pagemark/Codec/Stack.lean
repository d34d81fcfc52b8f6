/-
  Pagemark.Codec.Stack — the codecs that the library offers: page numbers under any number of
  seals, each held as it is or behind a pointer.

  A stack is data, so that it can be shown. Showing a seal tells whether it has a key, never
  the key.
-/

import Pagemark.Codec.Seal
import Pagemark.Text.Quoted

namespace Pagemark.Codec

inductive Stack
  | pageNumber
  | sealed (lock : Seal.Lock) (below : Stack)
  /-- A stack behind a pointer. -/
  | shared (below : Stack)

namespace Stack

/-- The codec that the stack describes. -/
def codec : Stack → Codec
  | .pageNumber => .pageNumber
  | .sealed lock below => .underSeal lock below.codec
  | .shared below => .shared below.codec

/-- A seal over page numbers, keyed when there is a secret. -/
def standard (secret : Option String) : Stack := .sealed (secret.bind Seal.lockOf) .pageNumber

/-- Stands for a value that must not be shown. -/
def redacted : String := "<redacted>"

/-- An optional value that must not be shown. -/
def redactedText {α : Type} : Option α → String
  | none => "None"
  | some _ => "Some(" ++ Text.quoted redacted ++ ")"

/-- A seal on one line, over a codec that shows itself as `below`. -/
def sealText (lock : Seal.Lock) (below : String) : String :=
  "IntegrityCheckingCodec \x7b inner: " ++ below ++ ", key: " ++ redactedText lock ++ " \x7d"

/-- The stack on one line, for diagnostics. -/
def describe : Stack → String
  | .pageNumber => "SimplePageCodec"
  | .sealed lock below => sealText lock below.describe
  | .shared below => below.describe

end Stack

end Pagemark.Codec
