/-
  Pagemark.Url.Alphabet — which characters count in a URL, and which of them stand unescaped in
  which component.
-/

import Pagemark.Text.Percent
import Pagemark.Url.Basic

namespace Pagemark.Url

/-- Tabs and line breaks do not count, wherever they stand. -/
def isIgnored (c : Char) : Bool := c == '\t' || c == '\n' || c == '\r'

/-- The characters that count. -/
def counted (cs : List Char) : List Char := cs.filter (!isIgnored ·)

/-- Neither a control character nor outside ASCII. -/
def isShown (c : Char) : Bool := 0x20 ≤ c.toNat && c.toNat < 0x7F

def fragmentKeeps (c : Char) : Bool := isShown c && !" \x22<>\x60".toList.contains c

def pathKeeps (c : Char) : Bool := fragmentKeeps c && !"#?\x7b\x7d".toList.contains c

def credentialKeeps (c : Char) : Bool := pathKeeps c && !"/:;=@[\\]^|".toList.contains c

/-- The query of a web scheme or of `file` escapes the apostrophe too. -/
def queryKeeps (kind : Kind) (c : Char) : Bool :=
  isShown c && !" \x22#<>".toList.contains c && (kind == .other || c != '\x27')

/-- An encoded text. -/
def escaped (keep : Char → Bool) (cs : List Char) : String := .ofList (Text.Percent.encode keep cs)

end Pagemark.Url
