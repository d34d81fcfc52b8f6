/-
  Pagemark.Text.Base64Url — the URL-safe base64 alphabet, without padding.

  Three bytes become four characters; one or two bytes at the end become two or three. Eight
  bytes therefore become eleven characters.
-/

namespace Pagemark.Text.Base64Url

/-- The character that stands for six bits. -/
def symbol (n : Nat) : Char :=
  if n < 26 then Char.ofNat (65 + n)
  else if n < 52 then Char.ofNat (71 + n)
  else if n < 62 then Char.ofNat (n - 4)
  else if n = 62 then '-'
  else '_'

/-- The characters that `symbol` yields. -/
def isSymbol (c : Char) : Bool := c.isAlphanum || c == '-' || c == '_'

def encode : List UInt8 → List Char
  | [] => []
  | [a] =>
    let x := a.toNat
    [symbol (x / 4), symbol (x % 4 * 16)]
  | [a, b] =>
    let x := a.toNat
    let y := b.toNat
    [symbol (x / 4), symbol (x % 4 * 16 + y / 16), symbol (y % 16 * 4)]
  | a :: b :: c :: rest =>
    let x := a.toNat
    let y := b.toNat
    let z := c.toNat
    symbol (x / 4) :: symbol (x % 4 * 16 + y / 16) :: symbol (y % 16 * 4 + z / 64) :: symbol (z % 64) :: encode rest

end Pagemark.Text.Base64Url
