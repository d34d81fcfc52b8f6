/-
  Pagemark.Json.Lexeme — JSON text as a sequence of lexemes.

  The text is read one character at a time by an automaton (`State.step`). Words (the three
  names and the numbers) end at a blank, a mark or a quotation mark, so that what stands between
  two of these is one word and is judged as a whole. The content of a text is collected as code
  points and 16-bit escapes, and `pairUp` joins the surrogates when the text is complete.
-/

import Pagemark.Json.Value

namespace Pagemark.Json

open Text

inductive Lexeme
  | openObject
  | closeObject
  | openArray
  | closeArray
  | comma
  | colon
  | text (content : Option String)
  /-- A value that is neither a text nor in brackets. -/
  | word (value : Value)

/-- Marks stand for themselves. -/
def mark? : Char → Option Lexeme
  | '\x7b' => some .openObject
  | '\x7d' => some .closeObject
  | '[' => some .openArray
  | ']' => some .closeArray
  | ',' => some .comma
  | ':' => some .colon
  | _ => none

def isBlank (c : Char) : Bool := c == ' ' || c == '\n' || c == '\r' || c == '\t'

/-! ## Words -/

/-- The rest after one or more digits. -/
def afterDigits? : List Char → Option (List Char)
  | c :: cs => if c.isDigit then some (cs.dropWhile Char.isDigit) else none
  | [] => none

/-- Whether a text is an exponent part or empty. -/
def isExponent : List Char → Bool
  | [] => true
  | e :: cs =>
    (e == 'e' || e == 'E') &&
      match cs with
      | '+' :: digits => afterDigits? digits == some []
      | '-' :: digits => afterDigits? digits == some []
      | digits => afterDigits? digits == some []

/-- Whether a text is a fraction, an exponent, both or empty. -/
def isFraction : List Char → Bool
  | '.' :: cs =>
    match afterDigits? cs with
    | some rest => isExponent rest
    | none => false
  | cs => isExponent cs

/-- Whether a text is a number without a sign; no digit follows a leading zero. -/
def isUnsigned : List Char → Bool
  | '0' :: cs => isFraction cs
  | cs =>
    match afterDigits? cs with
    | some rest => isFraction rest
    | none => false

def isNumber : List Char → Bool
  | '-' :: cs => isUnsigned cs
  | cs => isUnsigned cs

/-- The value that a word is. -/
def word? (cs : List Char) : Option Value :=
  if cs = ['n', 'u', 'l', 'l'] then some .null
  else if cs = ['t', 'r', 'u', 'e'] then some (.flag true)
  else if cs = ['f', 'a', 'l', 's', 'e'] then some (.flag false)
  else if isNumber cs then some (.number (.ofList cs))
  else none

/-! ## Texts -/

/-- The first half of a surrogate pair. -/
def isHigh (n : Nat) : Bool := 0xD800 ≤ n && n < 0xDC00

/-- The second half of a surrogate pair. -/
def isLow (n : Nat) : Bool := 0xDC00 ≤ n && n < 0xE000

/-- The characters of code points and surrogates; a surrogate alone is none. -/
def pairUp : List Nat → Option (List Char)
  | [] => some []
  | [n] => if isHigh n || isLow n then none else some [Char.ofNat n]
  | n :: m :: rest =>
    if isHigh n then
      if isLow m then
        (pairUp rest).map (Char.ofNat (0x10000 + (n - 0xD800) * 0x400 + (m - 0xDC00)) :: ·)
      else none
    else if isLow n then none
    else (pairUp (m :: rest)).map (Char.ofNat n :: ·)

/-- The character that an escape of one letter stands for. -/
def escape? : Char → Option Nat
  | '\x22' => some 0x22
  | '\\' => some 0x5C
  | '/' => some 0x2F
  | 'b' => some 0x08
  | 'f' => some 0x0C
  | 'n' => some 0x0A
  | 'r' => some 0x0D
  | 't' => some 0x09
  | _ => none

/-! ## The automaton -/

inductive Lexeme.State
  | between
  /-- In a word; its characters, newest first. -/
  | word (before : List Char)
  /-- In a text; its units, newest first. -/
  | text (units : List Nat)
  /-- Behind a backslash. -/
  | escape (units : List Nat)
  /-- In an escape that names its unit, with the digits that are missing. -/
  | unit (units : List Nat) (value missing : Nat)

namespace Lexeme.State

/-- A character outside words and texts. -/
def start (c : Char) : List Lexeme × State :=
  if c = '\x22' then ([], .text [])
  else if isBlank c then ([], .between)
  else
    match mark? c with
    | some lexeme => ([lexeme], .between)
    | none => ([], .word [c])

def endsWord (c : Char) : Bool := c == '\x22' || isBlank c || (mark? c).isSome

/-- One character: the lexemes that it completes and the state after it. -/
def step : State → Char → Option (List Lexeme × State)
  | .between, c => some (start c)
  | .word before, c =>
    if endsWord c then
      (word? before.reverse).map fun value =>
        let (lexemes, next) := start c
        (.word value :: lexemes, next)
    else some ([], .word (c :: before))
  | .text units, c =>
    if c = '\x22' then some ([.text ((pairUp units.reverse).map .ofList)], .between)
    else if c = '\\' then some ([], .escape units)
    else if c.toNat < 0x20 then none
    else some ([], .text (c.toNat :: units))
  | .escape units, c =>
    if c = 'u' then some ([], .unit units 0 4)
    else (escape? c).map fun n => ([], .text (n :: units))
  | .unit units value missing, c =>
    (digit? 16 c).map fun d =>
      let value := value * 16 + d
      if missing ≤ 1 then ([], .text (value :: units)) else ([], .unit units value (missing - 1))

/-- What is complete at the end of the text. -/
def finish : State → Option (List Lexeme)
  | .between => some []
  | .word before => (word? before.reverse).map fun value => [.word value]
  | _ => none

/-- The lexemes of a text. -/
def run : State → List Char → Option (List Lexeme)
  | s, [] => s.finish
  | s, c :: cs =>
    match s.step c with
    | none => none
    | some (lexemes, next) => (run next cs).map (lexemes ++ ·)

end Lexeme.State

/-- The lexemes of a text; none when it is no sequence of lexemes. -/
def lexemes? (cs : List Char) : Option (List Lexeme) := Lexeme.State.between.run cs

end Pagemark.Json
